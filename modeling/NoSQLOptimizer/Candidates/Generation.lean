import NoSQLOptimizer.Candidates.Definitions
import NoSQLOptimizer.Concurrency.Growth
import NoSQLOptimizer.ControlPlane.Rows

namespace NoSQLOptimizer.Candidates.Generation

open ControlPlane Concurrency Transactions Encoding Actions
open Workloads (ShapeId)

abbrev RowId := Nat

/-- A row of `candidates`. -/
structure Candidate where
  id : RowId
  optimizationRunId : RunId
  queryShapeId : ShapeId
  status : String := "PROPOSED"
  candidateHash : String
  sourceSnapshotId : RowId
  sourceDiagnosisId : RowId
  deterministicFingerprint : String
  generationRuleId : String := "candidate-generator-v1"
  generationRuleVersion : String := "1"
  affectedQueryShapeIds : List String
  evidenceRefs : List String
  policyClassification : String := "AUTO_ELIGIBLE_AFTER_ADMISSION"
  deriving DecidableEq

/-- A row of `candidate_actions`. -/
structure CandidateAction where
  candidateId : RowId
  actionType : String := "CREATE_INDEX"
  actionPayload : List (String × Json)
  reversible : Bool := true
  deriving DecidableEq

/-- A row of `candidate_generation_artifacts`. -/
structure Artifact where
  id : RowId
  optimizationRunId : RunId
  workloadSnapshotId : RowId
  diagnosisArtifactId : RowId
  generatorVersion : String := "1"
  candidateCount : Nat
  orderedCandidateFingerprints : List String
  artifactFingerprint : String
  completedAt : Instant
  deriving DecidableEq

structure Result where
  artifactId : RowId
  candidateIds : List RowId
  candidateCount : Nat
  deriving DecidableEq

/-- `returned` is no table but a log of this model: what calls for a run have returned. -/
structure Tables where
  candidates : List Candidate := []
  actions : List CandidateAction := []
  artifacts : List Artifact := []
  returned : List (RunId × Result) := []
  deriving DecidableEq

/-- The rows, and the entries of the unique indexes. -/
inductive Key
  | candidate : RowId → Key
  | candidateHash : String → Key
  | runFingerprint : RunId → String → Key
  | artifact : RowId → Key
  | artifactOf : RunId → Key
  | artifactFingerprint : String → Key
  deriving DecidableEq

inductive Write
  | insertCandidate : Candidate → Write
  | insertAction : CandidateAction → Write
  | insertArtifact : Artifact → Write
  | logReturn : RunId → Result → Write
  deriving DecidableEq

inductive Query
  | selectArtifact : Bool → RunId → Query
  | selectCandidates : RunId → Query
  | insertCandidate : Candidate → Query
  | insertAction : Query
  | insertArtifact : Artifact → Query
  | logReturn : Query

inductive Error
  | candidateGeneration : String → Error
  | validation : ValidationError → Error
  | integrity : String → Error
  | multipleResultsFound
  deriving DecidableEq

namespace Tables

variable (t : Tables)

/-- The artifact of a run, of which there is one at most. -/
def artifactsOf (r : RunId) : List Artifact := t.artifacts.filter (·.optimizationRunId = r)

def candidatesOf (r : RunId) : List Candidate := t.candidates.filter (·.optimizationRunId = r)

/-- `ORDER BY deterministic_fingerprint`. -/
def orderedIds (r : RunId) : List RowId :=
  ((t.candidatesOf r).insertionSort
    (·.deterministicFingerprint ≤ ·.deterministicFingerprint)).map (·.id)

end Tables

namespace Write

def apply : Write → Tables → Tables
  | insertCandidate row, t => { t with candidates := t.candidates ++ [row] }
  | insertAction row, t => { t with actions := t.actions ++ [row] }
  | insertArtifact row, t => { t with artifacts := t.artifacts ++ [row] }
  | logReturn r result, t => { t with returned := t.returned ++ [(r, result)] }

def keys : Write → List Key
  | insertCandidate row => [.candidate row.id, .candidateHash row.candidateHash,
      .runFingerprint row.optimizationRunId row.deterministicFingerprint]
  | insertArtifact row => [.artifact row.id, .artifactOf row.optimizationRunId,
      .artifactFingerprint row.artifactFingerprint]
  | _ => []

end Write

/-- What a statement waits for; only one of the two selects of an artifact is `FOR UPDATE`. -/
def Query.needs : Query → Tables → List Key
  | selectArtifact forUpdate r, t =>
    if forUpdate then (t.artifactsOf r).map (.artifact ·.id) else []
  | insertCandidate row, _ => (Write.insertCandidate row).keys
  | insertArtifact row, _ => (Write.insertArtifact row).keys
  | _, _ => []

/-- The rows of that key are those that were there. -/
def Key.Same : Key → Tables → Tables → Prop
  | candidate id, t, u => t.candidates.filter (·.id = id) = u.candidates.filter (·.id = id)
  | candidateHash h, t, u =>
    t.candidates.filter (·.candidateHash = h) = u.candidates.filter (·.candidateHash = h)
  | runFingerprint r f, t, u =>
    (t.candidatesOf r).filter (·.deterministicFingerprint = f) =
      (u.candidatesOf r).filter (·.deterministicFingerprint = f)
  | artifact id, t, u => t.artifacts.filter (·.id = id) = u.artifacts.filter (·.id = id)
  | artifactOf r, t, u => t.artifactsOf r = u.artifactsOf r
  | artifactFingerprint f, t, u =>
    t.artifacts.filter (·.artifactFingerprint = f) = u.artifacts.filter (·.artifactFingerprint = f)

theorem Key.same_refl (k : Key) (t : Tables) : k.Same t t := by
  cases k <;> rfl

theorem Key.same_trans {k : Key} {t u v : Tables} (h : k.Same t u) (h' : k.Same u v) :
    k.Same t v := by
  cases k <;> exact Eq.trans h h'

theorem filter_concat_of_not {ρ : Type} {rows : List ρ} {row : ρ} {wanted : ρ → Bool}
    (h : wanted row = false) : rows.filter wanted = (rows ++ [row]).filter wanted := by
  rw [List.filter_append, List.filter_cons_of_neg (by simp [h]), List.filter_nil, List.append_nil]

theorem Write.same_apply {k : Key} {w : Write} (t : Tables) (h : k ∉ w.keys) :
    k.Same t (w.apply t) := by
  cases w with
  | insertCandidate row =>
    cases k with
    | candidate id =>
      exact filter_concat_of_not (decide_eq_false (fun heq => h (by simp [keys, heq])))
    | candidateHash hash =>
      exact filter_concat_of_not (decide_eq_false (fun heq => h (by simp [keys, heq])))
    | runFingerprint r f =>
      simp only [Key.Same, Tables.candidatesOf, List.filter_filter, apply]
      refine filter_concat_of_not (Bool.and_eq_false_iff.mpr ?_)
      by_cases hr : row.optimizationRunId = r
      · exact .inl (decide_eq_false (fun heq => h (by simp [keys, hr, heq])))
      · exact .inr (decide_eq_false hr)
    | _ => rfl
  | insertArtifact row =>
    cases k with
    | artifact id =>
      exact filter_concat_of_not (decide_eq_false (fun heq => h (by simp [keys, heq])))
    | artifactOf r =>
      exact filter_concat_of_not (decide_eq_false (fun heq => h (by simp [keys, heq])))
    | artifactFingerprint f =>
      exact filter_concat_of_not (decide_eq_false (fun heq => h (by simp [keys, heq])))
    | _ => rfl
  | insertAction row => cases k <;> rfl
  | logReturn r result => cases k <;> rfl

def schema : Schema Tables Key Write Query where
  apply := Write.apply
  keys := Write.keys
  needs := Query.needs
  Same := Key.Same
  same_refl := Key.same_refl
  same_trans := Key.same_trans
  same_apply := Write.same_apply

abbrev Store (ι : Type) := Database Tables Key Write ι

abbrev Proc (ι α : Type) := Process (Statement Query) (Store ι) Error α

/-- What a call reads before its transaction: `_load_inputs` and `_index_metadata`. -/
structure Reading where
  snapshotId : RowId
  diagnosisId : RowId
  shapes : List SnapshotShapeRow
  evidence : ShapeId → List String
  indexes : IndexMetadata

/-- A call for a run: what it reads, or why the inputs are refused, and the ids and the time that it
draws. -/
structure Call where
  run : RunId
  reading : Except String Reading
  candidateIds : Nat → RowId
  artifactId : RowId
  completedAt : Instant

section

variable (S : DeterministicIndexGenerator)

def definitionsOf (reading : Reading) : Except ValidationError (List Definition) :=
  S.definitions reading.indexes reading.shapes reading.evidence

/-- `_hash`. -/
def hash (fields : List (String × Json)) : String := S.sha256 (Json.object fields).canonical

def Call.candidate (k : Call) (reading : Reading) (n : Nat) (d : Definition) : Candidate where
  id := k.candidateIds n
  optimizationRunId := k.run
  queryShapeId := d.queryShapeId
  candidateHash := hash S [("run_id", .str (toString k.run)), ("fingerprint", .str d.fingerprint)]
  sourceSnapshotId := reading.snapshotId
  sourceDiagnosisId := reading.diagnosisId
  deterministicFingerprint := d.fingerprint
  affectedQueryShapeIds := [toString d.queryShapeId]
  evidenceRefs := d.evidenceRefs

def Call.action (k : Call) (n : Nat) (d : Definition) : CandidateAction where
  candidateId := k.candidateIds n
  actionPayload := d.action.modelDump

def Call.artifact (k : Call) (reading : Reading) (definitions : List Definition) : Artifact where
  id := k.artifactId
  optimizationRunId := k.run
  workloadSnapshotId := reading.snapshotId
  diagnosisArtifactId := reading.diagnosisId
  candidateCount := definitions.length
  orderedCandidateFingerprints := definitions.map (·.fingerprint)
  artifactFingerprint := hash S [("run_id", .str (toString k.run)),
    ("snapshot", .str (toString reading.snapshotId)),
    ("diagnosis", .str (toString reading.diagnosisId)), ("generator", .str "1"),
    ("candidates", .list (definitions.map (.str ·.fingerprint)))]
  completedAt := k.completedAt

end

section

variable {ι : Type} [DecidableEq ι] (S : DeterministicIndexGenerator) (i : ι)

/-- `one_or_none()` of the run's artifacts. -/
def selectArtifact (forUpdate : Bool) (r : RunId) : Proc ι (Option Artifact) :=
  schema.execute i (.selectArtifact forUpdate r) (fun t => match t.artifactsOf r with
    | [] => .ok (none, [])
    | [artifact] => .ok (some artifact, [])
    | _ => .error .multipleResultsFound)

def selectCandidates (r : RunId) : Proc ι (List RowId) :=
  schema.execute i (.selectCandidates r) (fun t => .ok (t.orderedIds r, []))

def insertCandidate (row : Candidate) : Proc ι PUnit :=
  schema.execute i (.insertCandidate row) (fun t =>
    if t.candidates.any (·.id = row.id) then .error (.integrity "candidates_pkey")
    else if t.candidates.any (·.candidateHash = row.candidateHash) then
      .error (.integrity "candidates_candidate_hash_key")
    else if (t.candidatesOf row.optimizationRunId).any
        (·.deterministicFingerprint = row.deterministicFingerprint) then
      .error (.integrity "uq_candidate_run_fingerprint")
    else .ok (⟨⟩, [.insertCandidate row]))

def insertAction (row : CandidateAction) : Proc ι PUnit :=
  schema.execute i .insertAction (fun _ => .ok (⟨⟩, [.insertAction row]))

def insertArtifact (row : Artifact) : Proc ι PUnit :=
  schema.execute i (.insertArtifact row) (fun t =>
    if t.artifacts.any (·.id = row.id) then
      .error (.integrity "candidate_generation_artifacts_pkey")
    else if t.artifactsOf row.optimizationRunId ≠ [] then
      .error (.integrity "candidate_generation_artifacts_optimization_run_id_key")
    else if t.artifacts.any (·.artifactFingerprint = row.artifactFingerprint) then
      .error (.integrity "candidate_generation_artifacts_artifact_fingerprint_key")
    else .ok (⟨⟩, [.insertArtifact row]))

/-- `_existing`; its connection writes nothing. -/
def existing (r : RunId) : Proc ι (Option Result) := do
  let found ← schema.transaction i (do
    match ← selectArtifact i false r with
    | none => return none
    | some artifact => do
      let ids ← selectCandidates i r
      return some (artifact, ids))
  match found with
  | none => return none
  | some (artifact, ids) =>
    if ids.length ≠ artifact.candidateCount then
      .fail (.candidateGeneration "candidate generation artifact does not match persisted candidates")
    else return some ⟨artifact.id, ids, artifact.candidateCount⟩

/-- A candidate with its action for each definition, from the `n`-th on. -/
def insertAll (k : Call) (reading : Reading) : Nat → List Definition → Proc ι PUnit
  | _, [] => .ret ⟨⟩
  | n, d :: definitions => do
    insertCandidate i (k.candidate S reading n d)
    insertAction i (k.action n d)
    insertAll k reading (n + 1) definitions

/-- The short persistence transaction. -/
def persist (k : Call) (reading : Reading) (definitions : List Definition) : Proc ι Result :=
  schema.transaction i (do
    match ← selectArtifact i true k.run with
    | some artifact => do
      let ids ← selectCandidates i k.run
      return ⟨artifact.id, ids, artifact.candidateCount⟩
    | none => do
      insertAll S i k reading 0 definitions
      insertArtifact i (k.artifact S reading definitions)
      return ⟨k.artifactId, (List.range definitions.length).map k.candidateIds, definitions.length⟩)

def createForRun (k : Call) : Proc ι Result := do
  match ← existing i k.run with
  | some result => return result
  | none =>
    match k.reading with
    | .error message => .fail (.candidateGeneration message)
    | .ok reading =>
      match definitionsOf S reading with
      | .error e => .fail (.validation e)
      | .ok definitions => persist S i k reading definitions

/-- A call, and that it returns. -/
def call (i : ι) (k : Call) : Proc ι PUnit := do
  let result ← createForRun S i k
  schema.transaction i (schema.execute i .logReturn
    (fun _ => .ok (⟨⟩, [.logReturn k.run result])))

end

end NoSQLOptimizer.Candidates.Generation
