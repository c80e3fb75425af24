import NoSQLOptimizer.AI.Provider
import NoSQLOptimizer.Concurrency.System
import Mathlib.Data.List.Dedup
import Mathlib.Data.List.Sort
import Mathlib.Data.String.Basic

namespace NoSQLOptimizer.Ranking

open ControlPlane Concurrency Encoding AI

/-- `CandidateRankingError`, what the provider raises, a handle that is not in the mapping, and what
the database raises. -/
inductive Error
  | ranking : String → Error
  | provider : ProviderFailure → Error
  | key
  | integrity : String → Error
  deriving DecidableEq

abbrev RowId := Nat

structure CandidateRow where
  id : CandidateId
  optimizationRunId : RunId
  deterministicFingerprint : String
  policyClassification : Option String
  deriving DecidableEq

structure CandidateActionRow where
  candidateId : CandidateId
  actionType : String
  actionPayload : Json
  deriving DecidableEq

structure GenerationRow where
  id : RowId
  candidateCount : Nat
  deriving DecidableEq

/-- A row of `candidate_ranking_artifacts`. -/
structure RankingArtifact where
  id : RowId
  optimizationRunId : RunId
  generationArtifactId : RowId
  aiInvocationId : RowId
  orderedCandidateIds : List String
  artifactFingerprint : String
  deriving DecidableEq

structure CandidateRankingResult where
  artifactId : RowId
  orderedCandidateIds : List String
  deriving DecidableEq

/-- The control plane's tables, as far as rankings concern them, and the clock.  The candidates are
under their primary key and under `uq_candidate_run_fingerprint`.  `returned` is a log of this model:
what was returned for which run. -/
structure Store where
  now : Instant := 0
  runs : RunId → Option OptimizationRun := fun _ => none
  generations : RunId → Option GenerationRow := fun _ => none
  diagnosed : RunId → Bool := fun _ => false
  candidates : List CandidateRow := []
  candidates_nodup : (candidates.map (·.id)).Nodup := by decide
  fingerprints_nodup : (candidates.map (fun c =>
    (c.optimizationRunId, c.deterministicFingerprint))).Nodup := by decide
  actions : List CandidateActionRow := []
  invocations : List AIInvocation := []
  artifacts : List RankingArtifact := []
  returned : List (RunId × CandidateRankingResult) := []

namespace Store

def candidatesOf (s : Store) (r : RunId) : List CandidateRow :=
  s.candidates.filter (·.optimizationRunId = r)

/-- `ORDER BY deterministic_fingerprint`: no two candidates of a run share theirs, so that they are
listed in one order. -/
def orderedCandidates (s : Store) (r : RunId) : List CandidateRow :=
  (s.candidatesOf r).insertionSort (·.deterministicFingerprint ≤ ·.deterministicFingerprint)

/-- `action_by_candidate`: of several actions the last one counts. -/
def action (s : Store) (id : CandidateId) : Option CandidateActionRow :=
  (s.actions.filter (·.candidateId = id)).getLast?

def artifactForRun (s : Store) (r : RunId) : Option RankingArtifact :=
  s.artifacts.find? (·.optimizationRunId = r)

def artifactById (s : Store) (id : RowId) : Option RankingArtifact := s.artifacts.find? (·.id = id)

def invocation (s : Store) (id : RowId) : Option AIInvocation := s.invocations.find? (·.id = id)

/-- `uuid4()`: ids that no row has. -/
def freshInvocationId (s : Store) : RowId := s.invocations.foldr (fun v n => max (v.id + 1) n) 0

def freshArtifactId (s : Store) : RowId := s.artifacts.foldr (fun a n => max (a.id + 1) n) 0

end Store

def RankingArtifact.result (a : RankingArtifact) : CandidateRankingResult :=
  ⟨a.id, a.orderedCandidateIds⟩

inductive Label
  | existing
  | run
  | generation
  | diagnosis
  | candidates
  | actions
  | current
  | insert
  | artifact
  | invocation
  | returned
  deriving DecidableEq

abbrev Proc (α : Type) := Process Label Store Error α

/-- The service; `sha256` digests the text of a canonical document, which `dumps` writes. -/
structure CandidateRankingService where
  sha256 : Json → String
  dumps : Json → String
  providerName : String
  chatModel : String

/-- What `_load` finds. -/
structure Payload where
  snapshotId : SnapshotId
  generationId : RowId
  candidateIds : List CandidateId
  summaries : List String

/-- `C1`, `C2` and so on. -/
def handles (n : Nat) : List String := (List.range' 1 n).map (fun i => "C" ++ toString i)

/-- As many, as sets the same, and none twice. -/
def Covers (received expected : List String) : Prop :=
  received.length = expected.length ∧ (received ⊆ expected ∧ expected ⊆ received) ∧
    received.dedup.length = received.length

instance (received expected : List String) : Decidable (Covers received expected) := by
  unfold Covers
  infer_instance

/-- `handle_to_id[handle]` for each of them. -/
def resolve (ids : List CandidateId) (received : List String) : Option (List String) :=
  received.mapM (fun handle => (((handles ids.length).zip ids).lookup handle).map toString)

def uncovered : String := "ranking must contain every persisted candidate exactly once"

def require (holds : Prop) [Decidable holds] (message : String) : Proc PUnit :=
  .raiseIf (!decide holds) (.ranking message)

namespace CandidateRankingService

variable (S : CandidateRankingService)

def hash (j : Json) : String := S.sha256 j.canonical

def artifactHash (r : RunId) (generation : RowId) (ordered : List String) (output : Json) : String :=
  S.hash (.object [("run_id", .str (toString r)), ("generation", .str (toString generation)),
    ("ordered", strings ordered), ("output", output)])

/-- The safe summary of a candidate, where it has an action. -/
def summary (s : Store) (c : CandidateRow) : Option String :=
  (s.action c.id).map (fun action => S.dumps (Json.object [
    ("action_type", .str action.actionType), ("typed_action", action.actionPayload),
    ("policy_classification", (c.policyClassification.map Json.str).getD .null)]).canonical)

def load (r : RunId) : Proc Payload := do
  let run ← Process.read .run (fun s => s.runs r)
  let generation ← Process.read .generation (fun s => s.generations r)
  let diagnosed ← Process.read .diagnosis (fun s => s.diagnosed r)
  let candidates ← Process.read .candidates (fun s => s.orderedCandidates r)
  let summaries ← Process.read .actions (fun s => candidates.mapM (S.summary s))
  match run.bind (·.workloadSnapshotId), generation with
  | some snapshotId, some generation =>
    require (diagnosed ∧ generation.candidateCount ≠ 0)
      "a non-empty completed generation artifact is required"
    require (candidates.length = generation.candidateCount)
      "generation artifact candidate count mismatch"
    match summaries with
    | none => throw (.ranking "candidate action is missing")
    | some summaries => return ⟨snapshotId, generation.id, candidates.map (·.id), summaries⟩
  | _, _ => throw (.ranking "a non-empty completed generation artifact is required")

/-- The rows of a ranking. -/
def invocation (r : RunId) (payload : Payload) (output : Json) (s : Store) : AIInvocation where
  id := s.freshInvocationId
  createdAt := s.now
  optimizationRunId := r
  stage := "RANKING"
  provider := S.providerName
  model := S.chatModel
  promptVersion := "v1"
  schemaVersion := "candidate-ranking-v1"
  workloadSnapshotId := payload.snapshotId
  inputHash := S.hash (.object [("candidate_handles", strings (handles payload.candidateIds.length)),
    ("summaries", strings payload.summaries)])
  sanitizedInput := .object [("candidate_handles", strings (handles payload.candidateIds.length)),
    ("candidate_summaries", strings payload.summaries)]
  outputHash := some (S.hash output)
  validatedOutput := some output
  status := "COMPLETED"
  safeErrorCode := none
  attemptNumber := 1

def artifact (r : RunId) (payload : Payload) (ordered : List String) (output : Json) (s : Store) :
    RankingArtifact where
  id := s.freshArtifactId
  optimizationRunId := r
  generationArtifactId := payload.generationId
  aiInvocationId := s.freshInvocationId
  orderedCandidateIds := ordered
  artifactFingerprint := S.artifactHash r payload.generationId ordered output

/-- Both inserts and the commit; either all of it or, where a `UNIQUE` constraint is violated, none. -/
def insert (r : RunId) (payload : Payload) (ordered : List String) (output : Json) (s : Store) :
    Except Error (CandidateRankingResult × Store) :=
  let a := S.artifact r payload ordered output s
  if s.artifacts.any (fun b => b.optimizationRunId = r ∨ b.artifactFingerprint = a.artifactFingerprint)
  then .error (.integrity "candidate_ranking_artifacts")
  else .ok (a.result, { s with
    invocations := s.invocations ++ [S.invocation r payload output s]
    artifacts := s.artifacts ++ [a] })

/-- `FOR UPDATE` locks no row where there is none: another ranking may be committed before this one. -/
def persist (r : RunId) (payload : Payload) (ordered : List String) (output : Json) :
    Proc CandidateRankingResult := do
  match ← Process.read .current (fun s => s.artifactForRun r) with
  | some current => return current.result
  | none => .atomic .insert (S.insert r payload ordered output)

/-- What the provider answers to the handles and summaries that it is given. -/
abbrev Answer := List RankingCandidateInput → Except ProviderFailure CandidateHandleRanking

def transport (payload : Payload) : List RankingCandidateInput :=
  ((handles payload.candidateIds.length).zip payload.summaries).map (fun x => ⟨x.1, x.2⟩)

def createForRun (r : RunId) (answer : Answer) : Proc CandidateRankingResult := do
  match ← Process.read .existing (fun s => s.artifactForRun r) with
  | some existing => return existing.result
  | none =>
    let payload ← S.load r
    match answer (transport payload) with
    | .error failure => throw (.provider failure)
    | .ok ranking =>
      require (Covers ranking.candidateHandles (handles payload.candidateIds.length)) uncovered
      match resolve payload.candidateIds ranking.candidateHandles with
      | none => throw .key
      | some received =>
        require (Covers received (payload.candidateIds.map toString)) uncovered
        S.persist r payload received ranking.dump

/-- What the verifier makes of the rows that it reads. -/
def verifies (a : RankingArtifact) (v : AIInvocation) (candidates : List CandidateRow) : Bool :=
  match v.validatedOutput with
  | none => false
  | some output =>
    match CandidateHandleRanking.validate output with
    | none => false
    | some validated =>
      decide (Covers validated.candidateHandles (handles candidates.length)) &&
        resolve (candidates.map (·.id)) validated.candidateHandles = some a.orderedCandidateIds &&
        a.artifactFingerprint = S.artifactHash a.optimizationRunId a.generationArtifactId
          a.orderedCandidateIds output

def verifyRankingIntegrity (id : RowId) : Proc Bool := do
  match ← Process.read .artifact (fun s => s.artifactById id) with
  | none => return false
  | some a =>
    match ← Process.read .invocation (fun s => s.invocation a.aiInvocationId) with
    | none => return false
    | some v =>
      if v.stage ≠ "RANKING" ∨ v.status ≠ "COMPLETED" then return false
      else
        let candidates ← Process.read .candidates (fun s => s.orderedCandidates a.optimizationRunId)
        return S.verifies a v candidates

end CandidateRankingService

/-- The ordering and the recorded output are changed to these, in the rows of these ids. -/
def Store.tampered (s : Store) (id invocationId : RowId) (ordered : List String)
    (output : Option Json) : Store :=
  { s with
    artifacts := s.artifacts.map (fun a =>
      if a.id = id then { a with orderedCandidateIds := ordered } else a)
    invocations := s.invocations.map (fun v =>
      if v.id = invocationId then { v with validatedOutput := output } else v) }

/-- Callers, each with what the provider answers it; what a call returns is logged.  Outside of the
calls the rest of the control plane goes on. -/
def rankings (S : CandidateRankingService) (ι : Type) :
    System Label Store Error ι (RunId × CandidateRankingService.Answer) Store where
  call _ k := do
    let result ← S.createForRun k.1 k.2
    .modify .returned (fun s => { s with returned := s.returned ++ [(k.1, result)] })
  crash _ s := s
  env t _ := t

/-- Once a run's generation is complete, its candidates are fixed; invocations are immutable, and
rankings are made by this service only. -/
structure Outside (s t : Store) : Prop where
  generations : ∀ r g, s.generations r = some g → t.generations r = some g
  candidates : ∀ r, (s.generations r).isSome = true → (t.candidatesOf r).Perm (s.candidatesOf r)
  invocations : ∃ more, t.invocations = s.invocations ++ more
  artifacts : t.artifacts = s.artifacts
  returned : t.returned = s.returned

end NoSQLOptimizer.Ranking
