import Mathlib.Data.List.AList
import Mathlib.Data.List.Sort
import NoSQLOptimizer.Concurrency.Process
import NoSQLOptimizer.Encoding.Json

namespace NoSQLOptimizer.Evaluation

open Concurrency Encoding

abbrev Uri := String

abbrev ServerId := Nat

/-- An index as `list_indexes` shows it, but for its `v` and `ns`: the copy leaves them out. -/
structure IndexDocument where
  name : String
  key : List (String × Json)
  options : List (String × Json) := []
  deriving DecidableEq

structure Collection where
  documents : List Json := []
  indexes : List IndexDocument := []
  deriving DecidableEq

/-- The collections of a database, in the order in which the server lists them. -/
abbrev Database := AList (fun _ : String => Collection)

structure Server where
  databases : String → Database := fun _ => ∅
  version : String := ""
  fcv : String := ""
  setName : String := ""
  fsUsedSize : Nat := 0

abbrev Servers := ServerId → Server

namespace Servers

variable (servers : Servers) (i : ServerId) (name : String)

def database : Database := (servers i).databases name

def put (db : Database) : Servers :=
  Function.update servers i
    { servers i with databases := Function.update (servers i).databases name db }

end Servers

/-- The `ValueError` and the `RuntimeError`s of the copier, and what the driver raises. -/
inductive Error
  | value : String → Error
  | runtime : String → Error
  | driver : String → Error
  deriving DecidableEq

/-- The driver: the server that a URI leads to, the order of `sort=[("_id", 1)]`, and what the
server makes of a collection, if there is one, when a document or an index is added to it. -/
structure MongoDriver where
  connect : Uri → Except String ServerId
  sorted : List Json → List Json
  insertOne : Option Collection → Json → Except String Collection
  createIndex : Option Collection → IndexDocument → Except String Collection

inductive Label
  | buildInfo
  | getParameter
  | hello
  | serverStatus
  | listCollections
  | find
  | listIndexes
  | drop
  | insert
  | createIndex
  deriving DecidableEq

abbrev Proc (α : Type) := Process Label Servers Error α

/-- What `_state` returns. -/
structure State where
  datasetFingerprint : String
  indexesFingerprint : String
  querySettingsFingerprint : String
  mongodbVersion : String
  fcv : String
  topology : String
  deriving DecidableEq

structure EvaluationState where
  sourceDatasetFingerprint : String
  evaluationDatasetFingerprint : String
  sourceTopologyIdentity : String
  evaluationTopologyIdentity : String
  freeDiskBytes : Nat
  mongodbVersion : String := ""
  featureCompatibilityVersion : String := ""
  relevantIndexesFingerprint : String := ""
  querySettingsFingerprint : String := ""
  workloadFingerprint : String := ""
  deriving DecidableEq

/-- The copier; `hash` digests what `json.dumps` writes of a value. -/
structure MongoEvaluationStateCopier where
  driver : MongoDriver
  hash : Json → String
  monitoredUri : Uri
  evaluationUri : Uri
  databaseName : String
  workloadDefinition : Json

def Collection.indexJson (index : IndexDocument) : Json :=
  .object (("name", .str index.name) :: ("key", .object index.key) :: index.options)

namespace MongoEvaluationStateCopier

variable (C : MongoEvaluationStateCopier)

def databaseOf (i : ServerId) (servers : Servers) : Database := servers.database i C.databaseName

def names (i : ServerId) (servers : Servers) : List String :=
  (C.databaseOf i servers).keys.insertionSort (· ≤ ·)

def documents (i : ServerId) (name : String) (servers : Servers) : List Json :=
  C.driver.sorted (((C.databaseOf i servers).lookup name).elim [] (·.documents))

def indexes (i : ServerId) (name : String) (servers : Servers) : List IndexDocument :=
  ((C.databaseOf i servers).lookup name).elim [] (·.indexes)

/-- `_state`. -/
def state (i : ServerId) : Proc State := do
  let build ← Process.read .buildInfo (fun servers => (servers i).version)
  let fcv ← Process.read .getParameter (fun servers => (servers i).fcv)
  let hello ← Process.read .hello (fun servers => (servers i).setName)
  let collections ← (← Process.read .listCollections (C.names i)).mapM' (fun name => do
    let documents ← Process.read .find (C.documents i name)
    return (name, Json.list documents))
  let indexes ← (← Process.read .listCollections (C.names i)).mapM' (fun name => do
    let indexes ← Process.read .listIndexes (C.indexes i name)
    return (name, Json.list (indexes.map Collection.indexJson)))
  return { datasetFingerprint := C.hash (.object collections)
           indexesFingerprint := C.hash (.object indexes)
           querySettingsFingerprint := C.hash (.list [])
           mongodbVersion := build
           fcv := fcv
           topology := hello }

def drop (i : ServerId) (name : String) : Proc PUnit :=
  .modify .drop (fun servers =>
    servers.put i C.databaseName ((C.databaseOf i servers).erase name))

/-- What the server makes of the collection is put in its place, or it refuses. -/
def change (i : ServerId) (name : String) (f : Option Collection → Except String Collection)
    (servers : Servers) : Except Error (PUnit × Servers) :=
  match f ((C.databaseOf i servers).lookup name) with
  | .error e => .error (.driver e)
  | .ok collection =>
    .ok (⟨⟩, servers.put i C.databaseName ((C.databaseOf i servers).insert name collection))

/-- `insert_many(documents, ordered=True)`, which may stop at any of them. -/
def insertMany (i : ServerId) (name : String) (documents : List Json) : Proc PUnit :=
  documents.forM (fun document =>
    .atomic .insert (C.change i name (C.driver.insertOne · document)))

def createIndexes (i : ServerId) (name : String) (indexes : List IndexDocument) : Proc PUnit :=
  indexes.forM (fun index => .when (index.name ≠ "_id_")
    (.atomic .createIndex (C.change i name (C.driver.createIndex · index))))

/-- `_replace_database`. -/
def replaceDatabase (source destination : ServerId) : Proc PUnit := do
  let dropped ← Process.read .listCollections (fun servers => (C.databaseOf destination servers).keys)
  dropped.forM (C.drop destination)
  let copied ← Process.read .listCollections (C.names source)
  copied.forM (fun name => do
    let documents ← Process.read .find (C.documents source name)
    C.insertMany destination name documents
    let indexes ← Process.read .listIndexes (C.indexes source name)
    C.createIndexes destination name indexes)

def connect (uri : Uri) : Proc ServerId :=
  .ofExcept ((C.driver.connect uri).mapError Error.driver)

def verified (source evaluation : State) (freeDiskBytes : Nat) : EvaluationState where
  sourceDatasetFingerprint := source.datasetFingerprint
  evaluationDatasetFingerprint := evaluation.datasetFingerprint
  sourceTopologyIdentity := source.topology
  evaluationTopologyIdentity := evaluation.topology
  freeDiskBytes := freeDiskBytes
  mongodbVersion := source.mongodbVersion
  featureCompatibilityVersion := source.fcv
  relevantIndexesFingerprint := source.indexesFingerprint
  querySettingsFingerprint := source.querySettingsFingerprint
  workloadFingerprint := C.hash C.workloadDefinition

def copyBetween (monitored evaluation : ServerId) : Proc EvaluationState := do
  let sourceState ← C.state monitored
  C.replaceDatabase monitored evaluation
  let evaluationState ← C.state evaluation
  let sourceAfter ← C.state monitored
  Process.raiseIf (sourceState.datasetFingerprint ≠ sourceAfter.datasetFingerprint ||
      sourceState.indexesFingerprint ≠ sourceAfter.indexesFingerprint)
    (.runtime "monitored MongoDB changed during evaluation-state copy")
  Process.raiseIf (sourceState.datasetFingerprint ≠ evaluationState.datasetFingerprint)
    (.runtime "evaluation dataset fingerprint differs from monitored source")
  Process.raiseIf (sourceState.indexesFingerprint ≠ evaluationState.indexesFingerprint)
    (.runtime "evaluation indexes differ from monitored source")
  Process.raiseIf (sourceState.mongodbVersion ≠ evaluationState.mongodbVersion ||
      sourceState.fcv ≠ evaluationState.fcv)
    (.runtime "evaluation MongoDB environment differs from monitored source")
  let freeDiskBytes ← Process.read .serverStatus (fun servers => (servers evaluation).fsUsedSize)
  return C.verified sourceState evaluationState freeDiskBytes

/-- `_copy_and_verify`. -/
def copy : Proc EvaluationState := do
  let monitored ← C.connect C.monitoredUri
  let evaluation ← C.connect C.evaluationUri
  C.copyBetween monitored evaluation

def copyAndVerify (monitoredTargetId evaluationTargetId : String) : Proc EvaluationState := do
  Process.raiseIf (monitoredTargetId = evaluationTargetId)
    (.value "monitored and evaluation target IDs must differ")
  C.copy

section

variable {C : MongoEvaluationStateCopier} {servers t : Servers} {i j : ServerId} {name : String}

theorem databaseOf_put_self (db : Database) :
    C.databaseOf i (servers.put i C.databaseName db) = db := by
  simp [databaseOf, Servers.database, Servers.put]

theorem databaseOf_put_ne (h : i ≠ j) (db : Database) :
    C.databaseOf i (servers.put j C.databaseName db) = C.databaseOf i servers := by
  simp [databaseOf, Servers.database, Servers.put, Function.update_of_ne h]

/-- The database of this server stays as it is, whatever is done meanwhile. -/
abbrev Spares (C : MongoEvaluationStateCopier) (i : ServerId) (_ : Label) (s t : Servers) : Prop :=
  C.databaseOf i t = C.databaseOf i s

theorem read_spares {α : Type} (l : Label) (f : Servers → α) :
    (Process.read l f : Proc α).Always (C.Spares i) (fun _ => True) :=
  .read l f (fun _ => rfl) (fun _ => trivial)

theorem drop_spares (h : i ≠ j) : (C.drop j name).Always (C.Spares i) (fun _ => True) :=
  .modify _ _ (fun _ => databaseOf_put_ne h _) trivial

theorem change_spares (h : i ≠ j) (l : Label) (f : Option Collection → Except String Collection) :
    (Process.atomic l (C.change j name f)).Always (C.Spares i) (fun _ => True) := by
  refine .atomic _ _ (fun s a s' hs => ⟨?_, trivial⟩) (fun _ _ _ => ⟨rfl, trivial⟩)
  unfold change at hs
  split at hs
  · cases hs
  · cases hs
    exact databaseOf_put_ne h _

theorem insertMany_spares (h : i ≠ j) (documents : List Json) :
    (C.insertMany j name documents).Always (C.Spares i) (fun _ => True) :=
  .forM _ (fun _ => change_spares h _ _)

theorem createIndexes_spares (h : i ≠ j) (indexes : List IndexDocument) :
    (C.createIndexes j name indexes).Always (C.Spares i) (fun _ => True) :=
  .forM _ (fun _ => .when (change_spares h _ _) trivial)

/-- Only the destination is written to. -/
theorem replaceDatabase_spares (h : i ≠ j) :
    (C.replaceDatabase i j).Always (C.Spares i) (fun _ => True) := by
  refine (read_spares _ _).then (fun dropped => .then (.forM _ (fun _ => drop_spares h)) (fun _ => ?_))
  refine (read_spares _ _).then (fun copied => .forM _ (fun name => ?_))
  exact (read_spares _ _).then (fun documents => (insertMany_spares h documents).then
    (fun _ => (read_spares _ _).then (fun indexes => createIndexes_spares h indexes)))

/-- Looking at a database changes nothing, and does not fail. -/
theorem state_always (i : ServerId) :
    (C.state i).Always (fun _ s t => t = s) (fun x => ∃ state, x = .ok state) := by
  have hread {α : Type} (l : Label) (f : Servers → α) : (Process.read l f : Proc α).Always
      (fun _ s t => t = s) (fun x => ∃ a, x = .ok a) := .read l f (fun _ => rfl) (fun _ => ⟨_, rfl⟩)
  refine (hread _ _).onward (fun build => (hread _ _).onward (fun fcv => (hread _ _).onward
    (fun hello => (hread _ _).onward (fun names => .onward (.mapM _ (fun name => ?_))
      (fun collections => (hread _ _).onward (fun names => .onward (.mapM _ (fun name => ?_))
        (fun indexes => ⟨_, rfl⟩)))))))
  · exact (hread _ _).onward (fun documents => ⟨_, rfl⟩)
  · exact (hread _ _).onward (fun indexes => ⟨_, rfl⟩)

end

section

variable {C : MongoEvaluationStateCopier} {servers : Servers} {i j : ServerId}

/-- What the copier does after the copying looks only. -/
theorem copyBetween_throughout {P : Servers → Prop} :
    (C.copyBetween i j).Throughout P servers ↔ (C.replaceDatabase i j).Throughout P servers := by
  have hstill {α : Type} {Q : Except Error α → Prop} {p : Proc α} {s : Servers}
      (hp : p.Always (fun _ s t => t = s) Q) (hs : P s) : p.Throughout P s :=
    (hp.mono (fun _ _ _ h hs => h ▸ hs) (fun _ h => h)).throughout hs
  have hstate (i : ServerId) : (C.state i).Always (fun _ s t => t = s) (fun _ => True) :=
    (state_always i).mono (fun _ _ _ h => h) (fun _ _ => trivial)
  have hraise (b : Bool) (e : Error) :
      (Process.raiseIf b e : Proc PUnit).Always (fun _ s t => t = s) (fun _ => True) :=
    .raiseIf (fun _ => trivial)
  rw [copyBetween, Process.bind_def, Process.throughout_bind]
  constructor
  · rintro ⟨-, hrest⟩
    obtain ⟨state, hok⟩ := (state_always (C := C) i).run_fst servers
    have hsame := (state_always (C := C) i).run_snd servers
    have hrun : (C.state i).run servers = (.ok state, servers) := Prod.ext hok hsame
    exact (Process.throughout_bind.mp (hrest state servers hrun)).1
  · intro h
    refine ⟨hstill (state_always i) h.now, fun state t hrun => ?_⟩
    have hsame := (state_always (C := C) i).run_snd servers
    rw [hrun] at hsame
    cases hsame
    refine Process.throughout_bind.mpr ⟨h, fun _ t hreplaced => ?_⟩
    refine hstill (Q := fun _ => True) ?_ (h.ends hreplaced)
    exact (hstate j).then (fun _ => (hstate i).then (fun _ => (hraise _ _).then (fun _ =>
      (hraise _ _).then (fun _ => (hraise _ _).then (fun _ => (hraise _ _).then (fun _ =>
        .then (.read _ _ (fun _ => rfl) (fun _ => trivial)) (fun _ => trivial)))))))

/-- Copied onto itself, a database is left alone where there is nothing in it; otherwise its first
collection is gone at once. -/
theorem replaceDatabase_self :
    (C.replaceDatabase i i).Throughout (fun t => C.databaseOf i t = C.databaseOf i servers) servers ↔
      C.databaseOf i servers = ∅ := by
  rw [replaceDatabase, Process.bind_def, Process.throughout_read_bind]
  constructor
  · rintro ⟨-, h⟩
    by_contra hne
    cases hkeys : (C.databaseOf i servers).keys with
    | nil => exact hne (AList.ext (List.map_eq_nil_iff.mp hkeys))
    | cons name names =>
      rw [hkeys] at h
      have hdropped : C.databaseOf i (servers.put i C.databaseName
          ((C.databaseOf i servers).erase name)) = C.databaseOf i servers :=
        (Process.throughout_bind.mp h).1.2.now
      rw [databaseOf_put_self] at hdropped
      have hmem : name ∈ C.databaseOf i servers :=
        AList.mem_keys.mpr (hkeys ▸ List.mem_cons_self)
      rw [← hdropped] at hmem
      exact (AList.mem_erase.mp hmem).1 rfl
  · intro hempty
    refine ⟨rfl, ?_⟩
    rw [hempty]
    have hnames : C.names i servers = [] := by
      rw [names, hempty]
      rfl
    refine ⟨hempty, ?_⟩
    simp only [Process.ret_bind, hnames]
    exact hempty

/-- With its guard passed and its clients there, the copy is as safe as the replacement. -/
theorem copyAndVerify_throughout {P : Servers → Prop} {monitoredTargetId evaluationTargetId : String}
    (hids : monitoredTargetId ≠ evaluationTargetId) (hi : C.driver.connect C.monitoredUri = .ok i)
    (hj : C.driver.connect C.evaluationUri = .ok j) :
    (C.copyAndVerify monitoredTargetId evaluationTargetId).Throughout P servers ↔
      (C.replaceDatabase i j).Throughout P servers := by
  rw [copyAndVerify, decide_eq_false hids, copy]
  simp only [connect, hi, hj]
  exact copyBetween_throughout

/-- The monitored database stays as it is, wherever the copy ends, just where the ids are equal, or the
two URIs do not lead to one server, or the database has no collections. -/
theorem monitored_unchanged_iff (C : MongoEvaluationStateCopier) (monitoredTargetId
    evaluationTargetId : String) (servers : Servers) :
    (∀ i, C.driver.connect C.monitoredUri = .ok i →
      (C.copyAndVerify monitoredTargetId evaluationTargetId).Throughout
        (fun t => C.databaseOf i t = C.databaseOf i servers) servers) ↔
    monitoredTargetId = evaluationTargetId ∨
      ∀ i, C.driver.connect C.monitoredUri = .ok i → C.driver.connect C.evaluationUri = .ok i →
        C.databaseOf i servers = ∅ := by
  by_cases hids : monitoredTargetId = evaluationTargetId
  · refine iff_of_true (fun i _ => ?_) (.inl hids)
    rw [copyAndVerify, decide_eq_true hids]
    exact rfl
  · rw [or_iff_right hids]
    refine forall_congr' (fun i => imp_congr_right (fun hmonitored => ?_))
    cases hevaluation : C.driver.connect C.evaluationUri with
    | error e =>
      refine iff_of_true ?_ (fun h => by cases h)
      rw [copyAndVerify, decide_eq_false hids, copy]
      simp only [connect, hmonitored, hevaluation]
      exact rfl
    | ok j =>
      rw [copyAndVerify_throughout hids hmonitored hevaluation]
      by_cases hij : i = j
      · subst hij
        rw [replaceDatabase_self]
        exact (imp_iff_right rfl).symm
      · refine iff_of_true ?_ (fun h => absurd (Except.ok.inj h).symm hij)
        exact ((replaceDatabase_spares hij).mono (fun _ _ _ h hs => h.trans hs)
          (fun _ h => h)).throughout rfl

/-- Two names of one server, which appends what it is given. -/
def aliased : MongoEvaluationStateCopier where
  driver :=
    { connect := fun _ => .ok 0
      sorted := id
      insertOne := fun c document => .ok { c.getD {} with
        documents := (c.getD {}).documents ++ [document] }
      createIndex := fun c index => .ok { c.getD {} with indexes := (c.getD {}).indexes ++ [index] } }
  hash j := toString (j.checksum 0)
  monitoredUri := "mongodb://localhost:27017"
  evaluationUri := "mongodb://127.0.0.1:27017"
  databaseName := "commerce"
  workloadDefinition := .null

/-- A server with one order. -/
def stocked : Servers := fun _ =>
  { databases := fun _ => (∅ : Database).insert "orders" { documents := [.int 1] } }

theorem monitored_not_unchanged :
    ¬ ∀ i, aliased.driver.connect aliased.monitoredUri = .ok i →
      (aliased.copyAndVerify "monitored" "evaluation").Throughout
        (fun t => aliased.databaseOf i t = aliased.databaseOf i stocked) stocked := by
  intro h
  have hreplaced := (copyAndVerify_throughout (by decide) rfl rfl).mp (h 0 rfl)
  have hkeys := congrArg AList.keys (replaceDatabase_self.mp hreplaced)
  cases hkeys

end

end MongoEvaluationStateCopier

end NoSQLOptimizer.Evaluation
