import NoSQLOptimizer.Actions.Schemas
import NoSQLOptimizer.Adapters.MongoDB
import NoSQLOptimizer.Evaluation.MongodbCopier

namespace NoSQLOptimizer.Evaluation

open Actions Adapters

/-- What a call raises: a cancellation is no `Exception`. -/
inductive Raised
  | exception
  | cancelled
  deriving DecidableEq

/-- How a write to the target ends.  It may take effect and raise nevertheless. -/
inductive WriteOutcome
  | success
  | raises (e : Raised)
  | raisesAfter (e : Raised)
  deriving DecidableEq

/-- The write, with what it raises; a write that the target refuses raises too. -/
def WriteOutcome.apply {τ : Type} (outcome : WriteOutcome) (write : τ → Option τ) (db : τ) :
    Except Raised Unit × τ :=
  match outcome with
  | .raises e => (.error e, db)
  | .success =>
    match write db with
    | none => (.error .exception, db)
    | some db' => (.ok (), db')
  | .raisesAfter e =>
    match write db with
    | none => (.error .exception, db)
    | some db' => (.error e, db')

inductive SandboxStatus
  | completed
  | rejectedTargetSeparation
  | rejectedResourceBudget
  | invalidEvaluationState
  | failed
  deriving DecidableEq

structure ResourceBudget where
  maximumIndexBytes : Int
  minimumFreeDiskBytes : Int

structure SandboxResult where
  status : SandboxStatus
  benchmarkResult : Option String := none
  admissionResult : Option String := none
  reason : Option String := none
  deriving DecidableEq

/-- The arguments of `evaluate`, with how the copy and the two writes end. -/
structure SandboxRequest where
  monitoredTargetId : String
  evaluationTargetId : String
  candidate : CreateIndexAction
  budget : ResourceBudget
  estimateIndexBytes : CreateIndexAction → Except Raised Int
  copyAndVerify : Except Raised EvaluationState
  createIndex : WriteOutcome := .success
  benchmark : Except Raised String
  admitBenchmark : String → Except Raised String
  dropIndex : WriteOutcome := .success

namespace SandboxRequest

variable {τ : Type} (r : SandboxRequest)

/-- The results of `evaluate` before it touches the target. -/
def rejection : Except Raised (Option SandboxResult) := do
  if r.monitoredTargetId = r.evaluationTargetId then
    return some { status := .rejectedTargetSeparation, reason := some "target IDs must differ" }
  let state ← r.copyAndVerify
  if state.sourceDatasetFingerprint ≠ state.evaluationDatasetFingerprint ∨
      state.sourceTopologyIdentity = state.evaluationTopologyIdentity then
    return some {
      status := .invalidEvaluationState
      reason := some "evaluation state is not isolated and equivalent" }
  let estimatedBytes ← r.estimateIndexBytes r.candidate
  if estimatedBytes < 0 ∨ r.budget.maximumIndexBytes < estimatedBytes ∨
      state.freeDiskBytes - estimatedBytes < r.budget.minimumFreeDiskBytes then
    return some {
      status := .rejectedResourceBudget
      reason := some "index storage or disk headroom budget exceeded" }
  return none

/-- The benchmark, and its admission. -/
def measure : Except Raised SandboxResult := do
  let benchmarkResult ← r.benchmark
  let admissionResult ← r.admitBenchmark benchmarkResult
  return {
    status := .completed
    benchmarkResult := some benchmarkResult
    admissionResult := some admissionResult }

/-- `except Exception`. -/
def caught : Except Raised SandboxResult → Except Raised SandboxResult
  | .error .exception => .ok { status := .failed, reason := some "sandbox evaluation failed" }
  | result => result

/-- Execute copy → verify → apply → benchmark → admission → cleanup, on a target as the copy left
it.  The clean-up is in a `finally`, under a flag that the creation sets. -/
def evaluate (A : DatabaseAdapter τ) (db : τ) : Except Raised SandboxResult × τ :=
  match r.rejection with
  | .error e => (.error e, db)
  | .ok (some result) => (.ok result, db)
  | .ok none =>
    let ns := r.candidate.toNamespace
    let created := r.createIndex.apply (A.createIndex · ns r.candidate.toIndexSpec) db
    match created.1 with
    | .error e => (caught (.error e), created.2)
    | .ok () =>
      let dropped := r.dropIndex.apply (A.dropIndex · ns r.candidate.indexName) created.2
      match dropped.1 with
      | .error e => (.error e, dropped.2)
      | .ok () => (caught r.measure, dropped.2)

/-- The index of the candidate is on the target as it is to be created. -/
def Present (db : MongoDatabase) : Prop :=
  ∃ c, db.lookup r.candidate.toNamespace = some c ∧
    c.lookup r.candidate.indexName = some r.candidate.toIndexSpec.keys

/-- The collection is on the target, and has no index of the candidate's name. -/
def Vacant (db : MongoDatabase) : Prop :=
  ∃ c, db.lookup r.candidate.toNamespace = some c ∧ r.candidate.indexName ∉ c

/-- The target refuses the index. -/
def Refused (db : MongoDatabase) : Prop :=
  mongodb.createIndex db r.candidate.toNamespace r.candidate.toIndexSpec = none

/-- When the creation leaves nothing behind that the clean-up does not take away, and nothing that it
takes away too many. -/
def Restorable (db : MongoDatabase) : Prop :=
  match r.createIndex with
  | .raises _ => True
  | .raisesAfter _ => r.Refused db ∨ r.Present db
  | .success => r.Refused db ∨ r.Vacant db

end SandboxRequest

section

variable {db db' db'' : MongoDatabase} {ns : Namespace} {x : IndexSpec}

theorem indexState_listed (h : mongodb.indexState db = mongodb.indexState db') (ns : Namespace) :
    (ns ∈ mongodb.listNamespaces db ↔ ns ∈ mongodb.listNamespaces db') ∧
      mongodb.listIndexes db ns = mongodb.listIndexes db' ns := by
  simpa [DatabaseAdapter.indexState] using congrFun h ns

theorem listed_iff : x ∈ mongodb.listIndexes db ns ↔ (db.indexes ns).lookup x.name = some x.keys :=
  mem_specs

theorem indexes_lookup_iff {name : String} {keys : List (String × Int)} :
    (db.indexes ns).lookup name = some keys ↔
      ∃ c, db.lookup ns = some c ∧ c.lookup name = some keys := by
  cases h : db.lookup ns <;> simp [MongoDatabase.indexes, h]

/-- A creation leaves what is shown as it was only if there was nothing to create. -/
theorem created_same_iff (hcreate : mongodb.createIndex db ns x = some db') :
    mongodb.indexState db' = mongodb.indexState db ↔
      ∃ c, db.lookup ns = some c ∧ c.lookup x.name = some x.keys := by
  rw [← indexes_lookup_iff]
  constructor
  · intro h
    have hshown : x ∈ mongodb.listIndexes db' ns := by
      have hshows := mongodb_lawful.create_shows hcreate
      rw [mongodb_shows, ← indexes_lookup_iff] at hshows
      exact listed_iff.mpr hshows
    rw [(indexState_listed h ns).2] at hshown
    exact listed_iff.mp hshown
  · intro h
    rcases create_cases hcreate with ⟨-, rfl⟩ | ⟨hnone, -⟩
    · rfl
    · rw [h] at hnone
      cases hnone

/-- A creation can be dropped again. -/
theorem drop_created (hcreate : mongodb.createIndex db ns x = some db') :
    ∃ db'', mongodb.dropIndex db' ns x.name = some db'' := by
  obtain ⟨c, hc, hlookup⟩ := mongodb_shows.mp (mongodb_lawful.create_shows hcreate)
  apply Option.isSome_iff_exists.mp
  apply mongodb_lawful.drop_listed
  · exact AList.lookup_isSome.mp (by rw [hc]; rfl)
  · exact listed_iff.mpr (indexes_lookup_iff.mpr ⟨c, hc, hlookup⟩)

/-- The drop by name takes the creation back only where the name was free, in a collection that was
there. -/
theorem created_dropped_iff (hcreate : mongodb.createIndex db ns x = some db')
    (hdrop : mongodb.dropIndex db' ns x.name = some db'') :
    mongodb.indexState db'' = mongodb.indexState db ↔ ∃ c, db.lookup ns = some c ∧ x.name ∉ c := by
  constructor
  · intro h
    obtain ⟨hnamespaces, hindexes⟩ := indexState_listed h ns
    have hshown : ns ∈ mongodb.listNamespaces db'' := by
      obtain ⟨c, hc, -⟩ := mongodb_shows.mp (mongodb_lawful.create_shows hcreate)
      exact (mongodb_lawful.drop_namespaces hdrop).mpr
        (AList.lookup_isSome.mp (by rw [hc]; rfl))
    obtain ⟨c, hc⟩ := Option.isSome_iff_exists.mp
      (AList.lookup_isSome.mpr (hnamespaces.mp hshown))
    refine ⟨c, hc, fun hmem => ?_⟩
    obtain ⟨keys, hkeys⟩ := Option.isSome_iff_exists.mp (AList.lookup_isSome.mpr hmem)
    have hlisted : (⟨x.name, keys⟩ : IndexSpec) ∈ mongodb.listIndexes db ns :=
      listed_iff.mpr (indexes_lookup_iff.mpr ⟨c, hc, hkeys⟩)
    rw [← hindexes, mongodb_lawful.drop_indexes hdrop, withoutName, List.mem_filter] at hlisted
    simp at hlisted
  · rintro ⟨c, hc, hfree⟩
    refine mongodb_local.restores (AList.lookup_isSome.mp (by rw [hc]; rfl)) ?_ hcreate rfl hdrop
    intro y hy hname
    obtain ⟨c', hc', hlookup⟩ := indexes_lookup_iff.mp (listed_iff.mp hy)
    obtain rfl := Option.some.inj (hc.symm.trans hc')
    exact hfree (hname ▸ AList.lookup_isSome.mp (by rw [hlookup]; rfl))

end

namespace SandboxRequest

variable (r : SandboxRequest) (db : MongoDatabase)

def onCustomer : CreateIndexAction where
  database := "commerce"
  collection := "orders"
  indexName := "candidate"
  fields := [⟨"customer_id", 1⟩]
  wellFormed := by decide
  unforbidden := by decide

/-- A candidate that fits, with calls that all succeed. -/
def fitting : SandboxRequest where
  monitoredTargetId := "monitored"
  evaluationTargetId := "evaluation"
  candidate := onCustomer
  budget := ⟨500, 100⟩
  estimateIndexBytes _ := .ok 10
  copyAndVerify := .ok ⟨"dataset", "dataset", "topology-monitored", "topology-evaluation", 1000,
    "", "", "", "", ""⟩
  benchmark := .ok "benchmark"
  admitBenchmark result := .ok ("admit:" ++ result)

/-- A target whose orders have these indexes. -/
def ordersWith (indexes : Indexes) : MongoDatabase := (∅ : MongoDatabase).insert ⟨"orders"⟩ indexes

end SandboxRequest

end NoSQLOptimizer.Evaluation
