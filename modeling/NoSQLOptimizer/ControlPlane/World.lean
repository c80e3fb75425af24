import NoSQLOptimizer.ControlPlane.Tables
import NoSQLOptimizer.Concurrency.Process

namespace NoSQLOptimizer.ControlPlane

open Adapters Actions Concurrency

inductive CallOutcome
  | refused
  | unchanged
  | effected
  deriving DecidableEq

/-- A write that reached the adapter, and how long the production ledger was at that moment. -/
inductive AdapterCall
  | create : RunId → Namespace → IndexSpec → CallOutcome → Nat → AdapterCall
  | drop : RunId → Namespace → String → CallOutcome → AdapterCall
  deriving DecidableEq

namespace AdapterCall

def run : AdapterCall → RunId
  | .create r .. => r
  | .drop r .. => r

@[simp] theorem run_create (r : RunId) (ns : Namespace) (x : IndexSpec) (o : CallOutcome) (n : Nat) :
    (create r ns x o n).run = r := rfl

@[simp] theorem run_drop (r : RunId) (ns : Namespace) (name : String) (o : CallOutcome) :
    (drop r ns name o).run = r := rfl

/-- A call of `create_index`, to whatever effect. -/
def creates : AdapterCall → Bool
  | .create .. => true
  | .drop .. => false

/-- A call of `create_index` that took effect. -/
def created : AdapterCall → Bool
  | .create _ _ _ .effected _ => true
  | _ => false

theorem creates_of_created {call : AdapterCall} (h : call.created = true) : call.creates = true := by
  cases call with
  | create => rfl
  | drop => cases h

end AdapterCall

inductive Error
  | leaseLost
  | durableDeployment : String → Error
  | value : String → Error
  | invalidStateTransition : RunStatus → RunStatus → Error
  | validation : ValidationError → Error
  | orchestrationInvariant : String → Error
  | authorityInvariant : String → Error
  | approvalRequired : String → Error
  | stage : String → Error
  | permanentJob : String → Error
  | runtime : String → Error
  | adapter : Error
  deriving DecidableEq

/-- A row of checks: what each of them refuses, and under which code.  The first refusal counts. -/
def firstRefusal (checks : List (Bool × String)) : Option String := (checks.find? (·.1)).map (·.2)

theorem firstRefusal_eq_none {checks : List (Bool × String)} :
    firstRefusal checks = none ↔ ∀ check ∈ checks, check.1 = false := by
  simp [firstRefusal]

/-- Why a service looks at the index state. -/
inductive Reading
  | before
  | effect
  | after
  | rollback
  | inverse
  deriving DecidableEq

inductive Service
  | deployment
  | rollback
  deriving DecidableEq

/-- The actions of the services, one name for each statement, transaction or adapter call. -/
inductive Label
  | ensureLeaseOwned
  | clock
  | boundAction : RunId → Label
  | capability : TargetId → Label
  | credential : TargetId → Label
  | currentApproval : RunId → Label
  | tryAcquire : Service → TargetId → Label
  | release : Service → RunId → TargetId → Label
  | listNamespaces : RunId → Reading → Label
  | listIndexes : RunId → Reading → Namespace → IndexSpec → Label
  | intent : RunId → Label
  | transition : RunId → RunStatus → Label
  | runStatus : RunId → Label
  | recordIntent : IdempotencyKey → Label
  | append : RunId → LedgerEvent → Label
  | beginExecution : IdempotencyKey → Label
  | createIndex : RunId → Namespace → IndexSpec → Label
  | confirmExecution : IdempotencyKey → Label
  | markApplied : RunId → Label
  | boundRollback : RunId → Label
  | recordedOutcome : CandidateId → Label
  | rollbackRecord : CandidateId → Label
  | rollbackLedgerExists : RunId → CandidateId → Label
  | record : CandidateId → RollbackStatus → Label
  | dropIndex : RunId → Namespace → String → Label
  | run : RunId → Label
  | stage : RunId → Label
  | approval : RunId → Label
  | audit : RunId → Label
  | experience : CandidateId → Label
  | job : Label
  deriving DecidableEq

/-- The run whose adapter call changes the target. -/
def Label.mutates : Label → Option RunId
  | .createIndex r _ _ => some r
  | .dropIndex r _ _ => some r
  | _ => none

/-- PostgreSQL, the sessions' leases and advisory locks, and the monitored database.  `calls` is a
log of this model; no service reads it. -/
structure World (τ : Type) where
  now : Time := 0
  leaseLost : WorkerId → Bool := fun _ => false
  locks : TargetId → Option WorkerId := fun _ => none
  runs : RunId → Option OptimizationRun := fun _ => none
  targets : TargetId → Option Target := fun _ => none
  credentials : TargetId → Option TargetCredential := fun _ => none
  capabilities : TargetId → Option CapabilitySnapshot := fun _ => none
  evaluationMappings : TargetId → Option EvaluationMapping := fun _ => none
  snapshots : SnapshotId → Option WorkloadSnapshot := fun _ => none
  diagnoses : RunId → Option DiagnosisArtifact := fun _ => none
  generations : RunId → Option CandidateGenerationArtifact := fun _ => none
  rankings : RunId → Option CandidateRankingArtifact := fun _ => none
  plans : RunId → Option EvaluationPlan := fun _ => none
  evaluations : CandidateId → List EvaluationRun := fun _ => []
  admissions : RunId → Option AdmissionArtifact := fun _ => none
  candidates : CandidateId → Option Candidate := fun _ => none
  candidateActions : CandidateId → Option CandidateAction := fun _ => none
  authorities : RunId → Option AuthorityDecision := fun _ => none
  approvals : RunId → Option ApprovalRequest := fun _ => none
  jobs : Jobs := ∅
  artifacts : RunId → Option DeploymentArtifact := fun _ => none
  recovery : IdempotencyKey → Option RecoveryRecord := fun _ => none
  ledger : List LedgerEntry := []
  rollbacks : CandidateId → Option RollbackRecord := fun _ => none
  experience : List ExperienceRecord := []
  db : τ
  calls : List AdapterCall := []

/-- What the run has asked of the monitored database, in order. -/
def World.callsOf {τ : Type} (s : World τ) (r : RunId) : List AdapterCall :=
  s.calls.filter (·.run = r)

theorem World.callsOf_snoc {τ : Type} {s t : World τ} {call : AdapterCall}
    (h : t.calls = s.calls ++ [call]) (r : RunId) :
    t.callsOf r = s.callsOf r ++ if call.run = r then [call] else [] := by
  simp [callsOf, h, List.filter_cons]

theorem mem_callsOf {τ : Type} {s t : World τ} {r : RunId} {call : AdapterCall} (hc : t.callsOf r = s.callsOf r)
    (hr : call.run = r) : call ∈ t.calls ↔ call ∈ s.calls := by
  have hmem : ∀ u : World τ, call ∈ u.calls ↔ call ∈ u.callsOf r := by simp [World.callsOf, hr]
  rw [hmem t, hmem s, hc]

/-- None of the run's calls has taken effect. -/
def NoneCreated {τ : Type} (r : RunId) (s : World τ) : Prop := ∀ call ∈ s.callsOf r, call.created = false

/-- What the ledger holds of the run, in order. -/
def World.entriesOf {τ : Type} (s : World τ) (r : RunId) : List LedgerEntry :=
  s.ledger.filter (·.runId = r)

abbrev Proc (τ α : Type) := Process Label (World τ) Error α

variable {τ : Type}

/-- Raises a `DurableDeploymentError` with the code of the first check that refuses. -/
def guardAll (checks : List (Bool × String)) : Proc τ PUnit :=
  match firstRefusal checks with
  | none => .ret ⟨⟩
  | some code => .fail (.durableDeployment code)

/-- What `guardAll` comes to. -/
def refuse (checks : List (Bool × String)) : Except Error PUnit.{1} :=
  match firstRefusal checks with
  | none => .ok ⟨⟩
  | some code => .error (.durableDeployment code)

theorem refuse_append (xs ys : List (Bool × String)) :
    refuse (xs ++ ys) = (refuse xs).bind (fun _ => refuse ys) := by
  unfold refuse firstRefusal
  rw [List.find?_append]
  cases xs.find? (·.1) <;> rfl

theorem guardAll_run (checks : List (Bool × String)) (s : World τ) :
    (guardAll checks).run s = (refuse checks, s) := by
  unfold guardAll refuse
  cases firstRefusal checks <;> rfl

/-- `ExecutionContext.ensure_lease_owned`. -/
def ensureLeaseOwned (worker : WorkerId) : Proc τ PUnit := do
  if ← Process.read .ensureLeaseOwned (·.leaseLost worker) then throw .leaseLost

theorem ensureLeaseOwned_run (worker : WorkerId) (s : World τ) :
    (ensureLeaseOwned worker).run s =
      (if s.leaseLost worker then .error .leaseLost else .ok ⟨⟩, s) := by
  unfold ensureLeaseOwned
  simp only [Process.bind_def, Process.run_bind, Process.run_read]
  split <;> rfl

/-- `PostgresTargetMutationLock.try_acquire`: a session of its own takes the advisory lock, or
finds it taken. -/
def tryAcquire (service : Service) (worker : WorkerId) (t : TargetId) : Proc τ Bool :=
  .act (.tryAcquire service t)
    (fun s => if s.locks t = none then
      { s with locks := Function.update s.locks t (some worker) } else s)
    (fun s => .ret (s.locks t).isNone)

/-- `TargetMutationLease.release`. -/
def release (service : Service) (r : RunId) (worker : WorkerId) (t : TargetId) : Proc τ PUnit :=
  .modify (.release service r t) (fun s => if s.locks t = some worker then
    { s with locks := Function.update s.locks t none } else s)

/-- A session's advisory locks go with the session. -/
def World.endSession (worker : WorkerId) (s : World τ) : World τ :=
  { s with locks := fun t => if s.locks t = some worker then none else s.locks t }

/-- `_state`: two reads, the second only of a namespace that the first one listed. -/
def state (A : DatabaseAdapter τ) (r : RunId) (why : Reading) (action : CreateIndexAction) :
    Proc τ IndexState := do
  let namespaces ← Process.read (.listNamespaces r why) (A.listNamespaces ·.db)
  if action.toNamespace ∈ namespaces then
    let indexes ← Process.read (.listIndexes r why action.toNamespace action.toIndexSpec)
      (A.listIndexes ·.db action.toNamespace)
    return ⟨action.database, action.collection, true, indexes⟩
  else
    return ⟨action.database, action.collection, false, []⟩

/-- What `state` sees of a database that nobody else changes. -/
def stateOf (A : DatabaseAdapter τ) (db : τ) (action : CreateIndexAction) : IndexState :=
  if action.toNamespace ∈ A.listNamespaces db then
    ⟨action.database, action.collection, true, A.listIndexes db action.toNamespace⟩
  else ⟨action.database, action.collection, false, []⟩

theorem state_run (A : DatabaseAdapter τ) (r : RunId) (why : Reading) (action : CreateIndexAction)
    (s : World τ) : (state A r why action).run s = (.ok (stateOf A s.db action), s) := by
  unfold state stateOf
  simp only [Process.bind_def, Process.run_bind, Process.run_read]
  split <;> rfl

/-- `_has_exact_index`. -/
def hasExactIndex (state : IndexState) (action : CreateIndexAction) : Bool :=
  exactlyOnce action.toIndexSpec state.indexes

theorem hasExactIndex_stateOf (A : DatabaseAdapter τ) (db : τ) (action : CreateIndexAction) :
    hasExactIndex (stateOf A db action) action = A.shows db action.toNamespace action.toIndexSpec := by
  unfold stateOf
  split
  · next h => simp [hasExactIndex, DatabaseAdapter.shows, h]
  · next h =>
    simp only [DatabaseAdapter.shows, h, decide_false, Bool.false_and]
    rfl

/-- `_intended`. -/
def intended (before : IndexState) (action : CreateIndexAction) : IndexState :=
  { before with indexes := before.indexes ++ [action.toIndexSpec] }

def World.lastEntry (s : World τ) (t : TargetId) : Option LedgerEntry :=
  (s.ledger.filter (·.targetId = t)).getLast?

/-- What `PostgresProductionLedger.append` does in its one transaction. -/
def World.enter (payload : LedgerPayload) (s : World τ) : World τ :=
  let sequence := match s.lastEntry payload.targetId with
    | none => 1
    | some prior => prior.sequence + 1
  let previousHash := match s.lastEntry payload.targetId with
    | none => .genesis
    | some prior => prior.entryHash
  { s with ledger := s.ledger ++
    [⟨payload, sequence, previousHash, .sha256 sequence payload previousHash⟩] }

def append (payload : LedgerPayload) : Proc τ PUnit :=
  .modify (.append payload.runId payload.eventType) (World.enter payload)

theorem World.enter_eq (payload : LedgerPayload) (s : World τ) :
    ∃ e : LedgerEntry, e.toLedgerPayload = payload ∧
      s.enter payload = { s with ledger := s.ledger ++ [e] } :=
  ⟨_, rfl, rfl⟩

/-- What the monitored database and the log are after `create_index` was called. -/
def World.create (A : DatabaseAdapter τ) (r : RunId) (ns : Namespace) (x : IndexSpec)
    (s : World τ) : World τ :=
  match A.createIndex s.db ns x with
  | none => { s with calls := s.calls ++ [.create r ns x .refused s.ledger.length] }
  | some db =>
    let outcome := if A.shows s.db ns x then .unchanged else .effected
    { s with db := db, calls := s.calls ++ [.create r ns x outcome s.ledger.length] }

def createIndex (A : DatabaseAdapter τ) (r : RunId) (ns : Namespace) (x : IndexSpec) :
    Proc τ PUnit :=
  .act (.createIndex r ns x) (World.create A r ns x)
    (fun s => if (A.createIndex s.db ns x).isSome then .ret ⟨⟩ else .fail .adapter)

def World.drop (A : DatabaseAdapter τ) (r : RunId) (ns : Namespace) (name : String)
    (s : World τ) : World τ :=
  match A.dropIndex s.db ns name with
  | none => { s with calls := s.calls ++ [.drop r ns name .refused] }
  | some db => { s with db := db, calls := s.calls ++ [.drop r ns name .effected] }

def dropIndex (A : DatabaseAdapter τ) (r : RunId) (ns : Namespace) (name : String) :
    Proc τ PUnit :=
  .act (.dropIndex r ns name) (World.drop A r ns name)
    (fun s => if (A.dropIndex s.db ns name).isSome then .ret ⟨⟩ else .fail .adapter)

/-- `create_index` was called, to whatever effect. -/
def World.createCalled (s : World τ) (r : RunId) (ns : Namespace) (x : IndexSpec) : Bool :=
  s.calls.any (fun
    | .create r' ns' x' _ _ => r' = r && ns' = ns && x' = x
    | .drop .. => false)

theorem World.createCalled_iff {s : World τ} {r : RunId} {ns : Namespace} {x : IndexSpec} :
    s.createCalled r ns x = true ↔ ∃ outcome n, AdapterCall.create r ns x outcome n ∈ s.calls := by
  rw [createCalled, List.any_eq_true]
  constructor
  · rintro ⟨call, hmem, hcall⟩
    cases call with
    | create r' ns' x' outcome n =>
      simp only [Bool.and_eq_true, decide_eq_true_eq] at hcall
      obtain ⟨⟨rfl, rfl⟩, rfl⟩ := hcall
      exact ⟨outcome, n, hmem⟩
    | drop => cases hcall
  · rintro ⟨outcome, n, hmem⟩
    exact ⟨_, hmem, by simp⟩

section

variable (A : DatabaseAdapter τ) (r : RunId) (ns : Namespace) (x : IndexSpec) (name : String)
  (s : World τ)

theorem World.create_frame :
    s.create A r ns x = { s with db := (s.create A r ns x).db, calls := (s.create A r ns x).calls } := by
  unfold create
  split <;> rfl

/-- The adapter refuses, or the index is made. -/
theorem World.create_cases :
    ∃ outcome, (s.create A r ns x).calls = s.calls ++ [.create r ns x outcome s.ledger.length] ∧
      ((outcome = .refused ∧ (s.create A r ns x).db = s.db) ∨
        ((outcome = if A.shows s.db ns x then .unchanged else .effected) ∧
          A.createIndex s.db ns x = some (s.create A r ns x).db)) := by
  unfold create
  split
  · exact ⟨_, rfl, .inl ⟨rfl, rfl⟩⟩
  · next db h => exact ⟨_, rfl, .inr ⟨rfl, h⟩⟩

theorem World.create_calls :
    ∃ outcome, (s.create A r ns x).calls = s.calls ++ [.create r ns x outcome s.ledger.length] :=
  (s.create_cases A r ns x).imp (fun _ h => h.1)

theorem World.drop_frame :
    s.drop A r ns name = { s with db := (s.drop A r ns name).db, calls := (s.drop A r ns name).calls } := by
  unfold drop
  split <;> rfl

theorem World.drop_calls :
    ∃ outcome, (s.drop A r ns name).calls = s.calls ++ [.drop r ns name outcome] := by
  unfold drop
  split <;> exact ⟨_, rfl⟩

end

end NoSQLOptimizer.ControlPlane
