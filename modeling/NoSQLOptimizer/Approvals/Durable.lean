import NoSQLOptimizer.Concurrency.Transactions
import NoSQLOptimizer.ControlPlane.Tables
import NoSQLOptimizer.Runs.StateMachine

namespace NoSQLOptimizer.Approvals.Durable

open ControlPlane Concurrency Transactions

abbrev ApprovalId := Nat

/-- A row of `approval_requests`. -/
structure ApprovalRow where
  id : ApprovalId
  requestedByUserId : UserId
  actionId : String
  targetId : TargetId
  candidateId : CandidateId
  optimizationRunId : Option RunId
  candidateFingerprint : Option String
  evidenceHash : String
  expiresAt : Instant
  status : ControlPlane.ApprovalStatus := .pending
  deriving DecidableEq

/-- A row of `approval_decisions`. -/
structure DecisionRow where
  approvalRequestId : ApprovalId
  decidedByUserId : UserId
  decision : ControlPlane.ApprovalStatus
  reason : Option String
  createdAt : Instant
  deriving DecidableEq

structure Tables where
  approvals : List ApprovalRow := []
  decisions : List DecisionRow := []
  runs : RunId → Option OptimizationRun := fun _ => none
  jobs : List Job := []

/-- The rows that are locked, and the entries of the unique indexes on an approval's run, on a
decision's approval and on the run of a continuation. -/
inductive Key
  | approval : ApprovalId → Key
  | bound : RunId → Key
  | decision : ApprovalId → Key
  | run : RunId → Key
  | continuation : RunId → Key
  deriving DecidableEq

inductive Write
  | insertApproval : ApprovalRow → Write
  | setApproval : ApprovalId → ControlPlane.ApprovalStatus → Write
  | insertDecision : DecisionRow → Write
  | setRun : RunId → RunStatus → Option RunCompletionReason → Write
  | insertJob : RunId → Job → Write

/-- The service's method that selects an approval. -/
inductive Method
  | approve
  | approveAndEnqueueContinuation
  | rejectAndCompleteRun
  deriving DecidableEq

inductive Query
  | selectBound : RunId → Query
  | insertApproval : ApprovalRow → Query
  | selectApproval : Method → ApprovalId → Query
  | selectRun : RunId → Query
  | updateApproval : ApprovalId → Query
  | insertDecision : ApprovalId → Query
  | updateRun : RunId → Query
  | insertJob : RunId → Query
  | reselect : ApprovalId → Query

inductive Error
  | durableApprovalRequired : String → Error
  | uniqueViolation
  deriving DecidableEq

/-- `uq_jobs_approval_continuation`: the continuation of a run. -/
def continues (r : RunId) (job : Job) : Bool :=
  job.optimizationRunId = some r && job.kind = "OPTIMIZATION" && job.payload.continuation

def ApprovalRow.decided (a : ApprovalRow) (id : ApprovalId) (status : ControlPlane.ApprovalStatus) :
    ApprovalRow :=
  if a.id = id then { a with status := status } else a

namespace Tables

def approval (t : Tables) (id : ApprovalId) : Option ApprovalRow := t.approvals.find? (·.id = id)

/-- The approvals of a run. -/
def bound (t : Tables) (r : RunId) : List ApprovalRow :=
  t.approvals.filter (·.optimizationRunId = some r)

def continuations (t : Tables) (r : RunId) : List Job := t.jobs.filter (continues r)

/-- The row violates the primary key or the unique index on the run. -/
def clashes (t : Tables) (row : ApprovalRow) : Bool :=
  (t.approval row.id).isSome || row.optimizationRunId.any (fun r => t.bound r ≠ [])

end Tables

theorem approval_mem {t : Tables} {id : ApprovalId} {a : ApprovalRow} (h : t.approval id = some a) :
    a ∈ t.approvals ∧ a.id = id :=
  ⟨List.mem_of_find?_eq_some h, by simpa using List.find?_some h⟩

namespace Write

def apply : Write → Tables → Tables
  | insertApproval row, t => { t with approvals := t.approvals ++ [row] }
  | setApproval id status, t => { t with approvals := t.approvals.map (·.decided id status) }
  | insertDecision d, t => { t with decisions := t.decisions ++ [d] }
  | setRun r status reason, t =>
    { t with runs := Function.update t.runs r ((t.runs r).map (fun run =>
      { run with status := status, completionReason := reason.or run.completionReason })) }
  | insertJob r job, t =>
    { t with jobs := t.jobs ++ [{ job with optimizationRunId := some r, kind := "OPTIMIZATION" }] }

def keys : Write → List Key
  | insertApproval row => .approval row.id :: row.optimizationRunId.toList.map .bound
  | setApproval id _ => [.approval id]
  | insertDecision d => [.decision d.approvalRequestId]
  | setRun r _ _ => [.run r]
  | insertJob r _ => [.continuation r]

end Write

theorem runs_setRun {t : Tables} {r : RunId} {run : OptimizationRun} (hrun : t.runs r = some run)
    (status : RunStatus) (reason : Option RunCompletionReason) :
    ((Write.setRun r status reason).apply t).runs = Function.update t.runs r
      (some { run with status := status, completionReason := reason.or run.completionReason }) := by
  simp [Write.apply, hrun]

/-- What a statement waits for.  `ON CONFLICT DO NOTHING` waits for nobody where the continuation is
there already. -/
def Query.needs : Query → Tables → List Key
  | selectBound r, t => (t.bound r).map (.approval ·.id)
  | insertApproval row, _ => .approval row.id :: row.optimizationRunId.toList.map .bound
  | selectApproval _ id, t => (t.approval id).toList.map (fun _ => .approval id)
  | selectRun r, t => (t.runs r).toList.map (fun _ => .run r)
  | updateApproval id, _ => [.approval id]
  | insertDecision id, _ => [.decision id]
  | updateRun r, _ => [.run r]
  | insertJob r, t => if t.continuations r = [] then [.continuation r] else []
  | reselect _, _ => []

/-- The row, or the index entry, is as it was. -/
def Key.Same : Key → Tables → Tables → Prop
  | approval id, t, u => t.approval id = u.approval id
  | bound r, t, u => (t.bound r).map (·.id) = (u.bound r).map (·.id)
  | decision id, t, u => t.decisions.filter (·.approvalRequestId = id) =
      u.decisions.filter (·.approvalRequestId = id)
  | run r, t, u => t.runs r = u.runs r
  | continuation r, t, u => t.continuations r = u.continuations r

theorem Key.same_refl (k : Key) (t : Tables) : k.Same t t := by
  cases k <;> rfl

theorem Key.same_trans {k : Key} {t u v : Tables} (h : k.Same t u) (h' : k.Same u v) :
    k.Same t v := by
  cases k <;> exact Eq.trans h h'

theorem approval_map_decided (rows : List ApprovalRow) (id id' : ApprovalId)
    (status : ControlPlane.ApprovalStatus) : (rows.map (·.decided id status)).find? (·.id = id') =
      (rows.find? (·.id = id')).map (·.decided id status) := by
  rw [List.find?_map]
  congr 2
  funext a
  simp only [Function.comp, ApprovalRow.decided]
  split <;> rfl

theorem bound_map_decided (rows : List ApprovalRow) (id : ApprovalId) (status : ControlPlane.ApprovalStatus)
    (r : RunId) : ((rows.map (·.decided id status)).filter (·.optimizationRunId = some r)).map (·.id) =
      (rows.filter (·.optimizationRunId = some r)).map (·.id) := by
  induction rows with
  | nil => rfl
  | cons a rows ih =>
    have hrun : (a.decided id status).optimizationRunId = a.optimizationRunId := by
      unfold ApprovalRow.decided
      split <;> rfl
    have hid : (a.decided id status).id = a.id := by
      unfold ApprovalRow.decided
      split <;> rfl
    rw [List.map_cons, List.filter_cons, List.filter_cons, hrun]
    split
    · rw [List.map_cons, List.map_cons, hid, ih]
    · exact ih

theorem Write.same_apply {k : Key} {w : Write} (t : Tables) (h : k ∉ w.keys) :
    k.Same t (w.apply t) := by
  cases w with
  | insertApproval row =>
    cases k with
    | approval id =>
      have hne : row.id ≠ id := fun heq => h (by simp [keys, heq])
      simp [Key.Same, Tables.approval, apply, List.find?_append, hne]
    | bound r =>
      have hne : row.optimizationRunId ≠ some r := fun heq => h (by simp [keys, heq])
      simp [Key.Same, Tables.bound, apply, List.filter_append, hne]
    | _ => rfl
  | setApproval id status =>
    cases k with
    | approval id' =>
      have hne : id' ≠ id := fun heq => h (by simp [keys, heq])
      simp only [Key.Same, Tables.approval, apply, approval_map_decided]
      cases hfind : t.approvals.find? (·.id = id') with
      | none => rfl
      | some a =>
        have hid : a.id = id' := by simpa using List.find?_some hfind
        simp [ApprovalRow.decided, hid, hne]
    | bound r => exact (bound_map_decided t.approvals id status r).symm
    | _ => rfl
  | insertDecision d =>
    cases k with
    | decision id =>
      have hne : d.approvalRequestId ≠ id := fun heq => h (by simp [keys, heq])
      simp [Key.Same, apply, List.filter_append, hne]
    | _ => rfl
  | setRun r status reason =>
    cases k with
    | run r' =>
      have hne : r' ≠ r := fun heq => h (by simp [keys, heq])
      simp [Key.Same, apply, hne]
    | _ => rfl
  | insertJob r job =>
    cases k with
    | continuation r' =>
      have hne : r ≠ r' := fun heq => h (by simp [keys, heq])
      simp [Key.Same, Tables.continuations, apply, List.filter_append, continues, hne]
    | _ => rfl

def schema : Schema Tables Key Write Query where
  apply := Write.apply
  keys := Write.keys
  needs := Query.needs
  Same := Key.Same
  same_refl := Key.same_refl
  same_trans := Key.same_trans
  same_apply := Write.same_apply

abbrev Store (ι : Type) := Database Tables Key Write ι

abbrev Proc (ι α : Type) := Process (Statement Query) (Store ι) Error α

/-- The arguments of `request`, with the `uuid4()` and the time that it draws. -/
structure Request where
  id : ApprovalId
  now : Instant
  actionId : String
  targetId : TargetId
  candidateId : CandidateId
  evidenceHash : String
  requesterId : UserId
  optimizationRunId : Option RunId := none
  candidateFingerprint : Option String := none
  deriving DecidableEq

def Request.row (ttl : Instant) (p : Request) : ApprovalRow where
  id := p.id
  requestedByUserId := p.requesterId
  actionId := p.actionId
  targetId := p.targetId
  candidateId := p.candidateId
  optimizationRunId := p.optimizationRunId
  candidateFingerprint := p.candidateFingerprint
  evidenceHash := p.evidenceHash
  expiresAt := p.now + ttl

inductive Call
  | request : Request → Call
  | approve : ApprovalId → UserId → Instant → Call
  | approveAndEnqueueContinuation : ApprovalId → UserId → Instant → Call
  | rejectAndCompleteRun : ApprovalId → UserId → Instant → Option String → Call

section

variable {ι : Type} [DecidableEq ι] (i : ι)

def refuse {α : Type} (message : String) : Proc ι α := .fail (.durableApprovalRequired message)

def insertApproval (row : ApprovalRow) : Proc ι ApprovalRow :=
  schema.execute i (.insertApproval row)
    (fun t => if t.clashes row then .error .uniqueViolation else .ok (row, [.insertApproval row]))

/-- The approval that is there for the run; there is at most one. -/
def selectBound (r : RunId) : Proc ι (Option ApprovalRow) :=
  schema.execute i (.selectBound r) (fun t => .ok ((t.bound r).head?, []))

def request (ttl : Instant) (p : Request) : Proc ι ApprovalRow :=
  schema.transaction i (match p.optimizationRunId with
    | none => insertApproval i (p.row ttl)
    | some r => do
      match ← selectBound i r with
      | none => insertApproval i (p.row ttl)
      | some existing =>
        if existing.candidateId ≠ p.candidateId ∨
            existing.candidateFingerprint ≠ p.candidateFingerprint then
          refuse "approval request cannot authorize candidate drift"
        else return existing)

def selectApproval (m : Method) (id : ApprovalId) : Proc ι (Option ApprovalRow) :=
  schema.execute i (.selectApproval m id) (fun t => .ok (t.approval id, []))

def selectRun (r : RunId) : Proc ι (Option OptimizationRun) :=
  schema.execute i (.selectRun r) (fun t => .ok (t.runs r, []))

def updateApproval (id : ApprovalId) (status : ControlPlane.ApprovalStatus) : Proc ι PUnit :=
  schema.execute i (.updateApproval id) (fun _ => .ok (⟨⟩, [.setApproval id status]))

def insertDecision (d : DecisionRow) : Proc ι PUnit :=
  schema.execute i (.insertDecision d.approvalRequestId) (fun t =>
    if t.decisions.any (·.approvalRequestId = d.approvalRequestId) then .error .uniqueViolation
    else .ok (⟨⟩, [.insertDecision d]))

def updateRun (r : RunId) (status : RunStatus) (reason : Option RunCompletionReason) : Proc ι PUnit :=
  schema.execute i (.updateRun r) (fun _ => .ok (⟨⟩, [.setRun r status reason]))

/-- The continuation of a run, `ON CONFLICT DO NOTHING`. -/
def insertContinuation (r : RunId) (now : Instant) : Proc ι PUnit :=
  schema.execute i (.insertJob r) (fun t => .ok (⟨⟩, if t.continuations r = [] then
    [.insertJob r { payload := { continuation := true }, createdAt := now, updatedAt := now }]
    else []))

def reselect (id : ApprovalId) : Proc ι (Option ApprovalRow) :=
  schema.execute i (.reselect id) (fun t => .ok (t.approval id, []))

def approve (id : ApprovalId) (approver : UserId) (now : Instant) : Proc ι (Option ApprovalRow) :=
  schema.transaction i (do
    match ← selectApproval i .approve id with
    | none => refuse "approval is not pending and unexpired"
    | some a =>
      if a.status ≠ .pending ∨ a.expiresAt ≤ now then
        refuse "approval is not pending and unexpired"
      else if a.requestedByUserId = approver then
        refuse "four-eyes separation forbids self-approval"
      else
        updateApproval i id .approved
        insertDecision i ⟨id, approver, .approved, none, now⟩
        reselect i id)

/-- The decision of a run's approval, and what it does to the run. -/
def decideRun (m : Method) (id : ApprovalId) (d : DecisionRow) (ineligible : String)
    (finish : RunId → Proc ι PUnit) : Proc ι (Option ApprovalRow) :=
  schema.transaction i (do
    match ← selectApproval i m id with
    | none => refuse "durable run-bound approval required"
    | some a =>
      match a.optimizationRunId with
      | none => refuse "durable run-bound approval required"
      | some r =>
        if a.status ≠ .pending ∨ a.expiresAt ≤ d.createdAt ∨ a.requestedByUserId = d.decidedByUserId
        then refuse ineligible
        else
          match ← selectRun i r with
          | none => refuse "run is not awaiting this approval"
          | some run =>
            if run.status ≠ .approvalPending then refuse "run is not awaiting this approval"
            else
              updateApproval i id d.decision
              insertDecision i d
              finish r
              reselect i id)

def approveAndEnqueueContinuation (id : ApprovalId) (approver : UserId) (now : Instant) :
    Proc ι (Option ApprovalRow) :=
  decideRun i .approveAndEnqueueContinuation id ⟨id, approver, .approved, none, now⟩
    "approval is not eligible" (fun r => do
      updateRun i r .approved none
      insertContinuation i r now)

def rejectAndCompleteRun (id : ApprovalId) (approver : UserId) (now : Instant)
    (reason : Option String) : Proc ι (Option ApprovalRow) :=
  decideRun i .rejectAndCompleteRun id ⟨id, approver, .rejected, reason, now⟩
    "approval rejection is not eligible"
    (fun r => updateRun i r .completed (some .approvalRejected))

/-- A call; whoever makes it may drop what it returns. -/
def call (ttl : Instant) (i : ι) : Call → Proc ι PUnit
  | .request p => do
    let _ ← request i ttl p
  | .approve id approver now => do
    let _ ← approve i id approver now
  | .approveAndEnqueueContinuation id approver now => do
    let _ ← approveAndEnqueueContinuation i id approver now
  | .rejectAndCompleteRun id approver now reason => do
    let _ ← rejectAndCompleteRun i id approver now reason

end

/-- Elsewhere, a run moves along the graph. -/
def Moves (t u : Tables) : Prop :=
  ∃ r run next reason, t.runs r = some run ∧ next ∈ Runs.nextStates run.status ∧
    u = (Write.setRun r next reason).apply t

end NoSQLOptimizer.Approvals.Durable
