import Mathlib.Data.List.MinMax
import Mathlib.Data.Prod.Lex
import NoSQLOptimizer.ControlPlane.Tables

namespace NoSQLOptimizer.Worker

open ControlPlane

/-- The dataclass `Job`: what a claim hands to its worker. -/
structure ClaimedJob where
  id : JobId
  optimizationRunId : Option RunId
  kind : String
  payload : JobPayload
  attempts : Nat
  deriving DecidableEq

structure JobRepository where
  leaseDuration : Int := 30000000
  maxAttempts : Nat := 5

def seconds (n : Nat) : Int := n * 1000000

def backoffSeconds (attempt : Nat) : Nat := min 16 (2 ^ (attempt - 1))

/-- The partial unique indexes on the runs of jobs: one initial job and one continuation for each. -/
def rivals (payload : JobPayload) (run : Option RunId) (kind : String) (job : Job) : Bool :=
  run.isSome && job.optimizationRunId = run && kind = "OPTIMIZATION" && job.kind = "OPTIMIZATION" &&
    job.payload.continuation = payload.continuation

def newJob (now : Instant) (payload : JobPayload) (run : Option RunId) (kind : String) : Job where
  optimizationRunId := run
  kind := kind
  payload := payload
  createdAt := now
  updatedAt := now
  availableAt := now

/-- The insertion raises, and leaves the table alone, where one of its keys is taken. -/
def enqueue (now : Instant) (id : JobId) (payload : JobPayload) (run : Option RunId) (kind : String)
    (jobs : Jobs) : Option JobId × Jobs :=
  if id ∈ jobs ∨ jobs.entries.any (fun e => rivals payload run kind e.2) then (none, jobs)
  else (some id, jobs.insert id (newJob now payload run kind))

/-- One `UPDATE jobs ... WHERE id = id AND ...`, and whether it found its row. -/
def updateJob (id : JobId) (found : Job → Bool) (set : Job → Job) (jobs : Jobs) : Bool × Jobs :=
  match jobs.lookup id with
  | none => (false, jobs)
  | some job => if found job then (true, jobs.insert id (set job)) else (false, jobs)

def claimable (now : Instant) (tag : Option String) (job : Job) : Bool :=
  ((job.status = .pending && job.availableAt ≤ now) ||
    (job.status = .running && job.leaseExpiresAt.any (· ≤ now))) &&
  (tag.isNone || job.payload.queueTag = tag)

/-- `status = 'RUNNING' AND lease_owner = :worker_id`. -/
def leasedBy (worker : WorkerId) (job : Job) : Bool :=
  job.status = .running && job.leaseOwner = some worker

def unexpired (now : Instant) (job : Job) : Bool := job.leaseExpiresAt.any (now < ·)

namespace JobRepository

variable (R : JobRepository) (now : Instant)

def claimed (worker : WorkerId) (job : Job) : Job :=
  { job with
    status := .running
    leaseOwner := some worker
    leaseExpiresAt := some (now + R.leaseDuration)
    heartbeatAt := some now
    updatedAt := now
    attempts := job.attempts + 1 }

/-- `ORDER BY created_at, id`. -/
instance queueOrder : Preorder (Instant ×ₗ JobId) :=
  (inferInstance : LinearOrder (Instant ×ₗ JobId)).toPartialOrder.toPreorder

/-- The row that `ORDER BY created_at, id FOR UPDATE SKIP LOCKED LIMIT 1` gives. -/
def firstClaimable (tag : Option String) (locked : JobId → Bool) (jobs : Jobs) :
    Option (Sigma fun _ : JobId => Job) :=
  (jobs.entries.filter (fun e => claimable now tag e.2 && !locked e.1)).argmin
    (fun e => toLex (e.2.createdAt, e.1))

/-- `locked` are the rows under the locks of others at that moment. -/
def claim (worker : WorkerId) (tag : Option String) (locked : JobId → Bool) (jobs : Jobs) :
    Option ClaimedJob × Jobs :=
  match firstClaimable now tag locked jobs with
  | none => (none, jobs)
  | some ⟨id, job⟩ =>
    let job' := R.claimed now worker job
    (some ⟨id, job'.optimizationRunId, job'.kind, job'.payload, job'.attempts⟩, jobs.insert id job')

def beaten (job : Job) : Job :=
  { job with
    heartbeatAt := some now
    leaseExpiresAt := some (now + R.leaseDuration)
    updatedAt := now }

def heartbeat (id : JobId) (worker : WorkerId) : Jobs → Bool × Jobs :=
  updateJob id (fun job => leasedBy worker job && unexpired now job) (R.beaten now)

def completed (job : Job) : Job :=
  { job with
    status := .completed
    completedAt := some now
    updatedAt := now
    leaseOwner := none
    leaseExpiresAt := none }

def complete (id : JobId) (worker : WorkerId) : Jobs → Bool × Jobs :=
  updateJob id (leasedBy worker) (completed now)

def final (claimed : ClaimedJob) (permanent : Bool) : Bool :=
  permanent || R.maxAttempts ≤ claimed.attempts

def failed (claimed : ClaimedJob) (error : String) (permanent : Bool) (job : Job) : Job :=
  { job with
    status := if R.final claimed permanent then .failed else .pending
    lastErrorCode := some (String.ofList (error.toList.take 128))
    failedAt := if R.final claimed permanent then some now else none
    availableAt := if R.final claimed permanent then job.availableAt
      else now + seconds (backoffSeconds claimed.attempts)
    leaseOwner := none
    leaseExpiresAt := none
    updatedAt := now }

/-- `false`: a `LeaseLostError` is raised. -/
def fail (claimed : ClaimedJob) (worker : WorkerId) (error : String) (permanent : Bool) :
    Jobs → Bool × Jobs :=
  updateJob claimed.id (leasedBy worker) (R.failed now claimed error permanent)

end JobRepository

theorem updateJob_cases (id : JobId) (found : Job → Bool) (set : Job → Job) (jobs : Jobs) :
    (updateJob id found set jobs = (false, jobs) ∧ ∀ job, jobs.lookup id = some job → found job = false) ∨
      ∃ job, jobs.lookup id = some job ∧ found job = true ∧
        updateJob id found set jobs = (true, jobs.insert id (set job)) := by
  unfold updateJob
  split
  · next h => exact .inl ⟨rfl, by simp [h]⟩
  · next job h =>
    split
    · next hfound => exact .inr ⟨job, h, hfound, rfl⟩
    · next hfound => exact .inl ⟨rfl, by simpa [h] using hfound⟩

/-- What the row `id` is after an update of the row `id'`. -/
theorem lookup_updateJob (id id' : JobId) (found : Job → Bool) (set : Job → Job) (jobs : Jobs) :
    (updateJob id' found set jobs).2.lookup id = jobs.lookup id ∨
      ∃ job, id' = id ∧ found job = true ∧ jobs.lookup id = some job ∧
        (updateJob id' found set jobs).2.lookup id = some (set job) := by
  rcases updateJob_cases id' found set jobs with ⟨h, -⟩ | ⟨job, hjob, hfound, h⟩
  · exact .inl (by rw [h])
  · by_cases hid : id = id'
    · subst hid
      exact .inr ⟨job, rfl, hfound, hjob, by rw [h, AList.lookup_insert]⟩
    · exact .inl (by rw [h, AList.lookup_insert_ne hid])

/-- A claim takes no row, or one that is claimable. -/
theorem JobRepository.claim_cases (R : JobRepository) (now : Instant) (worker : WorkerId)
    (tag : Option String) (locked : JobId → Bool) (jobs : Jobs) :
    R.claim now worker tag locked jobs = (none, jobs) ∨
      ∃ id job, jobs.lookup id = some job ∧ claimable now tag job = true ∧ locked id = false ∧
        R.claim now worker tag locked jobs =
          (some ⟨id, job.optimizationRunId, job.kind, job.payload, job.attempts + 1⟩,
            jobs.insert id (R.claimed now worker job)) := by
  unfold JobRepository.claim
  split
  · exact .inl rfl
  · next id job h =>
    have hmem := List.mem_filter.mp (List.argmin_mem h)
    obtain ⟨hclaimable, hlocked⟩ := Bool.and_eq_true_iff.mp hmem.2
    exact .inr ⟨id, job, AList.mem_lookup_iff.mpr hmem.1, hclaimable, by simpa using hlocked, rfl⟩

theorem enqueue_cases (now : Instant) (id : JobId) (payload : JobPayload) (run : Option RunId)
    (kind : String) (jobs : Jobs) :
    enqueue now id payload run kind jobs = (none, jobs) ∨
      (jobs.lookup id = none ∧ enqueue now id payload run kind jobs =
        (some id, jobs.insert id (newJob now payload run kind))) := by
  unfold enqueue
  split
  · exact .inl rfl
  · next h =>
    exact .inr ⟨AList.lookup_eq_none.mpr (fun hid => h (.inl hid)), rfl⟩

end NoSQLOptimizer.Worker
