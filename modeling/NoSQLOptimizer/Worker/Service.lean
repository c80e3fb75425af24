import NoSQLOptimizer.Production.Fence
import NoSQLOptimizer.Worker.Queue

namespace NoSQLOptimizer.Worker

open Adapters ControlPlane Concurrency Production Rollback

variable {τ : Type}

/-- What a job handler may be: checks of the lease, stages of any kind on the control plane, and the
two services that write to the target, in whatever order its own findings give. -/
inductive Script (τ : Type) : Type
  | done : Script τ
  | raise : Error → Script τ
  | ensureLeaseOwned : Script τ → Script τ
  | stage : RunId → (World τ → World τ) → (World τ → Script τ) → Script τ
  | deploy : RunId → (Except Error DeploymentArtifact → Script τ) → Script τ
  | rollback : RunId → (Except Error Outcome → Script τ) → Script τ

/-- A stage leaves the target alone, and the leases. -/
def onTables (f : World τ → World τ) (s : World τ) : World τ :=
  { f s with leaseLost := s.leaseLost, db := s.db, calls := s.calls }

def Script.run (A : DatabaseAdapter τ) (worker : WorkerId) : Script τ → Proc τ PUnit
  | .done => .ret ⟨⟩
  | .raise e => .fail e
  | .ensureLeaseOwned k => do
    ControlPlane.ensureLeaseOwned worker
    k.run A worker
  | .stage r f k => .act (.stage r) (onTables f) (fun s => (k s).run A worker)
  | .deploy r k => do
    let outcome ← (deployForRun A worker r).attempt
    (k outcome).run A worker
  | .rollback r k => do
    let outcome ← (rollbackForRun A worker r).attempt
    (k outcome).run A worker

/-- The heartbeat loop of a worker's `run_once`. -/
inductive Loop
  | absent
  | sleeping
  | returned
  | raised
  deriving DecidableEq

/-- The services' world and the job queue, and the heartbeat loops of the workers. -/
structure Fleet (τ : Type) where
  world : World τ
  queue : Queue := {}
  loop : WorkerId → Loop := fun _ => .absent

def Fleet.setLost (worker : WorkerId) (lost : Bool) (s : Fleet τ) : Fleet τ :=
  { s with world := { s.world with leaseLost := Function.update s.world.leaseLost worker lost } }

def Fleet.setLoop (worker : WorkerId) (loop : Loop) (s : Fleet τ) : Fleet τ :=
  { s with loop := Function.update s.loop worker loop }

/-- The actions of a worker. -/
inductive Move
  | claim
  | service : Label → Move
  | leaseLost
  | complete
  | fail
  | exit
  deriving DecidableEq

abbrev Shift (τ α : Type) := Process Move (Fleet τ) Error α

/-- The class names of the errors. -/
def typeName : Error → String
  | .leaseLost => "LeaseLostError"
  | .durableDeployment _ => "DurableDeploymentError"
  | .value _ => "ValueError"
  | .invalidStateTransition _ _ => "InvalidStateTransition"
  | .validation _ => "ValidationError"
  | .orchestrationInvariant _ => "OrchestrationInvariantError"
  | .authorityInvariant _ => "AuthorityInvariantError"
  | .approvalRequired _ => "DurableApprovalRequired"
  | .stage name => name
  | .permanentJob _ => "PermanentJobError"
  | .runtime _ => "RuntimeError"
  | .adapter => "OperationFailure"

section

variable (R : JobRepository) (worker : WorkerId)

/-- The claim; where it takes a job, the event is new and the heartbeat loop starts. -/
def claimJob (tag : Option String) (locked : JobId → Bool) : Shift τ (Option ClaimedJob) :=
  .act .claim
    (fun s =>
      let t := { s with queue := R.step s.queue (.claim worker tag locked) }
      if (R.taken s.queue (.claim worker tag locked)).isSome then
        (t.setLost worker false).setLoop worker .sleeping
      else t)
    (fun s => .ret ((R.taken s.queue (.claim worker tag locked)).map (·.2)))

def completeJob (job : ClaimedJob) : Shift τ Bool :=
  .act .complete (fun s => { s with queue := R.step s.queue (.complete job.id worker) })
    (fun s => .ret (JobRepository.complete s.queue.now job.id worker s.queue.jobs).1)

def failJob (job : ClaimedJob) (error : String) (permanent : Bool) : Shift τ PUnit :=
  .act .fail (fun s => { s with queue := R.step s.queue (.fail job worker error permanent) })
    (fun s => if (R.fail s.queue.now job worker error permanent s.queue.jobs).1 then .ret ⟨⟩
      else .fail .leaseLost)

/-- `lease_lost.is_set() or not await complete(...)`: then the lease is lost. -/
def finishJob (job : ClaimedJob) : Shift τ PUnit := do
  if ← Process.read .leaseLost (fun s : Fleet τ => s.world.leaseLost worker) then throw .leaseLost
  if !(← completeJob R worker job) then throw .leaseLost

def reportFailure (job : ClaimedJob) : Error → Shift τ PUnit
  | .permanentJob code => failJob R worker job code true
  | .leaseLost => throw .leaseLost
  | e => failJob R worker job (typeName e) false

/-- `heartbeat.cancel()`. -/
def exitSession : Shift τ PUnit := .modify .exit (Fleet.setLoop worker .absent)

/-- The `try` of `run_once`, without its `finally`. -/
def handleJob (A : DatabaseAdapter τ) (handler : ClaimedJob → Script τ) (job : ClaimedJob) :
    Shift τ PUnit :=
  Process.rescue
    (do
      ((handler job).run A worker).lift .service Fleet.world (fun w s => { s with world := w })
      finishJob R worker job)
    (reportFailure R worker job)

def runOnce (A : DatabaseAdapter τ) (handler : ClaimedJob → Script τ) (tag : Option String)
    (locked : JobId → Bool) : Shift τ PUnit := do
  match ← claimJob R worker tag locked with
  | none => return ⟨⟩
  | some job => (handleJob R worker A handler job).onExit (exitSession worker)

end

/-- What a heartbeat call comes to: an answer, or an exception, the write committed or not. -/
inductive Beat
  | answered
  | raised : Bool → Beat
  deriving DecidableEq

/-- What happens beside the workers' own code. -/
inductive Outside (τ : Type) : Type
  | heartbeat : WorkerId → Beat → Outside τ
  | stopping : WorkerId → Outside τ
  | tick : Nat → Outside τ
  | enqueue : JobId → JobPayload → Option RunId → String → Outside τ
  | world : (World τ → World τ) → Outside τ

/-- One round of a sleeping `heartbeat_loop`. -/
def Fleet.heartbeat (R : JobRepository) (worker : WorkerId) (beat : Beat) (s : Fleet τ) : Fleet τ :=
  match s.loop worker, s.queue.job worker with
  | .sleeping, some job =>
    let called := { s with queue := R.step s.queue (.heartbeat job.id worker) }
    match beat with
    | .answered =>
      if (R.heartbeat s.queue.now job.id worker s.queue.jobs).1 then
        called.setLoop worker (if s.world.leaseLost worker then .returned else .sleeping)
      else (called.setLost worker true).setLoop worker .returned
    | .raised committed => (if committed then called else s).setLoop worker .raised
  | _, _ => s

def Outside.act (R : JobRepository) : Outside τ → Fleet τ → Fleet τ
  | .heartbeat worker beat, s => s.heartbeat R worker beat
  | .stopping worker, s => s.setLost worker true
  | .tick d, s => { s with queue := R.step s.queue (.tick d) }
  | .enqueue id payload run kind, s => { s with queue := R.step s.queue (.enqueue id payload run kind) }
  | .world f, s => { s with world := { f s.world with leaseLost := s.world.leaseLost } }

/-- Any number of workers, each making one `run_once` after the other, and dying at any moment. -/
def workers (A : DatabaseAdapter τ) (R : JobRepository) (handler : ClaimedJob → Script τ) :
    System Move (Fleet τ) Error WorkerId (Option String × (JobId → Bool)) (Outside τ) where
  call worker k := runOnce R worker A handler k.1 k.2
  crash worker s := { s with world := s.world.endSession worker }.setLoop worker .absent
  env := Outside.act R

end NoSQLOptimizer.Worker
