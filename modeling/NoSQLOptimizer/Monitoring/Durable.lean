import NoSQLOptimizer.Monitoring.PostDeployment
import NoSQLOptimizer.Worker.Progress

namespace NoSQLOptimizer.Runs.MonitoringStatus

def value : MonitoringStatus → String
  | stable => "STABLE"
  | workloadShiftDetected => "WORKLOAD_SHIFT_DETECTED"
  | rolledBack => "ROLLED_BACK"
  | rollbackBlocked => "ROLLBACK_BLOCKED"

/-- The factual outcome that is recorded of it. -/
def outcome (status : MonitoringStatus) : String :=
  if status = .stable ∨ status = .workloadShiftDetected then "DEPLOYMENT_SUCCEEDED"
  else status.value

end NoSQLOptimizer.Runs.MonitoringStatus

namespace NoSQLOptimizer.Monitoring

open Adapters ControlPlane Concurrency Production Rollback Runs Worker

variable {τ : Type}

def Error.raised : Error → ControlPlane.Error
  | .value message => .value message
  | .index message => .runtime message
  | .zeroDivision message => .runtime message

/-- What `collect_windows` comes to: the windows before and after the deployment, an `OSError` or
`TimeoutError`, or another error. -/
inductive Telemetry
  | windows : List MonitoringWindow → List MonitoringWindow → Telemetry
  | unavailable
  | failed : String → Telemetry

def Telemetry.collect : Telemetry →
    Except ControlPlane.Error (List MonitoringWindow × List MonitoringWindow)
  | .windows baseline observed => .ok (baseline, observed)
  | .unavailable => .error (.runtime "MONITORING_TELEMETRY_UNAVAILABLE")
  | .failed code => .error (.stage code)

/-- The coordinator's result is the outcome of the rollback that it triggers. -/
structure MonitoringResult where
  status : MonitoringStatus
  decision : MonitoringDecision
  rollbackResult : Option Outcome

def MonitoringDecision.status (d : MonitoringDecision) : MonitoringStatus :=
  if d.workloadShiftDetected then .workloadShiftDetected else .stable

def rolledBackOrBlocked (outcome : Outcome) : MonitoringStatus :=
  if outcome.status = .rolledBack then .rolledBack else .rollbackBlocked

namespace PostDeploymentMonitor

variable (M : PostDeploymentMonitor)

/-- `_validate_window_counts`. -/
def validateWindowCounts (baseline observed : List MonitoringWindow) : Except Error PUnit.{1} :=
  if M.policy.windowSeconds = 0 then .error (.zeroDivision "integer division or modulo by zero")
  else if baseline.length < M.policy.baselineSeconds.fdiv M.policy.windowSeconds then
    .error (.value "insufficient predeployment baseline windows")
  else if observed = [] ∨
      M.policy.monitoringSeconds.fdiv M.policy.windowSeconds < observed.length then
    .error (.value "observed monitoring windows are outside the configured monitoring period")
  else .ok ⟨⟩

/-- What is decided of the windows, before anything is done. -/
def assess (baseline observed : List MonitoringWindow) : Except Error MonitoringDecision := do
  M.validateWindowCounts baseline observed
  M.decision baseline observed

def monitor (rollback : Option (Proc τ Outcome)) (baseline observed : List MonitoringWindow) :
    Proc τ MonitoringResult := do
  let decision ← Process.ofExcept ((M.assess baseline observed).mapError Error.raised)
  if decision.rollbackRequired then
    match rollback with
    | none => return ⟨.rollbackBlocked, decision, none⟩
    | some rollback => do
      let outcome ← rollback
      return ⟨rolledBackOrBlocked outcome, decision, some outcome⟩
  else return ⟨decision.status, decision, none⟩

end PostDeploymentMonitor

def MonitoringResult.experience (result : MonitoringResult) (c : CandidateId) :
    ExperienceRecord where
  candidateId := c
  outcome := result.status.outcome
  monitoringStatus := result.status.value
  rollbackRequired := result.decision.rollbackRequired
  actualPostdeployOutcome := result.status.value
  rollbackOutcome := result.rollbackResult.map (fun outcome => (rolledBackOrBlocked outcome).value)

/-- The factual outcome of the run's candidate, unless the same one is recorded already.  Every
status is among those that are recorded. -/
def recordOutcome (r : RunId) (result : MonitoringResult) : Proc τ PUnit := do
  match ← Process.read (.stage r) (fun s => (s.artifacts r).map (·.candidateId)) with
  | none => return ⟨⟩
  | some c =>
    let alreadyRecorded ← Process.read (.experience c) (fun s =>
      s.experience.any (fun e => e.candidateId = c && e.outcome = result.status.outcome))
    Process.when (!alreadyRecorded) (.modify (.experience c) (fun s =>
      { s with experience := s.experience ++ [result.experience c] }))

section

variable (A : DatabaseAdapter τ) (worker : WorkerId) (collected : Telemetry) (r : RunId)

/-- `monitor_for_run` up to its result. -/
def monitorWindows : Proc τ MonitoringResult := do
  let windows ← Process.ofExcept collected.collect
  PostDeploymentMonitor.monitor .byDefault (some (rollbackForRun A worker r)) windows.1 windows.2

def monitorForRun : Proc τ MonitoringResult := do
  let result ← monitorWindows A worker collected r
  -- the audit event is a row that nothing reads
  Process.modify (.audit r) id
  recordOutcome r result
  return result

end

/-- Nothing that an outcome is read off is changed. -/
structure Spares (s t : World τ) : Prop where
  runs : t.runs = s.runs
  artifacts : t.artifacts = s.artifacts
  experience : t.experience = s.experience

theorem Spares.refl (s : World τ) : Spares s s := ⟨rfl, rfl, rfl⟩

theorem Spares.trans {s t u : World τ} (h : Spares s t) (h' : Spares t u) : Spares s u :=
  ⟨h'.runs.trans h.runs, h'.artifacts.trans h.artifacts, h'.experience.trans h.experience⟩

section

variable {A : DatabaseAdapter τ} {worker : WorkerId} {collected : Telemetry} {r : RunId}

theorem rollbackForRun_spares : Does (fun _ s t => Spares s t) (rollbackForRun A worker r) := by
  refine (rollbackForRun_acts A worker r).mono (fun l s t h => ?_) (fun _ h => h)
  rcases h with ⟨⟨-, hruns, hartifacts, -⟩, hworks⟩ | ⟨-, hlocks⟩
  · exact ⟨hruns, hartifacts, by rw [hworks.frame]⟩
  · exact ⟨by rw [hlocks], by rw [hlocks], by rw [hlocks]⟩

theorem monitorWindows_spares :
    Does (fun _ s t => Spares s t) (monitorWindows A worker collected r) := by
  refine Does.bind (Does.ofExcept _) (fun windows =>
    Does.bind (Does.ofExcept _) (fun decision => ?_))
  split
  · exact Does.bind rollbackForRun_spares (fun _ => Does.ret _)
  · exact Does.ret _

theorem record_keeps (c : CandidateId) (status : RollbackStatus) (payload : RollbackPayload) :
    Keeps (record (τ := τ) c status payload) := by
  refine Keeps.atomic (fun s a t h => ?_) (fun s e h code => ?_)
  · rcases recordRow_ok h with ⟨-, rfl⟩ | ⟨_, -, -, rfl⟩
    · exact .of_eq rfl
    · exact .refl _
  · unfold recordRow at h
    rintro rfl
    split at h
    · cases h
    · split at h
      · cases h
      · split at h <;> cases h

theorem finalizeRecord_keeps (bound : BoundRollback) (before after : IndexState)
    (action : Actions.CreateIndexAction) :
    Keeps (finalizeRecord (τ := τ) bound before after action) :=
  Keeps.bind (Keeps.read _ _) (fun _ =>
    Keeps.bind (Keeps.when (Keeps.append _)) (fun _ => record_keeps _ _ _))

theorem dropOwned_keeps (bound : BoundRollback) (state : IndexState)
    (action : Actions.CreateIndexAction) : Keeps (dropOwned A bound state action) := by
  refine Keeps.bind (record_keeps _ _ _) (fun _ =>
    Keeps.bind (fun s => ⟨.of_eq ?_, ?_⟩) (fun _ => ?_))
  · rw [World.drop_frame]
  · dsimp only
    split
    · exact Keeps.ret _
    · exact Keeps.fail (fun code h => by cases h)
  · refine Keeps.bind (Keeps.state _ _ _ _) (fun after => ?_)
    split
    · exact Keeps.bind (record_keeps _ _ _) (fun _ => Keeps.ret _)
    · exact Keeps.bind (finalizeRecord_keeps _ _ _ _) (fun _ => Keeps.ret _)

theorem rollbackLocked_keeps (bound : BoundRollback) : Keeps (rollbackLocked A bound) := by
  refine Keeps.bind (Keeps.ofExcept (fun e h code => ?_)) (fun action => ?_)
  · rintro rfl
    cases hvalid : bound.action.actionPayload.modelValidate <;> rw [hvalid] at h <;> cases h
  refine Keeps.bind (Keeps.state _ _ _ _) (fun state =>
    Keeps.bind (Keeps.read _ _) (fun intent => ?_))
  split
  · exact Keeps.bind (finalizeRecord_keeps _ _ _ _) (fun _ => Keeps.ret _)
  · split
    · exact Keeps.bind (record_keeps _ _ _) (fun _ => Keeps.ret _)
    · exact dropOwned_keeps _ _ _

theorem rollbackForRun_keeps : Keeps (rollbackForRun A worker r) := by
  refine Keeps.bind (Keeps.read _ _) (fun row => ?_)
  cases row with
  | none => exact Keeps.fail (fun code h => by cases h)
  | some bound =>
    refine Keeps.bind (Keeps.read _ _) (fun recorded => ?_)
    split
    · exact Keeps.ret _
    · refine Keeps.bind (Keeps.tryAcquire _ _ _) (fun acquired => ?_)
      cases acquired with
      | false => exact Keeps.ret _
      | true => exact Keeps.onExit (rollbackLocked_keeps bound) (Keeps.release _ _ _ _)

theorem monitorForRun_keeps : Keeps (monitorForRun A worker collected r) := by
  refine Keeps.bind ?_ (fun result => Keeps.bind (Keeps.modify _ .refl) (fun _ =>
    Keeps.bind ?_ (fun _ => Keeps.ret _)))
  · refine Keeps.bind (Keeps.ofExcept (fun e h code => ?_)) (fun windows =>
      Keeps.bind (Keeps.ofExcept (fun e h code => ?_)) (fun decision => ?_))
    · rintro rfl
      cases collected <;> cases h
    · rintro rfl
      cases hassess : PostDeploymentMonitor.assess .byDefault windows.1 windows.2 with
      | ok d =>
        rw [hassess] at h
        cases h
      | error e =>
        rw [hassess] at h
        cases e <;> cases h
    · split
      · exact Keeps.bind rollbackForRun_keeps (fun _ => Keeps.ret _)
      · exact Keeps.ret _
  · refine Keeps.bind (Keeps.read _ _) (fun candidate => ?_)
    cases candidate with
    | none => exact Keeps.ret _
    | some c =>
      exact Keeps.bind (Keeps.read _ _) (fun _ => Keeps.when (Keeps.modify _ (fun _ => .of_eq rfl)))

end

end NoSQLOptimizer.Monitoring
