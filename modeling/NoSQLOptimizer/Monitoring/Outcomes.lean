import NoSQLOptimizer.ControlPlane.Prepared
import NoSQLOptimizer.Monitoring.Durable

namespace NoSQLOptimizer.Monitoring

open Adapters ControlPlane Concurrency Production Rollback Runs

variable {τ ρ : Type}

def terminalOutcomes : List String := ["DEPLOYMENT_SUCCEEDED", "ROLLED_BACK", "ROLLBACK_BLOCKED"]

/-- The terminal outcomes that are recorded of the run's candidate. -/
def outcomesOf (s : World τ) (r : RunId) : List String :=
  match s.artifacts r with
  | none => []
  | some artifact =>
    ((s.experience.filter (·.candidateId = artifact.candidateId)).map (·.outcome)).filter
      (· ∈ terminalOutcomes)

/-- The run has ended the way the outcome tells. -/
inductive Concludes (run : OptimizationRun) : String → Prop
  | succeeded : run.status = .completed → run.completionReason = some .deploymentSucceeded →
      Concludes run "DEPLOYMENT_SUCCEEDED"
  | rolledBack : run.status = .rolledBack → Concludes run "ROLLED_BACK"
  | rollbackBlocked : run.status = .rollbackBlocked → Concludes run "ROLLBACK_BLOCKED"

/-- At most one terminal outcome, and once the run is terminal they agree. -/
structure OneFactualOutcome (r : RunId) (s : World τ) : Prop where
  one : (outcomesOf s r).length ≤ 1
  agrees : ∀ run, s.runs r = some run → terminal run.status = true →
    ∀ outcome ∈ outcomesOf s r, Concludes run outcome

/-- What `rollback_for_run` reports of the state without any change of the target: an outcome that
is recorded, or blocked because of the lock or because the inverse mutation is not safe. -/
inductive Reports (A : DatabaseAdapter τ) (s : World τ) (bound : BoundRollback) :
    MonitoringStatus → Prop
  | recorded (outcome : Outcome) :
      recordedOutcome (s.rollbacks bound.candidateId) = some outcome →
      Reports A s bound (rolledBackOrBlocked outcome)
  | locked : recordedOutcome (s.rollbacks bound.candidateId) = none →
      s.locks bound.targetId ≠ none → Reports A s bound .rollbackBlocked
  | refused (action : Actions.CreateIndexAction) (reason : String) :
      recordedOutcome (s.rollbacks bound.candidateId) = none →
      bound.action.actionPayload.modelValidate = .ok action →
      effectedIntent (s.rollbacks bound.candidateId) (stateOf A s.db action) = none →
      safeReason bound (stateOf A s.db action) action = some reason →
      Reports A s bound .rollbackBlocked

/-- The windows, and the rollback where they require one, come to the outcome again. -/
def Confirms (A : DatabaseAdapter τ) (collected : Telemetry) (r : RunId) (s : World τ)
    (outcome : String) : Prop :=
  ∀ baseline observed d, collected = .windows baseline observed →
    PostDeploymentMonitor.assess .byDefault baseline observed = .ok d →
    if d.rollbackRequired then
      ∀ bound, boundRollback s r = some bound →
        ∃ status : MonitoringStatus, Reports A s bound status ∧ status.outcome = outcome
    else outcome = "DEPLOYMENT_SUCCEEDED"

/-- An attempt that confirms what is recorded, if anything is. -/
def Steady (A : DatabaseAdapter τ) (r : RunId) (collected : Telemetry) (s : World τ) : Prop :=
  ∀ outcome ∈ outcomesOf s r, Confirms A collected r s outcome

/-- What else happens leaves alone the run's row, its artifact and its candidate's outcomes. -/
structure Apart (r : RunId) (s t : World τ) : Prop where
  run : t.runs r = s.runs r
  artifact : t.artifacts r = s.artifacts r
  outcomes : outcomesOf t r = outcomesOf s r

inductive Attempt
  | monitorForRun
  | orchestrate

section

variable (P : Stages τ ρ) (A : DatabaseAdapter τ) (r : RunId)

/-- The orchestrator with this monitoring. -/
def monitored (worker : WorkerId) (collected : Telemetry) : Stages τ ρ :=
  { P with
    monitoringExecutor := some (fun q =>
      { process := do return (← monitorForRun A worker collected q).status
        keeps := Worker.Keeps.bind monitorForRun_keeps (fun _ => Worker.Keeps.ret _) }) }

def Attempt.process (worker : WorkerId) (collected : Telemetry) : Attempt → Proc τ PUnit
  | .monitorForRun => do let _ ← Monitoring.monitorForRun A worker collected r
  | .orchestrate => do let _ ← Runs.orchestrate (monitored P A worker collected) worker r

/-- One attempt after the other, each ending or crashing anywhere, with windows of its own. -/
inductive Reach (allowed : Telemetry → World τ → Prop) (s : World τ) : World τ → Prop
  | refl : Reach allowed s s
  | apart {t u : World τ} : Reach allowed s t → Apart r t u → Reach allowed s u
  | attempt {t u : World τ} (call : Attempt) (worker : WorkerId) (collected : Telemetry) :
      Reach allowed s t → allowed collected t →
      (call.process P A r worker collected).Visits t u → Reach allowed s u

end

/-- Monitoring begins: nothing has come of it yet. -/
structure Enters (r : RunId) (s : World τ) : Prop where
  monitoring : ∃ run, s.runs r = some run ∧ run.status = .monitoring
  outcomes : outcomesOf s r = []

/-- The run is still monitored, or it has ended with its outcome recorded. -/
structure Tracked (r : RunId) (s : World τ) : Prop where
  one : (outcomesOf s r).length ≤ 1
  known : ∃ run, s.runs r = some run ∧ (run.status = .monitoring ∨ terminal run.status = true ∧
    (s.artifacts r = none ∨ ∃ outcome ∈ outcomesOf s r, Concludes run outcome))

section

variable {A : DatabaseAdapter τ} {P : Stages τ ρ} {worker : WorkerId} {collected : Telemetry}
  {r : RunId} {s t u : World τ} {bound : BoundRollback}

theorem Spares.apart (h : Spares s t) (r : RunId) : Apart r s t where
  run := congrFun h.runs r
  artifact := congrFun h.artifacts r
  outcomes := by rw [outcomesOf, outcomesOf, h.artifacts, h.experience]

theorem spares_run {α : Type} {p : Proc τ α} (hp : Does (fun _ s t => Spares s t) p)
    {x : Except ControlPlane.Error α} (hrun : p.run s = (x, t)) : Spares s t := by
  have hthroughout : p.Throughout (Spares s) s :=
    Process.Always.throughout (Process.Always.mono hp (fun _ _ _ h h' => h'.trans h) (fun _ h => h))
      (.refl s)
  exact hthroughout.ends hrun

theorem Tracked.apart (h : Tracked r s) (hst : Apart r s t) : Tracked r t := by
  obtain ⟨hone, run, hrun, hknown⟩ := h
  refine ⟨hst.outcomes ▸ hone, run, hst.run.trans hrun, ?_⟩
  rwa [hst.artifact, hst.outcomes]

theorem Tracked.oneFactualOutcome (h : Tracked r s) : OneFactualOutcome r s where
  one := h.one
  agrees run hrun hterminal outcome houtcome := by
    obtain ⟨run', hrun', hmonitoring | ⟨-, hnone | ⟨outcome', houtcome', hconcludes⟩⟩⟩ := h.known
    · cases hrun.symm.trans hrun'
      rw [hmonitoring] at hterminal
      cases hterminal
    · rw [outcomesOf, hnone] at houtcome
      cases houtcome
    · cases hrun.symm.trans hrun'
      obtain ⟨x, hx⟩ := List.length_eq_one_iff.mp
        (le_antisymm h.one (List.length_pos_of_mem houtcome))
      rw [hx, List.mem_singleton] at houtcome houtcome'
      rwa [houtcome, ← houtcome']

theorem Enters.tracked (h : Enters r s) : Tracked r s where
  one := by rw [h.outcomes]; exact Nat.zero_le _
  known := by
    obtain ⟨run, hrun, hmonitoring⟩ := h.monitoring
    exact ⟨run, hrun, .inl hmonitoring⟩

theorem outcome_mem_terminalOutcomes (status : MonitoringStatus) :
    status.outcome ∈ terminalOutcomes := by
  cases status <;> decide

/-- No outcome is recorded: no record stands in the way of one. -/
theorem record_run_blocked {c : CandidateId} (payload : RollbackPayload)
    (h : recordedOutcome (s.rollbacks c) = none) :
    ∃ t, (record c .rollbackBlocked payload).run s = (.ok ⟨⟩, t) := by
  have hrow : ∃ t, recordRow c .rollbackBlocked payload s = .ok (⟨⟩, t) := by
    unfold recordRow
    cases hrecord : s.rollbacks c with
    | none => exact ⟨_, rfl⟩
    | some row =>
      obtain ⟨status, payload'⟩ := row
      rw [hrecord] at h
      cases status with
      | intentRecorded => exact ⟨_, rfl⟩
      | rolledBack => cases h
      | rollbackBlocked => cases payload' <;> cases h
  obtain ⟨t, ht⟩ := hrow
  refine ⟨t, ?_⟩
  rw [record, Process.run_atomic, ht]

theorem rollbackLocked_run_blocked {action : Actions.CreateIndexAction} {reason : String}
    (hnone : recordedOutcome (s.rollbacks bound.candidateId) = none)
    (hvalid : bound.action.actionPayload.modelValidate = .ok action)
    (heffected : effectedIntent (s.rollbacks bound.candidateId) (stateOf A s.db action) = none)
    (hreason : safeReason bound (stateOf A s.db action) action = some reason) :
    ∃ t, (rollbackLocked A bound).run s = (.ok (.blocked reason), t) := by
  obtain ⟨t, ht⟩ := record_run_blocked (.blocked reason (stateOf A s.db action)) hnone
  refine ⟨t, ?_⟩
  unfold rollbackLocked
  simp only [hvalid, Except.mapError, Process.ofExcept, Process.bind_def, Process.ret_bind]
  rw [Process.run_bind_ok (state_run ..), Process.run_bind_ok (Process.run_read ..), heffected]
  simp only [hreason]
  rw [Process.run_bind_ok ht]
  rfl

theorem release_run_ok (service : ControlPlane.Service) (q : RunId) (worker : WorkerId)
    (target : TargetId) (s : World τ) :
    ∃ t, (release service q worker target).run s = (.ok ⟨⟩, t) := ⟨_, rfl⟩

/-- The lock is taken where it was free; nothing else changes. -/
theorem tryAcquire_run (service : ControlPlane.Service) (worker : WorkerId) (target : TargetId)
    (s : World τ) : (tryAcquire service worker target).run s =
      if s.locks target = none then
        (.ok true, { s with locks := Function.update s.locks target (some worker) })
      else (.ok false, s) := by
  unfold tryAcquire
  cases hlock : s.locks target with
  | none => simp [hlock]
  | some other => simp [hlock]

/-- What the service reports of the state, it returns. -/
theorem Reports.rollbackForRun {status : MonitoringStatus} (h : Reports A s bound status)
    (hbound : boundRollback s r = some bound) {outcome : Outcome}
    (hrun : (rollbackForRun A worker r).run s = (.ok outcome, t)) :
    rolledBackOrBlocked outcome = status := by
  unfold Rollback.rollbackForRun at hrun
  simp only [Process.bind_def] at hrun
  rw [Process.run_bind_ok (Process.run_read ..), hbound] at hrun
  dsimp only at hrun
  rw [Process.run_bind_ok (Process.run_read ..)] at hrun
  cases h with
  | recorded outcome' hrecorded =>
    rw [hrecorded] at hrun
    cases hrun
    rfl
  | locked hnone hlocked =>
    rw [hnone] at hrun
    dsimp only at hrun
    rw [Process.run_bind, tryAcquire_run, if_neg hlocked] at hrun
    cases hrun
    rfl
  | refused action reason hnone hvalid heffected hreason =>
    rw [hnone] at hrun
    dsimp only at hrun
    rw [Process.run_bind, tryAcquire_run] at hrun
    by_cases hfree : s.locks bound.targetId = none
    · rw [if_pos hfree] at hrun
      obtain ⟨u, hblocked⟩ := rollbackLocked_run_blocked (A := A)
        (s := { s with locks := Function.update s.locks bound.targetId (some worker) })
        hnone hvalid heffected hreason
      dsimp only at hrun
      rw [if_pos rfl, Process.run_onExit, hblocked] at hrun
      cases hrun
      rfl
    · rw [if_neg hfree] at hrun
      cases hrun
      rfl

/-- How the result comes about. -/
theorem monitorWindows_run_ok {result : MonitoringResult}
    (h : (monitorWindows A worker collected r).run s = (.ok result, t)) :
    ∃ baseline observed d, collected = .windows baseline observed ∧
      PostDeploymentMonitor.assess .byDefault baseline observed = .ok d ∧
      ((d.rollbackRequired = false ∧ result.status = d.status) ∨
        (d.rollbackRequired = true ∧ ∃ outcome,
          (Rollback.rollbackForRun A worker r).run s = (.ok outcome, t) ∧
          result.status = rolledBackOrBlocked outcome)) := by
  unfold monitorWindows PostDeploymentMonitor.monitor at h
  simp only [Process.bind_def] at h
  obtain ⟨⟨baseline, observed⟩, u, hwindows, hmonitor⟩ := Process.run_bind_eq_ok.mp h
  obtain ⟨hcollect, hu⟩ := Process.run_ofExcept_eq_ok.mp hwindows
  subst hu
  obtain ⟨d, u, hdecision, hact⟩ := Process.run_bind_eq_ok.mp hmonitor
  obtain ⟨hassess, hu⟩ := Process.run_ofExcept_eq_ok.mp hdecision
  subst hu
  refine ⟨baseline, observed, d, ?_, ?_, ?_⟩
  · cases collected with
    | windows b o =>
      cases hcollect
      rfl
    | unavailable => cases hcollect
    | failed code => cases hcollect
  · cases hd : PostDeploymentMonitor.assess .byDefault baseline observed with
    | ok d' =>
      rw [hd] at hassess
      cases hassess
      rfl
    | error e =>
      rw [hd] at hassess
      cases hassess
  · split at hact
    · next hrequired =>
      obtain ⟨outcome, u, hrollback, hret⟩ := Process.run_bind_eq_ok.mp hact
      cases hret
      exact .inr ⟨hrequired, outcome, hrollback, rfl⟩
    · next hrequired =>
      cases hact
      exact .inl ⟨Bool.eq_false_of_not_eq_true hrequired, rfl⟩

/-- A steady attempt comes to what is recorded. -/
theorem Steady.result (h : Steady A r collected s) {result : MonitoringResult}
    (hrun : (monitorWindows A worker collected r).run s = (.ok result, t)) :
    ∀ outcome ∈ outcomesOf s r, outcome = result.status.outcome := by
  intro outcome houtcome
  obtain ⟨baseline, observed, d, hcollected, hassess, hdecided⟩ := monitorWindows_run_ok hrun
  have hconfirms := h outcome houtcome baseline observed d hcollected hassess
  rcases hdecided with ⟨hrequired, hstatus⟩ | ⟨hrequired, reported, hrollback, hstatus⟩
  · rw [hrequired] at hconfirms
    rw [hstatus, MonitoringDecision.status]
    split <;> exact hconfirms
  · rw [if_pos hrequired] at hconfirms
    cases hbound : boundRollback s r with
    | none =>
      unfold Rollback.rollbackForRun at hrollback
      simp only [Process.bind_def] at hrollback
      rw [Process.run_bind_ok (Process.run_read ..), hbound] at hrollback
      cases hrollback
    | some bound =>
      obtain ⟨status, hreports, rfl⟩ := hconfirms bound hbound
      rw [hstatus, hreports.rollbackForRun hbound hrollback]

theorem mem_outcomesOf {artifact : DeploymentArtifact} (h : s.artifacts r = some artifact)
    {outcome : String} : outcome ∈ outcomesOf s r ↔ outcome ∈ terminalOutcomes ∧
      ∃ e ∈ s.experience, e.candidateId = artifact.candidateId ∧ e.outcome = outcome := by
  simp only [outcomesOf, h, List.mem_filter, List.mem_map, decide_eq_true_eq]
  constructor
  · rintro ⟨⟨e, ⟨he, hcandidate⟩, houtcome⟩, hterminal⟩
    exact ⟨hterminal, e, he, hcandidate, houtcome⟩
  · rintro ⟨hterminal, e, he, hcandidate, houtcome⟩
    exact ⟨⟨e, ⟨he, hcandidate⟩, houtcome⟩, hterminal⟩

theorem outcomesOf_record {artifact : DeploymentArtifact} (h : s.artifacts r = some artifact)
    (result : MonitoringResult) :
    outcomesOf { s with experience := s.experience ++ [result.experience artifact.candidateId] } r =
      outcomesOf s r ++ [result.status.outcome] := by
  simp [outcomesOf, h, MonitoringResult.experience, outcome_mem_terminalOutcomes]

/-- Where an attempt has recorded its result, if it has a candidate to record it of. -/
def Recorded (r : RunId) (result : MonitoringResult) (s : World τ) : Prop :=
  s.artifacts r = none ∨ outcomesOf s r = [result.status.outcome]

/-- What is recorded is what was recorded before, or the first outcome. -/
theorem Tracked.recordOutcome (h : Tracked r s) {result : MonitoringResult}
    (hsame : ∀ outcome ∈ outcomesOf s r, outcome = result.status.outcome) :
    (recordOutcome r result).Throughout (Tracked r) s ∧
      ∀ x, (Monitoring.recordOutcome r result).run s = (.ok x, t) →
        t.runs = s.runs ∧ Recorded r result t := by
  unfold Monitoring.recordOutcome
  simp only [Process.bind_def, Process.throughout_read_bind]
  cases hartifact : s.artifacts r with
  | none =>
    refine ⟨⟨h, h⟩, fun x hrun => ?_⟩
    rw [Process.run_bind_ok (Process.run_read ..), hartifact] at hrun
    cases hrun
    exact ⟨rfl, .inl hartifact⟩
  | some artifact =>
    simp only [Option.map_some, Process.throughout_read_bind]
    have hany : (s.experience.any (fun e => e.candidateId = artifact.candidateId &&
        e.outcome = result.status.outcome)) = true ↔ result.status.outcome ∈ outcomesOf s r := by
      rw [mem_outcomesOf hartifact]
      simp [outcome_mem_terminalOutcomes]
    cases halready : s.experience.any (fun e => e.candidateId = artifact.candidateId &&
        e.outcome = result.status.outcome) with
    | true =>
      have hmem := hany.mp halready
      obtain ⟨x, hx⟩ := List.length_eq_one_iff.mp (le_antisymm h.one (List.length_pos_of_mem hmem))
      refine ⟨⟨h, h, h⟩, fun y hrun => ?_⟩
      rw [Process.run_bind_ok (Process.run_read ..), hartifact] at hrun
      dsimp only [Option.map_some] at hrun
      rw [Process.run_bind_ok (Process.run_read ..), halready] at hrun
      cases hrun
      refine ⟨rfl, .inr ?_⟩
      rw [hx, List.mem_singleton] at hmem
      rw [hx, hmem]
    | false =>
      have hnew : outcomesOf s r = [] := by
        refine List.eq_nil_iff_forall_not_mem.mpr (fun outcome houtcome => ?_)
        rw [hsame outcome houtcome, ← hany, halready] at houtcome
        cases houtcome
      have hrecorded := outcomesOf_record hartifact result
      rw [hnew, List.nil_append] at hrecorded
      refine ⟨⟨h, h, h, ?_⟩, fun y hrun => ?_⟩
      · obtain ⟨run, hrun, hmonitoring | ⟨-, hnone | ⟨outcome, houtcome, -⟩⟩⟩ := h.known
        · exact ⟨by rw [hrecorded]; rfl, run, hrun, .inl hmonitoring⟩
        · rw [hartifact] at hnone
          cases hnone
        · rw [hnew] at houtcome
          cases houtcome
      · rw [Process.run_bind_ok (Process.run_read ..), hartifact] at hrun
        dsimp only [Option.map_some] at hrun
        rw [Process.run_bind_ok (Process.run_read ..), halready] at hrun
        cases hrun
        exact ⟨rfl, .inr hrecorded⟩

theorem Tracked.monitorForRun (worker : WorkerId) (h : Tracked r s) (hsteady : Steady A r collected s) :
    (monitorForRun A worker collected r).Throughout (Tracked r) s ∧
      ∀ result t, (Monitoring.monitorForRun A worker collected r).run s = (.ok result, t) →
        t.runs = s.runs ∧ Recorded r result t := by
  have hwindows : (monitorWindows A worker collected r).Throughout (Tracked r) s :=
    Process.Always.throughout (Process.Always.mono monitorWindows_spares
      (fun _ _ _ hst h => h.apart (hst.apart r)) (fun _ h => h)) h
  have hrecord : ∀ result u, (monitorWindows A worker collected r).run s = (.ok result, u) →
      Spares s u ∧ Tracked r u ∧ ∀ outcome ∈ outcomesOf u r, outcome = result.status.outcome := by
    intro result u hrun
    have hspares := spares_run monitorWindows_spares hrun
    refine ⟨hspares, hwindows.ends hrun, ?_⟩
    rw [(hspares.apart r).outcomes]
    exact hsteady.result hrun
  unfold Monitoring.monitorForRun
  simp only [Process.bind_def]
  constructor
  · refine hwindows.bind (fun result u hrun => ?_)
    obtain ⟨-, htracked, hsame⟩ := hrecord result u hrun
    have hthroughout := (htracked.recordOutcome (t := u) hsame).1
    exact ⟨htracked, hthroughout.bind (fun _ _ hrun => hthroughout.ends hrun)⟩
  · intro result t hrun
    obtain ⟨result', u, hrun, hrest⟩ := Process.run_bind_eq_ok.mp hrun
    obtain ⟨_, u', haudit, hrest⟩ := Process.run_bind_eq_ok.mp hrest
    cases haudit
    obtain ⟨_, v, hrecorded, hret⟩ := Process.run_bind_eq_ok.mp hrest
    cases hret
    obtain ⟨hspares, htracked, hsame⟩ := hrecord result u hrun
    obtain ⟨hruns, hdone⟩ := (htracked.recordOutcome hsame).2 _ hrecorded
    exact ⟨hruns.trans hspares.runs, hdone⟩

/-- The transition that ends a monitored run: with what is recorded, if anything is. -/
theorem tracked_of_transition {result : MonitoringResult} {next : RunStatus}
    {reason : Option RunCompletionReason} {moved : OptimizationRun}
    (hrecorded : Recorded r result s) (h : transitionRun r next reason s = .ok (moved, t))
    (hterminal : terminal next = true)
    (hconcludes : ∀ run : OptimizationRun, run.status = next → run.completionReason = reason →
      Concludes run result.status.outcome) : Tracked r t := by
  obtain ⟨run, -, -, -, rfl, rfl⟩ := transitionRun_ok h
  refine ⟨?_, _, Function.update_self .., .inr
    ⟨hterminal, hrecorded.imp id (fun houtcomes => ?_)⟩⟩
  · rcases hrecorded with hnone | houtcomes
    · simp [outcomesOf, hnone]
    · exact le_of_eq (congrArg List.length houtcomes)
  · refine ⟨result.status.outcome, ?_, hconcludes _ rfl rfl⟩
    change result.status.outcome ∈ outcomesOf s r
    rw [houtcomes]
    exact List.mem_singleton_self _

theorem Tracked.advance {result : MonitoringResult} {next : RunStatus}
    {reason : Option RunCompletionReason} (h : Tracked r s) (hrecorded : Recorded r result s)
    (hterminal : terminal next = true)
    (hconcludes : ∀ run : OptimizationRun, run.status = next → run.completionReason = reason →
      Concludes run result.status.outcome) : (advance r next reason).Throughout (Tracked r) s := by
  have htransition : (transition (τ := τ) r next reason).Throughout (Tracked r) s :=
    .atomic h (fun moved t ht => tracked_of_transition hrecorded ht hterminal hconcludes)
  exact htransition.bind (fun _ _ hrun => htransition.ends hrun)

theorem throughout_ensureLeaseOwned_bind {α : Type} {K : World τ → Prop} {f : PUnit → Proc τ α}
    (hs : K s) (hf : (f ⟨⟩).Throughout K s) :
    ((ensureLeaseOwned worker).bind f).Throughout K s := by
  refine Process.Throughout.bind ?_ (fun _ t hrun => ?_)
  · exact Process.Always.throughout (Process.Always.mono (ensureLeaseOwned_reads worker)
      (fun _ _ _ h hs => h.2 ▸ hs) (fun _ h => h)) hs
  · rw [ensureLeaseOwned_run] at hrun
    split at hrun
    · cases hrun
    · cases hrun
      exact hf

theorem Tracked.runMonitoring (h : Tracked r s) (hsteady : Steady A r collected s) :
    (runMonitoring (monitored P A worker collected) worker r).Throughout (Tracked r) s := by
  obtain ⟨hthroughout, hdone⟩ := h.monitorForRun worker hsteady
  have hstatus : (Process.bind (Monitoring.monitorForRun A worker collected r)
      (fun result => .ret result.status)).Throughout (Tracked r) s :=
    hthroughout.bind (fun _ _ hrun => hthroughout.ends hrun)
  refine Process.Throughout.bind hstatus (fun status t hrun => ?_)
  have htracked := hstatus.ends hrun
  obtain ⟨result, u, hrun, hret⟩ := Process.run_bind_eq_ok.mp hrun
  cases hret
  obtain ⟨-, hrecorded⟩ := hdone result _ hrun
  refine throughout_ensureLeaseOwned_bind htracked ?_
  cases hcase : result.status with
  | stable =>
    refine htracked.advance hrecorded rfl (fun run hstatus hreason => ?_)
    rw [hcase]
    exact .succeeded hstatus hreason
  | workloadShiftDetected =>
    refine htracked.advance hrecorded rfl (fun run hstatus hreason => ?_)
    rw [hcase]
    exact .succeeded hstatus hreason
  | rolledBack =>
    refine htracked.advance hrecorded rfl (fun run hstatus _ => ?_)
    rw [hcase]
    exact .rolledBack hstatus
  | rollbackBlocked =>
    refine htracked.advance hrecorded rfl (fun run hstatus _ => ?_)
    rw [hcase]
    exact .rollbackBlocked hstatus

theorem Tracked.orchestrate (P : Stages τ ρ) (worker : WorkerId) (h : Tracked r s)
    (hsteady : Steady A r collected s) :
    (orchestrate (monitored P A worker collected) worker r).Throughout (Tracked r) s := by
  obtain ⟨run, hrun, hknown⟩ := h.known
  refine throughout_ensureLeaseOwned_bind h ⟨h, ?_⟩
  dsimp only
  rw [hrun]
  dsimp only [Process.ret_bind]
  rcases hknown with hmonitoring | ⟨hterminal, -⟩
  · rw [resume, hmonitoring]
    exact h.runMonitoring hsteady
  · unfold resume
    cases hstatus : run.status <;> first
      | exact h
      | (rw [hstatus] at hterminal; cases hterminal)

theorem Tracked.attempt (h : Tracked r s) (hsteady : Steady A r collected s) (call : Attempt) :
    (call.process P A r worker collected).Throughout (Tracked r) s := by
  cases call with
  | monitorForRun =>
    have hthroughout := (h.monitorForRun worker hsteady).1
    exact hthroughout.bind (fun _ _ hrun => hthroughout.ends hrun)
  | orchestrate =>
    have hthroughout := h.orchestrate P worker hsteady
    exact hthroughout.bind (fun _ _ hrun => hthroughout.ends hrun)

/-- So long as each attempt confirms what is recorded, there is one outcome, and the run ends with
it. -/
theorem one_factual_outcome (hs : Enters r s) (h : Reach P A r (Steady A r) s t) :
    OneFactualOutcome r t := by
  have htracked : Tracked r t := by
    induction h with
    | refl => exact hs.tracked
    | apart _ hst ih => exact ih.apart hst
    | attempt call worker collected _ hsteady hvisits ih =>
      exact (ih.attempt hsteady call).visits hvisits
  exact htracked.oneFactualOutcome

end

section

def quiet : Stages MongoDatabase Unit where
  createSnapshot _ := ⟨.ret (.ok ⟨⟩), Worker.Keeps.ret _⟩
  verifySnapshotIntegrity _ := ⟨.ret (.ok true), Worker.Keeps.ret _⟩
  diagnosis := none
  candidates := none
  ranking := none
  evaluation := none
  evaluationExecutor := none
  admission := none
  admissionRequests := none
  authority := none
  approvals := none
  deployment := none
  monitoringExecutor := none

/-- The prepared action is deployed, and its run is monitored. -/
def deployed : World MongoDatabase :=
  { ({ status := .monitoring } : Preparation).world
      (preparedCollection [preparedAction.toIndexSpec]) with
    artifacts := Preparation.only
      { candidateId := 0
        candidateFingerprint := "candidate"
        actionFingerprint := ⟨preparedAction⟩
        idempotencyKey := ⟨0, "candidate", ⟨preparedAction⟩⟩
        status := .applied
        beforeState := stateOf mongodb (preparedCollection []) preparedAction
        inverseAction := preparedAction.inverse
        afterState := some
          (stateOf mongodb (preparedCollection [preparedAction.toIndexSpec]) preparedAction) } }

/-- Ten windows before the deployment and one after it, with the replica in this health. -/
def collectedWindows (replicaHealthy : Bool) : Telemetry :=
  .windows (List.replicate 10 (reads (some 100))) [{ reads (some 100) with replicaHealthy }]

theorem deployed_enters : Enters 0 deployed := ⟨⟨_, rfl, rfl⟩, rfl⟩

theorem one_factual_outcome_retried : OneFactualOutcome 0
    ((Attempt.orchestrate.process quiet mongodb 0 0 (collectedWindows true)).run deployed).2 :=
  one_factual_outcome deployed_enters (.attempt .orchestrate 0 (collectedWindows true) .refl
    (fun _ houtcome => by cases houtcome) (Process.visits_run _ _))

/-- The first attempt finds the deployment stable, and records that; the windows of the second one
require a rollback. -/
theorem not_one_factual_outcome : ¬ ∀ s t : World MongoDatabase, Enters 0 s →
    Reach quiet mongodb 0 (fun _ _ => True) s t → OneFactualOutcome 0 t := by
  intro h
  have hone := (h deployed _ deployed_enters (.attempt .monitorForRun 0 (collectedWindows false)
    (.attempt .monitorForRun 0 (collectedWindows true) .refl trivial (Process.visits_run _ _))
    trivial (Process.visits_run _ _))).one
  revert hone
  decide +kernel

end

end NoSQLOptimizer.Monitoring
