import NoSQLOptimizer.Concurrency.Triple
import NoSQLOptimizer.Production.Footprints
import NoSQLOptimizer.Runs.Completion
import NoSQLOptimizer.Worker.Optimization

namespace NoSQLOptimizer.Worker

open Adapters Actions ControlPlane Concurrency Production Recovery Runs

variable {τ ρ α β : Type}

section

variable {p : Proc τ α}

theorem Keeps.bind {f : α → Proc τ β} (hp : Keeps p) (hf : ∀ a, Keeps (f a)) : Keeps (p >>= f) :=
  Process.Always.bind hp (fun a _ => hf a) (fun e he code hx => he code (by cases hx; rfl))

theorem Keeps.fail {e : Error} (h : ∀ code, e ≠ .permanentJob code) :
    Keeps (.fail e : Proc τ α) :=
  fun code he => h code (Except.error.inj he)

theorem Keeps.ret (a : α) : Keeps (.ret a : Proc τ α) := fun _ h => by cases h

theorem Keeps.read (l : Label) (f : World τ → α) : Keeps (Process.read l f : Proc τ α) :=
  fun s => ⟨.refl s, Keeps.ret (f s)⟩

theorem Keeps.modify (l : Label) {f : World τ → World τ} (h : ∀ s, Forward s (f s)) :
    Keeps (Process.modify l f) :=
  fun s => ⟨h s, Keeps.ret _⟩

theorem Keeps.when {b : Bool} {p : Proc τ PUnit} (hp : Keeps p) : Keeps (Process.when b p) := by
  cases b
  · exact Keeps.ret _
  · exact hp

theorem Keeps.onExit {q : Proc τ PUnit} (hp : Keeps p) (hq : Keeps q) : Keeps (p.onExit q) := by
  induction p with
  | ret a => exact Keeps.bind hq (fun _ => hp)
  | fail e => exact Keeps.bind hq (fun _ => hp)
  | act l u k ih => exact fun s => ⟨(hp s).1, ih s (hp s).2⟩

theorem Keeps.atomic {l : Label} {T : World τ → Except Error (α × World τ)}
    (hok : ∀ s a t, T s = .ok (a, t) → Forward s t)
    (herr : ∀ s e, T s = .error e → ∀ code, e ≠ .permanentJob code) : Keeps (Process.atomic l T) := by
  refine Process.Always.atomic l T (fun s a t h => ⟨hok s a t h, fun code hx => by cases hx⟩)
    (fun s e h => ⟨.refl s, fun code hx => herr s e h code (Except.error.inj hx)⟩)

theorem Keeps.ofExcept {x : Except Error α} (h : ∀ e, x = .error e → ∀ code, e ≠ .permanentJob code) :
    Keeps (Process.ofExcept x : Proc τ α) := by
  cases x with
  | ok a => exact Keeps.ret a
  | error e => exact Keeps.fail (h e rfl)

theorem Keeps.guardAll (checks : List (Bool × String)) : Keeps (guardAll (τ := τ) checks) := by
  unfold ControlPlane.guardAll
  split
  · exact Keeps.ret _
  · exact Keeps.fail (fun code h => by cases h)

theorem Keeps.ensureLeaseOwned (worker : WorkerId) : Keeps (ensureLeaseOwned (τ := τ) worker) := by
  refine Keeps.bind (Keeps.read _ _) (fun lost => ?_)
  split
  · exact Keeps.fail (fun code h => by cases h)
  · exact Keeps.ret _

theorem Keeps.state (A : DatabaseAdapter τ) (r : RunId) (why : Reading)
    (action : CreateIndexAction) : Keeps (state A r why action) := by
  refine Keeps.bind (Keeps.read _ _) (fun namespaces => ?_)
  split
  · exact Keeps.bind (Keeps.read _ _) (fun _ => Keeps.ret _)
  · exact Keeps.ret _

theorem Keeps.append (payload : LedgerPayload) : Keeps (append (τ := τ) payload) :=
  Keeps.modify _ (fun _ => .of_eq rfl)

theorem Keeps.tryAcquire (service : ControlPlane.Service) (worker : WorkerId) (t : TargetId) :
    Keeps (tryAcquire (τ := τ) service worker t) := by
  refine fun s => ⟨?_, Keeps.ret _⟩
  dsimp only
  split <;> exact .of_eq rfl

theorem Keeps.release (service : ControlPlane.Service) (r : RunId) (worker : WorkerId) (t : TargetId) :
    Keeps (release (τ := τ) service r worker t) := by
  refine Keeps.modify _ (fun s => ?_)
  split <;> exact .of_eq rfl

theorem Keeps.runStatus (r : RunId) : Keeps (runStatus (τ := τ) r) := by
  refine Keeps.bind (Keeps.read _ _) (fun row => ?_)
  cases row with
  | none => exact Keeps.fail (fun code h => by cases h)
  | some run => exact Keeps.ret _

theorem transitionRun_forward {r : RunId} {next : RunStatus} {reason : Option RunCompletionReason}
    {s t : World τ} {moved : OptimizationRun} (h : transitionRun r next reason s = .ok (moved, t)) :
    Forward s t := by
  obtain ⟨run, hrun, hedge, -, rfl, rfl⟩ := transitionRun_ok h
  intro q row hrow
  by_cases hq : q = r
  · subst hq
    cases hrun.symm.trans hrow
    exact ⟨_, Function.update_self .., .single hedge⟩
  · exact ⟨row, by simpa [hq] using hrow, .refl⟩

theorem transitionRun_error {r : RunId} {next : RunStatus} {reason : Option RunCompletionReason}
    {s : World τ} {e : Error} (h : transitionRun r next reason s = .error e) (code : String) :
    e ≠ .permanentJob code := by
  unfold transitionRun at h
  rintro rfl
  split at h
  · cases h
  · split at h
    · split at h <;> cases h
    · cases h

theorem Keeps.intent (bound : BoundAction) (before : IndexState) (action : CreateIndexAction) :
    Keeps (intent (τ := τ) bound before action) := by
  refine Keeps.atomic (fun s a t h => ?_) (fun s e h code => ?_)
  · obtain ⟨-, -, -, rfl⟩ | ⟨-, -, -, rfl⟩ := intentRow_ok h
    · exact .refl _
    · exact .of_eq rfl
  · unfold intentRow at h
    rintro rfl
    split at h
    · split at h <;> cases h
    · cases h

theorem Keeps.markApplied (r : RunId) (after : IndexState) :
    Keeps (markApplied (τ := τ) r after) := by
  refine Keeps.atomic (fun s a t h => ?_) (fun s e h code => ?_)
  · obtain ⟨_, -, -, rfl⟩ := markAppliedRow_ok h
    exact .of_eq rfl
  · unfold markAppliedRow at h
    rintro rfl
    split at h <;> cases h

theorem Keeps.recordIntent (key : IdempotencyKey) (actionId : Nat) (targetId : TargetId)
    (expected : ActionFingerprint) :
    Keeps (recordIntent (τ := τ) key actionId targetId expected) := by
  refine Keeps.modify _ (fun s => ?_)
  split <;> exact .of_eq rfl

theorem Keeps.executeOrRecover (key : IdempotencyKey)
    {targetHasExactEffect : ActionFingerprint → Proc τ Bool} {applyMutation : Proc τ PUnit}
    (heffect : ∀ expected, Keeps (targetHasExactEffect expected)) (hmutation : Keeps applyMutation) :
    Keeps (executeOrRecover key targetHasExactEffect applyMutation) := by
  have hbegin : Keeps (beginExecution (τ := τ) key) := by
    refine Keeps.atomic (fun s o t h => ?_) (fun s e h code => ?_)
    · obtain ⟨row, -, ⟨-, -, rfl⟩ | ⟨-, rfl⟩⟩ := beginRow_ok h
      · exact .refl _
      · exact .of_eq rfl
    · unfold beginRow at h
      rintro rfl
      split at h
      · cases h
      · split at h <;> cases h
  have hconfirm : Keeps (confirmExecution (τ := τ) key) := by
    refine Keeps.modify _ (fun s => ?_)
    split <;> exact .of_eq rfl
  refine Keeps.bind hbegin (fun o => ?_)
  cases o with
  | none => exact Keeps.ret _
  | some expected =>
    exact Keeps.bind (heffect expected) (fun _ => Keeps.bind (Keeps.when hmutation) (fun _ => hconfirm))

theorem Keeps.mutation (A : DatabaseAdapter τ) (worker : WorkerId) (r : RunId)
    (action : CreateIndexAction) : Keeps (mutation A worker r action) := by
  refine Keeps.bind (Keeps.ensureLeaseOwned worker) (fun _ s => ⟨.of_eq ?_, ?_⟩)
  · rw [World.create_frame]
  · dsimp only
    split
    · exact Keeps.ret _
    · exact Keeps.fail (fun code h => by cases h)

theorem Keeps.exactEffect (A : DatabaseAdapter τ) (r : RunId) (action : CreateIndexAction)
    (expected : ActionFingerprint) : Keeps (exactEffect A r action expected) :=
  Keeps.bind (Keeps.state A r .effect action) (fun _ => Keeps.ret _)

end

/-- Everybody moves the runs along the graph, and relies on the others to do so. -/
def forward (P : Option (Stages τ ρ)) : Discipline (moving P) where
  inv _ := True
  grows := Forward
  rely _ := Forward
  rely_grows h := h
  idle _ _ := True
  refl _ := Forward.refl
  trans := Forward.trans
  idle_stable _ _ := trivial

/-- The worker's own error is not raised. -/
abbrev Unraised (e : Error) (_ : World τ) : Prop := ∀ code, e ≠ .permanentJob code

theorem stage_le (status : RunStatus) : stage status ≤ 14 := by cases status <;> decide

theorem stage_lt_of_later {current next : RunStatus} (h : Later current next) :
    stage current < stage next := by
  induction h with
  | single hedge => exact stage_lt_of_mem_nextStates hedge
  | tail _ hedge ih => exact ih.trans (stage_lt_of_mem_nextStates hedge)

theorem eq_of_terminal {current next : RunStatus} (h : terminal current = true)
    (hlater : NotBefore current next) : next = current := by
  rcases hlater.cases_head with hsame | ⟨_, hedge, -⟩
  · exact hsame.symm
  · rw [Edge, (nextStates_eq_nil_iff current).mpr h] at hedge
    cases hedge

/-- The run is there, in this status or a later one. -/
def From (r : RunId) (status : RunStatus) (s : World τ) : Prop :=
  ∃ run, s.runs r = some run ∧ NotBefore status run.status

/-- The run is there, in a later status. -/
def Past (r : RunId) (status : RunStatus) (s : World τ) : Prop :=
  ∃ run, s.runs r = some run ∧ Later status run.status

section

variable {P : Option (Stages τ ρ)} {i : WorkerId} {r : RunId} {status next : RunStatus}
  {K : World τ → Prop} {E : Error → World τ → Prop}

theorem From.later {s t : World τ} (h : From r status s) (hst : Forward s t) : From r status t := by
  obtain ⟨run, hr, hlater⟩ := h
  obtain ⟨run', hr', hlater'⟩ := hst r run hr
  exact ⟨run', hr', hlater.trans hlater'⟩

theorem From.mono {s : World τ} (h : From r next s) (hlater : NotBefore status next) :
    From r status s := by
  obtain ⟨run, hr, h⟩ := h
  exact ⟨run, hr, hlater.trans h⟩

theorem From.past {s : World τ} (h : From r next s) (hlater : Later status next) :
    Past r status s := by
  obtain ⟨run, hr, h⟩ := h
  exact ⟨run, hr, hlater.trans_left h⟩

theorem past_stable : (forward P).Stable i (Past r status) := by
  rintro s t hst - ⟨run, hr, hlater⟩
  obtain ⟨run', hr', hlater'⟩ := hst r run hr
  exact ⟨run', hr', hlater.trans_left hlater'⟩

theorem from_stable : (forward P).Stable i (From r status) := fun _ _ hst _ h => h.later hst

theorem crashable (K : World τ → Prop) : (forward P).Crashable i K :=
  fun _ _ _ _ _ => ⟨⟨trivial, .of_eq rfl, fun _ _ => .of_eq rfl⟩, trivial⟩

/-- What a process of the services does not touch. -/
theorem Keeps.triple {p : Proc τ α} (hp : Keeps p) (hK : (forward P).Stable i K) :
    (forward P).Triple i K p (fun _ => K) Unraised :=
  .neutral hp (fun _ _ _ _ _ h => ⟨trivial, fun _ => h⟩) hK (crashable K) (fun _ _ _ _ hk => hk)
    (fun _ _ _ he _ code h => he code (congrArg _ h))

theorem transition_triple (reason : Option RunCompletionReason) :
    (forward P).Triple i (From r status) (transition r next reason)
      (fun moved s => (moved.status = next ∧ Later status next) ∧ From r next s) Unraised := by
  refine .atomic from_stable (crashable _) (fun _ => (Discipline.Stable.const _).and from_stable)
    (fun _ => .const _) (fun s moved t _ hfrom _ hok => ?_) (fun s e _ _ _ herr code => ?_)
  · have hforward := transitionRun_forward hok
    obtain ⟨run, hrun, hedge, -, rfl, rfl⟩ := transitionRun_ok hok
    obtain ⟨row, hrow, hlater⟩ := hfrom
    cases hrun.symm.trans hrow
    refine ⟨⟨trivial, hforward, fun _ _ => hforward⟩, ⟨rfl, .tail' hlater hedge⟩, ?_⟩
    exact ⟨_, Function.update_self .., .refl⟩
  · exact transitionRun_error herr code

theorem guardAll_triple {checks : List (Bool × String)} (hK : (forward P).Stable i K) :
    (forward P).Triple i K (guardAll checks)
      (fun _ s => K s ∧ ∀ check ∈ checks, check.1 = false) Unraised := by
  unfold guardAll
  split
  · next hnone => exact .ret hK (fun s _ hk => ⟨hk, firstRefusal_eq_none.mp hnone⟩)
  · exact .fail hK (fun _ _ _ code h => by cases h)

/-- A row of the run, read in this status or a later one. -/
def Found (r : RunId) (status : RunStatus) (run : OptimizationRun) (s : World τ) : Prop :=
  NotBefore status run.status ∧ From r run.status s

theorem found_stable (run : OptimizationRun) : (forward P).Stable i (Found r status run) :=
  (Discipline.Stable.const _).and from_stable

theorem readRun_triple (l : Label) :
    (forward P).Triple i (From r status) (Process.read l (·.runs r))
      (fun row s => ∀ run, row = some run → Found r status run s) Unraised := by
  refine .read from_stable (crashable _) (fun _ => .opt found_stable) ?_
  rintro s - ⟨run, hrun, hlater⟩ - run' hrun'
  cases hrun.symm.trans hrun'
  exact ⟨hlater, run, hrun, .refl⟩

theorem runStatus_triple :
    (forward P).Triple i (From r status) (runStatus r)
      (fun current s => NotBefore status current ∧ From r current s) Unraised := by
  refine .bind (readRun_triple _) (fun row => ?_)
  cases row with
  | none => exact .fail (.opt found_stable) (fun _ _ _ code h => by cases h)
  | some run => exact .ret (.opt found_stable) (fun _ _ hk => hk run rfl)

/-- A run that is found DEPLOYING becomes DEPLOYED, and one that is found further on is further on. -/
theorem finish_triple {current : RunStatus} {rest : Proc τ PUnit} (hrest : Keeps rest)
    (hfound : NotBefore .deploying current) :
    (forward P).Triple i (From r current)
      (if current = .deploying then (transition r .deployed).bind (fun _ => .ret ⟨⟩) else rest)
      (fun _ => Past r .deploying) Unraised := by
  split
  · next hdeploying =>
    subst hdeploying
    refine .bind (transition_triple none) (fun moved => ?_)
    refine .ret ((Discipline.Stable.const _).and from_stable) (fun s _ h => ?_)
    exact h.2.past h.1.2
  · next hother =>
    refine (Keeps.triple hrest from_stable).post (fun _ s _ h => h.past ?_)
    exact (Relation.reflTransGen_iff_eq_or_transGen.mp hfound).resolve_left hother

theorem finishDeploying_triple :
    (forward P).Triple i (From r .deploying) (finishDeploying r) (fun _ => Past r .deploying)
      Unraised := by
  refine .bind runStatus_triple (fun current s hs h => ?_)
  exact finish_triple (Keeps.ret _) h.1 s hs h.2

theorem reconcileApplied_triple (bound : BoundAction) (before : IndexState)
    (action : CreateIndexAction) :
    (forward P).Triple i (From bound.runId .deploying) (reconcileApplied bound before action)
      (fun _ => Past bound.runId .deploying) Unraised := by
  refine .bind (Keeps.triple (Keeps.guardAll _) from_stable) (fun _ => ?_)
  refine .bind runStatus_triple (fun current s hs h => ?_)
  exact finish_triple (Keeps.guardAll _) h.1 s hs h.2

theorem enterDeploying_triple (bound : BoundAction) :
    (forward P).Triple i (From bound.runId bound.run.status) (enterDeploying bound)
      (fun _ => From bound.runId .deploying) Unraised := by
  unfold enterDeploying
  split
  · next happroved =>
    refine .bind (transition_triple none) (fun moved => ?_)
    exact .ret ((Discipline.Stable.const _).and from_stable) (fun _ _ h => h.2)
  · refine (guardAll_triple from_stable).post (fun _ s _ h => h.1.mono ?_)
    have hstatus : bound.run.status = .deploying ∨ bound.run.status = .deployed := by
      simpa [or_iff_not_imp_left] using h.2
    rcases hstatus with hdeploying | hdeployed
    · rw [hdeploying]
    · rw [hdeployed]
      exact .single (by simp [Edge, nextStates])

theorem recordApplied_triple (A : DatabaseAdapter τ) (bound : BoundAction) (before : IndexState)
    (action : CreateIndexAction) :
    (forward P).Triple i (From bound.runId .deploying) (recordApplied A i bound before action)
      (fun _ => Past bound.runId .deploying) Unraised := by
  refine .bind (Keeps.triple (Keeps.state A _ _ _) from_stable) (fun after => ?_)
  refine .bind (Keeps.triple (Keeps.guardAll _) from_stable) (fun _ => ?_)
  refine .bind (Keeps.triple (Keeps.markApplied _ _) from_stable) (fun persisted => ?_)
  refine .bind (Keeps.triple (Keeps.append _) from_stable) (fun _ => ?_)
  refine .bind (Keeps.triple (Keeps.ensureLeaseOwned i) from_stable) (fun _ => ?_)
  exact .bind finishDeploying_triple (fun _ => .ret past_stable (fun _ _ h => h))

theorem deployLocked_triple (A : DatabaseAdapter τ) (bound : BoundAction) :
    (forward P).Triple i (From bound.runId bound.run.status) (deployLocked A i bound)
      (fun _ => Past bound.runId .deploying) Unraised := by
  have hpayload : ∀ e, bound.action.actionPayload.modelValidate.mapError Error.validation = .error e →
      ∀ code, e ≠ .permanentJob code := by
    intro e he code
    cases hvalid : bound.action.actionPayload.modelValidate <;> rw [hvalid] at he <;> cases he
    simp
  refine .bind (Keeps.triple (Keeps.ofExcept hpayload) from_stable) (fun action => ?_)
  refine .bind (Keeps.triple (Keeps.state A _ _ _) from_stable) (fun before => ?_)
  refine .bind (Keeps.triple (Keeps.intent bound before action) from_stable) (fun inserted => ?_)
  obtain ⟨artifact, intentCreated⟩ := inserted
  refine .bind (enterDeploying_triple bound) (fun _ => ?_)
  split
  · refine .bind (reconcileApplied_triple bound before action) (fun _ => ?_)
    exact .ret past_stable (fun _ _ h => h)
  · refine .bind (Keeps.triple (Keeps.recordIntent _ _ _ _) from_stable) (fun _ => ?_)
    refine .bind (Keeps.triple (Keeps.when (Keeps.append _)) from_stable) (fun _ => ?_)
    refine .bind (Keeps.triple (Keeps.ensureLeaseOwned i) from_stable) (fun _ => ?_)
    refine .bind (Keeps.triple (Keeps.executeOrRecover _ (Keeps.exactEffect A _ action)
      (Keeps.mutation A i _ action)) from_stable) (fun _ => ?_)
    refine .bind (Keeps.triple (Keeps.ensureLeaseOwned i) from_stable) (fun _ => ?_)
    exact recordApplied_triple A bound before action

theorem requireApproval_keeps (bound : BoundAction) : Keeps (requireApproval (τ := τ) bound) := by
  unfold requireApproval
  split
  · exact Keeps.bind (Keeps.read _ _) (fun _ => Keeps.bind (Keeps.read _ _) (fun _ => Keeps.guardAll _))
  · exact Keeps.ret _

/-- The row that a call is bound to is the run's, in this status or a later one. -/
def Bound (r : RunId) (status : RunStatus) (bound : BoundAction) (s : World τ) : Prop :=
  (NotBefore status bound.run.status ∧ bound.runId = r) ∧ From r bound.run.status s

theorem bound_stable (bound : BoundAction) : (forward P).Stable i (Bound r status bound) :=
  (Discipline.Stable.const _).and from_stable

theorem loadBoundAction_triple :
    (forward P).Triple i (From r status) (loadBoundAction r) (Bound r status) Unraised := by
  refine .bind (Q := fun row s => ∀ bound, row = some bound → Bound r status bound s)
    (.read from_stable (crashable _) (fun _ => .opt bound_stable) ?_) (fun row => ?_)
  · rintro s - ⟨run, hrun, hlater⟩ - bound hbound
    cases hrun.symm.trans (boundAction_run hbound)
    exact ⟨⟨hlater, boundAction_runId hbound⟩, _, hrun, .refl⟩
  · cases row with
    | none => exact .fail (.opt bound_stable) (fun _ _ _ code h => by cases h)
    | some bound =>
      refine .pre (K := Bound r status bound) ?_ (fun _ _ h => h bound rfl)
      refine .bind (Keeps.triple (Keeps.guardAll _) (bound_stable bound)) (fun _ => ?_)
      refine .bind (Keeps.triple (Keeps.read _ _) (bound_stable bound)) (fun capability => ?_)
      refine .bind (Keeps.triple (Keeps.read _ _) (bound_stable bound)) (fun credential => ?_)
      refine .bind (Keeps.triple (Keeps.guardAll _) (bound_stable bound)) (fun _ => ?_)
      refine .bind (Keeps.triple (requireApproval_keeps bound) (bound_stable bound)) (fun _ => ?_)
      exact .ret (bound_stable bound) (fun _ _ h => h)

/-- A deployment that returns has brought the run past DEPLOYING. -/
theorem deployForRun_triple (A : DatabaseAdapter τ) :
    (forward P).Triple i (From r status) (deployForRun A i r) (fun _ => Past r .deploying)
      Unraised := by
  refine .bind (Keeps.triple (Keeps.ensureLeaseOwned i) from_stable) (fun _ => ?_)
  refine .bind loadBoundAction_triple (fun bound s hs h => ?_)
  obtain ⟨⟨-, rfl⟩, hfrom⟩ := h
  refine Discipline.Triple.bind (Keeps.triple (Keeps.tryAcquire .deployment i bound.targetId)
    from_stable) (fun acquired => ?_) s hs hfrom
  cases acquired with
  | false => exact .fail from_stable (fun _ _ _ code h => by cases h)
  | true =>
    refine .onExit (.bind (Keeps.triple (Keeps.ensureLeaseOwned i) from_stable)
      (fun _ => deployLocked_triple A bound)) (fun _ => ?_) (fun e => ?_)
    · exact Keeps.triple (Keeps.release .deployment bound.runId i bound.targetId) past_stable
    · refine (Keeps.triple (Keeps.release .deployment bound.runId i bound.targetId)
        (K := Unraised e) (.const _)).conseq (fun _ _ h => h) (fun _ _ _ h => h) (fun _ _ _ h => h)

/-- What an orchestration that found the run in this status has come to. -/
structure Reported (r : RunId) (status : RunStatus) (result : OrchestrationResult) (s : World τ) :
    Prop where
  standing : From r result.status s
  progressed : result.outcome = .progressed → Later status result.status
  terminal : result.outcome = .terminal → terminal result.status = true

theorem reported_stable (result : OrchestrationResult) :
    (forward P).Stable i (Reported r status result) :=
  fun _ _ hst _ h => ⟨h.standing.later hst, h.progressed, h.terminal⟩

abbrev Orchestrates (P : Option (Stages τ ρ)) (i : WorkerId) (r : RunId) (status : RunStatus)
    (p : Proc τ OrchestrationResult) : Prop :=
  (forward P).Triple i (From r status) p (Reported r status) Unraised

theorem Orchestrates.after {p : Proc τ α} {f : α → Proc τ OrchestrationResult} (hp : Keeps p)
    (hf : ∀ a, Orchestrates P i r status (f a)) : Orchestrates P i r status (p >>= f) :=
  .bind (Keeps.triple hp from_stable) hf

theorem advance_triple (reason : Option RunCompletionReason) :
    Orchestrates P i r status (advance r next reason) := by
  refine .bind (transition_triple reason) (fun moved => .ret ?_ ?_)
  · exact (Discipline.Stable.const _).and from_stable
  · rintro s - ⟨⟨rfl, hlater⟩, hfrom⟩
    exact ⟨hfrom, fun _ => hlater, fun h => by cases h⟩

theorem block_triple (blocker : String) : Orchestrates P i r status (block status blocker) :=
  .ret from_stable (fun _ _ h => ⟨h, (fun h => by cases h), (fun h => by cases h)⟩)

theorem unblocked_triple {stage : Proc τ (Except String α)}
    {next : α → Proc τ OrchestrationResult} (hstage : Keeps stage)
    (hnext : ∀ a, Orchestrates P i r status (next a)) :
    Orchestrates P i r status (unblocked status stage next) := by
  refine .after hstage (fun outcome => ?_)
  cases outcome with
  | error blocker => exact block_triple blocker
  | ok a => exact hnext a

theorem Keeps.invariantError (violated : Bool) (message : String) :
    Keeps (invariantError (τ := τ) violated message) := by
  cases violated
  · exact Keeps.ret _
  · exact Keeps.fail (fun code h => by cases h)

theorem fail_triple {e : Error} (he : ∀ code, e ≠ .permanentJob code) :
    Orchestrates P i r status (.fail e) :=
  .fail from_stable (fun _ _ _ => he)

section

variable (Q : Stages τ ρ)

theorem runSnapshotting_triple (run : OptimizationRun) :
    Orchestrates P i r .snapshotting (runSnapshotting Q i r run) := by
  refine unblocked_triple ?_ (fun _ => .after (Keeps.read _ _) (fun refreshed => ?_))
  · unfold snapshotFor
    split
    · exact Keeps.bind (Keeps.ensureLeaseOwned i) (fun _ => (Q.createSnapshot r).keeps)
    · exact Keeps.ret _
  · split
    · exact fail_triple (fun code h => by cases h)
    · next snapshotId _ =>
      refine unblocked_triple (Q.verifySnapshotIntegrity snapshotId).keeps (fun verified => ?_)
      refine .after (Keeps.invariantError _ _) (fun _ => ?_)
      exact .after (Keeps.ensureLeaseOwned i) (fun _ => advance_triple none)

theorem runDiagnosing_triple : Orchestrates P i r .diagnosing (runDiagnosing Q i r) := by
  unfold runDiagnosing
  split
  · exact block_triple _
  · next diagnosis _ =>
    refine .after (Keeps.ensureLeaseOwned i) (fun _ => ?_)
    refine unblocked_triple (diagnosis.1 r).keeps (fun diagnosisId => ?_)
    refine unblocked_triple (diagnosis.2 diagnosisId).keeps (fun verified => ?_)
    refine .after (Keeps.invariantError _ _) (fun _ => ?_)
    exact .after (Keeps.ensureLeaseOwned i) (fun _ => advance_triple none)

theorem runGeneratingCandidates_triple :
    Orchestrates P i r .generatingCandidates (runGeneratingCandidates Q i r) := by
  unfold runGeneratingCandidates
  split
  · exact block_triple _
  · next createForRun _ =>
    refine .after (Keeps.ensureLeaseOwned i) (fun _ => ?_)
    refine unblocked_triple (createForRun r).keeps (fun candidateCount => ?_)
    refine .after (Keeps.ensureLeaseOwned i) (fun _ => ?_)
    split <;> exact advance_triple _

theorem runRanking_triple : Orchestrates P i r .ranking (runRanking Q i r) := by
  unfold runRanking
  split
  · exact block_triple _
  · next createForRun _ =>
    refine .after (Keeps.ensureLeaseOwned i) (fun _ => ?_)
    refine unblocked_triple (createForRun r).keeps (fun _ => ?_)
    exact .after (Keeps.ensureLeaseOwned i) (fun _ => advance_triple none)

theorem runCalibrating_triple (run : OptimizationRun) :
    Orchestrates P i r .calibrating (runCalibrating Q i r run) := by
  unfold runCalibrating
  split
  · exact block_triple _
  · next createPlanForRun _ =>
    refine .after (Keeps.ensureLeaseOwned i) (fun _ => ?_)
    refine unblocked_triple (createPlanForRun r _).keeps (fun _ => ?_)
    exact .after (Keeps.ensureLeaseOwned i) (fun _ => advance_triple none)

theorem runEvaluating_triple : Orchestrates P i r .evaluating (runEvaluating Q i r) := by
  unfold runEvaluating
  split
  · exact block_triple _
  · next execute _ =>
    refine .after (Keeps.ensureLeaseOwned i) (fun _ => .after (execute r).keeps (fun _ => ?_))
    exact .after (Keeps.ensureLeaseOwned i) (fun _ => advance_triple none)

theorem runAdmission_triple : Orchestrates P i r .admission (runAdmission Q i r) := by
  unfold runAdmission
  split
  · next decideForRun requests _ _ =>
    refine .after (Keeps.ensureLeaseOwned i) (fun _ => .after (requests r).keeps (fun evidence => ?_))
    refine .after (decideForRun r evidence).keeps (fun selected => ?_)
    refine .after (Keeps.ensureLeaseOwned i) (fun _ => ?_)
    split <;> exact advance_triple _
  · exact block_triple _

theorem createBoundApproval_keeps (request : BoundRequest → Service τ PUnit) (run : OptimizationRun)
    (authority : AuthorityDecision) : Keeps (createBoundApproval r request run authority) := by
  refine Keeps.bind (Keeps.read _ _) (fun action => ?_)
  cases action with
  | none => exact Keeps.fail (fun code h => by cases h)
  | some action => exact (request _).keeps

theorem runAdmitted_triple (run : OptimizationRun) :
    Orchestrates P i r .admitted (runAdmitted Q i r run) := by
  unfold runAdmitted
  split
  · exact block_triple _
  · next decideForRun _ =>
    refine .after (decideForRun r).keeps (fun authority => ?_)
    refine .after (Keeps.ensureLeaseOwned i) (fun _ => ?_)
    split
    · exact advance_triple none
    · split
      · exact block_triple _
      · next request _ =>
        refine .after (createBoundApproval_keeps request run authority.1) (fun _ => ?_)
        refine .after (Keeps.ensureLeaseOwned i) (fun _ => ?_)
        refine .bind (transition_triple none) (fun moved => .ret ?_ ?_)
        · exact (Discipline.Stable.const _).and from_stable
        · rintro s - ⟨⟨hmoved, -⟩, hfrom⟩
          exact ⟨hmoved ▸ hfrom, (fun h => by cases h), (fun h => by cases h)⟩

/-- The delegated step: the deployment itself has moved the run. -/
theorem runDeploying_triple (hstatus : NotBefore status .deploying) :
    Orchestrates P i r status (runDeploying Q i r status) := by
  unfold runDeploying
  split
  · exact block_triple _
  · next A _ =>
    refine .bind (deployForRun_triple A) (fun _ => ?_)
    have hread : (forward P).Triple i (Past r .deploying) (Process.read (.run r) (·.runs r))
        (fun row s => ∀ run, row = some run → Later .deploying run.status ∧ From r run.status s)
        Unraised := by
      refine .read past_stable (crashable _)
        (fun _ => .opt (fun _ => (Discipline.Stable.const _).and from_stable)) ?_
      rintro s - ⟨run, hrun, hlater⟩ - run' hrun'
      cases hrun.symm.trans hrun'
      exact ⟨hlater, run, hrun, .refl⟩
    refine .bind hread (fun row => ?_)
    have hrow : (forward P).Stable i (fun s => ∀ run, row = some run →
        Later .deploying run.status ∧ From r run.status s) :=
      .opt (fun _ => (Discipline.Stable.const _).and from_stable)
    cases row with
    | none => exact .fail hrow (fun _ _ _ code h => by cases h)
    | some run =>
      refine .ret hrow (fun s _ h => ?_)
      obtain ⟨hlater, hfrom⟩ := h run rfl
      exact ⟨hfrom, fun _ => Relation.TransGen.trans_right hstatus hlater, fun h => by cases h⟩

theorem runMonitoring_triple : Orchestrates P i r .monitoring (runMonitoring Q i r) := by
  unfold runMonitoring
  split
  · exact block_triple _
  · next monitor _ =>
    refine .after (monitor r).keeps (fun outcome => ?_)
    refine .after (Keeps.ensureLeaseOwned i) (fun _ => ?_)
    cases outcome <;> exact advance_triple _

theorem validateCreated_keeps (run : OptimizationRun) :
    Keeps (validateCreated (τ := τ) r run) := by
  refine Keeps.bind (Keeps.read _ _) (fun target => ?_)
  refine Keeps.bind (Keeps.invariantError _ _) (fun _ => ?_)
  refine Keeps.bind (Keeps.read _ _) (fun mapping => Keeps.bind (Keeps.read _ _) (fun jobCount => ?_))
  split
  · exact Keeps.fail (fun code h => by cases h)
  · refine Keeps.bind (Keeps.read _ _) (fun _ => ?_)
    exact Keeps.bind (Keeps.invariantError _ _) (fun _ => Keeps.invariantError _ _)

theorem resume_triple (run : OptimizationRun) :
    Orchestrates P i r run.status (resume Q i r run) := by
  unfold resume
  cases run.status with
  | created =>
    refine .after (validateCreated_keeps run) (fun _ => ?_)
    exact .after (Keeps.ensureLeaseOwned i) (fun _ => advance_triple none)
  | snapshotting => exact runSnapshotting_triple Q run
  | diagnosing => exact runDiagnosing_triple Q
  | generatingCandidates => exact runGeneratingCandidates_triple Q
  | ranking => exact runRanking_triple Q
  | calibrating => exact runCalibrating_triple Q run
  | evaluating => exact runEvaluating_triple Q
  | admission => exact runAdmission_triple Q
  | admitted => exact runAdmitted_triple Q run
  | approvalPending => exact block_triple _
  | approved => exact runDeploying_triple Q (.single (by simp [Edge, nextStates]))
  | deploying => exact runDeploying_triple Q .refl
  | deployed => exact .after (Keeps.ensureLeaseOwned i) (fun _ => advance_triple none)
  | monitoring => exact runMonitoring_triple Q
  | completed | rolledBack | rollbackBlocked | failed =>
    exact .ret from_stable (fun _ _ h => ⟨h, (fun h => by cases h), fun _ => rfl⟩)

/-- An orchestration that reports progress leaves the run strictly later in the graph. -/
theorem orchestrate_triple : Orchestrates P i r status (orchestrate Q i r) := by
  refine .after (Keeps.ensureLeaseOwned i) (fun _ => .bind (readRun_triple _) (fun row => ?_))
  cases row with
  | none => exact .fail (.opt found_stable) (fun _ _ _ code h => by cases h)
  | some run =>
    intro s hs h
    obtain ⟨hlater, hfrom⟩ := h run rfl
    refine (resume_triple Q run).post (fun result t _ hreported => ?_) s hs hfrom
    exact ⟨hreported.standing, fun h => Relation.TransGen.trans_right hlater (hreported.progressed h),
      hreported.terminal⟩

/-- The run has come to an end, or it waits, or has waited, for its approval. -/
def Ended (r : RunId) (s : World τ) : Prop :=
  ∃ run, s.runs r = some run ∧ (terminal run.status = true ∨ NotBefore .approvalPending run.status)

theorem ended_stable : (forward P).Stable i (Ended r) := by
  rintro s t hst - ⟨run, hr, hended⟩
  obtain ⟨run', hr', hlater⟩ := hst r run hr
  refine ⟨run', hr', hended.imp (fun hterminal => ?_) (fun h => h.trans hlater)⟩
  rw [eq_of_terminal hterminal hlater]
  exact hterminal

/-- With more steps left than the graph is long the loop never runs out of them. -/
theorem steps_triple {n : Nat} (hn : 14 < stage status + n) :
    (forward P).Triple i (From r status) (steps Q i r n) (fun _ => Ended r)
      (fun e _ => e ≠ stepLimitExceeded) := by
  induction n generalizing status with
  | zero => exact absurd hn (Nat.not_lt.mpr (stage_le status))
  | succ n ih =>
    refine .bind (.rescue (orchestrate_triple Q) (fun e => ?_)) (fun result => ?_)
    · unfold invariantFailure
      split
      · exact .fail (.const _) (fun _ _ _ h => by simp [stepLimitExceeded] at h)
      · exact .fail (.const _) (fun _ _ h => h _)
    · split
      · next hterminal =>
        refine .ret (reported_stable result) (fun s _ h => ?_)
        obtain ⟨run, hr, hlater⟩ := h.standing
        refine ⟨run, hr, .inl ?_⟩
        rw [eq_of_terminal (h.terminal hterminal) hlater]
        exact h.terminal hterminal
      · split
        · next hpending =>
          refine .ret (reported_stable result) (fun s _ h => ?_)
          obtain ⟨run, hr, hlater⟩ := h.standing
          exact ⟨run, hr, .inr (hpending ▸ hlater)⟩
        · exact .fail (reported_stable result) (fun _ _ _ h => by cases h)
      · next hprogressed =>
        intro s hs h
        have hlater := stage_lt_of_later (h.progressed hprogressed)
        refine (Discipline.Triple.bind ((Keeps.triple (Keeps.ensureLeaseOwned i)
          from_stable).conseq (fun _ _ h => h) (fun _ _ _ h => h) (fun e _ _ he => he _))
          (fun _ => ih (by omega))) s hs h.standing

theorem handle_triple (job : ClaimedJob) :
    (forward P).Triple i (fun _ => True) (handle P i job)
      (fun _ s => ∀ r, job.optimizationRunId = some r → Ended r s)
      (fun e _ => e ≠ stepLimitExceeded) := by
  unfold handle
  split
  · exact .fail (.const _) (fun _ _ _ h => by simp [stepLimitExceeded] at h)
  · next r hr =>
    refine .bind (.raiseIf (.const _) (fun _ _ _ h => by simp [stepLimitExceeded] at h)) (fun _ => ?_)
    refine .bind (Q := fun row s => ∀ run, row = some run → From r run.status s)
      (.read ((Discipline.Stable.const _).and (.const _)) (crashable _)
        (fun _ => .opt (fun _ => from_stable)) (fun s _ _ _ run hrun => ⟨run, hrun, .refl⟩))
      (fun row => ?_)
    have hend : ∀ s : World τ, Ended r s → ∀ q, job.optimizationRunId = some q → Ended q s := by
      intro s hended q hq
      cases hr.symm.trans hq
      exact hended
    refine Discipline.Triple.post ?_ (fun _ s _ h => hend s h)
    cases row with
    | none =>
      exact .fail (.opt (fun _ => from_stable)) (fun _ _ _ h => by simp [stepLimitExceeded] at h)
    | some run =>
      refine .pre (K := From r run.status) ?_ (fun _ _ h => h run rfl)
      change (forward P).Triple i _ (if terminal run.status then _ else _) _ _
      split
      · next hterminal =>
        refine .ret from_stable (fun s _ h => ?_)
        obtain ⟨found, hfound, hlater⟩ := h
        exact ⟨found, hfound, .inl (eq_of_terminal hterminal hlater ▸ hterminal)⟩
      · refine .bind ((Keeps.triple (Keeps.ensureLeaseOwned i) from_stable).conseq
          (fun _ _ h => h) (fun _ _ _ h => h) (fun e _ _ he => he _)) (fun _ => ?_)
        split
        · exact .fail from_stable (fun _ _ _ h => by simp [stepLimitExceeded] at h)
        · exact steps_triple _ (by omega)

end

/-- The call goes on to its end, others moving the runs along, without coming to the step limit. -/
abbrev Unlimited (P : Option (Stages τ ρ)) (i : WorkerId) (p : Proc τ PUnit) (s : World τ) : Prop :=
  (forward P).Safe i (fun x _ => ∀ e, x = .error e → e ≠ stepLimitExceeded) p s

theorem Unlimited.settled {p q : Proc τ PUnit} {s : World τ} (h : Unlimited P i p s)
    (hq : p.settle = some q) : Unlimited P i q s := by
  cases p <;> cases hq
  exact h

/-- A move of one session, which the others can rely on. -/
theorem Unlimited.moved {c : Config Label (World τ) Error WorkerId} {t : World τ}
    {o : Option (Proc τ PUnit)} (h : ∀ j p, c.pool j = some p → Unlimited P j p c.shared)
    (hforward : Forward c.shared t) (ho : ∀ p, o = some p → Unlimited P i p t) :
    ∀ j p, Function.update c.pool i o j = some p → Unlimited P j p t := by
  intro j p hp
  by_cases hj : j = i
  · subst hj
    exact ho p (by simpa using hp)
  · exact (h j p (by simpa [hj] using hp)).later hforward

theorem reach_unlimited {s : World τ} {c : Config Label (World τ) Error WorkerId}
    (hr : (handlers P).Reach (moving P).Allows (.quiet s) c) :
    ∀ j p, c.pool j = some p → Unlimited P j p c.shared := by
  refine hr.invariant (I := fun c => ∀ j p, c.pool j = some p → Unlimited P j p c.shared)
    (fun _ _ hp => by cases hp) (fun c e c' h hP hn => ?_)
  obtain ⟨j, job, rfl, -, rfl⟩ | ⟨j, l, u, k, rfl, hpool, rfl⟩ | ⟨j, rfl, rfl⟩ | ⟨f, rfl, rfl⟩ :=
    System.next_cases hn
  · have hcall : Unlimited P j (handle P j job) c.shared :=
      (handle_triple job c.shared trivial trivial).mono (fun x t _ hx e he => by
        subst he
        exact hx)
    exact Unlimited.moved h (.refl _) (fun p hp => hcall.settled hp)
  · have hact := (h j _ hpool c.shared (.refl _) trivial).2 trivial
    exact Unlimited.moved h hact.1.grows (fun p hp => Unlimited.settled hact.2 hp)
  · exact Unlimited.moved h (.of_eq rfl) (fun p hp => by cases hp)
  · exact fun j p hp => (h j p hp).later hP

/-- Orchestration progresses: a call that says so leaves the run strictly later in the graph than it
was before; a job that is handled to its end leaves its run at an end, or at its approval; and in no run
of any number of workers does a call come to the step limit. -/
theorem orchestration_progresses (P : Option (Stages τ ρ)) :
    (∀ (Q : Stages τ ρ) i r status, (forward P).Triple i (From r status) (orchestrate Q i r)
      (fun result s => result.outcome = .progressed → Past r status s) (fun _ _ => True)) ∧
    (∀ i job, (forward P).Triple i (fun _ => True) (handle P i job)
      (fun _ s => ∀ r, job.optimizationRunId = some r → Ended r s)
      (fun e _ => e ≠ stepLimitExceeded)) ∧
    ∀ s c, (handlers P).Reach (moving P).Allows (.quiet s) c → ∀ i l u k,
      c.pool i = some (.act l u k) → k c.shared ≠ .fail stepLimitExceeded := by
  refine ⟨fun Q i r status => ?_, fun i job => handle_triple job, fun s c hr i l u k hpool hfail => ?_⟩
  · exact (orchestrate_triple Q).conseq (fun _ _ h => h)
      (fun result s _ h hprogressed => h.standing.past (h.progressed hprogressed))
      (fun _ _ _ _ => trivial)
  · have hact := (reach_unlimited hr i _ hpool c.shared (.refl _) trivial).2 trivial
    have hsafe := hact.2
    rw [hfail] at hsafe
    exact hsafe _ (.refl _) trivial _ rfl rfl

end

/-- A decision on an approval moves a run along the graph, if it moves one at all. -/
theorem approval_forward (ttl : Instant) (s : Records τ) (k : Approvals.Durable.Call) :
    Forward s.world (step ttl s (.approval k)).world := by
  have hmoved : ∀ (t : World τ) r run next reason, s.world.runs r = some run →
      NotBefore run.status next → t.runs = Function.update s.world.runs r
        (some { run with status := next, completionReason := reason }) → Forward s.world t := by
    intro t r run next reason hrun hlater ht q row hrow
    by_cases hq : q = r
    · subst hq
      cases hrun.symm.trans hrow
      exact ⟨_, by rw [ht, Function.update_self], hlater⟩
    · exact ⟨row, by rw [ht, Function.update_of_ne hq, hrow], .refl⟩
  obtain hruns | ⟨hrun, hwaiting, hruns⟩ | ⟨hrun, hwaiting, hruns, -, -, -⟩ :
      Approvals.Durable.Settles s.tables (step ttl s (.approval k)).tables :=
    Approvals.Durable.settles_call ttl k
  · exact .of_eq hruns
  · exact hmoved _ _ _ .approved _ hrun (.single (by simp [Edge, nextStates, hwaiting])) hruns
  · exact hmoved _ _ _ .completed _ hrun (.single (by simp [Edge, nextStates, hwaiting])) hruns

end NoSQLOptimizer.Worker
