import NoSQLOptimizer.ControlPlane.Prepared
import NoSQLOptimizer.Production.Footprints

namespace NoSQLOptimizer.Production

open Adapters Actions ControlPlane Concurrency

variable {τ : Type}

/-- The statuses that `_deploy_locked` goes on in. -/
def deployable : List RunStatus := [.approved, .deploying, .deployed]

/-- What a deployment works on is as it was. -/
structure Traceless (s t : World τ) : Prop where
  artifacts : t.artifacts = s.artifacts
  recovery : t.recovery = s.recovery
  ledger : t.ledger = s.ledger
  runs : t.runs = s.runs
  db : t.db = s.db

namespace BoundAction

variable (bound : BoundAction) (worker : WorkerId) (s : World τ)

def approvalRefusals : List (Bool × String) :=
  [(bound.authority.authorityType = .humanRequired && !currentApproval s bound s.now,
    "CURRENT_APPROVAL_REQUIRED")]

/-- Everything that `_load_bound_action` checks on the row, in order. -/
def refusals : List (Bool × String) :=
  bound.bindingRefusals ++
    bound.evidenceRefusals (s.capabilities bound.targetId) (s.credentials bound.targetId) ++
    bound.approvalRefusals s

/-- Nothing stops the call before `_intent`. -/
def reachesIntent : Bool :=
  !s.leaseLost worker && (firstRefusal (bound.refusals s)).isNone &&
    (s.locks bound.targetId).isNone && bound.action.actionPayload.modelValidate.isOk

end BoundAction

theorem requireApproval_run (bound : BoundAction) (s : World τ) :
    (requireApproval bound).run s = (refuse (bound.approvalRefusals s), s) := by
  unfold requireApproval BoundAction.approvalRefusals
  split
  · next h =>
    simp only [Process.bind_def, Process.run_bind, Process.run_read, guardAll_run, h, decide_true,
      Bool.true_and]
  · next h =>
    simp only [h, decide_false, Bool.false_and]
    rfl

/-- Loading changes nothing, and returns the row if nothing is to be refused. -/
theorem loadBoundAction_run (r : RunId) (s : World τ) :
    (loadBoundAction r).run s = ((match boundAction s r with
      | none => .error (.durableDeployment "AUTHORITY_BINDING_MISSING")
      | some bound => (refuse (bound.refusals s)).map (fun _ => bound)), s) := by
  unfold loadBoundAction
  simp only [Process.bind_def, Process.run_bind, Process.run_read]
  cases boundAction s r with
  | none => rfl
  | some bound =>
    simp only [Process.run_bind, Process.run_read, guardAll_run, requireApproval_run]
    rw [BoundAction.refusals, refuse_append, refuse_append]
    cases refuse bound.bindingRefusals with
    | error e => rfl
    | ok _ =>
      dsimp only [Except.bind]
      cases refuse (bound.evidenceRefusals (s.capabilities bound.targetId)
        (s.credentials bound.targetId)) with
      | error e => rfl
      | ok _ =>
        dsimp only [Except.bind]
        cases refuse (bound.approvalRefusals s) <;> rfl

/-- The action that the row's payload stands for. -/
def BoundAction.typed (bound : BoundAction) : Except Error CreateIndexAction :=
  bound.action.actionPayload.modelValidate.mapError .validation

theorem enterDeploying_run_wrong {bound : BoundAction} (hstatus : bound.run.status ∉ deployable)
    (s : World τ) : (enterDeploying bound).run s =
      (.error (.durableDeployment "RUN_NOT_APPROVED_FOR_DEPLOYMENT"), s) := by
  simp only [deployable, List.mem_cons, List.not_mem_nil, or_false, not_or] at hstatus
  unfold enterDeploying
  rw [if_neg hstatus.1, guardAll_run]
  simp [refuse, firstRefusal, hstatus]

/-- What a call that gets no further than `_intent` leaves. -/
def BoundAction.afterIntent (A : DatabaseAdapter τ) (bound : BoundAction) (s : World τ) : World τ :=
  match bound.typed with
  | .error _ => s
  | .ok action =>
    if s.artifacts bound.runId = none then
      putArtifact bound.runId (bound.newArtifact (stateOf A s.db action) action) s
    else s

theorem afterIntent_cases (A : DatabaseAdapter τ) (bound : BoundAction) (s : World τ) :
    (bound.afterIntent A s = s ∧ (s.artifacts bound.runId ≠ none ∨
        bound.action.actionPayload.modelValidate.isOk = false)) ∨
      ((∃ artifact, bound.afterIntent A s = putArtifact bound.runId artifact s) ∧
        s.artifacts bound.runId = none ∧ bound.action.actionPayload.modelValidate.isOk = true) := by
  unfold BoundAction.afterIntent BoundAction.typed
  cases bound.action.actionPayload.modelValidate with
  | error e => exact .inl ⟨rfl, .inr rfl⟩
  | ok action =>
    cases h : s.artifacts bound.runId with
    | none => exact .inr ⟨⟨_, rfl⟩, rfl, rfl⟩
    | some artifact => exact .inl ⟨rfl, .inl (by simp)⟩

theorem afterIntent_locks (A : DatabaseAdapter τ) (bound : BoundAction) (s : World τ)
    (locks : TargetId → Option WorkerId) :
    bound.afterIntent A { s with locks := locks } = { bound.afterIntent A s with locks := locks } ∧
      (bound.afterIntent A s).locks = s.locks := by
  unfold BoundAction.afterIntent putArtifact
  cases bound.typed with
  | error e => exact ⟨rfl, rfl⟩
  | ok action => cases s.artifacts bound.runId <;> simp

/-- In a wrong status `_deploy_locked` raises, and has inserted its intent if there was none. -/
theorem deployLocked_run_wrong (A : DatabaseAdapter τ) (worker : WorkerId) {bound : BoundAction}
    (hstatus : bound.run.status ∉ deployable) (s : World τ) :
    ∃ e, (deployLocked A worker bound).run s = (.error e, bound.afterIntent A s) := by
  unfold deployLocked BoundAction.afterIntent
  change ∃ e, ((Process.ofExcept bound.typed).bind _).run s = _
  cases bound.typed with
  | error e => exact ⟨e, rfl⟩
  | ok action =>
    simp only [Process.bind_def, Process.ofExcept, Process.ret_bind, Process.run_bind, state_run]
    unfold intent intentRow
    rw [Process.run_atomic]
    cases hartifact : s.artifacts bound.runId with
    | none => simp [enterDeploying_run_wrong hstatus]
    | some artifact =>
      by_cases howns : bound.owns action artifact <;>
        simp [howns, enterDeploying_run_wrong hstatus]

/-- The lock is given back: what the body leaves is what the call leaves. -/
theorem deployBound_run_wrong (A : DatabaseAdapter τ) (worker : WorkerId) {bound : BoundAction}
    (hstatus : bound.run.status ∉ deployable) {s : World τ} (hlease : s.leaseLost worker = false) :
    ∃ e, (deployBound A worker bound).run s = (.error e,
      if (s.locks bound.targetId).isNone then bound.afterIntent A s else s) := by
  unfold deployBound tryAcquire
  simp only [Process.bind_def, Process.act_bind, Process.run_act, Process.ret_bind]
  cases hfree : s.locks bound.targetId with
  | some other => exact ⟨_, rfl⟩
  | none =>
    let taken := { s with locks := Function.update s.locks bound.targetId (some worker) }
    obtain ⟨e, hlocked⟩ := deployLocked_run_wrong A worker hstatus taken
    have hbody : ((ensureLeaseOwned worker).bind (fun _ => deployLocked A worker bound)).run taken =
        (.error e, bound.afterIntent A taken) := by
      rw [Process.run_bind, ensureLeaseOwned_run]
      simp only [taken, hlease]
      exact hlocked
    refine ⟨e, ?_⟩
    obtain ⟨hleft, hlocks⟩ := afterIntent_locks A bound s taken.locks
    change (Process.onExit _ _).run taken = _
    rw [Process.run_onExit, hbody]
    have hgiven : (release .deployment bound.runId worker bound.targetId).run
        (bound.afterIntent A taken) = (.ok ⟨⟩, bound.afterIntent A s) := by
      have hback : Function.update taken.locks bound.targetId none = (bound.afterIntent A s).locks := by
        rw [hlocks, Function.update_idem, ← hfree, Function.update_eq_self]
      rw [show bound.afterIntent A taken = { bound.afterIntent A s with locks := taken.locks } from hleft]
      unfold release Process.modify
      simp [taken, hback]
    rw [hgiven]
    rfl

/-- In a wrong status `deploy_for_run` raises, and all it can have changed is that the run, without
an artifact before, has one now. -/
theorem deployForRun_run_wrong (A : DatabaseAdapter τ) (worker : WorkerId) (r : RunId) (s : World τ)
    (hstatus : ∀ run, s.runs r = some run → run.status ∉ deployable) :
    ∃ e t, (deployForRun A worker r).run s = (.error e, t) ∧
      ((t = s ∧ (s.artifacts r ≠ none ∨
          ∀ bound, boundAction s r = some bound → bound.reachesIntent worker s = false)) ∨
        ((∃ artifact, t = putArtifact r artifact s) ∧ s.artifacts r = none ∧
          ∃ bound, boundAction s r = some bound ∧ bound.reachesIntent worker s = true)) := by
  unfold deployForRun
  simp only [Process.bind_def, Process.run_bind, ensureLeaseOwned_run, loadBoundAction_run]
  unfold BoundAction.reachesIntent
  cases hlease : s.leaseLost worker with
  | true => exact ⟨_, s, rfl, .inl ⟨rfl, .inr (by simp)⟩⟩
  | false =>
    simp only [Bool.false_eq_true, if_false]
    cases hbound : boundAction s r with
    | none => exact ⟨_, s, rfl, .inl ⟨rfl, .inr (by simp)⟩⟩
    | some bound =>
      obtain rfl := boundAction_runId hbound
      simp only [refuse]
      cases hcleared : firstRefusal (bound.refusals s) with
      | some code => exact ⟨_, s, rfl, .inl ⟨rfl, .inr (by simp [hcleared])⟩⟩
      | none =>
        obtain ⟨e, hrun⟩ := deployBound_run_wrong A worker
          (hstatus bound.run (boundAction_run hbound)) hlease
        refine ⟨e, _, hrun, ?_⟩
        cases hfree : s.locks bound.targetId with
        | some other => exact .inl ⟨rfl, .inr (by simp [hfree])⟩
        | none =>
          rcases afterIntent_cases A bound s with ⟨hsame, hwhy⟩ | ⟨hput, hnone, hvalid⟩
          · exact .inl ⟨hsame, hwhy.imp id (fun hinvalid => by simp [hinvalid])⟩
          · exact .inr ⟨hput, hnone, bound, rfl, by simp [hcleared, hfree, hvalid]⟩

/-- In a wrong status a deployment raises and leaves no trace, if and only if the run has an
artifact already or something stops the call before `_intent`. -/
theorem wrong_status_traceless_iff (A : DatabaseAdapter τ) (worker : WorkerId) (r : RunId)
    (s : World τ) (hstatus : ∀ run, s.runs r = some run → run.status ∉ deployable) :
    (∃ e t, (deployForRun A worker r).run s = (.error e, t) ∧ Traceless s t) ↔
      (s.artifacts r ≠ none ∨
        ∀ bound, boundAction s r = some bound → bound.reachesIntent worker s = false) := by
  obtain ⟨e, t, hrun, hleft⟩ := deployForRun_run_wrong A worker r s hstatus
  rcases hleft with ⟨rfl, hstops⟩ | ⟨⟨artifact, rfl⟩, hnone, bound, hbound, hreaches⟩
  · exact ⟨fun _ => hstops, fun _ => ⟨e, t, hrun, rfl, rfl, rfl, rfl, rfl⟩⟩
  · constructor
    · rintro ⟨_, t, hrun', htraceless⟩
      rw [hrun] at hrun'
      cases hrun'
      have hartifacts := congrFun htraceless.artifacts r
      simp [putArtifact, hnone] at hartifacts
    · rintro (hsome | hstops)
      · exact absurd hnone hsome
      · rw [hstops bound hbound] at hreaches
        cases hreaches

/-- Another worker holds the lock: the admitted run stays as it is. -/
theorem wrong_status_traceless_locked :
    ∃ e t, (deployForRun mongodb 0 0).run { ({ status := .admitted } : Preparation).world
        (preparedCollection []) with locks := fun _ => some 1 } = (.error e, t) ∧
      Traceless { ({ status := .admitted } : Preparation).world
        (preparedCollection []) with locks := fun _ => some 1 } t := by
  refine (wrong_status_traceless_iff mongodb 0 0 _ ?_).mpr (.inr ?_)
  · rintro run ⟨⟩
    decide
  · rintro bound ⟨⟩
    decide

/-- An admitted run that nobody has moved to APPROVED yet gets its artifact all the same. -/
theorem not_wrong_status_traceless :
    ¬ ∀ s : World MongoDatabase, (∀ run, s.runs 0 = some run → run.status ∉ deployable) →
      ∃ e t, (deployForRun mongodb 0 0).run s = (.error e, t) ∧ Traceless s t := by
  intro h
  obtain ⟨e, t, hrun, htraceless⟩ := h (({ status := .admitted } : Preparation).world
    (preparedCollection [])) (by rintro run ⟨⟩; decide)
  have hleft : (((deployForRun mongodb 0 0).run (({ status := .admitted } : Preparation).world
    (preparedCollection []))).2.artifacts 0).isSome = true := by decide +kernel
  rw [hrun, htraceless.artifacts] at hleft
  cases hleft

end NoSQLOptimizer.Production
