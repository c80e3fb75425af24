import NoSQLOptimizer.ControlPlane.Prepared
import NoSQLOptimizer.Rollback.Account

namespace NoSQLOptimizer.Rollback

open Adapters Actions ControlPlane Concurrency Production

variable {τ : Type}

/-- Nothing stands against the drop: the artifact's index is there. -/
theorem safeReason_listed {bound : BoundRollback} {state : IndexState} {action : CreateIndexAction}
    (h : safeReason bound state action = none) :
    state.namespaceExists = true ∧ action.toIndexSpec ∈ state.indexes := by
  have hno := firstRefusal_eq_none.mp h
  simp only [List.mem_cons, List.not_mem_nil, or_false, forall_eq_or_imp, forall_eq,
    Bool.not_eq_false', decide_eq_false_iff_not, not_not] at hno
  refine ⟨hno.2.2.1, ?_⟩
  obtain ⟨x, hx, hkeys⟩ := List.map_eq_singleton_iff.mp hno.2.2.2.1
  have hmem : x ∈ state.indexes.filter (·.name = action.indexName) := by
    rw [hx]
    exact List.mem_singleton_self x
  obtain ⟨hlisted, hname⟩ := List.mem_filter.mp hmem
  obtain ⟨name, keys⟩ := x
  obtain rfl : name = action.indexName := of_decide_eq_true hname
  obtain rfl := hkeys
  exact hlisted

/-- A deployed index with the row that `_bound` finds of it, the target with it and without it, and
the drops that the run has called so far. -/
structure Reversal (A : DatabaseAdapter τ) where
  bound : BoundRollback
  action : CreateIndexAction
  db : τ
  reverted : τ
  past : List AdapterCall
  valid : bound.action.actionPayload.modelValidate = .ok action
  safe : safeReason bound (stateOf A db action) action = none
  drop : A.dropIndex db action.toNamespace action.indexName = some reverted
  expected : stateOf A reverted action = withoutOwnedIndex (stateOf A db action) action.indexName

/-- How far the rollback has come. -/
inductive Phase
  | fresh
  | intended
  | dropped
  | entered
  | settled
  deriving DecidableEq

namespace Phase

def effected : Phase → Bool
  | .fresh | .intended => false
  | .dropped | .entered | .settled => true

def ledgered : Phase → Bool
  | .fresh | .intended | .dropped => false
  | .entered | .settled => true

end Phase

namespace Reversal

variable {A : DatabaseAdapter τ} (v : Reversal A)

abbrev runId : RunId := v.bound.runId

abbrev candidateId : CandidateId := v.bound.candidateId

def before : IndexState := stateOf A v.db v.action

def after : IndexState := withoutOwnedIndex v.before v.action.indexName

def record : Phase → Option RollbackRecord
  | .fresh => none
  | .intended | .dropped | .entered => some ⟨.intentRecorded, .intent v.before v.after⟩
  | .settled => some ⟨.rolledBack, .applied v.before v.after⟩

def target (n : Phase) : τ := if n.effected then v.reverted else v.db

def seen (n : Phase) : IndexState := if n.effected then v.after else v.before

/-- The one drop. -/
def call : AdapterCall := .drop v.runId v.action.toNamespace v.action.indexName .effected

/-- The state of a rollback that has come to this phase. -/
structure At (n : Phase) (s : World τ) : Prop where
  bound : boundRollback s v.runId = some v.bound
  db : s.db = v.target n
  record : s.rollbacks v.candidateId = v.record n
  drops : drops v.runId s = v.past ++ if n.effected then [v.call] else []
  entries : (entries v.runId v.candidateId s).length = if n.ledgered then 1 else 0

theorem after_ne : v.after ≠ v.before := by
  intro h
  have hmem := (safeReason_listed v.safe).2
  change v.action.toIndexSpec ∈ v.before.indexes at hmem
  rw [← h, after, withoutOwnedIndex, withoutName, List.mem_filter] at hmem
  exact absurd hmem.2 (by simp [CreateIndexAction.toIndexSpec])

theorem afterState : v.bound.artifact.afterState = some v.before := (safeReason_none v.safe).1

/-- Once the index is gone, something stands against a drop. -/
theorem refused_after : ∃ reason, safeReason v.bound v.after v.action = some reason := by
  refine Option.ne_none_iff_exists'.mp (fun h => ?_)
  have hafter := (safeReason_none h).1
  rw [v.afterState] at hafter
  exact v.after_ne (Option.some_inj.mp hafter).symm

variable {v} {s : World τ} {n : Phase}

variable (v) in
theorem stateOf_target (n : Phase) : stateOf A (v.target n) v.action = v.seen n := by
  rw [target, seen]
  cases n.effected
  · rfl
  · exact v.expected

theorem At.locks (h : v.At n s) (l : TargetId → Option WorkerId) : v.At n { s with locks := l } :=
  ⟨h.bound, h.db, h.record, h.drops, h.entries⟩

theorem At.putRollback {m : Phase} (h : v.At n s) (heffected : m.effected = n.effected)
    (hledgered : m.ledgered = n.ledgered) {row : RollbackRecord} (hrow : v.record m = some row) :
    v.At m (putRollback v.candidateId row s) := by
  refine ⟨h.bound, ?_, ?_, by rw [heffected]; exact h.drops, by rw [hledgered]; exact h.entries⟩
  · rw [target, heffected]
    exact h.db
  · simp [Rollback.putRollback, hrow]

/-- `_record` of the intent, the first time or again. -/
theorem At.intend (h : v.At n s) (hn : n.effected = false) :
    ∃ t, recordRow v.candidateId .intentRecorded (.intent v.before v.after) s = .ok (⟨⟩, t) ∧
      v.At .intended t := by
  cases n with
  | fresh =>
    refine ⟨Rollback.putRollback v.candidateId ⟨.intentRecorded, .intent v.before v.after⟩ s, ?_,
      h.putRollback (m := .intended) rfl rfl rfl⟩
    simp [recordRow, h.record, Reversal.record]
  | intended => exact ⟨s, by simp [recordRow, h.record, Reversal.record], h⟩
  | dropped => cases hn
  | entered => cases hn
  | settled => cases hn

theorem At.dropIndex (h : v.At .intended s) :
    A.dropIndex s.db v.action.toNamespace v.action.indexName = some v.reverted ∧
      v.At .dropped (s.drop A v.runId v.action.toNamespace v.action.indexName) := by
  have hdb : s.db = v.db := h.db
  have hdrop : A.dropIndex s.db v.action.toNamespace v.action.indexName = some v.reverted := by
    rw [hdb]
    exact v.drop
  refine ⟨hdrop, ?_⟩
  have hstate : s.drop A v.runId v.action.toNamespace v.action.indexName =
      { s with db := v.reverted, calls := s.calls ++ [v.call] } := by
    rw [World.drop, hdrop]
    rfl
  rw [hstate]
  refine ⟨h.bound, rfl, h.record, ?_, h.entries⟩
  have hpast := h.drops
  simp only [Phase.effected, Bool.false_eq_true, if_false, List.append_nil] at hpast
  rw [Rollback.drops, World.callsOf_snoc (s := s) rfl, List.filter_append]
  change Rollback.drops v.runId s ++ _ = _
  rw [hpast, call, AdapterCall.run_drop, if_pos rfl]
  rfl

theorem At.enter (h : v.At .dropped s) (action : CreateIndexAction) :
    v.At .entered (s.enter (v.bound.ledgerPayload v.before v.after action)) := by
  refine ⟨h.bound, h.db, h.record, h.drops, ?_⟩
  obtain ⟨e, -, he⟩ := entries_enter v.runId v.candidateId
    (v.bound.ledgerPayload v.before v.after action) s
  rw [he, if_pos ⟨rfl, rfl, rfl⟩, List.length_append, h.entries]
  rfl

theorem At.settle (h : v.At .entered s) :
    ∃ t, recordRow v.candidateId .rolledBack (.applied v.before v.after) s = .ok (⟨⟩, t) ∧
      v.At .settled t := by
  refine ⟨Rollback.putRollback v.candidateId ⟨.rolledBack, .applied v.before v.after⟩ s, ?_,
    h.putRollback (m := .settled) rfl rfl rfl⟩
  simp [recordRow, h.record, Reversal.record]

/-- After the outcome no other is recorded. -/
theorem At.refuses (h : v.At .settled s) (p : RollbackPayload) :
    recordRow v.candidateId .rollbackBlocked p s =
      .error (.value "rollback outcome already recorded") := by
  simp [recordRow, h.record, Reversal.record]

theorem At.exists_entry (h : v.At n s) : s.ledger.any (fun e => e.runId = v.runId &&
    e.candidateId = v.candidateId && e.eventType = .rollbackApplied) = n.ledgered := by
  have hlength := h.entries
  cases hn : n.ledgered with
  | false =>
    rw [hn] at hlength
    exact entries_eq_nil.mp (List.length_eq_zero_iff.mp hlength)
  | true =>
    rw [hn] at hlength
    by_contra hno
    rw [entries_eq_nil.mpr (Bool.eq_false_iff.mpr hno)] at hlength
    cases hlength

/-- The recorded intent that a call finds, with the effect already there or not. -/
theorem effectedIntent_seen (n : Phase) :
    effectedIntent (v.record n) (v.seen n) =
      if n = .dropped ∨ n = .entered then some v.before else none := by
  cases n with
  | fresh => rfl
  | intended => simp [effectedIntent, record, seen, Phase.effected, v.after_ne.symm]
  | dropped => simp [effectedIntent, record, seen, Phase.effected]
  | entered => simp [effectedIntent, record, seen, Phase.effected]
  | settled => rfl

end Reversal

/-- Rollbacks of the run are called, and crash, at any action; outside of them nothing touches the
target, the locks, the row that they look up and their own tables. -/
def rolling (A : DatabaseAdapter τ) (r : RunId) : (services A).Conduct where
  starts k := k = .rollbackForRun r
  env s t := External s t ∧ t.db = s.db ∧ t.locks = s.locks ∧
    boundRollback t r = boundRollback s r

namespace Reversal

variable {A : DatabaseAdapter τ} (v : Reversal A)

def mutex : Mutex (rolling A v.runId) TargetId where
  owner := World.locks
  lock := v.bound.targetId
  always s := ∃ n, v.At n s
  good _ := True
  grows _ _ := True
  view s t := ∀ n, v.At n s → v.At n t
  grows_refl _ := trivial
  grows_trans _ _ := trivial
  view_refl _ _ h := h
  view_trans h h' n hs := h' n (h n hs)
  view_good _ _ := trivial

theorem guards : Guards v.mutex where
  owner := rfl
  always _ l h := h.imp (fun _ hn => hn.locks l)
  grows _ _ := trivial
  view _ l _ h := h.locks l
  crash := rfl
  crashes _ _ _ _ _ _ := trivial

/-- The worker holds the target's lock, and the rollback has come to this phase. -/
def Rolls (i : WorkerId) (n : Phase) (s : World τ) : Prop :=
  v.mutex.Holds i (some v.bound.targetId) s ∧ v.At n s

variable {v} {s t : World τ} {n m : Phase} {i : WorkerId} {E : Error → World τ → Prop}

theorem rolls_stable : v.mutex.discipline.Stable i (v.Rolls i n) :=
  Mutex.stable_of_view (fun _ _ _ hview h => hview n h)

/-- From one phase to the next. -/
theorem Rolls.advance (h : v.Rolls i n s) (ht : v.At m t) (hlocks : t.locks = s.locks) :
    v.mutex.discipline.Admits i s t ∧ v.Rolls i m t :=
  ⟨Mutex.owned h.1.owns hlocks trivial ⟨m, ht⟩, h.1.congr hlocks, ht⟩

theorem state_spec (why : Reading) : v.mutex.discipline.Triple i (v.Rolls i n)
    (state A v.runId why v.action) (fun a s => v.Rolls i n s ∧ a = v.seen n) E := by
  have hread : ∀ {α : Type} (l : Label) (f : τ → α), v.mutex.discipline.Triple i (v.Rolls i n)
      (Process.read l (fun s => f s.db)) (fun a s => v.Rolls i n s ∧ a = f (v.target n)) E :=
    fun l f => .read rolls_stable (v.guards.crashable _) (fun _ => rolls_stable.and (.const _))
      (fun s _ hk _ => ⟨hk, congrArg f hk.2.db⟩)
  unfold state
  refine .bind (hread _ _) (fun namespaces => .assuming ?_)
  rintro rfl
  rw [← v.stateOf_target n, stateOf]
  split
  · refine .bind (hread _ (A.listIndexes · v.action.toNamespace)) (fun indexes => .assuming ?_)
    rintro rfl
    exact .ret rolls_stable (fun _ _ hk => ⟨hk, rfl⟩)
  · exact .ret rolls_stable (fun _ _ hk => ⟨hk, rfl⟩)

theorem record_spec {status : RollbackStatus} {payload : RollbackPayload}
    (h : ∀ s, v.At n s → ∃ t, recordRow v.candidateId status payload s = .ok (PUnit.unit.{1}, t) ∧
      v.At m t) :
    v.mutex.discipline.Triple i (v.Rolls i n) (Rollback.record v.candidateId status payload)
      (fun _ => v.Rolls i m) E := by
  refine .conseq (E := fun _ _ => False) (.atomic rolls_stable (v.guards.crashable _)
    (fun _ => rolls_stable) (fun _ => .const _) (fun s x t hs hk _ hT => ?_)
    (fun s e _ hk _ hT => ?_)) (fun _ _ hk => hk) (fun _ _ _ hk => hk) (fun _ _ _ hk => hk.elim)
  · obtain ⟨t', ht', hat⟩ := h s hk.2
    rw [hT] at ht'
    cases ht'
    refine hk.advance hat ?_
    rcases recordRow_ok hT with ⟨-, rfl⟩ | ⟨_, -, -, rfl⟩ <;> rfl
  · obtain ⟨t', ht', -⟩ := h s hk.2
    rw [hT] at ht'
    cases ht'

theorem finalizeRecord_spec (hn : n = .dropped ∨ n = .entered) :
    v.mutex.discipline.Triple i (v.Rolls i n)
      (finalizeRecord v.bound v.before v.after v.action) (fun _ => v.Rolls i .settled) E := by
  unfold finalizeRecord
  refine .bind (Q := fun recorded s => v.Rolls i n s ∧ recorded = n.ledgered)
    (.read rolls_stable (v.guards.crashable _) (fun _ => rolls_stable.and (.const _))
      (fun s _ hk _ => ⟨hk, hk.2.exists_entry⟩)) (fun recorded => .assuming ?_)
  rintro rfl
  refine .bind (Q := fun _ => v.Rolls i .entered) ?_ (fun _ => record_spec (fun s h => h.settle))
  rcases hn with rfl | rfl
  · exact .modify rolls_stable (v.guards.crashable _) rolls_stable
      (fun s _ hk _ => hk.advance (hk.2.enter v.action) rfl)
  · exact .ret rolls_stable (fun _ _ hk => hk)

theorem dropIndex_spec : v.mutex.discipline.Triple i (v.Rolls i .intended)
    (dropIndex A v.runId v.action.toNamespace v.action.indexName)
    (fun _ => v.Rolls i .dropped) E := by
  refine .act rolls_stable (v.guards.crashable _) (fun s hs hk _ => ?_)
  obtain ⟨hdrop, hat⟩ := hk.2.dropIndex
  obtain ⟨hadm, hrolls⟩ := hk.advance hat (by rw [World.drop_frame])
  refine ⟨hadm, ?_⟩
  rw [hdrop, Option.isSome_some, if_pos rfl]
  refine .pre (.ret rolls_stable (fun _ _ hk => hk)) ?_
  rintro _ - rfl
  exact hrolls

theorem dropOwned_spec (hn : n.effected = false) : v.mutex.discipline.Triple i (v.Rolls i n)
    (dropOwned A v.bound v.before v.action)
    (fun o s => v.Rolls i .settled s ∧ o = .applied) E := by
  unfold dropOwned
  refine .bind (record_spec (fun s h => h.intend hn)) (fun _ => ?_)
  refine .bind dropIndex_spec (fun _ => ?_)
  refine .bind (state_spec .inverse) (fun after => .assuming ?_)
  rintro rfl
  rw [if_neg (not_not.mpr (show v.seen .dropped =
    withoutOwnedIndex v.before v.action.indexName from rfl))]
  refine .bind (finalizeRecord_spec (.inl rfl)) (fun _ => ?_)
  exact .ret rolls_stable (fun _ _ hk => ⟨hk, rfl⟩)

/-- Under the lock: whatever has been done is completed, and after the outcome is recorded nothing
more is. -/
theorem rollbackLocked_spec : v.mutex.discipline.Triple i (v.Rolls i n) (rollbackLocked A v.bound)
    (fun o s => v.Rolls i .settled s ∧ n ≠ .settled ∧ o = .applied)
    (fun _ s => v.Rolls i n s ∧ n = .settled) := by
  unfold rollbackLocked
  rw [v.valid]
  change v.mutex.discipline.Triple i _ (state A v.runId .rollback v.action >>= _) _ _
  refine .bind (state_spec .rollback) (fun state => .assuming ?_)
  rintro rfl
  refine .bind (Q := fun row s => v.Rolls i n s ∧ row = v.record n)
    (.read rolls_stable (v.guards.crashable _) (fun _ => rolls_stable.and (.const _))
      (fun s _ hk _ => ⟨hk, hk.2.record⟩)) (fun row => .assuming ?_)
  rintro rfl
  cases hintent : effectedIntent (v.record n) (v.seen n) with
  | some before =>
    rw [v.effectedIntent_seen n] at hintent
    split at hintent <;> cases hintent
    next hn =>
      have hseen : v.seen n = v.after := by rcases hn with rfl | rfl <;> rfl
      rw [hseen]
      refine .bind (finalizeRecord_spec hn) (fun _ => .ret rolls_stable (fun _ _ hk => ⟨hk, ?_, rfl⟩))
      rcases hn with rfl | rfl <;> nofun
  | none =>
    dsimp only
    cases hn : n.effected with
    | false =>
      have hseen : v.seen n = v.before := by simp [seen, hn]
      rw [hseen, show safeReason v.bound v.before v.action = none from v.safe]
      refine (dropOwned_spec hn).post (fun o s _ hk => ⟨hk.1, ?_, hk.2⟩)
      rintro rfl
      cases hn
    | true =>
      obtain rfl : n = .settled := by
        rw [v.effectedIntent_seen n, ite_eq_right_iff] at hintent
        cases n with
        | fresh => cases hn
        | intended => cases hn
        | dropped => cases hintent (.inl rfl)
        | entered => cases hintent (.inr rfl)
        | settled => rfl
      obtain ⟨reason, hreason⟩ := v.refused_after
      rw [show safeReason v.bound (v.seen .settled) v.action = some reason from hreason]
      refine .bind (Q := fun _ _ => False) (.atomic rolls_stable (v.guards.crashable _)
        (fun _ => .const _) (fun _ => rolls_stable.and (.const _)) (fun s x t _ hk _ hT => ?_)
        (fun s e _ hk _ _ => ⟨hk, rfl⟩)) (fun _ => .ret (.const _) (fun _ _ hk => hk.elim))
      rw [hk.2.refuses] at hT
      cases hT

theorem rollbackForRun_spec : v.mutex.discipline.Triple i (v.mutex.Holds i none)
    (rollbackForRun A i v.runId) (fun _ => v.mutex.Holds i none)
    (fun _ => v.mutex.Holds i none) := by
  refine Locked.rollbackForRun_spec (B := fun bound _ => bound = v.bound) (Q := fun _ _ => True)
    v.guards v.runId (fun s hs _ bound hb => ?_) (fun _ => .const _) (fun _ _ _ hb => hb)
    (fun bound s hs hk => ?_) (fun _ => (Mutex.holds_stable _).and (.const _))
    (fun _ _ _ _ _ _ => trivial)
  · obtain ⟨n, hn⟩ := hs.1
    rw [hn.bound] at hb
    exact (Option.some_inj.mp hb).symm
  · obtain ⟨hheld, rfl, -⟩ := hk
    obtain ⟨n, hn⟩ := hs.1
    exact rollbackLocked_spec.conseq (fun _ _ hk => hk) (fun _ _ _ hk => ⟨hk.1.1, trivial⟩)
      (fun _ _ _ hk => ⟨hk.1.1, trivial⟩) s hs ⟨hheld, hn⟩

theorem governs : v.mutex.discipline.Governs := by
  refine .of_triples (fun i k hk => ?_) (fun s t h hs => ?_)
  · cases hk
    exact .bind rollbackForRun_spec (fun _ => .ret (Mutex.holds_stable _) (fun _ _ hk => hk))
  · obtain ⟨hexternal, hdb, hlocks, hbound⟩ := h
    have hview : ∀ n, v.At n s → v.At n t := by
      intro n hn
      refine ⟨hbound.trans hn.bound, hdb.trans hn.db, ?_, ?_, ?_⟩
      · rw [hexternal.rollbacks]
        exact hn.record
      · rw [← hn.drops, drops, drops, World.callsOf, hexternal.calls]
        rfl
      · rw [← hn.entries, entries, entries, World.entriesOf, hexternal.ledger]
        rfl
    exact Mutex.neutral hs hlocks hview trivial (hs.1.imp hview)

theorem holds (h : v.At n s) (hfree : s.locks = fun _ => none) :
    v.mutex.discipline.Holds (.quiet s : Config Label (World τ) Error WorkerId) := by
  refine .quiet ⟨⟨n, h⟩, fun _ => trivial⟩ (fun i t => ?_)
  simp [mutex, hfree]

/-- A call that nobody disturbs comes to the outcome, from wherever earlier calls have left off. -/
theorem completes (h : v.At n s) (hidle : v.mutex.Holds i none s)
    (hfree : s.locks v.bound.targetId = none) :
    ∃ t, (rollbackForRun A i v.runId).run s = (.ok .applied, t) ∧ v.At .settled t := by
  by_cases hn : n = .settled
  · subst hn
    refine ⟨s, ?_, h⟩
    simp only [rollbackForRun, Process.bind_def, Process.run_bind, Process.run_read, h.bound, h.record]
    rfl
  · have hnone : recordedOutcome (v.record n) = none := by
      cases n <;> first | rfl | exact absurd rfl hn
    have hrun : (rollbackForRun A i v.runId).run s =
        ((rollbackLocked A v.bound).onExit (release .rollback v.runId i v.bound.targetId)).run
          { s with locks := Function.update s.locks v.bound.targetId (some i) } := by
      simp [rollbackForRun, Process.run_bind, h.bound, h.record, hnone, tryAcquire, hfree]
    rw [hrun]
    set s' := { s with locks := Function.update s.locks v.bound.targetId (some i) }
    have hheld : v.mutex.Holds i (some v.bound.targetId) s' :=
      hidle.acquire (fun r => Function.update_apply _ _ _ _)
    cases hlocked : (rollbackLocked A v.bound).run s' with
    | mk x t =>
      obtain ⟨-, hok, herror⟩ := rollbackLocked_spec.run (fun _ _ => trivial)
        ⟨⟨n, h.locks _⟩, fun _ => trivial⟩ ⟨hheld, h.locks _⟩ hlocked
      cases x with
      | error e => exact absurd (herror e rfl).2 hn
      | ok o =>
        obtain ⟨hrolls, -, rfl⟩ := hok o rfl
        rw [Process.run_onExit, hlocked]
        refine ⟨_, rfl, ?_⟩
        dsimp only
        split
        · exact hrolls.2.locks _
        · exact hrolls.2

end Reversal

/-- The run's deployed index, as `_rollback_locked` would find it with nothing recorded yet. -/
structure Rollable (A : DatabaseAdapter τ) (r : RunId) (bound : BoundRollback)
    (action : CreateIndexAction) (s : World τ) : Prop where
  found : boundRollback s r = some bound
  valid : bound.action.actionPayload.modelValidate = .ok action
  safe : safeReason bound (stateOf A s.db action) action = none
  record : s.rollbacks bound.candidateId = none
  entries : entries r bound.candidateId s = []

/-- Looks for what is to be rolled back. -/
def findRollable (A : DatabaseAdapter τ) (r : RunId) (s : World τ) :
    Option (BoundRollback × CreateIndexAction) := do
  let bound ← boundRollback s r
  match bound.action.actionPayload.modelValidate with
  | .error _ => none
  | .ok action =>
    if (safeReason bound (stateOf A s.db action) action).isNone &&
        (s.rollbacks bound.candidateId).isNone && (entries r bound.candidateId s).isEmpty then
      some (bound, action)
    else none

theorem rollable_of_find {A : DatabaseAdapter τ} {r : RunId} {bound : BoundRollback}
    {action : CreateIndexAction} {s : World τ} (h : findRollable A r s = some (bound, action)) :
    Rollable A r bound action s := by
  obtain ⟨b, hfound, h⟩ := Option.bind_eq_some_iff.mp h
  split at h
  · cases h
  · next hvalid =>
    split at h <;> cases h
    next hif =>
      simp only [Bool.and_eq_true, Option.isNone_iff_eq_none, List.isEmpty_iff] at hif
      exact ⟨hfound, hvalid, hif.1.1, hif.1.2, hif.2⟩

/-- From `s`, the run is rolled back: the record and the ledger say so, and of all that was asked of
the target one more drop is new. -/
structure RolledBack (A : DatabaseAdapter τ) (r : RunId) (bound : BoundRollback)
    (action : CreateIndexAction) (s t : World τ) : Prop where
  target : stateOf A t.db action = withoutOwnedIndex (stateOf A s.db action) action.indexName
  record : t.rollbacks bound.candidateId =
    some ⟨.rolledBack, .applied (stateOf A s.db action) (stateOf A t.db action)⟩
  drops : drops r t = drops r s ++ [.drop r action.toNamespace action.indexName .effected]
  entries : (entries r bound.candidateId t).length = 1

section

variable {A : DatabaseAdapter τ} {r : RunId} {bound : BoundRollback} {action : CreateIndexAction}
  {s s₀ : World τ} {d : Config Label (World τ) Error WorkerId}

theorem Rollable.reversal (hA : A.Lawful) (h : Rollable A r bound action s) :
    ∃ v : Reversal A, v.bound = bound ∧ v.action = action ∧ v.db = s.db ∧ v.past = drops r s ∧
      v.At .fresh s := by
  obtain ⟨hns, hmem⟩ := safeReason_listed h.safe
  have hlisted : action.toNamespace ∈ A.listNamespaces s.db := by
    by_contra hno
    rw [stateOf, if_neg hno] at hns
    cases hns
  rw [stateOf, if_pos hlisted] at hmem
  obtain ⟨reverted, hdrop⟩ := Option.isSome_iff_exists.mp (hA.drop_listed hlisted hmem)
  have hexpected : stateOf A reverted action =
      withoutOwnedIndex (stateOf A s.db action) action.indexName := by
    rw [stateOf, stateOf, if_pos hlisted, if_pos ((hA.drop_namespaces hdrop).mpr hlisted)]
    exact congrArg _ (hA.drop_indexes hdrop)
  have hr := boundRollback_runId h.found
  refine ⟨⟨bound, action, s.db, reverted, drops r s, h.valid, h.safe, hdrop, hexpected⟩, rfl, rfl, rfl,
    rfl, ?_⟩
  subst hr
  exact ⟨h.found, rfl, h.record, (List.append_nil _).symm, by simp [h.entries, Phase.ledgered]⟩

/-- Whatever calls to roll the run back are made, fail and are made again: one drop at most, one
ledger entry at most; and from every state that they may leave, a call that nobody disturbs
completes the rollback. -/
theorem rollback_converges (hA : A.Lawful) (h₀ : Rollable A r bound action s₀)
    (hfree : s₀.locks = fun _ => none)
    (hr : (services A).Reach (rolling A r).Allows (.quiet s₀) d) :
    (drops r d.shared).length ≤ (drops r s₀).length + 1 ∧
      (entries r bound.candidateId d.shared).length ≤ 1 ∧
      ∀ i, d.pool i = none → d.shared.locks bound.targetId = none →
        ∃ t, (rollbackForRun A i r).run d.shared = (.ok .applied, t) ∧
          RolledBack A r bound action s₀ t := by
  obtain ⟨v, rfl, rfl, hdb, hpast, hat⟩ := h₀.reversal hA
  obtain rfl : v.runId = r := boundRollback_runId h₀.found
  have hholds := (Reversal.holds hat hfree).reach Reversal.governs hr
  obtain ⟨n, hn⟩ := hholds.inv.1
  refine ⟨?_, ?_, fun i hidle hlock => ?_⟩
  · rw [hn.drops, hpast, List.length_append]
    cases n.effected <;> simp
  · rw [hn.entries]
    cases n.ledgered <;> simp
  · obtain ⟨t, hrun, hsettled⟩ := Reversal.completes hn (hholds.idle i hidle) hlock
    have hbefore : stateOf A s₀.db v.action = v.before := by rw [Reversal.before, hdb]
    have hafter : stateOf A t.db v.action = v.after := by
      rw [hsettled.db, v.stateOf_target]
      rfl
    refine ⟨t, hrun, ?_, ?_, ?_, hsettled.entries⟩
    · rw [hafter, hbefore]
      rfl
    · rw [hafter, hbefore]
      exact hsettled.record
    · rw [← hpast]
      exact hsettled.drops

end

/-- The index is deployed; worker 1 dies between the ledger entry and the record of its rollback, and
worker 2 completes it. -/
theorem rollback_converges_prepared : ∃ (s₀ : World MongoDatabase) (bound : BoundRollback)
    (action : CreateIndexAction) (d : Config Label (World MongoDatabase) Error WorkerId),
    (services mongodb).Reach (rolling mongodb 0).Allows (.quiet s₀) d ∧
      (d.shared.rollbacks bound.candidateId).map (·.status) = some .intentRecorded ∧
      ∃ t, (rollbackForRun mongodb 2 0).run d.shared = (.ok .applied, t) ∧
        RolledBack mongodb 0 bound action s₀ t := by
  have hrun : ((services mongodb).exec (stepwise (fun _ _ => true))
      (Event.calls 0 (.deployForRun 0) 28)
      (.quiet (Preparation.world {} (preparedCollection [])))).bind (fun d =>
        (findRollable mongodb 0 d.shared).bind (fun x =>
          ((services mongodb).exec (stepwise (fun _ _ => true))
            (Event.calls 1 (.rollbackForRun 0) 12 ++ [.crash 1])
            (.quiet { d.shared with locks := fun _ => none })).map (fun d' =>
              ((d'.shared.rollbacks x.1.candidateId).map (·.status), (d'.pool 2).isNone,
                (d'.shared.locks x.1.targetId).isNone)))) =
      some (some .intentRecorded, true, true) := by
    decide +kernel
  obtain ⟨d, -, hd⟩ := Option.bind_eq_some_iff.mp hrun
  obtain ⟨⟨bound, action⟩, hfind, hd'⟩ := Option.bind_eq_some_iff.mp hd
  obtain ⟨d', hexec, hend⟩ := Option.map_eq_some_iff.mp hd'
  simp only [Prod.mk.injEq, Option.isNone_iff_eq_none] at hend
  have hr : (services mongodb).Reach (rolling mongodb 0).Allows _ d' :=
    .of_exec (stepwise_allows (fun i k hk => (by simpa [Event.calls] using hk :
        i = 1 ∧ k = .rollbackForRun 0).2) (fun _ _ _ _ => trivial) (fun _ _ _ _ => trivial)
      (by simp [Event.calls])) hexec
  have hrollable : Rollable mongodb 0 bound action { d.shared with locks := fun _ => none } := by
    obtain ⟨hfound, hvalid, hsafe, hrecord, hentries⟩ := rollable_of_find hfind
    exact ⟨hfound, hvalid, hsafe, hrecord, hentries⟩
  exact ⟨_, bound, action, d', hr, hend.1,
    (rollback_converges mongodb_lawful hrollable rfl hr).2.2 2 hend.2.1 hend.2.2⟩

end NoSQLOptimizer.Rollback
