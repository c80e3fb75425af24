import NoSQLOptimizer.ControlPlane.TargetLock
import NoSQLOptimizer.Production.Footprints

namespace NoSQLOptimizer.Production

open Adapters ControlPlane Concurrency Rollback

variable {τ κ η : Type} {S : System Label (World τ) Error WorkerId κ η} {C : S.Conduct}
  {M : Mutex C TargetId} {A : DatabaseAdapter τ} {i : WorkerId}

namespace Locked

theorem reads {α : Type} {p : Proc τ α} {K : World τ → Prop} (h : Guards M) (hp : Does Reads p)
    (hK : M.discipline.Stable i K) : M.discipline.Triple i K p (fun _ => K) (fun _ => K) :=
  .still (hp.mono (fun _ _ _ h => h.2) (fun _ h => h)) hK (h.crashable K) (fun _ _ _ _ h => h)
    (fun _ _ _ _ h => h)

/-- Loading leaves the state alone; what holds of every row it may find holds of the one it
returns. -/
theorem loadBoundAction_spec {B : BoundAction → Prop} (h : Guards M) (r : RunId)
    (hB : ∀ s, M.discipline.inv s → ∀ bound, boundAction s r = some bound → B bound) :
    M.discipline.Triple i (M.Holds i none) (loadBoundAction r)
      (fun bound s => M.Holds i none s ∧ B bound) (fun _ => M.Holds i none) := by
  have hidle : M.discipline.Stable i (M.Holds i none) := Mutex.holds_stable none
  refine .bind (Q := fun found s => M.Holds i none s ∧ ∀ bound, found = some bound → B bound)
    (.read hidle (h.crashable _) (fun _ => hidle.and (.const _)) (fun s hs hk _ => ⟨hk, hB s hs⟩))
    (fun found => ?_)
  cases found with
  | none => exact .fail (hidle.and (.const _)) (fun _ _ hk => hk.1)
  | some bound =>
    refine .pre (K := fun s => M.Holds i none s ∧ B bound) ?_ (fun _ _ hk => ⟨hk.1, hk.2 _ rfl⟩)
    have hK : M.discipline.Stable i (fun s => M.Holds i none s ∧ B bound) := hidle.and (.const _)
    refine .conseq (Q := fun x s => (M.Holds i none s ∧ B bound) ∧ x = bound)
      (.still (O := fun x => ∀ y, x = .ok y → y = bound) ?_ hK (h.crashable _)
        (fun x s _ hx hk => ⟨hk, hx x rfl⟩) (fun _ _ _ _ hk => hk)) (fun _ _ hk => hk) ?_
      (fun _ _ _ hk => hk.1)
    · have hquiet : ∀ {α : Type} {p : Proc τ α}, Does Reads p →
          p.Always (fun _ s t => t = s) (fun _ => True) :=
        fun hp => hp.mono (fun _ _ _ h => h.2) (fun _ h => h)
      refine (hquiet (guardAll_does _)).bind (fun _ _ => ?_) (by simp)
      refine (hquiet (Does.read rfl _)).bind (fun _ _ => ?_) (by simp)
      refine (hquiet (Does.read rfl _)).bind (fun _ _ => ?_) (by simp)
      refine (hquiet (guardAll_does _)).bind (fun _ _ => ?_) (by simp)
      refine (hquiet (requireApproval_reads _)).bind (fun _ _ => ?_) (by simp)
      rintro _ ⟨⟩
      rfl
    · rintro _ s _ ⟨hk, rfl⟩
      exact hk

/-- A whole deployment, given what it does under the lock. -/
theorem deployForRun_spec {B : BoundAction → Prop} {Q : BoundAction → World τ → Prop}
    (h : Guards M) (r : RunId)
    (hB : ∀ s, M.discipline.inv s → ∀ bound, boundAction s r = some bound → B bound)
    (hbody : ∀ bound, B bound → M.discipline.Triple i
      (fun s => M.Holds i (some bound.targetId) s ∧ (bound.targetId = M.lock → M.good s))
      (deployLocked A i bound) (fun _ s => M.Holds i (some bound.targetId) s ∧ Q bound s)
      (fun _ s => M.Holds i (some bound.targetId) s ∧ Q bound s))
    (hstart : ∀ bound, B bound → ∀ s, (bound.targetId = M.lock → M.good s) → Q bound s)
    (hQ : ∀ bound, M.discipline.Stable i
      (fun s => M.Holds i (some bound.targetId) s ∧ Q bound s))
    (hgood : ∀ bound, B bound → ∀ s, M.always s →
      C.acts i (.release .deployment bound.runId bound.targetId) s → bound.targetId = M.lock →
      Q bound s → M.good s) :
    M.discipline.Triple i (M.Holds i none) (deployForRun A i r) (fun _ => M.Holds i none)
      (fun _ => M.Holds i none) := by
  have hidle : M.discipline.Stable i (M.Holds i none) := Mutex.holds_stable none
  unfold deployForRun
  refine .bind (reads h (ensureLeaseOwned_reads i) hidle) (fun _ => ?_)
  refine .bind (loadBoundAction_spec h r hB) (fun bound => ?_)
  refine .assuming (fun hbound => ?_)
  unfold deployBound
  refine (h.locked_spec (K := fun _ => True) (Q := fun _ => Q bound) (E := fun _ => Q bound)
    .deployment bound.runId bound.targetId (.const _) (fun _ _ _ => trivial)
    ?_ (fun _ => hQ bound) (fun _ => hQ bound) (fun s hs hact hl hq => ?_)
    (.fail hidle (fun _ _ hk => hk))).pre (fun _ _ hk => ⟨hk, trivial⟩)
  · refine .pre (K := fun s => M.Holds i (some bound.targetId) s ∧
      (bound.targetId = M.lock → M.good s)) (.bind (Q := fun _ s => M.Holds i (some bound.targetId) s ∧
      (bound.targetId = M.lock → M.good s)) ?_ (fun _ => hbody bound hbound))
      (fun _ _ hk => ⟨hk.1, hk.2.2⟩)
    exact (reads h (ensureLeaseOwned_reads i) (Mutex.holds_good_stable _)).conseq (fun _ _ hk => hk)
      (fun _ _ _ hk => hk) (fun _ s _ hk => ⟨hk.1, hstart bound hbound s hk.2⟩)
  · rcases hq with ⟨_, hq⟩ | ⟨_, hq⟩ <;> exact hgood bound hbound s hs hact hl hq

/-- A deployment of another run: if nobody minds what it does, nobody minds the whole of it. -/
theorem deployForRun_bystander (h : Guards M) (q : RunId)
    (hN : ∀ l s t, M.discipline.inv s → C.acts i l s → Operates A Deploys q l s t →
      M.discipline.Neutral s t) :
    M.discipline.Triple i (M.Holds i none) (deployForRun A i q) (fun _ => M.Holds i none)
      (fun _ => M.Holds i none) := by
  refine deployForRun_spec (B := fun bound => bound.runId = q)
    (Q := fun bound s => bound.targetId = M.lock → M.good s) h q
    (fun _ _ _ hb => boundAction_runId hb) (fun bound hb => ?_) (fun _ _ _ hk => hk)
    (fun _ => Mutex.holds_good_stable _) (fun _ _ _ _ _ hl hq => hq hl)
  subst hb
  exact .neutral (deployLocked_operates A i bound) hN (Mutex.holds_good_stable _) (h.crashable _)
    (fun _ _ _ _ hk => hk) (fun _ _ _ _ hk => hk)

/-- A whole rollback, given what it does under the lock. -/
theorem rollbackForRun_spec {B Q : BoundRollback → World τ → Prop} (h : Guards M) (r : RunId)
    (hB : ∀ s, M.discipline.inv s → C.acts i (.boundRollback r) s →
      ∀ bound, boundRollback s r = some bound → B bound s)
    (hstable : ∀ bound, M.discipline.Stable i (B bound))
    (hlocks : ∀ bound s l, B bound s → B bound { s with locks := l })
    (hbody : ∀ bound, M.discipline.Triple i (fun s => M.Holds i (some bound.targetId) s ∧
        B bound s ∧ (bound.targetId = M.lock → M.good s))
      (rollbackLocked A bound) (fun _ s => M.Holds i (some bound.targetId) s ∧ Q bound s)
      (fun _ s => M.Holds i (some bound.targetId) s ∧ Q bound s))
    (hQ : ∀ bound, M.discipline.Stable i
      (fun s => M.Holds i (some bound.targetId) s ∧ Q bound s))
    (hgood : ∀ bound s, M.always s → C.acts i (.release .rollback r bound.targetId) s →
      bound.targetId = M.lock → Q bound s → M.good s) :
    M.discipline.Triple i (M.Holds i none) (rollbackForRun A i r) (fun _ => M.Holds i none)
      (fun _ => M.Holds i none) := by
  have hidle : M.discipline.Stable i (M.Holds i none) := Mutex.holds_stable none
  have hK : ∀ bound, M.discipline.Stable i (fun s => M.Holds i none s ∧ B bound s) :=
    fun bound => hidle.and (hstable bound)
  unfold rollbackForRun
  refine .bind (Q := fun found s => M.Holds i none s ∧ ∀ bound, found = some bound → B bound s)
    (.read hidle (h.crashable _) (fun _ => hidle.and (.opt hstable))
      (fun s hs hk hact => ⟨hk, hB s hs hact⟩)) (fun found => ?_)
  cases found with
  | none => exact .fail (hidle.and (.opt hstable)) (fun _ _ hk => hk.1)
  | some bound =>
    refine .pre (K := fun s => M.Holds i none s ∧ B bound s) ?_ (fun _ _ hk => ⟨hk.1, hk.2 _ rfl⟩)
    refine .bind (Q := fun _ s => M.Holds i none s ∧ B bound s)
      ((reads h (Does.read rfl _) (hK bound)).conseq (fun _ _ hk => hk) (fun _ _ _ hk => hk)
        (fun _ _ _ hk => hk.1)) (fun recorded => ?_)
    split
    · exact .ret (hK bound) (fun _ _ hk => hk.1)
    · refine h.locked_spec (Q := fun _ => Q bound) (E := fun _ => Q bound) .rollback r bound.targetId
        (hstable bound) (hlocks bound) (hbody bound) (fun _ => hQ bound) (fun _ => hQ bound)
        (fun s hs hact hl hq => ?_) (.ret hidle (fun _ _ hk => hk))
      rcases hq with ⟨_, hq⟩ | ⟨_, hq⟩ <;> exact hgood bound s hs hact hl hq

theorem rollbackForRun_bystander (h : Guards M) (q : RunId)
    (hN : ∀ l s t, M.discipline.inv s → C.acts i l s → Operates A (RollsBack True) q l s t →
      M.discipline.Neutral s t) :
    M.discipline.Triple i (M.Holds i none) (rollbackForRun A i q) (fun _ => M.Holds i none)
      (fun _ => M.Holds i none) := by
  refine rollbackForRun_spec (B := fun bound _ => bound.runId = q)
    (Q := fun bound s => bound.targetId = M.lock → M.good s) h q
    (fun _ _ _ _ hb => boundRollback_runId hb) (fun _ => .const _) (fun _ _ _ hb => hb)
    (fun bound => ?_) (fun _ => Mutex.holds_good_stable _) (fun _ _ _ _ hl hq => hq hl)
  intro s hs hk
  obtain ⟨hheld, rfl, hgood⟩ := hk
  exact Discipline.Triple.neutral (RollsBack.any (rollbackLocked_operates A bound)) hN
    (Mutex.holds_good_stable bound.targetId) (h.crashable _) (fun _ _ _ _ hk => hk)
    (fun _ _ _ _ hk => hk) s hs ⟨hheld, hgood⟩

end Locked

end NoSQLOptimizer.Production
