import NoSQLOptimizer.Concurrency.Mutex
import NoSQLOptimizer.ControlPlane.Footprints

namespace NoSQLOptimizer.ControlPlane

open Concurrency

variable {τ κ η : Type} {S : System Label (World τ) Error WorkerId κ η} {C : S.Conduct}

/-- A mutex over a target's advisory lock, and no other part of it depends on the locks.  Where a
session may die holding the lock, the state is good. -/
structure Guards (M : Mutex C TargetId) : Prop where
  owner : M.owner = World.locks
  always : ∀ s l, M.always s → M.always { s with locks := l }
  grows : ∀ s l, M.grows s { s with locks := l }
  view : ∀ s l, M.view s { s with locks := l }
  crash : S.crash = World.endSession
  crashes : ∀ i l s, M.always s → C.crashes i l s → M.owner s M.lock = some i → M.good s

namespace Guards

variable {M : Mutex C TargetId} {i : WorkerId} {K : World τ → Prop} {E : Error → World τ → Prop}

theorem crashable (h : Guards M) (K : World τ → Prop) : M.discipline.Crashable i K := by
  intro l s hs _ hc
  rw [h.crash]
  refine M.release hs (fun t => ?_) (h.view s _) (h.grows s _) (h.always s _ hs.1)
    (h.crashes i l s hs.1 hc)
  rw [h.owner]
  rfl

theorem tryAcquire_spec (h : Guards M) (service : Service) (t : TargetId)
    (hK : M.discipline.Stable i K) (hl : ∀ s l, K s → K { s with locks := l }) :
    M.discipline.Triple i (fun s => M.Holds i none s ∧ K s) (tryAcquire service i t)
      (fun acquired s => K s ∧ if acquired then M.Holds i (some t) s ∧ (t = M.lock → M.good s)
        else M.Holds i none s) E := by
  have hgood : M.discipline.Stable i
      (fun s => K s ∧ M.Holds i (some t) s ∧ (t = M.lock → M.good s)) := by
    intro s u hr hu hs
    refine ⟨hK hr hu hs.1, Mutex.holds_stable _ hr hu hs.2.1, fun ht => ?_⟩
    subst ht
    exact M.view_good (hr.2.2 hs.2.1.owns) (hs.2.2 rfl)
  have hnone : M.discipline.Stable i (fun s => K s ∧ M.Holds i none s) :=
    hK.and (Mutex.holds_stable none)
  refine .act ((Mutex.holds_stable none).and hK) (h.crashable _) (fun s hs hk _ => ?_)
  cases hlock : s.locks t with
  | some j =>
    simp only [reduceCtorEq, ↓reduceIte, Option.isNone_some]
    refine ⟨.refl hs, ?_⟩
    rintro _ - rfl u hr hu
    exact hnone hr hu ⟨hk.2, hk.1⟩
  | none =>
    simp only [↓reduceIte, Option.isNone_none]
    have ho : ∀ r', M.owner { s with locks := Function.update s.locks t (some i) } r' =
        if r' = t then some i else M.owner s r' := by
      intro r'
      rw [h.owner]
      exact Function.update_apply _ _ _ _
    have hadm := M.acquire (i := i) hs (by rw [h.owner]; exact hlock) ho (h.view s _) (h.grows s _)
      (h.always s _ hs.1)
    refine ⟨hadm, ?_⟩
    rintro _ - rfl u hr hu
    refine hgood hr hu ⟨hl s _ hk.2, hk.1.acquire ho, fun ht => M.view_good (h.view s _) (hs.2 ?_)⟩
    rw [← ht, h.owner]
    exact hlock

/-- Giving the lock back: where it is the mutex's own, the state must be good. -/
theorem release_spec (h : Guards M) (service : Service) (r : RunId) (t : TargetId)
    (hK : M.discipline.Stable i K)
    (hgood : ∀ s, M.always s → K s → C.acts i (.release service r t) s →
      M.owner s M.lock = some i → M.good s) :
    M.discipline.Triple i (fun s => M.Holds i (some t) s ∧ K s) (release service r i t)
      (fun _ => M.Holds i none) E := by
  refine .modify ((Mutex.holds_stable _).and hK) (h.crashable _) (Mutex.holds_stable none)
    (fun s hs hk hl => ?_)
  have hlock : s.locks t = some i := by
    rw [← h.owner]
    exact hk.1.owns
  rw [if_pos hlock]
  refine M.release hs (fun r' => ?_) (h.view s _) (h.grows s _) (h.always s _ hs.1)
    (hgood s hs.1 hk.2 hl)
  have hr' := hk.1 r'
  rw [h.owner] at hr' ⊢
  simp only [Function.update_apply, hr', Option.some.injEq, eq_comm (a := t)]

/-- What a session does under the lock, and with the lock given back whatever comes of it. -/
theorem locked_spec {α : Type} {body other : Proc τ α} {Q : α → World τ → Prop} (h : Guards M)
    (service : Service) (r : RunId) (t : TargetId) (hK : M.discipline.Stable i K)
    (hl : ∀ s l, K s → K { s with locks := l })
    (hbody : M.discipline.Triple i
      (fun s => M.Holds i (some t) s ∧ K s ∧ (t = M.lock → M.good s)) body
      (fun a s => M.Holds i (some t) s ∧ Q a s) (fun e s => M.Holds i (some t) s ∧ E e s))
    (hQ : ∀ a, M.discipline.Stable i (fun s => M.Holds i (some t) s ∧ Q a s))
    (hE : ∀ e, M.discipline.Stable i (fun s => M.Holds i (some t) s ∧ E e s))
    (hgood : ∀ s, M.always s → C.acts i (.release service r t) s → t = M.lock →
      (∃ a, Q a s) ∨ (∃ e, E e s) → M.good s)
    (hother : M.discipline.Triple i (M.Holds i none) other (fun _ => M.Holds i none)
      (fun _ => M.Holds i none)) :
    M.discipline.Triple i (fun s => M.Holds i none s ∧ K s)
      (tryAcquire service i t >>= fun acquired =>
        if acquired then body.onExit (release service r i t) else other)
      (fun _ => M.Holds i none) (fun _ => M.Holds i none) := by
  have hlock : ∀ s, M.Holds i (some t) s → M.owner s M.lock = some i → t = M.lock :=
    fun s hs ho => Option.some_inj.mp ((hs M.lock).mp ho)
  refine .bind (h.tryAcquire_spec service t hK hl) (fun acquired => ?_)
  cases acquired with
  | false => exact hother.pre (fun _ _ hs => hs.2)
  | true =>
    refine .onExit (hbody.pre (fun s _ hs => ?_)) (fun a => ?_) (fun e => ?_)
    · exact ⟨hs.2.1, hs.1, hs.2.2⟩
    · refine (h.release_spec service r t (hQ a) (fun s hs hk hact ho => ?_)).pre
        (fun _ _ hs => ⟨hs.1, hs⟩)
      exact hgood s hs hact (hlock s hk.1 ho) (.inl ⟨a, hk.2⟩)
    · refine (h.release_spec service r t (hE e) (fun s hs hk hact ho => ?_)).pre
        (fun _ _ hs => ⟨hs.1, hs⟩)
      exact hgood s hs hact (hlock s hk.1 ho) (.inr ⟨e, hk.2⟩)

end Guards

end NoSQLOptimizer.ControlPlane
