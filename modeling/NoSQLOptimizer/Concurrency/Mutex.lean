import NoSQLOptimizer.Concurrency.Triple

universe u v

namespace NoSQLOptimizer.Concurrency

variable {L σ ε ι κ η : Type u} {ρ : Type v}

/-- Sessions own resources.  Whoever owns the lock has its `view` of the state to itself; when
nobody does, the state is `good`. -/
structure Mutex {S : System L σ ε ι κ η} (C : S.Conduct) (ρ : Type v) where
  owner : σ → ρ → Option ι
  lock : ρ
  always : σ → Prop
  good : σ → Prop
  grows : σ → σ → Prop
  view : σ → σ → Prop
  grows_refl : ∀ s, grows s s
  grows_trans : ∀ {s t r}, grows s t → grows t r → grows s r
  view_refl : ∀ s, view s s
  view_trans : ∀ {s t r}, view s t → view t r → view s r
  view_good : ∀ {s t}, view s t → good s → good t

namespace Mutex

variable {S : System L σ ε ι κ η} {C : S.Conduct} (M : Mutex C ρ)

/-- What session `i` owns: this one resource, or nothing. -/
def Holds (i : ι) (o : Option ρ) (s : σ) : Prop := ∀ r, M.owner s r = some i ↔ o = some r

def discipline : Discipline C where
  inv s := M.always s ∧ (M.owner s M.lock = none → M.good s)
  grows := M.grows
  rely i s t := M.grows s t ∧ (∀ r, M.owner s r = some i ↔ M.owner t r = some i) ∧
    (M.owner s M.lock = some i → M.view s t)
  rely_grows h := h.1
  idle i := M.Holds i none
  refl _ s := ⟨M.grows_refl s, fun _ => Iff.rfl, fun _ => M.view_refl s⟩
  trans h h' := ⟨M.grows_trans h.1 h'.1, fun r => (h.2.1 r).trans (h'.2.1 r),
    fun hi => M.view_trans (h.2.2 hi) (h'.2.2 ((h.2.1 _).mp hi))⟩
  idle_stable h hr r := (hr.2.1 r).symm.trans (h r)

variable {M} {i : ι} {s t : σ}

theorem holds_stable (o : Option ρ) : M.discipline.Stable i (M.Holds i o) :=
  fun _ _ hr _ h r => (hr.2.1 r).symm.trans (h r)

theorem Holds.owns {r : ρ} (h : M.Holds i (some r) s) : M.owner s r = some i := (h r).mpr rfl

theorem Holds.congr {o : Option ρ} (h : M.Holds i o s) (ho : M.owner t = M.owner s) :
    M.Holds i o t :=
  fun r => by rw [ho]; exact h r

/-- What the view determines is stable for whoever holds the lock. -/
theorem stable_of_view {P : σ → Prop} (hP : ∀ s t, M.always t → M.view s t → P s → P t) :
    M.discipline.Stable i (fun s => M.Holds i (some M.lock) s ∧ P s) :=
  fun s t hr ht h =>
    ⟨holds_stable _ hr ht h.1, hP s t ht.1 (hr.2.2 h.1.owns) h.2⟩

/-- What was good when the lock was taken stays good for its owner. -/
theorem holds_good_stable (r : ρ) :
    M.discipline.Stable i (fun s => M.Holds i (some r) s ∧ (r = M.lock → M.good s)) := by
  intro s t hr ht hk
  refine ⟨holds_stable _ hr ht hk.1, fun hl => M.view_good (hr.2.2 ?_) (hk.2 hl)⟩
  exact hl ▸ hk.1.owns

/-- A move that leaves the owners and the view alone. -/
theorem neutral (hs : M.discipline.inv s) (ho : M.owner t = M.owner s) (hv : M.view s t)
    (hg : M.grows s t) (ha : M.always t) : M.discipline.Neutral s t :=
  ⟨⟨ha, fun hn => M.view_good hv (hs.2 (by rw [← ho]; exact hn))⟩,
    fun _ => ⟨hg, fun r => by rw [ho], fun _ => hv⟩⟩

/-- A move that leaves the owners alone, by the owner of the lock. -/
theorem owned (hi : M.owner s M.lock = some i) (ho : M.owner t = M.owner s) (hg : M.grows s t)
    (ha : M.always t) : M.discipline.Admits i s t := by
  refine ⟨⟨ha, fun hn => ?_⟩, hg, fun j hj => ⟨hg, fun r => by rw [ho], fun hl => ?_⟩⟩
  · rw [ho, hi] at hn
    cases hn
  · rw [hi] at hl
    cases hl
    exact absurd rfl hj

/-- The session gives back all that it owns. -/
theorem release [DecidableEq ι] (hs : M.discipline.inv s)
    (ho : ∀ r, M.owner t r = if M.owner s r = some i then none else M.owner s r)
    (hv : M.view s t) (hg : M.grows s t) (ha : M.always t)
    (hgood : M.owner s M.lock = some i → M.good s) :
    M.discipline.Admits i s t ∧ M.Holds i none t := by
  have hother : ∀ j, j ≠ i → ∀ r, M.owner s r = some j ↔ M.owner t r = some j := by
    intro j hj r
    rw [ho r]
    split
    · next h => simp [h, Ne.symm hj]
    · exact Iff.rfl
  refine ⟨⟨⟨ha, fun hl => M.view_good hv ?_⟩, hg, fun j hj => ⟨hg, hother j hj, fun _ => hv⟩⟩,
    fun r => ?_⟩
  · rw [ho] at hl
    split at hl
    · next h => exact hgood h
    · exact hs.2 hl
  · rw [ho r]
    split
    · simp
    · next h => simp [h]

/-- Over a whole run the state only grows. -/
theorem grown [DecidableEq ι] [Nonempty ι] {c c' : Config L σ ε ι} (h : M.discipline.Holds c)
    (hG : M.discipline.Governs) (hr : S.Reach C.Allows c c') : M.grows c.shared c'.shared := by
  induction hr with
  | init => exact M.grows_refl _
  | @step d e d' hd hP hn ih =>
    refine M.grows_trans ih ?_
    have hholds := h.reach hG hd
    rcases System.next_cases hn with ⟨i, k, rfl, -, rfl⟩ | ⟨i, l, u, k, rfl, hp, rfl⟩ | ⟨i, rfl, rfl⟩ |
      ⟨v, rfl, rfl⟩
    · exact M.grows_refl _
    · have hl : d.label i = some l := by simp [Config.label, hp, Process.label]
      exact ((hholds.safe i _ hp _ (M.discipline.refl i _) hholds.inv).2 (hP l hl)).1.grows
    · have hcrash := hn
      simp only [System.next] at hcrash
      split at hcrash
      · next l u k hp =>
        have hl : d.label i = some l := by simp [Config.label, hp, Process.label]
        exact ((hholds.safe i _ hp _ (M.discipline.refl i _) hholds.inv).1 (hP l hl)).1.grows
      · cases hcrash
    · exact M.discipline.rely_grows ((hG.env _ _ hP hholds.inv).2 (Classical.arbitrary ι))

variable [DecidableEq ρ]

/-- The session takes a resource that nobody owns. -/
theorem acquire {r : ρ} (hs : M.discipline.inv s) (hn : M.owner s r = none)
    (ho : ∀ r', M.owner t r' = if r' = r then some i else M.owner s r') (hv : M.view s t)
    (hg : M.grows s t) (ha : M.always t) : M.discipline.Admits i s t := by
  have hother : ∀ j, j ≠ i → ∀ r', M.owner s r' = some j ↔ M.owner t r' = some j := by
    intro j hj r'
    rw [ho r']
    split
    · next h =>
      subst h
      simp [hn, Ne.symm hj]
    · exact Iff.rfl
  refine ⟨⟨ha, fun hl => M.view_good hv (hs.2 ?_)⟩, hg, fun j hj => ⟨hg, hother j hj, fun _ => hv⟩⟩
  rw [ho] at hl
  split at hl
  · cases hl
  · exact hl

theorem Holds.acquire {r : ρ} (h : M.Holds i none s)
    (ho : ∀ r', M.owner t r' = if r' = r then some i else M.owner s r') :
    M.Holds i (some r) t := by
  intro r'
  rw [ho r']
  split
  · next h => simp [h]
  · next hne =>
    rw [h r']
    simp [Ne.symm hne]

end Mutex

end NoSQLOptimizer.Concurrency
