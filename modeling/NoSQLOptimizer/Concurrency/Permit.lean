import NoSQLOptimizer.Concurrency.System

universe u v

namespace NoSQLOptimizer.Concurrency

variable {L σ ε ι κ η : Type u} {ρ : Type v} {α β : Type u}

/-- Permits to do a thing.  An action grants one by what it finds, the actions of whoever holds it
are labelled by it, and what was done is logged. -/
structure Permits (L σ : Type u) (ρ : Type v) where
  holds : L → Option ρ
  grants : L → σ → ρ → Prop
  done : σ → List ρ

namespace Permits

variable (M : Permits L σ ρ)

/-- What an action may do with its process's permit: keep it or give it up, be granted another, or
use it. -/
def Passes (l : L) (s t : σ) (held after : Option ρ) : Prop :=
  (M.done t = M.done s ∧ ∀ r, after = some r → held = some r ∨ M.grants l s r) ∨
    ∃ r, held = some r ∧ after = none ∧ M.done t = M.done s ++ [r]

/-- The process, holding this permit, does nothing that it has no permit for. -/
def Obeys (Q : Option ρ → α → Prop) : Option ρ → Process L σ ε α → Prop
  | held, .ret a => Q held a
  | _, .fail _ => True
  | held, .act l u k => ∀ s, M.holds l = held ∧
      ∃ after, M.Passes l s (u s) held after ∧ Obeys Q after (k s)

/-- An action without a permit that does nothing. -/
def Idle (l : L) (s t : σ) : Prop := M.holds l = none ∧ M.done t = M.done s

variable {M} {Q Q' : Option ρ → α → Prop} {held : Option ρ}

theorem Obeys.mono {p : Process L σ ε α} (h : M.Obeys Q held p) (hQ : ∀ r a, Q r a → Q' r a) :
    M.Obeys Q' held p := by
  induction p generalizing held with
  | ret a => exact hQ _ _ h
  | fail e => trivial
  | act l u k ih => exact fun s => ⟨(h s).1, (h s).2.imp (fun _ ha => ⟨ha.1, ih s ha.2⟩)⟩

theorem Obeys.bind {R : Option ρ → β → Prop} {p : Process L σ ε α} {f : α → Process L σ ε β}
    (h : M.Obeys Q held p) (hf : ∀ r a, Q r a → M.Obeys R r (f a)) :
    M.Obeys R held (p.bind f) := by
  induction p generalizing held with
  | ret a => exact hf _ _ h
  | fail e => trivial
  | act l u k ih => exact fun s => ⟨(h s).1, (h s).2.imp (fun _ ha => ⟨ha.1, ih s ha.2⟩)⟩

theorem Obeys.of_always {O : Except ε α → Prop} {p : Process L σ ε α}
    (h : p.Always (fun l s t => M.Idle l s t) O) :
    M.Obeys (fun r a => r = none ∧ O (.ok a)) none p := by
  induction p with
  | ret a => exact ⟨rfl, h⟩
  | fail e => trivial
  | act l u k ih =>
    refine fun s => ⟨(h s).1.1, none, .inl ⟨(h s).1.2, ?_⟩, ih s (h s).2⟩
    rintro r ⟨⟩

/-- A query by which the permit may be granted, or kept. -/
theorem Obeys.read {l : L} {f : σ → α} (hl : M.holds l = held)
    (hQ : ∀ s, ∃ after, (∀ r, after = some r → held = some r ∨ M.grants l s r) ∧ Q after (f s)) :
    M.Obeys Q held (Process.read (ε := ε) l f) :=
  fun s => ⟨hl, (hQ s).imp (fun _ ha => ⟨.inl ⟨rfl, ha.1⟩, ha.2⟩)⟩

variable (M) {S : System L σ ε ι κ η}

/-- Every call begins without a permit, and no session does anything by dying. -/
structure Governs (S : System L σ ε ι κ η) : Prop where
  call : ∀ i k, M.Obeys (fun _ _ => True) none (S.call i k)
  crash : ∀ i s, M.done (S.crash i s) = M.done s

/-- The permit that a session holds. -/
def heldBy (c : Config L σ ε ι) (i : ι) : Option ρ := (c.label i).bind M.holds

/-- No permit is granted for what was done already, or while another session holds it. -/
def Sparing (S : System L σ ε ι κ η) (c : Config L σ ε ι) : Event ι κ η → Prop
  | .step i => ∀ l r, c.label i = some l → M.grants l c.shared r →
      r ∉ M.done c.shared ∧ ∀ j, j ≠ i → M.heldBy c j ≠ some r
  | .env e => M.done (S.env e c.shared) = M.done c.shared
  | _ => True

structure Exclusive (c : Config L σ ε ι) : Prop where
  once : (M.done c.shared).Nodup
  undone : ∀ i r, M.heldBy c i = some r → r ∉ M.done c.shared
  unique : ∀ i j r, M.heldBy c i = some r → M.heldBy c j = some r → i = j
  obeys : ∀ i p, c.pool i = some p → ∃ held, M.Obeys (fun _ _ => True) held p

variable {M} {c c' c₀ : Config L σ ε ι}

theorem Obeys.held_eq {p : Process L σ ε PUnit} {Q : Option ρ → PUnit → Prop} {i : ι} {r : ρ}
    (h : M.Obeys Q held p) (t : σ) (hp : c.pool i = p.settle) (hr : M.heldBy c i = some r) :
    held = some r := by
  cases p with
  | ret a => simp [heldBy, Config.label, hp, Process.settle] at hr
  | fail e => simp [heldBy, Config.label, hp, Process.settle] at hr
  | act l u k =>
    rw [← (h t).1]
    simpa [heldBy, Config.label, hp, Process.settle, Process.label] using hr

variable [DecidableEq ι]

/-- One session moves to `t`, its process becoming `p`, which holds `after`. -/
theorem Exclusive.move {i : ι} {p : Process L σ ε PUnit} {t : σ} {after : Option ρ}
    (h : M.Exclusive c) (hp : M.Obeys (fun _ _ => True) after p) (honce : (M.done t).Nodup)
    (hown : ∀ r, after = some r → r ∉ M.done t ∧ ∀ j, j ≠ i → M.heldBy c j ≠ some r)
    (hothers : ∀ j r, j ≠ i → M.heldBy c j = some r → r ∉ M.done t) :
    M.Exclusive ⟨t, Function.update c.pool i p.settle⟩ := by
  have hself : ∀ r, M.heldBy ⟨t, Function.update c.pool i p.settle⟩ i = some r → after = some r :=
    fun r hr => hp.held_eq t (by simp) hr
  have hother : ∀ j, j ≠ i → M.heldBy ⟨t, Function.update c.pool i p.settle⟩ j = M.heldBy c j :=
    fun j hj => by simp [heldBy, Config.label, hj]
  refine ⟨honce, fun j r hr => ?_, fun j j' r hr hr' => ?_, fun j q hq => ?_⟩
  · by_cases hj : j = i
    · subst hj
      exact (hown r (hself r hr)).1
    · exact hothers j r hj ((hother j hj).symm.trans hr)
  · by_cases hj : j = i
    · by_cases hj' : j' = i
      · rw [hj, hj']
      · subst hj
        exact absurd ((hother j' hj').symm.trans hr') ((hown r (hself r hr)).2 j' hj')
    · by_cases hj' : j' = i
      · subst hj'
        exact absurd ((hother j hj).symm.trans hr) ((hown r (hself r hr')).2 j hj)
      · exact h.unique j j' r ((hother j hj).symm.trans hr) ((hother j' hj').symm.trans hr')
  · by_cases hj : j = i
    · subst hj
      simp only [Function.update_self] at hq
      cases p <;> cases hq
      exact ⟨after, hp⟩
    · exact h.obeys j q (by simpa [hj] using hq)

theorem Exclusive.next (h : M.Exclusive c) (hG : M.Governs S) {e : Event ι κ η}
    (hP : M.Sparing S c e) (hn : S.next c e = some c') : M.Exclusive c' := by
  cases e with
  | start i k =>
    simp only [System.next] at hn
    split at hn <;> cases hn
    exact h.move (hG.call i k) h.once (fun r hr => by cases hr) (fun j r _ => h.undone j r)
  | step i =>
    simp only [System.next] at hn
    split at hn <;> cases hn
    next l u k hpool =>
    obtain ⟨held, hobeys⟩ := h.obeys i _ hpool
    obtain ⟨hl, after, hpasses, hrest⟩ := hobeys c.shared
    have hlabel : c.label i = some l := by simp [Config.label, hpool, Process.label]
    have hheld : M.heldBy c i = held := by simp [heldBy, hlabel, hl]
    rcases hpasses with ⟨hdone, hafter⟩ | ⟨r, hr, hnone, hdone⟩
    · refine h.move hrest (hdone ▸ h.once) (fun r hr => ?_) (fun j r _ hj => hdone ▸ h.undone j r hj)
      rw [hdone]
      rcases hafter r hr with hr | hgrant
      · exact ⟨h.undone i r (hheld.trans hr),
          fun j hj hjr => hj (h.unique j i r hjr (hheld.trans hr))⟩
      · exact hP l r hlabel hgrant
    · have hir := hheld.trans hr
      refine h.move hrest ?_ (fun r' hr' => ?_) (fun j r' hj hjr hmem => ?_)
      · rw [hdone]
        exact List.nodup_append.mpr ⟨h.once, by simp, fun a ha b hb hab =>
          h.undone i r hir (List.mem_singleton.mp hb ▸ hab ▸ ha)⟩
      · rw [hnone] at hr'
        cases hr'
      · rw [hdone, List.mem_append, List.mem_singleton] at hmem
        rcases hmem with hmem | rfl
        · exact h.undone j r' hjr hmem
        · exact hj (h.unique j i r' hjr hir)
  | crash i =>
    simp only [System.next] at hn
    split at hn <;> cases hn
    have hdead : M.Obeys (fun _ _ => True) none (.ret ⟨⟩ : Process L σ ε PUnit) := trivial
    refine h.move hdead ?_ (fun r hr => by cases hr) ?_
    · exact (hG.crash i c.shared).symm ▸ h.once
    · exact fun j r _ hj => (hG.crash i c.shared).symm ▸ h.undone j r hj
  | env e =>
    cases hn
    exact ⟨hP.symm ▸ h.once, fun i r hr => hP.symm ▸ h.undone i r hr, h.unique, h.obeys⟩

/-- Where permits are granted sparingly, nothing is done twice. -/
theorem Governs.done_nodup (hG : M.Governs S) {s₀ : σ} (hs : (M.done s₀).Nodup)
    (hr : S.Reach (M.Sparing S) (.quiet s₀) c) : (M.done c.shared).Nodup := by
  have hquiet : M.Exclusive (.quiet s₀ : Config L σ ε ι) :=
    ⟨hs, (fun _ _ hr => by cases hr), (fun _ _ _ hr => by cases hr), (fun _ _ hp => by cases hp)⟩
  exact (hr.invariant hquiet (fun _ _ _ hc hP hn => hc.next hG hP hn)).once

end Permits

end NoSQLOptimizer.Concurrency
