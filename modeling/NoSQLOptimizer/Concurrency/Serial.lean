import NoSQLOptimizer.Concurrency.Transactions

namespace NoSQLOptimizer.Concurrency.Transactions

variable {τ κ ω β ι ε α γ : Type} {M : Schema τ κ ω β} {i : ι}

/-- The block of a transaction with no one else about: from a view of which `P` holds it comes to one
of which `Q` holds, or raises. -/
def Yields (M : Schema τ κ ω β) (i : ι) (P : τ → Prop)
    (p : Process (Statement β) (Database τ κ ω ι) ε α) (Q : α → τ → Prop) : Prop :=
  ∀ s, P (M.view i s) → (p.run s).2.tables = s.tables ∧
    ∀ a, (p.run s).1 = .ok a → Q a (M.view i (p.run s).2)

variable {P : τ → Prop} {Q : α → τ → Prop} {p : Process (Statement β) (Database τ κ ω ι) ε α}

theorem Yields.ret {a : α} (h : ∀ t, P t → Q a t) : Yields M i P (.ret a : Process _ _ ε α) Q :=
  fun s hs => ⟨rfl, fun b hb => by
    cases hb
    exact h _ hs⟩

theorem Yields.fail (e : ε) : Yields M i P (.fail e) Q := fun _ _ => ⟨rfl, fun _ h => by cases h⟩

theorem Yields.mono {P' : τ → Prop} (h : Yields M i P p Q) (hP : ∀ t, P' t → P t) :
    Yields M i P' p Q :=
  fun s hs => h s (hP _ hs)

/-- What is known of no table is known all along. -/
theorem Yields.of_known {fact : Prop} (h : fact → Yields M i P p Q) :
    Yields M i (fun t => P t ∧ fact) p Q :=
  fun s hs => h hs.2 s hs.1

theorem Yields.bind {f : α → Process (Statement β) (Database τ κ ω ι) ε γ} {R : γ → τ → Prop}
    (hp : Yields M i P p Q) (hf : ∀ a, Yields M i (Q a) (f a) R) : Yields M i P (p.bind f) R := by
  intro s hs
  obtain ⟨htables, hQ⟩ := hp s hs
  rw [Process.run_bind]
  cases hrun : p.run s with
  | mk x t =>
    rw [hrun] at htables hQ
    cases x with
    | ok a =>
      obtain ⟨htables', hR⟩ := hf a t (hQ a rfl)
      exact ⟨htables'.trans htables, hR⟩
    | error e => exact ⟨htables, fun _ h => by cases h⟩

/-- With no one else about the block goes through: from a view of which `P` holds it comes to one of
which `Q` holds. -/
def Completes (M : Schema τ κ ω β) (i : ι) (P : τ → Prop)
    (p : Process (Statement β) (Database τ κ ω ι) ε α) (Q : α → τ → Prop) : Prop :=
  ∀ s, P (M.view i s) → ∃ a, (p.run s).1 = .ok a ∧ Q a (M.view i (p.run s).2)

theorem Completes.ret {a : α} (h : ∀ t, P t → Q a t) :
    Completes M i P (.ret a : Process _ _ ε α) Q :=
  fun _ hs => ⟨a, rfl, h _ hs⟩

theorem Completes.bind {f : α → Process (Statement β) (Database τ κ ω ι) ε γ} {R : γ → τ → Prop}
    (hp : Completes M i P p Q) (hf : ∀ a, Completes M i (Q a) (f a) R) :
    Completes M i P (p.bind f) R := by
  intro s hs
  obtain ⟨a, ha, hQ⟩ := hp s hs
  rw [Process.run_bind_ok (Prod.ext ha rfl)]
  exact hf a _ hQ

variable [DecidableEq ι]

@[simp] theorem view_hold (b : β) (ws : List ω) (s : Database τ κ ω ι) :
    M.view i (M.hold i b ws s) = M.applyAll ws (M.view i s) := by
  simp only [Schema.view, Schema.hold, Function.update_self, Schema.applyAll, List.foldl_append]

theorem Yields.execute {b : β} {f : τ → Except ε (α × List ω)}
    (h : ∀ t a new, P t → f t = .ok (a, new) → Q a (M.applyAll new t)) :
    Yields M i P (M.execute i b f) Q := by
  intro s hs
  simp only [Schema.execute, Process.atomic, Process.run_act]
  cases hf : f (M.view i s) with
  | error e => exact ⟨rfl, fun _ h => by cases h⟩
  | ok r =>
    refine ⟨rfl, fun a ha => ?_⟩
    cases ha
    have hview : M.view i (M.hold i b r.2 s) = M.applyAll r.2 (M.view i s) := view_hold b r.2 s
    exact hview ▸ h _ _ _ hs hf

/-- A transaction with no one else about: nothing, or what its block comes to. -/
theorem Yields.transaction {t : τ} (hp : Yields M i (· = t) p Q) :
    ((M.transaction i p).run { tables := t }).2.tables = t ∨
      ∃ a, Q a ((M.transaction i p).run { tables := t }).2.tables := by
  obtain ⟨htables, hQ⟩ := hp { tables := t } rfl
  simp only [Schema.transaction, Process.bind_def, Process.run_bind, Process.run_rescue]
  cases hrun : p.run { tables := t } with
  | mk x u =>
    rw [hrun] at htables hQ
    cases x with
    | ok a => exact .inr ⟨a, hQ a rfl⟩
    | error e => exact .inl htables

theorem Completes.execute {b : β} {f : τ → Except ε (α × List ω)}
    (h : ∀ t, P t → ∃ a new, f t = .ok (a, new) ∧ Q a (M.applyAll new t)) :
    Completes M i P (M.execute i b f) Q := by
  intro s hs
  obtain ⟨a, new, hf, hQ⟩ := h _ hs
  simp only [Schema.execute, Process.atomic, Process.run_act, hf]
  refine ⟨a, rfl, ?_⟩
  have hview : M.view i (M.hold i b new s) = M.applyAll new (M.view i s) := view_hold b new s
  exact hview ▸ hQ

theorem Completes.transaction {t : τ} (hp : Completes M i (· = t) p Q) :
    ∃ a, ((M.transaction i p).run { tables := t }).1 = .ok a := by
  obtain ⟨a, ha, -⟩ := hp { tables := t } rfl
  refine ⟨a, ?_⟩
  simp only [Schema.transaction, Process.bind_def, Process.run_bind, Process.run_rescue]
  rw [show p.run { tables := t } = (.ok a, (p.run { tables := t }).2) from Prod.ext ha rfl]
  rfl

end NoSQLOptimizer.Concurrency.Transactions
