import Mathlib.Data.List.Induction

universe u v

namespace NoSQLOptimizer.Concurrency.History

variable {σ : Type u} {ω : Type v} (step : σ → ω → σ)

/-- The state after these operations, one after the other. -/
def after (s : σ) (ops : List ω) : σ := ops.foldl step s

/-- Each operation meets the condition in the state in which it is made. -/
def Along (C : σ → ω → Prop) : σ → List ω → Prop
  | _, [] => True
  | s, op :: ops => C s op ∧ Along C (step s op) ops

instance Along.decidable (C : σ → ω → Prop) [∀ s op, Decidable (C s op)] :
    (s : σ) → (ops : List ω) → Decidable (Along step C s ops)
  | _, [] => inferInstanceAs (Decidable True)
  | s, op :: ops =>
    have := Along.decidable C (step s op) ops
    inferInstanceAs (Decidable (C s op ∧ Along step C (step s op) ops))

/-- At some point an operation was made in a state of which `E` holds. -/
def Once (E : σ → ω → Prop) (s : σ) (ops : List ω) : Prop :=
  ∃ earlier op later, ops = earlier ++ op :: later ∧ E (after step s earlier) op

variable {step} {C E : σ → ω → Prop} {s : σ} {ops : List ω} {op : ω}

@[simp] theorem after_nil (s : σ) : after step s [] = s := rfl

@[simp] theorem after_cons (s : σ) (op : ω) (ops : List ω) :
    after step s (op :: ops) = after step (step s op) ops := rfl

theorem after_append (s : σ) (ops more : List ω) :
    after step s (ops ++ more) = after step (after step s ops) more :=
  List.foldl_append

@[simp] theorem after_concat (s : σ) (ops : List ω) (op : ω) :
    after step s (ops ++ [op]) = step (after step s ops) op :=
  after_append s ops [op]

theorem along_append {more : List ω} :
    Along step C s (ops ++ more) ↔ Along step C s ops ∧ Along step C (after step s ops) more := by
  induction ops generalizing s with
  | nil => exact (and_iff_right trivial).symm
  | cons op ops ih => rw [List.cons_append, Along, Along, ih, after_cons, and_assoc]

theorem along_concat :
    Along step C s (ops ++ [op]) ↔ Along step C s ops ∧ C (after step s ops) op := by
  rw [along_append, Along, Along, and_true]

theorem along_true : Along step (fun _ _ => True) s ops := by
  induction ops generalizing s with
  | nil => trivial
  | cons op ops ih => exact ⟨trivial, ih⟩

theorem Once.concat (h : Once step E s ops) (op : ω) : Once step E s (ops ++ [op]) := by
  obtain ⟨earlier, first, later, rfl, hE⟩ := h
  exact ⟨earlier, first, later ++ [op], List.append_assoc earlier (first :: later) [op], hE⟩

theorem Once.last (h : E (after step s ops) op) : Once step E s (ops ++ [op]) :=
  ⟨ops, op, [], rfl, h⟩

/-- What holds before anything is done, and is carried on by each operation, holds of every
history. -/
theorem of_along {P : List ω → Prop} (hops : Along step C s ops) (hnil : P [])
    (hconcat : ∀ ops op, Along step C s ops → C (after step s ops) op → P ops → P (ops ++ [op])) :
    P ops := by
  induction ops using List.reverseRecOn with
  | nil => exact hnil
  | append_singleton ops op ih =>
    obtain ⟨hops, hop⟩ := along_concat.mp hops
    exact hconcat ops op hops hop (ih hops)

/-- The rule of an invariant. -/
theorem Along.invariant {I : σ → Prop} (hops : Along step C s ops) (hI : I s)
    (hstep : ∀ s op, I s → C s op → I (step s op)) : I (after step s ops) := by
  refine of_along (P := fun ops => I (after step s ops)) hops hI (fun ops op _ hop ih => ?_)
  rw [after_concat]
  exact hstep _ op ih hop

end NoSQLOptimizer.Concurrency.History
