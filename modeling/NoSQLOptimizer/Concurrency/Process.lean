import Mathlib.Logic.Function.Basic

universe u

namespace NoSQLOptimizer.Concurrency

/-- A sequential process over a shared state.  An `act` is one atomic action: its name, what it
does to the state, and how the process goes on after having seen the state it acted on. -/
inductive Process (L σ ε α : Type u) : Type u
  | ret : α → Process L σ ε α
  | fail : ε → Process L σ ε α
  | act : L → (σ → σ) → (σ → Process L σ ε α) → Process L σ ε α

namespace Process

variable {L σ ε α β γ : Type u}

def bind : Process L σ ε α → (α → Process L σ ε β) → Process L σ ε β
  | .ret a, f => f a
  | .fail e, _ => .fail e
  | .act l u k, f => .act l u (fun s => (k s).bind f)

/-- `try p finally cleanup`. -/
def onExit : Process L σ ε α → Process L σ ε PUnit → Process L σ ε α
  | .ret a, q => q.bind (fun _ => .ret a)
  | .fail e, q => q.bind (fun _ => .fail e)
  | .act l u k, q => .act l u (fun s => (k s).onExit q)

/-- `try p except e: h e`. -/
def rescue : Process L σ ε α → (ε → Process L σ ε α) → Process L σ ε α
  | .ret a, _ => .ret a
  | .fail e, h => h e
  | .act l u k, h => .act l u (fun s => (k s).rescue h)

/-- The outcome as a value: nothing is raised. -/
def attempt : Process L σ ε α → Process L σ ε (Except ε α)
  | .ret a => .ret (.ok a)
  | .fail e => .ret (.error e)
  | .act l u k => .act l u (fun s => (k s).attempt)

instance : Monad (Process L σ ε) where
  pure := .ret
  bind := bind

instance : MonadExceptOf ε (Process L σ ε) where
  throw := .fail
  tryCatch := rescue

@[simp] theorem pure_def (a : α) : (pure a : Process L σ ε α) = .ret a := rfl

@[simp] theorem bind_def (p : Process L σ ε α) (f : α → Process L σ ε β) :
    (p >>= f) = p.bind f := rfl

@[simp] theorem throw_def (e : ε) : (throw e : Process L σ ε α) = .fail e := rfl

@[simp] theorem ret_bind (a : α) (f : α → Process L σ ε β) : (ret a).bind f = f a := rfl

@[simp] theorem fail_bind (e : ε) (f : α → Process L σ ε β) :
    (fail e : Process L σ ε α).bind f = .fail e := rfl

@[simp] theorem act_bind (l : L) (u : σ → σ) (k : σ → Process L σ ε α)
    (f : α → Process L σ ε β) : (act l u k).bind f = .act l u (fun s => (k s).bind f) := rfl

/-- A database transaction: it commits as a whole, or raises and leaves the state alone. -/
def atomic (l : L) (t : σ → Except ε (α × σ)) : Process L σ ε α :=
  .act l
    (fun s => match t s with
      | .ok (_, s') => s'
      | .error _ => s)
    (fun s => match t s with
      | .ok (a, _) => .ret a
      | .error e => .fail e)

/-- A query of its own. -/
def read (l : L) (f : σ → α) : Process L σ ε α := .act l id (fun s => .ret (f s))

def modify (l : L) (f : σ → σ) : Process L σ ε PUnit := .act l f (fun _ => .ret ⟨⟩)

/-- `if b: p`. -/
def when (b : Bool) (p : Process L σ ε PUnit) : Process L σ ε PUnit := if b then p else .ret ⟨⟩

/-- `if b: raise e`. -/
def raiseIf (b : Bool) (e : ε) : Process L σ ε PUnit := if b then .fail e else .ret ⟨⟩

def ofExcept : Except ε α → Process L σ ε α
  | .ok a => .ret a
  | .error e => .fail e

/-- The process run to its end with no one else acting. -/
def run : Process L σ ε α → σ → Except ε α × σ
  | .ret a, s => (.ok a, s)
  | .fail e, s => (.error e, s)
  | .act _ u k, s => (k s).run (u s)

@[simp] theorem run_ret (a : α) (s : σ) : (ret a : Process L σ ε α).run s = (.ok a, s) := rfl

@[simp] theorem run_fail (e : ε) (s : σ) : (fail e : Process L σ ε α).run s = (.error e, s) := rfl

@[simp] theorem run_act (l : L) (u : σ → σ) (k : σ → Process L σ ε α) (s : σ) :
    (act l u k).run s = (k s).run (u s) := rfl

@[simp] theorem run_read (l : L) (f : σ → α) (s : σ) :
    (read l f : Process L σ ε α).run s = (.ok (f s), s) := rfl

theorem run_atomic (l : L) (t : σ → Except ε (α × σ)) (s : σ) :
    (atomic l t).run s = match t s with
      | .ok (a, s') => (.ok a, s')
      | .error e => (.error e, s) := by
  unfold atomic
  rw [run_act]
  cases t s <;> rfl

theorem run_bind (p : Process L σ ε α) (f : α → Process L σ ε β) (s : σ) :
    (p.bind f).run s = match p.run s with
      | (.ok a, t) => (f a).run t
      | (.error e, t) => (.error e, t) := by
  induction p generalizing s with
  | ret a => rfl
  | fail e => rfl
  | act l u k ih => exact ih s (u s)

/-- What a process leaves does not depend on what is made of its result. -/
theorem run_bind_ret (p : Process L σ ε α) (b : β) (s : σ) :
    ((p.bind (fun _ => .ret b)).run s).2 = (p.run s).2 := by
  rw [run_bind]
  cases p.run s with
  | mk x t => cases x <;> rfl

theorem run_bind_ok {p : Process L σ ε α} {s t : σ} {a : α} (h : p.run s = (.ok a, t))
    (f : α → Process L σ ε β) : (p.bind f).run s = (f a).run t := by
  rw [run_bind, h]

theorem run_bind_error {p : Process L σ ε α} {s t : σ} {e : ε} (h : p.run s = (.error e, t))
    (f : α → Process L σ ε β) : (p.bind f).run s = (.error e, t) := by
  rw [run_bind, h]

theorem run_bind_eq_ok {p : Process L σ ε α} {f : α → Process L σ ε β} {s t : σ} {b : β} :
    (p.bind f).run s = (.ok b, t) ↔ ∃ a u, p.run s = (.ok a, u) ∧ (f a).run u = (.ok b, t) := by
  rw [run_bind]
  constructor
  · intro h
    cases hp : p.run s with
    | mk x u =>
      rw [hp] at h
      cases x with
      | ok a => exact ⟨a, u, rfl, h⟩
      | error e => cases h
  · rintro ⟨a, u, hp, hf⟩
    rw [hp]
    exact hf

theorem run_ofExcept_eq_ok {x : Except ε α} {s t : σ} {a : α} :
    (ofExcept x : Process L σ ε α).run s = (.ok a, t) ↔ x = .ok a ∧ t = s := by
  cases x with
  | ok b => simp [ofExcept, eq_comm]
  | error e => simp [ofExcept]

theorem run_raiseIf_eq_ok {b : Bool} {e : ε} {s t : σ} {a : PUnit} :
    (raiseIf b e : Process L σ ε PUnit).run s = (.ok a, t) ↔ b = false ∧ t = s := by
  cases b <;> simp [raiseIf, eq_comm]

theorem run_when_false (p : Process L σ ε PUnit) (s : σ) : (when false p).run s = (.ok ⟨⟩, s) := rfl

theorem run_onExit (p : Process L σ ε α) (q : Process L σ ε PUnit) (s : σ) :
    (p.onExit q).run s = match (q.run (p.run s).2) with
      | (.ok _, t) => ((p.run s).1, t)
      | (.error e, t) => (.error e, t) := by
  induction p generalizing s with
  | ret a =>
    simp only [onExit, run_bind, run_ret]
    rcases q.run s with ⟨_ | _, t⟩ <;> rfl
  | fail e =>
    simp only [onExit, run_bind, run_fail]
    rcases q.run s with ⟨_ | _, t⟩ <;> rfl
  | act l u k ih => exact ih s (u s)

theorem run_rescue (p : Process L σ ε α) (f : ε → Process L σ ε α) (s : σ) :
    (p.rescue f).run s = match p.run s with
      | (.ok a, t) => (.ok a, t)
      | (.error e, t) => (f e).run t := by
  induction p generalizing s with
  | ret a => rfl
  | fail e => rfl
  | act l u k ih => exact ih s (u s)

/-- Every action of the process satisfies `T`, every result `Q`, whatever the states it sees. -/
def Always (T : L → σ → σ → Prop) (Q : Except ε α → Prop) : Process L σ ε α → Prop
  | .ret a => Q (.ok a)
  | .fail e => Q (.error e)
  | .act l u k => ∀ s, T l s (u s) ∧ (k s).Always T Q

variable {T T' : L → σ → σ → Prop}

@[simp] theorem always_ret {Q : Except ε α → Prop} (a : α) :
    (ret a : Process L σ ε α).Always T Q ↔ Q (.ok a) := Iff.rfl

@[simp] theorem always_fail {Q : Except ε α → Prop} (e : ε) :
    (fail e : Process L σ ε α).Always T Q ↔ Q (.error e) := Iff.rfl

theorem Always.mono {Q Q' : Except ε α → Prop} {p : Process L σ ε α} (h : p.Always T Q)
    (hT : ∀ l s t, T l s t → T' l s t) (hQ : ∀ x, Q x → Q' x) : p.Always T' Q' := by
  induction p with
  | ret a => exact hQ _ h
  | fail e => exact hQ _ h
  | act l u k ih => exact fun s => ⟨hT _ _ _ (h s).1, ih s (h s).2⟩

theorem Always.and {Q Q' : Except ε α → Prop} {p : Process L σ ε α} (h : p.Always T Q)
    (h' : p.Always T' Q') : p.Always (fun l s t => T l s t ∧ T' l s t) (fun x => Q x ∧ Q' x) := by
  induction p with
  | ret a => exact ⟨h, h'⟩
  | fail e => exact ⟨h, h'⟩
  | act l u k ih => exact fun s => ⟨⟨(h s).1, (h' s).1⟩, ih s (h s).2 (h' s).2⟩

theorem Always.bind {Q : Except ε α → Prop} {Q' : Except ε β → Prop} {p : Process L σ ε α}
    {f : α → Process L σ ε β} (h : p.Always T Q) (hf : ∀ a, Q (.ok a) → (f a).Always T Q')
    (he : ∀ e, Q (.error e) → Q' (.error e)) : (p.bind f).Always T Q' := by
  induction p with
  | ret a => exact hf a h
  | fail e => exact he e h
  | act l u k ih => exact fun s => ⟨(h s).1, ih s (h s).2⟩

theorem Always.then {p : Process L σ ε α} {f : α → Process L σ ε β}
    (h : p.Always T (fun _ => True)) (hf : ∀ a, (f a).Always T (fun _ => True)) :
    (p.bind f).Always T (fun _ => True) :=
  h.bind (fun a _ => hf a) (fun _ _ => trivial)

theorem Always.forM {f : α → Process L σ ε PUnit} (as : List α)
    (hf : ∀ a, (f a).Always T (fun _ => True)) :
    (List.forM as f).Always T (fun _ => True) := by
  induction as with
  | nil => trivial
  | cons a as ih => exact (hf a).then (fun _ => ih)

/-- A process that does not fail goes on. -/
theorem Always.onward {Q : Except ε β → Prop} {p : Process L σ ε α} {f : α → Process L σ ε β}
    (h : p.Always T (fun x => ∃ a, x = .ok a)) (hf : ∀ a, (f a).Always T Q) :
    (p.bind f).Always T Q :=
  h.bind (fun a _ => hf a) (fun _ he => by obtain ⟨_, he⟩ := he; cases he)

theorem Always.mapM {f : α → Process L σ ε β} (as : List α)
    (hf : ∀ a, (f a).Always T (fun x => ∃ b, x = .ok b)) :
    (as.mapM' f).Always T (fun x => ∃ bs, x = .ok bs) := by
  induction as with
  | nil => exact ⟨[], rfl⟩
  | cons a as ih => exact (hf a).onward (fun b => ih.onward (fun bs => ⟨b :: bs, rfl⟩))

theorem Always.onExit {Q : Except ε α → Prop} {p : Process L σ ε α} {q : Process L σ ε PUnit}
    (h : p.Always T Q) (hq : q.Always T (fun _ => True)) (he : ∀ e, Q (.error e)) :
    (p.onExit q).Always T Q := by
  induction p with
  | ret a => exact hq.bind (fun _ _ => h) (fun e _ => he e)
  | fail e => exact hq.bind (fun _ _ => h) (fun e _ => he e)
  | act l u k ih => exact fun s => ⟨(h s).1, ih s (h s).2⟩

theorem Always.rescue {Q : Except ε α → Prop} {p : Process L σ ε α} {h : ε → Process L σ ε α}
    (hp : p.Always T (fun _ => True)) (hret : ∀ a, Q (.ok a)) (hh : ∀ e, (h e).Always T Q) :
    (p.rescue h).Always T Q := by
  induction p with
  | ret a => exact hret a
  | fail e => exact hh e
  | act l u k ih => exact fun s => ⟨(hp s).1, ih s (hp s).2⟩

theorem Always.attempt {p : Process L σ ε α} (hp : p.Always T (fun _ => True)) :
    p.attempt.Always T (fun _ => True) := by
  induction p with
  | ret a => trivial
  | fail e => trivial
  | act l u k ih => exact fun s => ⟨(hp s).1, ih s (hp s).2⟩

theorem Always.read {Q : Except ε α → Prop} (l : L) (f : σ → α) (hT : ∀ s, T l s s)
    (hQ : ∀ s, Q (.ok (f s))) : (Process.read (ε := ε) l f).Always T Q :=
  fun s => ⟨hT s, hQ s⟩

theorem Always.raiseIf {Q : Except ε PUnit → Prop} {b : Bool} {e : ε} (hQ : ∀ x, Q x) :
    (Process.raiseIf b e : Process L σ ε PUnit).Always T Q := by
  cases b <;> exact hQ _

theorem Always.when {b : Bool} {p : Process L σ ε PUnit} {Q : Except ε PUnit → Prop}
    (hp : p.Always T Q) (hQ : Q (.ok ⟨⟩)) : (Process.when b p).Always T Q := by
  cases b
  · exact hQ
  · exact hp

theorem Always.modify {Q : Except ε PUnit → Prop} (l : L) (f : σ → σ) (hT : ∀ s, T l s (f s))
    (hQ : Q (.ok ⟨⟩)) : (Process.modify (ε := ε) l f).Always T Q :=
  fun s => ⟨hT s, hQ⟩

theorem Always.atomic {Q : Except ε α → Prop} (l : L) (t : σ → Except ε (α × σ))
    (hok : ∀ s a s', t s = .ok (a, s') → T l s s' ∧ Q (.ok a))
    (herr : ∀ s e, t s = .error e → T l s s ∧ Q (.error e)) : (Process.atomic l t).Always T Q := by
  intro s
  cases h : t s with
  | ok r => simpa [h] using hok s r.1 r.2 h
  | error e => simpa [h] using herr s e h

/-- A process that only reads leaves the state as it is. -/
theorem Always.run_snd {Q : Except ε α → Prop} {p : Process L σ ε α}
    (h : p.Always (fun _ s t => t = s) Q) (s : σ) : (p.run s).2 = s := by
  induction p generalizing s with
  | ret a => rfl
  | fail e => rfl
  | act l u k ih =>
    rw [run_act, (h s).1]
    exact ih s (h s).2 s

/-- Alone, the process either returns or leaves the state as it is. -/
def AllOrNothing (p : Process L σ ε α) : Prop :=
  ∀ s e t, p.run s = (.error e, t) → t = s

theorem AllOrNothing.of_always {Q : Except ε α → Prop} {p : Process L σ ε α}
    (h : p.Always (fun _ s t => t = s) Q) : p.AllOrNothing := by
  intro s e t hrun
  have := h.run_snd s
  rwa [hrun] at this

theorem AllOrNothing.atomic (l : L) (t : σ → Except ε (α × σ)) : (Process.atomic l t).AllOrNothing := by
  intro s e s' hrun
  cases h : t s with
  | ok r => simp [Process.atomic, h] at hrun
  | error e' =>
    simp only [Process.atomic, run_act, h, run_fail, Prod.mk.injEq] at hrun
    exact hrun.2.symm

/-- Reading comes first. -/
theorem AllOrNothing.bind {Q : Except ε α → Prop} {p : Process L σ ε α}
    {f : α → Process L σ ε β} (h : p.Always (fun _ s t => t = s) Q)
    (hf : ∀ a, (f a).AllOrNothing) : (p.bind f).AllOrNothing := by
  intro s e t hrun
  have hstill := h.run_snd s
  rw [run_bind] at hrun
  cases hp : p.run s with
  | mk x u =>
    rw [hp] at hrun hstill
    subst hstill
    cases x with
    | ok a => exact hf a _ e t hrun
    | error e' =>
      cases hrun
      rfl

theorem Always.run_fst {Q : Except ε α → Prop} {p : Process L σ ε α} (h : p.Always T Q) (s : σ) :
    Q (p.run s).1 := by
  induction p generalizing s with
  | ret a => exact h
  | fail e => exact h
  | act l u k ih => exact ih s (h s).2 (u s)

/-- `P` holds of every state that the process goes through when it runs alone: wherever it fails, it
fails in one of them. -/
def Throughout (P : σ → Prop) : Process L σ ε α → σ → Prop
  | .ret _, s => P s
  | .fail _, s => P s
  | .act _ u k, s => P s ∧ (k s).Throughout P (u s)

section

variable {P : σ → Prop} {p : Process L σ ε α} {f : α → Process L σ ε β} {s : σ}

theorem Throughout.now (h : p.Throughout P s) : P s := by
  cases p with
  | ret a => exact h
  | fail e => exact h
  | act l u k => exact h.1

theorem Throughout.ends (h : p.Throughout P s) {x : Except ε α} {t : σ} (hrun : p.run s = (x, t)) :
    P t := by
  induction p generalizing s with
  | ret a =>
    cases hrun
    exact h
  | fail e =>
    cases hrun
    exact h
  | act l u k ih => exact ih s h.2 hrun

theorem throughout_bind :
    (p.bind f).Throughout P s ↔
      p.Throughout P s ∧ ∀ a t, p.run s = (.ok a, t) → (f a).Throughout P t := by
  induction p generalizing s with
  | ret a =>
    refine ⟨fun h => ⟨h.now, fun b t hrun => ?_⟩, fun h => h.2 a s rfl⟩
    cases hrun
    exact h
  | fail e => exact ⟨fun h => ⟨h, fun _ _ hrun => by cases hrun⟩, fun h => h.1⟩
  | act l u k ih =>
    rw [act_bind, Throughout, Throughout, ih, and_assoc]
    rfl

theorem Throughout.bind (h : p.Throughout P s)
    (hf : ∀ a t, p.run s = (.ok a, t) → (f a).Throughout P t) : (p.bind f).Throughout P s :=
  throughout_bind.mpr ⟨h, hf⟩

theorem Throughout.atomic {l : L} {t : σ → Except ε (α × σ)} (hs : P s)
    (hok : ∀ a s', t s = .ok (a, s') → P s') : (Process.atomic l t).Throughout P s := by
  refine ⟨hs, ?_⟩
  dsimp only
  cases h : t s with
  | ok r => exact hok r.1 r.2 h
  | error e => exact hs

theorem throughout_read_bind {l : L} {g : σ → α} :
    ((read l g).bind f).Throughout P s ↔ P s ∧ (f (g s)).Throughout P s := Iff.rfl

theorem Always.throughout {Q : Except ε α → Prop} (h : p.Always (fun _ s t => P s → P t) Q)
    (hs : P s) : p.Throughout P s := by
  induction p generalizing s with
  | ret a => exact hs
  | fail e => exact hs
  | act l u k ih => exact ⟨hs, ih s (h s).2 ((h s).1 hs)⟩

end

/-- The states that the process goes through when it runs alone: it leaves one of them, wherever it
ends or is cut off. -/
def Visits : Process L σ ε α → σ → σ → Prop
  | .ret _, s, t => t = s
  | .fail _, s, t => t = s
  | .act _ u k, s, t => t = s ∨ (k s).Visits (u s) t

theorem Throughout.visits {P : σ → Prop} {p : Process L σ ε α} {s t : σ} (h : p.Throughout P s)
    (hv : p.Visits s t) : P t := by
  induction p generalizing s with
  | ret a =>
    cases hv
    exact h
  | fail e =>
    cases hv
    exact h
  | act l u k ih =>
    rcases hv with rfl | hv
    · exact h.1
    · exact ih s h.2 hv

/-- It comes to its end. -/
theorem visits_run (p : Process L σ ε α) (s : σ) : p.Visits s (p.run s).2 := by
  induction p generalizing s with
  | ret a => rfl
  | fail e => rfl
  | act l u k ih => exact .inr (ih s (u s))

end Process

end NoSQLOptimizer.Concurrency
