import NoSQLOptimizer.Concurrency.Process

universe u

namespace NoSQLOptimizer.Concurrency

/-- Sessions `ι` run calls `κ`.  A crash loses the session's process and whatever of the shared
state lived in the session; `env` is what happens outside every session. -/
structure System (L σ ε ι κ η : Type u) where
  call : ι → κ → Process L σ ε PUnit
  crash : ι → σ → σ
  env : η → σ → σ

inductive Event (ι κ η : Type u) : Type u
  | start : ι → κ → Event ι κ η
  | step : ι → Event ι κ η
  | crash : ι → Event ι κ η
  | env : η → Event ι κ η

/-- Session `i` makes the call and takes its first `n` actions. -/
def Event.calls {ι κ η : Type u} (i : ι) (k : κ) (n : Nat) : List (Event ι κ η) :=
  .start i k :: List.replicate n (.step i)

theorem Event.of_mem_calls {ι κ η : Type u} {i : ι} {k : κ} {n : Nat} {e : Event ι κ η}
    (h : e ∈ Event.calls i k n) : e = .start i k ∨ e = .step i := by
  rcases List.mem_cons.mp h with rfl | h
  · exact .inl rfl
  · exact .inr (List.eq_of_mem_replicate h)

structure Config (L σ ε ι : Type u) where
  shared : σ
  pool : ι → Option (Process L σ ε PUnit)

variable {L σ ε ι κ η : Type u}

/-- A process with nothing left to do leaves its session. -/
def Process.settle : Process L σ ε PUnit → Option (Process L σ ε PUnit)
  | .act l u k => some (.act l u k)
  | _ => none

/-- The action the session takes next. -/
def Process.label : Process L σ ε PUnit → Option L
  | .act l _ _ => some l
  | _ => none

namespace Config

def label (c : Config L σ ε ι) (i : ι) : Option L := (c.pool i).bind Process.label

def quiet (s : σ) : Config L σ ε ι := ⟨s, fun _ => none⟩

end Config

namespace System

/-- What the runs in question contain: which calls are made, where steps and crashes happen, and
what the surroundings do. -/
structure Conduct (S : System L σ ε ι κ η) where
  starts : κ → Prop := fun _ => True
  acts : ι → L → σ → Prop := fun _ _ _ => True
  crashes : ι → L → σ → Prop := fun _ _ _ => True
  env : σ → σ → Prop := fun _ _ => True

def Conduct.Allows {S : System L σ ε ι κ η} (C : S.Conduct) (c : Config L σ ε ι) :
    Event ι κ η → Prop
  | .start _ k => C.starts k
  | .step i => ∀ l, c.label i = some l → C.acts i l c.shared
  | .crash i => ∀ l, c.label i = some l → C.crashes i l c.shared
  | .env e => C.env c.shared (S.env e c.shared)

/-- The same runs, and what is already known of the states they go through. -/
def Conduct.given {S : System L σ ε ι κ η} (C : S.Conduct) (I : σ → Prop) : S.Conduct where
  starts := C.starts
  acts i l s := C.acts i l s ∧ I s
  crashes i l s := C.crashes i l s ∧ I s
  env s t := C.env s t ∧ I s

/-- Calls, crashes and surroundings all move the state along `K`. -/
structure Along (S : System L σ ε ι κ η) (C : S.Conduct) (K : σ → σ → Prop) : Prop where
  refl : ∀ s, K s s
  trans : ∀ {s t r}, K s t → K t r → K s r
  call : ∀ i k, C.starts k → (S.call i k).Always (fun _ s t => K s t) (fun _ => True)
  crash : ∀ i s, K s (S.crash i s)
  env : ∀ s t, C.env s t → K s t

/-- Every process still moves the state along `K`. -/
def Moving (K : σ → σ → Prop) (c : Config L σ ε ι) : Prop :=
  ∀ i p, c.pool i = some p → p.Always (fun _ s t => K s t) (fun _ => True)

theorem Moving.quiet {K : σ → σ → Prop} (s : σ) : Moving K (.quiet s : Config L σ ε ι) :=
  fun _ _ h => by cases h

variable [DecidableEq ι]

def next (S : System L σ ε ι κ η) (c : Config L σ ε ι) :
    Event ι κ η → Option (Config L σ ε ι)
  | .start i k =>
    if (c.pool i).isNone then
      some { c with pool := Function.update c.pool i (S.call i k).settle }
    else none
  | .step i =>
    match c.pool i with
    | some (.act _ u k) =>
      some ⟨u c.shared, Function.update c.pool i (k c.shared).settle⟩
    | _ => none
  | .crash i =>
    match c.pool i with
    | some (.act ..) => some ⟨S.crash i c.shared, Function.update c.pool i none⟩
    | _ => none
  | .env e => some { c with shared := S.env e c.shared }

theorem next_step {S : System L σ ε ι κ η} {c : Config L σ ε ι} {i : ι} {l : L} {u : σ → σ}
    {k : σ → Process L σ ε PUnit} (h : c.pool i = some (.act l u k)) :
    S.next c (.step i) = some ⟨u c.shared, Function.update c.pool i (k c.shared).settle⟩ := by
  simp only [next, h]

/-- What an event can be, and what it leaves. -/
theorem next_cases {S : System L σ ε ι κ η} {c c' : Config L σ ε ι} {e : Event ι κ η}
    (h : S.next c e = some c') :
    (∃ i k, e = .start i k ∧ c.pool i = none ∧
        c' = ⟨c.shared, Function.update c.pool i (S.call i k).settle⟩) ∨
      (∃ i l u k, e = .step i ∧ c.pool i = some (.act l u k) ∧
        c' = ⟨u c.shared, Function.update c.pool i (k c.shared).settle⟩) ∨
      (∃ i, e = .crash i ∧ c' = ⟨S.crash i c.shared, Function.update c.pool i none⟩) ∨
      ∃ v, e = .env v ∧ c' = { c with shared := S.env v c.shared } := by
  cases e with
  | start i k =>
    simp only [next] at h
    split at h <;> cases h
    next hidle => exact .inl ⟨i, k, rfl, Option.isNone_iff_eq_none.mp hidle, rfl⟩
  | step i =>
    simp only [next] at h
    split at h <;> cases h
    next l u k hp => exact .inr (.inl ⟨i, l, u, k, rfl, hp, rfl⟩)
  | crash i =>
    simp only [next] at h
    split at h <;> cases h
    exact .inr (.inr (.inl ⟨i, rfl, rfl⟩))
  | env v =>
    cases h
    exact .inr (.inr (.inr ⟨v, rfl, rfl⟩))

/-- The configurations a run reaches when every event of it satisfies `P`. -/
inductive Reach (S : System L σ ε ι κ η) (P : Config L σ ε ι → Event ι κ η → Prop)
    (c₀ : Config L σ ε ι) : Config L σ ε ι → Prop
  | init : Reach S P c₀ c₀
  | step : Reach S P c₀ c → P c e → S.next c e = some c' → Reach S P c₀ c'

/-- The run of these events, as long as each of them passes the test. -/
def exec (S : System L σ ε ι κ η) (test : Config L σ ε ι → Event ι κ η → Bool) :
    List (Event ι κ η) → Config L σ ε ι → Option (Config L σ ε ι)
  | [], c => some c
  | e :: es, c => if test c e then (S.next c e).bind (S.exec test es) else none

variable {S : System L σ ε ι κ η} {P P' : Config L σ ε ι → Event ι κ η → Prop}
  {c₀ c c' : Config L σ ε ι}

theorem Reach.trans (h : S.Reach P c₀ c) (h' : S.Reach P c c') : S.Reach P c₀ c' := by
  induction h' with
  | init => exact h
  | step _ hp hn ih => exact ih.step hp hn

theorem Reach.mono (h : S.Reach P c₀ c) (hP : ∀ c e, P c e → P' c e) : S.Reach P' c₀ c := by
  induction h with
  | init => exact .init
  | step _ hp hn ih => exact ih.step (hP _ _ hp) hn

theorem Reach.of_exec {test : Config L σ ε ι → Event ι κ η → Bool} {es : List (Event ι κ η)}
    (ht : ∀ e ∈ es, ∀ c, test c e = true → P c e) (h : S.exec test es c = some c') :
    S.Reach P c c' := by
  induction es generalizing c with
  | nil =>
    cases h
    exact .init
  | cons e es ih =>
    simp only [exec] at h
    split at h
    · next he =>
      obtain ⟨d, hd, hes⟩ := Option.bind_eq_some_iff.mp h
      exact (Reach.init.step (ht e List.mem_cons_self c he) hd).trans
        (ih (fun e' he' => ht e' (List.mem_cons_of_mem e he')) hes)
    · cases h

/-- A run, given by what it shows at its end. -/
theorem Reach.of_exec_map {γ : Type u} {f : Config L σ ε ι → γ} {b : γ}
    {test : Config L σ ε ι → Event ι κ η → Bool} {es : List (Event ι κ η)}
    (ht : ∀ e ∈ es, ∀ c, test c e = true → P c e) (h : (S.exec test es c).map f = some b) :
    ∃ c', S.Reach P c c' ∧ f c' = b := by
  obtain ⟨c', hc', hf⟩ := Option.map_eq_some_iff.mp h
  exact ⟨c', .of_exec ht hc', hf⟩

theorem Reach.invariant {I : Config L σ ε ι → Prop} (h : S.Reach P c₀ c) (hI : I c₀)
    (hstep : ∀ c e c', I c → P c e → S.next c e = some c' → I c') : I c := by
  induction h with
  | init => exact hI
  | step _ hp hn ih => exact hstep _ _ _ ih hp hn

theorem Reach.strengthen {I : Config L σ ε ι → Prop} (hr : S.Reach P c₀ c)
    (hI : ∀ d, S.Reach P c₀ d → I d) : S.Reach (fun d e => P d e ∧ I d) c₀ c := by
  induction hr with
  | init => exact .init
  | step hd hP hn ih => exact ih.step ⟨hP, hI _ hd⟩ hn

/-- An invariant that has been proved may be assumed. -/
theorem Reach.given {C : S.Conduct} {I : σ → Prop} (hr : S.Reach C.Allows c₀ c)
    (hI : ∀ d, S.Reach C.Allows c₀ d → I d.shared) : S.Reach (C.given I).Allows c₀ c := by
  induction hr with
  | init => exact .init
  | @step d e d' hd hP hn ih =>
    refine ih.step ?_ hn
    cases e with
    | start i k => exact hP
    | step i => exact fun l hl => ⟨hP l hl, hI d hd⟩
    | crash i => exact fun l hl => ⟨hP l hl, hI d hd⟩
    | env e => exact ⟨hP, hI d hd⟩

theorem Moving.update {K : σ → σ → Prop} {i : ι} {p : Process L σ ε PUnit} {t : σ}
    (h : Moving K c) (hp : p.Always (fun _ s t => K s t) (fun _ => True)) :
    Moving K ⟨t, Function.update c.pool i p.settle⟩ := by
  intro j q hq
  by_cases hj : j = i
  · subst hj
    simp only [Function.update_self] at hq
    cases p <;> cases hq
    exact hp
  · exact h j q (by simpa [hj] using hq)

variable {C : S.Conduct} {K : σ → σ → Prop}

theorem Along.next (h : S.Along C K) (hc : Moving K c) {e : Event ι κ η} (hP : C.Allows c e)
    (hn : S.next c e = some c') : K c.shared c'.shared ∧ Moving K c' := by
  cases e with
  | start i k =>
    simp only [System.next] at hn
    split at hn <;> cases hn
    exact ⟨h.refl _, hc.update (h.call i k hP)⟩
  | step i =>
    simp only [System.next] at hn
    split at hn <;> cases hn
    next hp => exact ⟨(hc i _ hp c.shared).1, hc.update (hc i _ hp c.shared).2⟩
  | crash i =>
    simp only [System.next] at hn
    split at hn <;> cases hn
    exact ⟨h.crash i _, hc.update (p := .ret ⟨⟩) trivial⟩
  | env e =>
    cases hn
    exact ⟨h.env _ _ hP, hc⟩

theorem Along.reach (h : S.Along C K) (hc : Moving K c) (hr : S.Reach C.Allows c c') :
    K c.shared c'.shared ∧ Moving K c' := by
  induction hr with
  | init => exact ⟨h.refl _, hc⟩
  | step _ hP hn ih =>
    obtain ⟨hk, hm⟩ := ih
    obtain ⟨hk', hm'⟩ := h.next hm hP hn
    exact ⟨h.trans hk hk', hm'⟩

end System

end NoSQLOptimizer.Concurrency
