import NoSQLOptimizer.Concurrency.System

universe u

namespace NoSQLOptimizer.Concurrency

variable {L σ ε ι κ η : Type u} {α β : Type u}

/-- What a process has done up to now: its actions, and the states it saw, oldest first. -/
inductive Trail (p : Process L σ ε α) : List (L × σ) → Process L σ ε α → Prop
  | init : Trail p [] p
  | snoc : Trail p past (.act l u k) → Trail p (past ++ [(l, s)]) (k s)

namespace Process

/-- Every action comes after a past that `T` asks of it, and every result after one that `Q` asks
of it, whatever states the process sees. -/
def Traced (T : List (L × σ) → L → σ → Prop) (Q : List (L × σ) → α → Prop) :
    List (L × σ) → Process L σ ε α → Prop
  | past, .ret a => Q past a
  | _, .fail _ => True
  | past, .act l _ k => ∀ s, T past l s ∧ (k s).Traced T Q (past ++ [(l, s)])

variable {T : List (L × σ) → L → σ → Prop} {Q : List (L × σ) → α → Prop} {past : List (L × σ)}

theorem Traced.bind {R : List (L × σ) → β → Prop} {p : Process L σ ε α}
    {f : α → Process L σ ε β} (h : p.Traced T Q past)
    (hf : ∀ a past', Q past' a → (f a).Traced T R past') : (p.bind f).Traced T R past := by
  induction p generalizing past with
  | ret a => exact hf a past h
  | fail e => trivial
  | act l u k ih => exact fun s => ⟨(h s).1, ih s (h s).2⟩

theorem Traced.read {l : L} {f : σ → α} (hT : ∀ s, T past l s)
    (hQ : ∀ s, Q (past ++ [(l, s)]) (f s)) : (Process.read (ε := ε) l f).Traced T Q past :=
  fun s => ⟨hT s, hQ s⟩

/-- Where the past suffices for whatever is still to come, it is enough to know the actions. -/
theorem Traced.of_always {B : L → σ → σ → Prop} {O : Except ε α → Prop} {p : Process L σ ε α}
    (h : p.Always B O) (hB : ∀ rest l s t, B l s t → T (past ++ rest) l s) :
    p.Traced T (fun _ _ => True) past := by
  induction p generalizing past with
  | ret a => trivial
  | fail e => trivial
  | act l u k ih =>
    refine fun s => ⟨by simpa using hB [] l s _ (h s).1, ih s (h s).2 (fun rest l' s' t' hl => ?_)⟩
    simpa using hB ((l, s) :: rest) l' s' t' hl

theorem Traced.along {p q : Process L σ ε α} (h : p.Traced T Q []) (hq : Trail p past q) :
    q.Traced T Q past := by
  induction hq with
  | init => exact h
  | snoc _ ih => exact (ih _).2

end Process

/-- The session that an event is of. -/
def Event.session : Event ι κ η → Option ι
  | .start i _ => some i
  | .step i => some i
  | .crash i => some i
  | .env _ => none

namespace System

/-- The events that leave session `i` in the call it is in. -/
def During (P : Config L σ ε ι → Event ι κ η → Prop) (i : ι) (c : Config L σ ε ι)
    (e : Event ι κ η) : Prop :=
  P c e ∧ (e = .step i ∨ e.session ≠ some i)

/-- The states in which the actions were taken. -/
def seen (past : List (L × Config L σ ε ι)) : List (L × σ) := past.map (fun e => (e.1, e.2.shared))

theorem seen_eq_append {past : List (L × Config L σ ε ι)} {before after : List (L × σ)}
    (h : seen past = before ++ after) :
    ∃ past₁ past₂, past = past₁ ++ past₂ ∧ seen past₁ = before ∧ seen past₂ = after :=
  List.map_eq_append_iff.mp h

theorem seen_eq_cons {past : List (L × Config L σ ε ι)} {l : L} {s : σ} {after : List (L × σ)}
    (h : seen past = (l, s) :: after) :
    ∃ d past', past = (l, d) :: past' ∧ d.shared = s ∧ seen past' = after := by
  obtain ⟨⟨l', d⟩, past', rfl, hd, hafter⟩ := List.map_eq_cons_iff.mp h
  cases hd
  exact ⟨d, past', rfl, rfl, hafter⟩

variable [DecidableEq ι]

/-- Before `c`, in the call that it is in there, session `i` took the action `l` at `d`. -/
structure Earlier (S : System L σ ε ι κ η) (P : Config L σ ε ι → Event ι κ η → Prop) (i : ι)
    (l : L) (d c : Config L σ ε ι) : Prop where
  label : d.label i = some l
  during : S.Reach (During P i) d c

/-- How a call of session `i` has come to `c`: its actions, and the configurations they were taken
in. -/
inductive Progress (S : System L σ ε ι κ η) (P : Config L σ ε ι → Event ι κ η → Prop)
    (c₀ : Config L σ ε ι) (i : ι) (k : κ) : List (L × Config L σ ε ι) → Config L σ ε ι → Prop
  | start : S.Reach P c₀ c → P c (.start i k) → S.next c (.start i k) = some c' →
      Progress S P c₀ i k [] c'
  | own : Progress S P c₀ i k past c → c.label i = some l → P c (.step i) →
      S.next c (.step i) = some c' → Progress S P c₀ i k (past ++ [(l, c)]) c'
  | other : Progress S P c₀ i k past c → P c e → e.session ≠ some i → S.next c e = some c' →
      Progress S P c₀ i k past c'

variable {S : System L σ ε ι κ η} {P : Config L σ ε ι → Event ι κ η → Prop}
  {c₀ c d : Config L σ ε ι} {i : ι}

theorem next_other {c' : Config L σ ε ι} {e : Event ι κ η} (hn : S.next c e = some c')
    (he : e.session ≠ some i) : c'.pool i = c.pool i := by
  have hne : ∀ j, (some j : Option ι) ≠ some i → i ≠ j := fun j h hij => h (by rw [hij])
  cases e with
  | start j k =>
    simp only [next] at hn
    split at hn <;> cases hn
    exact Function.update_of_ne (hne j he) _ _
  | step j =>
    simp only [next] at hn
    split at hn <;> cases hn
    exact Function.update_of_ne (hne j he) _ _
  | crash j =>
    simp only [next] at hn
    split at hn <;> cases hn
    exact Function.update_of_ne (hne j he) _ _
  | env e =>
    cases hn
    rfl

/-- Where all events are of one session or of none, no other session is in a call. -/
theorem Reach.alone {s₀ : σ} (hr : S.Reach P (.quiet s₀) c)
    (hP : ∀ c e, P c e → ∀ j, j ≠ i → e.session ≠ some j) (j : ι) (hj : j ≠ i) : c.label j = none := by
  have hpool : c.pool j = none := by
    induction hr with
    | init => rfl
    | step _ he hn ih => exact (next_other hn (hP _ _ he j hj)).trans ih
  simp [Config.label, hpool]

theorem settle_eq_some {p q : Process L σ ε PUnit} (h : p.settle = some q) : p = q := by
  cases p <;> cases h
  rfl

variable {k : κ} {past : List (L × Config L σ ε ι)}

theorem Progress.trail {q : Process L σ ε PUnit} (h : S.Progress P c₀ i k past c)
    (hq : c.pool i = some q) : Trail (S.call i k) (seen past) q := by
  induction h generalizing q with
  | start _ _ hn =>
    simp only [next] at hn
    split at hn
    · cases hn
      obtain rfl := settle_eq_some (by simpa using hq)
      exact .init
    · cases hn
  | @own past c l c' _ hl _ hn ih =>
    simp only [next] at hn
    split at hn
    · next l' u k' hp =>
      cases hn
      obtain rfl : l' = l := by simpa [Config.label, hp, Process.label] using hl
      obtain rfl := settle_eq_some (by simpa using hq)
      simpa [seen] using (ih hp).snoc (s := c.shared)
    · cases hn
  | other _ _ he hn ih => exact ih ((next_other hn he).symm.trans hq)

theorem Progress.earlier (before : List (L × Config L σ ε ι)) {later : List (L × Config L σ ε ι)} {l : L}
    (h : S.Progress P c₀ i k (before ++ (l, d) :: later) c) :
    S.Progress P c₀ i k before d ∧ S.Earlier P i l d c := by
  generalize hall : before ++ (l, d) :: later = all at h
  induction h generalizing later with
  | start => simp at hall
  | @own past c l' c' hpast hl hP hn ih =>
    rcases List.eq_nil_or_concat later with rfl | ⟨later, last, rfl⟩
    · obtain ⟨rfl, hlast⟩ := List.append_inj' hall rfl
      cases hlast
      exact ⟨hpast, hl, .step .init ⟨hP, .inl rfl⟩ hn⟩
    · have hall' : (before ++ (l, d) :: later) ++ [last] = past ++ [(l', c)] := by simpa using hall
      obtain ⟨hpre, hearlier⟩ := ih (List.append_inj' hall' rfl).1
      exact ⟨hpre, hearlier.label, hearlier.during.step ⟨hP, .inl rfl⟩ hn⟩
  | other _ hP he hn ih =>
    obtain ⟨hpre, hearlier⟩ := ih hall
    exact ⟨hpre, hearlier.label, hearlier.during.step ⟨hP, .inr he⟩ hn⟩

/-- Of two actions in a row the first came before the second. -/
theorem Progress.next {before later : List (L × Config L σ ε ι)} {l l' : L} {d' : Config L σ ε ι}
    (h : S.Progress P c₀ i k (before ++ (l, d) :: (l', d') :: later) c) : S.Earlier P i l d d' := by
  have h' : S.Progress P c₀ i k ((before ++ [(l, d)]) ++ (l', d') :: later) c := by simpa using h
  exact ((h'.earlier _).1.earlier _).2

theorem Progress.reach (h : S.Progress P c₀ i k past c) : S.Reach P c₀ c := by
  induction h with
  | start hr hP hn => exact hr.step hP hn
  | own _ _ hP hn ih => exact ih.step hP hn
  | other _ hP _ hn ih => exact ih.step hP hn

/-- A session that is in a call has come to where it is through that call. -/
theorem Reach.progress {s₀ : σ} (hr : S.Reach P (.quiet s₀) c) {q : Process L σ ε PUnit}
    (hq : c.pool i = some q) : ∃ k past, S.Progress P (.quiet s₀) i k past c := by
  induction hr generalizing q with
  | init => cases hq
  | @step c e c' hr hP hn ih =>
    by_cases he : e.session = some i
    · cases e with
      | start j k =>
        cases he
        exact ⟨k, [], .start hr hP hn⟩
      | step j =>
        cases he
        cases hp : c.pool i with
        | none => simp [next, hp] at hn
        | some p =>
          obtain ⟨k, past, hpast⟩ := ih hp
          cases hl : c.label i with
          | none =>
            cases p <;> simp [Config.label, hp, Process.label, next] at hl hn
          | some l => exact ⟨k, _, hpast.own hl hP hn⟩
      | crash j =>
        cases he
        simp only [next] at hn
        split at hn
        · cases hn
          simp at hq
        · cases hn
      | env e => cases he
    · obtain ⟨k, past, hpast⟩ := ih ((next_other hn he).symm.trans hq)
      exact ⟨k, past, hpast.other hP he hn⟩

/-- A session about to act does so within a call, after a past that the call's trace asks for. -/
theorem Reach.traced {s₀ : σ} {T : κ → List (L × σ) → L → σ → Prop} {l : L}
    (hr : S.Reach P (.quiet s₀) c) (hl : c.label i = some l)
    (hT : ∀ k, (S.call i k).Traced (T k) (fun _ _ => True) []) :
    ∃ k past, S.Progress P (.quiet s₀) i k past c ∧ T k (seen past) l c.shared := by
  cases hq : c.pool i with
  | none => simp [Config.label, hq] at hl
  | some q =>
    obtain ⟨k, past, hpast⟩ := hr.progress hq
    have htraced := (hT k).along (hpast.trail hq)
    cases q with
    | ret a => simp [Config.label, hq, Process.label] at hl
    | fail e => simp [Config.label, hq, Process.label] at hl
    | act l' u k' =>
      obtain rfl : l' = l := by simpa [Config.label, hq, Process.label] using hl
      exact ⟨k, past, hpast, (htraced c.shared).1⟩

end System

end NoSQLOptimizer.Concurrency
