import NoSQLOptimizer.Concurrency.System

universe u

namespace NoSQLOptimizer.Concurrency

variable {L σ ε ι κ η : Type u} {α β : Type u}

/-- What a session may rely on while others act, and what it owes them: `inv` always holds, others
move the state along `rely i` only, everyone along `grows`, and a session outside its calls
satisfies `idle i`. -/
structure Discipline {S : System L σ ε ι κ η} (C : S.Conduct) where
  inv : σ → Prop
  grows : σ → σ → Prop := fun _ _ => True
  rely : ι → σ → σ → Prop
  rely_grows : ∀ {i s t}, rely i s t → grows s t := by exact fun _ => trivial
  idle : ι → σ → Prop
  refl : ∀ i s, rely i s s
  trans : ∀ {i s t r}, rely i s t → rely i t r → rely i s r
  idle_stable : ∀ {i s t}, idle i s → rely i s t → idle i t

namespace Discipline

variable {S : System L σ ε ι κ η} {C : S.Conduct} (D : Discipline C)

/-- A move of session `i` that the invariant and the other sessions allow. -/
structure Admits (i : ι) (s t : σ) : Prop where
  inv : D.inv t
  grows : D.grows s t
  others : ∀ j, j ≠ i → D.rely j s t

theorem Admits.refl {D : Discipline C} {i : ι} {s : σ} (h : D.inv s) : D.Admits i s s :=
  ⟨h, D.rely_grows (D.refl i s), fun j _ => D.refl j s⟩

/-- Session `i` can run the process to its end, others acting in between, and ends with `Q`. -/
def Safe (i : ι) (Q : Except ε α → σ → Prop) : Process L σ ε α → σ → Prop
  | .ret a, s => ∀ t, D.rely i s t → D.inv t → Q (.ok a) t
  | .fail e, s => ∀ t, D.rely i s t → D.inv t → Q (.error e) t
  | .act l u k, s => ∀ t, D.rely i s t → D.inv t →
      (C.crashes i l t → D.Admits i t (S.crash i t) ∧ D.idle i (S.crash i t)) ∧
      (C.acts i l t → D.Admits i t (u t) ∧ Safe i Q (k t) (u t))

variable {D} {i : ι}

theorem Safe.later {Q : Except ε α → σ → Prop} {p : Process L σ ε α} {s t : σ}
    (h : D.Safe i Q p s) (hr : D.rely i s t) : D.Safe i Q p t := by
  cases p with
  | ret a => exact fun r h' => h r (D.trans hr h')
  | fail e => exact fun r h' => h r (D.trans hr h')
  | act l u k => exact fun r h' => h r (D.trans hr h')

theorem Safe.mono {Q Q' : Except ε α → σ → Prop} {p : Process L σ ε α} {s : σ}
    (h : D.Safe i Q p s) (hQ : ∀ x t, D.inv t → Q x t → Q' x t) : D.Safe i Q' p s := by
  induction p generalizing s with
  | ret a => exact fun t hr hi => hQ _ t hi (h t hr hi)
  | fail e => exact fun t hr hi => hQ _ t hi (h t hr hi)
  | act l u k ih =>
    intro t hr hi
    obtain ⟨hc, ha⟩ := h t hr hi
    exact ⟨hc, fun hl => ⟨(ha hl).1, ih t (ha hl).2⟩⟩

/-- `Q x` holds now and however others go on. -/
def Stably (D : Discipline C) (i : ι) (Q : σ → Prop) (s : σ) : Prop :=
  ∀ t, D.rely i s t → D.inv t → Q t

theorem Stably.now {Q : σ → Prop} {s : σ} (h : D.Stably i Q s) (hs : D.inv s) : Q s :=
  h s (D.refl i s) hs

/-- Sequential composition: the second process starts from what the first one ensures. -/
theorem Safe.bind {Q : Except ε α → σ → Prop} {Q' : Except ε β → σ → Prop}
    {p : Process L σ ε α} {f : α → Process L σ ε β} {s : σ} (h : D.Safe i Q p s) (hs : D.inv s)
    (hf : ∀ a t, D.Stably i (Q (.ok a)) t → D.inv t → D.Safe i Q' (f a) t)
    (he : ∀ e t, D.inv t → Q (.error e) t → Q' (.error e) t) :
    D.Safe i Q' (p.bind f) s := by
  induction p generalizing s with
  | ret a => exact hf a s h hs
  | fail e => exact fun t hr hi => he e t hi (h t hr hi)
  | act l u k ih =>
    intro t hr hi
    obtain ⟨hc, ha⟩ := h t hr hi
    exact ⟨hc, fun hl => ⟨(ha hl).1, ih t (ha hl).2 (ha hl).1.inv⟩⟩

theorem Safe.onExit {Q : Except ε α → σ → Prop} {Q' : Except ε α → σ → Prop}
    {p : Process L σ ε α} {q : Process L σ ε PUnit} {s : σ} (h : D.Safe i Q p s) (hs : D.inv s)
    (hq : ∀ x t, D.Stably i (Q x) t → D.inv t → D.Safe i
      (fun y r => match y with
        | .ok _ => Q' x r
        | .error e => Q' (.error e) r) q t) :
    D.Safe i Q' (p.onExit q) s := by
  induction p generalizing s with
  | ret a => exact (hq _ s h hs).bind hs (fun _ t ht _ => ht) (fun e t _ he => he)
  | fail e => exact (hq _ s h hs).bind hs (fun _ t ht _ => ht) (fun e t _ he => he)
  | act l u k ih =>
    intro t hr hi
    obtain ⟨hc, ha⟩ := h t hr hi
    exact ⟨hc, fun hl => ⟨(ha hl).1, ih t (ha hl).2 (ha hl).1.inv⟩⟩

theorem Safe.rescue {Q Q' : Except ε α → σ → Prop} {p : Process L σ ε α}
    {h : ε → Process L σ ε α} {s : σ} (hp : D.Safe i Q p s) (hs : D.inv s)
    (hok : ∀ a t, D.inv t → Q (.ok a) t → Q' (.ok a) t)
    (he : ∀ e t, D.Stably i (Q (.error e)) t → D.inv t → D.Safe i Q' (h e) t) :
    D.Safe i Q' (p.rescue h) s := by
  induction p generalizing s with
  | ret a => exact fun t hr hi => hok a t hi (hp t hr hi)
  | fail e => exact he e s hp hs
  | act l u k ih =>
    intro t hr hi
    obtain ⟨hc, ha⟩ := hp t hr hi
    exact ⟨hc, fun hl => ⟨(ha hl).1, ih t (ha hl).2 (ha hl).1.inv⟩⟩

/-- A process all of whose actions are harmless to `K`, the invariant and the other sessions. -/
theorem Safe.of_always {T : L → σ → σ → Prop} {Q : Except ε α → Prop} {K : σ → Prop}
    {p : Process L σ ε α} {s : σ} (h : p.Always T Q) (hK : K s)
    (hrely : ∀ s t, D.rely i s t → D.inv t → K s → K t)
    (hcrash : ∀ l s, D.inv s → K s → C.crashes i l s →
      D.Admits i s (S.crash i s) ∧ D.idle i (S.crash i s))
    (hT : ∀ l s t, D.inv s → K s → C.acts i l s → T l s t → D.Admits i s t ∧ K t) :
    D.Safe i (fun x t => Q x ∧ K t) p s := by
  induction p generalizing s with
  | ret a => exact fun t hr hi => ⟨h, hrely s t hr hi hK⟩
  | fail e => exact fun t hr hi => ⟨h, hrely s t hr hi hK⟩
  | act l u k ih =>
    intro t hr hi
    have hKt : K t := hrely s t hr hi hK
    refine ⟨hcrash l t hi hKt, fun hl => ?_⟩
    obtain ⟨hadm, hKu⟩ := hT l t (u t) hi hKt hl (h t).1
    exact ⟨hadm, ih t (h t).2 hKu⟩

/-- The sessions of a configuration, each safe where it stands. -/
structure Holds (D : Discipline C) (c : Config L σ ε ι) : Prop where
  inv : D.inv c.shared
  idle : ∀ i, c.pool i = none → D.idle i c.shared
  safe : ∀ i p, c.pool i = some p → D.Safe i (fun _ => D.idle i) p c.shared

theorem Holds.quiet {s : σ} (hs : D.inv s) (hi : ∀ i, D.idle i s) :
    D.Holds (Config.quiet s : Config L σ ε ι) :=
  ⟨hs, fun i _ => hi i, fun _ _ hp => by cases hp⟩

theorem Safe.settle {p : Process L σ ε PUnit} {s : σ}
    (h : D.Safe i (fun _ => D.idle i) p s) (hs : D.inv s) :
    (p.settle = none → D.idle i s) ∧
      ∀ q, p.settle = some q → D.Safe i (fun _ => D.idle i) q s := by
  cases p with
  | ret a => exact ⟨fun _ => h s (D.refl i s) hs, fun _ hq => by cases hq⟩
  | fail e => exact ⟨fun _ => h s (D.refl i s) hs, fun _ hq => by cases hq⟩
  | act l u k => exact ⟨fun hn => (by cases hn), fun q hq => by cases hq; exact h⟩

variable [DecidableEq ι]

/-- One session moves to `t`, its process becoming `p`; the others keep theirs. -/
theorem Holds.move {c : Config L σ ε ι} {t : σ} {p : Option (Process L σ ε PUnit)}
    (h : D.Holds c) (hadm : D.Admits i c.shared t) (hidle : p = none → D.idle i t)
    (hsafe : ∀ q, p = some q → D.Safe i (fun _ => D.idle i) q t) :
    D.Holds ⟨t, Function.update c.pool i p⟩ := by
  refine ⟨hadm.inv, fun j hj => ?_, fun j q hj => ?_⟩
  · by_cases hji : j = i
    · subst hji
      exact hidle (by simpa using hj)
    · exact D.idle_stable (h.idle j (by simpa [hji] using hj)) (hadm.others j hji)
  · by_cases hji : j = i
    · subst hji
      exact hsafe q (by simpa using hj)
    · exact (h.safe j q (by simpa [hji] using hj)).later (hadm.others j hji)

/-- What the calls and the surroundings of a system owe the discipline. -/
structure Governs (D : Discipline C) : Prop where
  start : ∀ i k s, C.starts k → D.inv s → D.idle i s →
    D.Safe i (fun _ => D.idle i) (S.call i k) s
  env : ∀ s t, C.env s t → D.inv s → D.inv t ∧ ∀ j, D.rely j s t

variable {c c' c₀ : Config L σ ε ι}

theorem Holds.next (h : D.Holds c) (hG : D.Governs) {e : Event ι κ η} (hP : C.Allows c e)
    (hn : S.next c e = some c') : D.Holds c' := by
  cases e with
  | start i k =>
    simp only [System.next] at hn
    split at hn
    · next hnone =>
      cases hn
      have hs := (hG.start i k _ hP h.inv (h.idle i (by simpa using hnone))).settle h.inv
      exact h.move (.refl h.inv) hs.1 hs.2
    · cases hn
  | step i =>
    simp only [System.next] at hn
    split at hn
    · next l u k hp =>
      cases hn
      have hl : c.label i = some l := by simp [Config.label, hp, Process.label]
      obtain ⟨hadm, hsafe⟩ :=
        (h.safe i _ hp c.shared (D.refl i _) h.inv).2 (hP l hl)
      exact h.move hadm (hsafe.settle hadm.inv).1 (hsafe.settle hadm.inv).2
    · cases hn
  | crash i =>
    simp only [System.next] at hn
    split at hn
    · next l u k hp =>
      cases hn
      have hl : c.label i = some l := by simp [Config.label, hp, Process.label]
      obtain ⟨hadm, hidle⟩ :=
        (h.safe i _ hp c.shared (D.refl i _) h.inv).1 (hP l hl)
      exact h.move hadm (fun _ => hidle) (fun q hq => by cases hq)
    · cases hn
  | env e =>
    cases hn
    obtain ⟨hinv, hrely⟩ := hG.env _ _ hP h.inv
    exact ⟨hinv, fun i hi => D.idle_stable (h.idle i hi) (hrely i),
      fun i p hp => (h.safe i p hp).later (hrely i)⟩

/-- The parallel composition rule: sessions that are safe one by one are safe together. -/
theorem Holds.reach (h : D.Holds c₀) (hG : D.Governs) (hr : S.Reach C.Allows c₀ c) : D.Holds c :=
  hr.invariant h (fun _ _ _ hc hP hn => hc.next hG hP hn)

end Discipline

end NoSQLOptimizer.Concurrency
