import NoSQLOptimizer.Concurrency.RelyGuarantee

universe u

namespace NoSQLOptimizer.Concurrency

variable {L σ ε ι κ η : Type u} {α β : Type u}

namespace Discipline

variable {S : System L σ ε ι κ η} {C : S.Conduct} (D : Discipline C)

/-- Others cannot falsify `K`. -/
def Stable (i : ι) (K : σ → Prop) : Prop := ∀ ⦃s t⦄, D.rely i s t → D.inv t → K s → K t

/-- Nobody can falsify `K`. -/
def Permanent (K : σ → Prop) : Prop := ∀ ⦃s t⦄, D.grows s t → D.inv t → K s → K t

/-- Where `K` holds, a crash of the session does no harm. -/
def Crashable (i : ι) (K : σ → Prop) : Prop := ∀ ⦃l s⦄, D.inv s → K s → C.crashes i l s →
  D.Admits i s (S.crash i s) ∧ D.idle i (S.crash i s)

/-- A move that nobody minds, the session that makes it included. -/
def Neutral (s t : σ) : Prop := D.inv t ∧ ∀ j, D.rely j s t

/-- From `K` the session runs `p` safely; a result `a` comes with `Q a`, an exception with `E`. -/
def Triple (i : ι) (K : σ → Prop) (p : Process L σ ε α) (Q : α → σ → Prop) (E : ε → σ → Prop) :
    Prop :=
  ∀ s, D.inv s → K s → D.Safe i (fun x t => match x with
    | .ok a => Q a t
    | .error e => E e t) p s

variable {D} {i : ι} {K K' : σ → Prop} {E E' : ε → σ → Prop}

theorem Stable.const (p : Prop) : D.Stable i (fun _ => p) := fun _ _ _ _ h => h

theorem Stable.and (h : D.Stable i K) (h' : D.Stable i K') : D.Stable i (fun s => K s ∧ K' s) :=
  fun _ _ hr hi hK => ⟨h hr hi hK.1, h' hr hi hK.2⟩

theorem Stable.imp {p : Prop} (h : D.Stable i K) : D.Stable i (fun s => p → K s) :=
  fun _ _ hr hi hK hp => h hr hi (hK hp)

theorem Stable.ex {Q : α → σ → Prop} (h : ∀ a, D.Stable i (Q a)) :
    D.Stable i (fun s => ∃ a, Q a s) :=
  fun _ _ hr hi hK => hK.imp (fun a ha => h a hr hi ha)

theorem Stable.all {Q : α → σ → Prop} (h : ∀ a, D.Stable i (Q a)) :
    D.Stable i (fun s => ∀ a, Q a s) :=
  fun _ _ hr hi hK a => h a hr hi (hK a)

theorem Stable.opt {o : Option α} {Q : α → σ → Prop} (h : ∀ a, D.Stable i (Q a)) :
    D.Stable i (fun s => ∀ a, o = some a → Q a s) :=
  fun _ _ hr hi hK a ho => h a hr hi (hK a ho)

theorem Permanent.stable (h : D.Permanent K) : D.Stable i K :=
  fun _ _ hr hi hK => h (D.rely_grows hr) hi hK

theorem Crashable.mono (h : D.Crashable i K) (hK : ∀ s, D.inv s → K' s → K s) :
    D.Crashable i K' :=
  fun _ s hi hk hc => h hi (hK s hi hk) hc

theorem Neutral.admits {s t : σ} (h : D.Neutral s t) : D.Admits i s t :=
  ⟨h.1, D.rely_grows (h.2 i), fun j _ => h.2 j⟩

theorem Neutral.refl {s : σ} (h : D.inv s) : D.Neutral s s := ⟨h, fun j => D.refl j s⟩

namespace Triple

variable {Q Q' : α → σ → Prop} {R : β → σ → Prop} {p : Process L σ ε α}
  {f : α → Process L σ ε β}

theorem conseq (h : D.Triple i K p Q E) (hK : ∀ s, D.inv s → K' s → K s)
    (hQ : ∀ a s, D.inv s → Q a s → Q' a s) (hE : ∀ e s, D.inv s → E e s → E' e s) :
    D.Triple i K' p Q' E' := by
  intro s hs hk
  refine (h s hs (hK s hs hk)).mono ?_
  intro x t ht hx
  cases x with
  | ok a => exact hQ a t ht hx
  | error e => exact hE e t ht hx

theorem pre (h : D.Triple i K p Q E) (hK : ∀ s, D.inv s → K' s → K s) : D.Triple i K' p Q E :=
  h.conseq hK (fun _ _ _ h => h) (fun _ _ _ h => h)

theorem post (h : D.Triple i K p Q E) (hQ : ∀ a s, D.inv s → Q a s → Q' a s) :
    D.Triple i K p Q' E :=
  h.conseq (fun _ _ h => h) hQ (fun _ _ _ h => h)

/-- A fact about no state may be taken out of the precondition. -/
theorem assuming {φ : Prop} (h : φ → D.Triple i K p Q E) : D.Triple i (fun s => K s ∧ φ) p Q E :=
  fun s hs hk => h hk.2 s hs hk.1

theorem ret {a : α} (hK : D.Stable i K) (h : ∀ s, D.inv s → K s → Q a s) :
    D.Triple i K (.ret a) Q E :=
  fun _ _ hk t hr ht => h t ht (hK hr ht hk)

theorem fail {e : ε} (hK : D.Stable i K) (h : ∀ s, D.inv s → K s → E e s) :
    D.Triple i K (.fail e : Process L σ ε α) Q E :=
  fun _ _ hk t hr ht => h t ht (hK hr ht hk)

theorem bind (h : D.Triple i K p Q E) (hf : ∀ a, D.Triple i (Q a) (f a) R E) :
    D.Triple i K (p >>= f) R E := by
  intro s hs hk
  refine (h s hs hk).bind hs ?_ (fun e t _ he => he)
  exact fun a t ht hi => hf a t hi (ht.now hi)

theorem onExit {q : Process L σ ε PUnit} {Qf : α → σ → Prop} {Ef : ε → σ → Prop}
    (h : D.Triple i K p Q E) (hq : ∀ a, D.Triple i (Q a) q (fun _ => Qf a) Ef)
    (he : ∀ e, D.Triple i (E e) q (fun _ => Ef e) Ef) : D.Triple i K (p.onExit q) Qf Ef := by
  intro s hs hk
  refine (h s hs hk).onExit hs ?_
  intro x t ht hi
  cases x with
  | ok a =>
    refine (hq a t hi (ht.now hi)).mono ?_
    rintro (_ | _) r _ hr <;> exact hr
  | error e =>
    refine (he e t hi (ht.now hi)).mono ?_
    rintro (_ | _) r _ hr <;> exact hr

theorem rescue {h : ε → Process L σ ε α} (hp : D.Triple i K p Q E)
    (hh : ∀ e, D.Triple i (E e) (h e) Q E') : D.Triple i K (p.rescue h) Q E' := by
  intro s hs hk
  refine (hp s hs hk).rescue hs (fun _ _ _ hx => hx) ?_
  exact fun e t ht hi => hh e t hi (ht.now hi)

/-- What is permanent holds throughout. -/
theorem keep (h : D.Triple i K p Q E) (hP : D.Permanent K') :
    D.Triple i (fun s => K' s ∧ K s) p (fun a s => K' s ∧ Q a s) E := by
  intro s hs hk
  have hsafe := h s hs hk.2
  have hk' := hk.1
  clear hk h
  induction p generalizing s with
  | ret a => exact fun t hr ht => ⟨hP (D.rely_grows hr) ht hk', hsafe t hr ht⟩
  | fail e => exact fun t hr ht => hsafe t hr ht
  | act l u k ih =>
    intro t hr ht
    obtain ⟨hc, ha⟩ := hsafe t hr ht
    have hkt := hP (D.rely_grows hr) ht hk'
    exact ⟨hc, fun hl => ⟨(ha hl).1, ih t (u t) (ha hl).1.inv (ha hl).2
      (hP (ha hl).1.grows (ha hl).1.inv hkt)⟩⟩

/-- One action: admitted, and the rest runs from where it leads. -/
theorem act {l : L} {u : σ → σ} {k : σ → Process L σ ε α} (hK : D.Stable i K)
    (hc : D.Crashable i K)
    (h : ∀ s, D.inv s → K s → C.acts i l s →
      D.Admits i s (u s) ∧ D.Triple i (fun t => t = u s) (k s) Q E) :
    D.Triple i K (.act l u k) Q E := by
  intro s _ hk t hr ht
  have hkt : K t := hK hr ht hk
  refine ⟨hc ht hkt, fun hl => ?_⟩
  obtain ⟨hadm, hrest⟩ := h t ht hkt hl
  exact ⟨hadm, hrest (u t) hadm.inv rfl⟩

theorem read {l : L} {f : σ → α} (hK : D.Stable i K) (hc : D.Crashable i K)
    (hQ : ∀ a, D.Stable i (Q a)) (h : ∀ s, D.inv s → K s → C.acts i l s → Q (f s) s) :
    D.Triple i K (Process.read l f) Q E := by
  refine act hK hc (fun s hs hk hl => ⟨.refl hs, ?_⟩)
  rintro t ht rfl r hr hi
  exact hQ _ hr hi (h _ hs hk hl)

theorem when {b : Bool} {p : Process L σ ε PUnit} {R : σ → Prop} (hK : D.Stable i K)
    (ht : b = true → D.Triple i K p (fun _ => R) E) (hf : ∀ s, b = false → D.inv s → K s → R s) :
    D.Triple i K (Process.when b p) (fun _ => R) E := by
  cases b with
  | true => exact ht rfl
  | false => exact ret hK (fun s hs hk => hf s rfl hs hk)

theorem raiseIf {b : Bool} {e : ε} (hK : D.Stable i K) (hE : ∀ s, D.inv s → K s → E e s) :
    D.Triple i K (Process.raiseIf b e) (fun _ s => K s ∧ b = false) E := by
  cases b with
  | true => exact fail hK hE
  | false => exact ret hK (fun _ _ hk => ⟨hk, rfl⟩)

theorem ofExcept {x : Except ε α} (hK : D.Stable i K) (hE : ∀ e s, D.inv s → K s → E e s) :
    D.Triple i K (Process.ofExcept x) (fun a s => K s ∧ x = .ok a) E := by
  cases x with
  | ok a => exact ret hK (fun _ _ hk => ⟨hk, rfl⟩)
  | error e => exact fail hK (hE e)

theorem modify {l : L} {f : σ → σ} {Q : PUnit → σ → Prop} (hK : D.Stable i K)
    (hc : D.Crashable i K) (hQ : D.Stable i (Q ⟨⟩))
    (h : ∀ s, D.inv s → K s → C.acts i l s → D.Admits i s (f s) ∧ Q ⟨⟩ (f s)) :
    D.Triple i K (Process.modify l f) Q E := by
  refine act hK hc (fun s hs hk hl => ⟨(h s hs hk hl).1, ?_⟩)
  rintro t ht rfl r hr hi
  exact hQ hr hi (h s hs hk hl).2

theorem atomic {l : L} {T : σ → Except ε (α × σ)} (hK : D.Stable i K) (hc : D.Crashable i K)
    (hQ : ∀ a, D.Stable i (Q a)) (hE : ∀ e, D.Stable i (E e))
    (hok : ∀ s a t, D.inv s → K s → C.acts i l s → T s = .ok (a, t) → D.Admits i s t ∧ Q a t)
    (herr : ∀ s e, D.inv s → K s → C.acts i l s → T s = .error e → E e s) :
    D.Triple i K (Process.atomic l T) Q E := by
  refine act hK hc (fun s hs hk hl => ?_)
  cases h : T s with
  | ok r =>
    obtain ⟨hadm, hq⟩ := hok s r.1 r.2 hs hk hl h
    refine ⟨hadm, ?_⟩
    rintro t ht rfl r' hr hi
    exact hQ _ hr hi hq
  | error e =>
    refine ⟨.refl hs, ?_⟩
    rintro t ht rfl r' hr hi
    exact hE _ hr hi (herr _ e hs hk hl h)

/-- A process whose every action, from `K`, is admitted and leads to `K`. -/
theorem always {T : L → σ → σ → Prop} {O : Except ε α → Prop} (h : p.Always T O)
    (hT : ∀ l s t, D.inv s → K s → C.acts i l s → T l s t → D.Admits i s t ∧ K t)
    (hK : D.Stable i K) (hc : D.Crashable i K) (hQ : ∀ a s, D.inv s → O (.ok a) → K s → Q a s)
    (hE : ∀ e s, D.inv s → O (.error e) → K s → E e s) : D.Triple i K p Q E := by
  intro s hs hk
  refine (Safe.of_always (K := K) h hk (fun _ _ hr hi hk => hK hr hi hk)
    (fun _ _ hi hk hl => hc hi hk hl) hT).mono ?_
  intro x t ht hx
  cases x with
  | ok a => exact hQ a t ht hx.1 hx.2
  | error e => exact hE e t ht hx.1 hx.2

/-- A process all of whose actions are neutral leaves `K` alone. -/
theorem neutral {T : L → σ → σ → Prop} {O : Except ε α → Prop} (h : p.Always T O)
    (hT : ∀ l s t, D.inv s → C.acts i l s → T l s t → D.Neutral s t) (hK : D.Stable i K)
    (hc : D.Crashable i K) (hQ : ∀ a s, D.inv s → O (.ok a) → K s → Q a s)
    (hE : ∀ e s, D.inv s → O (.error e) → K s → E e s) : D.Triple i K p Q E := by
  refine always h (fun l s t hi hk hl ht => ?_) hK hc hQ hE
  obtain ⟨ht, hrely⟩ := hT l s t hi hl ht
  exact ⟨Neutral.admits ⟨ht, hrely⟩, hK (hrely i) ht hk⟩

/-- So does a process that only reads. -/
theorem still {O : Except ε α → Prop} (h : p.Always (fun _ s t => t = s) O) (hK : D.Stable i K)
    (hc : D.Crashable i K) (hQ : ∀ a s, D.inv s → O (.ok a) → K s → Q a s)
    (hE : ∀ e s, D.inv s → O (.error e) → K s → E e s) : D.Triple i K p Q E := by
  refine neutral h ?_ hK hc hQ hE
  rintro _ s _ hs - rfl
  exact Neutral.refl hs

/-- With no one else acting the process comes to an end, and there the triple tells of it. -/
theorem run (h : D.Triple i K p Q E) (hacts : ∀ l s, C.acts i l s) {s t : σ} {x : Except ε α}
    (hs : D.inv s) (hk : K s) (hrun : p.run s = (x, t)) :
    D.inv t ∧ (∀ a, x = .ok a → Q a t) ∧ ∀ e, x = .error e → E e t := by
  have hsafe := h s hs hk
  clear h hk
  induction p generalizing s with
  | ret a =>
    cases hrun
    have hq := hsafe t (D.refl i t) hs
    exact ⟨hs, fun _ ha => by cases ha; exact hq, fun _ he => by cases he⟩
  | fail e =>
    cases hrun
    have hq := hsafe t (D.refl i t) hs
    exact ⟨hs, fun _ ha => (by cases ha), fun _ he => by cases he; exact hq⟩
  | act l u k ih =>
    obtain ⟨hadm, hrest⟩ := (hsafe s (D.refl i s) hs).2 (hacts l s)
    exact ih s hadm.inv hrun hrest

end Triple

theorem Governs.of_triples
    (hstart : ∀ i k, C.starts k → D.Triple i (D.idle i) (S.call i k) (fun _ => D.idle i)
      (fun _ => D.idle i))
    (henv : ∀ s t, C.env s t → D.inv s → D.Neutral s t) : D.Governs where
  start i k s hk hs hidle := by
    refine (hstart i k hk s hs hidle).mono ?_
    rintro (_ | _) t _ ht <;> exact ht
  env := henv

end Discipline

end NoSQLOptimizer.Concurrency
