import NoSQLOptimizer.Concurrency.System

universe u

namespace NoSQLOptimizer.Concurrency

namespace Process

variable {L L' σ σ' ε α β : Type u} {bad : σ → Prop} {m : L → Prop}

/-- An action of the kind `m` comes next. -/
def Next (m : L → Prop) : Process L σ ε α → Prop
  | .act l _ _ => m l
  | _ => False

/-- No action that sees a state of `bad` is followed by one of the kind `m`. -/
def Fenced (bad : σ → Prop) (m : L → Prop) : Process L σ ε α → Prop
  | .act _ _ k => ∀ s, (bad s → ¬ (k s).Next m) ∧ (k s).Fenced bad m
  | _ => True

/-- Nor does the process begin with one. -/
structure Fences (bad : σ → Prop) (m : L → Prop) (p : Process L σ ε α) : Prop where
  head (s : σ) : ¬ p.Next m
  tail : p.Fenced bad m

theorem not_next_bind {p : Process L σ ε α} {f : α → Process L σ ε β} (hp : ¬ p.Next m)
    (hf : ∀ a, ¬ (f a).Next m) : ¬ (p.bind f).Next m := by
  cases p with
  | ret a => exact hf a
  | fail e => exact id
  | act l u k => exact hp

theorem not_next_onExit {p : Process L σ ε α} {q : Process L σ ε PUnit} (hp : ¬ p.Next m)
    (hq : ¬ q.Next m) : ¬ (p.onExit q).Next m := by
  cases p with
  | ret a => exact not_next_bind hq (fun _ => id)
  | fail e => exact not_next_bind hq (fun _ => id)
  | act l u k => exact hp

theorem not_next_rescue {p : Process L σ ε α} {h : ε → Process L σ ε α} (hp : ¬ p.Next m)
    (hh : ∀ e, ¬ (h e).Next m) : ¬ (p.rescue h).Next m := by
  cases p with
  | ret a => exact id
  | fail e => exact hh e
  | act l u k => exact hp

theorem Fenced.bind {p : Process L σ ε α} {f : α → Process L σ ε β} (hp : p.Fenced bad m)
    (hf : ∀ a, (f a).Fences bad m) : (p.bind f).Fenced bad m := by
  induction p with
  | ret a => exact (hf a).tail
  | fail e => trivial
  | act l u k ih =>
    exact fun s => ⟨fun hs => not_next_bind ((hp s).1 hs) (fun a => (hf a).head s), ih s (hp s).2⟩

theorem Fenced.onExit {p : Process L σ ε α} {q : Process L σ ε PUnit} (hp : p.Fenced bad m)
    (hq : q.Fences bad m) : (p.onExit q).Fenced bad m := by
  induction p with
  | ret a => exact hq.tail.bind (fun _ => ⟨fun _ => id, trivial⟩)
  | fail e => exact hq.tail.bind (fun _ => ⟨fun _ => id, trivial⟩)
  | act l u k ih =>
    exact fun s => ⟨fun hs => not_next_onExit ((hp s).1 hs) (hq.head s), ih s (hp s).2⟩

theorem Fenced.rescue {p : Process L σ ε α} {h : ε → Process L σ ε α} (hp : p.Fenced bad m)
    (hh : ∀ e, (h e).Fences bad m) : (p.rescue h).Fenced bad m := by
  induction p with
  | ret a => trivial
  | fail e => exact (hh e).tail
  | act l u k ih =>
    exact fun s => ⟨fun hs => not_next_rescue ((hp s).1 hs) (fun e => (hh e).head s), ih s (hp s).2⟩

theorem next_attempt {p : Process L σ ε α} : p.attempt.Next m ↔ p.Next m := by
  cases p <;> exact Iff.rfl

namespace Fences

theorem ret (a : α) : (Process.ret a : Process L σ ε α).Fences bad m := ⟨fun _ => id, trivial⟩

theorem fail (e : ε) : (Process.fail e : Process L σ ε α).Fences bad m := ⟨fun _ => id, trivial⟩

theorem act {l : L} {u : σ → σ} {k : σ → Process L σ ε α} (hl : ¬ m l)
    (hk : ∀ s, (k s).Fences bad m) : (Process.act l u k).Fences bad m :=
  ⟨fun _ => hl, fun s => ⟨fun _ => (hk s).head s, (hk s).tail⟩⟩

theorem bind {p : Process L σ ε α} {f : α → Process L σ ε β} (hp : p.Fences bad m)
    (hf : ∀ a, (f a).Fences bad m) : (p.bind f).Fences bad m :=
  ⟨fun s => not_next_bind (hp.head s) (fun a => (hf a).head s), hp.tail.bind hf⟩

theorem onExit {p : Process L σ ε α} {q : Process L σ ε PUnit} (hp : p.Fences bad m)
    (hq : q.Fences bad m) : (p.onExit q).Fences bad m :=
  ⟨fun s => not_next_onExit (hp.head s) (hq.head s), hp.tail.onExit hq⟩

theorem rescue {p : Process L σ ε α} {h : ε → Process L σ ε α} (hp : p.Fences bad m)
    (hh : ∀ e, (h e).Fences bad m) : (p.rescue h).Fences bad m :=
  ⟨fun s => not_next_rescue (hp.head s) (fun e => (hh e).head s), hp.tail.rescue hh⟩

/-- A process without such an action. -/
theorem of_always {T : L → σ → σ → Prop} {Q : Except ε α → Prop} {p : Process L σ ε α}
    (h : p.Always T Q) (hT : ∀ l s t, T l s t → ¬ m l) : p.Fences bad m := by
  induction p with
  | ret a => exact .ret a
  | fail e => exact .fail e
  | act l u k ih =>
    exact ⟨fun s => hT l s _ (h s).1,
      fun s => ⟨fun _ => (ih s (h s).2).head s, (ih s (h s).2).tail⟩⟩

theorem attempt {p : Process L σ ε α} (hp : p.Fences bad m) : p.attempt.Fences bad m := by
  have htail : ∀ q : Process L σ ε α, q.Fenced bad m → q.attempt.Fenced bad m := by
    intro q hq
    induction q with
    | ret a => trivial
    | fail e => trivial
    | act l u k ih =>
      exact fun s => ⟨fun hs hn => (hq s).1 hs (next_attempt.mp hn), ih s (hq s).2⟩
  exact ⟨fun s hn => hp.head s (next_attempt.mp hn), htail p hp.tail⟩

/-- One that looks first, and raises in a state of `bad`. -/
theorem check {l : L} {b : σ → Bool} {e : ε} {q : Process L σ ε α} (hl : ¬ m l)
    (hb : ∀ s, bad s → b s = true) (hq : q.Fenced bad m) :
    (Process.act l id (fun s => if b s then Process.fail e else q) : Process L σ ε α).Fences bad m := by
  refine ⟨fun _ => hl, fun s => ⟨fun hs => ?_, ?_⟩⟩
  · simp only [hb s hs, if_true]
    exact id
  · dsimp only
    split
    · trivial
    · exact hq

end Fences

/-- The process on one part of a larger state. -/
def lift (name : L → L') (get : σ' → σ) (set : σ → σ' → σ') : Process L σ ε α → Process L' σ' ε α
  | .ret a => .ret a
  | .fail e => .fail e
  | .act l u k => .act (name l) (fun s => set (u (get s)) s) (fun s => (k (get s)).lift name get set)

variable {name : L → L'} {get : σ' → σ} {set : σ → σ' → σ'}

theorem next_lift {m : L' → Prop} {p : Process L σ ε α} :
    (p.lift name get set).Next m ↔ p.Next (fun l => m (name l)) := by
  cases p <;> exact Iff.rfl

theorem Fenced.lift {bad : σ → Prop} {m : L' → Prop} {p : Process L σ ε α}
    (h : p.Fenced bad (fun l => m (name l))) :
    (p.lift name get set).Fenced (fun s => bad (get s)) m := by
  induction p with
  | ret a => trivial
  | fail e => trivial
  | act l u k ih =>
    exact fun s => ⟨fun hs hn => (h (get s)).1 hs (next_lift.mp hn), ih _ (h (get s)).2⟩

theorem Fences.lift (bad : σ → Prop) {m : L' → Prop} {p : Process L σ ε α}
    (h : p.Fences bad (fun l => m (name l))) :
    (p.lift name get set).Fences (fun s => bad (get s)) m :=
  ⟨fun s hn => h.head (get s) (next_lift.mp hn), h.tail.lift⟩

theorem Always.lift {T : L → σ → σ → Prop} {T' : L' → σ' → σ' → Prop} {Q : Except ε α → Prop}
    {p : Process L σ ε α} (h : p.Always T Q)
    (hT : ∀ l s t s', s = get s' → T l s t → T' (name l) s' (set t s')) :
    (p.lift name get set).Always T' Q := by
  induction p with
  | ret a => exact h
  | fail e => exact h
  | act l u k ih => exact fun s => ⟨hT l _ _ s rfl (h (get s)).1, ih _ (h (get s)).2⟩

end Process

variable {L σ ε ι κ η : Type u} {S : System L σ ε ι κ η} {bad : σ → Prop} {m : L → Prop}

/-- The session sees a state of `bad`, and is not about to take an action of the kind `m`. -/
structure Config.Barred (bad : σ → Prop) (m : L → Prop) (i : ι) (c : Config L σ ε ι) : Prop where
  shared : bad c.shared
  pool : ∀ p, c.pool i = some p → p.Fenced bad m ∧ ¬ p.Next m

theorem Config.Barred.not_label {i : ι} {c : Config L σ ε ι} (h : c.Barred bad m i) {l : L}
    (hl : c.label i = some l) : ¬ m l := by
  obtain ⟨p, hp, hlabel⟩ := Option.bind_eq_some_iff.mp hl
  cases p with
  | act l' u k =>
    cases hlabel
    exact (h.pool _ hp).2
  | _ => cases hlabel

/-- As long as the state stays in `bad` and the session makes no new call, that remains so. -/
theorem Config.Barred.next [DecidableEq ι] {i : ι} {c c' : Config L σ ε ι} {e : Event ι κ η}
    (h : c.Barred bad m i) (he : ∀ k, e ≠ .start i k) (hn : S.next c e = some c')
    (hbad : bad c'.shared) : c'.Barred bad m i := by
  have hself : ∀ (q : Process L σ ε PUnit), q.Fenced bad m ∧ ¬ q.Next m → ∀ p, q.settle = some p →
      p.Fenced bad m ∧ ¬ p.Next m := by
    intro q hq p hp
    cases q <;> cases hp
    exact hq
  refine ⟨hbad, fun p hp => ?_⟩
  cases e with
  | start j k =>
    simp only [System.next] at hn
    split at hn <;> cases hn
    by_cases hj : j = i
    · exact absurd rfl (hj ▸ he k)
    · exact h.pool p (by simpa [Ne.symm hj] using hp)
  | step j =>
    simp only [System.next] at hn
    split at hn <;> cases hn
    next l u k hpool =>
    by_cases hj : j = i
    · subst hj
      have hk := (h.pool _ hpool).1 c.shared
      exact hself _ ⟨hk.2, hk.1 h.shared⟩ p (by simpa using hp)
    · exact h.pool p (by simpa [Ne.symm hj] using hp)
  | crash j =>
    simp only [System.next] at hn
    split at hn <;> cases hn
    by_cases hj : j = i
    · simp [hj] at hp
    · exact h.pool p (by simpa [Ne.symm hj] using hp)
  | env e =>
    cases hn
    exact h.pool p hp

end NoSQLOptimizer.Concurrency
