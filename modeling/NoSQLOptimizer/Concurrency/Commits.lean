import NoSQLOptimizer.Concurrency.Standing

namespace NoSQLOptimizer.Concurrency

theorem Process.Always.along {L σ ε α : Type} {T : L → σ → σ → Prop} {Q : Except ε α → Prop}
    {p q : Process L σ ε α} {past : List (L × σ)} (h : p.Always T Q) (hq : Trail p past q) :
    q.Always T Q := by
  induction hq with
  | init => exact h
  | snoc _ ih => exact (ih _).2

section

variable {L σ ε α : Type} {p q : Process L σ ε α} {past : List (L × σ)} {l : L} {s : σ}

theorem Trail.of_nil (h : Trail p [] q) : q = p := by
  generalize hpast : ([] : List (L × σ)) = past at h
  cases h with
  | init => rfl
  | snoc => simp at hpast

/-- A process has come to where it is by its last action. -/
theorem Trail.of_concat (h : Trail p (past ++ [(l, s)]) q) :
    ∃ u k, Trail p past (.act l u k) ∧ q = k s := by
  generalize hall : past ++ [(l, s)] = all at h
  cases h with
  | init => simp at hall
  | @snoc past' l' u k s' h' =>
    obtain ⟨rfl, hlast⟩ := List.append_inj' hall rfl
    cases hlast
    exact ⟨u, k, h', rfl⟩

theorem Trail.of_singleton (h : Trail p [(l, s)] q) : ∃ u k, p = .act l u k ∧ q = k s := by
  have h' : Trail p ([] ++ [(l, s)]) q := h
  obtain ⟨u, k, hstart, hq⟩ := h'.of_concat
  exact ⟨u, k, hstart.of_nil.symm, hq⟩

theorem Trail.of_pair {first : L × σ} (h : Trail p [first, (l, s)] q) :
    ∃ u k, Trail p [first] (.act l u k) ∧ q = k s := by
  have h' : Trail p ([first] ++ [(l, s)]) q := h
  exact h'.of_concat

end

/-- A session about to act in a call does so after a past that the call's trace asks for. -/
theorem System.Progress.traced {L σ ε ι κ η : Type} [DecidableEq ι] {S : System L σ ε ι κ η}
    {P : Config L σ ε ι → Event ι κ η → Prop} {c₀ c : Config L σ ε ι} {i : ι} {k : κ} {l : L}
    {past : List (L × Config L σ ε ι)} {T : List (L × σ) → L → σ → Prop}
    {Q : List (L × σ) → PUnit → Prop} (h : S.Progress P c₀ i k past c) (hl : c.label i = some l)
    (hT : (S.call i k).Traced T Q []) : T (seen past) l c.shared := by
  obtain ⟨q, hq, hql⟩ := Option.bind_eq_some_iff.mp hl
  have htraced := hT.along (h.trail hq)
  cases q with
  | ret a => cases hql
  | fail e => cases hql
  | act l' u k' =>
    cases hql
    exact (htraced c.shared).1

namespace Transactions

variable {τ κ ω β ι ε χ α : Type}

/-- From one state to another through these commits, with `R` from each of them to the next. -/
def Linked (R : τ → τ → Prop) : τ → List (τ × τ) → τ → Prop
  | t, [], u => R t u
  | t, e :: es, u => R t e.1 ∧ Linked R e.2 es u

section

variable {R : τ → τ → Prop} {t u v : τ} {es es' : List (τ × τ)}

theorem Linked.append (htrans : ∀ {t u v}, R t u → R u v → R t v) (h : Linked R t es u)
    (h' : Linked R u es' v) : Linked R t (es ++ es') v := by
  induction es generalizing t with
  | nil =>
    cases es' with
    | nil => exact htrans h h'
    | cons e es' => exact ⟨htrans h h'.1, h'.2⟩
  | cons e es ih => exact ⟨h.1, ih h.2⟩

theorem Linked.split {e : τ × τ} (h : Linked R t (es ++ e :: es') u) :
    Linked R t es e.1 ∧ Linked R e.2 es' u := by
  induction es generalizing t with
  | nil => exact h
  | cons e' es ih => exact ⟨⟨h.1, (ih h.2).1⟩, (ih h.2).2⟩

/-- What `R` keeps and every commit keeps is kept. -/
theorem Linked.invariant {I : τ → Prop} (h : Linked R t es u) (ht : I t)
    (hR : ∀ t u, R t u → I t → I u) (hes : ∀ e ∈ es, I e.1 → I e.2) : I u := by
  induction es generalizing t with
  | nil => exact hR t u h ht
  | cons e es ih =>
    exact ih h.2 (hes e List.mem_cons_self (hR t e.1 h.1 ht))
      (fun e' he' => hes e' (List.mem_cons_of_mem e he'))

end

/-- What was committed in the meantime. -/
def Grown (R : τ → τ → Prop) (s t : Database τ κ ω ι) : Prop :=
  ∃ es, t.commits = s.commits ++ es ∧ Linked R s.tables es t.tables

theorem Grown.of_tables {R : τ → τ → Prop} (hrefl : ∀ t, R t t) {s t : Database τ κ ω ι}
    (htables : t.tables = s.tables) (hcommits : t.commits = s.commits) : Grown R s t :=
  ⟨[], by rw [hcommits, List.append_nil], htables ▸ hrefl s.tables⟩

variable [DecidableEq ι] {M : Schema τ κ ω β} {i : ι}

/-- What the actions of a session do that makes statements in transactions. -/
def Schema.Does (M : Schema τ κ ω β) (i : ι) :
    Statement β → Database τ κ ω ι → Database τ κ ω ι → Prop
  | .exec b, s, t => t = s ∨ ∃ ws, t = M.hold i b ws s
  | .commit, s, t => t = M.commit i s
  | .rollback, s, t => t = rollback i s

theorem execute_does {b : β} {f : τ → Except ε (α × List ω)} :
    (M.execute i b f).Always (M.Does i) (fun _ => True) := by
  refine .atomic _ _ (fun s a t ht => ⟨?_, trivial⟩) (fun s e _ => ⟨.inl rfl, trivial⟩)
  cases hf : f (M.view i s) with
  | error e =>
    rw [hf] at ht
    cases ht
  | ok r =>
    rw [hf] at ht
    cases ht
    exact .inr ⟨r.2, rfl⟩

theorem transaction_does {p : Process (Statement β) (Database τ κ ω ι) ε α}
    (hp : p.Always (M.Does i) (fun _ => True)) :
    (M.transaction i p).Always (M.Does i) (fun _ => True) := by
  refine .then (.rescue hp (fun _ => trivial) (fun e => ?_)) (fun a => ?_)
  · exact .then (.modify _ _ (fun _ => rfl) trivial) (fun _ => trivial)
  · exact .then (.modify _ _ (fun _ => rfl) trivial) (fun _ => trivial)

section

variable {R : τ → τ → Prop} (hrefl : ∀ t, R t t)

include hrefl

theorem Schema.Does.grown {l : Statement β} {s t : Database τ κ ω ι} (h : M.Does i l s t) :
    Grown R s t := by
  cases l with
  | exec b =>
    rcases h with rfl | ⟨ws, rfl⟩
    · exact .of_tables hrefl rfl rfl
    · exact .of_tables hrefl rfl rfl
  | commit =>
    obtain rfl := h
    exact ⟨[(s.tables, M.view i s)], rfl, hrefl _, hrefl _⟩
  | rollback =>
    obtain rfl := h
    exact .of_tables hrefl rfl rfl

/-- The tables have come to what they are through the commits of the log. -/
theorem reach_linked (htrans : ∀ {t u v}, R t u → R u v → R t v)
    {call : ι → χ → Process (Statement β) (Database τ κ ω ι) ε PUnit} {acts : ι → β → τ → Prop}
    {surroundings : τ → τ → Prop} {t : τ} {c : Config (Statement β) (Database τ κ ω ι) ε ι}
    (hcall : ∀ i k, (call i k).Always (M.Does i) (fun _ => True))
    (henv : ∀ t u, surroundings t u → R t u)
    (hr : (M.system call).Reach (M.conduct call acts surroundings).Allows
      (.quiet { tables := t }) c) : Linked R t c.shared.commits c.shared.tables := by
  have halong : (M.system call).Along (M.conduct call acts surroundings) (Grown R) := by
    refine ⟨fun s => .of_tables hrefl rfl rfl, ?_, ?_, fun i s => .of_tables hrefl rfl rfl, ?_⟩
    · rintro s t r ⟨es, hes, hlinked⟩ ⟨es', hes', hlinked'⟩
      exact ⟨es ++ es', by rw [hes', hes, List.append_assoc], hlinked.append htrans hlinked'⟩
    · exact fun i k _ => (hcall i k).mono (fun _ _ _ h => h.grown hrefl) (fun _ _ => trivial)
    · rintro s _ ⟨⟨ws, rfl, -⟩, hsurroundings⟩
      exact ⟨[], (List.append_nil _).symm, henv _ _ hsurroundings⟩
  obtain ⟨es, hes, hlinked⟩ := (halong.reach (System.Moving.quiet _) hr).1
  rw [hes]
  exact hlinked

end

end Transactions

end NoSQLOptimizer.Concurrency
