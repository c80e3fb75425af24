import NoSQLOptimizer.Concurrency.Transactions

namespace NoSQLOptimizer.Concurrency.Transactions

variable {τ κ ω β ι ε χ α : Type}

/-- Calls of which `starts` holds, and nobody else. -/
def Schema.alone [DecidableEq ι] (M : Schema τ κ ω β)
    (call : ι → χ → Process (Statement β) (Database τ κ ω ι) ε PUnit) (starts : χ → Prop) :
    (M.system call).Conduct where
  starts := starts
  acts i l s := M.Grants i s l
  env _ _ := False

/-- What no commit takes back may be relied on, with or without a lock. -/
structure Growth (T : τ → τ → Prop) : Prop where
  refl : ∀ t, T t t
  trans : ∀ {t u v}, T t u → T u v → T t v

/-- What is said of these rows, and of what only grows. -/
def Enduring (M : Schema τ κ ω β) (T : τ → τ → Prop) (ks : List κ) (R : τ → Prop) : Prop :=
  ∀ t u, (∀ k ∈ ks, M.Same k t u) → T t u → R t → R u

section

variable {M : Schema τ κ ω β} {T : τ → τ → Prop} {ks : List κ} {R R' : τ → Prop}

theorem Enduring.true (ks : List κ) : Enduring M T ks (fun _ => True) := fun _ _ _ _ _ => trivial

theorem Enduring.and (h : Enduring M T ks R) (h' : Enduring M T ks R') :
    Enduring M T ks (fun t => R t ∧ R' t) :=
  fun t u hsame hT hR => ⟨h t u hsame hT hR.1, h' t u hsame hT hR.2⟩

theorem Enduring.append (h : Enduring M T ks R) (more : List κ) :
    Enduring M T (ks ++ more) R :=
  fun t u hsame hT hR => h t u (fun k hk => hsame k (List.mem_append_left more hk)) hT hR

/-- What only grows needs no lock. -/
theorem Enduring.of_growth (h : ∀ t u, T t u → R t → R u) (ks : List κ) : Enduring M T ks R :=
  fun t u _ hT hR => h t u hT hR

end

variable [DecidableEq ι]

/-- The discipline of row locks among commits that keep to `T`. -/
def growing {S : System (Statement β) (Database τ κ ω ι) ε ι χ (List ω)} (C : S.Conduct)
    (M : Schema τ κ ω β) (J : τ → Prop) {T : τ → τ → Prop} (hT : Growth T) : Discipline C where
  inv := Sound M J T
  grows s t := T s.tables t.tables
  rely i s t := (t.sessions i = s.sessions i ∧
    ∀ k ∈ (s.sessions i).locks, M.Same k s.tables t.tables) ∧ T s.tables t.tables
  rely_grows h := h.2
  idle i s := s.sessions i = {}
  refl _ s := ⟨⟨rfl, fun k _ => M.same_refl k s.tables⟩, hT.refl s.tables⟩
  trans := fun hst htr => ⟨⟨htr.1.1.trans hst.1.1,
    fun k hk => M.same_trans (hst.1.2 k hk) (htr.1.2 k (hst.1.1 ▸ hk))⟩, hT.trans hst.2 htr.2⟩
  idle_stable := fun hidle hst => hst.1.1.trans hidle

section

variable {M : Schema τ κ ω β} {J : τ → Prop} {T : τ → τ → Prop} {hT : Growth T}
  {call : ι → χ → Process (Statement β) (Database τ κ ω ι) ε PUnit} {starts : χ → Prop} {i : ι}
  {ls : List κ} {ws : List ω} {R : τ → Prop}

/-- The calls, under the discipline. -/
abbrev among (M : Schema τ κ ω β)
    (call : ι → χ → Process (Statement β) (Database τ κ ω ι) ε PUnit) (starts : χ → Prop)
    (J : τ → Prop) {T : τ → τ → Prop} (hT : Growth T) : Discipline (M.alone call starts) :=
  growing (M.alone call starts) M J hT

theorem enduring_stable (hR : Enduring M T ls R) :
    (among M call starts J hT).Stable i (Held i ls ws R) := by
  rintro s t ⟨⟨hsession, hsame⟩, hgrows⟩ - ⟨hs, hRs⟩
  refine ⟨hsession.trans hs, hR _ _ (fun k hk => hsame k ?_) hgrows hRs⟩
  rw [hs]
  exact hk

/-- A session moves, and the tables stay. -/
theorem unmoved_admits {s t : Database τ κ ω ι} (ht : Sound M J T t) (htables : t.tables = s.tables)
    (hsessions : ∀ j, j ≠ i → t.sessions j = s.sessions j) :
    (among M call starts J hT).Admits i s t := by
  have hgrows : T s.tables t.tables := htables ▸ hT.refl s.tables
  exact ⟨ht, hgrows, fun j hj =>
    ⟨⟨hsessions j hj, fun k _ => htables ▸ M.same_refl k s.tables⟩, hgrows⟩⟩

theorem rolled_admits {s : Database τ κ ω ι} (hs : Sound M J T s) :
    (among M call starts J hT).Admits i s (rollback i s) :=
  unmoved_admits hs.rollback rfl (fun _ hj => Function.update_of_ne hj _ _)

theorem among_crashable (K : Database τ κ ω ι → Prop) :
    (among M call starts J hT).Crashable i K :=
  fun _ _ hs _ _ => ⟨rolled_admits hs, Function.update_self _ _ _⟩

theorem committed_admits {s : Database τ κ ω ι} (hs : Sound M J T s) (hJ : J (M.view i s))
    (hgrows : T s.tables (M.view i s)) :
    (among M call starts J hT).Admits i s (M.commit i s) := by
  refine ⟨hs.commit hJ hgrows, hgrows, fun j hj =>
    ⟨⟨Function.update_of_ne hj _ _, fun k hk => ?_⟩, hgrows⟩⟩
  -- what `i` has written it has locked, and `j` has not
  exact same_applyAll (fun w hw hkw => hj (hs.exclusive j i k hk (hs.owned i w hw k hkw))) _

/-- The rule of a statement. -/
theorem execute_rule {b : β} {f : τ → Except ε (α × List ω)} {L : α → List κ} {W : α → List ω}
    {R' : α → τ → Prop} (hR : Enduring M T ls R) (hR' : ∀ a, Enduring M T (L a) (R' a))
    (h : ∀ t a new, J t → R t → f (M.applyAll ws t) = .ok (a, new) →
      ls ++ M.needs b (M.applyAll ws t) = L a ∧ ws ++ new = W a ∧
      (∀ w ∈ new, ∀ k ∈ M.keys w, k ∈ L a) ∧ R' a t) :
    (among M call starts J hT).Triple i (Held i ls ws R) (M.execute i b f)
      (fun a => Held i (L a) (W a) (R' a)) (fun _ _ => True) := by
  refine .atomic (enduring_stable hR) (among_crashable _) (fun a => enduring_stable (hR' a))
    (fun _ _ _ _ _ _ => trivial) ?_ (fun _ _ _ _ _ _ => trivial)
  intro s a t hs hheld hacts ht
  obtain ⟨hsession, hRs⟩ := hheld
  have hview : M.view i s = M.applyAll ws s.tables := by rw [Schema.view, hsession]
  cases hf : f (M.view i s) with
  | error e =>
    rw [hf] at ht
    cases ht
  | ok r =>
    rw [hf] at ht
    cases ht
    rw [hview] at hf
    obtain ⟨hL, hW, hkeys, hR's⟩ := h s.tables r.1 r.2 hs.tables hRs hf
    refine ⟨unmoved_admits (hs.hold hacts ?_) rfl (fun _ hj => Function.update_of_ne hj _ _), ?_,
      hR's⟩
    · rw [hsession, hview, hL]
      exact hkeys
    · rw [Schema.hold, hsession, hview, hL, hW]
      exact Function.update_self _ _ _

/-- What the session has written may be committed, and then `Q` holds of the tables. -/
def Due (M : Schema τ κ ω β) (J : τ → Prop) (T : τ → τ → Prop) (i : ι) (Q : τ → Prop)
    (s : Database τ κ ω ι) : Prop :=
  ∃ ls ws R, Held i ls ws R s ∧ Enduring M T ls R ∧
    ∀ t, J t → R t → J (M.applyAll ws t) ∧ T t (M.applyAll ws t) ∧ Q (M.applyAll ws t)

theorem due_of_held {ι : Type} {i : ι} {Q : τ → Prop} {s : Database τ κ ω ι} (hR : Enduring M T ls R)
    (hs : Held i ls ws R s)
    (h : ∀ t, J t → R t → J (M.applyAll ws t) ∧ T t (M.applyAll ws t) ∧ Q (M.applyAll ws t)) :
    Due M J T i Q s :=
  ⟨ls, ws, R, hs, hR, h⟩

/-- The rule of a transaction: what its block ends with may be committed. -/
theorem transaction_rule {p : Process (Statement β) (Database τ κ ω ι) ε α} {Q : α → τ → Prop}
    (hQ : ∀ a, Enduring M T [] (Q a))
    (hp : (among M call starts J hT).Triple i (Held i [] [] R) p
      (fun a => Due M J T i (Q a)) (fun _ _ => True)) :
    (among M call starts J hT).Triple i (Held i [] [] R) (M.transaction i p)
      (fun a => Held i [] [] (Q a)) (fun _ s => s.sessions i = {}) := by
  have hidle : (among M call starts J hT).Stable i (fun s => s.sessions i = {}) :=
    fun s t hst _ hs => (hst.1.1 : t.sessions i = s.sessions i).trans hs
  refine .bind (Q := fun a => Due M J T i (Q a)) (.rescue hp (fun e => ?_)) (fun a => ?_)
  · refine .bind (Q := fun _ s => s.sessions i = {}) ?_ (fun _ => .fail hidle (fun _ _ h => h))
    exact .modify (Discipline.Stable.const True) (among_crashable _) hidle
      (fun s hs _ _ => ⟨rolled_admits hs, Function.update_self _ _ _⟩)
  · refine .bind (Q := fun _ => Held i [] [] (Q a)) (.modify ?_ (among_crashable _)
      (enduring_stable (hQ a)) ?_) (fun _ => .ret (enduring_stable (hQ a)) (fun _ _ h => h))
    · rintro s t hst ht ⟨ls, ws, R', hheld, hR', hcommit⟩
      exact ⟨ls, ws, R', enduring_stable hR' hst ht hheld, hR', hcommit⟩
    · rintro s hs ⟨ls, ws, R', ⟨hsession, hRs⟩, -, hcommit⟩ -
      have hview : M.view i s = M.applyAll ws s.tables := by rw [Schema.view, hsession]
      obtain ⟨hJ, hgrows, hQs⟩ := hcommit s.tables hs.tables hRs
      rw [← hview] at hJ hgrows hQs
      exact ⟨committed_admits hs hJ hgrows, Function.update_self _ _ _, hQs⟩

/-- Calls that keep to the discipline leave every configuration sound. -/
theorem among_sound {t : τ} {c : Config (Statement β) (Database τ κ ω ι) ε ι} (ht : J t)
    (hcall : ∀ i k, starts k → (among M call starts J hT).Triple i (fun s => s.sessions i = {})
      (call i k) (fun _ s => s.sessions i = {}) (fun _ s => s.sessions i = {}))
    (hr : (M.system call).Reach (M.alone call starts).Allows (.quiet { tables := t }) c) :
    Sound M J T c.shared := by
  have hquiet : (among M call starts J hT).Holds (.quiet { tables := t }) :=
    .quiet (Sound.quiet ht) (fun _ => rfl)
  exact (hquiet.reach (.of_triples hcall (fun _ _ h => h.elim)) hr).inv

end

end NoSQLOptimizer.Concurrency.Transactions
