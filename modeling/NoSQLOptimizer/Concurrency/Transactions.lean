import NoSQLOptimizer.Concurrency.Triple

namespace NoSQLOptimizer.Concurrency.Transactions

/-- Tables `τ`, the rows and index entries `κ` of them that transactions lock, writes `ω` and
statements `β`.  A statement needs locks in what its transaction sees; what a write does not lock
stays the same. -/
structure Schema (τ κ ω β : Type) where
  apply : ω → τ → τ
  keys : ω → List κ
  needs : β → τ → List κ
  Same : κ → τ → τ → Prop
  same_refl : ∀ k t, Same k t t
  same_trans : ∀ {k t u v}, Same k t u → Same k u v → Same k t v
  same_apply : ∀ {k w} t, k ∉ keys w → Same k t (apply w t)

/-- What a transaction has locked so far, and written. -/
structure Session (κ ω : Type) where
  locks : List κ := []
  writes : List ω := []

/-- The committed tables and the sessions.  `commits` is a log of this model: the tables before and
after each commit. -/
structure Database (τ κ ω ι : Type) where
  tables : τ
  sessions : ι → Session κ ω := fun _ => {}
  commits : List (τ × τ) := []

inductive Statement (β : Type)
  | exec : β → Statement β
  | commit
  | rollback

variable {τ κ ω β ι ε χ α : Type}

namespace Schema

variable (M : Schema τ κ ω β)

def applyAll (ws : List ω) (t : τ) : τ := ws.foldl (fun t w => M.apply w t) t

/-- What a statement sees: what is committed as it begins, and its own transaction's writes. -/
def view (i : ι) (s : Database τ κ ω ι) : τ := M.applyAll (s.sessions i).writes s.tables

variable [DecidableEq ι]

def hold (i : ι) (b : β) (ws : List ω) (s : Database τ κ ω ι) : Database τ κ ω ι :=
  { s with
    sessions := Function.update s.sessions i ⟨(s.sessions i).locks ++ M.needs b (M.view i s),
      (s.sessions i).writes ++ ws⟩ }

/-- A statement: it takes its locks, writes and returns, or it raises. -/
def execute (i : ι) (b : β) (f : τ → Except ε (α × List ω)) :
    Process (Statement β) (Database τ κ ω ι) ε α :=
  .atomic (.exec b) (fun s => (f (M.view i s)).map (fun r => (r.1, M.hold i b r.2 s)))

def commit (i : ι) (s : Database τ κ ω ι) : Database τ κ ω ι where
  tables := M.view i s
  sessions := Function.update s.sessions i {}
  commits := s.commits ++ [(s.tables, M.view i s)]

end Schema

/-- No lock is held twice, what is written is locked, the tables satisfy `J`, and every commit that
has been made satisfies `T`. -/
structure Sound (M : Schema τ κ ω β) (J : τ → Prop) (T : τ → τ → Prop) (s : Database τ κ ω ι) :
    Prop where
  exclusive : ∀ i j k, k ∈ (s.sessions i).locks → k ∈ (s.sessions j).locks → i = j
  owned : ∀ i, ∀ w ∈ (s.sessions i).writes, ∀ k ∈ M.keys w, k ∈ (s.sessions i).locks
  tables : J s.tables
  commits : ∀ c ∈ s.commits, T c.1 c.2

section

variable {M : Schema τ κ ω β}

theorem same_applyAll {k : κ} {ws : List ω} (h : ∀ w ∈ ws, k ∉ M.keys w) (t : τ) :
    M.Same k t (M.applyAll ws t) := by
  induction ws generalizing t with
  | nil => exact M.same_refl k t
  | cons w ws ih =>
    exact M.same_trans (M.same_apply t (h w List.mem_cons_self))
      (ih (fun w' hw' => h w' (List.mem_cons_of_mem w hw')) (M.apply w t))

theorem Sound.quiet {J : τ → Prop} {T : τ → τ → Prop} {t : τ} (h : J t) : Sound M J T ({ tables := t } : Database τ κ ω ι) where
  exclusive _ _ _ hk := by cases hk
  owned _ _ hw := by cases hw
  tables := h
  commits _ hc := by cases hc

end

variable [DecidableEq ι]

def rollback (i : ι) (s : Database τ κ ω ι) : Database τ κ ω ι :=
  { s with sessions := Function.update s.sessions i {} }

/-- `async with engine.begin()`: a commit where the block ends, a rollback where it raises. -/
def Schema.transaction (M : Schema τ κ ω β) (i : ι)
    (p : Process (Statement β) (Database τ κ ω ι) ε α) :
    Process (Statement β) (Database τ κ ω ι) ε α := do
  let a ← p.rescue (fun e => do
    Process.modify .rollback (rollback i)
    throw e)
  Process.modify .commit (M.commit i)
  return a

/-- A statement waits while another transaction holds a lock that it needs. -/
def Schema.Grants (M : Schema τ κ ω β) (i : ι) (s : Database τ κ ω ι) : Statement β → Prop
  | .exec b => ∀ k ∈ M.needs b (M.view i s), ∀ j, j ≠ i → k ∉ (s.sessions j).locks
  | _ => True

/-- Sessions make calls; a session that dies is rolled back.  What happens outside of them is a
transaction of its own. -/
def Schema.system (M : Schema τ κ ω β)
    (call : ι → χ → Process (Statement β) (Database τ κ ω ι) ε PUnit) :
    System (Statement β) (Database τ κ ω ι) ε ι χ (List ω) where
  call := call
  crash := rollback
  env ws s := { s with tables := M.applyAll ws s.tables }

/-- Locks are waited for, by the surroundings too; and what else is known of the statements and the
surroundings. -/
def Schema.conduct (M : Schema τ κ ω β)
    (call : ι → χ → Process (Statement β) (Database τ κ ω ι) ε PUnit)
    (acts : ι → β → τ → Prop) (surroundings : τ → τ → Prop) : (M.system call).Conduct where
  acts i l s := M.Grants i s l ∧ ∀ b, l = .exec b → acts i b (M.view i s)
  env s t := (∃ ws, t = { s with tables := M.applyAll ws s.tables } ∧
    ∀ w ∈ ws, ∀ k ∈ M.keys w, ∀ i, k ∉ (s.sessions i).locks) ∧ surroundings s.tables t.tables

section

variable {M : Schema τ κ ω β} {J : τ → Prop} {T : τ → τ → Prop} {s : Database τ κ ω ι} {i : ι}

/-- A session takes up what only it holds. -/
theorem Sound.update (h : Sound M J T s) {session : Session κ ω}
    (hlocks : ∀ k ∈ session.locks, ∀ j, j ≠ i → k ∉ (s.sessions j).locks)
    (hwrites : ∀ w ∈ session.writes, ∀ k ∈ M.keys w, k ∈ session.locks) :
    Sound M J T { s with sessions := Function.update s.sessions i session } := by
  refine ⟨fun j j' k hj hj' => ?_, fun j w hw k hk => ?_, h.tables, h.commits⟩
  · by_cases hji : j = i <;> by_cases hji' : j' = i
    · rw [hji, hji']
    · subst hji
      simp only [Function.update_self, Function.update_of_ne hji'] at hj hj'
      exact absurd hj' (hlocks k hj j' hji')
    · subst hji'
      simp only [Function.update_self, Function.update_of_ne hji] at hj hj'
      exact absurd hj (hlocks k hj' j hji)
    · simp only [Function.update_of_ne hji, Function.update_of_ne hji'] at hj hj'
      exact h.exclusive j j' k hj hj'
  · by_cases hji : j = i
    · subst hji
      simp only [Function.update_self] at hw ⊢
      exact hwrites w hw k hk
    · simp only [Function.update_of_ne hji] at hw ⊢
      exact h.owned j w hw k hk

theorem Sound.rollback (h : Sound M J T s) : Sound M J T (rollback i s) :=
  h.update (fun _ hk => by cases hk) (fun _ hw => by cases hw)

theorem Sound.hold (h : Sound M J T s) {b : β} (hgrants : M.Grants i s (.exec b)) {ws : List ω}
    (hkeys : ∀ w ∈ ws, ∀ k ∈ M.keys w, k ∈ (s.sessions i).locks ++ M.needs b (M.view i s)) :
    Sound M J T (M.hold i b ws s) := by
  refine h.update (fun k hk j hj hkj => ?_) (fun w hw k hk => ?_)
  · rcases List.mem_append.mp hk with hk | hk
    · exact hj (h.exclusive j i k hkj hk)
    · exact hgrants k hk j hj hkj
  · rcases List.mem_append.mp hw with hw | hw
    · exact List.mem_append_left _ (h.owned i w hw k hk)
    · exact hkeys w hw k hk

theorem Sound.commit (h : Sound M J T s) (hJ : J (M.view i s)) (hT : T s.tables (M.view i s)) :
    Sound M J T (M.commit i s) := by
  have hrolled : Sound M J T (Transactions.rollback i s) := h.rollback
  refine ⟨hrolled.exclusive, hrolled.owned, hJ, fun c hc => ?_⟩
  rcases List.mem_append.mp hc with hc | hc
  · exact h.commits c hc
  · obtain rfl := List.mem_singleton.mp hc
    exact hT

end

/-- The discipline of row locks: what a session has locked stays as it is while others act. -/
def discipline {S : System (Statement β) (Database τ κ ω ι) ε ι χ (List ω)} (C : S.Conduct)
    (M : Schema τ κ ω β) (J : τ → Prop) (T : τ → τ → Prop) : Discipline C where
  inv := Sound M J T
  rely i s t := t.sessions i = s.sessions i ∧
    ∀ k ∈ (s.sessions i).locks, M.Same k s.tables t.tables
  idle i s := s.sessions i = {}
  refl _ s := ⟨rfl, fun k _ => M.same_refl k s.tables⟩
  trans := fun hst htr => ⟨htr.1.trans hst.1,
    fun k hk => M.same_trans (hst.2 k hk) (htr.2 k (hst.1 ▸ hk))⟩
  idle_stable := fun hidle hst => hst.1.trans hidle

/-- What is said of these rows only. -/
def Frame (M : Schema τ κ ω β) (ks : List κ) (R : τ → Prop) : Prop :=
  ∀ t u, (∀ k ∈ ks, M.Same k t u) → R t → R u

/-- Where session `i` stands, and what it knows of the tables. -/
def Held (i : ι) (ls : List κ) (ws : List ω) (R : τ → Prop) (s : Database τ κ ω ι) : Prop :=
  s.sessions i = ⟨ls, ws⟩ ∧ R s.tables

section

variable {M : Schema τ κ ω β} {J : τ → Prop} {T : τ → τ → Prop}
  {call : ι → χ → Process (Statement β) (Database τ κ ω ι) ε PUnit} {acts : ι → β → τ → Prop}
  {surroundings : τ → τ → Prop} {i : ι} {ls : List κ} {ws : List ω} {R : τ → Prop}

theorem Frame.true (ks : List κ) : Frame M ks (fun _ => True) := fun _ _ _ _ => trivial

theorem Frame.and {ks : List κ} {R R' : τ → Prop} (h : Frame M ks R) (h' : Frame M ks R') :
    Frame M ks (fun t => R t ∧ R' t) :=
  fun t u hsame hR => ⟨h t u hsame hR.1, h' t u hsame hR.2⟩

theorem Frame.append {ks : List κ} (h : Frame M ks R) (more : List κ) : Frame M (ks ++ more) R :=
  fun t u hsame hR => h t u (fun k hk => hsame k (List.mem_append_left more hk)) hR

theorem held_stable (hR : Frame M ls R) :
    (discipline (M.conduct call acts surroundings) M J T).Stable i (Held i ls ws R) := by
  rintro s t ⟨hsession, hsame⟩ - ⟨hs, hRs⟩
  refine ⟨hsession.trans hs, hR _ _ (fun k hk => hsame k ?_) hRs⟩
  rw [hs]
  exact hk

theorem others_rely {s t : Database τ κ ω ι} (htables : t.tables = s.tables)
    (hsessions : ∀ j, j ≠ i → t.sessions j = s.sessions j) (j : ι) (hj : j ≠ i) :
    (discipline (M.conduct call acts surroundings) M J T).rely j s t :=
  ⟨hsessions j hj, fun k _ => htables ▸ M.same_refl k s.tables⟩

theorem rollback_admits {s : Database τ κ ω ι} (hs : Sound M J T s) :
    (discipline (M.conduct call acts surroundings) M J T).Admits i s (rollback i s) :=
  ⟨hs.rollback, trivial, others_rely rfl (fun _ hj => Function.update_of_ne hj _ _)⟩

theorem crashable (K : Database τ κ ω ι → Prop) :
    (discipline (M.conduct call acts surroundings) M J T).Crashable i K :=
  fun _ _ hs _ _ => ⟨rollback_admits hs, Function.update_self _ _ _⟩

theorem commit_admits {s : Database τ κ ω ι} (hs : Sound M J T s) (hJ : J (M.view i s))
    (hT : T s.tables (M.view i s)) :
    (discipline (M.conduct call acts surroundings) M J T).Admits i s (M.commit i s) := by
  refine ⟨hs.commit hJ hT, trivial, fun j hj => ⟨Function.update_of_ne hj _ _, fun k hk => ?_⟩⟩
  -- what `i` has written it has locked, and `j` has not
  exact same_applyAll (fun w hw hkw => hj (hs.exclusive j i k hk (hs.owned i w hw k hkw))) _

/-- The rule of a statement: what it leaves locked and written, and what is known of the tables, by
what it returns. -/
theorem execute_triple {b : β} {f : τ → Except ε (α × List ω)} {L : α → List κ} {W : α → List ω}
    {R' : α → τ → Prop} (hR : Frame M ls R) (hR' : ∀ a, Frame M (L a) (R' a))
    (h : ∀ t a new, J t → R t → acts i b (M.applyAll ws t) →
      f (M.applyAll ws t) = .ok (a, new) → ls ++ M.needs b (M.applyAll ws t) = L a ∧
      ws ++ new = W a ∧ (∀ w ∈ new, ∀ k ∈ M.keys w, k ∈ L a) ∧ R' a t) :
    (discipline (M.conduct call acts surroundings) M J T).Triple i (Held i ls ws R)
      (M.execute i b f) (fun a => Held i (L a) (W a) (R' a)) (fun _ _ => True) := by
  refine .atomic (held_stable hR) (crashable _) (fun a => held_stable (hR' a))
    (fun _ _ _ _ _ _ => trivial) ?_ (fun _ _ _ _ _ _ => trivial)
  intro s a t hs hheld hacts ht
  obtain ⟨hsession, hRs⟩ := hheld
  have hview : M.view i s = M.applyAll ws s.tables := by rw [Schema.view, hsession]
  cases hf : f (M.view i s) with
  | error e =>
    rw [hf] at ht
    cases ht
  | ok r =>
    rw [hf] at ht
    cases ht
    rw [hview] at hf
    obtain ⟨hL, hW, hkeys, hR's⟩ := h s.tables r.1 r.2 hs.tables hRs (hview ▸ hacts.2 b rfl) hf
    refine ⟨⟨hs.hold hacts.1 ?_, trivial,
      others_rely rfl (fun _ hj => Function.update_of_ne hj _ _)⟩, ?_, hR's⟩
    · rw [hsession, hview, hL]
      exact hkeys
    · rw [Schema.hold, hsession, hview, hL, hW]
      exact Function.update_self _ _ _

/-- What the session has written may be committed. -/
def Ready (M : Schema τ κ ω β) (J : τ → Prop) (T : τ → τ → Prop) (i : ι) (s : Database τ κ ω ι) :
    Prop :=
  ∃ ls ws R, Held i ls ws R s ∧ Frame M ls R ∧
    ∀ t, J t → R t → J (M.applyAll ws t) ∧ T t (M.applyAll ws t)

theorem commit_triple {E : ε → Database τ κ ω ι → Prop} :
    (discipline (M.conduct call acts surroundings) M J T).Triple i (Ready M J T i)
      (Process.modify .commit (M.commit i)) (fun _ s => s.sessions i = {}) E := by
  refine .modify ?_ (crashable _) ?_ ?_
  · rintro s t hst ht ⟨ls, ws, R, hheld, hR, hcommit⟩
    exact ⟨ls, ws, R, held_stable hR hst ht hheld, hR, hcommit⟩
  · rintro s t ⟨hsession, -⟩ - hidle
    exact hsession.trans hidle
  · rintro s hs ⟨ls, ws, R, ⟨hsession, hRs⟩, -, hcommit⟩ -
    have hview : M.view i s = M.applyAll ws s.tables := by rw [Schema.view, hsession]
    obtain ⟨hJ, hT⟩ := hcommit s.tables hs.tables hRs
    rw [← hview] at hJ hT
    exact ⟨commit_admits hs hJ hT, Function.update_self _ _ _⟩

/-- The rule of a transaction: what its block ends with may be committed. -/
theorem transaction_triple {p : Process (Statement β) (Database τ κ ω ι) ε α}
    (hp : (discipline (M.conduct call acts surroundings) M J T).Triple i (fun s => s.sessions i = {})
      p (fun _ => Ready M J T i) (fun _ _ => True)) :
    (discipline (M.conduct call acts surroundings) M J T).Triple i (fun s => s.sessions i = {})
      (M.transaction i p) (fun _ s => s.sessions i = {}) (fun _ s => s.sessions i = {}) := by
  have hidle : (discipline (M.conduct call acts surroundings) M J T).Stable i
      (fun s => s.sessions i = {}) := by
    rintro s t ⟨hsession, -⟩ - h
    exact hsession.trans h
  refine .bind (Q := fun _ => Ready M J T i) (.rescue hp (fun e => ?_))
    (fun a => .bind commit_triple (fun _ => .ret hidle (fun _ _ h => h)))
  refine .bind (Q := fun _ s => s.sessions i = {}) ?_ (fun _ => .fail hidle (fun _ _ h => h))
  exact .modify (Discipline.Stable.const True) (crashable _) hidle
    (fun s hs _ _ => ⟨rollback_admits hs, Function.update_self _ _ _⟩)

theorem holds_quiet {t : τ} (ht : J t) : (discipline (M.conduct call acts surroundings) M J T).Holds
    (.quiet { tables := t }) :=
  .quiet (Sound.quiet ht) (fun _ => rfl)

/-- Calls that keep to the discipline, among surroundings that keep to `J`. -/
theorem governs
    (hcall : ∀ i k, (discipline (M.conduct call acts surroundings) M J T).Triple i
      (fun s => s.sessions i = {}) (call i k) (fun _ s => s.sessions i = {})
      (fun _ s => s.sessions i = {}))
    (henv : ∀ t u, J t → surroundings t u → J u) :
    (discipline (M.conduct call acts surroundings) M J T).Governs := by
  refine .of_triples (fun i k _ => hcall i k) ?_
  rintro s _ ⟨⟨ws, rfl, hfree⟩, hsurroundings⟩ hs
  refine ⟨⟨hs.exclusive, hs.owned, henv _ _ hs.tables hsurroundings, hs.commits⟩, ?_⟩
  exact fun j => ⟨rfl, fun k hk => same_applyAll (fun w hw hkw => hfree w hw k hkw j hk) _⟩

/-- They leave every configuration sound. -/
theorem reach_sound {t : τ} {c : Config (Statement β) (Database τ κ ω ι) ε ι} (ht : J t)
    (hcall : ∀ i k, (discipline (M.conduct call acts surroundings) M J T).Triple i
      (fun s => s.sessions i = {}) (call i k) (fun _ s => s.sessions i = {})
      (fun _ s => s.sessions i = {}))
    (henv : ∀ t u, J t → surroundings t u → J u)
    (hr : (M.system call).Reach (M.conduct call acts surroundings).Allows (.quiet { tables := t }) c) :
    Sound M J T c.shared :=
  ((holds_quiet ht).reach (governs hcall henv) hr).inv

end

end NoSQLOptimizer.Concurrency.Transactions
