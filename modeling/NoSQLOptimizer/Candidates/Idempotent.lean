import NoSQLOptimizer.Candidates.Generation

namespace NoSQLOptimizer.Candidates.Generation

open ControlPlane Concurrency Transactions Encoding

section

variable {t u : Tables} {r : RunId} {x y : Result}

/-- What a later call for the run returns. -/
def Tables.Settled (t : Tables) (r : RunId) (x : Result) : Prop :=
  ∃ a, t.artifactsOf r = [a] ∧ x = ⟨a.id, t.orderedIds r, a.candidateCount⟩

/-- A run with an artifact keeps it, and its candidates. -/
def Grows (t u : Tables) : Prop :=
  ∀ r, t.artifactsOf r ≠ [] →
    u.artifactsOf r = t.artifactsOf r ∧ u.candidatesOf r = t.candidatesOf r

theorem growth : Growth Grows where
  refl _ _ _ := ⟨rfl, rfl⟩
  trans := by
    intro t u v htu huv r hr
    obtain ⟨hartifacts, hcandidates⟩ := htu r hr
    obtain ⟨hartifacts', hcandidates'⟩ := huv r (hartifacts ▸ hr)
    exact ⟨hartifacts'.trans hartifacts, hcandidates'.trans hcandidates⟩

/-- Candidates come with the artifact of their run, and what calls have returned is settled. -/
structure Consistent (t : Tables) : Prop where
  covered : ∀ r, t.artifactsOf r = [] → t.candidatesOf r = []
  settled : ∀ e ∈ t.returned, t.Settled e.1 e.2

theorem consistent_empty : Consistent {} where
  covered _ _ := rfl
  settled _ he := by cases he

theorem Grows.found {a : Artifact} (h : Grows t u) (ha : t.artifactsOf r = [a]) :
    u.artifactsOf r = [a] ∧ u.orderedIds r = t.orderedIds r := by
  obtain ⟨hartifacts, hcandidates⟩ := h r (by rw [ha]; exact List.cons_ne_nil a [])
  refine ⟨hartifacts.trans ha, ?_⟩
  rw [Tables.orderedIds, hcandidates]
  rfl

theorem Tables.Settled.grows (h : t.Settled r x) (hgrows : Grows t u) : u.Settled r x := by
  obtain ⟨a, ha, rfl⟩ := h
  obtain ⟨ha', hids⟩ := hgrows.found ha
  exact ⟨a, ha', by rw [hids]⟩

theorem Tables.Settled.eq (hx : t.Settled r x) (hy : t.Settled r y) : x = y := by
  obtain ⟨a, ha, rfl⟩ := hx
  obtain ⟨b, hb, rfl⟩ := hy
  obtain rfl := (List.cons.inj (ha.symm.trans hb)).1
  rfl

/-- A return of what is settled. -/
theorem Consistent.log (h : Consistent t) (hx : t.Settled r x) :
    Consistent ((Write.logReturn r x).apply t) where
  covered := h.covered
  settled e he := by
    rcases List.mem_append.mp he with he | he
    · exact h.settled e he
    · obtain rfl := List.mem_singleton.mp he
      exact hx

end

section

variable (S : DeterministicIndexGenerator) (k : Call) (reading : Reading)

/-- The candidates of the definitions, from the `n`-th on. -/
def Call.rows : Nat → List Definition → List Candidate
  | _, [] => []
  | n, d :: definitions => k.candidate S reading n d :: Call.rows (n + 1) definitions

def Call.writes : Nat → List Definition → List Write
  | _, [] => []
  | n, d :: definitions => .insertCandidate (k.candidate S reading n d) ::
      .insertAction (k.action n d) :: Call.writes (n + 1) definitions

def Call.locks (n : Nat) (definitions : List Definition) : List Key :=
  (k.rows S reading n definitions).flatMap (fun row => (Write.insertCandidate row).keys)

theorem Call.applyAll_writes (n : Nat) (definitions : List Definition) (t : Tables) :
    (schema.applyAll (k.writes S reading n definitions) t).candidates =
        t.candidates ++ k.rows S reading n definitions ∧
      (schema.applyAll (k.writes S reading n definitions) t).artifacts = t.artifacts ∧
      (schema.applyAll (k.writes S reading n definitions) t).returned = t.returned := by
  induction definitions generalizing n t with
  | nil => exact ⟨(List.append_nil _).symm, rfl, rfl⟩
  | cons d definitions ih =>
    obtain ⟨hcandidates, hartifacts, hreturned⟩ := ih (n + 1) ((Write.insertAction (k.action n d)).apply
      ((Write.insertCandidate (k.candidate S reading n d)).apply t))
    refine ⟨hcandidates.trans ?_, hartifacts, hreturned⟩
    rw [Call.rows, List.append_cons]
    rfl

variable {S k reading}

theorem Call.rows_ids (n : Nat) (definitions : List Definition) :
    (k.rows S reading n definitions).map (·.id) =
      (List.range' n definitions.length).map k.candidateIds := by
  induction definitions generalizing n with
  | nil => rfl
  | cons d definitions ih =>
    rw [Call.rows, List.map_cons, ih, List.length_cons, List.range'_succ, List.map_cons]
    rfl

theorem Call.rows_fingerprints (n : Nat) (definitions : List Definition) :
    (k.rows S reading n definitions).map (·.deterministicFingerprint) =
      definitions.map (·.fingerprint) := by
  induction definitions generalizing n with
  | nil => rfl
  | cons d definitions ih =>
    rw [Call.rows, List.map_cons, ih]
    rfl

theorem Call.rows_run {n : Nat} {definitions : List Definition} {row : Candidate}
    (h : row ∈ k.rows S reading n definitions) : row.optimizationRunId = k.run := by
  induction definitions generalizing n with
  | nil => cases h
  | cons d definitions ih =>
    rcases List.mem_cons.mp h with rfl | h
    · rfl
    · exact ih h

/-- The definitions of what the call reads come in the order of their fingerprints. -/
def Call.Ascending (S : DeterministicIndexGenerator) (k : Call) : Prop :=
  ∀ reading definitions, k.reading = .ok reading → definitionsOf S reading = .ok definitions →
    definitions.Pairwise (·.fingerprint ≤ ·.fingerprint)

theorem Call.insertionSort_rows {definitions : List Definition}
    (h : definitions.Pairwise (·.fingerprint ≤ ·.fingerprint)) (n : Nat) :
    (k.rows S reading n definitions).insertionSort
      (·.deterministicFingerprint ≤ ·.deterministicFingerprint) = k.rows S reading n definitions := by
  apply List.Pairwise.insertionSort_eq
  rw [← List.pairwise_map (f := Candidate.deterministicFingerprint) (R := (· ≤ ·)),
    Call.rows_fingerprints]
  exact List.pairwise_map.mpr h

end

section

variable {S : DeterministicIndexGenerator} {k : Call} {reading : Reading}
  {definitions : List Definition} {t : Tables}

def Call.generated (S : DeterministicIndexGenerator) (k : Call) (reading : Reading)
    (definitions : List Definition) : List Write :=
  k.writes S reading 0 definitions ++ [.insertArtifact (k.artifact S reading definitions)]

theorem Call.applyAll_generated (S : DeterministicIndexGenerator) (k : Call) (reading : Reading)
    (definitions : List Definition) (t : Tables) :
    (schema.applyAll (k.generated S reading definitions) t).candidates =
        t.candidates ++ k.rows S reading 0 definitions ∧
      (schema.applyAll (k.generated S reading definitions) t).artifacts =
        t.artifacts ++ [k.artifact S reading definitions] ∧
      (schema.applyAll (k.generated S reading definitions) t).returned = t.returned := by
  obtain ⟨hcandidates, hartifacts, hreturned⟩ := k.applyAll_writes S reading 0 definitions t
  rw [Call.generated, Schema.applyAll, List.foldl_append]
  refine ⟨hcandidates, ?_, hreturned⟩
  exact congrArg (· ++ [k.artifact S reading definitions]) hartifacts

/-- The commit of a fresh generation. -/
theorem Consistent.generate (h : Consistent t) (hnone : t.artifactsOf k.run = [])
    (hascending : definitions.Pairwise (·.fingerprint ≤ ·.fingerprint)) :
    Consistent (schema.applyAll (k.generated S reading definitions) t) ∧
      Grows t (schema.applyAll (k.generated S reading definitions) t) ∧
      (schema.applyAll (k.generated S reading definitions) t).Settled k.run
        ⟨k.artifactId, (List.range definitions.length).map k.candidateIds, definitions.length⟩ := by
  obtain ⟨hcandidates, hartifacts, hreturned⟩ := k.applyAll_generated S reading definitions t
  generalize schema.applyAll (k.generated S reading definitions) t = u at *
  have hother : ∀ r, r ≠ k.run →
      u.artifactsOf r = t.artifactsOf r ∧ u.candidatesOf r = t.candidatesOf r := by
    intro r hr
    have hrows : (k.rows S reading 0 definitions).filter (·.optimizationRunId = r) = [] := by
      rw [List.filter_eq_nil_iff]
      intro row hrow heq
      exact hr ((of_decide_eq_true heq).symm.trans (Call.rows_run hrow))
    refine ⟨?_, ?_⟩
    · have hself : [k.artifact S reading definitions].filter (·.optimizationRunId = r) = [] :=
        List.filter_cons_of_neg (by simpa [Call.artifact] using Ne.symm hr)
      rw [Tables.artifactsOf, hartifacts, List.filter_append, hself, List.append_nil]
      rfl
    · rw [Tables.candidatesOf, hcandidates, List.filter_append, hrows, List.append_nil]
      rfl
  have hartifact : u.artifactsOf k.run = [k.artifact S reading definitions] := by
    have hself : [k.artifact S reading definitions].filter (·.optimizationRunId = k.run) =
        [k.artifact S reading definitions] :=
      List.filter_cons_of_pos (decide_eq_true rfl)
    rw [Tables.artifactsOf, hartifacts, List.filter_append, hself]
    exact congrArg (· ++ _) hnone
  have hrows : u.candidatesOf k.run = k.rows S reading 0 definitions := by
    have hself : (k.rows S reading 0 definitions).filter (·.optimizationRunId = k.run) =
        k.rows S reading 0 definitions :=
      List.filter_eq_self.mpr (fun row hrow => decide_eq_true (Call.rows_run hrow))
    rw [Tables.candidatesOf, hcandidates, List.filter_append, hself]
    exact congrArg (· ++ _) (h.covered k.run hnone)
  have hgrows : Grows t u := by
    intro r hr
    apply hother
    rintro rfl
    exact hr hnone
  refine ⟨⟨fun r hr => ?_, fun e he => ?_⟩, hgrows, k.artifact S reading definitions, hartifact, ?_⟩
  · by_cases hrun : r = k.run
    · rw [hrun, hartifact] at hr
      cases hr
    · obtain ⟨hartifacts', hcandidates'⟩ := hother r hrun
      exact hcandidates'.trans (h.covered r (hartifacts'.symm.trans hr))
  · rw [hreturned] at he
    exact (h.settled e he).grows hgrows
  · -- the candidates lie in the order in which they were inserted
    rw [Tables.orderedIds, hrows, Call.insertionSort_rows hascending, Call.rows_ids,
      List.range_eq_range']
    rfl

end

section

variable {ι : Type} [DecidableEq ι] {S : DeterministicIndexGenerator} {i : ι} {k : Call}
  {reading : Reading} {definitions : List Definition} {r : RunId} {ls : List Key} {ws : List Write}

/-- The calls whose definitions ascend, each under its row locks. -/
abbrev generating (ι : Type) [DecidableEq ι] (S : DeterministicIndexGenerator) :
    Discipline (schema.alone (call (ι := ι) S) (·.Ascending S)) :=
  among schema (call S) (·.Ascending S) Consistent growth

theorem enduring_settled (r : RunId) (x : Result) (ks : List Key) :
    Enduring schema Grows ks (fun t => t.Settled r x) :=
  .of_growth (fun _ _ hgrows hx => hx.grows hgrows) ks

/-- The artifact that was selected. -/
def Found (r : RunId) (o : Option Artifact) (t : Tables) : Prop :=
  ∀ a ∈ o, t.artifactsOf r = [a]

theorem enduring_found (r : RunId) (o : Option Artifact) (ks : List Key) :
    Enduring schema Grows ks (Found r o) :=
  .of_growth (fun _ _ hgrows ht a ha => (hgrows.found (ht a ha)).1) ks

theorem stable_held {R : Tables → Prop} (hR : Enduring schema Grows ls R) :
    (generating ι S).Stable i (Held i ls ws R) :=
  enduring_stable hR

theorem selectArtifact_rule (forUpdate : Bool) :
    (generating ι S).Triple i (Held i [] [] (fun _ => True)) (selectArtifact i forUpdate r)
      (fun o => Held i (if forUpdate then o.toList.map (.artifact ·.id) else []) [] (Found r o))
      (fun _ _ => True) := by
  refine execute_rule (.true _) (fun o => enduring_found r o _) ?_
  intro t o new _ _ hf
  simp only [schema, Schema.applyAll, List.foldl_nil] at hf
  have hrows : t.artifactsOf r = o.toList ∧ new = [] := by
    split at hf <;> cases hf
    · exact ⟨‹_›, rfl⟩
    · exact ⟨‹_›, rfl⟩
  obtain ⟨hrows, rfl⟩ := hrows
  refine ⟨?_, rfl, (fun _ hw => by cases hw), fun a ha => ?_⟩
  · rw [← hrows]
    rfl
  · obtain rfl := Option.mem_def.mp ha
    exact hrows

/-- The ids that a call finds for the artifact are those that every call finds. -/
theorem selectCandidates_rule (a : Artifact) :
    (generating ι S).Triple i (Held i ls [] (Found r (some a))) (selectCandidates i r)
      (fun ids => Held i ls [] (fun t => t.Settled r ⟨a.id, ids, a.candidateCount⟩))
      (fun _ _ => True) := by
  refine execute_rule (enduring_found r _ ls) (fun ids => enduring_settled r _ ls) ?_
  intro t ids new _ ht hf
  cases hf
  exact ⟨List.append_nil ls, rfl, (fun _ hw => by cases hw), a, ht a rfl, rfl⟩

/-- What is read in a transaction that has written nothing. -/
theorem due_of_read {ι : Type} {i : ι} {Q : Tables → Prop} {s : Store ι} (hQ : Enduring schema Grows ls Q)
    (hs : Held i ls [] Q s) : Due schema Consistent Grows i Q s :=
  due_of_held hQ hs (fun t ht hQt => ⟨ht, growth.refl t, hQt⟩)

theorem existing_rule :
    (generating ι S).Triple i (Held i [] [] (fun _ => True)) (existing i r)
      (fun o => Held i [] [] (fun t => ∀ x ∈ o, t.Settled r x)) (fun _ s => s.sessions i = {}) := by
  have hstable : ∀ o : Option Result, Enduring schema Grows [] (fun t => ∀ x ∈ o, t.Settled r x) :=
    fun o => .of_growth (fun _ _ hgrows ht x hx => (ht x hx).grows hgrows) []
  have hsettled : ∀ o : Option (Artifact × List RowId), Enduring schema Grows []
      (fun t => ∀ p ∈ o, t.Settled r ⟨p.1.id, p.2, p.1.candidateCount⟩) :=
    fun o => .of_growth (fun _ _ hgrows ht p hp => (ht p hp).grows hgrows) []
  refine .bind (transaction_rule hsettled (.bind (selectArtifact_rule false) (fun o => ?_)))
    (fun found => ?_)
  · cases o with
    | none =>
      refine .ret (stable_held (enduring_found r _ _)) (fun s _ hs => due_of_read (hsettled none) ?_)
      exact ⟨hs.1, fun p hp => by cases hp⟩
    | some a =>
      refine .bind (selectCandidates_rule a) (fun ids =>
        .ret (stable_held (enduring_settled r _ _)) (fun s _ hs => due_of_read (hsettled _) ?_))
      refine ⟨hs.1, fun p hp => ?_⟩
      obtain rfl := Option.mem_some_iff.mp hp
      exact hs.2
  · cases found with
    | none => exact .ret (stable_held (hsettled none)) (fun s _ hs => ⟨hs.1, fun x hx => by cases hx⟩)
    | some p =>
      dsimp only
      split
      · exact .fail (stable_held (hsettled _)) (fun s _ hs => hs.1)
      · refine .ret (stable_held (hsettled _)) (fun s _ hs => ⟨hs.1, fun x hx => ?_⟩)
        obtain rfl := Option.mem_some_iff.mp hx
        exact hs.2 p rfl

theorem insertCandidate_rule (row : Candidate) :
    (generating ι S).Triple i (Held i ls ws (fun _ => True)) (insertCandidate i row)
      (fun _ => Held i (ls ++ (Write.insertCandidate row).keys) (ws ++ [.insertCandidate row])
        (fun _ => True)) (fun _ _ => True) := by
  refine execute_rule (.true _) (fun _ => .true _) ?_
  intro t _ new _ _ hf
  split at hf
  · cases hf
  split at hf
  · cases hf
  split at hf
  · cases hf
  cases hf
  refine ⟨rfl, rfl, fun w hw key hkey => ?_, trivial⟩
  obtain rfl := List.mem_singleton.mp hw
  exact List.mem_append_right ls hkey

theorem insertAction_rule (row : CandidateAction) :
    (generating ι S).Triple i (Held i ls ws (fun _ => True)) (insertAction i row)
      (fun _ => Held i ls (ws ++ [.insertAction row]) (fun _ => True)) (fun _ _ => True) := by
  refine execute_rule (.true _) (fun _ => .true _) ?_
  intro t _ new _ _ hf
  cases hf
  refine ⟨List.append_nil ls, rfl, fun w hw key hkey => ?_, trivial⟩
  obtain rfl := List.mem_singleton.mp hw
  cases hkey

/-- The loop over the definitions, by induction on those that are left. -/
theorem insertAll_rule (n : Nat) :
    (generating ι S).Triple i (Held i ls ws (fun _ => True)) (insertAll S i k reading n definitions)
      (fun _ => Held i (ls ++ k.locks S reading n definitions)
        (ws ++ k.writes S reading n definitions) (fun _ => True)) (fun _ _ => True) := by
  induction definitions generalizing n ls ws with
  | nil =>
    refine .ret (stable_held (.true _)) (fun s _ hs => ?_)
    rw [Call.locks, Call.rows, Call.writes, List.flatMap_nil, List.append_nil, List.append_nil]
    exact hs
  | cons d definitions ih =>
    refine .bind (insertCandidate_rule _) (fun _ => .bind (insertAction_rule _)
      (fun _ => .post (ih (n + 1)) (fun _ s _ hs => ?_)))
    simpa [Call.locks, Call.rows, Call.writes] using hs

/-- A run whose artifact nobody else can insert. -/
theorem enduring_ungenerated (ls : List Key) :
    Enduring schema Grows (ls ++ (Write.insertArtifact (k.artifact S reading definitions)).keys)
      (fun t => t.artifactsOf k.run = []) := by
  intro t u hsame _ ht
  have hkey : Key.artifactOf k.run ∈ ls ++
      (Write.insertArtifact (k.artifact S reading definitions)).keys := by
    simp [Write.keys, Call.artifact]
  exact (hsame _ hkey).symm.trans ht

/-- The artifact is the first of its run. -/
theorem insertArtifact_rule :
    (generating ι S).Triple i
      (Held i ls (k.writes S reading 0 definitions) (fun _ => True))
      (insertArtifact i (k.artifact S reading definitions))
      (fun _ => Held i (ls ++ (Write.insertArtifact (k.artifact S reading definitions)).keys)
        (k.generated S reading definitions) (fun t => t.artifactsOf k.run = [])) (fun _ _ => True) := by
  refine execute_rule (.true _) (fun _ => enduring_ungenerated ls) ?_
  intro t _ new _ _ hf
  have hview : (schema.applyAll (k.writes S reading 0 definitions) t).artifactsOf k.run =
      t.artifactsOf k.run := by
    rw [Tables.artifactsOf, (k.applyAll_writes S reading 0 definitions t).2.1]
    rfl
  split at hf
  · cases hf
  split at hf
  · cases hf
  next hnone =>
    split at hf
    · cases hf
    cases hf
    refine ⟨rfl, rfl, fun w hw key hkey => ?_, hview.symm.trans (not_not.mp hnone)⟩
    obtain rfl := List.mem_singleton.mp hw
    exact List.mem_append_right ls hkey

theorem persist_rule (hascending : definitions.Pairwise (·.fingerprint ≤ ·.fingerprint)) :
    (generating ι S).Triple i (Held i [] [] (fun _ => True)) (persist S i k reading definitions)
      (fun x => Held i [] [] (fun t => t.Settled k.run x)) (fun _ s => s.sessions i = {}) := by
  refine transaction_rule (fun x => enduring_settled k.run x [])
    (.bind (selectArtifact_rule true) (fun o => ?_))
  cases o with
  | some a =>
    exact .bind (selectCandidates_rule a) (fun ids => .ret (stable_held (enduring_settled k.run _ _))
      (fun s _ hs => due_of_read (enduring_settled k.run _ _) hs))
  | none =>
    refine .bind (.pre (insertAll_rule 0) (fun s _ hs => ⟨hs.1, trivial⟩)) (fun _ =>
      .bind insertArtifact_rule (fun _ => ?_))
    refine .ret (stable_held (enduring_ungenerated _)) (fun s _ hs =>
      due_of_held (enduring_ungenerated _) hs (fun t ht hnone => ht.generate hnone hascending))

theorem createForRun_rule (hascending : k.Ascending S) :
    (generating ι S).Triple i (Held i [] [] (fun _ => True)) (createForRun S i k)
      (fun x => Held i [] [] (fun t => t.Settled k.run x)) (fun _ s => s.sessions i = {}) := by
  refine .bind existing_rule (fun o => ?_)
  cases o with
  | some x =>
    refine .ret (stable_held (.of_growth (fun _ _ hgrows ht y hy => (ht y hy).grows hgrows) []))
      (fun s _ hs => ⟨hs.1, hs.2 x rfl⟩)
  | none =>
    refine .pre (K := Held i [] [] (fun _ => True)) ?_ (fun s _ hs => ⟨hs.1, trivial⟩)
    cases hreading : k.reading with
    | error message => exact .fail (stable_held (.true _)) (fun s _ hs => hs.1)
    | ok reading =>
      cases hdefinitions : definitionsOf S reading with
      | error e =>
        simp only [hdefinitions]
        exact .fail (stable_held (.true _)) (fun s _ hs => hs.1)
      | ok definitions =>
        simp only [hdefinitions]
        exact persist_rule (hascending reading definitions hreading hdefinitions)

theorem call_rule (hascending : k.Ascending S) :
    (generating ι S).Triple i (fun s => s.sessions i = {}) (call S i k)
      (fun _ s => s.sessions i = {}) (fun _ s => s.sessions i = {}) := by
  refine .bind (.pre (createForRun_rule hascending) (fun s _ hs => ⟨hs, trivial⟩)) (fun x => ?_)
  refine .post (Q := fun _ => Held i [] [] (fun _ => True))
    (transaction_rule (fun _ => .true _) ?_) (fun _ s _ hs => hs.1)
  refine .post (Q := fun _ => Held i [] [.logReturn k.run x] (fun t => t.Settled k.run x))
    (execute_rule (enduring_settled k.run x _) (fun _ => enduring_settled k.run x _) ?_) ?_
  · intro t _ new _ ht hf
    cases hf
    refine ⟨rfl, rfl, fun w hw key hkey => ?_, ht⟩
    obtain rfl := List.mem_singleton.mp hw
    cases hkey
  · exact fun _ s _ hs => due_of_held (enduring_settled k.run x _) hs
      (fun t ht hx => ⟨ht.log hx, growth.refl t, trivial⟩)

/-- Candidate generation is idempotent among calls whose definitions ascend by fingerprint. -/
theorem idempotent {c : Config (Statement Query) (Store ι) Error ι}
    (hr : (schema.system (call S)).Reach (schema.alone (call S) (·.Ascending S)).Allows
      (.quiet { tables := {} }) c) {r : RunId} {x y : Result}
    (hx : (r, x) ∈ c.shared.tables.returned) (hy : (r, y) ∈ c.shared.tables.returned) : x = y := by
  have hsound : Sound schema Consistent Grows c.shared :=
    among_sound consistent_empty (fun _ _ hascending => call_rule hascending) hr
  exact (hsound.tables.settled _ hx).eq (hsound.tables.settled _ hy)

end

section

mutual

/-- The strings of a document, the last one first. -/
def texts : Json → String
  | .str s => s
  | .arr r => itemTexts r
  | .obj r => fieldTexts r
  | _ => ""

def itemTexts : Items → String
  | .nil => ""
  | .cons j r => itemTexts r ++ texts j

def fieldTexts : Fields → String
  | .nil => ""
  | .cons _ j r => fieldTexts r ++ texts j

end

def brief : DeterministicIndexGenerator := ⟨texts⟩

open DeterministicIndexGenerator (allOrders firstOrders unindexed)

def generation (shapes : List SnapshotShapeRow) : Call where
  run := 0
  reading := .ok ⟨0, 0, shapes, fun _ => [], unindexed⟩
  candidateIds n := n
  artifactId := 0
  completedAt := 0

/-- A call, and a retry. -/
def retried (k : Call) : List (Event Unit Call (List Write)) :=
  Event.calls () k 11 ++ Event.calls () k 5

theorem allows_retried {starts : Call → Prop} {k : Call} (hk : starts k)
    {c : Config (Statement Query) (Store Unit) Error Unit} {e : Event Unit Call (List Write)}
    (he : e ∈ retried k) : (schema.alone (call brief) starts).Allows c e := by
  rcases List.mem_append.mp he with he | he
  all_goals
    obtain rfl | rfl := Event.of_mem_calls he
    · exact hk
    · intro l _
      cases l with
      | exec b => exact fun _ _ j hj => absurd rfl hj
      | _ => trivial

theorem idempotent_retried : ∃ (c : Config (Statement Query) (Store Unit) Error Unit) (x y : Result),
    (schema.system (call brief)).Reach (schema.alone (call brief) (·.Ascending brief)).Allows
      (.quiet { tables := {} }) c ∧
    c.shared.tables.returned = [(0, x), (0, y)] ∧ x.candidateCount = 2 ∧ x = y := by
  have hascending : (generation [allOrders, firstOrders]).Ascending brief := by
    have h : ∀ definitions ∈ (definitionsOf brief
        ⟨0, 0, [allOrders, firstOrders], fun _ => [], unindexed⟩).toOption,
        definitions.Pairwise (·.fingerprint ≤ ·.fingerprint) := by
      decide +kernel
    intro reading definitions hreading hdefinitions
    cases hreading
    exact h definitions (by rw [hdefinitions]; rfl)
  have hrun : ((schema.system (call brief)).exec (fun _ _ => true)
      (retried (generation [allOrders, firstOrders])) (.quiet { tables := {} })).map
        (fun c => c.shared.tables.returned) = some [(0, ⟨0, [0, 1], 2⟩), (0, ⟨0, [0, 1], 2⟩)] := by
    decide +kernel
  obtain ⟨c, hr, hc⟩ := System.Reach.of_exec_map
    (P := (schema.alone (call brief) (·.Ascending brief)).Allows)
    (fun _ he _ _ => allows_retried hascending he) hrun
  have hx : (0, ⟨0, [0, 1], 2⟩) ∈ c.shared.tables.returned := by
    rw [hc]
    exact List.mem_cons_self
  exact ⟨c, _, _, hr, hc, rfl, idempotent hr hx hx⟩

/-- The candidate of the first shape has the last fingerprint. -/
theorem not_idempotent : ¬ ∀ (S : DeterministicIndexGenerator)
    (c : Config (Statement Query) (Store Unit) Error Unit),
    (schema.system (call S)).Reach (schema.alone (call S) (fun _ => True)).Allows
      (.quiet { tables := {} }) c →
    ∀ r x y, (r, x) ∈ c.shared.tables.returned → (r, y) ∈ c.shared.tables.returned → x = y := by
  intro h
  have hrun : ((schema.system (call brief)).exec (fun _ _ => true)
      (retried (generation [{ allOrders with queryShapeId := 6 }, firstOrders]))
      (.quiet { tables := {} })).map (fun c => c.shared.tables.returned) =
        some [(0, ⟨0, [0, 1], 2⟩), (0, ⟨0, [1, 0], 2⟩)] := by
    decide +kernel
  obtain ⟨c, hr, hc⟩ := System.Reach.of_exec_map
    (P := (schema.alone (call brief) (fun _ => True)).Allows)
    (fun _ he _ _ => allows_retried trivial he) hrun
  have heq := h brief c hr 0 ⟨0, [0, 1], 2⟩ ⟨0, [1, 0], 2⟩ (by rw [hc]; simp) (by rw [hc]; simp)
  exact absurd heq (by decide)

end

end NoSQLOptimizer.Candidates.Generation
