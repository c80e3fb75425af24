import NoSQLOptimizer.Ledger.Postgres

namespace NoSQLOptimizer.Ledger.Postgres

open Concurrency ControlPlane Encoding

section

variable (sha256 : Json → String)

/-- The row continues these rows of its target. -/
structure Row.Follows (rows : List Row) (r : Row) : Prop where
  sequence : r.sequence = rows.length + 1
  previousHash : r.previousHash = tip rows
  entryHash : r.entryHash = Postgres.entryHash sha256 r

def Chained (rows : List Row) : Prop := verifyFrom sha256 1 genesisHash rows = true

variable {sha256} {rows : List Row} {r : Row}

@[simp] theorem tip_nil : tip [] = genesisHash := rfl

@[simp] theorem tip_concat (rows : List Row) (r : Row) : tip (rows ++ [r]) = r.entryHash := by
  simp [tip]

theorem chained_concat :
    Chained sha256 (rows ++ [r]) ↔ Chained sha256 rows ∧ r.Follows sha256 rows := by
  have key : ∀ expected previous, verifyFrom sha256 expected previous (rows ++ [r]) = true ↔
      verifyFrom sha256 expected previous rows = true ∧ r.sequence = rows.length + expected ∧
        r.previousHash = (rows.getLast?.map (·.entryHash)).getD previous ∧
        r.entryHash = entryHash sha256 r := by
    induction rows with
    | nil => simp [verifyFrom, and_assoc]
    | cons a rows ih =>
      intro expected previous
      simp only [List.cons_append, verifyFrom]
      split
      · simp
      · rw [ih, List.getLast?_cons, List.length_cons, Nat.add_right_comm, Nat.add_assoc]
        cases rows.getLast? <;> simp
  rw [Chained, key, Chained]
  exact and_congr_right (fun _ => ⟨fun h => ⟨h.1, h.2.1, h.2.2⟩, fun h => ⟨h.1, h.2, h.3⟩⟩)

theorem Chained.sequences (h : Chained sha256 rows) :
    rows.map (·.sequence) = List.range' 1 rows.length := by
  induction rows using List.reverseRecOn with
  | nil => rfl
  | append_singleton rows r ih =>
    obtain ⟨hrows, hr⟩ := chained_concat.mp h
    simp [ih hrows, hr.sequence, List.range'_concat, Nat.add_comm]

theorem Chained.linked (h : Chained sha256 rows) :
    rows.IsChain (fun a b => b.previousHash = a.entryHash) := by
  induction rows using List.reverseRecOn with
  | nil => exact .nil
  | append_singleton rows r ih =>
    obtain ⟨hrows, hr⟩ := chained_concat.mp h
    refine List.isChain_append.mpr ⟨ih hrows, .singleton r, fun a ha b hb => ?_⟩
    obtain rfl : r = b := by simpa using hb
    rw [hr.previousHash, tip, ha]
    rfl

theorem Chained.head (h : Chained sha256 rows) :
    ∀ r ∈ rows.head?, r.previousHash = genesisHash := by
  cases rows with
  | nil => simp
  | cons a rows =>
    intro r hr
    obtain rfl : a = r := by simpa using hr
    simp only [Chained, verifyFrom] at h
    split at h
    · cases h
    · next hne =>
      simp only [bne_iff_ne, ne_eq, Bool.or_eq_true, not_or, not_not] at hne
      exact hne.1.2

/-- Where a row stands is read off its sequence. -/
theorem Chained.sequence_eq (h : Chained sha256 rows) {n : Nat} (hn : n < rows.length) :
    rows[n].sequence = n + 1 := by
  have hmap : (rows.map (·.sequence))[n]? = some (1 + n) := by
    simp [h.sequences, hn]
  simpa [hn, Nat.add_comm] using hmap

theorem Chained.sorted (h : Chained sha256 rows) :
    rows.insertionSort (·.sequence ≤ ·.sequence) = rows := by
  refine List.Pairwise.insertionSort_eq (List.pairwise_map.mp ?_)
  rw [h.sequences]
  exact List.pairwise_le_range'

theorem Chained.nodup (h : Chained sha256 rows) : rows.Nodup := by
  refine List.Nodup.of_map (·.sequence) ?_
  rw [h.sequences]
  exact List.nodup_range'

/-- A row after one of the rows, whose sequence no row has yet, comes after the last of them. -/
theorem Chained.follows (h : Chained sha256 rows) {prior : Option Row}
    (hprior : ∀ p ∈ prior, p ∈ rows) (hnew : ∀ p ∈ rows, p.sequence ≠ r.sequence)
    (hseq : r.sequence = (draft prior r.toPayload).sequence)
    (hprev : r.previousHash = (draft prior r.toPayload).previousHash)
    (hhash : r.entryHash = entryHash sha256 r) : r.Follows sha256 rows := by
  cases prior with
  | none =>
    cases rows with
    | nil => exact ⟨hseq, hprev, hhash⟩
    | cons a rows =>
      have ha : a.sequence = 1 := h.sequence_eq (Nat.succ_pos rows.length)
      exact absurd (ha.trans hseq.symm) (hnew a List.mem_cons_self)
  | some p =>
    obtain ⟨k, hk, rfl⟩ := List.getElem_of_mem (hprior p rfl)
    have hlast : k + 1 = rows.length := by
      by_contra hne
      have hk' : k + 1 < rows.length := by omega
      refine hnew _ (List.getElem_mem hk') ?_
      rw [h.sequence_eq hk', hseq, draft, h.sequence_eq hk]
    refine ⟨?_, ?_, hhash⟩
    · rw [hseq, draft, h.sequence_eq hk, hlast]
    · rw [hprev, tip, List.getLast?_eq_getElem?, ← hlast]
      simp [draft, hk]

end

section

variable {ι : Type} {sha256 : Json → String} {jsonb : Json → Json}

/-- What `jsonb` does to a value does not show in its hash. -/
theorem entryHash_rowAfter (hjsonb : ∀ j, (jsonb j).canonical = j.canonical) (prior : Option Row)
    (p : Payload) : (rowAfter sha256 jsonb prior p).entryHash =
      entryHash sha256 (rowAfter sha256 jsonb prior p) := by
  simp only [rowAfter, entryHash, Row.document, Payload.stored, draft, Json.object, Json.canonical,
    Fields.ofList, Fields.canonical, hjsonb, Json.canonical_idem]

/-- The committed rows of a target. -/
def chain (s : Database ι) (target : TargetId) : List Row := s.rows.filter (·.targetId = target)

variable (sha256 jsonb)

/-- Every target's rows are chained, and what is inserted into them continues them, by one
transaction at most. -/
structure Sound (s : Database ι) : Prop where
  chained : ∀ target, Chained sha256 (chain s target)
  follows : ∀ i, ∀ r ∈ (s.connections i).inserted, r.Follows sha256 (chain s r.targetId)
  alone : ∀ i, ∀ r ∈ (s.connections i).inserted, ∀ j, ∀ r' ∈ (s.connections j).inserted,
    r.targetId = r'.targetId → i = j
  given : ∀ x ∈ s.returned, x.2 ∈ s.rows ∧ x.2.toPayload = x.1.stored jsonb
  once : (s.returned.map Prod.snd).Nodup
  owed : ∀ i, ∀ r ∈ (s.connections i).committed, r ∈ s.rows ∧ r ∉ s.returned.map Prod.snd
  owner : ∀ i, ∀ r ∈ (s.connections i).committed, ∀ j, r ∈ (s.connections j).committed → i = j

variable {sha256 jsonb} {s : Database ι} {i : ι} {r : Row}

theorem Sound.empty : Sound sha256 jsonb ({} : Database ι) where
  chained _ := rfl
  follows _ r hr := by cases hr
  alone _ r hr := by cases hr
  given x hx := by cases hx
  once := .nil
  owed _ r hr := by cases hr
  owner _ r hr := by cases hr

theorem Sound.not_mem (h : Sound sha256 jsonb s) (hr : r.Follows sha256 (chain s r.targetId)) :
    r ∉ s.rows := by
  intro hmem
  have hchain : r ∈ chain s r.targetId := by simpa [chain] using hmem
  obtain ⟨n, hn, hget⟩ := List.getElem_of_mem hchain
  have hseq := (h.chained r.targetId).sequence_eq hn
  rw [hget, hr.sequence] at hseq
  omega

theorem prior_mem {target : TargetId} (h : Sound sha256 jsonb s) :
    ∀ r ∈ (ordered s.rows target).getLast?, r ∈ chain s target := by
  intro r hr
  rw [ordered, ← chain, (h.chained target).sorted] at hr
  exact List.mem_of_getLast? hr

theorem Sound.rows_nodup (h : Sound sha256 jsonb s) : s.rows.Nodup := by
  refine List.nodup_iff_count_le_one.mpr (fun r => ?_)
  have hcount : s.rows.count r = (chain s r.targetId).count r := by
    rw [chain, List.count_filter (by simp)]
  rw [hcount]
  exact List.nodup_iff_count_le_one.mp (h.chained r.targetId).nodup r

/-- A row that continues its target's rows, while no transaction inserts into them. -/
theorem Sound.extend (h : Sound sha256 jsonb s) (hr : r.Follows sha256 (chain s r.targetId))
    (hfree : ∀ j, ∀ r' ∈ (s.connections j).inserted, r'.targetId ≠ r.targetId) :
    Sound sha256 jsonb { s with rows := s.rows ++ [r] } := by
  have hother : ∀ target, target ≠ r.targetId →
      chain { s with rows := s.rows ++ [r] } target = chain s target := by
    intro target hne
    simp [chain, Ne.symm hne]
  refine ⟨fun target => ?_, fun j r' hr' => ?_, h.alone, fun x hx => ?_, h.once, fun j r' hr' => ?_,
    h.owner⟩
  · by_cases htarget : target = r.targetId
    · subst htarget
      have hchain : chain { s with rows := s.rows ++ [r] } r.targetId = chain s r.targetId ++ [r] := by
        simp [chain]
      rw [hchain]
      exact chained_concat.mpr ⟨h.chained _, hr⟩
    · rw [hother target htarget]
      exact h.chained target
  · rw [hother _ (hfree j r' hr')]
    exact h.follows j r' hr'
  · exact ⟨List.mem_append_left _ (h.given x hx).1, (h.given x hx).2⟩
  · exact ⟨List.mem_append_left _ (h.owed j r' hr').1, (h.owed j r' hr').2⟩

variable [DecidableEq ι]

@[simp] theorem connections_connect (s : Database ι) (i j : ι) (c : Connection) :
    (s.connect i c).connections j = if j = i then c else s.connections j := by
  simp [Database.connect, Function.update_apply]

@[simp] theorem connect_connect (s : Database ι) (i : ι) (c c' : Connection) :
    (s.connect i c).connect i c' = s.connect i c' := by
  simp [Database.connect]

/-- Only what a transaction inserts, and what it has committed, matters to the others. -/
theorem Sound.connect (h : Sound sha256 jsonb s) {c : Connection}
    (hinsert : ∀ r ∈ c.inserted, r.Follows sha256 (chain s r.targetId) ∧
      ∀ j, j ≠ i → ∀ r' ∈ (s.connections j).inserted, r.targetId ≠ r'.targetId)
    (hcommit : ∀ r ∈ c.committed, (r ∈ s.rows ∧ r ∉ s.returned.map Prod.snd) ∧
      ∀ j, j ≠ i → r ∉ (s.connections j).committed) : Sound sha256 jsonb (s.connect i c) where
  chained := h.chained
  follows j r hr := by
    rw [connections_connect] at hr
    split at hr
    · exact (hinsert r hr).1
    · exact h.follows j r hr
  alone j r hr j' r' hr' ht := by
    rw [connections_connect] at hr hr'
    split at hr <;> split at hr'
    · next hj hj' => rw [hj, hj']
    · next hj' => exact absurd ht ((hinsert r hr).2 j' hj' r' hr')
    · next hj _ => exact absurd ht.symm ((hinsert r' hr').2 j hj r hr)
    · exact h.alone j r hr j' r' hr' ht
  given := h.given
  once := h.once
  owed j r hr := by
    rw [connections_connect] at hr
    split at hr
    · exact (hcommit r hr).1
    · exact h.owed j r hr
  owner j r hr j' hr' := by
    rw [connections_connect] at hr hr'
    split at hr <;> split at hr'
    · next hj hj' => rw [hj, hj']
    · next hj' => exact absurd hr' ((hcommit r hr).2 j' hj')
    · next hj _ => exact absurd hr ((hcommit r hr').2 j hj)
    · exact h.owner j r hr j' hr'

theorem Sound.reset (h : Sound sha256 jsonb s) (i : ι) : Sound sha256 jsonb (s.connect i {}) :=
  h.connect (fun _ hr => by cases hr) (fun _ hr => by cases hr)

theorem Sound.commit (h : Sound sha256 jsonb s) : Sound sha256 jsonb (s.commit i) := by
  cases hins : (s.connections i).inserted with
  | none =>
    simp only [Database.commit, hins, Option.toList_none, List.append_nil]
    exact h.reset i
  | some r =>
    have hr := h.follows i r hins
    have hlonger := (h.reset i).extend (r := r) hr ?_
    · have howed := hlonger.connect (i := i) (c := { committed := some r })
        (fun _ hr => by cases hr) ?_
      · simpa [Database.commit, hins, Database.connect] using howed
      · rintro _ ⟨⟩
        refine ⟨⟨by simp, fun hmem => ?_⟩, fun j hj hcommitted => ?_⟩
        · obtain ⟨x, hx, rfl⟩ := List.mem_map.mp hmem
          exact h.not_mem hr (h.given x hx).1
        · simp only [connections_connect, hj, if_false] at hcommitted
          exact h.not_mem hr (h.owed j r hcommitted).1
    · intro j r' hr' ht
      rw [connections_connect] at hr'
      split at hr'
      · cases hr'
      · next hj => exact hj (h.alone j r' hr' i r hins ht)

theorem Sound.give (h : Sound sha256 jsonb s) {p : Payload}
    (hc : s.connections i = { committed := some r }) (hp : r.toPayload = p.stored jsonb) :
    Sound sha256 jsonb (s.give i p r) := by
  have hbare := h.reset i
  have howed := h.owed i r (by rw [hc]; rfl)
  refine ⟨hbare.chained, hbare.follows, hbare.alone, fun x hx => ?_, ?_, fun j r' hr' => ?_,
    hbare.owner⟩
  · rcases List.mem_append.mp hx with hx | hx
    · exact hbare.given x hx
    · obtain rfl := List.mem_singleton.mp hx
      exact ⟨howed.1, hp⟩
  · simp only [Database.give, List.map_append, List.map_singleton]
    refine List.nodup_append.mpr ⟨h.once, List.nodup_singleton _, fun a ha b hb hab => ?_⟩
    obtain rfl := List.mem_singleton.mp hb
    exact howed.2 (hab ▸ ha)
  · refine ⟨(hbare.owed j r' hr').1, fun hmem => ?_⟩
    simp only [Database.give, List.map_append, List.map_singleton, List.mem_append,
      List.mem_singleton] at hmem
    rcases hmem with hmem | rfl
    · exact (hbare.owed j r' hr').2 hmem
    · have hr'' : r' ∈ ((s.connect i {}).connections j).committed := hr'
      rw [connections_connect] at hr''
      split at hr''
      · cases hr''
      · next hj => exact hj (h.owner j r' hr'' i (by rw [hc]; rfl))

variable (sha256 jsonb)

def discipline : Discipline (readCommitted (ι := ι) sha256 jsonb) where
  inv := Sound sha256 jsonb
  rely i s t := t.connections i = s.connections i ∧ s.rows ⊆ t.rows
  idle i s := s.connections i = {}
  refl _ _ := ⟨rfl, fun _ h => h⟩
  trans h h' := ⟨h'.1.trans h.1, fun _ hr => h'.2 (h.2 hr)⟩
  idle_stable h hr := hr.1.trans h

variable {sha256 jsonb}

theorem connect_admits {c : Connection} (h : Sound sha256 jsonb (s.connect i c)) :
    (discipline sha256 jsonb).Admits i s (s.connect i c) :=
  ⟨h, trivial, fun j hj => ⟨by simp [hj], fun _ hr => hr⟩⟩

theorem crashable (K : Database ι → Prop) : (discipline sha256 jsonb).Crashable i K :=
  fun _ s hs _ _ => ⟨connect_admits (Sound.reset hs i), by simp [discipline, appends, Database.rollback]⟩

/-- What a session knows of the prior row stays true, and so does what it has locked and inserted. -/
theorem stable_connection (prior : Option Row) (target : TargetId) (c : Connection) :
    (discipline sha256 jsonb).Stable i (fun s =>
      s.connections i = c ∧ ∀ r ∈ prior, r ∈ chain s target) := by
  rintro s t ⟨hconnections, hrows⟩ - ⟨hc, hprior⟩
  refine ⟨hconnections.trans hc, fun r hr => ?_⟩
  obtain ⟨hmem, ht⟩ := List.mem_filter.mp (hprior r hr)
  exact List.mem_filter.mpr ⟨hrows hmem, ht⟩

theorem stable_is (c : Connection) :
    (discipline sha256 jsonb).Stable i (fun s => s.connections i = c) :=
  fun _ _ hr _ hc => hr.1.trans hc

theorem lockPrior_triple (prior : Option Row) (target : TargetId) :
    (discipline sha256 jsonb).Triple i
      (fun s => s.connections i = {} ∧ ∀ r ∈ prior, r ∈ chain s target) (lockPrior i prior)
      (fun _ s => s.connections i = { locked := prior } ∧ ∀ r ∈ prior, r ∈ chain s target)
      (fun _ _ => True) := by
  cases prior with
  | none => exact .ret (stable_connection none target _) (fun _ _ h => h)
  | some r =>
    refine .modify (stable_connection _ _ _) (crashable _) (stable_connection _ _ _) ?_
    intro s hs ⟨hc, hprior⟩ _
    simp only [Database.lock, hc]
    exact ⟨connect_admits (hs.connect (fun _ hr => by cases hr) (fun _ hr => by cases hr)),
      by simp, hprior⟩

/-- The insert succeeds for the row that continues its target's rows only. -/
theorem insert_triple (hjsonb : ∀ j, (jsonb j).canonical = j.canonical) (prior : Option Row)
    (p : Payload) :
    (discipline sha256 jsonb).Triple i
      (fun s => s.connections i = { locked := prior } ∧ ∀ r ∈ prior, r ∈ chain s p.targetId)
      (.atomic (.insert (rowAfter sha256 jsonb prior p))
        (Database.insert i (rowAfter sha256 jsonb prior p)))
      (fun row s => s.connections i = { locked := prior, inserted := some row } ∧
        row.toPayload = p.stored jsonb) (fun _ _ => True) := by
  refine .atomic (stable_connection _ _ _) (crashable _) (fun row => (stable_is _).and (.const _))
    (fun _ => .const _) ?_ (fun _ _ _ _ _ _ => trivial)
  intro s row t hs ⟨hc, hprior⟩ hgrants ht
  simp only [Database.insert] at ht
  split at ht
  · cases ht
  · next hclash =>
    cases ht
    have hnew : ∀ q ∈ chain s p.targetId,
        q.sequence ≠ (rowAfter sha256 jsonb prior p).sequence := by
      intro q hq hseq
      obtain ⟨hmem, htarget⟩ := List.mem_filter.mp hq
      exact hclash (List.any_eq_true.mpr ⟨q, hmem, decide_eq_true
        (.inr ⟨(of_decide_eq_true htarget).symm, hseq.symm⟩)⟩)
    have hfollows := (hs.chained p.targetId).follows hprior hnew rfl rfl
      (entryHash_rowAfter hjsonb prior p)
    refine ⟨connect_admits (hs.connect ?_ ?_), by simp [hc], rfl⟩
    · rintro _ ⟨⟩
      refine ⟨hfollows, fun j hj r' hr' htarget => hgrants j hj r' hr' (.inr ⟨htarget, ?_⟩)⟩
      have hlater := (hs.follows j r' hr').sequence
      rw [hfollows.sequence, hlater, ← htarget]
      rfl
    · rintro _ hr
      rw [hc] at hr
      cases hr

theorem append_triple (hjsonb : ∀ j, (jsonb j).canonical = j.canonical) (p : Payload) :
    (discipline sha256 jsonb).Triple i (fun s => s.connections i = {}) (append sha256 jsonb i p)
      (fun row s => s.connections i = { committed := some row } ∧ row.toPayload = p.stored jsonb)
      (fun _ s => s.connections i = {}) := by
  have hblock : (discipline sha256 jsonb).Triple i (fun s => s.connections i = {})
      (transaction sha256 jsonb i p)
      (fun row s => (∃ prior, s.connections i = { locked := prior, inserted := some row }) ∧
        row.toPayload = p.stored jsonb) (fun _ _ => True) := by
    refine .bind (.read (stable_is _) (crashable _) (fun prior => stable_connection prior p.targetId _)
      (fun s hs hc _ => ⟨hc, prior_mem hs⟩)) (fun prior => ?_)
    refine .bind (lockPrior_triple prior p.targetId) (fun _ => ?_)
    exact (insert_triple hjsonb prior p).post (fun _ _ _ h => ⟨⟨prior, h.1⟩, h.2⟩)
  refine .bind (.rescue hblock (fun e => .bind (Q := fun _ s => s.connections i = {}) ?_
    (fun _ => .fail (stable_is _) (fun _ _ h => h)))) (fun row => .bind (Q := fun _ s =>
      s.connections i = { committed := some row } ∧ row.toPayload = p.stored jsonb) ?_
    (fun _ => .ret ((stable_is _).and (.const _)) (fun _ _ h => h)))
  · exact .modify (.const _) (crashable _) (stable_is _)
      (fun s hs _ _ => ⟨connect_admits (hs.reset i), by simp [Database.rollback]⟩)
  · refine .modify (.and (.ex (fun _ => stable_is _)) (.const _)) (crashable _)
      ((stable_is _).and (.const _)) ?_
    intro s hs ⟨⟨prior, hc⟩, hp⟩ _
    refine ⟨⟨hs.commit, trivial, fun j hj => ⟨?_, fun _ hr => List.mem_append_left _ hr⟩⟩, ?_, hp⟩
    · simp [Database.commit, Database.connect, hj]
    · simp [Database.commit, Database.connect, hc]

theorem discipline_governs (hjsonb : ∀ j, (jsonb j).canonical = j.canonical) :
    (discipline (ι := ι) sha256 jsonb).Governs := by
  refine .of_triples (fun i p _ => ?_) (fun s t ht hs => ?_)
  · refine .bind (append_triple hjsonb p) (fun row => ?_)
    refine .modify ((stable_is _).and (.const _)) (crashable _) (stable_is _) ?_
    intro s hs ⟨hc, hp⟩ _
    exact ⟨⟨hs.give hc hp, trivial, fun j hj => ⟨by simp [Database.give, Database.connect, hj],
      fun _ hr => hr⟩⟩, by simp [discipline, Database.give, Database.connect]⟩
  · obtain rfl : t = s := ht
    exact Discipline.Neutral.refl hs

/-- Whatever the appends have come to, every target's committed entries have the sequences from 1
on, each linked to the one before, and verify; an append that has returned has contributed the one
entry that it returned. -/
theorem appends_chained (hjsonb : ∀ j, (jsonb j).canonical = j.canonical)
    {c : Config Statement (Database ι) Error ι}
    (hr : (appends sha256 jsonb).Reach (readCommitted sha256 jsonb).Allows (.quiet {}) c) :
    (∀ target,
      (ordered c.shared.rows target).map (·.sequence) =
        List.range' 1 (ordered c.shared.rows target).length ∧
      (∀ r ∈ (ordered c.shared.rows target).head?, r.previousHash = genesisHash) ∧
      (ordered c.shared.rows target).IsChain (fun a b => b.previousHash = a.entryHash) ∧
      verifyTarget sha256 c.shared.rows target = true) ∧
    (c.shared.returned.map Prod.snd).Nodup ∧
    ∀ x ∈ c.shared.returned, c.shared.rows.count x.2 = 1 ∧ x.2.toPayload = x.1.stored jsonb := by
  have hholds := Discipline.Holds.reach (.quiet Sound.empty (fun _ => rfl))
    (discipline_governs hjsonb) hr
  have hsound : Sound sha256 jsonb c.shared := hholds.inv
  refine ⟨fun target => ?_, hsound.once, fun x hx => ?_⟩
  · have hchained := hsound.chained target
    have hordered : ordered c.shared.rows target = chain c.shared target := hchained.sorted
    rw [verifyTarget, hordered]
    exact ⟨hchained.sequences, hchained.head, hchained.linked, hchained⟩
  · obtain ⟨hmem, hpayload⟩ := hsound.given x hx
    exact ⟨List.count_eq_one_of_mem hsound.rows_nodup hmem, hpayload⟩

end

section

/-- A digest that tells the rows of different sequences apart. -/
def sequenceDigest (document : Json) : String :=
  match document.get "sequence" with
  | .int n => if n = 1 then "first" else "later"
  | _ => ""

def applied (entryId : EntryId) : Payload where
  entryId := entryId
  targetId := 7
  runId := none
  candidateId := none
  actionId := "create-index:orders_status"
  eventType := "APPLIED"
  beforeState := .object []
  intendedState := .object []
  afterState := .object []
  forwardAction := .object [("type", .str "CREATE_INDEX")]
  inverseAction := .object [("type", .str "DROP_INDEX")]
  evidenceHash := "r7-evidence"
  actor := "r7-worker"
  createdAt := 0

/-- Both sessions find the ledger empty; the one that comes second has to append again. -/
def firstAppends : List (Event Bool Payload Empty) :=
  [.start false (applied 1), .start true (applied 2), .step false, .step true] ++
    List.replicate 3 (.step false) ++ List.replicate 2 (.step true) ++
      Event.calls true (applied 3) 5

def granted (c : Config Statement (Database Bool) Error Bool) : Event Bool Payload Empty → Bool
  | .step i => match c.label i with
    | some (.lock r) => decide (∀ j, j ≠ i → (c.shared.connections j).locked ≠ some r)
    | some (.insert r) =>
      decide (∀ j, j ≠ i → (c.shared.connections j).inserted.all (! r.Clashes ·) = true)
    | _ => true
  | _ => true

/-- A granted step is one that the database lets happen. -/
theorem allows_of_granted {c : Config Statement (Database Bool) Error Bool}
    {e : Event Bool Payload Empty} (h : granted c e = true) :
    (readCommitted sequenceDigest Json.canonical).Allows c e := by
  cases e with
  | start i p => trivial
  | crash i => exact fun _ _ => trivial
  | env e => exact e.elim
  | step i =>
    intro l hl
    simp only [granted, hl] at h
    cases l with
    | lock r =>
      intro j hj
      exact of_decide_eq_true h j hj
    | insert r =>
      intro j hj r' hr'
      have hall := of_decide_eq_true h j hj
      rw [Option.mem_def.mp hr'] at hall
      simpa using hall
    | _ => trivial

theorem appends_chained_first : ∃ c, (appends (ι := Bool) sequenceDigest Json.canonical).Reach
      (readCommitted sequenceDigest Json.canonical).Allows (.quiet {}) c ∧
    c.shared.rows.length = 2 ∧ c.shared.returned.length = 2 ∧
    verifyTarget sequenceDigest c.shared.rows 7 = true ∧
    (c.shared.returned.map Prod.snd).Nodup := by
  have hrun : ((appends (ι := Bool) sequenceDigest Json.canonical).exec granted firstAppends
      (.quiet {})).map (fun c => (c.shared.rows.length, c.shared.returned.length)) = some (2, 2) := by
    decide +kernel
  obtain ⟨c, hc, hlength⟩ := System.Reach.of_exec_map
    (fun _ _ _ h => allows_of_granted h) hrun
  obtain ⟨hrows, hreturned⟩ := Prod.mk.inj hlength
  have hchained := appends_chained Json.canonical_idem hc
  exact ⟨c, hc, hrows, hreturned, (hchained.1 7).2.2.2, hchained.2.1⟩

end

end NoSQLOptimizer.Ledger.Postgres
