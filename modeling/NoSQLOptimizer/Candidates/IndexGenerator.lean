import NoSQLOptimizer.Candidates.Definitions
import NoSQLOptimizer.ControlPlane.Rows

namespace NoSQLOptimizer.Candidates

open ControlPlane Encoding Actions
open Workloads (sortedSet)

section

variable {seen seen' : List String} {l l' : KeyPattern}

theorem unseen_congr (h : ∀ f, f ∈ seen ↔ f ∈ seen') : unseen seen l = unseen seen' l := by
  induction l generalizing seen seen' with
  | nil => rfl
  | cons key l ih =>
    simp only [unseen, h key.1]
    split
    · exact ih h
    · rw [@ih (key.1 :: seen) (key.1 :: seen') (fun f => by simp [h f])]

/-- Of fields with different names those stay that were not seen, and all of them have been seen then. -/
theorem unseen_append (hnodup : (l.map Prod.fst).Nodup) :
    unseen seen (l ++ l') = l.filter (·.1 ∉ seen) ++ unseen (l.map Prod.fst ++ seen) l' := by
  induction l generalizing seen with
  | nil => rfl
  | cons key l ih =>
    obtain ⟨hkey, hnodup⟩ := List.nodup_cons.mp hnodup
    simp only [List.cons_append, unseen]
    split
    · next hseen =>
      rw [ih hnodup, List.filter_cons_of_neg (by simpa using hseen)]
      congr 1
      apply unseen_congr
      intro f
      simp only [List.map_cons, List.mem_append, List.mem_cons]
      constructor
      · tauto
      · rintro ((rfl | h) | h)
        · exact .inr hseen
        · exact .inl h
        · exact .inr h
    · next hseen =>
      rw [ih hnodup, List.filter_cons_of_pos (by simpa using hseen), List.cons_append]
      have hfilter : l.filter (·.1 ∉ key.1 :: seen) = l.filter (·.1 ∉ seen) := by
        apply List.filter_congr
        intro other hother
        have hne : other.1 ≠ key.1 := fun h => hkey (List.mem_map.mpr ⟨other, hother, h⟩)
        simp [hne]
      rw [hfilter]
      congr 2
      apply unseen_congr
      intro f
      simp only [List.map_cons, List.cons_append, List.mem_append, List.mem_cons]
      tauto

theorem unseen_eq_filter (hnodup : (l.map Prod.fst).Nodup) :
    unseen seen l = l.filter (·.1 ∉ seen) := by
  have happend : unseen seen (l ++ []) = l.filter (·.1 ∉ seen) ++ unseen (l.map Prod.fst ++ seen) [] :=
    unseen_append hnodup
  rwa [List.append_nil, unseen, List.append_nil] at happend

end

instance : Std.Total (fun a b : String × Int => pairLE a b) where
  total a b := by
    simp only [pairLE, Bool.or_eq_true, Bool.and_eq_true, decide_eq_true_eq]
    rcases lt_trichotomy a.1 b.1 with h | h | h
    · exact .inl (.inl h)
    · exact (le_total a.2 b.2).imp (fun h' => .inr ⟨h, h'⟩) (fun h' => .inr ⟨h.symm, h'⟩)
    · exact .inr (.inl h)

instance : IsTrans (String × Int) (fun a b => pairLE a b) where
  trans a b c hab hbc := by
    simp only [pairLE, Bool.or_eq_true, Bool.and_eq_true, decide_eq_true_eq] at hab hbc ⊢
    rcases hab with hab | ⟨hab, hab'⟩
    · rcases hbc with hbc | ⟨hbc, -⟩
      · exact .inl (hab.trans hbc)
      · exact .inl (hbc ▸ hab)
    · rcases hbc with hbc | ⟨hbc, hbc'⟩
      · exact .inl (hab ▸ hbc)
      · exact .inr ⟨hab.trans hbc, hab'.trans hbc'⟩

theorem le_of_pairLE {a b : String × Int} (h : pairLE a b) : a.1 ≤ b.1 := by
  simp only [pairLE, Bool.or_eq_true, Bool.and_eq_true, decide_eq_true_eq] at h
  rcases h with h | ⟨h, -⟩
  · exact h.le
  · exact h.le

theorem mem_sortedSet {names : List String} {f : String} : f ∈ sortedSet names ↔ f ∈ names := by
  rw [sortedSet, List.mem_insertionSort, List.mem_dedup]

theorem sortedSet_nodup (names : List String) : (sortedSet names).Nodup :=
  (List.perm_insertionSort _ _).nodup_iff.mpr (List.nodup_dedup names)

theorem map_fst_one (names : List String) :
    (names.map (fun f => (f, (1 : Int)))).map Prod.fst = names := by
  rw [List.map_map]
  exact List.map_id' names

namespace FindQueryShape

variable {shape : FindQueryShape}

/-- The sort, in the order of the names, without what is compared for equality. -/
def sortedSort (shape : FindQueryShape) : KeyPattern :=
  (shape.sortFields.insertionSort (pairLE · ·)).filter (·.1 ∉ shape.equalityFields)

/-- The sort as it is requested, without what is compared for equality. -/
def requestedSort (shape : FindQueryShape) : KeyPattern :=
  shape.sortFields.filter (·.1 ∉ shape.equalityFields)

/-- The ranges that neither equality nor the sort has. -/
def remainingRange (shape : FindQueryShape) : List String :=
  (sortedSet shape.rangeFields).filter
    (fun f => f ∉ shape.equalityFields ∧ f ∉ shape.sortFields.map Prod.fst)

theorem keys_eq (hsort : (shape.sortFields.map Prod.fst).Nodup) :
    shape.keys = (sortedSet shape.equalityFields).map (·, 1) ++ shape.sortedSort ++
      shape.remainingRange.map (·, 1) := by
  have hperm := List.perm_insertionSort (fun a b : String × Int => pairLE a b) shape.sortFields
  have hsorted : ((shape.sortFields.insertionSort (pairLE · ·)).map Prod.fst).Nodup :=
    ((hperm.map Prod.fst).nodup_iff).mpr hsort
  have hequality : (((sortedSet shape.equalityFields).map (·, (1 : Int))).map Prod.fst).Nodup := by
    rw [map_fst_one]
    exact sortedSet_nodup _
  have hrange : (((sortedSet shape.rangeFields).map (·, (1 : Int))).map Prod.fst).Nodup := by
    rw [map_fst_one]
    exact sortedSet_nodup _
  rw [keys, List.append_assoc, unseen_append hequality, unseen_append hsorted,
    unseen_eq_filter hrange, List.append_assoc]
  congr 1
  · simp
  congr 1
  · rw [sortedSort, map_fst_one]
    apply List.filter_congr
    intro key _
    simp [mem_sortedSet]
  · rw [remainingRange, List.filter_map, map_fst_one]
    congr 1
    apply List.filter_congr
    intro f _
    simp only [Function.comp, List.append_nil, List.mem_append, mem_sortedSet,
      (hperm.map Prod.fst).mem_iff]
    exact decide_eq_decide.mpr (by tauto)

theorem sortedSort_perm : shape.sortedSort.Perm shape.requestedSort :=
  (List.perm_insertionSort _ _).filter _

theorem sortedSort_pairwise : shape.sortedSort.Pairwise (fun a b => a.1 ≤ b.1) :=
  ((List.pairwise_insertionSort (fun a b : String × Int => pairLE a b) _).filter _).imp le_of_pairLE

theorem requestedSort_nodup (hsort : (shape.sortFields.map Prod.fst).Nodup) :
    (shape.requestedSort.map Prod.fst).Nodup :=
  hsort.sublist (List.filter_sublist.map Prod.fst)

theorem ascending_of_sortedSort (hsort : (shape.sortFields.map Prod.fst).Nodup)
    (h : shape.sortedSort = shape.requestedSort) :
    shape.requestedSort.Pairwise (fun a b => a.1 < b.1) := by
  have hdistinct : shape.requestedSort.Pairwise (fun a b => a.1 ≠ b.1) :=
    List.pairwise_map.mp (requestedSort_nodup hsort)
  have hpairwise : shape.requestedSort.Pairwise (fun a b => a.1 ≤ b.1) := h ▸ sortedSort_pairwise
  exact (hpairwise.and hdistinct).imp (fun hab => lt_of_le_of_ne hab.1 hab.2)

theorem sortedSort_eq (hsort : (shape.sortFields.map Prod.fst).Nodup)
    (h : shape.requestedSort.Pairwise (fun a b => a.1 < b.1)) :
    shape.sortedSort = shape.requestedSort :=
  eq_of_perm_of_key Prod.fst sortedSort_perm (requestedSort_nodup hsort) sortedSort_pairwise
    (h.imp le_of_lt)

/-- All the fields that the shape names. -/
def fieldNames (shape : FindQueryShape) : List String :=
  shape.equalityFields ++ shape.sortFields.map Prod.fst ++ shape.rangeFields

theorem unseen_nodup (seen : List String) (l : KeyPattern) :
    ((unseen seen l).map Prod.fst).Nodup ∧
      ∀ f, f ∈ (unseen seen l).map Prod.fst ↔ f ∈ l.map Prod.fst ∧ f ∉ seen := by
  induction l generalizing seen with
  | nil => simp [unseen]
  | cons key l ih =>
    rw [unseen]
    split
    · next hseen =>
      refine ⟨(ih seen).1, fun f => ?_⟩
      rw [(ih seen).2, List.map_cons, List.mem_cons]
      refine ⟨fun h => ⟨.inr h.1, h.2⟩, fun h => ⟨h.1.resolve_left ?_, h.2⟩⟩
      rintro rfl
      exact h.2 hseen
    · next hseen =>
      obtain ⟨hnodup, hmem⟩ := ih (key.1 :: seen)
      refine ⟨List.nodup_cons.mpr ⟨fun h => ?_, hnodup⟩, fun f => ?_⟩
      · exact ((hmem key.1).mp h).2 List.mem_cons_self
      · rw [List.map_cons, List.mem_cons, hmem, List.map_cons, List.mem_cons, List.mem_cons]
        by_cases hf : f = key.1
        · subst hf
          simp [hseen]
        · simp [hf]

theorem keys_nodup : (shape.keys.map Prod.fst).Nodup := (unseen_nodup _ _).1

theorem mem_keys {f : String} : f ∈ shape.keys.map Prod.fst ↔ f ∈ shape.fieldNames := by
  rw [keys, (unseen_nodup _ _).2]
  simp only [List.map_append, map_fst_one, List.mem_append, mem_sortedSet, fieldNames,
    ((List.perm_insertionSort (fun a b : String × Int => pairLE a b) _).map Prod.fst).mem_iff,
    List.not_mem_nil, not_false_eq_true, and_true]

theorem keys_length : shape.keys.length = shape.fieldNames.dedup.length := by
  rw [← List.length_map (f := Prod.fst)]
  apply List.Perm.length_eq
  rw [List.perm_ext_iff_of_nodup keys_nodup (List.nodup_dedup _)]
  intro f
  rw [mem_keys, List.mem_dedup]

/-- The texts meet the limits of the action's schema. -/
structure Valid (shape : FindQueryShape) : Prop where
  database : lengthWithin 1 63 shape.database
  collection : lengthWithin 1 255 shape.collection
  equality : ∀ f ∈ shape.equalityFields, lengthWithin 1 255 f
  sort : ∀ key ∈ shape.sortFields, key.1 ∉ shape.equalityFields → IndexField.valid ⟨key.1, key.2⟩
  range : ∀ f ∈ shape.rangeFields, lengthWithin 1 255 f

theorem valid_one {f : String} : IndexField.valid ⟨f, 1⟩ = lengthWithin 1 255 f := by
  simp [IndexField.valid]

theorem mem_sortedSort {key : String × Int} :
    key ∈ shape.sortedSort ↔ key ∈ shape.sortFields ∧ key.1 ∉ shape.equalityFields := by
  simp [sortedSort]

theorem mem_remainingRange {f : String} : f ∈ shape.remainingRange ↔
    f ∈ shape.rangeFields ∧ f ∉ shape.equalityFields ∧ f ∉ shape.sortFields.map Prod.fst := by
  rw [remainingRange, List.mem_filter, mem_sortedSet, decide_eq_true_eq]

/-- The keys are valid just where the fields that they are made of are. -/
theorem forall_keys_valid (hsort : (shape.sortFields.map Prod.fst).Nodup) :
    (∀ key ∈ shape.keys, IndexField.valid ⟨key.1, key.2⟩) ↔
      (∀ f ∈ shape.equalityFields, lengthWithin 1 255 f) ∧
      (∀ key ∈ shape.sortFields, key.1 ∉ shape.equalityFields →
        IndexField.valid ⟨key.1, key.2⟩) ∧
      ∀ f ∈ shape.rangeFields, lengthWithin 1 255 f := by
  rw [keys_eq hsort]
  constructor
  · intro h
    have hequality : ∀ f ∈ shape.equalityFields, lengthWithin 1 255 f := by
      intro f hf
      rw [← valid_one]
      refine h (f, 1) ?_
      simp [mem_sortedSet, hf]
    have hkeys : ∀ key ∈ shape.sortFields, key.1 ∉ shape.equalityFields →
        IndexField.valid ⟨key.1, key.2⟩ := by
      intro key hkey hnot
      refine h key ?_
      simp [mem_sortedSort, hkey, hnot]
    refine ⟨hequality, hkeys, fun f hf => ?_⟩
    by_cases hequal : f ∈ shape.equalityFields
    · exact hequality f hequal
    by_cases hsorted : f ∈ shape.sortFields.map Prod.fst
    · obtain ⟨key, hkey, rfl⟩ := List.mem_map.mp hsorted
      exact (Bool.and_eq_true_iff.mp (hkeys key hkey hequal)).1
    · rw [← valid_one]
      refine h (f, 1) (List.mem_append_right _ (List.mem_map.mpr ⟨f, ?_, rfl⟩))
      exact mem_remainingRange.mpr ⟨hf, hequal, hsorted⟩
  · rintro ⟨hequality, hkeys, hrange⟩ key hkey
    rcases List.mem_append.mp hkey with hkey | hkey
    · rcases List.mem_append.mp hkey with hkey | hkey
      · obtain ⟨f, hf, rfl⟩ := List.mem_map.mp hkey
        exact valid_one.trans (hequality f (mem_sortedSet.mp hf))
      · obtain ⟨hkey, hnot⟩ := mem_sortedSort.mp hkey
        exact hkeys key hkey hnot
    · obtain ⟨f, hf, rfl⟩ := List.mem_map.mp hkey
      exact valid_one.trans (hrange f (mem_remainingRange.mp hf).1)

end FindQueryShape

namespace DeterministicIndexGenerator

variable {S : DeterministicIndexGenerator} {shape : FindQueryShape}

theorem modelValidate_payload (hcount : 1 ≤ shape.keys.length ∧ shape.keys.length ≤ 5) :
    (∃ action, (S.payload shape).modelValidate = .ok action) ↔
      lengthWithin 1 63 shape.database ∧ lengthWithin 1 255 shape.collection ∧
        ∀ key ∈ shape.keys, IndexField.valid ⟨key.1, key.2⟩ := by
  have hfields : (S.payload shape).fields.all IndexField.valid =
      shape.keys.all (fun key => IndexField.valid ⟨key.1, key.2⟩) := by
    rw [payload, List.all_map]
    rfl
  have hinvalid : (S.payload shape).invalidFields = [] ↔
      lengthWithin 1 63 shape.database ∧ lengthWithin 1 255 shape.collection ∧
        ∀ key ∈ shape.keys, IndexField.valid ⟨key.1, key.2⟩ := by
    rw [← List.all_eq_true, ← hfields]
    simp [ActionPayload.invalidFields, hcount, payload, lengthWithin_indexNameOf]
  rw [← hinvalid]
  constructor
  · rintro ⟨action, haction⟩
    rw [← ActionPayload.modelValidate_ok haction]
    exact action.wellFormed
  · intro h
    exact ⟨⟨_, h, rfl⟩, dif_pos h⟩

/-- A candidate is that of the shape's payload. -/
theorem generate_eq_ok {candidate : IndexCandidate} (h : S.generate shape = .ok (some candidate)) :
    candidate.candidateFingerprint = S.fingerprint shape ∧
      candidate.action.toActionPayload = S.payload shape := by
  unfold generate at h
  split_ifs at h with hkeys
  · cases h
  · cases hvalid : (S.payload shape).modelValidate with
    | error e =>
      rw [hvalid] at h
      cases h
    | ok action =>
      rw [hvalid] at h
      cases h
      exact ⟨rfl, ActionPayload.modelValidate_ok hvalid⟩

theorem keysOf_payload {action : CreateIndexAction} (h : action.toActionPayload = S.payload shape) :
    keysOf action = shape.keys := by
  rw [keysOf, show action.fields = (S.payload shape).fields by rw [← h], payload, List.map_map]
  exact List.map_id' _

theorem keysOf_generate {candidate : IndexCandidate}
    (h : S.generate shape = .ok (some candidate)) : keysOf candidate.action = shape.keys :=
  keysOf_payload (generate_eq_ok h).2

/-- A shape with keys, and not too many, has a candidate just where its texts are valid. -/
theorem exists_candidate_iff (hsort : (shape.sortFields.map Prod.fst).Nodup)
    (hcount : 1 ≤ shape.keys.length ∧ shape.keys.length ≤ 5) :
    (∃ candidate, S.generate shape = .ok (some candidate)) ↔ shape.Valid := by
  have hkeys : ¬ (shape.keys = [] ∨ 5 < shape.keys.length) := by
    rw [← List.length_eq_zero_iff]
    omega
  have hgenerate : (∃ candidate, S.generate shape = .ok (some candidate)) ↔
      ∃ action, (S.payload shape).modelValidate = .ok action := by
    rw [generate, if_neg hkeys]
    cases (S.payload shape).modelValidate with
    | error e => simp [Except.map]
    | ok action => simp [Except.map]
  rw [hgenerate, modelValidate_payload hcount, FindQueryShape.forall_keys_valid hsort]
  constructor
  · rintro ⟨hdatabase, hcollection, hequality, hkeys, hrange⟩
    exact ⟨hdatabase, hcollection, hequality, hkeys, hrange⟩
  · rintro ⟨hdatabase, hcollection, hequality, hkeys, hrange⟩
    exact ⟨hdatabase, hcollection, hequality, hkeys, hrange⟩

/-- The one index has the fields of equality, the sort as it was requested, and the other ranges; how
often and in which order equality and ranges are listed makes no difference. -/
structure ServesSort (S : DeterministicIndexGenerator) (shape : FindQueryShape) : Prop where
  keys : ∃ (candidate : IndexCandidate) (equality range : List String),
    S.generate shape = .ok (some candidate) ∧
    keysOf candidate.action =
      equality.map (·, 1) ++ shape.sortFields.filter (·.1 ∉ shape.equalityFields) ++
        range.map (·, 1) ∧
    (∀ f, f ∈ equality ↔ f ∈ shape.equalityFields) ∧
    (∀ f, f ∈ range ↔
      f ∈ shape.rangeFields ∧ f ∉ shape.equalityFields ∧ f ∉ shape.sortFields.map Prod.fst) ∧
    ((keysOf candidate.action).map Prod.fst).Nodup
  unchanged : ∀ equality range, (∀ f, f ∈ equality ↔ f ∈ shape.equalityFields) →
    (∀ f, f ∈ range ↔ f ∈ shape.rangeFields) →
    S.generate { shape with equalityFields := equality, rangeFields := range } = S.generate shape

theorem generate_unchanged {equality range : List String}
    (hequality : ∀ f, f ∈ equality ↔ f ∈ shape.equalityFields)
    (hrange : ∀ f, f ∈ range ↔ f ∈ shape.rangeFields) :
    S.generate { shape with equalityFields := equality, rangeFields := range } =
      S.generate shape := by
  have hkeys : ({ shape with equalityFields := equality, rangeFields := range } :
      FindQueryShape).keys = shape.keys := by
    simp only [FindQueryShape.keys, sortedSet_congr hequality, sortedSet_congr hrange]
  have hfingerprint : S.fingerprint { shape with equalityFields := equality, rangeFields := range } =
      S.fingerprint shape := by
    rw [fingerprint, hkeys]
    rfl
  simp only [generate, payload, hkeys, hfingerprint]

/-- A shape with different sort fields gets the index that serves its sort just where its texts are
valid and the sort asks for the fields in the order of their names. -/
theorem servesSort_iff_ascending (hsort : (shape.sortFields.map Prod.fst).Nodup)
    (hcount : 1 ≤ shape.fieldNames.dedup.length ∧ shape.fieldNames.dedup.length ≤ 5) :
    ServesSort S shape ↔ shape.Valid ∧
      (shape.sortFields.filter (·.1 ∉ shape.equalityFields)).Pairwise (·.1 < ·.1) := by
  rw [← FindQueryShape.keys_length] at hcount
  constructor
  · rintro ⟨⟨candidate, equality, range, hcandidate, hkeys, hequality, -, hnodup⟩, -⟩
    refine ⟨(exists_candidate_iff hsort hcount).mp ⟨candidate, hcandidate⟩, ?_⟩
    have hlist : shape.keys = equality.map (·, 1) ++ shape.requestedSort ++ range.map (·, 1) :=
      (keysOf_generate hcandidate).symm.trans hkeys
    rw [hkeys] at hnodup
    have hdistinct : equality.Nodup := by
      rw [List.append_assoc, List.map_append, map_fst_one] at hnodup
      exact (List.nodup_append.mp hnodup).1
    have hlength : (equality.map (·, (1 : Int))).length =
        ((sortedSet shape.equalityFields).map (·, (1 : Int))).length := by
      rw [List.length_map, List.length_map]
      exact ((List.perm_ext_iff_of_nodup hdistinct (sortedSet_nodup _)).mpr
        (fun f => (hequality f).trans mem_sortedSet.symm)).length_eq
    rw [FindQueryShape.keys_eq hsort, List.append_assoc, List.append_assoc] at hlist
    have hrest := (List.append_inj hlist hlength.symm).2
    have hsame := (List.append_inj hrest FindQueryShape.sortedSort_perm.length_eq).1
    exact FindQueryShape.ascending_of_sortedSort hsort hsame
  · rintro ⟨hvalid, hascending⟩
    obtain ⟨candidate, hcandidate⟩ := (exists_candidate_iff (S := S) hsort hcount).mpr hvalid
    refine ⟨⟨candidate, sortedSet shape.equalityFields, shape.remainingRange, hcandidate, ?_,
      fun f => mem_sortedSet, fun f => FindQueryShape.mem_remainingRange, ?_⟩,
      fun _ _ => generate_unchanged⟩
    · rw [keysOf_generate hcandidate, FindQueryShape.keys_eq hsort,
        FindQueryShape.sortedSort_eq hsort hascending]
      rfl
    · rw [keysOf_generate hcandidate]
      exact FindQueryShape.keys_nodup

/-- The orders of a customer, the latest first and then by their ids. -/
def latestFirst : FindQueryShape :=
  ⟨"latest", "shop", "orders", ["customer"], [("placed", -1), ("id", 1)], []⟩

theorem servesSort_iff_ascending_latestFirst : (latestFirst.sortFields.map Prod.fst).Nodup ∧
    (1 ≤ latestFirst.fieldNames.dedup.length ∧ latestFirst.fieldNames.dedup.length ≤ 5) ∧
    (ServesSort verbatim latestFirst ↔ latestFirst.Valid ∧
      (latestFirst.sortFields.filter (·.1 ∉ latestFirst.equalityFields)).Pairwise (·.1 < ·.1)) :=
  ⟨by decide, by decide, servesSort_iff_ascending (by decide) (by decide)⟩

/-- The index has the ids before the dates. -/
theorem not_servesSort : ¬ ∀ (S : DeterministicIndexGenerator) (shape : FindQueryShape),
    (shape.sortFields.map Prod.fst).Nodup →
    1 ≤ shape.fieldNames.dedup.length ∧ shape.fieldNames.dedup.length ≤ 5 → ServesSort S shape := by
  intro h
  obtain ⟨⟨candidate, equality, range, hcandidate, hkeys, -, hrange, -⟩, -⟩ :=
    h verbatim latestFirst (by decide) (by decide)
  have hnone : range = [] :=
    List.eq_nil_iff_forall_not_mem.mpr (fun f hf => absurd ((hrange f).mp hf).1 (List.not_mem_nil))
  have hlist : latestFirst.keys = [("customer", 1), ("id", 1), ("placed", -1)] := by decide
  have hsort : latestFirst.sortFields.filter (·.1 ∉ latestFirst.equalityFields) =
      [("placed", -1), ("id", 1)] := by decide
  rw [keysOf_generate hcandidate, hlist, hnone, hsort] at hkeys
  have hlast := congrArg List.getLast? hkeys
  simp at hlast

end DeterministicIndexGenerator

end NoSQLOptimizer.Candidates
