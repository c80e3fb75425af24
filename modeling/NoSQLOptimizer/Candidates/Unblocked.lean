import NoSQLOptimizer.Candidates.IndexGenerator

namespace NoSQLOptimizer.Candidates

open Encoding Actions QueryShapes
open Workloads (sortedSet ShapeId)

/-- The definitions of the rows are there, and with them each that a row alone would have. -/
def Unblocked (S : DeterministicIndexGenerator) (indexes : IndexMetadata)
    (rows : List SnapshotShapeRow) (evidence : ShapeId → List String) : Prop :=
  ∃ definitions, S.definitions indexes rows evidence = .ok definitions ∧
    ∀ row ∈ rows, ∀ alone, S.definitions indexes [row] evidence = .ok alone →
      ∀ d ∈ alone, ∃ e ∈ definitions, e.fingerprint = d.fingerprint ∧ e.action = d.action

/-- Where the row calls for an index of one to five fields, its names are of a length that the action's
schema allows. -/
def SnapshotShapeRow.Fits (indexes : IndexMetadata) (row : SnapshotShapeRow) : Prop :=
  ∀ shape, row.findShape = some shape → (indexes row.realNamespace).isSome →
    1 ≤ shape.fieldNames.dedup.length ∧ shape.fieldNames.dedup.length ≤ 5 →
    lengthWithin 1 63 shape.database ∧ lengthWithin 1 255 shape.collection ∧
      ∀ f ∈ shape.fieldNames, lengthWithin 1 255 f

theorem direction_eq_some {v : Value} {d : Int} (h : direction v = some d) : d = -1 ∨ d = 1 := by
  cases v with
  | bool b =>
    cases b with
    | false => cases h
    | true =>
      cases h
      exact .inr rfl
  | int n =>
    simp only [direction] at h
    split at h
    · next hn =>
      cases h
      exact hn
    · cases h
  | float q =>
    simp only [direction] at h
    split at h
    · cases h
      exact .inl rfl
    split at h
    · cases h
      exact .inr rfl
    · cases h
  | _ => cases h

theorem direction_of_findFields {v : Value} {fields : FindFields} (h : findFields v = some fields) :
    ∀ key ∈ fields.2.1, key.2 = -1 ∨ key.2 = 1 := by
  unfold findFields at h
  split at h
  · split at h
    · cases h
      intro key hkey
      obtain ⟨f, -, hf⟩ := List.mem_filterMap.mp hkey
      obtain ⟨d, hd, rfl⟩ := Option.map_eq_some_iff.mp hf
      exact direction_eq_some hd
    · cases h
  · cases h

theorem mem_of_mem_unseen {seen : List String} {l : KeyPattern} {key : String × Int}
    (h : key ∈ unseen seen l) : key ∈ l := by
  induction l generalizing seen with
  | nil => cases h
  | cons other l ih =>
    rw [unseen] at h
    split at h
    · exact List.mem_cons_of_mem _ (ih h)
    · rcases List.mem_cons.mp h with rfl | h
      · exact List.mem_cons_self
      · exact List.mem_cons_of_mem _ (ih h)

/-- The directions of a row's keys are those of an index. -/
theorem direction_of_keys {row : SnapshotShapeRow} {shape : FindQueryShape}
    (h : row.findShape = some shape) : ∀ key ∈ shape.keys, key.2 = -1 ∨ key.2 = 1 := by
  simp only [SnapshotShapeRow.findShape, Option.bind_eq_bind, Option.bind_eq_some_iff] at h
  obtain ⟨parts, -, fields, hfields, hshape⟩ := h
  cases hshape
  intro key hkey
  have hmem := mem_of_mem_unseen hkey
  rw [List.mem_append, List.mem_append, List.mem_insertionSort] at hmem
  rcases hmem with (hmem | hmem) | hmem
  · obtain ⟨f, -, rfl⟩ := List.mem_map.mp hmem
    exact .inr rfl
  · exact direction_of_findFields hfields key hmem
  · obtain ⟨f, -, rfl⟩ := List.mem_map.mp hmem
    exact .inr rfl

theorem forall_keys_valid_iff {shape : FindQueryShape}
    (hdirection : ∀ key ∈ shape.keys, key.2 = -1 ∨ key.2 = 1) :
    (∀ key ∈ shape.keys, IndexField.valid ⟨key.1, key.2⟩) ↔
      ∀ f ∈ shape.fieldNames, lengthWithin 1 255 f := by
  constructor
  · intro h f hf
    obtain ⟨key, hkey, rfl⟩ := List.mem_map.mp (FindQueryShape.mem_keys.mpr hf)
    exact (Bool.and_eq_true_iff.mp (h key hkey)).1
  · intro h key hkey
    have hname := h key.1 (FindQueryShape.mem_keys.mp (List.mem_map.mpr ⟨key, hkey, rfl⟩))
    simpa [IndexField.valid, hname] using hdirection key hkey

namespace DeterministicIndexGenerator

variable {S : DeterministicIndexGenerator} {indexes : IndexMetadata}
  {evidence : ShapeId → List String} {rows : List SnapshotShapeRow} {row : SnapshotShapeRow}

theorem generate_isOk {shape : FindQueryShape}
    (hdirection : ∀ key ∈ shape.keys, key.2 = -1 ∨ key.2 = 1) :
    (∃ o, S.generate shape = .ok o) ↔
      (1 ≤ shape.fieldNames.dedup.length ∧ shape.fieldNames.dedup.length ≤ 5 →
        lengthWithin 1 63 shape.database ∧ lengthWithin 1 255 shape.collection ∧
          ∀ f ∈ shape.fieldNames, lengthWithin 1 255 f) := by
  rw [← FindQueryShape.keys_length]
  by_cases hkeys : shape.keys = [] ∨ 5 < shape.keys.length
  · rw [← List.length_eq_zero_iff] at hkeys
    have hcount : ¬ (1 ≤ shape.keys.length ∧ shape.keys.length ≤ 5) := by omega
    rw [List.length_eq_zero_iff] at hkeys
    simp [generate, hkeys, hcount]
  · have hcount : 1 ≤ shape.keys.length ∧ shape.keys.length ≤ 5 := by
      rw [← List.length_eq_zero_iff] at hkeys
      omega
    have hgenerate : (∃ o, S.generate shape = .ok o) ↔
        ∃ action, (S.payload shape).modelValidate = .ok action := by
      rw [generate, if_neg hkeys]
      cases (S.payload shape).modelValidate <;> simp [Except.map]
    rw [hgenerate, modelValidate_payload hcount, forall_keys_valid_iff hdirection]
    exact ⟨fun h _ => h, fun h => h hcount⟩

theorem proposal_isOk : (∃ o, S.proposal indexes row = .ok o) ↔ row.Fits indexes := by
  unfold proposal SnapshotShapeRow.Fits
  cases hshape : row.findShape with
  | none => simp
  | some shape =>
    cases hindexes : indexes row.realNamespace with
    | none => simp
    | some existing =>
      have hgenerate := generate_isOk (S := S) (direction_of_keys hshape)
      simp only [Option.some.injEq, forall_eq', Option.isSome_some, forall_const, ← hgenerate]
      cases S.generate shape <;> simp [Except.map]

/-- The loop goes through just where each row does. -/
theorem collect_isOk {seen : List String} :
    (∃ definitions, S.collect indexes evidence seen rows = .ok definitions) ↔
      ∀ row ∈ rows, ∃ o, S.proposal indexes row = .ok o := by
  induction rows generalizing seen with
  | nil => simp [collect]
  | cons row rows ih =>
    rw [List.forall_mem_cons, collect]
    cases hrow : S.proposal indexes row with
    | error e => simp [bind, Except.bind]
    | ok o =>
      cases o with
      | none => simpa [bind, Except.bind] using ih
      | some candidate =>
        simp only [bind, Except.bind]
        split
        · simpa using ih
        · rw [← @ih (candidate.candidateFingerprint :: seen)]
          cases S.collect indexes evidence (candidate.candidateFingerprint :: seen) rows <;>
            simp [pure, Except.pure]

theorem proposal_generated {candidate : IndexCandidate}
    (h : S.proposal indexes row = .ok (some candidate)) :
    ∃ shape, row.findShape = some shape ∧ S.generate shape = .ok (some candidate) := by
  unfold proposal at h
  split at h
  · next shape existing hshape _ =>
    refine ⟨shape, hshape, ?_⟩
    cases hgenerated : S.generate shape with
    | error e =>
      rw [hgenerated] at h
      cases h
    | ok o =>
      rw [hgenerated] at h
      simp only [Except.map, Except.ok.injEq, Option.filter_eq_some_iff] at h
      rw [h.1]
  · cases h

/-- Candidates with one fingerprint have one action. -/
theorem action_eq_of_fingerprint (hsha : Function.Injective S.sha256)
    {shape shape' : FindQueryShape} {candidate candidate' : IndexCandidate}
    (h : S.generate shape = .ok (some candidate)) (h' : S.generate shape' = .ok (some candidate'))
    (heq : candidate.candidateFingerprint = candidate'.candidateFingerprint) :
    candidate.action = candidate'.action := by
  obtain ⟨hfingerprint, hpayload⟩ := generate_eq_ok h
  obtain ⟨hfingerprint', hpayload'⟩ := generate_eq_ok h'
  have hprint : S.fingerprint shape = S.fingerprint shape' := by
    rw [← hfingerprint, ← hfingerprint', heq]
  obtain ⟨hdatabase, hrest⟩ := Prod.mk.inj (fingerprint_inj hsha hprint).2
  obtain ⟨hcollection, hkeys⟩ := Prod.mk.inj hrest
  apply CreateIndexAction.ext_payload
  rw [hpayload, hpayload', payload, payload, hdatabase, hcollection, hkeys, hprint]

/-- The rows do not block each other just where the names of each fit the action's schema. -/
theorem unblocked_iff_fits (hsha : Function.Injective S.sha256) :
    Unblocked S indexes rows evidence ↔ ∀ row ∈ rows, row.Fits indexes := by
  have hmem (q : SnapshotShapeRow) : q ∈ rows.insertionSort
      (toString ·.queryShapeId ≤ toString ·.queryShapeId) ↔ q ∈ rows := List.mem_insertionSort _
  have hok : (∃ definitions, S.definitions indexes rows evidence = .ok definitions) ↔
      ∀ row ∈ rows, row.Fits indexes := by
    rw [definitions, collect_isOk]
    simp only [hmem, proposal_isOk]
  rw [← hok]
  constructor
  · rintro ⟨definitions, h, -⟩
    exact ⟨definitions, h⟩
  rintro ⟨definitions, h⟩
  refine ⟨definitions, h, ?_⟩
  intro row hrow alone halone d hd
  obtain ⟨q, hq, candidate, hcandidate, rfl, -⟩ := (Collected.of_collect halone).sound d hd
  obtain rfl := List.mem_singleton.mp hq
  have hcollected := Collected.of_collect h
  obtain ⟨e, he, heq⟩ := (hcollected.complete q ((hmem q).mpr hrow) candidate
    hcandidate).resolve_left (fun hnil => by cases hnil)
  obtain ⟨p, -, other, hother, rfl, -⟩ := hcollected.sound e he
  obtain ⟨shape, -, hgenerated⟩ := proposal_generated hcandidate
  obtain ⟨shape', -, hgenerated'⟩ := proposal_generated hother
  exact ⟨_, he, heq, action_eq_of_fingerprint hsha hgenerated' hgenerated heq⟩

/-- A query by a field without a name. -/
def unnamed : SnapshotShapeRow :=
  ⟨6, "unnamed", .object [("query", .object [("filter", .object [("", .str "?")])])], "shop.orders"⟩

theorem unblocked_iff_fits_orders : Function.Injective verbatim.sha256 ∧
    (Unblocked verbatim unindexed [allOrders, firstOrders] (fun _ => []) ↔
      ∀ row ∈ [allOrders, firstOrders], row.Fits unindexed) :=
  ⟨Json.text_injective, unblocked_iff_fits Json.text_injective⟩

/-- It blocks the others. -/
theorem not_unblocked : ¬ ∀ (S : DeterministicIndexGenerator) (indexes : IndexMetadata)
    (rows : List SnapshotShapeRow) (evidence : ShapeId → List String),
    Function.Injective S.sha256 → Unblocked S indexes rows evidence := by
  intro h
  obtain ⟨definitions, hok, -⟩ :=
    h verbatim unindexed [allOrders, unnamed] (fun _ => []) Json.text_injective
  have hproposal := (collect_isOk.mp ⟨definitions, hok⟩) unnamed
    ((List.mem_insertionSort _).mpr (List.mem_cons_of_mem _ List.mem_cons_self))
  have hfound : unnamed.findShape = some ⟨"unnamed", "shop", "orders", [""], [], []⟩ := by
    decide +kernel
  have hfits := proposal_isOk.mp hproposal _ hfound rfl (by decide)
  exact absurd (hfits.2.2 "" (by decide)) (by decide)

end DeterministicIndexGenerator

end NoSQLOptimizer.Candidates
