import NoSQLOptimizer.Actions.Schemas
import NoSQLOptimizer.Candidates.Durable

namespace NoSQLOptimizer.Candidates

open ControlPlane Encoding Actions
open Workloads (sortedSet ShapeId)

/-- A key pattern, field by field. -/
abbrev KeyPattern := List (String × Int)

structure FindQueryShape where
  queryShapeHash : String
  database : String
  collection : String
  equalityFields : List String
  sortFields : List (String × Int)
  rangeFields : List String
  deriving DecidableEq

structure IndexCandidate where
  candidateFingerprint : String
  pattern : String
  action : CreateIndexAction
  deriving DecidableEq

/-- How Python orders pairs. -/
def pairLE (a b : String × Int) : Bool := a.1 < b.1 || (a.1 = b.1 && a.2 ≤ b.2)

/-- The fields that were not seen yet, each with its first direction. -/
def unseen : List String → KeyPattern → KeyPattern
  | _, [] => []
  | seen, key :: keys =>
    if key.1 ∈ seen then unseen seen keys else key :: unseen (key.1 :: seen) keys

namespace FindQueryShape

variable (shape : FindQueryShape)

/-- Equality, then sort, then range. -/
def keys : KeyPattern :=
  unseen [] ((sortedSet shape.equalityFields).map (·, 1) ++
    shape.sortFields.insertionSort (pairLE · ·) ++ (sortedSet shape.rangeFields).map (·, 1))

def document (pattern : String) (keys : KeyPattern) : Json :=
  .object [("collection", .str shape.collection), ("database", .str shape.database),
    ("keys", .list (keys.map (fun key => .list [.str key.1, .int key.2]))), ("pattern", .str pattern),
    ("query_shape_hash", .str shape.queryShapeHash)]

end FindQueryShape

/-- The generator; `sha256` digests the text of a canonical document. -/
structure DeterministicIndexGenerator where
  sha256 : Json → String

def frozenPattern : String := "EQUALITY_SORT_RANGE"

/-- `optimizer_` and the first sixteen digits. -/
def indexNameOf (fingerprint : String) : String :=
  "optimizer_" ++ String.ofList (fingerprint.toList.take 16)

namespace DeterministicIndexGenerator

variable (S : DeterministicIndexGenerator)

def fingerprint (shape : FindQueryShape) : String :=
  S.sha256 (shape.document frozenPattern shape.keys).canonical

def payload (shape : FindQueryShape) : ActionPayload where
  database := shape.database
  collection := shape.collection
  indexName := indexNameOf (S.fingerprint shape)
  fields := shape.keys.map (fun key => ⟨key.1, key.2⟩)

/-- The one candidate of the shape, or none; the action may be refused. -/
def generate (shape : FindQueryShape) : Except ValidationError (Option IndexCandidate) :=
  if shape.keys = [] ∨ 5 < shape.keys.length then .ok none
  else (S.payload shape).modelValidate.map
    (fun action => some ⟨S.fingerprint shape, frozenPattern, action⟩)

end DeterministicIndexGenerator

/-- A row of `workload_snapshot_query_shapes`, joined with its shape and its namespace. -/
structure SnapshotShapeRow where
  queryShapeId : ShapeId
  queryShapeHash : String
  normalizedShape : Json
  realNamespace : String
  deriving DecidableEq

/-- `value.partition(".")`, where there is a separator. -/
def partition (value : String) : Option (String × String) :=
  match value.toList.dropWhile (· ≠ '.') with
  | [] => none
  | _ :: collection =>
    some (String.ofList (value.toList.takeWhile (· ≠ '.')), String.ofList collection)

/-- What the generator is given of a row. -/
def SnapshotShapeRow.findShape (row : SnapshotShapeRow) : Option FindQueryShape := do
  let namespaceParts ← partition row.realNamespace
  let fields ← findFields (.ofJson row.normalizedShape)
  return { queryShapeHash := row.queryShapeHash
           database := namespaceParts.1
           collection := namespaceParts.2
           equalityFields := fields.1
           sortFields := fields.2.1
           rangeFields := fields.2.2 }

structure Definition where
  queryShapeId : ShapeId
  fingerprint : String
  action : CreateIndexAction
  evidenceRefs : List String
  deriving DecidableEq

def definition (evidence : ShapeId → List String) (row : SnapshotShapeRow)
    (candidate : IndexCandidate) : Definition where
  queryShapeId := row.queryShapeId
  fingerprint := candidate.candidateFingerprint
  action := candidate.action
  evidenceRefs := sortedSet (evidence row.queryShapeId)

def keysOf (action : CreateIndexAction) : KeyPattern :=
  action.fields.map (fun f => (f.field, f.direction))

/-- Where the index goes, and its keys. -/
def keyPattern (action : CreateIndexAction) : String × String × KeyPattern :=
  (action.database, action.collection, keysOf action)

/-- The key patterns of each namespace whose indexes could be read. -/
abbrev IndexMetadata := String → Option (List KeyPattern)

namespace DeterministicIndexGenerator

variable (S : DeterministicIndexGenerator) (indexes : IndexMetadata)

local instance : LawfulBEq KeyPattern := inferInstance

/-- The candidate of the row, unless its keys are there already. -/
def proposal (row : SnapshotShapeRow) : Except ValidationError (Option IndexCandidate) :=
  match row.findShape, indexes row.realNamespace with
  | some shape, some existing =>
    (S.generate shape).map (·.filter (fun candidate => keysOf candidate.action ∉ existing))
  | _, _ => .ok none

/-- The loop of `_definitions`, with the fingerprints that it has seen. -/
def collect (evidence : ShapeId → List String) :
    List String → List SnapshotShapeRow → Except ValidationError (List Definition)
  | _, [] => .ok []
  | seen, row :: rows => do
    match ← S.proposal indexes row with
    | none => collect evidence seen rows
    | some candidate =>
      if candidate.candidateFingerprint ∈ seen then collect evidence seen rows
      else
        let definitions ← collect evidence (candidate.candidateFingerprint :: seen) rows
        return definition evidence row candidate :: definitions

/-- `_definitions`. -/
def definitions (rows : List SnapshotShapeRow) (evidence : ShapeId → List String) :
    Except ValidationError (List Definition) :=
  S.collect indexes evidence [] (rows.insertionSort (toString ·.queryShapeId ≤ toString ·.queryShapeId))

end DeterministicIndexGenerator

/-- What the definitions of one run are to be. -/
structure NoDuplicates (indexes : IndexMetadata) (definitions : List Definition) : Prop where
  patterns : definitions.Pairwise (fun d e => keyPattern d.action ≠ keyPattern e.action)
  missing : ∀ d ∈ definitions, ∀ existing,
    indexes (d.action.database ++ "." ++ d.action.collection) = some existing →
      keysOf d.action ∉ existing
  names : definitions.Pairwise (fun d e => d.action.indexName ≠ e.action.indexName)

/-- Of two shapes that call for an index which is missing, those with different hashes call for
different ones, and different fingerprints differ in the digits that are kept. -/
def Apart (S : DeterministicIndexGenerator) (indexes : IndexMetadata) (rows : List SnapshotShapeRow) :
    Prop :=
  ∀ p ∈ rows, ∀ q ∈ rows, ∀ c d, S.proposal indexes p = .ok (some c) →
    S.proposal indexes q = .ok (some d) →
    (p.queryShapeHash ≠ q.queryShapeHash → keyPattern c.action ≠ keyPattern d.action) ∧
    (c.candidateFingerprint ≠ d.candidateFingerprint →
      indexNameOf c.candidateFingerprint ≠ indexNameOf d.candidateFingerprint)

namespace DeterministicIndexGenerator

variable {S : DeterministicIndexGenerator} {indexes : IndexMetadata}
  {evidence : ShapeId → List String} {rows : List SnapshotShapeRow} {seen : List String}
  {definitions : List Definition}

/-- What a candidate of a row is. -/
structure Proposed (S : DeterministicIndexGenerator) (indexes : IndexMetadata)
    (row : SnapshotShapeRow) (shape : FindQueryShape) (candidate : IndexCandidate) : Prop where
  found : row.findShape = some shape
  fingerprint : candidate.candidateFingerprint = S.fingerprint shape
  pattern : keyPattern candidate.action = (shape.database, shape.collection, shape.keys)
  name : candidate.action.indexName = indexNameOf candidate.candidateFingerprint
  missing : ∀ existing, indexes row.realNamespace = some existing →
    keysOf candidate.action ∉ existing

theorem Proposed.of_proposal {row : SnapshotShapeRow} {candidate : IndexCandidate}
    (h : S.proposal indexes row = .ok (some candidate)) :
    ∃ shape, Proposed S indexes row shape candidate := by
  unfold proposal at h
  split at h
  · next shape existing hshape hexisting =>
    unfold generate at h
    split_ifs at h with hkeys
    · cases h
    · cases hvalid : (S.payload shape).modelValidate with
      | error e =>
        rw [hvalid] at h
        cases h
      | ok action =>
        rw [hvalid] at h
        simp only [Except.map, Except.ok.injEq, Option.filter_eq_some_iff] at h
        obtain ⟨hcandidate, hmissing⟩ := h
        cases hcandidate
        have hpayload := ActionPayload.modelValidate_ok hvalid
        have hfields : keysOf action = shape.keys := by
          rw [keysOf, show action.fields = (S.payload shape).fields by rw [← hpayload], payload,
            List.map_map]
          exact List.map_id' _
        refine ⟨shape, hshape, rfl, ?_, ?_, fun existing' hexisting' => ?_⟩
        · rw [keyPattern, hfields, show action.database = shape.database by rw [hpayload]; rfl,
            show action.collection = shape.collection by rw [hpayload]; rfl]
        · rw [show action.indexName = (S.payload shape).indexName by rw [← hpayload]]
          rfl
        · rw [hexisting] at hexisting'
          cases hexisting'
          exact of_decide_eq_true hmissing
  · cases h

theorem partition_join {value : String} {parts : String × String} (h : partition value = some parts) :
    parts.1 ++ "." ++ parts.2 = value := by
  unfold partition at h
  split at h
  · cases h
  · next c collection hdrop =>
    cases h
    have hc : c = '.' := by
      have := List.head?_dropWhile_not (· ≠ '.') value.toList
      rw [hdrop] at this
      simpa using this
    subst hc
    have hjoin := List.takeWhile_append_dropWhile (p := (· ≠ '.')) (l := value.toList)
    rw [hdrop] at hjoin
    apply String.toList_inj.mp
    simp only [String.toList_append, String.toList_ofList]
    rw [List.append_assoc]
    exact hjoin

/-- What the loop makes of the rows. -/
structure Collected (S : DeterministicIndexGenerator) (indexes : IndexMetadata)
    (evidence : ShapeId → List String) (seen : List String) (rows : List SnapshotShapeRow)
    (definitions : List Definition) : Prop where
  sound : ∀ d ∈ definitions, ∃ row ∈ rows, ∃ candidate,
    S.proposal indexes row = .ok (some candidate) ∧ d = definition evidence row candidate ∧
      candidate.candidateFingerprint ∉ seen
  complete : ∀ row ∈ rows, ∀ candidate, S.proposal indexes row = .ok (some candidate) →
    candidate.candidateFingerprint ∈ seen ∨
      ∃ d ∈ definitions, d.fingerprint = candidate.candidateFingerprint
  distinct : definitions.Pairwise (fun d e => d.fingerprint ≠ e.fingerprint)

theorem Collected.skip {row : SnapshotShapeRow}
    (h : Collected S indexes evidence seen rows definitions)
    (hrow : ∀ candidate, S.proposal indexes row = .ok (some candidate) →
      candidate.candidateFingerprint ∈ seen) :
    Collected S indexes evidence seen (row :: rows) definitions := by
  refine ⟨fun d hd => ?_, fun q hq candidate hcandidate => ?_, h.distinct⟩
  · obtain ⟨q, hq, hd⟩ := h.sound d hd
    exact ⟨q, List.mem_cons_of_mem _ hq, hd⟩
  · rcases List.mem_cons.mp hq with rfl | hq
    · exact .inl (hrow candidate hcandidate)
    · exact h.complete q hq candidate hcandidate

theorem Collected.take {row : SnapshotShapeRow} {candidate : IndexCandidate}
    (hrow : S.proposal indexes row = .ok (some candidate))
    (hnew : candidate.candidateFingerprint ∉ seen)
    (h : Collected S indexes evidence (candidate.candidateFingerprint :: seen) rows definitions) :
    Collected S indexes evidence seen (row :: rows)
      (definition evidence row candidate :: definitions) := by
  refine ⟨fun d hd => ?_, fun q hq c hc => ?_, List.pairwise_cons.mpr ⟨fun d hd => ?_, h.distinct⟩⟩
  · rcases List.mem_cons.mp hd with rfl | hd
    · exact ⟨row, List.mem_cons_self, candidate, hrow, rfl, hnew⟩
    · obtain ⟨q, hq, c, hc, heq, hseen⟩ := h.sound d hd
      exact ⟨q, List.mem_cons_of_mem _ hq, c, hc, heq, fun hmem => hseen (List.mem_cons_of_mem _ hmem)⟩
  · have htaken : ∃ d ∈ definition evidence row candidate :: definitions,
        d.fingerprint = candidate.candidateFingerprint := ⟨_, List.mem_cons_self, rfl⟩
    rcases List.mem_cons.mp hq with rfl | hq
    · rw [hrow] at hc
      cases hc
      exact .inr htaken
    · rcases h.complete q hq c hc with hmem | ⟨d, hd, heq⟩
      · rcases List.mem_cons.mp hmem with heq | hmem
        · rw [heq]
          exact .inr htaken
        · exact .inl hmem
      · exact .inr ⟨d, List.mem_cons_of_mem _ hd, heq⟩
  · obtain ⟨q, -, c, -, rfl, hseen⟩ := h.sound d hd
    exact fun heq => hseen (List.mem_cons.mpr (.inl heq.symm))

theorem Collected.of_collect (h : S.collect indexes evidence seen rows = .ok definitions) :
    Collected S indexes evidence seen rows definitions := by
  induction rows generalizing seen definitions with
  | nil =>
    cases h
    exact ⟨(fun _ hd => by cases hd), (fun _ hq => by cases hq), .nil⟩
  | cons row rows ih =>
    simp only [collect] at h
    cases hrow : S.proposal indexes row with
    | error e =>
      rw [hrow] at h
      cases h
    | ok o =>
      rw [hrow] at h
      cases o with
      | none =>
        refine (ih h).skip (fun candidate hcandidate => ?_)
        rw [hrow] at hcandidate
        cases hcandidate
      | some candidate =>
        simp only [bind, Except.bind] at h
        split_ifs at h with hseen
        · refine (ih h).skip (fun c hc => ?_)
          rw [hrow] at hc
          cases hc
          exact hseen
        · cases hrest : S.collect indexes evidence (candidate.candidateFingerprint :: seen) rows with
          | error e =>
            rw [hrest] at h
            cases h
          | ok rest =>
            rw [hrest] at h
            cases h
            exact .take hrow hseen (ih hrest)

/-- A fingerprint is that of one shape's hash and of one key pattern. -/
theorem fingerprint_inj (hsha : Function.Injective S.sha256) {shape shape' : FindQueryShape}
    (h : S.fingerprint shape = S.fingerprint shape') :
    shape.queryShapeHash = shape'.queryShapeHash ∧
      (shape.database, shape.collection, shape.keys) =
        (shape'.database, shape'.collection, shape'.keys) := by
  have hget := Json.get_canonical_congr (hsha h)
  have hcollection := hget "collection"
  have hdatabase := hget "database"
  have hkeys := hget "keys"
  have hhash := hget "query_shape_hash"
  simp only [FindQueryShape.document, Json.get_object_cons, String.reduceEq, if_true, if_false,
    Json.canonical_str, Json.str.injEq] at hcollection hdatabase hkeys hhash
  have hkey (a b : String × Int)
      (hab : (Json.list [.str a.1, .int a.2]).canonical = (Json.list [.str b.1, .int b.2]).canonical) :
      a = b := by
    simp only [Json.canonical_list, List.map_cons, List.map_nil, Json.canonical_str,
      Json.canonical_int] at hab
    simp only [Json.list, Items.ofList, Json.arr.injEq, Items.cons.injEq, Json.str.injEq,
      Json.int.injEq, and_true] at hab
    exact Prod.ext hab.1 hab.2
  exact ⟨hhash, by rw [hdatabase, hcollection, Json.list_inj hkey hkeys]⟩

theorem fingerprint_congr {shape shape' : FindQueryShape}
    (hhash : shape.queryShapeHash = shape'.queryShapeHash)
    (hpattern : (shape.database, shape.collection, shape.keys) =
      (shape'.database, shape'.collection, shape'.keys)) :
    S.fingerprint shape = S.fingerprint shape' := by
  obtain ⟨hdatabase, hrest⟩ := Prod.mk.inj hpattern
  obtain ⟨hcollection, hkeys⟩ := Prod.mk.inj hrest
  rw [fingerprint, fingerprint, FindQueryShape.document, FindQueryShape.document, hhash, hdatabase,
    hcollection, hkeys]

theorem Proposed.hash {row : SnapshotShapeRow} {shape : FindQueryShape} {candidate : IndexCandidate}
    (h : Proposed S indexes row shape candidate) : shape.queryShapeHash = row.queryShapeHash := by
  have hfound := h.found
  simp only [SnapshotShapeRow.findShape, Option.bind_eq_bind, Option.bind_eq_some_iff] at hfound
  obtain ⟨parts, -, fields, -, hshape⟩ := hfound
  cases hshape
  rfl

theorem Proposed.namespace_eq {row : SnapshotShapeRow} {shape : FindQueryShape}
    {candidate : IndexCandidate} (h : Proposed S indexes row shape candidate) :
    candidate.action.database ++ "." ++ candidate.action.collection = row.realNamespace := by
  have hfound := h.found
  simp only [SnapshotShapeRow.findShape, Option.bind_eq_bind, Option.bind_eq_some_iff] at hfound
  obtain ⟨parts, hparts, fields, -, hshape⟩ := hfound
  obtain ⟨hdatabase, hrest⟩ := Prod.mk.inj h.pattern
  rw [hdatabase, (Prod.mk.inj hrest).1]
  cases hshape
  exact partition_join hparts

/-- The definitions of a run duplicate nothing just where its shapes call for different indexes. -/
theorem noDuplicates_iff_apart (hsha : Function.Injective S.sha256)
    (h : S.definitions indexes rows evidence = .ok definitions) :
    NoDuplicates indexes definitions ↔ Apart S indexes rows := by
  have hcollected := Collected.of_collect h
  have hmem (row : SnapshotShapeRow) : row ∈ rows.insertionSort
      (toString ·.queryShapeId ≤ toString ·.queryShapeId) ↔ row ∈ rows := List.mem_insertionSort _
  -- Every candidate is represented by the definition that has its fingerprint.
  have hrepresented : ∀ row ∈ rows, ∀ candidate, S.proposal indexes row = .ok (some candidate) →
      ∃ d ∈ definitions, d.fingerprint = candidate.candidateFingerprint ∧
        keyPattern d.action = keyPattern candidate.action ∧
        d.action.indexName = indexNameOf candidate.candidateFingerprint := by
    intro row hrow candidate hcandidate
    obtain ⟨d, hd, heq⟩ := (hcollected.complete row ((hmem row).mpr hrow) candidate
      hcandidate).resolve_left (fun hnil => by cases hnil)
    obtain ⟨q, -, c, hc, rfl, -⟩ := hcollected.sound d hd
    obtain ⟨shape, hshape⟩ := Proposed.of_proposal hcandidate
    obtain ⟨shape', hshape'⟩ := Proposed.of_proposal hc
    have hsame : S.fingerprint shape' = S.fingerprint shape := by
      rw [← hshape.fingerprint, ← hshape'.fingerprint]
      exact heq
    refine ⟨_, hd, heq, ?_, heq ▸ hshape'.name⟩
    exact (hshape'.pattern.trans (fingerprint_inj hsha hsame).2).trans hshape.pattern.symm
  constructor
  · rintro ⟨hpatterns, -, hnames⟩ p hp q hq c d hc hd
    obtain ⟨dc, hdc, hcprint, hcpattern, hcname⟩ := hrepresented p hp c hc
    obtain ⟨dd, hdd, hdprint, hdpattern, hdname⟩ := hrepresented q hq d hd
    have hpair {R : Definition → Definition → Prop} (hR : definitions.Pairwise R)
        (hsymm : ∀ x y, R x y → R y x) (hne : c.candidateFingerprint ≠ d.candidateFingerprint) :
        R dc dd := by
      have : Std.Symm R := ⟨hsymm⟩
      refine hR.forall hdc hdd (fun heq => hne ?_)
      rw [← hcprint, ← hdprint, heq]
    refine ⟨fun hhash => ?_, fun hne => ?_⟩
    · rw [← hcpattern, ← hdpattern]
      refine hpair hpatterns (fun _ _ h => h.symm) (fun heq => hhash ?_)
      obtain ⟨shape, hshape⟩ := Proposed.of_proposal hc
      obtain ⟨shape', hshape'⟩ := Proposed.of_proposal hd
      rw [hshape.fingerprint, hshape'.fingerprint] at heq
      rw [← hshape.hash, ← hshape'.hash]
      exact (fingerprint_inj hsha heq).1
    · rw [← hcname, ← hdname]
      exact hpair hnames (fun _ _ h => h.symm) hne
  · intro hapart
    have hpair {d e : Definition} (hd : d ∈ definitions) (he : e ∈ definitions)
        (hne : d.fingerprint ≠ e.fingerprint) : keyPattern d.action ≠ keyPattern e.action ∧
          d.action.indexName ≠ e.action.indexName := by
      obtain ⟨p, hp, c, hc, rfl, -⟩ := hcollected.sound d hd
      obtain ⟨q, hq, c', hc', rfl, -⟩ := hcollected.sound e he
      obtain ⟨hpatterns, hnames⟩ := hapart p ((hmem p).mp hp) q ((hmem q).mp hq) c c' hc hc'
      obtain ⟨shape, hshape⟩ := Proposed.of_proposal hc
      obtain ⟨shape', hshape'⟩ := Proposed.of_proposal hc'
      have hname := hnames hne
      rw [← hshape.name, ← hshape'.name] at hname
      refine ⟨fun hsame => ?_, hname⟩
      by_cases hhash : p.queryShapeHash = q.queryShapeHash
      · apply hne
        have hprint : S.fingerprint shape = S.fingerprint shape' := by
          refine fingerprint_congr ?_ ?_
          · rw [hshape.hash, hshape'.hash, hhash]
          · rw [← hshape.pattern, ← hshape'.pattern]
            exact hsame
        exact (hshape.fingerprint.trans hprint).trans hshape'.fingerprint.symm
      · exact hpatterns hhash hsame
    refine ⟨?_, fun d hd existing hexisting => ?_, ?_⟩
    · exact hcollected.distinct.imp_of_mem (fun hd he hne => (hpair hd he hne).1)
    · obtain ⟨row, -, c, hc, rfl, -⟩ := hcollected.sound d hd
      obtain ⟨shape, hshape⟩ := Proposed.of_proposal hc
      have hnamespace := hshape.namespace_eq
      exact hshape.missing existing (hnamespace ▸ hexisting)
    · exact hcollected.distinct.imp_of_mem (fun hd he hne => (hpair hd he hne).2)

section

theorem lengthWithin_indexNameOf (fingerprint : String) :
    lengthWithin 1 255 (indexNameOf fingerprint) = true := by
  have htake : (fingerprint.toList.take 16).length ≤ 16 := List.length_take_le _ _
  have hten : "optimizer_".length = 10 := rfl
  have hlength : (indexNameOf fingerprint).length = 10 + (fingerprint.toList.take 16).length := by
    rw [indexNameOf, String.length_append, hten, String.length_ofList]
  rw [lengthWithin, hlength, Bool.and_eq_true, decide_eq_true_eq, decide_eq_true_eq]
  omega

/-- Whatever the digest: the action of a shape with valid names is valid. -/
theorem exists_proposal (S : DeterministicIndexGenerator) {row : SnapshotShapeRow}
    {shape : FindQueryShape} (hfound : row.findShape = some shape)
    (hindexes : indexes row.realNamespace = some [])
    (hkeys : ¬ (shape.keys = [] ∨ 5 < shape.keys.length))
    (hvalid : lengthWithin 1 63 shape.database ∧ lengthWithin 1 255 shape.collection ∧
      shape.keys.all (fun key => IndexField.valid ⟨key.1, key.2⟩)) :
    ∃ candidate, S.proposal indexes row = .ok (some candidate) ∧
      candidate.candidateFingerprint = S.fingerprint shape := by
  obtain ⟨hdatabase, hcollection, hfields⟩ := hvalid
  have hcount : 1 ≤ shape.keys.length ∧ shape.keys.length ≤ 5 := by
    rw [not_or, ← List.length_eq_zero_iff] at hkeys
    omega
  have hinvalid : (S.payload shape).invalidFields = [] := by
    have hfields' : ((S.payload shape).fields.all IndexField.valid) = true := by
      rw [payload, List.all_map]
      exact hfields
    have hlength : (S.payload shape).fields.length = shape.keys.length := List.length_map _
    simp only [ActionPayload.invalidFields, hfields', hlength, hcount]
    simp [payload, hdatabase, hcollection, lengthWithin_indexNameOf]
  have hok : (S.payload shape).modelValidate = .ok ⟨_, hinvalid, rfl⟩ := dif_pos hinvalid
  refine ⟨⟨S.fingerprint shape, frozenPattern, ⟨_, hinvalid, rfl⟩⟩, ?_, rfl⟩
  simp only [proposal, hfound, hindexes, generate, if_neg hkeys, hok]
  rfl

def findOrders (limit : List (String × Json)) : Json :=
  .object [("query", .object (("filter", .object [("customer", .str "?")]) :: limit))]

/-- The orders of a customer, all of them and the first ones. -/
def allOrders : SnapshotShapeRow := ⟨4, "all", findOrders [], "shop.orders"⟩

def firstOrders : SnapshotShapeRow := ⟨5, "first", findOrders [("limit", .str "?")], "shop.orders"⟩

def unindexed : IndexMetadata := fun _ => some []

def customerShape (hash : String) : FindQueryShape := ⟨hash, "shop", "orders", ["customer"], [], []⟩

theorem exists_proposal_customer {row : SnapshotShapeRow} {hash : String}
    (hfound : row.findShape = some (customerShape hash)) :
    ∃ candidate, S.proposal unindexed row = .ok (some candidate) ∧
      candidate.candidateFingerprint = S.fingerprint (customerShape hash) := by
  have hkeys : (customerShape hash).keys = [("customer", 1)] := rfl
  refine exists_proposal S hfound rfl ?_ ?_
  · rw [hkeys]
    decide
  · rw [hkeys]
    have hdatabase : lengthWithin 1 63 "shop" = true := by decide
    have hcollection : lengthWithin 1 255 "orders" = true := by decide
    exact ⟨hdatabase, hcollection, by decide⟩

theorem allOrders_findShape : allOrders.findShape = some (customerShape "all") := by decide +kernel

theorem firstOrders_findShape : firstOrders.findShape = some (customerShape "first") := by
  decide +kernel

/-- Both shapes get an index of their own. -/
theorem definitions_orders (hsha : Function.Injective S.sha256) :
    ∃ c d, S.proposal unindexed allOrders = .ok (some c) ∧
      S.proposal unindexed firstOrders = .ok (some d) ∧
      S.definitions unindexed [allOrders, firstOrders] (fun _ => []) =
        .ok [definition (fun _ => []) allOrders c, definition (fun _ => []) firstOrders d] := by
  obtain ⟨c, hc, hcprint⟩ := exists_proposal_customer (S := S) allOrders_findShape
  obtain ⟨d, hd, hdprint⟩ := exists_proposal_customer (S := S) firstOrders_findShape
  have hne : d.candidateFingerprint ∉ [c.candidateFingerprint] := by
    rw [List.mem_singleton, hcprint, hdprint]
    intro h
    exact absurd (fingerprint_inj hsha h).1 (by decide)
  have hsorted : [allOrders, firstOrders].insertionSort
      (toString ·.queryShapeId ≤ toString ·.queryShapeId) = [allOrders, firstOrders] := by
    decide +kernel
  refine ⟨c, d, hc, hd, ?_⟩
  rw [definitions, hsorted]
  simp only [collect, hc, hd, bind, Except.bind, List.not_mem_nil, if_false, if_neg hne]
  rfl

theorem patterns_orders {c d : IndexCandidate}
    (hc : S.proposal unindexed allOrders = .ok (some c))
    (hd : S.proposal unindexed firstOrders = .ok (some d)) : keyPattern c.action = keyPattern d.action := by
  obtain ⟨shape, hshape⟩ := Proposed.of_proposal hc
  obtain ⟨shape', hshape'⟩ := Proposed.of_proposal hd
  have heq : shape = customerShape "all" :=
    Option.some.inj (hshape.found.symm.trans allOrders_findShape)
  have heq' : shape' = customerShape "first" :=
    Option.some.inj (hshape'.found.symm.trans firstOrders_findShape)
  rw [hshape.pattern, hshape'.pattern, heq, heq']
  rfl

/-- The documents themselves. -/
def verbatim : DeterministicIndexGenerator := ⟨Json.text⟩

theorem noDuplicates_iff_apart_orders : Function.Injective verbatim.sha256 ∧ ∃ definitions,
    verbatim.definitions unindexed [allOrders, firstOrders] (fun _ => []) = .ok definitions ∧
    (NoDuplicates unindexed definitions ↔ Apart verbatim unindexed [allOrders, firstOrders]) := by
  obtain ⟨c, d, -, -, h⟩ := definitions_orders (S := verbatim) Json.text_injective
  exact ⟨Json.text_injective, _, h, noDuplicates_iff_apart Json.text_injective h⟩

theorem not_noDuplicates : ∃ definitions,
    verbatim.definitions unindexed [allOrders, firstOrders] (fun _ => []) = .ok definitions ∧
      ¬ NoDuplicates unindexed definitions := by
  obtain ⟨c, d, hc, hd, h⟩ := definitions_orders (S := verbatim) Json.text_injective
  refine ⟨_, h, fun hdistinct => ?_⟩
  exact (List.pairwise_cons.mp hdistinct.patterns).1 _ List.mem_cons_self (patterns_orders hc hd)

end

end DeterministicIndexGenerator

end NoSQLOptimizer.Candidates
