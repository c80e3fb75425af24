import NoSQLOptimizer.Telemetry.Persistence

namespace NoSQLOptimizer.Candidates

open ControlPlane Encoding QueryShapes Telemetry
open Workloads (sortedSet)

/-- `field.startswith("$")`. -/
def operatorName (field : String) : Bool := field.toList.head? = some '$'

/-- A dict with a range operator in it. -/
def isRange : Value → Bool
  | .dict d => d.names.any (· ∈ ["$gt", "$gte", "$lt", "$lte"])
  | _ => false

/-- `direction in (-1, 1)`, and `int(direction)`. -/
def direction : Value → Option Int
  | .int n => if n = -1 ∨ n = 1 then some n else none
  | .float q => if q = -1 then some (-1) else if q = 1 then some 1 else none
  | .bool true => some 1
  | _ => none

/-- The equality fields of a query, its sort and its range fields. -/
abbrev FindFields := List String × List (String × Int) × List String

/-- The document that is there, or an empty one. -/
def documentOr : Option Value → Document
  | some (.dict d) => d
  | _ => .nil

/-- `_find_fields`. -/
def findFields : Value → Option FindFields
  | .dict shape =>
    match (shape.lookup "query").getD (.dict shape) with
    | .dict query =>
      let filterDoc := documentOr ((query.lookup "filter").or (query.lookup "query"))
      let fields := filterDoc.items.filter (fun f => !operatorName f.1)
      let ranges := fields.filter (fun f => isRange f.2)
      let equality := fields.filter (fun f => !isRange f.2)
      let sorts := (documentOr (query.lookup "sort")).items.filterMap
        (fun f => (direction f.2).map (f.1, ·))
      some (sortedSet (equality.map (·.1)), sorts, sortedSet (ranges.map (·.1)))
    | _ => none
  | _ => none

inductive RangeOperator
  | gt
  | gte
  | lt
  | lte
  deriving DecidableEq

def RangeOperator.name : RangeOperator → String
  | .gt => "$gt"
  | .gte => "$gte"
  | .lt => "$lt"
  | .lte => "$lte"

/-- What a filter asks of one field: to equal a value, or to be in the range of one bound and any
others. -/
inductive Predicate
  | equals (value : Value) (literal : isRange value = false) : Predicate
  | range (operator : RangeOperator) (bound : Value) (others : List (RangeOperator × Value)) :
      Predicate

def Predicate.value : Predicate → Value
  | .equals value _ => value
  | .range operator bound others =>
    .dict (.ofList ((operator.name, bound) :: others.map (fun o => (o.1.name, o.2))))

inductive Direction
  | ascending
  | descending
  deriving DecidableEq

def Direction.sign : Direction → Int
  | .ascending => 1
  | .descending => -1

/-- A find command: a predicate for each field of its filter, the keys of its sort in the order they
are asked for in, and any other options. -/
structure FindCommand where
  collection : String
  filter : List (String × Predicate)
  sort : List (String × Direction)
  options : Document := .nil
  filter_nodup : (filter.map (·.1)).Nodup := by decide
  sort_nodup : (sort.map (·.1)).Nodup := by decide
  filter_fields : ∀ f ∈ filter, operatorName f.1 = false := by decide

namespace FindCommand

def filterDocument (c : FindCommand) : Document := .ofList (c.filter.map (fun f => (f.1, f.2.value)))

def sortDocument (c : FindCommand) : Document :=
  .ofList (c.sort.map (fun f => (f.1, .int f.2.sign)))

def document (c : FindCommand) : Document :=
  .cons "find" (.str c.collection) (.cons "filter" (.dict c.filterDocument)
    (.cons "sort" (.dict c.sortDocument) c.options))

def equalityFields (c : FindCommand) : List String :=
  c.filter.filterMap (fun f => match f.2 with | .equals _ _ => some f.1 | .range _ _ _ => none)

def rangeFields (c : FindCommand) : List String :=
  c.filter.filterMap (fun f => match f.2 with | .equals _ _ => none | .range _ _ _ => some f.1)

/-- The fields that an index for the command is built from. -/
def fields (c : FindCommand) : FindFields :=
  (sortedSet c.equalityFields, c.sort.map (fun f => (f.1, f.2.sign)), sortedSet c.rangeFields)

end FindCommand

/-- The shape that is persisted for an observation. -/
def shapeFor (P : TelemetryPersistenceService) (target : TargetId) (o : TelemetryObservation)
    (s : Store) : Option QueryShapeRow := do
  let n ← s.namespaces.find? (fun n => n.targetId = target ∧ n.name = P.namespaceName o)
  s.queryShapes.find? (fun q => q.namespaceId = n.id ∧ q.shapeHash = (P.shapeOf o).shapeHash)

section Structure

theorem isRange_structural (v : Value) : isRange v.structural = isRange v := by
  cases v with
  | dict d =>
    rw [structural_dict, isRange, isRange, Bool.eq_iff_iff, List.any_eq_true, List.any_eq_true]
    simp only [Document.mem_names_structural]
  | _ => rfl

theorem direction_structural (v : Value) : direction v.structural = none := by
  cases v <;> rfl

theorem mem_items {d : Document} {f : String × Value} :
    f ∈ d.items ↔ d.lookup f.1 = some f.2 := by
  rw [Document.items, List.mem_filterMap]
  constructor
  · rintro ⟨name, -, h⟩
    obtain ⟨v, hv, rfl⟩ := Option.map_eq_some_iff.mp h
    exact hv
  · intro h
    exact ⟨f.1, Document.mem_names_iff.mpr (by simp [h]), by simp [h]⟩

theorem mem_items_structural {d : Document} {f : String × Value} :
    f ∈ d.structural.items ↔ ∃ v, (f.1, v) ∈ d.items ∧ v.structural = f.2 := by
  simp only [mem_items, Document.lookup_structural, Option.map_eq_some_iff]

/-- Nothing is left of the directions of a sort. -/
theorem sorts_structural (d : Document) :
    d.structural.items.filterMap (fun f => (direction f.2).map (f.1, ·)) = [] := by
  rw [List.filterMap_eq_nil_iff]
  intro f hf
  obtain ⟨v, -, hv⟩ := mem_items_structural.mp hf
  rw [← hv, direction_structural]
  rfl

theorem sortedSet_congr {names names' : List String} (h : ∀ n, n ∈ names ↔ n ∈ names') :
    sortedSet names = sortedSet names' := by
  unfold sortedSet
  have hperm : names.dedup.Perm names'.dedup :=
    (List.perm_ext_iff_of_nodup names.nodup_dedup names'.nodup_dedup).mpr (by simpa using h)
  exact List.Perm.eq_of_pairwise' (List.pairwise_insertionSort _ _)
    (List.pairwise_insertionSort _ _) (((List.perm_insertionSort _ _).trans hperm).trans
      (List.perm_insertionSort _ _).symm)

theorem lookup_ofList {fs : List (String × Value)} (hnodup : (fs.map (·.1)).Nodup) {name : String}
    {v : Value} : (Document.ofList fs).lookup name = some v ↔ (name, v) ∈ fs := by
  induction fs with
  | nil => simp [Document.ofList, Document.lookup]
  | cons f fs ih =>
    obtain ⟨hf, hfs⟩ := List.nodup_cons.mp hnodup
    simp only [Document.ofList, Document.lookup, List.mem_cons]
    by_cases hname : f.1 = name
    · rw [if_pos hname]
      constructor
      · intro h
        exact .inl (Prod.ext hname.symm (Option.some.inj h).symm)
      · rintro (h | h)
        · rw [← h]
        · subst hname
          exact absurd (List.mem_map.mpr ⟨_, h, rfl⟩) hf
    · rw [if_neg hname, ih hfs]
      exact ⟨.inr, fun h => h.resolve_left (fun h => hname (by rw [← h]))⟩

end Structure

namespace FindCommand

variable (c : FindCommand)

theorem lookup_filterDocument {name : String} {v : Value} :
    c.filterDocument.lookup name = some v ↔ ∃ p, (name, p) ∈ c.filter ∧ p.value = v := by
  have hnodup : ((c.filter.map (fun f => (f.1, f.2.value))).map (·.1)).Nodup := by
    rw [List.map_map]
    exact c.filter_nodup
  rw [filterDocument, lookup_ofList hnodup, List.mem_map]
  constructor
  · rintro ⟨f, hf, heq⟩
    cases heq
    exact ⟨f.2, hf, rfl⟩
  · rintro ⟨p, hp, rfl⟩
    exact ⟨_, hp, rfl⟩

theorem isRange_value_range (operator : RangeOperator) (bound : Value)
    (others : List (RangeOperator × Value)) :
    isRange (Predicate.range operator bound others).value = true := by
  cases operator <;> rfl

/-- The fields of a filter that are no operators, with a predicate of this kind, before or after
its values are lost. -/
theorem mem_fields_structural {name : String} (range : Bool) :
    name ∈ ((c.filterDocument.structural.structural.items.filter
        (fun f => !operatorName f.1)).filter (fun f => isRange f.2 == range)).map (·.1) ↔
      ∃ p, (name, p) ∈ c.filter ∧ isRange p.value = range := by
  simp only [List.mem_map, List.mem_filter, Prod.exists, exists_and_right, exists_eq_right]
  constructor
  · rintro ⟨w, ⟨hw, -⟩, hrange⟩
    obtain ⟨v, hv, rfl⟩ := mem_items_structural.mp hw
    obtain ⟨u, hu, rfl⟩ := mem_items_structural.mp hv
    obtain ⟨p, hp, rfl⟩ := c.lookup_filterDocument.mp (mem_items.mp hu)
    rw [isRange_structural, isRange_structural] at hrange
    exact ⟨p, hp, by simpa using hrange⟩
  · rintro ⟨p, hp, hrange⟩
    refine ⟨p.value.structural.structural, ⟨?_, by simpa using c.filter_fields _ hp⟩, ?_⟩
    · refine mem_items_structural.mpr ⟨_, mem_items_structural.mpr ⟨p.value, ?_, rfl⟩, rfl⟩
      exact mem_items.mpr (c.lookup_filterDocument.mpr ⟨p, hp, rfl⟩)
    · rw [isRange_structural, isRange_structural, hrange]
      exact beq_self_eq_true range

theorem mem_equalityFields {name : String} :
    name ∈ c.equalityFields ↔ ∃ p, (name, p) ∈ c.filter ∧ isRange p.value = false := by
  simp only [equalityFields, List.mem_filterMap, Prod.exists]
  constructor
  · rintro ⟨name', p, hp, h⟩
    cases p with
    | equals value literal =>
      cases h
      exact ⟨_, hp, literal⟩
    | range operator bound others => cases h
  · rintro ⟨p, hp, hrange⟩
    cases p with
    | equals value literal => exact ⟨name, _, hp, rfl⟩
    | range operator bound others =>
      rw [isRange_value_range] at hrange
      cases hrange

theorem mem_rangeFields {name : String} :
    name ∈ c.rangeFields ↔ ∃ p, (name, p) ∈ c.filter ∧ isRange p.value = true := by
  simp only [rangeFields, List.mem_filterMap, Prod.exists]
  constructor
  · rintro ⟨name', p, hp, h⟩
    cases p with
    | equals value literal => cases h
    | range operator bound others =>
      cases h
      exact ⟨_, hp, isRange_value_range operator bound others⟩
  · rintro ⟨p, hp, hrange⟩
    cases p with
    | equals value literal =>
      rw [Predicate.value, literal] at hrange
      cases hrange
    | range operator bound others => exact ⟨name, _, hp, rfl⟩

/-- What the extractor finds in a command that was canonicalized on its way out of the telemetry and
again on its way into the registry: its filter's fields, and no sort. -/
theorem findFields_structural {shape : Document}
    (h : shape.lookup "query" = some (.dict c.document.structural.structural)) :
    findFields (.dict shape) = some (sortedSet c.equalityFields, [], sortedSet c.rangeFields) := by
  have hfilter : c.document.structural.structural.lookup "filter" =
      some (.dict c.filterDocument.structural.structural) := by
    simp [Document.lookup_structural, document, Document.lookup]
  have hsort : c.document.structural.structural.lookup "sort" =
      some (.dict c.sortDocument.structural.structural) := by
    simp [Document.lookup_structural, document, Document.lookup]
  have hequality : sortedSet (((c.filterDocument.structural.structural.items.filter
      (fun f => !operatorName f.1)).filter (fun f => !isRange f.2)).map (·.1)) =
        sortedSet c.equalityFields := by
    apply sortedSet_congr
    intro name
    rw [c.mem_equalityFields, ← c.mem_fields_structural false]
    simp only [beq_false]
  have hrange : sortedSet (((c.filterDocument.structural.structural.items.filter
      (fun f => !operatorName f.1)).filter (fun f => isRange f.2)).map (·.1)) =
        sortedSet c.rangeFields := by
    apply sortedSet_congr
    intro name
    rw [c.mem_rangeFields, ← c.mem_fields_structural true]
    simp only [beq_true]
  simp only [findFields, h, Option.getD_some, hfilter, hsort, Option.some_or, documentOr,
    hequality, hrange, sorts_structural]

end FindCommand

section

variable {P : TelemetryPersistenceService} {s : Store} {target : TargetId}
  {o : TelemetryObservation}

theorem shapeFor_eq_some (hsound : s.Sound P.sha256) {q : QueryShapeRow} (hq : q ∈ s.queryShapes)
    (hhash : q.shapeHash = (P.shapeOf o).shapeHash) {n : NamespaceRow} (hn : n ∈ s.namespaces)
    (hid : n.id = q.namespaceId) (htarget : n.targetId = target)
    (hname : n.name = P.namespaceName o) : shapeFor P target o s = some q := by
  have hnamespace : s.namespaces.find? (fun n => n.targetId = target ∧ n.name = P.namespaceName o) =
      some n := by
    refine find?_eq_some_of_key hsound.names hn (fun m => ?_)
    rw [decide_eq_true_iff, Prod.mk.injEq, htarget, hname]
  have hshape : s.queryShapes.find?
      (fun q => q.namespaceId = n.id ∧ q.shapeHash = (P.shapeOf o).shapeHash) = some q := by
    refine find?_eq_some_of_key hsound.hashes hq (fun p => ?_)
    rw [decide_eq_true_iff, Prod.mk.injEq, hid, hhash]
  simp only [shapeFor, hnamespace, Option.bind_eq_bind, Option.bind_some, hshape]

/-- The filter of a find command that is observed comes back from the shape that is persisted for it
as it was; its sort does so exactly where it has no keys. -/
theorem findFields_iff_unsorted (hinj : Function.Injective P.sha256) (hs : P.Collected s)
    {source : TelemetrySource} {event : Document} {c : FindCommand}
    (hcommand : commandOf event = c.document)
    (hobserved : fromCommandDocument source event = .ok (some o)) (windowSource : String)
    {observations : List TelemetryObservation} (ho : o ∈ observations)
    (startedAt endedAt : Instant) :
    ∃ q, shapeFor P target o
        (P.persistCompleted target windowSource observations startedAt endedAt s) = some q ∧
      (findFields (.ofJson q.normalizedShape) = some c.fields ↔ c.sort = []) := by
  have hsound := (TelemetryPersistenceService.Collected.persist target windowSource observations
    startedAt endedAt hs).sound
  obtain ⟨q, hq, hhash, n, hn, hid, htarget, hname⟩ :=
    P.exists_shape_of_mem hs target windowSource startedAt endedAt ho
  refine ⟨q, shapeFor_eq_some hsound hq hhash hn hid htarget hname, ?_⟩
  obtain ⟨-, -, -, hqhash, -⟩ := hsound.shapes q hq
  have hshape : q.normalizedShape = (P.shapeOf o).canonicalShape := by
    apply hinj
    rw [← hqhash, hhash]
    exact register_hash
  obtain ⟨r, hr, hquery⟩ : ∃ r, (P.shapeOf o).canonicalShape = .obj r ∧
      r.lookup "query" = some (canonicalize (.dict o.normalizedShape)) :=
    lookup_query_canonicalShape
  have hlookup : (Document.ofFields r).lookup "query" =
      some (.dict c.document.structural.structural) := by
    rw [Document.lookup_ofFields, hquery, normalizedShape_of_fromCommandDocument hobserved,
      hcommand]
    rfl
  have hfound : findFields (.ofJson q.normalizedShape) =
      some (sortedSet c.equalityFields, [], sortedSet c.rangeFields) := by
    rw [hshape, hr]
    exact c.findFields_structural hlookup
  rw [hfound, FindCommand.fields, Option.some.injEq, Prod.mk.injEq, Prod.mk.injEq]
  constructor
  · intro h
    exact List.map_eq_nil_iff.mp h.2.1.symm
  · intro h
    rw [h]
    exact ⟨rfl, rfl, rfl⟩

end

section

/-- The orders of one customer, newest first. -/
def newestOrders : FindCommand where
  collection := "orders"
  filter := [("customer", .equals (.int 7) rfl), ("total", .range .gte (.int 100) [])]
  sort := [("created", .descending)]

/-- The same orders, as they come. -/
def anyOrders : FindCommand := { newestOrders with sort := [], sort_nodup := by decide }

/-- What a profiler reports of a command. -/
def profiled (c : FindCommand) : Document :=
  .ofList [("ns", .str "shop.orders"), ("op", .str "command"), ("command", .dict c.document),
    ("millis", .int 3)]

def observed (c : FindCommand) : TelemetryObservation :=
  ⟨.profiler, 1, "shop", "orders", "find", c.document.structural, some 1, some 0, some 0, some 3⟩

theorem findFields_iff_unsorted_anyOrders :
    ∃ q, shapeFor ⟨Json.text, id⟩ 7 (observed anyOrders)
        (TelemetryPersistenceService.persistCompleted ⟨Json.text, id⟩ 7 "PROFILER"
          [observed anyOrders] 0 5000000 {}) = some q ∧
      (findFields (.ofJson q.normalizedShape) = some anyOrders.fields ↔ anyOrders.sort = []) := by
  have hcommand : commandOf (profiled anyOrders) = anyOrders.document := rfl
  have hobserved : fromCommandDocument .profiler (profiled anyOrders) =
      .ok (some (observed anyOrders)) := by decide +kernel
  exact findFields_iff_unsorted Json.text_injective .empty hcommand hobserved "PROFILER"
    List.mem_cons_self 0 5000000

/-- A digest to look a shape up by. -/
def profilerService : TelemetryPersistenceService where
  sha256 := fun shape => toString (shape.checksum 0)

theorem not_findFields_sorted : ¬ ∀ (P : TelemetryPersistenceService) (target : TargetId)
    (source : TelemetrySource) (event : Document) (c : FindCommand) (o : TelemetryObservation),
    commandOf event = c.document → fromCommandDocument source event = .ok (some o) →
    ∃ q, shapeFor P target o (P.persistCompleted target source.value [o] 0 5000000 {}) = some q ∧
      findFields (.ofJson q.normalizedShape) = some c.fields := by
  intro h
  obtain ⟨q, hq, hfields⟩ := h profilerService 7 .profiler (profiled newestOrders) newestOrders
    (observed newestOrders) rfl (by decide +kernel)
  have hfound : (shapeFor profilerService 7 (observed newestOrders)
      (profilerService.persistCompleted 7 TelemetrySource.profiler.value [observed newestOrders] 0
        5000000 {})).map (fun q => findFields (.ofJson q.normalizedShape)) =
        some (some (["customer"], [], ["total"])) := by
    decide +kernel
  rw [hq, Option.map_some, hfields] at hfound
  revert hfound
  decide +kernel

end

end NoSQLOptimizer.Candidates
