import NoSQLOptimizer.Encoding.Text

namespace NoSQLOptimizer.QueryShapes

open Encoding

mutual

/-- A value of a command.  What is of a type of its own, such as a date or an object id, is given by
the name of its type and its text. -/
inductive Value
  | none : Value
  | bool : Bool → Value
  | int : Int → Value
  | float : ℚ → Value
  | str : String → Value
  | other : String → String → Value
  | list : Values → Value
  | dict : Document → Value
  deriving DecidableEq

inductive Values
  | nil : Values
  | cons : Value → Values → Values
  deriving DecidableEq

inductive Document
  | nil : Document
  | cons : String → Value → Document → Document
  deriving DecidableEq

end

namespace Document

def ofList : List (String × Value) → Document
  | [] => .nil
  | (name, v) :: d => .cons name v (ofList d)

def names : Document → List String
  | .nil => []
  | .cons name _ d => name :: d.names

/-- `document.get(name)`. -/
def lookup (k : String) : Document → Option Value
  | .nil => none
  | .cons name v d => if name = k then some v else d.lookup k

/-- `document.items()`: a dict has one value for each of its names. -/
def items (d : Document) : List (String × Value) :=
  d.names.filterMap (fun name => (d.lookup name).map (name, ·))

end Document

def Value.typeToken : Value → String
  | .none => "<null>"
  | .bool _ => "<boolean>"
  | .int _ => "<integer>"
  | .float _ => "<number>"
  | .str _ => "<string>"
  | .other typeName _ => "<" ++ typeName.toLower ++ ">"
  | .list _ => "<list>"
  | .dict _ => "<dict>"

mutual

def canonicalize : Value → Json
  | .dict d => .obj d.canonicalize
  | .list vs => .arr vs.canonicalize
  | .none => .str Value.none.typeToken
  | .bool b => .str (Value.bool b).typeToken
  | .int n => .str (Value.int n).typeToken
  | .float q => .str (Value.float q).typeToken
  | .str s => .str (Value.str s).typeToken
  | .other typeName text => .str (Value.other typeName text).typeToken

def Values.canonicalize : Values → Items
  | .nil => .nil
  | .cons v vs => .cons (QueryShapes.canonicalize v) vs.canonicalize

def Document.canonicalize : Document → Fields
  | .nil => .nil
  | .cons name v d => d.canonicalize.insert name (QueryShapes.canonicalize v)

end

mutual

/-- `json.loads` of a document's text. -/
def Value.ofJson : Json → Value
  | .null => .none
  | .bool b => .bool b
  | .int n => .int n
  | .float t => .float (readNumber t)
  | .str s => .str s
  | .arr r => .list (Values.ofItems r)
  | .obj r => .dict (Document.ofFields r)

def Values.ofItems : Items → Values
  | .nil => .nil
  | .cons j r => .cons (Value.ofJson j) (Values.ofItems r)

def Document.ofFields : Fields → Document
  | .nil => .nil
  | .cons name j r => .cons name (Value.ofJson j) (Document.ofFields r)

end

inductive QueryShapeSource
  | serverHash
  | canonicalized
  deriving DecidableEq

structure QueryShape where
  shapeHash : String
  source : QueryShapeSource
  canonicalShape : Json

/-- The payload that is hashed. -/
def canonicalPayload (operation namespaceName : String) (query : Document) : Json :=
  .object [("namespace", .str namespaceName), ("operation", .str operation),
    ("query", canonicalize (.dict query))]

def register (sha256 : Json → String) (operation namespaceName : String) (query : Document)
    (serverQueryShapeHash : Option String) : QueryShape :=
  let canonicalShape := (canonicalPayload operation namespaceName query).canonical
  match serverQueryShapeHash with
  | some shapeHash => ⟨shapeHash, .serverHash, canonicalShape⟩
  | none => ⟨sha256 canonicalShape, .canonicalized, canonicalShape⟩

namespace Document

theorem mem_names_iff {k : String} {d : Document} : k ∈ d.names ↔ (d.lookup k).isSome := by
  fun_induction lookup k d with
  | case1 => simp [names]
  | case2 v d => simp [names]
  | case3 name v d hne ih => simp [names, ih, Ne.symm hne]

theorem lookup_ofFields (k : String) (r : Fields) :
    (ofFields r).lookup k = (r.lookup k).map Value.ofJson := by
  fun_induction Fields.lookup k r with
  | case1 => rfl
  | case2 j r => simp [ofFields, lookup]
  | case3 name j r hne ih => simp [ofFields, lookup, hne, ih]

theorem lookup_canonicalize (k : String) (d : Document) :
    d.canonicalize.lookup k = (d.lookup k).map QueryShapes.canonicalize := by
  fun_induction lookup k d with
  | case1 => rfl
  | case2 v d => simp [canonicalize, Fields.lookup_insert]
  | case3 name v d hne ih => simp [canonicalize, Fields.lookup_insert, hne, ih]

end Document

mutual

theorem canonical_canonicalize : (v : Value) → (canonicalize v).Canonical
  | .dict d => Document.canonical_canonicalize d
  | .list vs => Values.canonical_canonicalize vs
  | .none => trivial
  | .bool _ => trivial
  | .int _ => trivial
  | .float _ => trivial
  | .str _ => trivial
  | .other _ _ => trivial

theorem Values.canonical_canonicalize : (vs : Values) → vs.canonicalize.Canonical
  | .nil => trivial
  | .cons v vs => ⟨QueryShapes.canonical_canonicalize v, Values.canonical_canonicalize vs⟩

theorem Document.canonical_canonicalize : (d : Document) → d.canonicalize.Canonical
  | .nil => trivial
  | .cons _ v d =>
    (Document.canonical_canonicalize d).insert (QueryShapes.canonical_canonicalize v)

end

/-- What is left of a value once it has been canonicalized and read back. -/
def Value.structural (v : Value) : Value := Value.ofJson (canonicalize v)

def Document.structural (d : Document) : Document := .ofFields d.canonicalize

@[simp] theorem structural_dict (d : Document) : (Value.dict d).structural = .dict d.structural := rfl

theorem Document.lookup_structural (k : String) (d : Document) :
    d.structural.lookup k = (d.lookup k).map Value.structural := by
  rw [structural, lookup_ofFields, lookup_canonicalize, Option.map_map]
  rfl

theorem Document.mem_names_structural {k : String} {d : Document} :
    k ∈ d.structural.names ↔ k ∈ d.names := by
  rw [mem_names_iff, mem_names_iff, lookup_structural, Option.isSome_map]

section

variable {sha256 : Json → String} {operation namespaceName : String} {query : Document}

theorem register_hash : (register sha256 operation namespaceName query none).shapeHash =
    sha256 (register sha256 operation namespaceName query none).canonicalShape := rfl

theorem get_namespace_canonicalShape {hash : Option String} :
    (register sha256 operation namespaceName query hash).canonicalShape.get "namespace" =
      .str namespaceName := by
  cases hash <;> simp [register, canonicalPayload, Json.get_canonical]

/-- A query is canonicalized on its way into the registry, whatever was done to it before. -/
theorem lookup_query_canonicalShape {hash : Option String} :
    ∃ r, (register sha256 operation namespaceName query hash).canonicalShape = .obj r ∧
      r.lookup "query" = some (canonicalize (.dict query)) := by
  have hshape : (register sha256 operation namespaceName query hash).canonicalShape =
      .obj (Fields.ofList [("namespace", .str namespaceName), ("operation", .str operation),
        ("query", canonicalize (.dict query))]).canonical := by
    cases hash <;> rfl
  refine ⟨_, hshape, ?_⟩
  rw [Fields.lookup_canonical]
  simp only [Fields.ofList, Fields.lookup, String.reduceEq, if_false, if_true, Option.map_some,
    (canonical_canonicalize (.dict query)).eq]

end

end NoSQLOptimizer.QueryShapes
