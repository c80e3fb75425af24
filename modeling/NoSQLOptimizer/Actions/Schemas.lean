import NoSQLOptimizer.Adapters.Contracts
import NoSQLOptimizer.Encoding.Json

namespace NoSQLOptimizer.Actions

open Adapters Encoding

structure IndexField where
  field : String
  direction : Int
  deriving DecidableEq

/-- What a caller or a stored row says of a CREATE_INDEX action, not yet validated. -/
structure ActionPayload where
  actionType : String := "CREATE_INDEX"
  database : String
  collection : String
  indexName : String
  fields : List IndexField
  unique : Bool := false
  expireAfterSeconds : Option Int := none
  sparse : Bool := false
  partialFilterExpression : Option String := none
  text : Bool := false
  wildcard : Bool := false
  geo : Bool := false
  hashed : Bool := false
  deriving DecidableEq

/-- `Field(min_length=low, max_length=high)`. -/
def lengthWithin (low high : Nat) (s : String) : Bool := low ≤ s.length && s.length ≤ high

namespace IndexField

def valid (f : IndexField) : Bool :=
  lengthWithin 1 255 f.field && (f.direction == -1 || f.direction == 1)

end IndexField

namespace ActionPayload

def forbidden (p : ActionPayload) : List (String × Bool) :=
  [("unique", p.unique), ("TTL", p.expireAfterSeconds.isSome), ("sparse", p.sparse),
    ("partial", p.partialFilterExpression.isSome), ("text", p.text), ("wildcard", p.wildcard),
    ("geo", p.geo), ("hashed", p.hashed)]

def enabled (p : ActionPayload) : List String := (p.forbidden.filter (·.2)).map (·.1)

/-- The fields whose own constraints the payload breaks. -/
def invalidFields (p : ActionPayload) : List String :=
  ([("action_type", p.actionType == "CREATE_INDEX"), ("database", lengthWithin 1 63 p.database),
    ("collection", lengthWithin 1 255 p.collection),
    ("index_name", lengthWithin 1 255 p.indexName),
    ("fields", 1 ≤ p.fields.length && p.fields.length ≤ 5 && p.fields.all IndexField.valid)].filter
      (!·.2)).map (·.1)

end ActionPayload

/-- A CREATE_INDEX action with every forbidden variant excluded. -/
structure CreateIndexAction extends ActionPayload where
  wellFormed : toActionPayload.invalidFields = []
  unforbidden : toActionPayload.enabled = []
  deriving DecidableEq

structure DropIndexAction where
  database : String
  collection : String
  indexName : String
  deriving DecidableEq

inductive ValidationError
  | fields : List String → ValidationError
  | forbiddenVariants : List String → ValidationError
  deriving DecidableEq

def ActionPayload.modelValidate (p : ActionPayload) : Except ValidationError CreateIndexAction :=
  if hf : p.invalidFields = [] then
    if he : p.enabled = [] then .ok ⟨p, hf, he⟩ else .error (.forbiddenVariants p.enabled)
  else .error (.fields p.invalidFields)

namespace CreateIndexAction

def inverse (a : CreateIndexAction) : DropIndexAction := ⟨a.database, a.collection, a.indexName⟩

def toNamespace (a : CreateIndexAction) : Namespace := ⟨a.collection⟩

def toIndexSpec (a : CreateIndexAction) : IndexSpec :=
  ⟨a.indexName, a.fields.map (fun f => (f.field, f.direction))⟩

/-- `model_dump(mode="json")`. -/
def modelDump (a : CreateIndexAction) : List (String × Json) :=
  [("action_type", .str a.actionType), ("database", .str a.database),
    ("collection", .str a.collection), ("index_name", .str a.indexName),
    ("fields", .list (a.fields.map (fun f =>
      .object [("field", .str f.field), ("direction", .int f.direction)]))),
    ("unique", .bool a.unique),
    ("expire_after_seconds", (a.expireAfterSeconds.map Json.int).getD .null),
    ("sparse", .bool a.sparse),
    ("partial_filter_expression", (a.partialFilterExpression.map Json.str).getD .null),
    ("text", .bool a.text), ("wildcard", .bool a.wildcard), ("geo", .bool a.geo),
    ("hashed", .bool a.hashed)]

theorem actionType_eq (a : CreateIndexAction) : a.actionType = "CREATE_INDEX" := by
  have h := a.wellFormed
  by_contra hne
  simp [ActionPayload.invalidFields, hne] at h

theorem ext_payload {a b : CreateIndexAction} (h : a.toActionPayload = b.toActionPayload) :
    a = b := by
  cases a
  cases b
  cases h
  rfl

end CreateIndexAction

namespace DropIndexAction

def modelDump (a : DropIndexAction) : List (String × Json) :=
  [("action_type", .str "DROP_INDEX"), ("database", .str a.database),
    ("collection", .str a.collection), ("index_name", .str a.indexName)]

end DropIndexAction

theorem ActionPayload.modelValidate_ok {p : ActionPayload} {a : CreateIndexAction}
    (h : p.modelValidate = .ok a) : a.toActionPayload = p := by
  unfold modelValidate at h
  split at h
  · split at h
    · cases h
      rfl
    · cases h
  · cases h

@[simp] theorem CreateIndexAction.modelValidate (a : CreateIndexAction) :
    a.toActionPayload.modelValidate = .ok a := by
  simp [ActionPayload.modelValidate, a.wellFormed, a.unforbidden]

/-- What a caller or a ledger entry says of a SET_QUERY_SETTINGS_INDEX_HINT action. -/
structure QuerySettingsPayload where
  actionType : String := "SET_QUERY_SETTINGS_INDEX_HINT"
  database : String
  collection : String
  queryShapeHash : String
  allowedIndexes : List String
  previousAllowedIndexes : Option (List String) := none
  deriving DecidableEq

/-- `Field(min_length=1, max_length=5)` of a tuple. -/
def indexCount (names : List String) : Bool := 1 ≤ names.length && names.length ≤ 5

namespace QuerySettingsPayload

def invalidFields (p : QuerySettingsPayload) : List String :=
  ([("action_type", p.actionType == "SET_QUERY_SETTINGS_INDEX_HINT"),
    ("database", lengthWithin 1 63 p.database), ("collection", lengthWithin 1 255 p.collection),
    ("query_shape_hash", lengthWithin 1 255 p.queryShapeHash),
    ("allowed_indexes", indexCount p.allowedIndexes),
    ("previous_allowed_indexes", p.previousAllowedIndexes.all indexCount)].filter (!·.2)).map (·.1)

end QuerySettingsPayload

/-- A SET_QUERY_SETTINGS_INDEX_HINT action with its prior state bound as evidence. -/
structure SetQuerySettingsIndexHintAction extends QuerySettingsPayload where
  wellFormed : toQuerySettingsPayload.invalidFields = []
  deriving DecidableEq

/-- The exact inverse. -/
structure RestoreQuerySettingsIndexHintAction where
  database : String
  collection : String
  queryShapeHash : String
  allowedIndexes : Option (List String)
  deriving DecidableEq

def names (indexes : List String) : Json := .list (indexes.map Json.str)

def optionalNames (indexes : Option (List String)) : Json := (indexes.map names).getD .null

/-- `model_dump(mode="json")`. -/
def SetQuerySettingsIndexHintAction.modelDump (a : SetQuerySettingsIndexHintAction) :
    List (String × Json) :=
  [("action_type", .str a.actionType), ("database", .str a.database),
    ("collection", .str a.collection), ("query_shape_hash", .str a.queryShapeHash),
    ("allowed_indexes", names a.allowedIndexes),
    ("previous_allowed_indexes", optionalNames a.previousAllowedIndexes)]

def RestoreQuerySettingsIndexHintAction.modelDump (a : RestoreQuerySettingsIndexHintAction) :
    List (String × Json) :=
  [("action_type", .str "RESTORE_QUERY_SETTINGS_INDEX_HINT"), ("database", .str a.database),
    ("collection", .str a.collection), ("query_shape_hash", .str a.queryShapeHash),
    ("allowed_indexes", optionalNames a.allowedIndexes)]

namespace QuerySettingsPayload

def modelValidate (p : QuerySettingsPayload) :
    Except ValidationError SetQuerySettingsIndexHintAction :=
  if h : p.invalidFields = [] then .ok ⟨p, h⟩ else .error (.fields p.invalidFields)

/-- A JSON array of strings. -/
def strings : Json → Option (List String)
  | .arr items => items.toList.mapM Json.asStr
  | _ => none

/-- A field of the model, read from the fields of a document: `none` where it has a wrong type. -/
def field (fields : List (String × Json)) (name : String) (read : Json → Option α) (missing : Option α) :
    Option α :=
  match fields.lookup name with
  | none => missing
  | some j => read j

/-- `SetQuerySettingsIndexHintAction.model_validate` of a document, which may hold no other field. -/
def ofFields (fields : List (String × Json)) : Option QuerySettingsPayload := do
  guard (fields.all (·.1 ∈ ["action_type", "database", "collection", "query_shape_hash",
    "allowed_indexes", "previous_allowed_indexes"]))
  let actionType ← field fields "action_type" Json.asStr (some "SET_QUERY_SETTINGS_INDEX_HINT")
  let database ← field fields "database" Json.asStr none
  let collection ← field fields "collection" Json.asStr none
  let queryShapeHash ← field fields "query_shape_hash" Json.asStr none
  let allowedIndexes ← field fields "allowed_indexes" strings none
  let previousAllowedIndexes ← field fields "previous_allowed_indexes"
    (fun j => if j = .null then some none else (strings j).map some) (some none)
  return ⟨actionType, database, collection, queryShapeHash, allowedIndexes, previousAllowedIndexes⟩

end QuerySettingsPayload

namespace SetQuerySettingsIndexHintAction

def inverse (a : SetQuerySettingsIndexHintAction) : RestoreQuerySettingsIndexHintAction :=
  ⟨a.database, a.collection, a.queryShapeHash, a.previousAllowedIndexes⟩

def toNamespace (a : SetQuerySettingsIndexHintAction) : Namespace := ⟨a.collection⟩

end SetQuerySettingsIndexHintAction

/-- `_action_fingerprint`: the SHA-256 digest of an action stands for the action. -/
structure ActionFingerprint where
  document : CreateIndexAction
  deriving DecidableEq

end NoSQLOptimizer.Actions
