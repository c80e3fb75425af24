import NoSQLOptimizer.Production.Memory

namespace NoSQLOptimizer.Rollback.OwnedIndex

open Adapters Concurrency Encoding Ledger Production.Memory
open ControlPlane (IndexState)

inductive RollbackStatus
  | rolledBack
  | rollbackBlocked
  deriving DecidableEq

/-- Identifies one previously applied optimizer-owned index action. -/
structure RollbackRequest where
  targetId : String
  appliedLedgerEntryId : EntryId
  actor : String
  deriving DecidableEq

structure RollbackResult where
  status : RollbackStatus
  reasonCodes : List String
  ledgerEntry : Option LedgerEntry := none

def blocked (reasonCodes : List String) : RollbackResult := ⟨.rollbackBlocked, reasonCodes, none⟩

/-- A field of the recorded action; Python's `True` and `False` are integers. -/
def fieldOf (item : Json) : Option (String × Int) :=
  match item.get "field", item.get "direction" with
  | .str field, .int direction => some (field, direction)
  | .str field, .bool b => some (field, if b then 1 else 0)
  | _, _ => none

/-- What iterating over `action.get("fields", ())` yields; the characters of a string and the keys of
an object are no mappings. -/
def fieldItems : Json → Except Error (List Json)
  | .obj action =>
    match action.lookup "fields" with
    | some (.arr items) => .ok items.toList
    | some (.str _) => .ok []
    | some (.obj _) => .ok []
    | some _ => .error .typeError
    | none => .ok []
  | _ => .ok []

theorem fieldItems_canonical {r : Fields} {items : Items}
    (h : r.lookup "fields" = some (.arr items)) :
    fieldItems (Json.obj r).canonical = .ok (items.toList.map Json.canonical) := by
  simp only [fieldItems, Json.canonical, Fields.lookup_canonical, h, Option.map_some,
    Items.toList_canonical]

@[simp] theorem fieldOf_canonical (item : Json) : fieldOf item.canonical = fieldOf item := by
  unfold fieldOf
  rw [Json.get_canonical, Json.get_canonical]
  cases item.get "field" <;> cases item.get "direction" <;> rfl

/-- The action's index among those listed. -/
def matching (action : Json) (indexes : List IndexSpec) : List IndexSpec :=
  indexes.filter (fun index => action.get "index_name" = .str index.name)

/-- What `_verify_ownership` finds against the entry in the current state. -/
def stateFailures (sha256 : Json → String) (entry : LedgerEntry) (current : IndexState) :
    Except Error (List String) := do
  if !current.namespaceExists then return ["NAMESPACE_MISMATCH"]
  let action := entry.forwardAction.1
  let found := matching action current.indexes
  let expectedKeys := (← fieldItems action).filterMap fieldOf
  let fingerprint := match found with
    | [index] => Json.str (indexFingerprint sha256 index)
    | _ => .null
  return (if found.map (·.keys) ≠ [expectedKeys] then ["INDEX_SPEC_MISMATCH"] else []) ++
    (if fingerprint ≠ action.get "index_fingerprint" then ["FINGERPRINT_MISMATCH"] else []) ++
    (if stateHash sha256 (stateJson current) ≠ stateHash sha256 entry.afterState then
      ["RELEVANT_DRIFT_DETECTED"] else [])

variable {τ : Type} {sha256 : Json → String}

/-- `_verify_ownership`. -/
def verifyOwnership (A : DatabaseAdapter τ) (entry : LedgerEntry) (targetId : String) :
    Proc τ sha256 (List String) := do
  let action := entry.forwardAction.1
  if action.get "phase" ≠ .str "APPLIED" ∨ action.get "action_type" ≠ .str "CREATE_INDEX" then
    return ["LEDGER_OWNERSHIP_MISSING"]
  let failures := if action.get "target_id" ≠ .str targetId then ["TARGET_MISMATCH"] else []
  match action.get "database", action.get "collection" with
  | .str database, .str collection =>
    let current ← currentState A (.listNamespaces none) (.ownIndexes entry targetId ⟨collection⟩)
      database ⟨collection⟩
    return failures ++ (← Process.ofExcept (stateFailures sha256 entry current))
  | _, _ => return failures ++ ["NAMESPACE_MISMATCH"]

/-- `{"phase": phase, **action}`. -/
def withPhase (phase : String) : Json → Json
  | .obj action => .obj (.cons "phase" (.str phase) action)
  | j => j

/-- The record of a rollback of the entry. -/
def rollbackRecord (entry : LedgerEntry) (actor : String) (before after : IndexState) : Record where
  beforeState := stateJson before
  intendedState := stateJson after
  afterState := stateJson after
  forwardAction := withPhase "ROLLED_BACK" entry.inverseAction
  inverseAction := entry.forwardAction
  evidenceHash := entry.evidenceHash
  actor := actor

/-- `OwnedIndexRollbacker.rollback` once the entry is found and nothing speaks against it. -/
def dropOwned (A : DatabaseAdapter τ) (entry : LedgerEntry) (actor : String) :
    Proc τ sha256 RollbackResult := do
  let action := entry.forwardAction.1
  let database := (action.get "database").asStr.getD ""
  let ns : Namespace := ⟨(action.get "collection").asStr.getD ""⟩
  let name := (action.get "index_name").asStr.getD ""
  let before ← currentState A (.listNamespaces (some entry)) (.listIndexes (some entry) ns) database ns
  rollBack entry (.dropIndex entry ns name) (A.dropIndex · ns name)
  let after ← currentState A (.listNamespaces none) (.listIndexes none ns) database ns
  if after.indexes.any (·.name = name) then return blocked ["RESULTING_STATE_MISMATCH"]
  let rolledBack ← append (rollbackRecord entry actor before after)
  return ⟨.rolledBack, [], some rolledBack⟩

/-- Rolls the owned index back, or returns ROLLBACK_BLOCKED without mutation. -/
def rollback (A : DatabaseAdapter τ) (request : RollbackRequest) :
    Proc τ sha256 RollbackResult := do
  match ← findEntry request.appliedLedgerEntryId with
  | none => return blocked ["LEDGER_OWNERSHIP_MISSING"]
  | some entry =>
    let failures ← verifyOwnership A entry request.targetId
    if failures ≠ [] then return blocked failures
    dropOwned A entry request.actor

end NoSQLOptimizer.Rollback.OwnedIndex
