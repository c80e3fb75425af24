import NoSQLOptimizer.Production.Memory

namespace NoSQLOptimizer.Production.QuerySettings

open Adapters Actions Autonomy Concurrency Encoding Ledger Memory
open ControlPlane (DeploymentMode)

/-- Evidence and human-approval context for one query-settings update. -/
structure QuerySettingsDeploymentRequest where
  targetId : String
  actionId : String
  action : SetQuerySettingsIndexHintAction
  evidenceHash : String
  expectedStateHash : String
  actor : String
  deploymentMode : DeploymentMode := .approvalControlled

structure QuerySettingsDeploymentResult where
  preparedEntry : LedgerEntry
  appliedEntry : LedgerEntry
  resultingStateHash : String

structure QuerySettingsRollbackRequest where
  targetId : String
  appliedLedgerEntryId : EntryId
  actor : String

def allowedIndexes (hint : Option QuerySettingsIndexHint) : Option (List String) :=
  hint.map (·.allowedIndexes)

def hintJson (action : SetQuerySettingsIndexHintAction) (hint : Option QuerySettingsIndexHint) :
    Json :=
  .object [("database", .str action.database), ("collection", .str action.collection),
    ("query_shape_hash", .str action.queryShapeHash),
    ("allowed_indexes", optionalNames (allowedIndexes hint))]

/-- The arguments of `_append`. -/
def record (phase : String) (request : QuerySettingsDeploymentRequest)
    (before after : Option QuerySettingsIndexHint) : Record where
  beforeState := hintJson request.action before
  intendedState := hintJson request.action (some ⟨request.action.allowedIndexes⟩)
  afterState := hintJson request.action after
  forwardAction := .object ([("phase", .str phase), ("target_id", .str request.targetId)] ++
    request.action.modelDump)
  inverseAction := .object request.action.inverse.modelDump
  evidenceHash := request.evidenceHash
  actor := request.actor

variable {τ : Type} {sha256 : Json → String} (A : QuerySettingsAdapter τ)

/-- `_current_hint`. -/
def currentHint (l : Namespace → String → Label) (action : SetQuerySettingsIndexHintAction) :
    Proc τ sha256 (Option QuerySettingsIndexHint) :=
  readHint A (l action.toNamespace action.queryShapeHash) action.toNamespace action.queryShapeHash

def verifyIndexesExist (action : SetQuerySettingsIndexHintAction) : Proc τ sha256 PUnit := do
  let indexes ← Process.read (.listIndexes none action.toNamespace)
    (A.listIndexes ·.db action.toNamespace)
  Process.raiseIf (!action.allowedIndexes.all (· ∈ indexes.map (·.name)))
    (.productionExecution "allowedIndexes must name existing indexes")

/-- `QuerySettingsExecutor.deploy`; its lock only rules interleavings out. -/
def deploy (request : QuerySettingsDeploymentRequest) :
    Proc τ sha256 QuerySettingsDeploymentResult := do
  let action := request.action
  let before ← currentHint A .hint action
  Process.raiseIf (stateHash sha256 (hintJson action before) ≠ request.expectedStateHash)
    (.productionExecution "current query-settings state differs from verified evidence")
  Process.raiseIf (allowedIndexes before ≠ action.previousAllowedIndexes)
    (.productionExecution "prior query-settings state differs from typed inverse evidence")
  Process.when (approvalRequired request.deploymentMode action.actionType before.isSome)
    (requireCurrentApproval request.actionId request.evidenceHash request.targetId)
  verifyIndexesExist A action
  let after : QuerySettingsIndexHint := ⟨action.allowedIndexes⟩
  let prepared ← append (record "PREPARED" request before before)
  write (.setHint action.toNamespace action.queryShapeHash after)
    (A.setHint · action.toNamespace action.queryShapeHash (some after))
  let actual ← currentHint A .hint action
  Process.raiseIf (actual ≠ some after)
    (.productionExecution "resulting query-settings state does not match typed action")
  let applied ← append (record "APPLIED" request before actual)
  return ⟨prepared, applied, stateHash sha256 (hintJson action actual)⟩

/-- The action that an entry of phase APPLIED records. -/
def appliedAction (entry : LedgerEntry) : Except Error SetQuerySettingsIndexHintAction :=
  match entry.forwardAction.1 with
  | .obj fields =>
    if fields.lookup "phase" ≠ some (.str "APPLIED") then
      .error (.productionExecution "ledger-owned applied query-settings action required")
    else
      match QuerySettingsPayload.ofFields
          (fields.toList.filter (·.1 ∉ ["phase", "target_id"])) with
      | none => .error .validation
      | some payload =>
        match payload.modelValidate with
        | .ok action => .ok action
        | .error _ => .error .validation
  | _ => .error (.productionExecution "ledger-owned applied query-settings action required")

/-- The hint that a rollback restores. -/
def previousHint (action : SetQuerySettingsIndexHintAction) : Option QuerySettingsIndexHint :=
  action.previousAllowedIndexes.map QuerySettingsIndexHint.mk

/-- The record of a rollback of the entry. -/
def rollbackRecord (entry : LedgerEntry) (action : SetQuerySettingsIndexHintAction) (actor : String)
    (current : Option QuerySettingsIndexHint) : Record where
  beforeState := hintJson action current
  intendedState := hintJson action (previousHint action)
  afterState := hintJson action (previousHint action)
  forwardAction := .object (("phase", .str "ROLLED_BACK") :: action.inverse.modelDump)
  inverseAction := .object action.modelDump
  evidenceHash := entry.evidenceHash
  actor := actor

/-- `QuerySettingsExecutor.rollback` of an entry whose action is known. -/
def restore (entry : LedgerEntry) (action : SetQuerySettingsIndexHintAction) (actor : String) :
    Proc τ sha256 LedgerEntry := do
  let current ← currentHint A (.ownHint entry) action
  Process.raiseIf (allowedIndexes current ≠ some action.allowedIndexes)
    (.productionExecution "query-settings drift blocks exact rollback")
  let restored := previousHint action
  rollBack entry
    (.restoreHint entry action.toNamespace action.queryShapeHash restored)
    (A.setHint · action.toNamespace action.queryShapeHash restored)
  let now ← currentHint A .hint action
  Process.raiseIf (now ≠ restored)
    (.productionExecution "query-settings rollback did not restore prior state")
  append (rollbackRecord entry action actor current)

/-- `QuerySettingsExecutor.rollback`. -/
def rollback (request : QuerySettingsRollbackRequest) : Proc τ sha256 LedgerEntry := do
  match ← findEntry request.appliedLedgerEntryId with
  | none => throw (.productionExecution "ledger-owned applied query-settings action required")
  | some entry =>
    let action ← Process.ofExcept (appliedAction entry)
    Process.raiseIf (entry.forwardAction.1.get "target_id" ≠ .str request.targetId)
      (.productionExecution "query-settings rollback target mismatch")
    restore A entry action request.actor

end NoSQLOptimizer.Production.QuerySettings
