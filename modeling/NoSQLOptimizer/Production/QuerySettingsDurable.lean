import NoSQLOptimizer.Adapters.Contracts
import NoSQLOptimizer.Concurrency.Triple
import NoSQLOptimizer.ControlPlane.Tables

namespace NoSQLOptimizer.Production.DurableQuerySettings

open Actions Adapters Concurrency ControlPlane Encoding

/-- `_state`: what is recorded of a hint. -/
structure SettingState where
  database : String
  collection : String
  queryShapeHash : String
  allowedIndexes : Option (List String)
  deriving DecidableEq

def stateOf (action : SetQuerySettingsIndexHintAction) (hint : Option QuerySettingsIndexHint) :
    SettingState :=
  ⟨action.database, action.collection, action.queryShapeHash, hint.map (·.allowedIndexes)⟩

/-- `_hash` of these; the digest of a document stands for the document. -/
structure IdempotencyKey where
  targetId : TargetId
  action : SetQuerySettingsIndexHintAction
  evidenceHash : String
  deriving DecidableEq

structure OwnershipToken where
  targetId : TargetId
  queryShapeHash : String
  action : SetQuerySettingsIndexHintAction
  deriving DecidableEq

inductive DeploymentStatus
  | intentRecorded
  | applied
  | rollbackIntent
  | rolledBack
  deriving DecidableEq

/-- What `_intent` records; no later update touches it. -/
structure Intent where
  targetId : TargetId
  optimizationRunId : Option RunId
  queryShapeHash : String
  namespaceName : String
  actionFingerprint : SetQuerySettingsIndexHintAction
  idempotencyKey : IdempotencyKey
  beforeState : SettingState
  intendedState : SettingState
  inverseAction : RestoreQuerySettingsIndexHintAction
  ownershipToken : OwnershipToken
  keyed : idempotencyKey.targetId = targetId
  intends : intendedState = stateOf idempotencyKey.action (some ⟨idempotencyKey.action.allowedIndexes⟩)
  deriving DecidableEq

/-- A row of `query_settings_deployments`. -/
structure QuerySettingsDeployment extends Intent where
  status : DeploymentStatus
  afterState : Option SettingState
  deriving DecidableEq

/-- The hint that the deployment sets. -/
def Intent.intended (d : Intent) : Option QuerySettingsIndexHint :=
  d.intendedState.allowedIndexes.map QuerySettingsIndexHint.mk

/-- The place of a row in its table stands for its id. -/
abbrev DeploymentId := Nat

abbrev Deployment := DeploymentId × QuerySettingsDeployment

inductive LedgerEvent
  | applied
  | rolledBack
  deriving DecidableEq

/-- The move that an update to this status is. -/
def DeploymentStatus.event : DeploymentStatus → Option LedgerEvent
  | .applied => some .applied
  | .rolledBack => some .rolledBack
  | _ => none

/-- An entry of the production ledger. -/
structure Entry where
  targetId : TargetId
  runId : Option RunId
  actionId : DeploymentId
  eventType : LedgerEvent
  beforeState : SettingState
  intendedState : SettingState
  afterState : SettingState
  forwardAction : List (String × Json)
  inverseAction : List (String × Json)
  evidenceHash : String
  actor : String := "durable-query-settings-worker"

/-- A call of `set_query_settings_index_hint`: for which deployment, and the hint last read. -/
structure Setting where
  deployment : Intent
  read : Option QuerySettingsIndexHint
  written : Option QuerySettingsIndexHint
  deriving DecidableEq

/-- What there is of a deployment when a call returns it. -/
structure Receipt where
  status : Option DeploymentStatus
  moves : List LedgerEvent
  entries : List LedgerEvent
  deriving DecidableEq

/-- The monitored database, PostgreSQL and the advisory locks.  `moves`, `settings` and `returned`
are logs of this model; no service reads them. -/
structure State (τ ι : Type) where
  db : τ
  locks : TargetId → Option ι := fun _ => none
  deployments : List QuerySettingsDeployment := []
  ledger : List Entry := []
  moves : List (DeploymentId × LedgerEvent) := []
  settings : List Setting := []
  returned : List Receipt := []

namespace State

variable {τ ι : Type}

def deployment (s : State τ ι) (id : DeploymentId) : Option QuerySettingsDeployment :=
  s.deployments[id]?

def byKey (s : State τ ι) (key : IdempotencyKey) : Option Deployment := do
  let id ← s.deployments.findIdx? (·.idempotencyKey = key)
  let d ← s.deployment id
  return (id, d)

/-- `SELECT entry_id FROM production_ledger_entries WHERE ..`. -/
def recorded (s : State τ ι) (target : TargetId) (id : DeploymentId) (event : LedgerEvent) : Bool :=
  s.ledger.any (fun e => e.targetId = target ∧ e.actionId = id ∧ e.eventType = event)

def movesOf (s : State τ ι) (id : DeploymentId) : List LedgerEvent :=
  (s.moves.filter (·.1 = id)).map (·.2)

def entriesOf (s : State τ ι) (id : DeploymentId) : List LedgerEvent :=
  (s.ledger.filter (·.actionId = id)).map (·.eventType)

def receipt (s : State τ ι) (id : DeploymentId) : Receipt :=
  ⟨(s.deployment id).map (·.status), s.movesOf id, s.entriesOf id⟩

def insert (s : State τ ι) (d : QuerySettingsDeployment) : State τ ι :=
  { s with deployments := s.deployments ++ [d] }

/-- The row becomes `d`; `moves` notes it where that is a move. -/
def update (s : State τ ι) (id : DeploymentId) (d : QuerySettingsDeployment)
    (move : Option LedgerEvent) : State τ ι :=
  { s with
    deployments := s.deployments.set id d
    moves := s.moves ++ move.toList.map (id, ·) }

theorem deployment_insert (s : State τ ι) (d : QuerySettingsDeployment) (id : DeploymentId) :
    (s.insert d).deployment id =
      if id = s.deployments.length then some d else s.deployment id := by
  rcases Nat.lt_trichotomy id s.deployments.length with h | rfl | h
  · rw [insert, deployment, List.getElem?_append_left h, if_neg h.ne]
    rfl
  · simp [insert, deployment]
  · have hout : s.deployments.length + 1 ≤ id := h
    rw [insert, deployment, deployment, if_neg h.ne', List.getElem?_eq_none h.le,
      List.getElem?_eq_none (by simpa using hout)]

theorem deployment_update {s : State τ ι} {id : DeploymentId} {d : QuerySettingsDeployment}
    (hd : s.deployment id = some d) (d' : QuerySettingsDeployment) (move : Option LedgerEvent)
    (id' : DeploymentId) : (s.update id d' move).deployment id' =
      if id' = id then some d' else s.deployment id' := by
  have hlt : id < s.deployments.length := (List.getElem?_eq_some_iff.mp hd).1
  by_cases h : id' = id
  · subst h
    simp [update, deployment, hlt]
  · simp [update, deployment, h, Ne.symm h]

theorem byKey_some {s : State τ ι} {key : IdempotencyKey} {id : DeploymentId}
    {d : QuerySettingsDeployment} (h : s.byKey key = some (id, d)) :
    s.deployment id = some d ∧ d.idempotencyKey = key := by
  simp only [byKey, bind, pure, Option.bind_eq_some_iff, Option.some.injEq, Prod.mk.injEq] at h
  obtain ⟨id', hfind, d', hd, rfl, rfl⟩ := h
  obtain ⟨hlt, hkey, -⟩ := List.findIdx?_eq_some_iff_getElem.mp hfind
  have hget : s.deployments[id'] = d' := by
    rw [deployment, List.getElem?_eq_getElem hlt] at hd
    exact Option.some.inj hd
  exact ⟨hd, by simpa [hget] using hkey⟩

end State

inductive Label
  | tryAcquire : TargetId → Label
  | release : TargetId → Label
  | listIndexes : Namespace → Label
  | currentHint : IdempotencyKey → Label
  | hint : Namespace → String → Label
  | byKey : IdempotencyKey → Label
  | byId : DeploymentId → Label
  | intent : IdempotencyKey → Label
  | setHint : Setting → Label
  | mark : DeploymentId → DeploymentStatus → Label
  | exists : DeploymentId → LedgerEvent → Label
  | append : DeploymentId → LedgerEvent → Label
  | returned : DeploymentId → Label

inductive Error
  | durableQuerySettings : String → Error
  | adapter
  | validation
  | integrity : String → Error
  | noResultFound
  deriving DecidableEq

variable {τ ι : Type}

abbrev Proc (τ ι α : Type) := Process Label (State τ ι) Error α

section Statements

variable (A : QuerySettingsAdapter τ)

def readHint (l : Label) (action : SetQuerySettingsIndexHintAction) :
    Proc τ ι (Option QuerySettingsIndexHint) := do
  match ← Process.read l (fun s => A.getHint s.db action.toNamespace action.queryShapeHash) with
  | none => throw .adapter
  | some hint => return hint

/-- `set_query_settings_index_hint`; the adapter may refuse. -/
def setHint (action : SetQuerySettingsIndexHintAction) (call : Setting) : Proc τ ι PUnit := do
  let done ← .act (.setHint call)
    (fun s => { s with
      db := (A.setHint s.db action.toNamespace action.queryShapeHash call.written).getD s.db
      settings := s.settings ++ [call] })
    (fun s => .ret (A.setHint s.db action.toNamespace action.queryShapeHash call.written).isSome)
  Process.raiseIf (!done) .adapter

def intentOf (target : TargetId) (run : Option RunId) (action : SetQuerySettingsIndexHintAction)
    (evidenceHash : String) (before : SettingState) : Intent where
  targetId := target
  optimizationRunId := run
  queryShapeHash := action.queryShapeHash
  namespaceName := action.database ++ "." ++ action.collection
  actionFingerprint := action
  idempotencyKey := ⟨target, action, evidenceHash⟩
  beforeState := before
  intendedState := stateOf action (some ⟨action.allowedIndexes⟩)
  inverseAction := action.inverse
  ownershipToken := ⟨target, action.queryShapeHash, action⟩
  keyed := rfl
  intends := rfl

/-- Two rows that a `UNIQUE` constraint keeps apart. -/
def Intent.Clashes (d d' : Intent) : Prop :=
  d.idempotencyKey = d'.idempotencyKey ∨ d.targetId = d'.targetId ∧
    d.queryShapeHash = d'.queryShapeHash ∧ d.ownershipToken = d'.ownershipToken

instance (d d' : Intent) : Decidable (d.Clashes d') := inferInstanceAs (Decidable (_ ∨ _))

/-- `_intent`. -/
def recordIntent (d : Intent) : Proc τ ι Deployment :=
  .atomic (.intent d.idempotencyKey) (fun s =>
    if s.deployments.any (fun d' => d.Clashes d'.toIntent) then
      .error (.integrity "query_settings_deployments")
    else
      let row : QuerySettingsDeployment :=
        { toIntent := d, status := .intentRecorded, afterState := none }
      .ok ((s.deployments.length, row), s.insert row))

/-- `_mark`. -/
def mark (id : DeploymentId) (status : DeploymentStatus) (after : SettingState) :
    Proc τ ι Deployment :=
  .atomic (.mark id status) (fun s =>
    match s.deployment id with
    | none => .error .noResultFound
    | some d =>
      let marked := { d with status := status, afterState := some after }
      .ok ((id, marked), s.update id marked (if d.status = status then none else status.event)))

/-- `_append_once`. -/
def appendOnce (e : Entry) : Proc τ ι PUnit := do
  let recorded ← .read (.exists e.actionId e.eventType)
    (·.recorded e.targetId e.actionId e.eventType)
  .when (!recorded) (.modify (.append e.actionId e.eventType)
    (fun s => { s with ledger := s.ledger ++ [e] }))

def appliedEntry (d : Deployment) (action : SetQuerySettingsIndexHintAction)
    (before intended after : SettingState) (evidenceHash : String) : Entry where
  targetId := d.2.targetId
  runId := d.2.optimizationRunId
  actionId := d.1
  eventType := .applied
  beforeState := before
  intendedState := intended
  afterState := after
  forwardAction := action.modelDump
  inverseAction := action.inverse.modelDump
  evidenceHash := evidenceHash

def rolledBackEntry (d : Deployment) (action : SetQuerySettingsIndexHintAction)
    (deployment : Intent) (after : SettingState) (evidenceHash : String) : Entry where
  targetId := d.2.targetId
  runId := d.2.optimizationRunId
  actionId := d.1
  eventType := .rolledBack
  beforeState := deployment.intendedState
  intendedState := deployment.beforeState
  afterState := after
  forwardAction := action.inverse.modelDump
  inverseAction := action.modelDump
  evidenceHash := evidenceHash

end Statements

section Locks

variable [DecidableEq ι]

/-- `pg_try_advisory_lock`. -/
def tryAcquire (i : ι) (target : TargetId) : Proc τ ι PUnit :=
  .atomic (.tryAcquire target) (fun s =>
    if s.locks target = none then
      .ok (⟨⟩, { s with locks := Function.update s.locks target (some i) })
    else .error (.durableQuerySettings "TARGET_LOCK_UNAVAILABLE"))

/-- `pg_advisory_unlock`. -/
def release (i : ι) (target : TargetId) : Proc τ ι PUnit :=
  .modify (.release target) (fun s =>
    if s.locks target = some i then { s with locks := Function.update s.locks target none } else s)

/-- A session that dies gives up its locks. -/
def dropLocks (i : ι) (s : State τ ι) : State τ ι :=
  { s with locks := fun target => if s.locks target = some i then none else s.locks target }

end Locks

section Services

variable (A : QuerySettingsAdapter τ)

/-- The setting is written, verified and recorded, for a row that is there. -/
def applySetting (row : Deployment) (action : SetQuerySettingsIndexHintAction)
    (current : Option QuerySettingsIndexHint) (evidenceHash : String) : Proc τ ι Deployment := do
  let intended : QuerySettingsIndexHint := ⟨action.allowedIndexes⟩
  setHint A action ⟨row.2.toIntent, current, some intended⟩
  let observed ← readHint A (.hint action.toNamespace action.queryShapeHash) action
  Process.raiseIf (observed ≠ some intended)
    (.durableQuerySettings "QUERY_SETTINGS_EFFECT_UNVERIFIED")
  let applied ← mark row.1 .applied (stateOf action observed)
  appendOnce (appliedEntry applied action (stateOf action current) (stateOf action (some intended))
    (stateOf action observed) evidenceHash)
  return applied

/-- What a deploy does with the row of its key. -/
def reconcile (existing : Deployment) (action : SetQuerySettingsIndexHintAction)
    (current : Option QuerySettingsIndexHint) (evidenceHash : String) : Proc τ ι Deployment := do
  let intended : Option QuerySettingsIndexHint := some ⟨action.allowedIndexes⟩
  Process.raiseIf (existing.2.actionFingerprint ≠ action)
    (.durableQuerySettings "ACTION_FINGERPRINT_DRIFT")
  if existing.2.status = .applied then
    Process.raiseIf (current ≠ intended) (.durableQuerySettings "QUERY_SETTINGS_AFTER_STATE_DRIFT")
    appendOnce (appliedEntry existing action existing.2.beforeState existing.2.intendedState
      (stateOf action current) evidenceHash)
    return existing
  else if existing.2.status = .intentRecorded ∧ current = intended then
    let applied ← mark existing.1 .applied (stateOf action current)
    appendOnce (appliedEntry applied action applied.2.beforeState applied.2.intendedState
      (stateOf action current) evidenceHash)
    return applied
  else applySetting A existing action current evidenceHash

/-- `_deploy_locked`. -/
def deployLocked (target : TargetId) (action : SetQuerySettingsIndexHintAction)
    (evidenceHash : String) (run : Option RunId) : Proc τ ι Deployment := do
  let indexes ← Process.read (.listIndexes action.toNamespace)
    (fun s => A.listIndexes s.db action.toNamespace)
  Process.raiseIf (!action.allowedIndexes.all (· ∈ indexes.map (·.name)))
    (.durableQuerySettings "ALLOWED_INDEX_NOT_PRESENT")
  let key : IdempotencyKey := ⟨target, action, evidenceHash⟩
  let current ← readHint A (.currentHint key) action
  let existing ← Process.read (.byKey key) (·.byKey key)
  match existing with
  | some existing => reconcile A existing action current evidenceHash
  | none =>
    Process.raiseIf current.isSome (.durableQuerySettings "HUMAN_QUERY_SETTINGS_PRESENT")
    let row ← recordIntent (intentOf target run action evidenceHash (stateOf action current))
    applySetting A row action current evidenceHash

/-- The action that a row is of. -/
def ownedAction (d : Intent) : Except Error SetQuerySettingsIndexHintAction :=
  match d.intendedState.allowedIndexes with
  | none => .error .validation
  | some allowed =>
    let payload : QuerySettingsPayload :=
      { database := d.beforeState.database
        collection := d.beforeState.collection
        queryShapeHash := d.queryShapeHash
        allowedIndexes := allowed
        previousAllowedIndexes := d.beforeState.allowedIndexes }
    match payload.modelValidate with
    | .ok action => .ok action
    | .error _ => .error .validation

/-- The row is marked ROLLED_BACK, and that is recorded. -/
def finishRollback (deployment : Deployment) (action : SetQuerySettingsIndexHintAction)
    (observed : Option QuerySettingsIndexHint) (evidenceHash : String) : Proc τ ι Deployment := do
  let rolledBack ← mark deployment.1 .rolledBack (stateOf action observed)
  appendOnce (rolledBackEntry rolledBack action deployment.2.toIntent (stateOf action observed)
    evidenceHash)
  return rolledBack

/-- The rollback of a deployment, under its target's lock. -/
def rollbackLocked (deployment : Deployment) (action : SetQuerySettingsIndexHintAction)
    (evidenceHash : String) : Proc τ ι Deployment := do
  let hint := .hint action.toNamespace action.queryShapeHash
  let current ← readHint A hint action
  let intended : Option QuerySettingsIndexHint := some ⟨action.allowedIndexes⟩
  let previous := action.previousAllowedIndexes.map QuerySettingsIndexHint.mk
  if deployment.2.status = .rolledBack then
    Process.raiseIf (current ≠ previous) (.durableQuerySettings "QUERY_SETTINGS_ROLLBACK_DRIFT")
    appendOnce (rolledBackEntry deployment action deployment.2.toIntent (stateOf action current)
      evidenceHash)
    return deployment
  else if current = previous ∧ deployment.2.status = .rollbackIntent then
    finishRollback deployment action current evidenceHash
  else
    Process.raiseIf (current ≠ intended) (.durableQuerySettings "QUERY_SETTINGS_OWNERSHIP_DRIFT")
    let _ ← mark deployment.1 .rollbackIntent (stateOf action current)
    setHint A action ⟨deployment.2.toIntent, current, previous⟩
    let observed ← readHint A hint action
    Process.raiseIf (observed ≠ previous)
      (.durableQuerySettings "QUERY_SETTINGS_INVERSE_UNVERIFIED")
    finishRollback deployment action observed evidenceHash

variable [DecidableEq ι]

def deploy (i : ι) (target : TargetId) (action : SetQuerySettingsIndexHintAction)
    (evidenceHash : String) (run : Option RunId) : Proc τ ι Deployment := do
  tryAcquire i target
  (deployLocked A target action evidenceHash run).onExit (release i target)

def rollback (i : ι) (id : DeploymentId) (evidenceHash : String) : Proc τ ι Deployment := do
  match ← Process.read (.byId id) (·.deployment id) with
  | none => throw (.durableQuerySettings "OWNED_APPLIED_SETTING_REQUIRED")
  | some d =>
    Process.raiseIf (d.status = .intentRecorded)
      (.durableQuerySettings "OWNED_APPLIED_SETTING_REQUIRED")
    let action ← Process.ofExcept (ownedAction d.toIntent)
    tryAcquire i d.targetId
    (rollbackLocked A (id, d) action evidenceHash).onExit (release i d.targetId)

inductive Call
  | deploy : TargetId → SetQuerySettingsIndexHintAction → String → Option RunId → Call
  | rollback : DeploymentId → String → Call

/-- The call's result is given back, and what there is of its deployment is noted. -/
def giveBack (d : Deployment) : Proc τ ι PUnit :=
  .modify (.returned d.1) (fun s => { s with returned := s.returned ++ [s.receipt d.1] })

/-- Sessions deploy and roll back, while anyone changes the monitored database. -/
def services : System Label (State τ ι) Error ι Call (τ → τ) where
  call i
    | .deploy target action evidenceHash run =>
      (deploy A i target action evidenceHash run).bind giveBack
    | .rollback id evidenceHash => (rollback A i id evidenceHash).bind giveBack
  crash := dropLocks
  env f s := { s with db := f s.db }

end Services

end NoSQLOptimizer.Production.DurableQuerySettings
