import NoSQLOptimizer.ControlPlane.World

namespace NoSQLOptimizer.Recovery

open Actions ControlPlane Concurrency

variable {τ : Type}

def put (key : IdempotencyKey) (row : RecoveryRecord) (s : World τ) : World τ :=
  { s with recovery := Function.update s.recovery key (some row) }

/-- `INSERT .. ON CONFLICT (idempotency_key) DO NOTHING`. -/
def recordIntent (key : IdempotencyKey) (actionId : Nat) (targetId : TargetId)
    (expectedFingerprint : ActionFingerprint) : Proc τ PUnit :=
  .modify (.recordIntent key) (fun s => match s.recovery key with
    | some _ => s
    | none => put key ⟨actionId, targetId, expectedFingerprint, .intentRecorded⟩ s)

/-- The first transaction of `execute_or_recover`: `none` when execution is already confirmed. -/
def beginRow (key : IdempotencyKey) (s : World τ) :
    Except Error (Option ActionFingerprint × World τ) :=
  match s.recovery key with
  | none => .error (.value "idempotency intent must be recorded before execution")
  | some row =>
    if row.state = .executionConfirmed then .ok (none, s)
    else .ok (some row.expectedFingerprint, put key { row with state := .executionStarted } s)

def beginExecution (key : IdempotencyKey) : Proc τ (Option ActionFingerprint) :=
  .atomic (.beginExecution key) (beginRow key)

theorem beginRow_ok {key : IdempotencyKey} {s t : World τ} {o : Option ActionFingerprint}
    (h : beginRow key s = .ok (o, t)) : ∃ row, s.recovery key = some row ∧
      ((row.state = .executionConfirmed ∧ o = none ∧ t = s) ∨
        (o = some row.expectedFingerprint ∧ t = put key { row with state := .executionStarted } s)) := by
  unfold beginRow at h
  split at h
  · cases h
  · next row hrow =>
    refine ⟨row, hrow, ?_⟩
    split at h <;> cases h
    · next hconf => exact .inl ⟨hconf, rfl, rfl⟩
    · exact .inr ⟨rfl, rfl⟩

/-- The last transaction sets EFFECT_OBSERVED and then EXECUTION_CONFIRMED; the second is what
anyone sees. -/
def confirmExecution (key : IdempotencyKey) : Proc τ PUnit :=
  .modify (.confirmExecution key) (fun s => match s.recovery key with
    | none => s
    | some row => put key { row with state := .executionConfirmed } s)

def executeOrRecover (key : IdempotencyKey) (targetHasExactEffect : ActionFingerprint → Proc τ Bool)
    (applyMutation : Proc τ PUnit) : Proc τ PUnit := do
  match ← beginExecution key with
  | none => return ⟨⟩
  | some expected =>
    let effect ← targetHasExactEffect expected
    Process.when (!effect) applyMutation
    confirmExecution key

end NoSQLOptimizer.Recovery
