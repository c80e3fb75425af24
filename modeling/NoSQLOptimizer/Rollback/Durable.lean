import NoSQLOptimizer.ControlPlane.World

namespace NoSQLOptimizer.Rollback

open Adapters Actions ControlPlane Concurrency

variable {τ : Type}

/-- The row `_bound` joins together. -/
structure BoundRollback where
  runId : RunId
  targetId : TargetId
  artifact : DeploymentArtifact
  candidate : Candidate
  action : CandidateAction
  authority : AuthorityDecision

def boundRollback (s : World τ) (r : RunId) : Option BoundRollback := do
  let run ← s.runs r
  let artifact ← s.artifacts r
  let candidate ← s.candidates artifact.candidateId
  let action ← s.candidateActions artifact.candidateId
  let authority ← s.authorities r
  return ⟨r, run.targetId, artifact, candidate, action, authority⟩

abbrev BoundRollback.candidateId (bound : BoundRollback) : CandidateId := bound.artifact.candidateId

/-- What `rollback_for_run` reports: ROLLED_BACK or ROLLBACK_BLOCKED, and why. -/
structure Outcome where
  status : RunStatus
  reason : String
  deriving DecidableEq

def Outcome.applied : Outcome := ⟨.rolledBack, "ROLLBACK_APPLIED"⟩

def Outcome.blocked (reason : String) : Outcome := ⟨.rollbackBlocked, reason⟩

/-- `_recorded_outcome`, of the record found. -/
def recordedOutcome : Option RollbackRecord → Option Outcome
  | none => none
  | some ⟨.intentRecorded, _⟩ => none
  | some ⟨.rolledBack, _⟩ => some .applied
  | some ⟨.rollbackBlocked, .blocked reason _⟩ => some (.blocked reason)
  | some ⟨.rollbackBlocked, _⟩ => some (.blocked "ROLLBACK_BLOCKED")

/-- `_safe_reason`: what stands against the inverse mutation. -/
def safeReason (bound : BoundRollback) (state : IndexState) (action : CreateIndexAction) :
    Option String :=
  let matching := state.indexes.filter (·.name = action.indexName)
  firstRefusal
    [(some bound.artifact.candidateFingerprint ≠ bound.candidate.deterministicFingerprint,
        "CANDIDATE_FINGERPRINT_DRIFT"),
      (bound.artifact.afterState = none || bound.artifact.actionFingerprint ≠ ⟨action⟩,
        "DEPLOYMENT_ARTIFACT_INVALID"),
      (!state.namespaceExists, "NAMESPACE_MISMATCH"),
      (matching.map (·.keys) ≠ [action.toIndexSpec.keys], "INDEX_SPEC_MISMATCH"),
      (some state ≠ bound.artifact.afterState, "RELEVANT_DRIFT_DETECTED")]

/-- No reason stands against the drop: the artifact has been applied, and for this action. -/
theorem safeReason_none {bound : BoundRollback} {state : IndexState} {action : CreateIndexAction}
    (h : safeReason bound state action = none) :
    bound.artifact.afterState = some state ∧ bound.artifact.actionFingerprint = ⟨action⟩ := by
  have hno := firstRefusal_eq_none.mp h
  simp only [List.mem_cons, List.not_mem_nil, or_false, forall_eq_or_imp, forall_eq,
    Bool.or_eq_false_iff, decide_eq_false_iff_not, not_not] at hno
  exact ⟨hno.2.2.2.2.symm, hno.2.1.2⟩

def withoutOwnedIndex (state : IndexState) (name : String) : IndexState :=
  { state with indexes := withoutName name state.indexes }

def putRollback (c : CandidateId) (row : RollbackRecord) (s : World τ) : World τ :=
  { s with rollbacks := Function.update s.rollbacks c (some row) }

/-- What `_record` does in its one transaction. -/
def recordRow (c : CandidateId) (status : RollbackStatus) (payload : RollbackPayload)
    (s : World τ) : Except Error (PUnit × World τ) :=
  match s.rollbacks c with
  | none => .ok (⟨⟩, putRollback c ⟨status, payload⟩ s)
  | some existing =>
    if existing.status = .intentRecorded && (status = .rolledBack || status = .rollbackBlocked)
    then .ok (⟨⟩, putRollback c ⟨status, payload⟩ s)
    else if existing.status ≠ status then .error (.value "rollback outcome already recorded")
    else .ok (⟨⟩, s)

def record (c : CandidateId) (status : RollbackStatus) (payload : RollbackPayload) :
    Proc τ PUnit :=
  .atomic (.record c status) (recordRow c status payload)

theorem recordRow_ok {c : CandidateId} {status : RollbackStatus} {payload : RollbackPayload}
    {s t : World τ} {x : PUnit} (h : recordRow c status payload s = .ok (x, t)) :
    ((∀ old, s.rollbacks c = some old → old.status = .intentRecorded) ∧
        t = putRollback c ⟨status, payload⟩ s) ∨
      ∃ old, s.rollbacks c = some old ∧ old.status = status ∧ t = s := by
  unfold recordRow at h
  split at h
  · next hnone =>
    cases h
    exact .inl ⟨by simp [hnone], rfl⟩
  · next old hold =>
    split at h
    · next hintent =>
      cases h
      simp only [Bool.and_eq_true, decide_eq_true_eq] at hintent
      exact .inl ⟨by simp [hold, hintent.1], rfl⟩
    · split at h <;> cases h
      next hstatus => exact .inr ⟨old, hold, by simpa using hstatus, rfl⟩

def rollbackLedgerExists (bound : BoundRollback) : Proc τ Bool :=
  .read (.rollbackLedgerExists bound.runId bound.candidateId) (fun s =>
    s.ledger.any (fun e => e.runId = bound.runId && e.candidateId = bound.candidateId &&
      e.eventType = .rollbackApplied))

def BoundRollback.ledgerPayload (bound : BoundRollback) (before after : IndexState)
    (action : CreateIndexAction) : LedgerPayload :=
  { targetId := bound.targetId
    runId := bound.runId
    candidateId := bound.candidateId
    actionId := bound.action.id
    eventType := .rollbackApplied
    beforeState := before
    intendedState := after
    afterState := after
    forwardAction := .dropIndex bound.artifact.inverseAction
    inverseAction := .createIndex action
    evidenceHash := bound.authority.integrityFingerprint
    actor := "durable-rollback-worker" }

/-- `_finalize_record`. -/
def finalizeRecord (bound : BoundRollback) (before after : IndexState)
    (action : CreateIndexAction) : Proc τ PUnit := do
  let recorded ← rollbackLedgerExists bound
  Process.when (!recorded) (append (bound.ledgerPayload before after action))
  record bound.candidateId .rolledBack (.applied before after)

/-- The inverse mutation, once nothing stands against it. -/
def dropOwned (A : DatabaseAdapter τ) (bound : BoundRollback) (state : IndexState)
    (action : CreateIndexAction) : Proc τ Outcome := do
  let expectedAfter := withoutOwnedIndex state action.indexName
  record bound.candidateId .intentRecorded (.intent state expectedAfter)
  dropIndex A bound.runId action.toNamespace action.indexName
  let after ← ControlPlane.state A bound.runId .inverse action
  if after ≠ expectedAfter then
    record bound.candidateId .rollbackBlocked (.blocked "INVERSE_EFFECT_UNVERIFIED" after)
    return .blocked "INVERSE_EFFECT_UNVERIFIED"
  else
    finalizeRecord bound state after action
    return .applied

/-- The recorded intent whose effect is already on the target: the state before it. -/
def effectedIntent (intent : Option RollbackRecord) (state : IndexState) : Option IndexState :=
  match intent with
  | some ⟨.intentRecorded, .intent before expectedAfter⟩ =>
    if state = expectedAfter then some before else none
  | _ => none

/-- `_rollback_locked`. -/
def rollbackLocked (A : DatabaseAdapter τ) (bound : BoundRollback) : Proc τ Outcome := do
  let action ← Process.ofExcept (bound.action.actionPayload.modelValidate.mapError .validation)
  let state ← ControlPlane.state A bound.runId .rollback action
  let intent ← Process.read (.rollbackRecord bound.candidateId) (·.rollbacks bound.candidateId)
  match effectedIntent intent state with
  | some before =>
    finalizeRecord bound before state action
    return .applied
  | none =>
    match safeReason bound state action with
    | some reason =>
      record bound.candidateId .rollbackBlocked (.blocked reason state)
      return .blocked reason
    | none => dropOwned A bound state action

def rollbackForRun (A : DatabaseAdapter τ) (worker : WorkerId) (r : RunId) : Proc τ Outcome := do
  match ← Process.read (.boundRollback r) (boundRollback · r) with
  | none => throw (.value "deployment artifact is required for rollback")
  | some bound =>
    let recorded ← Process.read (.recordedOutcome bound.candidateId) (·.rollbacks bound.candidateId)
    match recordedOutcome recorded with
    | some outcome => return outcome
    | none =>
      if ← tryAcquire .rollback worker bound.targetId then
        (rollbackLocked A bound).onExit (release .rollback r worker bound.targetId)
      else return .blocked "TARGET_LOCK_UNAVAILABLE"

end NoSQLOptimizer.Rollback
