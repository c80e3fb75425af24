import NoSQLOptimizer.Autonomy.Readiness
import NoSQLOptimizer.Recovery.Durable
import NoSQLOptimizer.Runs.Repository

namespace NoSQLOptimizer.Production

open Adapters Actions Autonomy ControlPlane Concurrency Recovery Runs

variable {τ : Type}

/-- The row `_load_bound_action` joins together. -/
structure BoundAction where
  runId : RunId
  run : OptimizationRun
  admission : AdmissionArtifact
  selectedCandidateId : CandidateId
  authority : AuthorityDecision
  candidate : Candidate
  target : Target
  action : CandidateAction

def boundAction (s : World τ) (r : RunId) : Option BoundAction := do
  let run ← s.runs r
  let admission ← s.admissions r
  let authority ← s.authorities r
  let selected ← admission.selectedCandidateId
  let candidate ← s.candidates selected
  let action ← s.candidateActions selected
  let snapshotId ← run.workloadSnapshotId
  let _ ← s.snapshots snapshotId
  let target ← s.targets run.targetId
  return ⟨r, run, admission, selected, authority, candidate, target, action⟩

namespace BoundAction

variable (bound : BoundAction)

def targetId : TargetId := bound.run.targetId

def bindingRefusals : List (Bool × String) :=
  [(bound.selectedCandidateId ≠ bound.authority.candidateId, "AUTHORITY_BINDING_MISSING"),
    (bound.candidate.deterministicFingerprint ≠ some bound.authority.candidateFingerprint,
      "CANDIDATE_FINGERPRINT_DRIFT"),
    (bound.action.actionType ≠ "CREATE_INDEX" || bound.action.actionType ∉ autoEligibleActions,
      "UNSUPPORTED_TYPED_PRODUCTION_ACTION"),
    (bound.candidate.status ≠ .admitted, "CANDIDATE_NOT_ADMITTED"),
    (bound.run.deploymentMode ≠ bound.authority.deploymentMode, "DEPLOYMENT_MODE_DRIFT")]

/-- The authority fingerprint recomputed from the rows at hand. -/
def expectedAuthorityFingerprint (capability : Option CapabilitySnapshot)
    (credential : Option TargetCredential) : IntegrityFingerprint :=
  authorityIntegrityFingerprint bound.runId bound.authority.candidateId
    bound.authority.candidateFingerprint bound.authority.deploymentMode
    bound.authority.authorityType bound.authority.authorityReason
    bound.authority.productionAutonomyEligible bound.admission.productionEligible
    (environmentBinding bound.targetId bound.target capability credential)

def autonomyPrerequisites : Bool :=
  bound.run.deploymentMode = .fullAutonomous && bound.authority.productionAutonomyEligible &&
    bound.admission.productionEligible &&
    bound.candidate.policyClassification = some .autoEligibleAfterAdmission

def evidenceRefusals (capability : Option CapabilitySnapshot)
    (credential : Option TargetCredential) : List (Bool × String) :=
  [(bound.expectedAuthorityFingerprint capability credential ≠ bound.authority.integrityFingerprint,
      "PREDEPLOYMENT_EVIDENCE_DRIFT"),
    (bound.authority.authorityType = .autonomous && !bound.autonomyPrerequisites,
      "AUTONOMY_PREREQUISITE_DRIFT")]

end BoundAction

/-- An APPROVED request for this candidate that has not expired at `now`. -/
def BoundAction.approvedBy (bound : BoundAction) (now : Time) (request : ApprovalRequest) : Bool :=
  request.candidateId = bound.selectedCandidateId &&
    request.candidateFingerprint = bound.authority.candidateFingerprint &&
    request.status = .approved && now < request.expiresAt

def currentApproval (s : World τ) (bound : BoundAction) (now : Time) : Bool :=
  (s.approvals bound.runId).any (bound.approvedBy now)

def requireApproval (bound : BoundAction) : Proc τ PUnit :=
  if bound.authority.authorityType = .humanRequired then do
    let now ← Process.read .clock (·.now)
    let approval ← Process.read (.currentApproval bound.runId) (currentApproval · bound now)
    guardAll [(!approval, "CURRENT_APPROVAL_REQUIRED")]
  else pure ⟨⟩

def loadBoundAction (r : RunId) : Proc τ BoundAction := do
  match ← Process.read (.boundAction r) (boundAction · r) with
  | none => throw (.durableDeployment "AUTHORITY_BINDING_MISSING")
  | some bound =>
    guardAll bound.bindingRefusals
    let capability ← Process.read (.capability bound.targetId) (·.capabilities bound.targetId)
    let credential ← Process.read (.credential bound.targetId) (·.credentials bound.targetId)
    guardAll (bound.evidenceRefusals capability credential)
    requireApproval bound
    return bound

namespace BoundAction

variable (bound : BoundAction) (before : IndexState) (action : CreateIndexAction)

def idempotencyKey : IdempotencyKey :=
  ⟨bound.runId, bound.authority.candidateFingerprint, ⟨action⟩⟩

/-- The artifact that `_intent` inserts. -/
def newArtifact : DeploymentArtifact :=
  { candidateId := bound.selectedCandidateId
    candidateFingerprint := bound.authority.candidateFingerprint
    actionFingerprint := ⟨action⟩
    idempotencyKey := bound.idempotencyKey action
    status := .intentRecorded
    beforeState := before
    inverseAction := action.inverse
    afterState := none }

/-- The artifact is of the very candidate and action that the call is bound to. -/
def owns (artifact : DeploymentArtifact) : Bool :=
  artifact.candidateId = bound.selectedCandidateId &&
    artifact.candidateFingerprint = bound.authority.candidateFingerprint &&
    artifact.actionFingerprint = ⟨action⟩

def ledgerPayload (event : LedgerEvent) (after : IndexState) : LedgerPayload :=
  { targetId := bound.targetId
    runId := bound.runId
    candidateId := bound.selectedCandidateId
    actionId := bound.action.id
    eventType := event
    beforeState := before
    intendedState := intended before action
    afterState := after
    forwardAction := .createIndex action
    inverseAction := .dropIndex action.inverse
    evidenceHash := bound.authority.integrityFingerprint
    actor := "durable-production-worker" }

end BoundAction

def putArtifact (r : RunId) (artifact : DeploymentArtifact) (s : World τ) : World τ :=
  { s with artifacts := Function.update s.artifacts r (some artifact) }

/-- What `_intent` does in its one transaction: the run's one artifact, and whether this inserted
it. -/
def intentRow (bound : BoundAction) (before : IndexState) (action : CreateIndexAction)
    (s : World τ) : Except Error ((DeploymentArtifact × Bool) × World τ) :=
  match s.artifacts bound.runId with
  | some existing =>
    if bound.owns action existing then .ok ((existing, false), s)
    else .error (.durableDeployment "DEPLOYMENT_ARTIFACT_BINDING_DRIFT")
  | none =>
    let artifact := bound.newArtifact before action
    .ok ((artifact, true), putArtifact bound.runId artifact s)

def intent (bound : BoundAction) (before : IndexState) (action : CreateIndexAction) :
    Proc τ (DeploymentArtifact × Bool) :=
  .atomic (.intent bound.runId) (intentRow bound before action)

theorem intentRow_ok {bound : BoundAction} {before : IndexState} {action : CreateIndexAction}
    {s t : World τ} {a : DeploymentArtifact} {created : Bool}
    (h : intentRow bound before action s = .ok ((a, created), t)) :
    (s.artifacts bound.runId = some a ∧ bound.owns action a = true ∧ created = false ∧ t = s) ∨
      (s.artifacts bound.runId = none ∧ a = bound.newArtifact before action ∧ created = true ∧
        t = putArtifact bound.runId a s) := by
  unfold intentRow at h
  split at h
  · next existing hex =>
    split at h
    · next howns =>
      cases h
      exact .inl ⟨hex, howns, rfl, rfl⟩
    · cases h
  · next hnone =>
    cases h
    exact .inr ⟨hnone, rfl, rfl, rfl⟩

/-- What `_mark_applied` does in its one transaction. -/
def markAppliedRow (r : RunId) (after : IndexState) (s : World τ) :
    Except Error (DeploymentArtifact × World τ) :=
  match s.artifacts r with
  | none => .error (.value "No row was found when one was required")
  | some artifact =>
    let applied := { artifact with status := .applied, afterState := some after }
    .ok (applied, putArtifact r applied s)

def markApplied (r : RunId) (after : IndexState) : Proc τ DeploymentArtifact :=
  .atomic (.markApplied r) (markAppliedRow r after)

theorem markAppliedRow_ok {r : RunId} {after : IndexState} {s t : World τ} {b : DeploymentArtifact}
    (h : markAppliedRow r after s = .ok (b, t)) :
    ∃ a, s.artifacts r = some a ∧ b = { a with status := .applied, afterState := some after } ∧
      t = putArtifact r b s := by
  unfold markAppliedRow at h
  split at h
  · cases h
  · next a ha =>
    cases h
    exact ⟨a, ha, rfl, rfl⟩

def runStatus (r : RunId) : Proc τ RunStatus := do
  match ← Process.read (.runStatus r) (·.runs r) with
  | none => throw (.durableDeployment "RUN_NOT_FOUND")
  | some run => return run.status

def enterDeploying (bound : BoundAction) : Proc τ PUnit :=
  if bound.run.status = .approved then do
    let _ ← transition bound.runId .deploying
  else guardAll [(bound.run.status ≠ .deploying && bound.run.status ≠ .deployed,
    "RUN_NOT_APPROVED_FOR_DEPLOYMENT")]

/-- A recovered job whose artifact is already APPLIED only verifies the exact state. -/
def reconcileApplied (bound : BoundAction) (before : IndexState) (action : CreateIndexAction) :
    Proc τ PUnit := do
  guardAll [(!hasExactIndex before action, "DEPLOYED_EXTERNAL_STATE_DRIFT")]
  let current ← runStatus bound.runId
  if current = .deploying then
    let _ ← transition bound.runId .deployed
  else guardAll [(current ≠ .deployed, "RUN_NOT_DEPLOYING_FOR_RECOVERY")]

def exactEffect (A : DatabaseAdapter τ) (r : RunId) (action : CreateIndexAction)
    (expected : ActionFingerprint) : Proc τ Bool := do
  let effect ← state A r .effect action
  return expected = ⟨action⟩ && hasExactIndex effect action

def mutation (A : DatabaseAdapter τ) (worker : WorkerId) (r : RunId) (action : CreateIndexAction) :
    Proc τ PUnit := do
  ensureLeaseOwned worker
  createIndex A r action.toNamespace action.toIndexSpec

def finishDeploying (r : RunId) : Proc τ PUnit := do
  let current ← runStatus r
  if current = .deploying then
    let _ ← transition r .deployed

/-- From the effect on, everything that `_deploy_locked` does to record it. -/
def recordApplied (A : DatabaseAdapter τ) (worker : WorkerId) (bound : BoundAction)
    (before : IndexState) (action : CreateIndexAction) : Proc τ DeploymentArtifact := do
  let after ← state A bound.runId .after action
  guardAll [(!hasExactIndex after action, "EXTERNAL_EFFECT_VERIFICATION_FAILED")]
  let persisted ← markApplied bound.runId after
  append (bound.ledgerPayload before action .deploymentApplied after)
  ensureLeaseOwned worker
  finishDeploying bound.runId
  return persisted

def applyIntent (A : DatabaseAdapter τ) (worker : WorkerId) (bound : BoundAction)
    (before : IndexState) (action : CreateIndexAction) (artifact : DeploymentArtifact)
    (intentCreated : Bool) : Proc τ DeploymentArtifact := do
  recordIntent artifact.idempotencyKey bound.action.id bound.targetId ⟨action⟩
  Process.when intentCreated (append (bound.ledgerPayload before action .deploymentIntent before))
  ensureLeaseOwned worker
  executeOrRecover artifact.idempotencyKey (exactEffect A bound.runId action)
    (mutation A worker bound.runId action)
  ensureLeaseOwned worker
  recordApplied A worker bound before action

/-- `_deploy_locked`. -/
def deployLocked (A : DatabaseAdapter τ) (worker : WorkerId) (bound : BoundAction) :
    Proc τ DeploymentArtifact := do
  let action ← Process.ofExcept (bound.action.actionPayload.modelValidate.mapError .validation)
  let before ← state A bound.runId .before action
  let (artifact, intentCreated) ← intent bound before action
  enterDeploying bound
  if artifact.status = .applied then
    reconcileApplied bound before action
    return artifact
  else applyIntent A worker bound before action artifact intentCreated

/-- What `deploy_for_run` does once it has its authority: nothing but under the target's lock. -/
def deployBound (A : DatabaseAdapter τ) (worker : WorkerId) (bound : BoundAction) :
    Proc τ DeploymentArtifact := do
  if ← tryAcquire .deployment worker bound.targetId then
    Process.onExit (do
      ensureLeaseOwned worker
      deployLocked A worker bound) (release .deployment bound.runId worker bound.targetId)
  else throw (.durableDeployment "TARGET_LOCK_UNAVAILABLE")

def deployForRun (A : DatabaseAdapter τ) (worker : WorkerId) (r : RunId) :
    Proc τ DeploymentArtifact := do
  ensureLeaseOwned worker
  let bound ← loadBoundAction r
  deployBound A worker bound

end NoSQLOptimizer.Production
