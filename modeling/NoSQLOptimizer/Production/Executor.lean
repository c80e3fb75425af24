import NoSQLOptimizer.Admission.Models
import NoSQLOptimizer.Production.Memory

namespace NoSQLOptimizer.Production

open Adapters Actions Admission Autonomy Concurrency Encoding Ledger Memory
open ControlPlane (DeploymentMode IndexState)

/-- All evidence required to deploy one already-admitted typed action. -/
structure DeploymentRequest (F : Type) where
  targetId : String
  actionId : String
  action : CreateIndexAction
  admission : AdmissionResult F
  evidenceHash : String
  expectedStateHash : String
  actor : String
  deploymentMode : DeploymentMode := .approvalControlled

structure DeploymentResult where
  preparedEntry : LedgerEntry
  appliedEntry : LedgerEntry
  resultingStateHash : String

def verifyPreconditions (state : IndexState) (action : CreateIndexAction) :
    Except Memory.Error Unit :=
  if !state.namespaceExists then .error (.productionExecution "target namespace is absent")
  else if state.indexes.any (·.name = action.indexName) then
    .error (.productionExecution "target index already exists")
  else .ok ⟨⟩

def verifyApplied (state : IndexState) (action : CreateIndexAction) :
    Except Memory.Error Unit :=
  if (state.indexes.filter (·.name = action.indexName)).map (·.keys) = [action.toIndexSpec.keys] then
    .ok ⟨⟩
  else .error (.productionExecution "resulting target state does not match typed action")

def intendedState (before : IndexState) (action : CreateIndexAction) :
    IndexState :=
  { before with indexes := before.indexes ++ [action.toIndexSpec] }

namespace DeploymentRequest

variable {F : Type} (sha256 : Json → String) (request : DeploymentRequest F)

def forwardAction (phase : String) : Json :=
  .object ([("phase", .str phase), ("target_id", .str request.targetId),
    ("index_fingerprint", .str (indexFingerprint sha256 request.action.toIndexSpec))] ++
    request.action.modelDump)

def record (phase : String) (before after : IndexState) : Record where
  beforeState := stateJson before
  intendedState := stateJson (intendedState before request.action)
  afterState := stateJson after
  forwardAction := request.forwardAction sha256 phase
  inverseAction := .object request.action.inverse.modelDump
  evidenceHash := request.evidenceHash
  actor := request.actor

end DeploymentRequest

variable {τ F : Type} {sha256 : Json → String}

/-- `ProductionExecutor.deploy`; its lock only rules interleavings out. -/
def deploy (A : DatabaseAdapter τ) (request : DeploymentRequest F) :
    Memory.Proc τ sha256 DeploymentResult := do
  let action := request.action
  let ns := action.toNamespace
  Process.raiseIf (request.admission.status ≠ .admitted || !request.admission.productionEligible)
    (.productionExecution "only production-eligible admitted actions may deploy")
  Process.when (approvalRequired request.deploymentMode action.actionType false)
    (requireCurrentApproval request.actionId request.evidenceHash request.targetId)
  let before ← currentState A (.listNamespaces none) (.listIndexes none ns) action.database ns
  Process.raiseIf (stateHash sha256 (stateJson before) ≠ request.expectedStateHash)
    (.productionExecution "current target state differs from verified evidence")
  Process.ofExcept (verifyPreconditions before action)
  let prepared ← append (request.record sha256 "PREPARED" before before)
  write (.createIndex ns action.toIndexSpec) (A.createIndex · ns action.toIndexSpec)
  let after ← currentState A (.listNamespaces none) (.listIndexes none ns) action.database ns
  Process.ofExcept (verifyApplied after action)
  let applied ← append (request.record sha256 "APPLIED" before after)
  return ⟨prepared, applied, stateHash sha256 (stateJson after)⟩

/-- What a deployment that nobody interferes with has done when it succeeds. -/
structure Deployed (A : DatabaseAdapter τ) (request : DeploymentRequest F) (s t : State τ sha256)
    (result : DeploymentResult) : Prop where
  listed : request.action.toNamespace ∈ A.listNamespaces s.db
  new : ∀ y ∈ A.listIndexes s.db request.action.toNamespace, y.name ≠ request.action.indexName
  created : A.createIndex s.db request.action.toNamespace request.action.toIndexSpec = some t.db
  applied : verifyApplied
    (currentStateOf A t.db request.action.database request.action.toNamespace) request.action =
      .ok ⟨⟩
  entries : t.ledger.entries = s.ledger.entries ++ [result.preparedEntry, result.appliedEntry]
  fresh : result.appliedEntry.entryId = freshId (s.ledger.entries ++ [result.preparedEntry])
  forwardAction : result.appliedEntry.forwardAction =
    freezeMapping (request.forwardAction sha256 "APPLIED")
  afterState : result.appliedEntry.afterState = freezeMapping
    (stateJson (currentStateOf A t.db request.action.database request.action.toNamespace))

theorem verifyPreconditions_ok {state : IndexState} {action : CreateIndexAction} {a : Unit}
    (h : verifyPreconditions state action = .ok a) :
    state.namespaceExists = true ∧ ∀ y ∈ state.indexes, y.name ≠ action.indexName := by
  unfold verifyPreconditions at h
  split at h
  · cases h
  · next hn =>
    split at h
    · cases h
    · next ha => exact ⟨by simpa using hn, by simpa using ha⟩

theorem deploy_ok {A : DatabaseAdapter τ} {request : DeploymentRequest F} {s t : State τ sha256}
    {result : DeploymentResult} (h : (deploy A request).run s = (.ok result, t)) :
    Deployed A request s t result := by
  unfold deploy at h
  simp only [Process.bind_def] at h
  rw [Process.run_bind_eq_ok] at h
  obtain ⟨_, s₁, hrun₁, h⟩ := h
  obtain ⟨-, rfl⟩ := Process.run_raiseIf_eq_ok.mp hrun₁
  rw [Process.run_bind_eq_ok] at h
  obtain ⟨_, s₂, hrun₂, h⟩ := h
  have happroval : ∃ approvals, s₂ = { s₁ with approvals := approvals } := by
    unfold Process.when at hrun₂
    split at hrun₂
    · exact run_requireCurrentApproval hrun₂
    · cases hrun₂
      exact ⟨_, rfl⟩
  obtain ⟨approvals, rfl⟩ := happroval
  rw [Process.run_bind_ok (run_currentState ..)] at h
  rw [Process.run_bind_eq_ok] at h
  obtain ⟨_, s₃, hrun₃, h⟩ := h
  obtain ⟨-, rfl⟩ := Process.run_raiseIf_eq_ok.mp hrun₃
  rw [Process.run_bind_eq_ok] at h
  obtain ⟨_, s₄, hrun₄, h⟩ := h
  obtain ⟨hpre, rfl⟩ := Process.run_ofExcept_eq_ok.mp hrun₄
  rw [Process.run_bind_ok (run_append ..)] at h
  rw [Process.run_bind_eq_ok] at h
  obtain ⟨_, s₅, hrun₅, h⟩ := h
  obtain ⟨db, hcreate, rfl⟩ := run_write hrun₅
  rw [Process.run_bind_ok (run_currentState ..)] at h
  rw [Process.run_bind_eq_ok] at h
  obtain ⟨_, s₆, hrun₆, h⟩ := h
  obtain ⟨happlied, rfl⟩ := Process.run_ofExcept_eq_ok.mp hrun₆
  rw [Process.run_bind_ok (run_append ..)] at h
  cases h
  obtain ⟨hexists, hnew⟩ := verifyPreconditions_ok hpre
  have hlisted := currentStateOf_exists.mp hexists
  rw [currentStateOf_listed hlisted] at hnew
  exact ⟨hlisted, hnew, hcreate, happlied, by simp, rfl, rfl, rfl⟩

end NoSQLOptimizer.Production
