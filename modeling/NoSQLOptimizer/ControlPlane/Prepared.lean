import NoSQLOptimizer.Adapters.MongoDB
import NoSQLOptimizer.Autonomy.Readiness
import NoSQLOptimizer.ControlPlane.World

namespace NoSQLOptimizer.ControlPlane

open Adapters Actions Autonomy

/-- One ordinary index, as the candidate generator would propose it. -/
def preparedAction : CreateIndexAction where
  database := "shop"
  collection := "orders"
  indexName := "optimizer_status"
  fields := [⟨"status", 1⟩]
  wellFormed := by decide
  unforbidden := by decide

/-- The smallest evidence chain of a run with an admitted candidate and a decision on it: run 0 of
candidate 0 on target 0. -/
structure Preparation where
  status : RunStatus := .approved
  authorityType : AuthorityType := .autonomous
  approvals : RunId → Option ApprovalRequest := fun _ => none
  action : CreateIndexAction := preparedAction

namespace Preparation

variable (p : Preparation)

def mode : DeploymentMode :=
  if p.authorityType = .autonomous then .fullAutonomous else .approvalControlled

def reason : String :=
  if p.authorityType = .autonomous then "AUTONOMY_ELIGIBLE"
  else "AUTONOMY_INELIGIBLE_REQUIRES_APPROVAL"

def target : Target := { connectionLabel := "isolated" }

def authority : AuthorityDecision where
  candidateId := 0
  candidateFingerprint := "candidate"
  deploymentMode := p.mode
  authorityType := p.authorityType
  authorityReason := p.reason
  productionAutonomyEligible := true
  integrityFingerprint := authorityIntegrityFingerprint 0 0 "candidate" p.mode p.authorityType
    p.reason true true (environmentBinding 0 target none none)

/-- One row, under the key 0. -/
def only {α : Type} (a : α) : Nat → Option α
  | 0 => some a
  | _ + 1 => none

def world {τ : Type} (db : τ) : World τ where
  db := db
  runs := only ⟨0, some 0, p.status, 0, p.mode, some "p95", none⟩
  targets := only target
  snapshots := only ⟨0, some ⟨true⟩⟩
  diagnoses := only ⟨0, 0⟩
  generations := only ⟨1⟩
  rankings := only ⟨[0]⟩
  plans := only ⟨"AUTONOMOUS", [0]⟩
  evaluations
    | 0 => [⟨"COMPLETED"⟩]
    | _ + 1 => []
  admissions := only ⟨some 0, [0], true⟩
  candidates := only ⟨0, .admitted, some "candidate", some .autoEligibleAfterAdmission⟩
  candidateActions := only ⟨0, "CREATE_INDEX", p.action.toActionPayload⟩
  authorities := only p.authority
  approvals := p.approvals

/-- The run needs a human, and one has approved it until `expiresAt`. -/
def approvedUntil (expiresAt : Time) : Preparation where
  authorityType := .humanRequired
  approvals := only
    { requestedByUserId := 0
      actionId := 0
      targetId := 0
      candidateId := 0
      candidateFingerprint := "candidate"
      evidenceHash := ({ authorityType := .humanRequired } : Preparation).authority.integrityFingerprint
      expiresAt := expiresAt
      status := .approved }

end Preparation

/-- The collection of the prepared action, with these indexes besides `_id_`. -/
def preparedCollection (indexes : List IndexSpec) : MongoDatabase :=
  (AList.singleton ⟨"orders"⟩ (indexes.foldl (fun c x => c.insert x.name x.keys)
    (AList.singleton "_id_" [("_id", 1)])))

end NoSQLOptimizer.ControlPlane
