import NoSQLOptimizer.ControlPlane.Tables

namespace NoSQLOptimizer.Approvals

inductive ApprovalStatus
  | pending
  | approved
  | stale
  | expired
  deriving DecidableEq

structure Approval where
  approvalId : Nat
  actionId : String
  targetId : String
  evidenceHash : String
  requestedAt : Int
  expiresAt : Int
  status : ApprovalStatus
  approvedBy : Option String := none
  approvedAt : Option Int := none
  deriving DecidableEq

/-- The approvals of the process, in the order of their requests, and how long one lasts. -/
structure ApprovalFlow where
  approvals : List Approval := []
  ttl : Int := 900000000
  positive : 0 < ttl := by decide

namespace ApprovalFlow

variable (flow : ApprovalFlow)

/-- What `require_current_approval` makes of an approval of the action before it looks for one. -/
def invalidate (now : Int) (evidenceHash : String) (a : Approval) : Approval :=
  if a.status = .approved ∧ a.expiresAt ≤ now then { a with status := .expired }
  else if a.status = .approved ∧ a.evidenceHash ≠ evidenceHash then { a with status := .stale }
  else a

def refresh (now : Int) (actionId evidenceHash : String) : ApprovalFlow :=
  { flow with
    approvals := flow.approvals.map
      (fun a => if a.actionId = actionId then invalidate now evidenceHash a else a) }

/-- The approval, or none: then the call raises. -/
def requireCurrentApproval (now : Int) (actionId evidenceHash targetId : String) :
    Option Approval :=
  (flow.refresh now actionId evidenceHash).approvals.find? (fun a =>
    a.actionId = actionId && a.status = .approved && a.evidenceHash = evidenceHash &&
      a.targetId = targetId)

end ApprovalFlow

end NoSQLOptimizer.Approvals

namespace NoSQLOptimizer.Autonomy

open ControlPlane

def fullAutonomousActionTypes : List String := ["CREATE_INDEX", "SET_QUERY_SETTINGS_INDEX_HINT"]

def approvalRequired (mode : DeploymentMode) (actionType : String) (permanentHumanGate : Bool) :
    Bool :=
  permanentHumanGate || mode ≠ .fullAutonomous || actionType ∉ fullAutonomousActionTypes

end NoSQLOptimizer.Autonomy
