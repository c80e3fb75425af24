import NoSQLOptimizer.Concurrency.RelyGuarantee
import NoSQLOptimizer.ControlPlane.Footprints
import NoSQLOptimizer.Production.Deployment
import NoSQLOptimizer.Rollback.Durable

namespace NoSQLOptimizer.Production

open Adapters ControlPlane Concurrency Rollback

variable {τ : Type}

inductive Call
  | deployForRun : RunId → Call
  | rollbackForRun : RunId → Call

def Call.run (A : DatabaseAdapter τ) (worker : WorkerId) : Call → Proc τ PUnit
  | .deployForRun r => do let _ ← Production.deployForRun A worker r
  | .rollbackForRun r => do let _ ← Rollback.rollbackForRun A worker r

/-- Any number of workers deploy and roll back any runs; a worker may die at any action, and
whatever else happens to the database rows, the clock, the leases and the target is one more
event. -/
def services (A : DatabaseAdapter τ) :
    System Label (World τ) Error WorkerId Call (World τ → World τ) where
  call := Call.run A
  crash := World.endSession
  env e := e

/-- What happens outside the services: anything but to the tables that only they write. -/
structure External (s t : World τ) : Prop where
  artifacts : t.artifacts = s.artifacts
  recovery : t.recovery = s.recovery
  ledger : t.ledger = s.ledger
  rollbacks : t.rollbacks = s.rollbacks
  calls : t.calls = s.calls

theorem External.grows {s t : World τ} (h : External s t) : Grows s t :=
  .of_eq h.artifacts h.recovery h.ledger h.rollbacks (h.calls ▸ List.prefix_rfl)

/-- The services have not yet done anything. -/
structure Untouched (s : World τ) : Prop where
  artifacts : s.artifacts = fun _ => none
  recovery : s.recovery = fun _ => none
  ledger : s.ledger = []
  rollbacks : s.rollbacks = fun _ => none
  calls : s.calls = []

/-- Any calls, any crashes, anything outside. -/
def anyConduct (A : DatabaseAdapter τ) : (services A).Conduct where
  env := External

/-- Tests the actions of a run. -/
def stepwise (test : World τ → Label → Bool) (c : Config Label (World τ) Error WorkerId) :
    Event WorkerId Call (World τ → World τ) → Bool
  | .step i => (c.label i).all (test c.shared)
  | _ => true

theorem stepwise_allows {A : DatabaseAdapter τ} {C : (services A).Conduct}
    {test : World τ → Label → Bool} {es : List (Event WorkerId Call (World τ → World τ))}
    (hstarts : ∀ i k, .start i k ∈ es → C.starts k) (hacts : ∀ i l s, test s l = true → C.acts i l s)
    (hcrashes : ∀ i, .crash i ∈ es → ∀ l s, C.crashes i l s)
    (henv : ∀ f, .env f ∈ es → ∀ s, C.env s (f s)) :
    ∀ e ∈ es, ∀ c, stepwise test c e = true → C.Allows c e := by
  intro e he c h
  cases e with
  | start i k => exact hstarts i k he
  | step i =>
    intro l hl
    simp only [stepwise, hl, Option.all_some] at h
    exact hacts i l _ h
  | crash i => exact fun l _ => hcrashes i he l _
  | env f => exact henv f he _

end NoSQLOptimizer.Production
