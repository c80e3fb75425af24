import NoSQLOptimizer.Concurrency.Fence
import NoSQLOptimizer.Production.Footprints

namespace NoSQLOptimizer.Production

open Adapters Actions ControlPlane Concurrency Recovery Rollback

variable {τ α : Type}

/-- A call of `create_index`. -/
def Creates (l : Label) : Prop := ∃ r ns x, l = .createIndex r ns x

/-- Once the worker's lease is lost, the process creates no index. -/
abbrev Heeds (worker : WorkerId) (p : Proc τ α) : Prop :=
  p.Fences (fun s => s.leaseLost worker = true) Creates

theorem not_creates {l : Label} (h : l.mutates = none) : ¬ Creates l := by
  rintro ⟨r, ns, x, rfl⟩
  cases h

section

variable (A : DatabaseAdapter τ) {worker : WorkerId} {keeps : World τ → World τ → Prop}
  {p : Proc τ α}

theorem Heeds.of_does (h : Does (Touches keeps) p) : Heeds worker p :=
  .of_always h (fun _ _ _ hl => not_creates hl.1)

theorem ensureLeaseOwned_heeds : Heeds (τ := τ) worker (ensureLeaseOwned worker) :=
  Heeds.of_does (ensureLeaseOwned_reads worker)

/-- The check stands between the lease and what follows it. -/
theorem Heeds.checked {f : PUnit → Proc τ α}
    (h : (f ⟨⟩).Fenced (fun s => s.leaseLost worker = true) Creates) :
    Heeds worker (ensureLeaseOwned worker >>= f) := by
  have hchecked : Heeds worker (Process.act Label.ensureLeaseOwned id
      (fun s : World τ => if s.leaseLost worker then .fail .leaseLost else f ⟨⟩)) :=
    .check (not_creates rfl) (fun _ hs => hs) h
  refine cast (congrArg (Heeds worker) ?_) hchecked
  refine congrArg (Process.act Label.ensureLeaseOwned id) (funext fun s => ?_)
  cases hlost : s.leaseLost worker <;> simp [hlost]

theorem mutation_heeds (r : RunId) (action : CreateIndexAction) :
    Heeds worker (mutation A worker r action) := by
  refine Heeds.checked (fun s => ⟨fun _ => ?_, ?_⟩)
  · dsimp only
    split <;> exact id
  · dsimp only
    split <;> trivial

theorem executeOrRecover_heeds (r : RunId) (action : CreateIndexAction) (key : IdempotencyKey) :
    Heeds worker (executeOrRecover key (exactEffect A r action) (mutation A worker r action)) := by
  unfold executeOrRecover
  refine .bind (Heeds.of_does (beginExecution_touches key)) (fun o => ?_)
  cases o with
  | none => exact .ret _
  | some expected =>
    refine .bind (Heeds.of_does (exactEffect_reads A r action expected)) (fun effect => ?_)
    refine .bind ?_ (fun _ => Heeds.of_does (confirmExecution_touches key))
    cases effect with
    | true => exact .ret _
    | false => exact mutation_heeds A r action

theorem recordApplied_heeds (bound : BoundAction) (before : IndexState)
    (action : CreateIndexAction) : Heeds worker (recordApplied A worker bound before action) := by
  unfold recordApplied
  refine .bind (Heeds.of_does (state_reads A _ _ _)) (fun after => ?_)
  refine .bind (Heeds.of_does (guardAll_does (T := Reads) _)) (fun _ => ?_)
  refine .bind (Heeds.of_does (markApplied_touches _ _)) (fun _ => ?_)
  refine .bind (Heeds.of_does (append_touches _)) (fun _ => ?_)
  refine .bind ensureLeaseOwned_heeds (fun _ => ?_)
  exact .bind (Heeds.of_does (finishDeploying_touches _)) (fun _ => .ret _)

theorem deployLocked_heeds (bound : BoundAction) : Heeds worker (deployLocked A worker bound) := by
  unfold deployLocked
  refine .bind (Heeds.of_does (Does.ofExcept (T := Reads) _)) (fun action => ?_)
  refine .bind (Heeds.of_does (state_reads A _ _ _)) (fun before => ?_)
  refine .bind (Heeds.of_does (intent_touches _ _ _)) (fun x => ?_)
  refine .bind (Heeds.of_does (enterDeploying_touches _)) (fun _ => ?_)
  split
  · exact .bind (Heeds.of_does (reconcileApplied_touches _ _ _)) (fun _ => .ret _)
  · unfold applyIntent
    refine .bind (Heeds.of_does (recordIntent_touches _ _ _ _)) (fun _ => ?_)
    refine .bind ?_ (fun _ => ?_)
    · unfold Process.when
      split
      · exact Heeds.of_does (append_touches _)
      · exact .ret _
    · refine .bind ensureLeaseOwned_heeds (fun _ => ?_)
      refine .bind (executeOrRecover_heeds A _ _ _) (fun _ => ?_)
      refine .bind ensureLeaseOwned_heeds (fun _ => ?_)
      exact recordApplied_heeds A bound before action

theorem deployForRun_heeds (r : RunId) : Heeds worker (deployForRun A worker r) := by
  unfold deployForRun
  refine .bind ensureLeaseOwned_heeds (fun _ => ?_)
  refine .bind (.of_always (loadBoundAction_reads r) (fun _ _ _ hl => not_creates hl.1))
    (fun bound => ?_)
  unfold deployBound
  refine .bind (Heeds.of_does (tryAcquire_touches _ _ _)) (fun acquired => ?_)
  cases acquired with
  | false => exact .fail _
  | true =>
    exact .onExit (.bind ensureLeaseOwned_heeds (fun _ => deployLocked_heeds A bound))
      (Heeds.of_does (release_touches _ _ _ _))

/-- Rollbacks create no index at all. -/
theorem rollbackForRun_heeds (r : RunId) : Heeds worker (rollbackForRun A worker r) := by
  refine .of_always (rollbackForRun_acts A worker r) (fun l s t h => ?_)
  rintro ⟨r', ns, x, rfl⟩
  rcases h with ⟨⟨hl | ⟨-, _, _, hl⟩, -⟩, -⟩ | ⟨hl, -⟩ <;> cases hl

end

end NoSQLOptimizer.Production
