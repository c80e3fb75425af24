import NoSQLOptimizer.Approvals.Durable
import NoSQLOptimizer.Concurrency.Serial

namespace NoSQLOptimizer.Approvals.Durable

open ControlPlane Concurrency Transactions

/-- What a call does to the runs, with no one else about: nothing, or it moves the one that its
approval is of. -/
inductive Settles (t u : Tables) : Prop
  | unmoved : u.runs = t.runs → Settles t u
  | approved {r : RunId} {run : OptimizationRun} : t.runs r = some run →
      run.status = .approvalPending →
      u.runs = Function.update t.runs r (some { run with status := .approved }) → Settles t u
  | rejected {r : RunId} {run : OptimizationRun} {a : ApprovalRow} :
      t.runs r = some run → run.status = .approvalPending →
      u.runs = Function.update t.runs r (some
        { run with status := .completed, completionReason := some .approvalRejected }) →
      a ∈ u.approvals → a.optimizationRunId = some r → a.status = .rejected → Settles t u

variable {ι : Type} [DecidableEq ι] {i : ι} {t : Tables} {α : Type}

theorem settles_transaction {p : Proc ι α} (hp : Yields schema i (· = t) p (fun _ => Settles t)) :
    Settles t ((schema.transaction i p).run { tables := t }).2.tables := by
  obtain h | ⟨_, h⟩ := Yields.transaction hp
  · exact .unmoved (congrArg Tables.runs h)
  · exact h

/-- A look at the tables, which changes nothing. -/
theorem yields_select {u : Tables} {b : Query} {f : Tables → α} :
    Yields schema i (· = u) (schema.execute i b (fun v => .ok (f v, [])) : Proc ι α)
      (fun a v => v = u ∧ a = f u) := by
  refine .execute (fun v a ws hv hf => ?_)
  cases hf
  rw [hv]
  exact ⟨rfl, rfl⟩

theorem yields_reselect (id : ApprovalId) :
    Yields schema i (Settles t) (reselect i id) (fun _ => Settles t) := by
  refine .execute (fun _ _ _ hu hf => ?_)
  cases hf
  exact hu

theorem yields_updateApproval (u : Tables) (id : ApprovalId) (status : ControlPlane.ApprovalStatus) :
    Yields schema i (· = u) (updateApproval i id status)
      (fun _ => (· = (Write.setApproval id status).apply u)) := by
  refine .execute (fun _ _ _ hv hf => ?_)
  cases hf
  rw [hv]
  rfl

theorem yields_insertDecision (u : Tables) (d : DecisionRow) :
    Yields schema i (· = u) (insertDecision i d)
      (fun _ => (· = (Write.insertDecision d).apply u)) := by
  refine .execute (fun _ _ _ hv hf => ?_)
  split at hf
  · cases hf
  · cases hf
    rw [hv]
    rfl

theorem settles_request (ttl : Instant) (p : Request) :
    Settles t ((request i ttl p).run { tables := t }).2.tables := by
  have hinsert : Yields schema i (· = t) (insertApproval i (p.row ttl)) (fun _ => Settles t) := by
    refine .execute (fun _ _ _ hu hf => ?_)
    split at hf
    · cases hf
    · cases hf
      rw [hu]
      exact .unmoved rfl
  apply settles_transaction
  cases p.optimizationRunId with
  | none => exact hinsert
  | some r =>
    refine .bind yields_select (fun existing => ?_)
    cases existing with
    | none => exact hinsert.mono (fun _ h => h.1)
    | some existing =>
      dsimp only
      split
      · exact .fail _
      · exact .ret (fun u hu => .unmoved (congrArg Tables.runs hu.1))

/-- `approve` leaves the runs alone. -/
theorem settles_approve (id : ApprovalId) (approver : UserId) (now : Instant) :
    Settles t ((approve i id approver now).run { tables := t }).2.tables := by
  apply settles_transaction
  refine .bind yields_select (fun selected => ?_)
  cases selected with
  | none => exact .fail _
  | some a =>
    dsimp only
    split
    · exact .fail _
    · split
      · exact .fail _
      · refine .bind ((yields_updateApproval t id .approved).mono (fun _ h => h.1)) (fun _ =>
          .bind (yields_insertDecision _ _) (fun _ => (yields_reselect id).mono ?_))
        rintro _ rfl
        exact .unmoved rfl

/-- A decision of a run's approval comes to what its last step comes to. -/
theorem settles_decideRun {m : Method} {id : ApprovalId} {d : DecisionRow} {ineligible : String}
    {finish : RunId → Proc ι PUnit}
    (h : ∀ a ∈ t.approvals, a.id = id → ∀ r, a.optimizationRunId = some r → ∀ run,
      t.runs r = some run → run.status = .approvalPending →
      Yields schema i
        (· = (Write.insertDecision d).apply ((Write.setApproval id d.decision).apply t))
        (finish r) (fun _ => Settles t)) :
    Settles t ((decideRun i m id d ineligible finish).run { tables := t }).2.tables := by
  apply settles_transaction
  refine .bind yields_select (fun selected => .of_known (fun hselected => ?_))
  cases selected with
  | none => exact .fail _
  | some a =>
    obtain ⟨ha, hid⟩ := approval_mem hselected.symm
    dsimp only
    cases har : a.optimizationRunId with
    | none => exact .fail _
    | some r =>
      dsimp only
      split
      · exact .fail _
      · refine .bind yields_select (fun found => .of_known (fun hfound => ?_))
        cases found with
        | none => exact .fail _
        | some run =>
          dsimp only
          split
          · exact .fail _
          · next hwaiting =>
            exact .bind (yields_updateApproval t id d.decision) (fun _ =>
              .bind (yields_insertDecision _ d) (fun _ =>
                .bind (h a ha hid r har run hfound.symm (not_not.mp hwaiting))
                  (fun _ => yields_reselect id)))

theorem settles_approveAndEnqueueContinuation (id : ApprovalId) (approver : UserId) (now : Instant) :
    Settles t ((approveAndEnqueueContinuation i id approver now).run { tables := t }).2.tables := by
  refine settles_decideRun (fun a _ _ r _ run hrun hwaiting => ?_)
  refine .bind (Q := fun _ u => u.runs = Function.update t.runs r (some { run with status := .approved }))
    (.execute (fun u x ws hu hf => ?_)) (fun _ => .execute (fun u x ws hu hf => ?_))
  · cases hf
    rw [hu]
    exact runs_setRun hrun .approved none
  · cases hf
    refine .approved hrun hwaiting (Eq.trans ?_ hu)
    split <;> rfl

theorem settles_rejectAndCompleteRun (id : ApprovalId) (approver : UserId) (now : Instant)
    (reason : Option String) :
    Settles t ((rejectAndCompleteRun i id approver now reason).run { tables := t }).2.tables := by
  refine settles_decideRun (fun a ha hid r har run hrun hwaiting => .execute (fun u x ws hu hf => ?_))
  cases hf
  rw [hu]
  refine .rejected (a := { a with status := .rejected }) hrun hwaiting ?_ ?_ har rfl
  · exact runs_setRun hrun .completed (some .approvalRejected)
  · exact List.mem_map.mpr ⟨a, ha, by simp [ApprovalRow.decided, hid]⟩

theorem settles_call (ttl : Instant) (k : Call) :
    Settles t ((call ttl i k).run { tables := t }).2.tables := by
  cases k <;> rw [call, Process.bind_def, Process.pure_def, Process.run_bind_ret]
  case request p => exact settles_request ttl p
  case approve id approver now => exact settles_approve id approver now
  case approveAndEnqueueContinuation id approver now =>
    exact settles_approveAndEnqueueContinuation id approver now
  case rejectAndCompleteRun id approver now reason =>
    exact settles_rejectAndCompleteRun id approver now reason

end NoSQLOptimizer.Approvals.Durable
