import Mathlib.Order.ConditionallyCompleteLattice.Indexed
import Mathlib.Data.Int.ConditionallyCompleteOrder
import NoSQLOptimizer.Approvals.Flow
import NoSQLOptimizer.Concurrency.History
import NoSQLOptimizer.ControlPlane.Rows

namespace NoSQLOptimizer.Approvals

open ControlPlane Concurrency

/-- What `now` returns, time after time. -/
structure Clock where
  reading : Nat → Int
  monotone : Monotone reading

/-- `ApprovalRequired`, or no approval has the id. -/
inductive FlowError
  | required : String → FlowError
  | key : Nat → FlowError
  deriving DecidableEq

/-- A flow, and how often it has read its clock. -/
structure ClockedFlow where
  flow : ApprovalFlow
  reads : Nat := 0

namespace ClockedFlow

variable (clock : Clock) (s : ClockedFlow)

abbrev approvals : List Approval := s.flow.approvals

/-- `uuid4()`: an id that no approval has. -/
def freshId : Nat := s.approvals.foldr (fun a n => max (a.approvalId + 1) n) 0

def request (actionId evidenceHash targetId : String) : Approval × ClockedFlow :=
  let approval : Approval :=
    { approvalId := s.freshId
      actionId := actionId
      targetId := targetId
      evidenceHash := evidenceHash
      requestedAt := clock.reading s.reads
      expiresAt := clock.reading s.reads + s.flow.ttl
      status := .pending }
  (approval, ⟨{ s.flow with approvals := s.approvals ++ [approval] }, s.reads + 1⟩)

/-- The approval is put in the place of the one with its id. -/
def put (a : Approval) (reads : Nat) : ClockedFlow :=
  ⟨{ s.flow with
      approvals := s.approvals.map (fun b => if b.approvalId = a.approvalId then a else b) }, reads⟩

def approve (approvalId : Nat) (approver : String) : Except FlowError Approval × ClockedFlow :=
  match s.approvals.find? (·.approvalId = approvalId) with
  | none => (.error (.key approvalId), s)
  | some approval =>
    if approval.expiresAt ≤ clock.reading s.reads then
      (.error (.required ("approval has expired: " ++ toString approvalId)),
        s.put { approval with status := .expired } (s.reads + 1))
    else if approval.status ≠ .pending then
      (.error (.required ("approval is not pending: " ++ toString approvalId)),
        { s with reads := s.reads + 1 })
    else
      let approved := { approval with
        status := .approved
        approvedBy := some approver
        approvedAt := some (clock.reading (s.reads + 1)) }
      (.ok approved, s.put approved (s.reads + 2))

/-- The first loop of `require_current_approval`, from this reading of the clock on: it is read again
for each approval of the action that is approved. -/
def sweep (actionId evidenceHash : String) : Nat → List Approval → List Approval × Nat
  | n, [] => ([], n)
  | n, a :: as =>
    let rest := sweep actionId evidenceHash
      (if a.actionId = actionId ∧ a.status = .approved then n + 1 else n) as
    ((if a.actionId = actionId then ApprovalFlow.invalidate (clock.reading n) evidenceHash a else a) ::
      rest.1, rest.2)

def requireCurrentApproval (actionId currentEvidenceHash targetId : String) :
    Except FlowError Approval × ClockedFlow :=
  let swept := sweep clock actionId currentEvidenceHash s.reads s.approvals
  (match swept.1.find? (fun a => a.actionId = actionId && a.status = .approved &&
      a.evidenceHash = currentEvidenceHash && a.targetId = targetId) with
    | some approval => .ok approval
    | none => .error
        (.required ("current approval required for semi-autonomous action: " ++ actionId)),
    ⟨{ s.flow with approvals := swept.1 }, swept.2⟩)

end ClockedFlow

inductive Call
  | request (actionId evidenceHash targetId : String)
  | approve (approvalId : Nat) (approver : String)
  | requireCurrentApproval (actionId currentEvidenceHash targetId : String)
  deriving DecidableEq

namespace ClockedFlow

variable (clock : Clock)

def step (s : ClockedFlow) : Call → ClockedFlow
  | .request actionId evidenceHash targetId => (s.request clock actionId evidenceHash targetId).2
  | .approve approvalId approver => (s.approve clock approvalId approver).2
  | .requireCurrentApproval actionId currentEvidenceHash targetId =>
    (s.requireCurrentApproval clock actionId currentEvidenceHash targetId).2

/-- The flow after these calls. -/
abbrev after (s : ClockedFlow) (calls : List Call) : ClockedFlow :=
  History.after (step clock) s calls

/-- The approval was approved by one of the calls, and none of the later ones required an approval of
its action for other evidence. -/
def ApprovedIn (s : ClockedFlow) (calls : List Call) (a : Approval) : Prop :=
  ∃ earlier approver later, calls = earlier ++ .approve a.approvalId approver :: later ∧
    ((after clock s earlier).approve clock a.approvalId approver).1 = .ok a ∧
    ∀ evidenceHash targetId,
      .requireCurrentApproval a.actionId evidenceHash targetId ∈ later → evidenceHash = a.evidenceHash

end ClockedFlow

/-- It is never approved again. -/
def Approval.Ended (a : Approval) : Prop := a.status = .stale ∨ a.status = .expired

namespace ClockedFlow

variable {clock : Clock} {s : ClockedFlow} {a b : Approval}

theorem invalidate_approved {now : Int} {evidenceHash : String}
    (h : (ApprovalFlow.invalidate now evidenceHash a).status = .approved) :
    ApprovalFlow.invalidate now evidenceHash a = a ∧ now < a.expiresAt ∧
      a.evidenceHash = evidenceHash := by
  unfold ApprovalFlow.invalidate at h ⊢
  split_ifs at h ⊢ with hexpired hother
  have hcurrent : ¬ a.expiresAt ≤ now := fun hle => hexpired ⟨h, hle⟩
  have hsame : ¬ a.evidenceHash ≠ evidenceHash := fun hne => hother ⟨h, hne⟩
  exact ⟨rfl, not_le.mp hcurrent, not_not.mp hsame⟩

theorem invalidate_cases (now : Int) (evidenceHash : String) (a : Approval) :
    ApprovalFlow.invalidate now evidenceHash a = a ∨
      (ApprovalFlow.invalidate now evidenceHash a).Ended := by
  unfold ApprovalFlow.invalidate
  split_ifs
  · exact .inr (.inr rfl)
  · exact .inr (.inl rfl)
  · exact .inl rfl

@[simp] theorem invalidate_approvalId (now : Int) (evidenceHash : String) (a : Approval) :
    (ApprovalFlow.invalidate now evidenceHash a).approvalId = a.approvalId := by
  unfold ApprovalFlow.invalidate
  split_ifs <;> rfl

theorem sweep_ids (actionId evidenceHash : String) (n : Nat) (as : List Approval) :
    (sweep clock actionId evidenceHash n as).1.map (·.approvalId) = as.map (·.approvalId) := by
  induction as generalizing n with
  | nil => rfl
  | cons a as ih =>
    rw [sweep, List.map_cons, List.map_cons, ih]
    congr 1
    split_ifs
    · exact invalidate_approvalId _ _ a
    · rfl

/-- What the first loop leaves approved was so before, and has been looked at. -/
theorem approved_of_mem_sweep {actionId evidenceHash : String} {n : Nat} {as : List Approval}
    (hb : b ∈ (sweep clock actionId evidenceHash n as).1) (happroved : b.status = .approved) :
    b ∈ as ∧ (b.actionId = actionId → clock.reading n < b.expiresAt ∧ b.evidenceHash = evidenceHash) := by
  induction as generalizing n with
  | nil => cases hb
  | cons a as ih =>
    rw [sweep] at hb
    rcases List.mem_cons.mp hb with rfl | hb
    · by_cases haction : a.actionId = actionId
      · rw [if_pos haction] at happroved ⊢
        obtain ⟨hkept, hcurrent, hsame⟩ := invalidate_approved happroved
        rw [hkept]
        exact ⟨List.mem_cons_self, fun _ => ⟨hcurrent, hsame⟩⟩
      · rw [if_neg haction]
        exact ⟨List.mem_cons_self, fun h => absurd h haction⟩
    · obtain ⟨hmem, hlooked⟩ := ih hb
      refine ⟨List.mem_cons_of_mem a hmem, fun h => ?_⟩
      obtain ⟨hcurrent, hsame⟩ := hlooked h
      refine ⟨lt_of_le_of_lt (clock.monotone ?_) hcurrent, hsame⟩
      split_ifs
      · exact Nat.le_succ n
      · exact le_rfl

theorem mem_sweep {actionId evidenceHash : String} {n : Nat} {as : List Approval}
    (hb : b ∈ (sweep clock actionId evidenceHash n as).1) :
    b ∈ as ∨ ∃ a ∈ as, a.approvalId = b.approvalId ∧ b.Ended := by
  induction as generalizing n with
  | nil => cases hb
  | cons a as ih =>
    rw [sweep] at hb
    rcases List.mem_cons.mp hb with rfl | hb
    · split_ifs
      · rcases invalidate_cases (clock.reading n) evidenceHash a with hkept | hended
        · rw [hkept]
          exact .inl List.mem_cons_self
        · exact .inr ⟨a, List.mem_cons_self, (invalidate_approvalId _ _ a).symm, hended⟩
      · exact .inl List.mem_cons_self
    · rcases ih hb with hmem | ⟨a', ha', h⟩
      · exact .inl (List.mem_cons_of_mem a hmem)
      · exact .inr ⟨a', List.mem_cons_of_mem a ha', h⟩

/-- Where the clock stands still, the loop is the one of the flow. -/
theorem sweep_still {now : Int} (hstill : ∀ n, clock.reading n = now) (actionId evidenceHash : String)
    (n : Nat) (as : List Approval) :
    (sweep clock actionId evidenceHash n as).1 = as.map (fun a =>
      if a.actionId = actionId then ApprovalFlow.invalidate now evidenceHash a else a) := by
  induction as generalizing n with
  | nil => rfl
  | cons a as ih => rw [sweep, List.map_cons, ih, hstill]

theorem requireCurrentApproval_still {now : Int} (hstill : ∀ n, clock.reading n = now)
    (actionId evidenceHash targetId : String) :
    (s.requireCurrentApproval clock actionId evidenceHash targetId).1.toOption =
      s.flow.requireCurrentApproval now actionId evidenceHash targetId := by
  rw [requireCurrentApproval, sweep_still hstill]
  simp only [ApprovalFlow.requireCurrentApproval, ApprovalFlow.refresh]
  split
  · next a hfound => exact hfound.symm
  · next hnone => exact hnone.symm

/-- Where an approval comes from that is there after a call. -/
inductive Origin (clock : Clock) (s : ClockedFlow) (call : Call) (b : Approval) : Prop
  | kept : b ∈ s.approvals → (b.status = .approved → ∀ evidenceHash targetId,
      call = .requireCurrentApproval b.actionId evidenceHash targetId →
        evidenceHash = b.evidenceHash) → Origin clock s call b
  | ended (a : Approval) : a ∈ s.approvals → a.approvalId = b.approvalId → b.Ended →
      Origin clock s call b
  | requested : b.approvalId = s.freshId → b.status = .pending → Origin clock s call b
  | approved (a : Approval) (approver : String) : a ∈ s.approvals → a.approvalId = b.approvalId →
      a.status = .pending → call = .approve b.approvalId approver →
      (s.approve clock b.approvalId approver).1 = .ok b → Origin clock s call b

theorem Origin.of_mem {call : Call} (hb : b ∈ (step clock s call).approvals) :
    Origin clock s call b := by
  cases call with
  | request actionId evidenceHash targetId =>
    rcases List.mem_append.mp hb with hb | hb
    · exact .kept hb (fun _ _ _ h => by cases h)
    · rw [List.mem_singleton.mp hb]
      exact .requested rfl rfl
  | approve approvalId approver =>
    simp only [step, approve] at hb
    cases hfind : s.approvals.find? (·.approvalId = approvalId) with
    | none =>
      rw [hfind] at hb
      exact .kept hb (fun _ _ _ h => by cases h)
    | some a =>
      have ha := List.mem_of_find?_eq_some hfind
      have hid : a.approvalId = approvalId := by simpa using List.find?_some hfind
      subst hid
      rw [hfind] at hb
      dsimp only at hb
      split_ifs at hb with hexpired hpending
      · obtain ⟨c, hc, rfl⟩ := List.mem_map.mp hb
        split_ifs
        · exact .ended a ha rfl (.inr rfl)
        · exact .kept hc (fun _ _ _ h => by cases h)
      · exact .kept hb (fun _ _ _ h => by cases h)
      · obtain ⟨c, hc, rfl⟩ := List.mem_map.mp hb
        split_ifs
        · refine .approved a approver ha rfl (not_not.mp hpending) rfl ?_
          simp only [approve, hfind, if_neg hexpired, if_neg hpending]
        · exact .kept hc (fun _ _ _ h => by cases h)
  | requireCurrentApproval actionId evidenceHash targetId =>
    rcases mem_sweep hb with hmem | ⟨a, ha, hid, hended⟩
    · refine .kept hmem (fun happroved evidenceHash' targetId' hcall => ?_)
      cases hcall
      exact ((approved_of_mem_sweep hb happroved).2 rfl).2.symm
    · exact .ended a ha hid hended

/-- Calls keep the approvals' ids, but for a request, which adds one. -/
theorem step_ids (clock : Clock) (s : ClockedFlow) (call : Call) :
    (step clock s call).approvals.map (·.approvalId) = s.approvals.map (·.approvalId) ∨
      ∃ a, a.approvalId = s.freshId ∧ (step clock s call).approvals = s.approvals ++ [a] := by
  have hput (a : Approval) (n : Nat) :
      (s.put a n).approvals.map (·.approvalId) = s.approvals.map (·.approvalId) := by
    rw [put, List.map_map]
    refine List.map_congr_left (fun b _ => ?_)
    simp only [Function.comp]
    split_ifs with h
    · exact h.symm
    · rfl
  cases call with
  | request actionId evidenceHash targetId => exact .inr ⟨_, rfl, rfl⟩
  | approve approvalId approver =>
    refine .inl ?_
    simp only [step, approve]
    cases s.approvals.find? (·.approvalId = approvalId) with
    | none => rfl
    | some a =>
      dsimp only
      split_ifs
      · exact hput _ _
      · rfl
      · exact hput _ _
  | requireCurrentApproval actionId evidenceHash targetId => exact .inl (sweep_ids _ _ _ _)

theorem freshId_ne (ha : a ∈ s.approvals) : a.approvalId ≠ s.freshId :=
  (lt_foldr_max (·.approvalId) ha).ne

theorem step_nodup (h : (s.approvals.map (·.approvalId)).Nodup) (call : Call) :
    ((step clock s call).approvals.map (·.approvalId)).Nodup := by
  rcases step_ids clock s call with hids | ⟨a, hid, happrovals⟩
  · rw [hids]
    exact h
  · rw [happrovals]
    exact nodup_map_concat h (fun b hb => hid ▸ freshId_ne hb)

/-- The approval of this id has ended. -/
structure Settled (id : Nat) (s : ClockedFlow) : Prop where
  there : ∃ a ∈ s.approvals, a.approvalId = id
  ended : ∀ a ∈ s.approvals, a.approvalId = id → a.Ended

theorem Settled.step {id : Nat} (h : Settled id s) (call : Call) :
    Settled id (step clock s call) := by
  obtain ⟨a, ha, hid⟩ := h.there
  refine ⟨?_, fun b hb hb' => ?_⟩
  · rcases step_ids clock s call with hids | ⟨c, -, happrovals⟩
    · have hmem : id ∈ (ClockedFlow.step clock s call).approvals.map (·.approvalId) := by
        rw [hids]
        exact List.mem_map.mpr ⟨a, ha, hid⟩
      exact List.mem_map.mp hmem
    · exact ⟨a, happrovals ▸ List.mem_append_left [c] ha, hid⟩
  · cases Origin.of_mem hb with
    | kept hmem _ => exact h.ended b hmem hb'
    | ended _ _ _ hended => exact hended
    | requested hfresh _ => exact absurd (hid.trans (hb'.symm.trans hfresh)) (freshId_ne ha)
    | approved c _ hc hcid hpending _ _ =>
      rcases h.ended c hc (hcid.trans hb') with hstatus | hstatus <;>
      · rw [hstatus] at hpending
        cases hpending

section

variable {calls : List Call}

theorem ApprovedIn.concat (h : ApprovedIn clock s calls a) {call : Call}
    (hcall : ∀ evidenceHash targetId,
      call = .requireCurrentApproval a.actionId evidenceHash targetId →
        evidenceHash = a.evidenceHash) : ApprovedIn clock s (calls ++ [call]) a := by
  obtain ⟨earlier, approver, later, rfl, happroved, hlater⟩ := h
  refine ⟨earlier, approver, later ++ [call], List.append_assoc earlier (_ :: later) [call],
    happroved, fun evidenceHash targetId hmem => ?_⟩
  rcases List.mem_append.mp hmem with hmem | hmem
  · exact hlater evidenceHash targetId hmem
  · exact hcall evidenceHash targetId (List.mem_singleton.mp hmem).symm

/-- What is approved was approved by a call, and nothing has come between. -/
theorem approvedIn (hs : s.approvals = []) (calls : List Call) :
    ∀ a ∈ (after clock s calls).approvals, a.status = .approved → ApprovedIn clock s calls a := by
  have halong : History.Along (step clock) (fun _ _ => True) s calls := History.along_true
  refine History.of_along (P := fun calls => ∀ a ∈ (after clock s calls).approvals,
    a.status = .approved → ApprovedIn clock s calls a) halong ?_ ?_
  · intro a ha
    have hmem : a ∈ s.approvals := ha
    rw [hs] at hmem
    cases hmem
  · intro calls call _ _ ih b hb happroved
    rw [after, History.after_concat] at hb
    cases Origin.of_mem hb with
    | kept hmem hcall => exact (ih b hmem happroved).concat (hcall happroved)
    | ended _ _ _ hended =>
      rcases hended with hstatus | hstatus <;>
      · rw [hstatus] at happroved
        cases happroved
    | requested _ hpending =>
      rw [hpending] at happroved
      cases happroved
    | approved _ approver _ _ _ hcall hok =>
      subst hcall
      exact ⟨calls, approver, [], rfl, hok, fun _ _ h => by cases h⟩

theorem nodup_after (hs : s.approvals = []) (calls : List Call) :
    ((after clock s calls).approvals.map (·.approvalId)).Nodup :=
  History.Along.invariant (C := fun _ _ => True)
    (I := fun t : ClockedFlow => (t.approvals.map (·.approvalId)).Nodup) History.along_true
    (by rw [hs]; exact List.nodup_nil) (fun _ call h _ => step_nodup h call)

theorem Settled.after {id : Nat} (h : Settled id s) (calls : List Call) :
    Settled id (after clock s calls) :=
  History.Along.invariant (C := fun _ _ => True) (I := Settled id) History.along_true h
    (fun _ call h _ => h.step call)

/-- What `require_current_approval` returns is for what is asked for, and has not expired. -/
theorem requireCurrentApproval_ok {actionId evidenceHash targetId : String}
    (h : (s.requireCurrentApproval clock actionId evidenceHash targetId).1 = .ok a) :
    a ∈ s.approvals ∧ a.status = .approved ∧ a.actionId = actionId ∧ a.evidenceHash = evidenceHash ∧
      a.targetId = targetId ∧ clock.reading s.reads < a.expiresAt := by
  simp only [requireCurrentApproval] at h
  split at h
  · next b hfound =>
    cases h
    have hwanted := List.find?_some hfound
    simp only [Bool.and_eq_true, decide_eq_true_eq] at hwanted
    obtain ⟨⟨⟨haction, hstatus⟩, hsame⟩, htarget⟩ := hwanted
    obtain ⟨hmem, hlooked⟩ := approved_of_mem_sweep (List.mem_of_find?_eq_some hfound) hstatus
    exact ⟨hmem, hstatus, haction, hsame, htarget, (hlooked haction).1⟩
  · cases h

/-- Whatever is called: an approval that is returned was approved, by a call, for that action, target
and evidence; it expires after the clock's reading at the call; since its approval no approval of the
action was required for other evidence; and one that is stale or expired is never approved again. -/
theorem approval_current (clock : Clock) (flow : ApprovalFlow) (hflow : flow.approvals = [])
    (calls : List Call) :
    (∀ actionId evidenceHash targetId a, ((after clock ⟨flow, 0⟩ calls).requireCurrentApproval clock
        actionId evidenceHash targetId).1 = .ok a →
      (a.actionId = actionId ∧ a.evidenceHash = evidenceHash ∧ a.targetId = targetId) ∧
      clock.reading (after clock ⟨flow, 0⟩ calls).reads < a.expiresAt ∧
      ApprovedIn clock ⟨flow, 0⟩ calls a) ∧
    ∀ a ∈ (after clock ⟨flow, 0⟩ calls).approvals, a.Ended → ∀ more,
      ∀ b ∈ (after clock ⟨flow, 0⟩ (calls ++ more)).approvals, b.approvalId = a.approvalId →
        b.Ended ∧ b.status ≠ .approved := by
  refine ⟨fun actionId evidenceHash targetId a h => ?_, fun a ha hended more b hb hid => ?_⟩
  · obtain ⟨hmem, hstatus, haction, hsame, htarget, hexpires⟩ := requireCurrentApproval_ok h
    exact ⟨⟨haction, hsame, htarget⟩, hexpires, approvedIn hflow calls a hmem hstatus⟩
  · have hsettled : Settled a.approvalId (after clock ⟨flow, 0⟩ calls) := by
      refine ⟨⟨a, ha, rfl⟩, fun c hc hcid => ?_⟩
      rw [List.inj_on_of_nodup_map (nodup_after hflow calls) hc ha hcid]
      exact hended
    have hafter : Settled a.approvalId (after clock (after clock ⟨flow, 0⟩ calls) more) :=
      hsettled.after more
    rw [after, History.after_append] at hb
    have hb' := hafter.ended b hb hid
    refine ⟨hb', fun happroved => ?_⟩
    rcases hb' with hstatus | hstatus <;>
    · rw [hstatus] at happroved
      cases happroved

/-- An hour passes from one reading to the next. -/
def hourly : Clock where
  reading n := 3600000000 * n
  monotone m n h := by
    have : (m : Int) ≤ n := Int.ofNat_le.mpr h
    dsimp only
    omega

/-- Two requests for one action, the second one for other evidence; only the first one is approved. -/
def twoRequests : List Call :=
  [.request "create-index" "evidence" "target", .request "create-index" "other" "target",
    .approve 0 "alice"]

theorem approval_current_requested :
    ∃ a, ((after hourly ⟨{ ttl := 86400000000 }, 0⟩ twoRequests).requireCurrentApproval hourly
        "create-index" "evidence" "target").1 = .ok a ∧ a.approvalId = 0 ∧
      ApprovedIn hourly ⟨{ ttl := 86400000000 }, 0⟩ twoRequests a := by
  have hrun : ((after hourly ⟨{ ttl := 86400000000 }, 0⟩ twoRequests).requireCurrentApproval hourly
      "create-index" "evidence" "target").1.toOption.map (·.approvalId) = some 0 := by
    decide +kernel
  cases hcall : ((after hourly ⟨{ ttl := 86400000000 }, 0⟩ twoRequests).requireCurrentApproval hourly
      "create-index" "evidence" "target").1 with
  | error e =>
    rw [hcall] at hrun
    cases hrun
  | ok a =>
    rw [hcall] at hrun
    exact ⟨a, rfl, Option.some.inj hrun,
      ((approval_current hourly _ rfl twoRequests).1 _ _ _ a hcall).2.2⟩

end

end ClockedFlow

end NoSQLOptimizer.Approvals
