import NoSQLOptimizer.Approvals.Serial
import NoSQLOptimizer.Concurrency.History
import NoSQLOptimizer.Runs.Repository

namespace NoSQLOptimizer.Runs

open ControlPlane Concurrency History
open Approvals.Durable (Tables Call Settles)

/-- The approvals with the runs that they are of, and the evidence that the services keep of runs. -/
structure Records (τ : Type) where
  tables : Tables
  evidence : World τ

/-- What a transition looks at. -/
def Records.world {τ : Type} (s : Records τ) : World τ := { s.evidence with runs := s.tables.runs }

def Records.status {τ : Type} (s : Records τ) (r : RunId) : Option RunStatus :=
  (s.tables.runs r).map (·.status)

/-- A call that moves runs or decides approvals; in between, the services record evidence. -/
inductive Op (τ : Type)
  | transition : RunId → RunStatus → Option RunCompletionReason → Op τ
  | approval : Call → Op τ
  | record : World τ → Op τ

variable {τ : Type}

/-- The call, made with no one else about; what it raises changes nothing. -/
def step (ttl : Instant) (s : Records τ) : Op τ → Records τ
  | .transition r next reason =>
    match transitionRun r next reason s.world with
    | .ok (_, w) => { s with tables := { s.tables with runs := w.runs } }
    | .error _ => s
  | .approval k =>
    { s with tables := ((Approvals.Durable.call ttl () k).run { tables := s.tables }).2.tables }
  | .record w => { s with evidence := w }

/-- The path that a completion reason tells of. -/
def Path (s s' : Records τ) (r : RunId) : RunCompletionReason → Prop
  | .noCandidates => s.status r = some .generatingCandidates ∧
      (s.evidence.generations r).map (·.candidateCount) = some 0
  | .noAdmittedCandidate => s.status r = some .admission ∧
      (s.evidence.admissions r).map (·.admittedCandidateIds) = some []
  | .approvalRejected => s.status r = some .approvalPending ∧
      ∃ a ∈ s'.tables.approvals, a.optimizationRunId = some r ∧ a.status = .rejected
  | .deploymentSucceeded => s.status r = some .monitoring
  | .legacyCompleted => False

/-- The call completes the run for this reason, along the path that the reason tells of. -/
def Completes (ttl : Instant) (r : RunId) (reason : RunCompletionReason) (s : Records τ)
    (op : Op τ) : Prop :=
  (∃ run, (step ttl s op).tables.runs r = some run ∧ run.status = .completed ∧
    run.completionReason = some reason) ∧ Path s (step ttl s op) r reason

/-- What the completion reasons tell after these calls. -/
structure Told (ttl : Instant) (s : Records τ) (ops : List (Op τ)) : Prop where
  completed : ∀ r run, (after (step ttl) s ops).tables.runs r = some run →
    run.status = .completed → ∃ reason, run.completionReason = some reason ∧
      Once (step ttl) (Completes ttl r reason) s ops
  others : ∀ r run, (after (step ttl) s ops).tables.runs r = some run →
    run.status ≠ .completed → run.completionReason = none

/-- No run is completed yet, and none has a reason. -/
def Records.Uncompleted (s : Records τ) : Prop :=
  ∀ r run, s.tables.runs r = some run → run.status ≠ .completed ∧ run.completionReason = none

/-- A transition completes no run that waits for its approval, and one that is monitored for no
other reason than that its deployment succeeded. -/
def Guarded (s : Records τ) : Op τ → Prop
  | .transition r next reason => next = .completed → ∀ x, reason = some x →
      s.status r ≠ some .approvalPending ∧
        (s.status r = some .monitoring → x = .deploymentSucceeded)
  | _ => True

/-- What a transition that succeeds tells of the reason. -/
theorem transitionRun_reason {r : RunId} {next : RunStatus} {reason : Option RunCompletionReason}
    {s s' : World τ} {moved : OptimizationRun} (h : transitionRun r next reason s = .ok (moved, s')) :
    if next = .completed then ∃ run x, s.runs r = some run ∧ reason = some x ∧
      (run.status = .generatingCandidates ∧ x = .noCandidates ∧
          (s.generations r).map (·.candidateCount) = some 0 ∨
        run.status = .admission ∧ x = .noAdmittedCandidate ∧
          (s.admissions r).map (·.admittedCandidateIds) = some [] ∨
        run.status = .approvalPending ∨ run.status = .monitoring)
    else reason = none := by
  obtain ⟨run, hrun, hnext, hrefusals, -⟩ := transitionRun_ok h
  simp only [refusals, List.forall_mem_cons] at hrefusals
  obtain ⟨-, -, -, -, -, -, -, -, -, hmissing, hgeneration, hadmission, hneedless, -⟩ := hrefusals
  split
  · next hcompleted =>
    subst hcompleted
    cases reason with
    | none => cases hmissing
    | some x =>
      refine ⟨run, x, hrun, rfl, ?_⟩
      cases hstatus : run.status <;> rw [hstatus] at hnext hgeneration hadmission <;>
        try exact absurd hnext (by decide)
      · obtain ⟨hcount, hx⟩ := Bool.or_eq_false_iff.mp hgeneration
        exact .inl ⟨rfl, Option.some.inj (bne_eq_false_iff_eq.mp hx), bne_eq_false_iff_eq.mp hcount⟩
      · obtain ⟨hempty, hx⟩ := Bool.or_eq_false_iff.mp hadmission
        refine .inr (.inl ⟨rfl, Option.some.inj (bne_eq_false_iff_eq.mp hx), ?_⟩)
        cases hadmitted : s.admissions r with
        | none => simp [hadmitted] at hempty
        | some artifact => simpa [hadmitted] using hempty
      · exact .inr (.inr (.inl rfl))
      · exact .inr (.inr (.inr rfl))
  · next hother =>
    cases reason with
    | none => rfl
    | some x => simp [hother] at hneedless

section

variable {ttl : Instant} {s : Records τ} {ops : List (Op τ)}

/-- A call that moves no run. -/
theorem Told.unmoved (h : Told ttl s ops) {op : Op τ}
    (hruns : (step ttl (after (step ttl) s ops) op).tables.runs =
      (after (step ttl) s ops).tables.runs) : Told ttl s (ops ++ [op]) := by
  refine ⟨fun r run hrun hstatus => ?_, fun r run hrun hstatus => ?_⟩
  all_goals rw [after_concat, hruns] at hrun
  · obtain ⟨reason, hreason, honce⟩ := h.completed r run hrun hstatus
    exact ⟨reason, hreason, honce.concat op⟩
  · exact h.others r run hrun hstatus

/-- A call that moves one run, and leaves it with the reason that it came by. -/
theorem Told.moved (h : Told ttl s ops) {op : Op τ} {r : RunId} {moved : OptimizationRun}
    (hruns : (step ttl (after (step ttl) s ops) op).tables.runs =
      Function.update (after (step ttl) s ops).tables.runs r (some moved))
    (hcompleted : moved.status = .completed → ∃ reason, moved.completionReason = some reason ∧
      Path (after (step ttl) s ops) (step ttl (after (step ttl) s ops) op) r reason)
    (hothers : moved.status ≠ .completed → moved.completionReason = none) :
    Told ttl s (ops ++ [op]) := by
  refine ⟨fun q run hrun hstatus => ?_, fun q run hrun hstatus => ?_⟩
  all_goals
    rw [after_concat, hruns] at hrun
    by_cases hq : q = r
  · subst hq
    rw [Function.update_self] at hrun
    cases hrun
    obtain ⟨reason, hreason, hpath⟩ := hcompleted hstatus
    refine ⟨reason, hreason, .last ⟨⟨moved, ?_, hstatus, hreason⟩, hpath⟩⟩
    rw [hruns, Function.update_self]
  · rw [Function.update_of_ne hq] at hrun
    obtain ⟨reason, hreason, honce⟩ := h.completed q run hrun hstatus
    exact ⟨reason, hreason, honce.concat op⟩
  · subst hq
    rw [Function.update_self] at hrun
    cases hrun
    exact hothers hstatus
  · rw [Function.update_of_ne hq] at hrun
    exact h.others q run hrun hstatus

theorem Told.transition (h : Told ttl s ops) {r : RunId} {next : RunStatus}
    {reason : Option RunCompletionReason}
    (hguarded : Guarded (after (step ttl) s ops) (.transition r next reason)) :
    Told ttl s (ops ++ [.transition r next reason]) := by
  cases hok : transitionRun r next reason (after (step ttl) s ops).world with
  | error e => exact h.unmoved (by simp only [step, hok])
  | ok result =>
    obtain ⟨run, hrun, -, -, hmoved, hworld⟩ := transitionRun_ok hok
    have hruns : (step ttl (after (step ttl) s ops) (.transition r next reason)).tables.runs =
        Function.update (after (step ttl) s ops).tables.runs r
          (some { run with status := next, completionReason := reason }) := by
      simp only [step, hok, hworld, hmoved]
      rfl
    refine h.moved hruns (fun hcompleted => ?_) (fun hother => ?_)
    · have htold := transitionRun_reason hok
      rw [if_pos hcompleted] at htold
      obtain ⟨run', x, hrun', hx, hpath⟩ := htold
      cases hrun.symm.trans hrun'
      have hfound : (after (step ttl) s ops).tables.runs r = some run := hrun
      have hstatus : ∀ status, run.status = status →
          (after (step ttl) s ops).status r = some status :=
        fun status hs => by rw [Records.status, hfound, Option.map_some, hs]
      obtain ⟨hnot, hmonitored⟩ := hguarded hcompleted x hx
      refine ⟨x, hx, ?_⟩
      obtain ⟨hs, rfl, hcount⟩ | ⟨hs, rfl, hempty⟩ | hs | hs := hpath
      · exact ⟨hstatus _ hs, hcount⟩
      · exact ⟨hstatus _ hs, hempty⟩
      · exact absurd (hstatus _ hs) hnot
      · obtain rfl := hmonitored (hstatus _ hs)
        exact hstatus _ hs
    · have htold := transitionRun_reason hok
      rwa [if_neg hother] at htold

theorem Told.approval (h : Told ttl s ops) (k : Call) : Told ttl s (ops ++ [.approval k]) := by
  obtain hruns | ⟨hrun, hwaiting, hruns⟩ | ⟨hrun, hwaiting, hruns, ha, har, hrejected⟩ :
      Settles (after (step ttl) s ops).tables
        (step ttl (after (step ttl) s ops) (.approval k)).tables :=
    Approvals.Durable.settles_call ttl k
  · exact h.unmoved hruns
  · have hnone := h.others _ _ hrun (fun hc => by rw [hwaiting] at hc; cases hc)
    exact h.moved hruns (fun hc => by cases hc) (fun _ => hnone)
  · refine h.moved hruns (fun _ => ⟨.approvalRejected, rfl, ?_, _, ha, har, hrejected⟩)
      (fun hc => absurd rfl hc)
    rw [Records.status, hrun, Option.map_some, hwaiting]

/-- A completed run has the reason of the path that led there, and no other run has one. -/
theorem told_of_guarded (hs : s.Uncompleted) (hops : Along (step ttl) Guarded s ops) :
    Told ttl s ops := by
  refine of_along hops ⟨fun r run hrun hc => absurd hc (hs r run hrun).1,
    fun r run hrun _ => (hs r run hrun).2⟩ (fun ops op _ hguarded h => ?_)
  cases op with
  | transition r next reason => exact h.transition hguarded
  | approval k => exact h.approval k
  | record w => exact h.unmoved rfl

end

section

def proposedRun : OptimizationRun where
  targetId := 0
  workloadSnapshotId := some 0
  requestedByUserId := 1
  deploymentMode := .approvalControlled
  primaryMetricKey := some "latency"

/-- A run that was just created, and the evidence of all its stages. -/
def proposed : Records Unit where
  tables := { runs := fun _ => some proposedRun }
  evidence := {
    diagnoses := fun _ => some ⟨0, 0⟩
    generations := fun _ => some ⟨1⟩
    rankings := fun _ => some ⟨[0]⟩
    plans := fun _ => some ⟨"SMOKE", [0]⟩
    evaluations := fun _ => [⟨"COMPLETED"⟩]
    admissions := fun _ => some ⟨some 0, [0], false⟩
    db := () }

theorem proposed_uncompleted : proposed.Uncompleted := by
  rintro r run hrun
  cases hrun
  exact ⟨(fun h => by cases h), rfl⟩

/-- Transitions of the run, one after the other. -/
def through (path : List RunStatus) : List (Op Unit) := path.map (fun next => .transition 0 next none)

/-- All the way to the approval. -/
def toApproval : List (Op Unit) :=
  through [.snapshotting, .diagnosing, .generatingCandidates, .ranking, .calibrating, .evaluating,
    .admission, .admitted, .approvalPending]

theorem evidence_after {s : Records Unit} {ops : List (Op Unit)}
    (h : ∀ op ∈ ops, ∃ r next reason, op = .transition r next reason) :
    (after (step 10) s ops).evidence = s.evidence := by
  induction ops generalizing s with
  | nil => rfl
  | cons op ops ih =>
    obtain ⟨r, next, reason, rfl⟩ := h op List.mem_cons_self
    rw [after_cons, ih (fun op hop => h op (List.mem_cons_of_mem _ hop)), step]
    split <;> rfl

theorem guarded_through (path : List RunStatus) (s : Records Unit) :
    Along (step 10) Guarded s (through path) := by
  induction path generalizing s with
  | nil => trivial
  | cons next path ih => exact ⟨(fun _ _ h => by cases h), ih _⟩

theorem told_of_guarded_monitored : proposed.Uncompleted ∧
    (after (step 10) proposed (toApproval ++ (through [.approved, .deploying, .deployed, .monitoring] ++
      [.transition 0 .completed (some .deploymentSucceeded)]))).tables.runs 0 =
        some { proposedRun with status := .completed, completionReason := some .deploymentSucceeded } ∧
    Told 10 proposed (toApproval ++ (through [.approved, .deploying, .deployed, .monitoring] ++
      [.transition 0 .completed (some .deploymentSucceeded)])) := by
  refine ⟨proposed_uncompleted, by decide +kernel, told_of_guarded proposed_uncompleted ?_⟩
  refine along_append.mpr ⟨guarded_through _ _, along_concat.mpr ⟨guarded_through _ _, ?_⟩⟩
  rintro - x hx
  exact ⟨by decide +kernel, fun _ => (Option.some.inj hx).symm⟩

/-- A run that waits for its approval is completed for want of candidates, though it has one. -/
theorem not_told : ¬ ∀ (ttl : Instant) (s : Records Unit) (ops : List (Op Unit)), s.Uncompleted →
    Told ttl s ops := by
  intro h
  have hrun : (after (step 10) proposed
      (toApproval ++ [.transition 0 .completed (some .noCandidates)])).tables.runs 0 =
        some { proposedRun with status := .completed, completionReason := some .noCandidates } := by
    decide +kernel
  obtain ⟨reason, hreason, honce⟩ := (h 10 proposed _ proposed_uncompleted).completed 0 _ hrun rfl
  cases hreason
  obtain ⟨earlier, op, later, hops, -, -, hcount⟩ := honce
  have hkept : (after (step 10) proposed earlier).evidence = proposed.evidence :=
    evidence_after (fun op hop => by
      have hmem : op ∈ toApproval ++ [.transition 0 .completed (some .noCandidates)] :=
        hops ▸ List.mem_append_left _ hop
      rcases List.mem_append.mp hmem with hmem | hmem
      · obtain ⟨next, -, rfl⟩ := List.mem_map.mp hmem
        exact ⟨0, next, none, rfl⟩
      · exact ⟨0, .completed, some .noCandidates, List.mem_singleton.mp hmem⟩)
  rw [hkept] at hcount
  cases hcount

end

end NoSQLOptimizer.Runs
