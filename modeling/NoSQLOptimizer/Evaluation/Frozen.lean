import NoSQLOptimizer.Concurrency.History
import NoSQLOptimizer.Concurrency.Serial
import NoSQLOptimizer.ControlPlane.Rows
import NoSQLOptimizer.Evaluation.Durable

namespace NoSQLOptimizer.Evaluation.Durable

open ControlPlane Concurrency Transactions History

/-- A call with no one else about. -/
def step (t : Tables) (k : Call) : Tables := ((call () k).run { tables := t }).2.tables

/-- Where the call adds a pair to an evaluation run that is there, it comes with the fingerprint of that
run, and the run is not completed. -/
def Fitting (t : Tables) : Call → Prop
  | .recordPair p => p.armOrder = "AB" ∨ p.armOrder = "BA" → ∀ run ∈ t.runsOf p.candidateId,
      t.numbered run.id p.pairNumber = none →
        run.environmentFingerprint = p.environmentFingerprint ∧ run.status ≠ "COMPLETED"
  | .markComplete _ => True

instance (t : Tables) : (k : Call) → Decidable (Fitting t k)
  | .recordPair p => inferInstanceAs (Decidable (p.armOrder = "AB" ∨ p.armOrder = "BA" →
      ∀ run ∈ t.runsOf p.candidateId, t.numbered run.id p.pairNumber = none →
        run.environmentFingerprint = p.environmentFingerprint ∧ run.status ≠ "COMPLETED"))
  | .markComplete _ => inferInstanceAs (Decidable True)

/-- Every pair was recorded with the fingerprint of the evaluation run that it is stored under. -/
def Tables.Homogeneous (t : Tables) : Prop :=
  ∀ pair ∈ t.trialPairs, ∀ run ∈ t.evaluationRuns, run.id = pair.evaluationRunId →
    pair.recordedUnder = run.environmentFingerprint

/-- What is completed in `t` is the same in `u`, with the same pairs. -/
def Frozen (t u : Tables) : Prop :=
  ∀ run ∈ t.evaluationRuns, run.status = "COMPLETED" →
    run ∈ u.evaluationRuns ∧ u.pairsOf run.id = t.pairsOf run.id

/-- Nothing has been recorded yet. -/
structure Tables.Fresh (t : Tables) : Prop where
  evaluationRuns : t.evaluationRuns = []
  trialPairs : t.trialPairs = []

structure Evidence (t : Tables) : Prop where
  ids : (t.evaluationRuns.map (·.id)).Nodup
  known : ∀ pair ∈ t.trialPairs, ∃ run ∈ t.evaluationRuns, run.id = pair.evaluationRunId
  homogeneous : t.Homogeneous

/-- What a recording comes to. -/
inductive Recorded (p : Recording) (t : Tables) : Tables → Prop
  | unchanged : Recorded p t t
  | added {run : EvaluationRun} : p.armOrder = "AB" ∨ p.armOrder = "BA" →
      run ∈ t.runsOf p.candidateId → t.numbered run.id p.pairNumber = none →
      Recorded p t ((Write.insertPair (p.trialPair run.id)).apply t)
  | begun : t.evaluation p.evaluationId = none →
      Recorded p t ((Write.insertEvaluation p.evaluationRun).apply t)
  | opened : t.evaluation p.evaluationId = none →
      Recorded p t ((Write.insertPair (p.trialPair p.evaluationId)).apply
        ((Write.insertEvaluation p.evaluationRun).apply t))

section

variable {t u : Tables} {p : Recording}

theorem Frozen.refl (t : Tables) : Frozen t t := fun _ hrun _ => ⟨hrun, rfl⟩

theorem Frozen.trans {v : Tables} (h : Frozen t u) (h' : Frozen u v) : Frozen t v := by
  intro run hrun hcompleted
  obtain ⟨hu, hpairs⟩ := h run hrun hcompleted
  obtain ⟨hv, hpairs'⟩ := h' run hu hcompleted
  exact ⟨hv, hpairs'.trans hpairs⟩

theorem Tables.Fresh.evidence (h : t.Fresh) : Evidence t := by
  refine ⟨by simp [h.evaluationRuns], fun pair hpair => ?_, fun pair hpair => ?_⟩ <;>
  · rw [h.trialPairs] at hpair
    cases hpair

theorem Evidence.insertEvaluation (h : Evidence t) {run : EvaluationRun}
    (hnew : t.evaluation run.id = none) : Evidence ((Write.insertEvaluation run).apply t) := by
  have hid : ∀ other ∈ t.evaluationRuns, other.id ≠ run.id :=
    fun other hother => by simpa using List.find?_eq_none.mp hnew other hother
  refine ⟨nodup_map_concat h.ids hid, fun pair hpair => ?_, fun pair hpair other hother heq => ?_⟩
  · obtain ⟨other, hother, heq⟩ := h.known pair hpair
    exact ⟨other, List.mem_append_left _ hother, heq⟩
  · rcases List.mem_append.mp hother with hother | hother
    · exact h.homogeneous pair hpair other hother heq
    · obtain rfl := List.mem_singleton.mp hother
      obtain ⟨known, hknown, hid'⟩ := h.known pair hpair
      exact absurd (hid'.trans heq.symm) (hid known hknown)

theorem Evidence.insertPair (h : Evidence t) {run : EvaluationRun} (hrun : run ∈ t.evaluationRuns)
    (hfingerprint : run.environmentFingerprint = p.environmentFingerprint) :
    Evidence ((Write.insertPair (p.trialPair run.id)).apply t) := by
  refine ⟨h.ids, fun pair hpair => ?_, fun pair hpair other hother heq => ?_⟩
  · rcases List.mem_append.mp hpair with hpair | hpair
    · exact h.known pair hpair
    · obtain rfl := List.mem_singleton.mp hpair
      exact ⟨run, hrun, rfl⟩
  · rcases List.mem_append.mp hpair with hpair | hpair
    · exact h.homogeneous pair hpair other hother heq
    · obtain rfl := List.mem_singleton.mp hpair
      obtain rfl := List.inj_on_of_nodup_map h.ids hother hrun heq
      exact hfingerprint.symm

theorem Evidence.complete (h : Evidence t) (id : RowId) :
    Evidence ((Write.complete id).apply t) := by
  refine ⟨?_, fun pair hpair => ?_, fun pair hpair run hrun heq => ?_⟩
  · have hids : ((Write.complete id).apply t).evaluationRuns.map (·.id) =
        t.evaluationRuns.map (·.id) := by
      simp only [Write.apply, List.map_map]
      exact List.map_congr_left (fun run _ => run.completed_id id)
    rw [hids]
    exact h.ids
  · obtain ⟨run, hrun, heq⟩ := h.known pair hpair
    exact ⟨run.completed id, List.mem_map.mpr ⟨run, hrun, rfl⟩, (run.completed_id id).trans heq⟩
  · obtain ⟨other, hother, rfl⟩ := List.mem_map.mp hrun
    rw [EvaluationRun.completed_id] at heq
    rw [EvaluationRun.completed_environmentFingerprint]
    exact h.homogeneous pair hpair other hother heq

theorem frozen_complete (t : Tables) (id : RowId) : Frozen t ((Write.complete id).apply t) := by
  intro run hrun hcompleted
  refine ⟨List.mem_map.mpr ⟨run, hrun, ?_⟩, rfl⟩
  unfold EvaluationRun.completed
  split
  · rw [← hcompleted]
  · rfl

theorem Evidence.completeAll (h : Evidence t) (ids : List RowId) :
    Evidence (schema.applyAll (ids.map .complete) t) ∧
      Frozen t (schema.applyAll (ids.map .complete) t) := by
  induction ids generalizing t with
  | nil => exact ⟨h, .refl t⟩
  | cons id ids ih =>
    obtain ⟨hevidence, hfrozen⟩ := ih (h.complete id)
    exact ⟨hevidence, (frozen_complete t id).trans hfrozen⟩

/-- A pair that is added under a run leaves the pairs of the others alone. -/
theorem frozen_insertPair {pair : TrialPair}
    (h : ∀ run ∈ t.evaluationRuns, run.id = pair.evaluationRunId → run.status ≠ "COMPLETED") :
    Frozen t ((Write.insertPair pair).apply t) := by
  intro run hrun hcompleted
  have hne : pair.evaluationRunId ≠ run.id := fun heq => h run hrun heq.symm hcompleted
  refine ⟨hrun, ?_⟩
  simp [Tables.pairsOf, Write.apply, List.filter_append, hne]

theorem frozen_insertEvaluation (t : Tables) (run : EvaluationRun) :
    Frozen t ((Write.insertEvaluation run).apply t) :=
  fun _ hrun _ => ⟨List.mem_append_left _ hrun, rfl⟩

theorem Recorded.evidence (h : Recorded p t u) (ht : Evidence t) (hfit : Fitting t (.recordPair p)) :
    Evidence u ∧ Frozen t u := by
  cases h with
  | unchanged => exact ⟨ht, .refl t⟩
  | @added run harm hrun hnumbered =>
    obtain ⟨hfingerprint, hopen⟩ := hfit harm run hrun hnumbered
    have hmem := (List.mem_filter.mp hrun).1
    refine ⟨ht.insertPair hmem hfingerprint, frozen_insertPair (fun other hother heq => ?_)⟩
    obtain rfl := List.inj_on_of_nodup_map ht.ids hother hmem heq
    exact hopen
  | begun hnew =>
    exact ⟨ht.insertEvaluation hnew, frozen_insertEvaluation t _⟩
  | opened hnew =>
    have hmem : p.evaluationRun ∈ ((Write.insertEvaluation p.evaluationRun).apply t).evaluationRuns :=
      List.mem_append_right _ List.mem_cons_self
    have hopened : Evidence ((Write.insertEvaluation p.evaluationRun).apply t) :=
      ht.insertEvaluation hnew
    refine ⟨hopened.insertPair hmem rfl,
      (frozen_insertEvaluation t _).trans (frozen_insertPair (fun other hother heq => ?_))⟩
    obtain rfl := List.inj_on_of_nodup_map hopened.ids hother hmem heq
    simp [Recording.evaluationRun]

end

section

variable {ι : Type} [DecidableEq ι] {i : ι} {t : Tables} {p : Recording}

/-- The evaluation run that a pair goes under, and the tables as they are then. -/
inductive Under (p : Recording) (t : Tables) (run : EvaluationRun) : Tables → Prop
  | found : run ∈ t.runsOf p.candidateId → Under p t run t
  | opened : run = p.evaluationRun → t.evaluation p.evaluationId = none →
      Under p t run ((Write.insertEvaluation run).apply t)

theorem Under.recorded {run : EvaluationRun} {u : Tables} (h : Under p t run u) :
    Recorded p t u := by
  cases h with
  | found _ => exact .unchanged
  | opened hrun hnew =>
    subst hrun
    exact .begun hnew

theorem yields_evaluationFor : Yields schema i (· = t) (evaluationFor i p) (Under p t) := by
  refine .bind (Q := fun o u => u = t ∧ ∀ run ∈ o, run ∈ t.runsOf p.candidateId)
    (.execute (fun u o ws hu hf => ?_)) (fun o => ?_)
  · subst hu
    split at hf
    · cases hf
      exact ⟨rfl, nofun⟩
    · next run hruns =>
      cases hf
      refine ⟨rfl, fun other hother => ?_⟩
      rw [hruns, Option.mem_some.mp hother]
      exact List.mem_cons_self
    · cases hf
  · cases o with
    | some run =>
      refine .ret ?_
      rintro u ⟨rfl, hrun⟩
      exact .found (hrun run rfl)
    | none =>
      refine .execute (fun u run ws hu hf => ?_)
      obtain ⟨rfl, -⟩ := hu
      split at hf
      · cases hf
      · split at hf
        · cases hf
        · next hnew =>
          cases hf
          exact .opened rfl (Option.not_isSome_iff_eq_none.mp hnew)

theorem recorded_transaction {α : Type} {q : Proc ι α}
    (hq : Yields schema i (· = t) q (fun _ => Recorded p t)) :
    Recorded p t ((schema.transaction i q).run { tables := t }).2.tables := by
  obtain h | ⟨_, h⟩ := Yields.transaction hq
  · rw [h]
    exact .unchanged
  · exact h

theorem recorded_recordPair : Recorded p t ((recordPair i p).run { tables := t }).2.tables := by
  unfold recordPair
  split
  · exact .unchanged
  · next harm =>
    have harm : p.armOrder = "AB" ∨ p.armOrder = "BA" :=
      (not_and_or.mp harm).imp not_not.mp not_not.mp
    refine recorded_transaction (.bind yields_evaluationFor (fun run => .bind
      (Q := fun o u => Under p t run u ∧ o = u.numbered run.id p.pairNumber)
      (.execute (fun u o ws hu hf => ?_)) (fun o => ?_)))
    · cases hf
      exact ⟨hu, rfl⟩
    · cases o with
      | some pair => exact .ret (fun u hu => hu.1.recorded)
      | none =>
        refine .bind (Q := fun _ => Recorded p t) (.execute ?_) (fun _ => .ret (fun _ h => h))
        rintro u pair ws ⟨hunder, hnone⟩ hf
        split at hf
        · cases hf
        · split at hf
          · cases hf
          · cases hf
            cases hunder with
            | found hrun => exact .added harm hrun hnone.symm
            | opened hrun hnew =>
              subst hrun
              exact .opened hnew

theorem evidence_step {k : Call} (ht : Evidence t) (hfit : Fitting t k) :
    Evidence (step t k) ∧ Frozen t (step t k) := by
  cases k with
  | recordPair p =>
    have hrecorded : Recorded p t (step t (.recordPair p)) := by
      rw [step, call, Process.bind_def, Process.pure_def, Process.run_bind_ret]
      exact recorded_recordPair
    exact hrecorded.evidence ht hfit
  | markComplete c =>
    obtain ⟨hevidence, hfrozen⟩ := ht.completeAll ((t.runsOf c).map (·.id))
    have hstep : step t (.markComplete c) =
        schema.applyAll (((t.runsOf c).map (·.id)).map .complete) t := by
      rw [List.map_map]
      rfl
    rw [hstep]
    exact ⟨hevidence, hfrozen⟩

end

/-- Where every recording fits, the pairs of an evaluation come from one environment, and those of a
completed one stay as they are. -/
theorem homogeneous_frozen {t : Tables} (ht : t.Fresh) {ops more : List Call}
    (h : Along step Fitting t (ops ++ more)) :
    (after step t (ops ++ more)).Homogeneous ∧
      Frozen (after step t ops) (after step t (ops ++ more)) := by
  obtain ⟨hops, hmore⟩ := along_append.mp h
  have hevidence : Evidence (after step t ops) :=
    hops.invariant ht.evidence (fun _ _ ht hfit => (evidence_step ht hfit).1)
  have hlater : Evidence (after step (after step t ops) more) ∧
      Frozen (after step t ops) (after step (after step t ops) more) := by
    refine hmore.invariant (I := fun u => Evidence u ∧ Frozen (after step t ops) u)
      ⟨hevidence, .refl _⟩ ?_
    rintro u k ⟨hu, hfrozen⟩ hfit
    obtain ⟨hstep, hkept⟩ := evidence_step hu hfit
    exact ⟨hstep, hfrozen.trans hkept⟩
  rw [after_append]
  exact ⟨hlater.1.homogeneous, hlater.2⟩

section

/-- A candidate that nothing has been measured of. -/
def unmeasured : Tables where
  candidates := [1]

def measured (pairNumber : Int) (environmentFingerprint : String) (pairId : RowId) : Call :=
  .recordPair
    { candidateId := 1
      pairNumber := pairNumber
      environmentFingerprint := environmentFingerprint
      baseline := ∅
      candidate := ∅
      armOrder := "AB"
      evaluationId := 1
      pairId := pairId }

/-- The retry of a recorded pair changes nothing, in whatever environment. -/
theorem homogeneous_frozen_retried :
    (after step unmeasured ([measured 1 "before" 1, .markComplete 1] ++
      [measured 1 "after" 2])).Homogeneous ∧
    Frozen (after step unmeasured [measured 1 "before" 1, .markComplete 1])
      (after step unmeasured ([measured 1 "before" 1, .markComplete 1] ++
        [measured 1 "after" 2])) :=
  homogeneous_frozen ⟨rfl, rfl⟩ (by decide +kernel)

/-- A pair of another environment goes under the run, and a pair under a completed run. -/
theorem not_homogeneous_frozen :
    ¬ (after step unmeasured [measured 1 "before" 1, measured 2 "after" 2]).Homogeneous ∧
    ¬ Frozen (after step unmeasured [measured 1 "before" 1, .markComplete 1])
      (after step unmeasured [measured 1 "before" 1, .markComplete 1, measured 2 "before" 2]) := by
  refine ⟨by unfold Tables.Homogeneous; decide +kernel, fun h => ?_⟩
  have hpairs := (h ⟨1, 1, "COMPLETED", "before"⟩ (by decide +kernel) rfl).2
  exact absurd (congrArg List.length hpairs) (by decide +kernel)

end

end NoSQLOptimizer.Evaluation.Durable
