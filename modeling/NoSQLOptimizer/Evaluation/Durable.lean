import Mathlib.Data.List.AList
import Mathlib.Data.List.Dedup
import Mathlib.Data.List.Sort
import Mathlib.Data.String.Basic
import Mathlib.Algebra.Field.Rat
import NoSQLOptimizer.Concurrency.Transactions
import NoSQLOptimizer.ControlPlane.Tables

namespace NoSQLOptimizer.Evaluation.Durable

open ControlPlane (CandidateId)
open Concurrency Transactions

abbrev RowId := Nat

/-- Metric values by name; floats are exact here. -/
abbrev Metrics := AList (fun _ : String => ℚ)

structure EvaluationRun where
  id : RowId
  candidateId : CandidateId
  status : String
  environmentFingerprint : String
  deriving DecidableEq

structure Measurement where
  metrics : Metrics
  armOrder : String
  deriving DecidableEq

structure TrialMetric where
  metricName : String
  baselineValue : ℚ
  candidateValue : ℚ
  deriving DecidableEq

/-- A pair with its `trial_metrics`.  `recordedUnder` is not a column but a log of this model: the
fingerprint that the pair was recorded with. -/
structure TrialPair where
  id : RowId
  evaluationRunId : RowId
  pairNumber : Int
  baselineMeasurement : Measurement
  candidateMeasurement : Measurement
  trialMetrics : List TrialMetric
  recordedUnder : String
  deriving DecidableEq

structure Tables where
  candidates : List CandidateId := []
  evaluationRuns : List EvaluationRun := []
  trialPairs : List TrialPair := []
  deriving DecidableEq

inductive Error
  | evaluationPlan : String → Error
  | multipleResultsFound
  | integrity : String → Error
  deriving DecidableEq

/-- The arguments of `record_pair`, with the `uuid4()`s that it draws. -/
structure Recording where
  candidateId : CandidateId
  pairNumber : Int
  environmentFingerprint : String
  baseline : Metrics
  candidate : Metrics
  armOrder : String
  evaluationId : RowId
  pairId : RowId
  deriving DecidableEq

namespace Recording

variable (p : Recording)

def evaluationRun : EvaluationRun :=
  ⟨p.evaluationId, p.candidateId, "MEASURING", p.environmentFingerprint⟩

/-- `sorted(set(baseline) | set(candidate))`, without the names that one of the two lacks. -/
def trialMetrics : List TrialMetric :=
  (((p.baseline.keys ++ p.candidate.keys).dedup).insertionSort (· ≤ ·)).filterMap (fun name => do
    return ⟨name, ← p.baseline.lookup name, ← p.candidate.lookup name⟩)

def trialPair (evaluationRunId : RowId) : TrialPair where
  id := p.pairId
  evaluationRunId := evaluationRunId
  pairNumber := p.pairNumber
  baselineMeasurement := ⟨p.baseline, p.armOrder⟩
  candidateMeasurement := ⟨p.candidate, p.armOrder⟩
  trialMetrics := p.trialMetrics
  recordedUnder := p.environmentFingerprint

end Recording

/-- Rows of `evaluation_runs` and `trial_pairs`.  The gap of a candidate is nothing that the database
locks: it is for saying which sessions have found no evaluation run of the candidate. -/
inductive Key
  | evaluation : RowId → Key
  | pair : RowId → Key
  | gap : CandidateId → Key
  deriving DecidableEq

inductive Write
  | insertEvaluation : EvaluationRun → Write
  | insertPair : TrialPair → Write
  | complete : RowId → Write
  deriving DecidableEq

inductive Query
  | selectEvaluation : CandidateId → Query
  | insertEvaluation : EvaluationRun → Query
  | selectPair : RowId → Int → Query
  | insertPair : TrialPair → Query
  | updateEvaluations : CandidateId → Query
  deriving DecidableEq

def EvaluationRun.completed (run : EvaluationRun) (id : RowId) : EvaluationRun :=
  if run.id = id then { run with status := "COMPLETED" } else run

namespace Tables

variable (t : Tables)

def evaluation (id : RowId) : Option EvaluationRun := t.evaluationRuns.find? (·.id = id)

def runsOf (c : CandidateId) : List EvaluationRun := t.evaluationRuns.filter (·.candidateId = c)

def pairsOf (id : RowId) : List TrialPair := t.trialPairs.filter (·.evaluationRunId = id)

def pair (id : RowId) : Option TrialPair := t.trialPairs.find? (·.id = id)

/-- `uq_trial_pairs_run_number` -/
def numbered (id : RowId) (number : Int) : Option TrialPair :=
  (t.pairsOf id).find? (·.pairNumber = number)

end Tables

namespace Write

def apply : Write → Tables → Tables
  | insertEvaluation run, t => { t with evaluationRuns := t.evaluationRuns ++ [run] }
  | insertPair pair, t => { t with trialPairs := t.trialPairs ++ [pair] }
  | complete id, t => { t with evaluationRuns := t.evaluationRuns.map (·.completed id) }

def keys : Write → List Key
  | insertEvaluation run => [.evaluation run.id, .gap run.candidateId]
  | insertPair pair => [.evaluation pair.evaluationRunId, .pair pair.id]
  | complete id => [.evaluation id]

end Write

def Query.needs : Query → Tables → List Key
  | selectEvaluation c, t =>
    if t.runsOf c = [] then [.gap c] else (t.runsOf c).map (.evaluation ·.id)
  | insertEvaluation run, _ => [.evaluation run.id]
  | selectPair _ _, _ => []
  | insertPair pair, _ => [.evaluation pair.evaluationRunId, .pair pair.id]
  | updateEvaluations c, t => (t.runsOf c).map (.evaluation ·.id)

/-- The row is as it was, an evaluation run with its pairs; the gap holds what it held. -/
def Key.Same : Key → Tables → Tables → Prop
  | evaluation id, t, u => t.evaluation id = u.evaluation id ∧ t.pairsOf id = u.pairsOf id
  | pair id, t, u => t.pair id = u.pair id
  | gap c, t, u => (t.runsOf c).map (·.id) = (u.runsOf c).map (·.id)

theorem Key.same_refl (k : Key) (t : Tables) : k.Same t t := by
  cases k with
  | evaluation id => exact ⟨rfl, rfl⟩
  | _ => rfl

theorem Key.same_trans {k : Key} {t u v : Tables} (h : k.Same t u) (h' : k.Same u v) :
    k.Same t v := by
  cases k with
  | evaluation id => exact ⟨h.1.trans h'.1, h.2.trans h'.2⟩
  | _ => exact Eq.trans h h'

theorem EvaluationRun.completed_id (run : EvaluationRun) (id : RowId) :
    (run.completed id).id = run.id := by
  unfold EvaluationRun.completed
  split <;> rfl

theorem EvaluationRun.completed_candidateId (run : EvaluationRun) (id : RowId) :
    (run.completed id).candidateId = run.candidateId := by
  unfold EvaluationRun.completed
  split <;> rfl

theorem EvaluationRun.completed_environmentFingerprint (run : EvaluationRun) (id : RowId) :
    (run.completed id).environmentFingerprint = run.environmentFingerprint := by
  unfold EvaluationRun.completed
  split <;> rfl

theorem evaluation_complete (t : Tables) (id id' : RowId) :
    ((Write.complete id).apply t).evaluation id' = (t.evaluation id').map (·.completed id) := by
  simp only [Tables.evaluation, Write.apply, List.find?_map]
  congr 2
  funext run
  simp [EvaluationRun.completed_id]

theorem runsOf_complete (t : Tables) (id : RowId) (c : CandidateId) :
    ((Write.complete id).apply t).runsOf c = (t.runsOf c).map (·.completed id) := by
  simp only [Tables.runsOf, Write.apply, List.filter_map]
  congr 2
  funext run
  simp [EvaluationRun.completed_candidateId]

theorem Write.same_apply {k : Key} {w : Write} (t : Tables) (h : k ∉ w.keys) :
    k.Same t (w.apply t) := by
  cases w with
  | insertEvaluation run =>
    cases k with
    | evaluation id =>
      have hne : run.id ≠ id := fun heq => h (by simp [keys, heq])
      simp [Key.Same, Tables.evaluation, Tables.pairsOf, apply, List.find?_append, hne]
    | gap c =>
      have hne : run.candidateId ≠ c := fun heq => h (by simp [keys, heq])
      simp [Key.Same, Tables.runsOf, apply, List.filter_append, hne]
    | pair id => rfl
  | insertPair pair =>
    cases k with
    | evaluation id =>
      have hne : pair.evaluationRunId ≠ id := fun heq => h (by simp [keys, heq])
      simp [Key.Same, Tables.evaluation, Tables.pairsOf, apply, List.filter_append, hne]
    | gap c => rfl
    | pair id =>
      have hne : pair.id ≠ id := fun heq => h (by simp [keys, heq])
      simp [Key.Same, Tables.pair, apply, List.find?_append, hne]
  | complete id =>
    cases k with
    | evaluation id' =>
      have hne : id' ≠ id := fun heq => h (by simp [keys, heq])
      refine ⟨?_, rfl⟩
      rw [evaluation_complete]
      cases hrun : t.evaluation id' with
      | none => rfl
      | some run =>
        have hid : run.id = id' := by simpa using List.find?_some hrun
        simp [EvaluationRun.completed, hid, hne]
    | gap c =>
      change _ = _
      rw [runsOf_complete, List.map_map]
      exact List.map_congr_left (fun run _ => (run.completed_id id).symm)
    | pair id' => rfl

def schema : Schema Tables Key Write Query where
  apply := Write.apply
  keys := Write.keys
  needs := Query.needs
  Same := Key.Same
  same_refl := Key.same_refl
  same_trans := Key.same_trans
  same_apply := Write.same_apply

abbrev Store (ι : Type) := Database Tables Key Write ι

abbrev Proc (ι α : Type) := Process (Statement Query) (Store ι) Error α

section

variable {ι : Type} [DecidableEq ι] (i : ι)

/-- `one_or_none()` of the candidate's evaluation runs, `FOR UPDATE`. -/
def selectEvaluation (c : CandidateId) : Proc ι (Option EvaluationRun) :=
  schema.execute i (.selectEvaluation c) (fun t => match t.runsOf c with
    | [] => .ok (none, [])
    | [run] => .ok (some run, [])
    | _ => .error .multipleResultsFound)

def insertEvaluation (run : EvaluationRun) : Proc ι EvaluationRun :=
  schema.execute i (.insertEvaluation run) (fun t =>
    if run.candidateId ∉ t.candidates then
      .error (.integrity "evaluation_runs_candidate_id_fkey")
    else if (t.evaluation run.id).isSome then .error (.integrity "evaluation_runs_pkey")
    else .ok (run, [.insertEvaluation run]))

def selectPair (id : RowId) (number : Int) : Proc ι (Option TrialPair) :=
  schema.execute i (.selectPair id number) (fun t => .ok (t.numbered id number, []))

def insertPair (pair : TrialPair) : Proc ι TrialPair :=
  schema.execute i (.insertPair pair) (fun t =>
    if (t.pair pair.id).isSome then .error (.integrity "trial_pairs_pkey")
    else if (t.numbered pair.evaluationRunId pair.pairNumber).isSome then
      .error (.integrity "uq_trial_pairs_run_number")
    else .ok (pair, [.insertPair pair]))

/-- The candidate's evaluation run, a new one where there is none. -/
def evaluationFor (p : Recording) : Proc ι EvaluationRun := do
  match ← selectEvaluation i p.candidateId with
  | some run => return run
  | none => insertEvaluation i p.evaluationRun

def recordPair (p : Recording) : Proc ι RowId :=
  if p.armOrder ≠ "AB" ∧ p.armOrder ≠ "BA" then
    .fail (.evaluationPlan "trial arm order must be AB or BA")
  else schema.transaction i (do
    let run ← evaluationFor i p
    match ← selectPair i run.id p.pairNumber with
    | some pair => return pair.id
    | none => do
      let pair ← insertPair i (p.trialPair run.id)
      return pair.id)

/-- The rows that were updated. -/
def updateEvaluations (c : CandidateId) : Proc ι (List RowId) :=
  schema.execute i (.updateEvaluations c) (fun t =>
    .ok ((t.runsOf c).map (·.id), (t.runsOf c).map (.complete ·.id)))

def markComplete (c : CandidateId) : Proc ι PUnit :=
  schema.transaction i (do
    let _ ← updateEvaluations i c)

inductive Call
  | recordPair : Recording → Call
  | markComplete : CandidateId → Call
  deriving DecidableEq

def call (i : ι) : Call → Proc ι PUnit
  | .recordPair p => do
    let _ ← recordPair i p
  | .markComplete c => markComplete i c

end

end NoSQLOptimizer.Evaluation.Durable
