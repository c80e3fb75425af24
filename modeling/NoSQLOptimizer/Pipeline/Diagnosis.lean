import Mathlib.Data.List.Infix
import NoSQLOptimizer.Admission.Models
import NoSQLOptimizer.AI.Provider
import NoSQLOptimizer.Experience.Memory

namespace NoSQLOptimizer.Pipeline

open Admission AI Experience

def maxInitialCandidates : ℕ := 3

structure Diagnosis where
  summary : { s : String // 1 ≤ s.length }
  evidence : List String
  bottlenecks : List String := []
  evidenceRefs : List String := []
  candidateFamilyPriorities : List String := []
  confidence : { q : ℚ // 0 ≤ q ∧ q ≤ 1 } := ⟨0, le_refl 0, zero_le_one⟩
  limitations : List String := []

/-- Legacy advisory ranking for non-durable pipeline callers. -/
structure CandidateRanking where
  candidateIds : List String
  rationale : { s : String // 1 ≤ s.length }
  reasonsByCandidate : List (String × String) := []
  riskNotes : List String := []
  evidenceRefs : List String := []

structure AIProvider where
  diagnose : String → Except ProviderFailure Diagnosis
  rankCandidates : List String → Except ProviderFailure CandidateRanking

/-- Sandbox and deterministic admission evidence for one bounded candidate. -/
structure EvaluatedCandidate where
  candidateId : String
  sandboxResult : String
  admissionStatus : AdmissionStatus

structure DiagnosisPipelineResult (Snapshot : Type) where
  snapshot : Snapshot
  evidence : String
  diagnosis : Diagnosis
  ranking : CandidateRanking
  evaluated : List EvaluatedCandidate
  stages : List String

inductive PipelineError
  | experience (e : ExperienceError)
  | raised (text : String)
  deriving DecidableEq

/-- Deterministic candidates that stand in the list already are passed over. -/
def extendSelected (selected : List String) (candidateId : String) : List String :=
  if candidateId ∈ selected then selected else selected ++ [candidateId]

/-- `_select_known_candidates`. -/
def selectKnownCandidates (generated ranked : List String) : List String :=
  generated.foldl extendSelected (ranked.filter (· ∈ generated))

section

variable {generated ranked selected : List String} {a : String}

theorem mem_extendSelected {b : String} :
    b ∈ extendSelected selected a ↔ b ∈ selected ∨ b = a := by
  unfold extendSelected
  split
  · next h =>
    rw [iff_self_or]
    exact fun hb => hb ▸ h
  · rw [List.mem_append, List.mem_singleton]

theorem nodup_extendSelected : (extendSelected selected a).Nodup ↔ selected.Nodup := by
  unfold extendSelected
  split
  · rfl
  · next h => rw [List.nodup_append_comm, List.singleton_append, List.nodup_cons, and_iff_right h]

theorem mem_foldl_extendSelected {b : String} :
    b ∈ generated.foldl extendSelected selected ↔ b ∈ selected ∨ b ∈ generated := by
  induction generated generalizing selected with
  | nil => simp only [List.foldl_nil, List.not_mem_nil, or_false]
  | cons a generated ih => rw [List.foldl_cons, ih, mem_extendSelected, List.mem_cons, or_assoc]

theorem nodup_foldl_extendSelected :
    (generated.foldl extendSelected selected).Nodup ↔ selected.Nodup := by
  induction generated generalizing selected with
  | nil => rfl
  | cons a generated ih => rw [List.foldl_cons, ih, nodup_extendSelected]

theorem mem_selectKnownCandidates : a ∈ selectKnownCandidates generated ranked ↔ a ∈ generated := by
  rw [selectKnownCandidates, mem_foldl_extendSelected, List.mem_filter, decide_eq_true_eq,
    or_iff_right_iff_imp]
  exact And.right

/-- A permutation just where the ranking names no known candidate twice. -/
theorem selectKnownCandidates_perm (h : generated.Nodup) :
    (selectKnownCandidates generated ranked).Perm generated ↔
      (ranked.filter (· ∈ generated)).Nodup := by
  have hnodup : (selectKnownCandidates generated ranked).Nodup ↔
      (ranked.filter (· ∈ generated)).Nodup := nodup_foldl_extendSelected
  rw [← hnodup]
  constructor
  · exact fun hperm => hperm.nodup_iff.mpr h
  · exact fun hselected =>
      (List.perm_ext_iff_of_nodup hselected h).mpr (fun _ => mem_selectKnownCandidates)

end

/-- `_validate_evidence_refs`. -/
def validateEvidenceRefs (references : List String) (evidence : String) :
    Except ProviderFailure Unit :=
  if ∀ reference ∈ references, reference.toList <:+: evidence.toList then .ok ()
  else .error .other

def unavailableDiagnosis : Diagnosis where
  summary := ⟨"AI advisory output unavailable; deterministic safeguards retained.", by decide⟩
  evidence := []
  limitations := ["AI_UNAVAILABLE_OR_INVALID"]

def unavailableRanking : CandidateRanking where
  candidateIds := []
  rationale := ⟨"AI advisory output unavailable", by decide⟩

def stages : List String :=
  ["snapshot", "deterministic_evidence", "deterministic_candidate_generation",
    "experience_retrieval", "llm_diagnosis", "llm_ranking", "sandbox_evaluation",
    "deterministic_admission"]

structure DiagnosisPipeline where
  provider : AIProvider
  experienceMemory : ExperienceRepository

namespace DiagnosisPipeline

variable {Snapshot World : Type} (pipeline : DiagnosisPipeline)

/-- What the provider says, where all of it is valid. -/
def advise (evidence : String) (memoryRanked : List String) :
    Except ProviderFailure (Diagnosis × CandidateRanking) := do
  let diagnosis ← pipeline.provider.diagnose evidence
  let ranking ← pipeline.provider.rankCandidates memoryRanked
  validateEvidenceRefs diagnosis.evidenceRefs evidence
  validateEvidenceRefs ranking.evidenceRefs evidence
  return (diagnosis, ranking)

/-- AI is advisory-only: its failure leaves an empty ranking. -/
def advised (evidence : String) (memoryRanked : List String) : Diagnosis × CandidateRanking :=
  (pipeline.advise evidence memoryRanked).toOption.getD (unavailableDiagnosis, unavailableRanking)

/-- One bounded candidate through the sandbox and deterministic admission. -/
def evaluate (sandboxEvaluate : String → StateT World (Except PipelineError) String)
    (deterministicAdmit : String → Except PipelineError AdmissionStatus) (candidateId : String) :
    StateT World (Except PipelineError) EvaluatedCandidate := do
  let sandboxResult ← sandboxEvaluate candidateId
  let admissionStatus ← deterministicAdmit sandboxResult
  return { candidateId, sandboxResult, admissionStatus }

/-- Run the complete bounded flow. -/
def run (snapshot : Snapshot) (evidenceBuilder : Snapshot → String)
    (candidateGenerator : String → List String) (experienceEmbedding : Embedding)
    (sandboxEvaluate : String → StateT World (Except PipelineError) String)
    (deterministicAdmit : String → Except PipelineError AdmissionStatus) :
    StateT World (Except PipelineError) (DiagnosisPipelineResult Snapshot) := do
  let evidence := evidenceBuilder snapshot
  let generated := candidateGenerator evidence
  let memoryRanked ← (pipeline.experienceMemory.prioritize generated experienceEmbedding
    true).mapError PipelineError.experience
  let advice := pipeline.advised evidence memoryRanked
  let selected := selectKnownCandidates generated advice.2.candidateIds
  let evaluated ← (selected.take maxInitialCandidates).mapM
    (evaluate sandboxEvaluate deterministicAdmit)
  return {
    snapshot
    evidence
    diagnosis := advice.1
    ranking := advice.2
    evaluated
    stages }

section

variable {sandboxEvaluate : String → StateT World (Except PipelineError) String}
  {deterministicAdmit : String → Except PipelineError AdmissionStatus} {world world' : World}

theorem bind_eq_ok {α β : Type} {x : StateT World (Except PipelineError) α}
    {f : α → StateT World (Except PipelineError) β} {b : β}
    (h : (x >>= f) world = .ok (b, world')) :
    ∃ a world₁, x world = .ok (a, world₁) ∧ f a world₁ = .ok (b, world') := by
  cases hx : x world with
  | error e =>
    rw [show (x >>= f) world = x world >>= fun p => f p.1 p.2 from rfl, hx] at h
    cases h
  | ok p =>
    rw [show (x >>= f) world = x world >>= fun p => f p.1 p.2 from rfl, hx] at h
    exact ⟨p.1, p.2, rfl, h⟩

theorem evaluate_candidateId {candidateId : String} {evaluated : EvaluatedCandidate}
    (h : evaluate sandboxEvaluate deterministicAdmit candidateId world = .ok (evaluated, world')) :
    evaluated.candidateId = candidateId := by
  obtain ⟨sandboxResult, world₁, -, h⟩ := bind_eq_ok h
  obtain ⟨admissionStatus, world₂, -, h⟩ := bind_eq_ok h
  cases h
  rfl

/-- What is evaluated is what was selected, in its order. -/
theorem mapM_evaluate_candidateId {ids : List String} {evaluated : List EvaluatedCandidate}
    (h : ids.mapM (evaluate sandboxEvaluate deterministicAdmit) world = .ok (evaluated, world')) :
    evaluated.map (·.candidateId) = ids := by
  induction ids generalizing world evaluated with
  | nil =>
    cases h
    rfl
  | cons a ids ih =>
    rw [List.mapM_cons] at h
    obtain ⟨first, world₁, hfirst, h⟩ := bind_eq_ok h
    obtain ⟨rest, world₂, hrest, h⟩ := bind_eq_ok h
    cases h
    rw [List.map_cons, evaluate_candidateId hfirst, ih hrest]

variable {pipeline} {snapshot : Snapshot} {evidenceBuilder : Snapshot → String}
  {candidateGenerator : String → List String} {experienceEmbedding : Embedding}
  {result : DiagnosisPipelineResult Snapshot}

theorem run_eq_ok (h : pipeline.run snapshot evidenceBuilder candidateGenerator experienceEmbedding
      sandboxEvaluate deterministicAdmit world = .ok (result, world')) :
    ∃ memoryRanked,
      pipeline.experienceMemory.prioritize (candidateGenerator (evidenceBuilder snapshot))
        experienceEmbedding true = .ok memoryRanked ∧
      result.ranking = (pipeline.advised (evidenceBuilder snapshot) memoryRanked).2 ∧
      result.evaluated.map (·.candidateId) =
        (selectKnownCandidates (candidateGenerator (evidenceBuilder snapshot))
          result.ranking.candidateIds).take maxInitialCandidates := by
  obtain ⟨memoryRanked, world₁, hmemory, h⟩ := bind_eq_ok h
  obtain ⟨evaluated, world₂, hevaluated, h⟩ := bind_eq_ok h
  cases h
  refine ⟨memoryRanked, ?_, rfl, mapM_evaluate_candidateId hevaluated⟩
  cases hprioritized : pipeline.experienceMemory.prioritize
      (candidateGenerator (evidenceBuilder snapshot)) experienceEmbedding true with
  | error e =>
    rw [hprioritized] at hmemory
    cases hmemory
  | ok ranked =>
    rw [hprioritized] at hmemory
    cases hmemory
    rfl

end

/-- The selection is a permutation, and as many distinct candidates are evaluated as there are up to
three, just where the model's ranking, if it is used, names no known candidate twice. -/
theorem run_selected_iff (snapshot : Snapshot) (evidenceBuilder : Snapshot → String)
    (candidateGenerator : String → List String) (experienceEmbedding : Embedding)
    (sandboxEvaluate : String → StateT World (Except PipelineError) String)
    (deterministicAdmit : String → Except PipelineError AdmissionStatus)
    (result : DiagnosisPipelineResult Snapshot) (world world' : World) (generated : List String)
    (hgenerated : candidateGenerator (evidenceBuilder snapshot) = generated)
    (hnodup : generated.Nodup)
    (hrun : pipeline.run snapshot evidenceBuilder candidateGenerator experienceEmbedding
      sandboxEvaluate deterministicAdmit world = .ok (result, world')) :
    ((selectKnownCandidates generated result.ranking.candidateIds).Perm generated ∧
      (result.evaluated.map (·.candidateId)).Nodup ∧
      result.evaluated.length = min maxInitialCandidates generated.length) ↔
    ∀ memoryRanked diagnosis ranking,
      pipeline.experienceMemory.prioritize generated experienceEmbedding true = .ok memoryRanked →
      pipeline.advise (evidenceBuilder snapshot) memoryRanked = .ok (diagnosis, ranking) →
        (ranking.candidateIds.filter (· ∈ generated)).Nodup := by
  obtain ⟨memoryRanked, hmemory, hranking, hevaluated⟩ := run_eq_ok hrun
  rw [hgenerated] at hmemory hevaluated
  have hselected : ((selectKnownCandidates generated result.ranking.candidateIds).Perm generated ∧
      (result.evaluated.map (·.candidateId)).Nodup ∧
      result.evaluated.length = min maxInitialCandidates generated.length) ↔
      (result.ranking.candidateIds.filter (· ∈ generated)).Nodup := by
    rw [← selectKnownCandidates_perm hnodup, and_iff_left_iff_imp]
    intro hperm
    constructor
    · rw [hevaluated]
      exact (hperm.nodup_iff.mpr hnodup).sublist (List.take_sublist _ _)
    · rw [← List.length_map (·.candidateId), hevaluated, List.length_take, hperm.length_eq]
  rw [hselected, hranking, advised]
  cases hadvise : pipeline.advise (evidenceBuilder snapshot) memoryRanked with
  | error e =>
    refine iff_of_true List.nodup_nil ?_
    intro memoryRanked' diagnosis ranking hmemory' hadvise'
    rw [hmemory, Except.ok.injEq] at hmemory'
    rw [← hmemory', hadvise] at hadvise'
    cases hadvise'
  | ok advice =>
    constructor
    · intro h memoryRanked' diagnosis ranking hmemory' hadvise'
      rw [hmemory, Except.ok.injEq] at hmemory'
      rw [← hmemory', hadvise] at hadvise'
      cases hadvise'
      exact h
    · exact fun h => h memoryRanked advice.1 advice.2 hmemory hadvise

/-- A pipeline whose model ranks as told, over a memory without records. -/
def ranking (ranked : List String) : DiagnosisPipeline where
  provider := {
    diagnose := fun _ => .ok unavailableDiagnosis
    rankCandidates := fun _ => .ok { candidateIds := ranked, rationale := ⟨"ranked", by decide⟩ } }
  experienceMemory := ⟨fun _ _ => .ok []⟩

theorem run_selected_iff_foreign : (selectKnownCandidates ["a"] ["x", "a"]).Perm ["a"] ∧
    ["a"].Nodup ∧ ["a"].length = min maxInitialCandidates ["a"].length :=
  (run_selected_iff (ranking ["x", "a"]) () (fun _ => "") (fun _ => ["a"]) []
    (fun candidateId => pure candidateId) (fun _ => .ok AdmissionStatus.admitted) _ () () ["a"] rfl
    (by decide) rfl).mpr (by
      intro memoryRanked diagnosis ranking hmemory hadvise
      cases hadvise
      decide)

/-- A candidate ranked twice is evaluated twice. -/
theorem not_run_selected : ∃ result : DiagnosisPipelineResult Unit,
    (ranking ["a", "a"]).run () (fun _ => "") (fun _ => ["a", "b"]) []
      (fun candidateId => pure candidateId) (fun _ => .ok AdmissionStatus.admitted) () =
        .ok (result, ()) ∧
    result.evaluated.map (·.candidateId) = ["a", "a", "b"] ∧
    ¬ (selectKnownCandidates ["a", "b"] result.ranking.candidateIds).Perm ["a", "b"] :=
  ⟨_, rfl, rfl, by decide⟩

end DiagnosisPipeline

end NoSQLOptimizer.Pipeline
