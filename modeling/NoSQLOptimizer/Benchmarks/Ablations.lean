import NoSQLOptimizer.Candidates.IndexGenerator
import NoSQLOptimizer.Experience.Memory

namespace NoSQLOptimizer.Benchmarks

open Actions Candidates Experience

inductive AblationMode
  | b0Native
  | b1DeterministicNoGate
  | b2LlmRankNoGate
  | b3DeterministicWithGate
  | b4LlmWithGate
  | b5FullWithExperience
  deriving DecidableEq

structure AblationConfiguration where
  deterministicCandidates : Bool
  llmRanking : Bool
  safetyGate : Bool
  experienceMemory : Bool
  sandboxOnly : Bool
  no_gate : safetyGate = false → sandboxOnly = true

/-- `ABLATION_CONFIGURATIONS`. -/
def configurationFor : AblationMode → AblationConfiguration
  | .b0Native => ⟨false, false, false, false, true, fun _ => rfl⟩
  | .b1DeterministicNoGate => ⟨true, false, false, false, true, fun _ => rfl⟩
  | .b2LlmRankNoGate => ⟨true, true, false, false, true, fun _ => rfl⟩
  | .b3DeterministicWithGate => ⟨true, false, true, false, false, fun h => by cases h⟩
  | .b4LlmWithGate => ⟨true, true, true, false, false, fun h => by cases h⟩
  | .b5FullWithExperience => ⟨true, true, true, true, false, fun h => by cases h⟩

/-- A concrete index the candidate arm may create. -/
structure PlannedIndex where
  label : String
  collection : String
  keys : KeyPattern
  name : String
  deriving DecidableEq

/-- The executable semantics resolved for one mode. -/
structure AblationPlan where
  mode : AblationMode
  deterministicCandidates : Bool
  llmRanking : Bool
  safetyGate : Bool
  experienceMemory : Bool
  sandboxOnly : Bool
  candidates : List PlannedIndex
  rankingOrder : List String
  experienceInvoked : Bool

/-- `by_label`: of one label the last candidate counts. -/
def byLabel (candidates : List PlannedIndex) (label : String) : Option PlannedIndex :=
  candidates.reverse.find? (·.label = label)

/-- The highest-ranked candidate, or `none` for the native baseline. -/
def AblationPlan.selectedIndex (plan : AblationPlan) : Option PlannedIndex :=
  (plan.rankingOrder.findSome? (byLabel plan.candidates)).or plan.candidates.head?

inductive PlanError
  | validation (e : ValidationError)
  | value (text : String)
  | experience (e : ExperienceError)
  | ranker (text : String)
  deriving DecidableEq

/-- `_FROZEN_QUERY_SHAPES`, in frozen priority order. -/
def frozenQueryShapes : List (String × FindQueryShape) :=
  [("C1", ⟨"commercebench:orders_by_customer", "commercebench", "orders", ["customer_id"],
      [("_id", -1)], []⟩),
    ("C2", ⟨"commercebench:product_by_category", "commercebench", "products", ["category"], [], []⟩),
    ("C3", ⟨"commercebench:inventory_by_product", "commercebench", "inventory", ["product_id"], [],
      []⟩)]

def plannedIndex (label : String) (action : CreateIndexAction) : PlannedIndex where
  label := label
  collection := action.collection
  keys := keysOf action
  name := action.indexName

section

variable (S : DeterministicIndexGenerator)

/-- The frozen deterministic candidate set. -/
def deterministicCandidates : Except PlanError (List PlannedIndex) := do
  let planned ← frozenQueryShapes.mapM (fun shape =>
    match S.generate shape.2 with
    | .error e => Except.error (.validation e)
    | .ok candidate => .ok (candidate.map (fun candidate => plannedIndex shape.1 candidate.action)))
  return planned.reduceOption

/-- `_validate_permutation`. -/
def validatePermutation (order : List String) (candidates : List PlannedIndex) :
    Except PlanError (List String) :=
  if order.insertionSort (· ≤ ·) ≠ (candidates.map (·.label)).insertionSort (· ≤ ·) then
    .error (.value "ranking must return each candidate handle exactly once")
  else .ok order

abbrev Ranker := List PlannedIndex → Except PlanError (List String)

abbrev Prioritizer := List String → Except PlanError (List String)

/-- A step of the order, where the mode has it and there is something to do it. -/
def reorder (enabled : Bool) (order : Option (Except PlanError (List String)))
    (candidates : List PlannedIndex) (kept : List String) : Except PlanError (List String) :=
  match enabled, order with
  | true, some order => do validatePermutation (← order) candidates
  | _, _ => .ok kept

/-- Resolve a mode into concrete execution semantics. -/
def resolvePlan (mode : AblationMode) (ranker : Option Ranker) (prioritize : Option Prioritizer) :
    Except PlanError AblationPlan := do
  let configuration := configurationFor mode
  if !configuration.deterministicCandidates then
    return {
      mode
      deterministicCandidates := false
      llmRanking := false
      safetyGate := configuration.safetyGate
      experienceMemory := false
      sandboxOnly := configuration.sandboxOnly
      candidates := []
      rankingOrder := []
      experienceInvoked := false }
  let candidates ← deterministicCandidates S
  let order := candidates.map (·.label)
  let order ← reorder configuration.llmRanking (ranker.map (· candidates)) candidates order
  let order ← reorder configuration.experienceMemory (prioritize.map (· order)) candidates order
  return {
    mode
    deterministicCandidates := true
    llmRanking := configuration.llmRanking
    safetyGate := configuration.safetyGate
    experienceMemory := configuration.experienceMemory
    sandboxOnly := configuration.sandboxOnly
    candidates
    rankingOrder := order
    experienceInvoked := configuration.experienceMemory && prioritize.isSome }

/-- `experience_prioritizer`: a memory without any records. -/
def experiencePrioritizer (cosineSimilarity : Embedding → Embedding → ℚ) : Prioritizer :=
  fun order =>
    match (inMemory cosineSimilarity []).prioritize order (List.replicate 768 0) true with
    | .error e => .error (.experience e)
    | .ok order => .ok order

end

theorem frozen_generated (S : DeterministicIndexGenerator) {shape : String × FindQueryShape}
    (h : shape ∈ frozenQueryShapes) : ∃ candidate, S.generate shape.2 = .ok (some candidate) := by
  have hshapes : ∀ shape ∈ frozenQueryShapes, (shape.2.sortFields.map Prod.fst).Nodup ∧
      (1 ≤ shape.2.keys.length ∧ shape.2.keys.length ≤ 5) ∧
      lengthWithin 1 63 shape.2.database ∧ lengthWithin 1 255 shape.2.collection ∧
      (∀ f ∈ shape.2.equalityFields, lengthWithin 1 255 f) ∧
      (∀ key ∈ shape.2.sortFields, IndexField.valid ⟨key.1, key.2⟩) ∧
      ∀ f ∈ shape.2.rangeFields, lengthWithin 1 255 f := by
    decide
  obtain ⟨hsort, hcount, hdatabase, hcollection, hequality, hvalid, hrange⟩ := hshapes shape h
  exact (S.exists_candidate_iff hsort hcount).mpr
    ⟨hdatabase, hcollection, hequality, fun key hkey _ => hvalid key hkey, hrange⟩

/-- One candidate for each frozen shape. -/
theorem deterministicCandidates_labels (S : DeterministicIndexGenerator) : ∃ candidates,
    deterministicCandidates S = .ok candidates ∧ candidates.map (·.label) = ["C1", "C2", "C3"] := by
  obtain ⟨first, hfirst⟩ := frozen_generated S (List.mem_cons_self (l := frozenQueryShapes.tail))
  obtain ⟨second, hsecond⟩ := frozen_generated S
    (List.mem_cons_of_mem _ (List.mem_cons_self (l := frozenQueryShapes.tail.tail)))
  obtain ⟨third, hthird⟩ := frozen_generated S
    (List.mem_cons_of_mem _ (List.mem_cons_of_mem _ (List.mem_cons_self (l := []))))
  refine ⟨[plannedIndex "C1" first.action, plannedIndex "C2" second.action,
    plannedIndex "C3" third.action], ?_, rfl⟩
  simp only [deterministicCandidates, frozenQueryShapes, List.mapM_cons, List.mapM_nil, hfirst,
    hsecond, hthird]
  rfl

section

variable {candidates : List PlannedIndex} {order : List String}

theorem validatePermutation_eq_ok {order' : List String} :
    validatePermutation order candidates = .ok order' ↔
      order' = order ∧ order.Perm (candidates.map (·.label)) := by
  have hperm : order.insertionSort (· ≤ ·) = (candidates.map (·.label)).insertionSort (· ≤ ·) ↔
      order.Perm (candidates.map (·.label)) := by
    constructor
    · intro h
      have hlabels := List.perm_insertionSort (· ≤ ·) (candidates.map (·.label))
      rw [← h] at hlabels
      exact (List.perm_insertionSort (· ≤ ·) order).symm.trans hlabels
    · intro h
      apply List.Perm.eq_of_pairwise (fun a b _ _ => le_antisymm)
        (List.pairwise_insertionSort _ _) (List.pairwise_insertionSort _ _)
      exact (List.perm_insertionSort _ _).trans (h.trans (List.perm_insertionSort _ _).symm)
  unfold validatePermutation
  split
  · next hne =>
    simp only [reduceCtorEq, false_iff, not_and]
    exact fun _ h => hne (hperm.mpr h)
  · next heq =>
    rw [Except.ok.injEq, eq_comm, iff_self_and]
    exact fun _ => hperm.mp (not_not.mp heq)

theorem byLabel_of_mem {label : String} (h : label ∈ candidates.map (·.label)) :
    ∃ c, byLabel candidates label = some c ∧ c.label = label := by
  obtain ⟨c, hc, hlabel⟩ := List.mem_map.mp h
  cases hfind : byLabel candidates label with
  | none =>
    have hne := List.find?_eq_none.mp hfind c (List.mem_reverse.mpr hc)
    exact absurd (by simpa using hlabel) hne
  | some c' => exact ⟨c', rfl, by simpa using List.find?_some hfind⟩

end

/-- The first label of an order selects. -/
theorem selected_eq {candidates : List PlannedIndex} {label : String} (rest : List String)
    (h : label ∈ candidates.map (·.label)) :
    ((label :: rest).findSome? (byLabel candidates)).or candidates.head? =
      byLabel candidates label := by
  obtain ⟨c, hc, -⟩ := byLabel_of_mem h
  rw [List.findSome?_cons, hc]
  rfl

/-- What a memory without records makes of the labels. -/
theorem experiencePrioritizer_eq (cosineSimilarity : Embedding → Embedding → ℚ) {order : List String}
    (h : order.Perm ["C1", "C2", "C3"]) :
    experiencePrioritizer cosineSimilarity order = .ok ["C1", "C2", "C3"] := by
  have hsorted : order.insertionSort (Before (precedents [])) = ["C1", "C2", "C3"] := by
    apply List.Perm.eq_of_pairwise (fun a b _ _ => le_antisymm)
    · apply (List.pairwise_insertionSort (Before (precedents [])) order).imp
      intro a b hab
      rcases hab with hlt | ⟨-, hle⟩
      · cases hlt
      · exact hle
    · decide
    · exact (List.perm_insertionSort _ order).trans h
  have hlength : (List.replicate 768 (0 : ℚ)).length = embeddingDimensions := List.length_replicate
  unfold experiencePrioritizer
  rw [(inMemory cosineSimilarity []).prioritize_eq order (inMemory_nil cosineSimilarity hlength 20),
    hsorted]

section

variable {S : DeterministicIndexGenerator} {ranker : Ranker} {candidates : List PlannedIndex}

/-- The plan of a mode that asks the model, and of one that asks the memory then. -/
theorem resolvePlan_b4 (hcandidates : deterministicCandidates S = .ok candidates) :
    (resolvePlan S .b4LlmWithGate (some ranker) none).map AblationPlan.selectedIndex =
      (do validatePermutation (← ranker candidates) candidates).map
        (fun order : List String =>
          (order.findSome? (byLabel candidates)).or candidates.head?) := by
  simp only [resolvePlan, configurationFor, hcandidates, reorder, Option.map_some, Bool.not_true,
    Bool.false_eq_true, if_false, bind, Except.bind]
  cases ranker candidates with
  | error e => rfl
  | ok order =>
    simp only
    cases validatePermutation order candidates <;> rfl

theorem resolvePlan_b5 {prioritize : Prioritizer}
    (hcandidates : deterministicCandidates S = .ok candidates) :
    (resolvePlan S .b5FullWithExperience (some ranker) (some prioritize)).map
        AblationPlan.selectedIndex =
      (do
        let order ← (do validatePermutation (← ranker candidates) candidates)
        validatePermutation (← prioritize order) candidates).map
          (fun order : List String =>
          (order.findSome? (byLabel candidates)).or candidates.head?) := by
  simp only [resolvePlan, configurationFor, hcandidates, reorder, Option.map_some, Bool.not_true,
    Bool.false_eq_true, if_false, bind, Except.bind]
  cases ranker candidates with
  | error e => rfl
  | ok order =>
    simp only
    cases validatePermutation order candidates with
    | error e => rfl
    | ok order =>
      simp only
      cases prioritize order with
      | error e => rfl
      | ok order =>
        simp only
        cases validatePermutation order candidates <;> rfl

theorem byLabel_injOn {label label' : String} (h : label ∈ candidates.map (·.label))
    (h' : label' ∈ candidates.map (·.label)) :
    byLabel candidates label = byLabel candidates label' ↔ label = label' := by
  obtain ⟨c, hc, hlabel⟩ := byLabel_of_mem h
  obtain ⟨c', hc', hlabel'⟩ := byLabel_of_mem h'
  constructor
  · intro heq
    rw [hc, hc', Option.some.injEq] at heq
    rw [← hlabel, heq, hlabel']
  · exact congrArg (byLabel candidates)

/-- The two modes select one index just where the model ranks the first candidate first. -/
theorem resolvePlan_b5_selected {prioritize : Prioritizer}
    (hprioritize : ∀ order : List String, order.Perm ["C1", "C2", "C3"] →
      prioritize order = .ok ["C1", "C2", "C3"])
    (hcandidates : deterministicCandidates S = .ok candidates)
    (hlabels : candidates.map (·.label) = ["C1", "C2", "C3"]) :
    (resolvePlan S .b5FullWithExperience (some ranker) (some prioritize)).map
        AblationPlan.selectedIndex =
      (resolvePlan S .b4LlmWithGate (some ranker) none).map AblationPlan.selectedIndex ↔
    ∀ order, ranker candidates = .ok order → order.Perm (candidates.map (·.label)) →
      order.head? = some "C1" := by
  rw [resolvePlan_b4 hcandidates, resolvePlan_b5 hcandidates]
  cases hranked : ranker candidates with
  | error e => exact iff_of_true rfl (fun order horder => nomatch horder)
  | ok order =>
    have hranker (P : List String → Prop) :
        (∀ order', Except.ok (ε := PlanError) order = .ok order' → P order') ↔ P order := by
      simp only [Except.ok.injEq, forall_eq']
    rw [hranker]
    by_cases hperm : order.Perm (candidates.map (·.label))
    · rw [forall_prop_of_true hperm]
      have hvalid : validatePermutation order candidates = .ok order :=
        validatePermutation_eq_ok.mpr ⟨rfl, hperm⟩
      have hfirst : validatePermutation ["C1", "C2", "C3"] candidates = .ok ["C1", "C2", "C3"] :=
        validatePermutation_eq_ok.mpr ⟨rfl, hlabels ▸ List.Perm.refl _⟩
      have hprioritized := hprioritize order (hlabels ▸ hperm)
      simp only [bind, Except.bind, hvalid, hprioritized, hfirst, Except.map, Except.ok.injEq]
      cases order with
      | nil => exact absurd (hlabels ▸ hperm).length_eq (by decide)
      | cons label rest =>
        have hlabel : label ∈ candidates.map (·.label) := hperm.subset List.mem_cons_self
        have hone : "C1" ∈ candidates.map (·.label) := hlabels ▸ List.mem_cons_self
        rw [selected_eq _ hone, selected_eq _ hlabel, byLabel_injOn hone hlabel, List.head?_cons,
          Option.some.injEq, eq_comm]
    · refine iff_of_true ?_ (fun h => absurd h hperm)
      have hvalid : validatePermutation order candidates =
          .error (.value "ranking must return each candidate handle exactly once") := by
        cases h : validatePermutation order candidates with
        | ok order' => exact absurd (validatePermutation_eq_ok.mp h).2 hperm
        | error e =>
          unfold validatePermutation at h
          split at h
          · exact h.symm
          · cases h
      simp only [bind, Except.bind, hvalid]

end

/-- The order is one by precedents alone just where the candidates of as many precedents stood by
their ids before, and the mode with the memory selects what the mode without it selects just where
the model's order begins with the first candidate. -/
theorem prioritize_byScore_iff (repository : ExperienceRepository) (candidateIds : List String)
    (embedding : Embedding) (retrieved : List ExperienceRecord)
    (h : repository.nearest embedding 20 = .ok retrieved)
    (cosineSimilarity : Embedding → Embedding → ℚ) (S : DeterministicIndexGenerator)
    (ranker : Ranker) :
    ((∃ order, repository.prioritize candidateIds embedding true = .ok order ∧
        ByScore (precedents retrieved) candidateIds order) ↔
      candidateIds.Pairwise (fun a b => precedents retrieved a = precedents retrieved b → a ≤ b)) ∧
    ((∀ a ∈ candidateIds, precedents retrieved a = 0) →
      (repository.prioritize candidateIds embedding true = .ok candidateIds ↔
        candidateIds.Pairwise (· ≤ ·))) ∧
    ((resolvePlan S .b5FullWithExperience (some ranker)
        (some (experiencePrioritizer cosineSimilarity))).map AblationPlan.selectedIndex =
      (resolvePlan S .b4LlmWithGate (some ranker) none).map AblationPlan.selectedIndex ↔
      ∀ candidates order, deterministicCandidates S = .ok candidates →
        ranker candidates = .ok order → order.Perm (candidates.map (·.label)) →
          order.head? = some "C1") := by
  rw [repository.prioritize_eq candidateIds h]
  refine ⟨?_, ?_, ?_⟩
  · simp only [Except.ok.injEq, exists_eq_left']
    exact byScore_insertionSort_iff
  · intro hnone
    rw [Except.ok.injEq, insertionSort_before_eq_iff]
    apply List.Pairwise.iff_of_mem
    intro a b ha hb
    simp only [Before, hnone a ha, hnone b hb, lt_irrefl, true_and, false_or]
  · obtain ⟨candidates, hcandidates, hlabels⟩ := deterministicCandidates_labels S
    rw [resolvePlan_b5_selected (fun order => experiencePrioritizer_eq cosineSimilarity)
      hcandidates hlabels]
    constructor
    · intro hfirst candidates' order hcandidates'
      rw [hcandidates, Except.ok.injEq] at hcandidates'
      exact hcandidates' ▸ hfirst order
    · exact fun hfirst order => hfirst candidates order hcandidates

/-- One admitted precedent moves its candidate to the front. -/
theorem prioritize_byScore_iff_admitted : ∃ order,
    (inMemory (fun _ _ => 0) [⟨"E1", "C2", "ADMITTED", List.replicate 768 0,
      List.length_replicate⟩]).prioritize ["C1", "C2"] (List.replicate 768 0) true = .ok order ∧
    ByScore (precedents [⟨"E1", "C2", "ADMITTED", List.replicate 768 0, List.length_replicate⟩])
      ["C1", "C2"] order :=
  (prioritize_byScore_iff _ ["C1", "C2"] (List.replicate 768 0) _
    (inMemory_singleton (fun _ _ => 0) _ List.length_replicate) (fun _ _ => 0) ⟨fun _ => ""⟩
    (fun _ => .ok ["C1", "C2", "C3"])).1.mpr (by
      simp only [List.pairwise_cons, List.mem_singleton, forall_eq, List.not_mem_nil, false_implies,
        implies_true, List.Pairwise.nil, and_true]
      decide)

/-- Without any record, two candidates change places. -/
theorem not_prioritize_byScore : ¬ ∃ order,
    (inMemory (fun _ _ => 0) []).prioritize ["C2", "C1"] (List.replicate 768 0) true = .ok order ∧
      ByScore (precedents []) ["C2", "C1"] order := by
  rintro ⟨order, horder, hkept⟩
  have hlength : (List.replicate 768 (0 : ℚ)).length = embeddingDimensions := List.length_replicate
  rw [ExperienceRepository.prioritize_eq _ _ (inMemory_nil _ hlength 20), Except.ok.injEq] at horder
  rw [← horder, byScore_insertionSort_iff] at hkept
  revert hkept
  decide

end NoSQLOptimizer.Benchmarks
