import Mathlib.Data.List.Sort
import Mathlib.Algebra.Order.Ring.Rat
import Mathlib.Data.String.Basic

namespace NoSQLOptimizer.Experience

section

variable {α : Type} [LinearOrder α] {score : α → ℕ} {as bs : List α}

/-- The higher score first, and of one score the smaller item. -/
def Before (score : α → ℕ) (a b : α) : Prop :=
  score b < score a ∨ score a = score b ∧ a ≤ b

instance (score : α → ℕ) : DecidableRel (Before score) := fun a b =>
  inferInstanceAs (Decidable (score b < score a ∨ score a = score b ∧ a ≤ b))

instance (score : α → ℕ) : Std.Total (Before score) where
  total a b := by
    rcases lt_trichotomy (score a) (score b) with h | h | h
    · exact .inr (.inl h)
    · exact (le_total a b).imp (fun hab => .inr ⟨h, hab⟩) (fun hba => .inr ⟨h.symm, hba⟩)
    · exact .inl (.inl h)

instance (score : α → ℕ) : IsTrans α (Before score) where
  trans a b c hab hbc := by
    rcases hab with hab | ⟨hab, hab'⟩
    · rcases hbc with hbc | ⟨hbc, -⟩
      · exact .inl (hbc.trans hab)
      · exact .inl (hbc ▸ hab)
    · rcases hbc with hbc | ⟨hbc, hbc'⟩
      · exact .inl (hab ▸ hbc)
      · exact .inr ⟨hab.trans hbc, hab'.trans hbc'⟩

/-- A reordering by a score alone: items of one score keep their order. -/
structure ByScore (score : α → ℕ) (as bs : List α) : Prop where
  perm : bs.Perm as
  higher : bs.Pairwise (fun a b => score b ≤ score a)
  kept : ∀ n, bs.filter (score · = n) = as.filter (score · = n)

/-- Breaking ties by the items themselves is a reordering by the score alone just where the ties stood
in that order before. -/
theorem byScore_insertionSort_iff : ByScore score as (as.insertionSort (Before score)) ↔
    as.Pairwise (fun a b => score a = score b → a ≤ b) := by
  have hsorted : (as.insertionSort (Before score)).Pairwise (Before score) :=
    List.pairwise_insertionSort _ as
  have hperm : (as.insertionSort (Before score)).Perm as := List.perm_insertionSort _ as
  have hties (n : ℕ) : ((as.insertionSort (Before score)).filter (score · = n)).Pairwise (· ≤ ·) := by
    rw [List.pairwise_filter]
    apply hsorted.imp
    intro a b hab ha hb
    simp only [decide_eq_true_eq] at ha hb
    rcases hab with hlt | ⟨-, hle⟩
    · omega
    · exact hle
  constructor
  · intro h
    have hclass (n : ℕ) : as.Pairwise (fun a b => score a = n → score b = n → a ≤ b) := by
      have hfilter := hties n
      rw [h.kept n, List.pairwise_filter] at hfilter
      simpa only [decide_eq_true_eq] using hfilter
    apply List.pairwise_iff_getElem.mpr
    intro i j hi hj hij heq
    exact List.pairwise_iff_getElem.mp (hclass (score as[j])) i j hi hj hij heq rfl
  · intro h
    refine ⟨hperm, hsorted.imp (fun hab => ?_), fun n => ?_⟩
    · rcases hab with hlt | ⟨heq, -⟩
      · exact hlt.le
      · exact heq.ge
    · apply (hperm.filter (score · = n)).eq_of_pairwise ?_ (hties n)
      · rw [List.pairwise_filter]
        apply h.imp
        intro a b hab ha hb
        simp only [decide_eq_true_eq] at ha hb
        exact hab (ha.trans hb.symm)
      · exact fun a b _ _ => le_antisymm

theorem insertionSort_before_eq_iff :
    as.insertionSort (Before score) = as ↔ as.Pairwise (Before score) := by
  constructor
  · intro h
    exact h ▸ List.pairwise_insertionSort (Before score) as
  · exact List.Pairwise.insertionSort_eq

end

def embeddingDimensions : ℕ := 768

abbrev Embedding := List ℚ

/-- A literal-safe historical outcome. -/
structure ExperienceRecord where
  experienceId : String
  candidateId : String
  outcome : String
  embedding : Embedding
  dimensions : embedding.length = embeddingDimensions

inductive ExperienceError
  | value (text : String)
  deriving DecidableEq

/-- Whatever retrieves the nearest records, so many of them at most. -/
structure ExperienceRepository where
  nearest : Embedding → ℕ → Except ExperienceError (List ExperienceRecord)

/-- `InMemoryExperienceRepository`: the more similar first, then by id. -/
def inMemory (cosineSimilarity : Embedding → Embedding → ℚ) (records : List ExperienceRecord) :
    ExperienceRepository where
  nearest embedding limit :=
    if embedding.length ≠ embeddingDimensions then
      .error (.value "Experience embeddings must have exactly 768 dimensions.")
    else .ok ((records.insertionSort (fun a b =>
      cosineSimilarity embedding b.embedding < cosineSimilarity embedding a.embedding ∨
        cosineSimilarity embedding a.embedding = cosineSimilarity embedding b.embedding ∧
          a.experienceId ≤ b.experienceId)).take limit)

theorem inMemory_nil (cosineSimilarity : Embedding → Embedding → ℚ) {embedding : Embedding}
    (h : embedding.length = embeddingDimensions) (limit : ℕ) :
    (inMemory cosineSimilarity []).nearest embedding limit = .ok [] := by
  simp [inMemory, h]

theorem inMemory_singleton (cosineSimilarity : Embedding → Embedding → ℚ) {embedding : Embedding}
    (record : ExperienceRecord) (h : embedding.length = embeddingDimensions) :
    (inMemory cosineSimilarity [record]).nearest embedding 20 = .ok [record] := by
  simp [inMemory, h]

/-- The admitted precedents of a candidate among the records retrieved. -/
def precedents (retrieved : List ExperienceRecord) (candidateId : String) : ℕ :=
  retrieved.countP (fun record => record.candidateId = candidateId ∧ record.outcome = "ADMITTED")

/-- Reorder candidates by relevant positive history. -/
def ExperienceRepository.prioritize (repository : ExperienceRepository) (candidateIds : List String)
    (embedding : Embedding) (enabled : Bool) : Except ExperienceError (List String) :=
  if !enabled then .ok candidateIds
  else do
    let retrieved ← repository.nearest embedding 20
    return candidateIds.insertionSort (Before (precedents retrieved))

theorem ExperienceRepository.prioritize_eq (repository : ExperienceRepository)
    (candidateIds : List String) {embedding : Embedding} {retrieved : List ExperienceRecord}
    (h : repository.nearest embedding 20 = .ok retrieved) :
    repository.prioritize candidateIds embedding true =
      .ok (candidateIds.insertionSort (Before (precedents retrieved))) := by
  simp only [prioritize, Bool.not_true, Bool.false_eq_true, if_false, h]
  rfl

end NoSQLOptimizer.Experience
