import Mathlib.Data.Multiset.MapFold
import Mathlib.Data.String.Basic

namespace NoSQLOptimizer.Recommendations

inductive QueryRewriteStatus
  | recommended
  | rejectedSafetyInvariant
  deriving DecidableEq

structure ResultDocument where
  documentIdentity : String
  canonicalHash : String
  deriving DecidableEq

structure QueryResult where
  documents : List ResultDocument
  orderingRequired : Bool

structure QueryRewriteRecommendation where
  status : QueryRewriteStatus
  proposedRewrite : String
  reasonCodes : List String

namespace QueryResult

/-- The documents, with no order among them. -/
def contents (result : QueryResult) : Multiset ResultDocument := result.documents

def identities (result : QueryResult) : Multiset String :=
  result.contents.map (·.documentIdentity)

def hashes (result : QueryResult) : Multiset String := result.contents.map (·.canonicalHash)

end QueryResult

/-- `_equivalence_mismatches`. -/
def equivalenceMismatches (baseline sandbox : QueryResult) : List String :=
  (if baseline.documents.length ≠ sandbox.documents.length then ["COUNT_MISMATCH"] else []) ++
  (if baseline.identities ≠ sandbox.identities then ["DOCUMENT_IDENTITY_MISMATCH"] else []) ++
  (if baseline.hashes ≠ sandbox.hashes then ["CANONICAL_HASH_MISMATCH"] else []) ++
  (if baseline.orderingRequired ≠ sandbox.orderingRequired then ["ORDERING_SEMANTICS_MISMATCH"]
    else if baseline.orderingRequired ∧ baseline.documents ≠ sandbox.documents then
      ["ORDERING_MISMATCH"]
    else [])

def QueryRewriteAdvisor.recommend (proposedRewrite : String) (baseline sandbox : QueryResult) :
    QueryRewriteRecommendation :=
  if equivalenceMismatches baseline sandbox ≠ [] then
    ⟨.rejectedSafetyInvariant, proposedRewrite, equivalenceMismatches baseline sandbox⟩
  else ⟨.recommended, proposedRewrite, []⟩

/-- The same documents with the same contents, in the same order where order counts. -/
structure Equivalent (baseline sandbox : QueryResult) : Prop where
  required : baseline.orderingRequired = sandbox.orderingRequired
  contents : baseline.contents = sandbox.contents
  ordered : baseline.orderingRequired = true → baseline.documents = sandbox.documents

/-- No order counts, and the same identities and the same hashes are there, but they go together
in different pairs. -/
structure Reassigned (baseline sandbox : QueryResult) : Prop where
  baselineUnordered : baseline.orderingRequired = false
  sandboxUnordered : sandbox.orderingRequired = false
  identities : baseline.identities = sandbox.identities
  hashes : baseline.hashes = sandbox.hashes
  contents : baseline.contents ≠ sandbox.contents

section

variable {baseline sandbox : QueryResult}

theorem Equivalent.of_documents (hrequired : baseline.orderingRequired = sandbox.orderingRequired)
    (hdocuments : baseline.documents = sandbox.documents) : Equivalent baseline sandbox where
  required := hrequired
  contents := congrArg Multiset.ofList hdocuments
  ordered _ := hdocuments

/-- The count is that of the identities. -/
theorem length_eq_of_identities (h : baseline.identities = sandbox.identities) :
    baseline.documents.length = sandbox.documents.length := by
  have hcard := congrArg Multiset.card h
  rwa [QueryResult.identities, QueryResult.identities, Multiset.card_map, Multiset.card_map]
    at hcard

theorem equivalenceMismatches_eq_nil_iff : equivalenceMismatches baseline sandbox = [] ↔
    baseline.identities = sandbox.identities ∧ baseline.hashes = sandbox.hashes ∧
    baseline.orderingRequired = sandbox.orderingRequired ∧
    (baseline.orderingRequired = true → baseline.documents = sandbox.documents) := by
  rw [equivalenceMismatches]
  constructor
  · intro h
    simp only [List.append_eq_nil_iff, ite_eq_right_iff, ne_eq, reduceCtorEq, imp_false,
      not_not] at h
    obtain ⟨⟨⟨-, hidentities⟩, hhashes⟩, hordering⟩ := h
    split at hordering
    · cases hordering
    · rename_i hrequired
      refine ⟨hidentities, hhashes, not_not.mp hrequired, fun hordered => ?_⟩
      by_contra hne
      rw [if_pos ⟨hordered, hne⟩] at hordering
      cases hordering
  · rintro ⟨hidentities, hhashes, hrequired, hordered⟩
    have hnone : ¬ (baseline.orderingRequired = true ∧ baseline.documents ≠ sandbox.documents) :=
      fun h => h.2 (hordered h.1)
    simp only [length_eq_of_identities hidentities, hidentities, hhashes, hrequired, ne_eq,
      not_true_eq_false, if_false, List.append_nil, List.nil_append]
    rw [hrequired] at hnone
    exact if_neg hnone

theorem recommend_status_iff {proposedRewrite : String} :
    (QueryRewriteAdvisor.recommend proposedRewrite baseline sandbox).status = .recommended ↔
      equivalenceMismatches baseline sandbox = [] := by
  unfold QueryRewriteAdvisor.recommend
  split
  · rename_i h
    simp [h]
  · rename_i h
    simp [not_not.mp h]

/-- What is equivalent is recommended. -/
theorem Equivalent.recommend (h : Equivalent baseline sandbox) (proposedRewrite : String) :
    (QueryRewriteAdvisor.recommend proposedRewrite baseline sandbox).status = .recommended :=
  recommend_status_iff.mpr (equivalenceMismatches_eq_nil_iff.mpr
    ⟨congrArg (Multiset.map _) h.contents, congrArg (Multiset.map _) h.contents, h.required,
      h.ordered⟩)

/-- What is recommended is equivalent, or its hashes were handed on from one to another. -/
theorem equivalent_or_reassigned {proposedRewrite : String}
    (h : (QueryRewriteAdvisor.recommend proposedRewrite baseline sandbox).status = .recommended) :
    Equivalent baseline sandbox ∨ Reassigned baseline sandbox := by
  obtain ⟨hidentities, hhashes, hrequired, hordered⟩ :=
    equivalenceMismatches_eq_nil_iff.mp (recommend_status_iff.mp h)
  by_cases hcontents : baseline.contents = sandbox.contents
  · exact .inl ⟨hrequired, hcontents, hordered⟩
  · cases hbaseline : baseline.orderingRequired with
    | true => exact .inl (.of_documents hrequired (hordered hbaseline))
    | false =>
      exact .inr ⟨hbaseline, hrequired ▸ hbaseline, hidentities, hhashes, hcontents⟩

/-- A document's identity fixes its hash: nothing can be handed on. -/
theorem not_reassigned {hashOf : String → String}
    (hbaseline : ∀ document ∈ baseline.documents,
      document.canonicalHash = hashOf document.documentIdentity)
    (hsandbox : ∀ document ∈ sandbox.documents,
      document.canonicalHash = hashOf document.documentIdentity) :
    ¬ Reassigned baseline sandbox := by
  have hpairs : ∀ result : QueryResult, (∀ document ∈ result.documents,
      document.canonicalHash = hashOf document.documentIdentity) →
      result.contents = result.identities.map (fun identity => ⟨identity, hashOf identity⟩) := by
    intro result hresult
    rw [QueryResult.identities, Multiset.map_map]
    refine (Multiset.map_id _).symm.trans (Multiset.map_congr rfl (fun document hdocument => ?_))
    exact congrArg (ResultDocument.mk document.documentIdentity) (hresult document hdocument)
  intro h
  refine h.contents ?_
  rw [hpairs baseline hbaseline, hpairs sandbox hsandbox, h.identities]

end

/-- A rewrite is recommended just when it is equivalent, so long as no hashes are handed on. -/
theorem recommended_iff_equivalent_iff (proposedRewrite : String) (baseline sandbox : QueryResult) :
    ((QueryRewriteAdvisor.recommend proposedRewrite baseline sandbox).status = .recommended ↔
      Equivalent baseline sandbox) ↔ ¬ Reassigned baseline sandbox := by
  constructor
  · intro hiff hreassigned
    have hstatus : (QueryRewriteAdvisor.recommend proposedRewrite baseline sandbox).status
        = .recommended := by
      refine recommend_status_iff.mpr (equivalenceMismatches_eq_nil_iff.mpr
        ⟨hreassigned.identities, hreassigned.hashes,
          hreassigned.baselineUnordered.trans hreassigned.sandboxUnordered.symm, ?_⟩)
      intro hordered
      rw [hreassigned.baselineUnordered] at hordered
      cases hordered
    exact hreassigned.contents (hiff.mp hstatus).contents
  · intro hnot
    constructor
    · intro hstatus
      exact (equivalent_or_reassigned hstatus).resolve_right hnot
    · intro hequivalent
      exact hequivalent.recommend proposedRewrite

section

def paidAndDue : QueryResult := ⟨[⟨"a", "paid"⟩, ⟨"b", "due"⟩], false⟩

def dueAndPaid : QueryResult := ⟨[⟨"a", "due"⟩, ⟨"b", "paid"⟩], false⟩

/-- The two documents have changed their contents, and the rewrite is recommended. -/
theorem not_recommended_iff_equivalent : ¬ ∀ proposedRewrite baseline sandbox,
    (QueryRewriteAdvisor.recommend proposedRewrite baseline sandbox).status = .recommended ↔
      Equivalent baseline sandbox := by
  intro h
  have hstatus : (QueryRewriteAdvisor.recommend "covered" paidAndDue dueAndPaid).status
      = .recommended := by
    decide +kernel
  have hcontents : paidAndDue.contents ≠ dueAndPaid.contents := by
    unfold QueryResult.contents
    decide +kernel
  exact hcontents ((h "covered" paidAndDue dueAndPaid).mp hstatus).contents

end

end NoSQLOptimizer.Recommendations
