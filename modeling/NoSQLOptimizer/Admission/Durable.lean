import Mathlib.Data.Finset.Dedup
import Mathlib.Data.List.AList
import Mathlib.Data.List.Find
import NoSQLOptimizer.Admission.Pairs
import NoSQLOptimizer.ControlPlane.Tables

namespace NoSQLOptimizer.Admission

open ControlPlane (RunId CandidateId CandidateStatus bind_eq_ok)

variable {F : Type}

/-- The profile as the columns store it. -/
def BenchmarkProfile.value : BenchmarkProfile → String
  | .smoke => "SMOKE"
  | .autonomous => "AUTONOMOUS"
  | .publication => "PUBLICATION"

theorem BenchmarkProfile.value_injective : Function.Injective BenchmarkProfile.value := by
  intro a b h
  cases a <;> cases b <;> first | rfl | exact absurd h (by decide)

theorem tryValue_productionEligible {α : Type} {x : Except PyError α} {eligible : Bool}
    {handled result : AdmissionResult F} {next : α → Except PyError (AdmissionResult F)}
    (h : tryValue x handled next = .ok result) (hhandled : handled.productionEligible = eligible)
    (hnext : ∀ a, next a = .ok result → result.productionEligible = eligible) :
    result.productionEligible = eligible := by
  rcases tryValue_ok.mp h with ⟨a, -, ha⟩ | ⟨-, rfl⟩
  · exact hnext a ha
  · exact hhandled

section

variable [Numerics F]

theorem judge_productionEligible {request : AdmissionRequest F} {primary : MetricEvaluationInput F}
    {requiredPairs : Int} {byMetric : AList (fun _ : String => Int)} {result : AdmissionResult F}
    (h : judge request primary requiredPairs byMetric = .ok result) :
    result.productionEligible = (profiles (F := F) request.profile).productionEligible := by
  unfold judge at h
  split at h
  · cases h
    rfl
  · refine tryValue_productionEligible h rfl (fun g hg => ?_)
    dsimp only at hg
    split at hg
    · cases hg
      rfl
    · split at hg <;>
      · cases hg
        rfl

/-- Whatever the verdict, the flag is that of the request's profile. -/
theorem evaluate_productionEligible {request : AdmissionRequest F} {result : AdmissionResult F}
    (h : evaluateCandidateAdmission request = .ok result) :
    result.productionEligible = (profiles (F := F) request.profile).productionEligible := by
  unfold evaluateCandidateAdmission at h
  dsimp only at h
  split at h
  · cases h
    rfl
  · split at h
    · cases h
      rfl
    · split at h
      · cases h
        rfl
      · split at h
        · cases h
          rfl
        · split at h
          · exact judge_productionEligible h
          · refine tryValue_productionEligible h rfl (fun n hn => ?_)
            split at hn
            · cases hn
              rfl
            · exact tryValue_productionEligible hn rfl (fun _ h => judge_productionEligible h)

end

namespace Durable

inductive Error
  | value : String → Error
  | evaluation : PyError → Error
  | key
  | integrity : String → Error
  deriving DecidableEq

/-- SHA-256 over JSON: of one verdict's evidence, and of all that an artifact was decided from. -/
class Hashing (F : Type) where
  evidence : AdmissionResult F → String
  artifact : RunId → Nat → List (CandidateId × AdmissionResult F) → Option CandidateId → Bool → String

structure EvaluationPlan extends ControlPlane.EvaluationPlan where
  id : Nat

structure AdmissionDecision where
  verdict : AdmissionStatus
  evidenceHash : String

structure AdmissionArtifact extends ControlPlane.AdmissionArtifact where
  id : Nat
  optimizationRunId : RunId
  evaluationPlanId : Nat
  artifactFingerprint : String

structure DurableAdmissionResult where
  artifactId : Nat
  selectedCandidateId : Option CandidateId
  admittedCandidateIds : List CandidateId
  productionEligible : Bool
  deriving DecidableEq

structure Store where
  plans : RunId → Option EvaluationPlan := fun _ => none
  candidates : CandidateId → Option CandidateStatus := fun _ => none
  decisions : CandidateId → Option AdmissionDecision := fun _ => none
  artifacts : List AdmissionArtifact := []

def AdmissionArtifact.result (a : AdmissionArtifact) : DurableAdmissionResult :=
  ⟨a.id, a.selectedCandidateId, a.admittedCandidateIds, a.productionEligible⟩

namespace Store

def artifactOf (s : Store) (run : RunId) : Option AdmissionArtifact :=
  s.artifacts.find? (·.optimizationRunId = run)

/-- `uuid4()`: an id that no row has. -/
def freshArtifactId (s : Store) : Nat := s.artifacts.foldr (fun a n => max (a.id + 1) n) 0

/-- One decision for a candidate that exists. -/
def createDecision (s : Store) (c : CandidateId) (decision : AdmissionDecision) :
    Except Error Store :=
  if s.candidates c = none then .error (.integrity "admission_decisions_candidate_id_fkey")
  else if (s.decisions c).isSome then .error (.integrity "admission_decisions_candidate_id_key")
  else .ok { s with decisions := Function.update s.decisions c (some decision) }

def setCandidateStatus (s : Store) (c : CandidateId) (status : CandidateStatus) : Store :=
  { s with candidates := Function.update s.candidates c ((s.candidates c).map (fun _ => status)) }

def createArtifact (s : Store) (a : AdmissionArtifact) : Except Error Store :=
  if s.artifacts.any (·.optimizationRunId = a.optimizationRunId) then
    .error (.integrity "admission_artifacts_optimization_run_id_key")
  else if s.artifacts.any (·.artifactFingerprint = a.artifactFingerprint) then
    .error (.integrity "admission_artifacts_artifact_fingerprint_key")
  else .ok { s with artifacts := a :: s.artifacts }

end Store

/-- The requests, under the candidates they are for. -/
abbrev Requests (F : Type) := AList (fun _ : CandidateId => AdmissionRequest F)

/-- What the loop over the ranked candidates has gathered. -/
structure Progress (F : Type) where
  store : Store
  admitted : List CandidateId := []
  productionEligibleByCandidate : AList (fun _ : CandidateId => Bool) := ∅
  evidence : List (CandidateId × AdmissionResult F) := []

/-- What a verdict adds, and the status it gives the candidate. -/
def Progress.record (p : Progress F) (store : Store) (c : CandidateId)
    (result : AdmissionResult F) : Progress F :=
  let evidence := p.evidence ++ [(c, result)]
  if result.status = .admitted then
    { store := store.setCandidateStatus c .admitted
      admitted := p.admitted ++ [c]
      productionEligibleByCandidate :=
        p.productionEligibleByCandidate.insert c result.productionEligible
      evidence := evidence }
  else { p with store := store.setCandidateStatus c .rejected, evidence := evidence }

section Calls

variable [Numerics F] [Hashing F]

/-- `evaluate_candidate_admission(requests[candidate_id])` -/
def evaluate (requests : Requests F) (c : CandidateId) : Except Error (AdmissionResult F) :=
  match requests.lookup c with
  | none => .error .key
  | some request => (evaluateCandidateAdmission request).mapError .evaluation

def decideCandidate (requests : Requests F) (p : Progress F) (c : CandidateId) :
    Except Error (Progress F) := do
  let result ← evaluate requests c
  let store ← p.store.createDecision c ⟨result.status, Hashing.evidence result⟩
  return p.record store c result

/-- `DurableAdmissionService.decide_for_run`: one transaction, so that an error leaves the store as it
was. -/
def decideForRun (s : Store) (run : RunId) (requests : Requests F) :
    Except Error (Store × DurableAdmissionResult) :=
  match s.artifactOf run with
  | some existing => .ok (s, existing.result)
  | none =>
    match s.plans run with
    | none => .error (.value "durable evaluation plan is required before admission")
    | some plan => do
      let ranked := plan.selectedCandidateIds
      if requests.keys.toFinset ≠ ranked.toFinset then
        throw (.value "admission requests must exactly match frozen evaluation selection")
      else
        let p ← ranked.foldlM (decideCandidate requests) { store := s }
        let selected := ranked.find? (· ∈ p.admitted)
        let productionEligible :=
          selected.any (fun c => (p.productionEligibleByCandidate.lookup c).getD false)
        let artifact : AdmissionArtifact :=
          { id := p.store.freshArtifactId
            optimizationRunId := run
            evaluationPlanId := plan.id
            selectedCandidateId := selected
            admittedCandidateIds := p.admitted
            productionEligible := productionEligible
            artifactFingerprint :=
              Hashing.artifact run plan.id p.evidence selected productionEligible }
        return (← p.store.createArtifact artifact, artifact.result)

end Calls

section

variable [Numerics F]

/-- The candidate's own request is admitted. -/
def admits (requests : Requests F) (c : CandidateId) : Bool :=
  match evaluate requests c with
  | .ok result => result.status = .admitted
  | .error _ => false

def eligible (requests : Requests F) (c : CandidateId) : Bool :=
  match evaluate requests c with
  | .ok result => result.productionEligible
  | .error _ => false

def evidenceOf (requests : Requests F) (ranked : List CandidateId) :
    List (CandidateId × AdmissionResult F) :=
  ranked.filterMap (fun c => (evaluate requests c).toOption.map (fun result => (c, result)))

/-- The first candidate in ranked order whose request is admitted. -/
def firstAdmitted (requests : Requests F) (ranked : List CandidateId) : Option CandidateId :=
  ranked.find? (admits requests)

/-- The candidate exists, has no decision yet, and its request evaluates. -/
def Open (s : Store) (requests : Requests F) (c : CandidateId) : Prop :=
  s.candidates c ≠ none ∧ s.decisions c = none ∧ ∃ result, evaluate requests c = .ok result

/-- The selected candidate's own profile is production eligible. -/
def eligibleOf (requests : Requests F) (ranked : List CandidateId) : Bool :=
  (firstAdmitted requests ranked).any (eligible requests)

/-- The run is undecided, its plan lists exactly the candidates that have a request, each of them is
open, and no other artifact has the new one's fingerprint. -/
structure Accepts [Hashing F] (s : Store) (run : RunId) (requests : Requests F)
    (plan : EvaluationPlan) : Prop where
  undecided : s.artifactOf run = none
  planned : s.plans run = some plan
  listed : requests.keys.toFinset = plan.selectedCandidateIds.toFinset
  distinct : plan.selectedCandidateIds.Nodup
  isOpen : ∀ c ∈ plan.selectedCandidateIds, Open s requests c
  fresh : ∀ a ∈ s.artifacts, a.artifactFingerprint ≠
    Hashing.artifact run plan.id (evidenceOf requests plan.selectedCandidateIds)
      (firstAdmitted requests plan.selectedCandidateIds)
      (eligibleOf requests plan.selectedCandidateIds)

/-- Every request names the candidate it is filed under, and the plan's profile. -/
def Filed (requests : Requests F) (plan : EvaluationPlan) : Prop :=
  ∀ c request, requests.lookup c = some request →
    request.candidateId = toString c ∧ request.profile.value = plan.profile

/-- What the loop has gathered once it is past the candidates in `done`. -/
structure Gathered (s : Store) (requests : Requests F) (done : List CandidateId) (p : Progress F) :
    Prop where
  admitted : p.admitted = done.filter (admits requests)
  evidence : p.evidence = evidenceOf requests done
  artifacts : p.store.artifacts = s.artifacts
  candidates : ∀ c, p.store.candidates c = none ↔ s.candidates c = none
  decisions : ∀ c, p.store.decisions c = none ↔ s.decisions c = none ∧ c ∉ done
  eligible : ∀ c ∈ done, admits requests c = true →
    p.productionEligibleByCandidate.lookup c = some (eligible requests c)

end

section

variable {s s' : Store} {requests : Requests F} {done ranked : List CandidateId}
  {p p' : Progress F} {c : CandidateId}

theorem Store.createDecision_ok {decision : AdmissionDecision} :
    s.createDecision c decision = .ok s' ↔ s.candidates c ≠ none ∧ s.decisions c = none ∧
      s' = { s with decisions := Function.update s.decisions c (some decision) } := by
  unfold Store.createDecision
  by_cases hcandidate : s.candidates c = none
  · simp [hcandidate]
  · cases hdecision : s.decisions c with
    | none => simp [hcandidate, eq_comm]
    | some d => simp [hcandidate]

theorem Store.createArtifact_ok {a : AdmissionArtifact} (h : s.createArtifact a = .ok s') :
    (∀ b ∈ s.artifacts, b.artifactFingerprint ≠ a.artifactFingerprint) ∧
      s' = { s with artifacts := a :: s.artifacts } := by
  unfold Store.createArtifact at h
  split at h
  · cases h
  · split at h
    · cases h
    · next hfresh =>
      cases h
      exact ⟨by simpa using hfresh, rfl⟩

theorem Store.createArtifact_fresh {a : AdmissionArtifact}
    (hrun : ∀ b ∈ s.artifacts, b.optimizationRunId ≠ a.optimizationRunId)
    (hfresh : ∀ b ∈ s.artifacts, b.artifactFingerprint ≠ a.artifactFingerprint) :
    s.createArtifact a = .ok { s with artifacts := a :: s.artifacts } := by
  have hany : s.artifacts.any (·.optimizationRunId = a.optimizationRunId) = false := by
    simpa using hrun
  have hany' : s.artifacts.any (·.artifactFingerprint = a.artifactFingerprint) = false := by
    simpa using hfresh
  simp only [Store.createArtifact, hany, hany', Bool.false_eq_true, if_false]

theorem Store.setCandidateStatus_none {status : CandidateStatus} {c' : CandidateId} :
    (s.setCandidateStatus c status).candidates c' = none ↔ s.candidates c' = none := by
  by_cases hc : c' = c
  · subst hc
    simp [Store.setCandidateStatus]
  · simp [Store.setCandidateStatus, Function.update_of_ne hc]

variable [Numerics F]

theorem Gathered.nil : Gathered s requests [] { store := s } := by
  refine ⟨rfl, rfl, rfl, fun c => Iff.rfl, fun c => ?_, nofun⟩
  simp

theorem find?_mem_filter {f : CandidateId → Bool} :
    ranked.find? (· ∈ ranked.filter f) = ranked.find? f :=
  List.find?_congr (fun c hc => by simp [hc])

/-- What the loop's end is turned into. -/
theorem Gathered.selected (h : Gathered s requests ranked p) :
    ranked.find? (· ∈ p.admitted) = firstAdmitted requests ranked := by
  rw [h.admitted]
  exact find?_mem_filter

theorem Gathered.productionEligible (h : Gathered s requests ranked p) :
    (firstAdmitted requests ranked).any
      (fun c => (p.productionEligibleByCandidate.lookup c).getD false) =
    eligibleOf requests ranked := by
  unfold eligibleOf
  cases hfirst : firstAdmitted requests ranked with
  | none => rfl
  | some c =>
    have hmem := List.mem_of_find?_eq_some hfirst
    have hadmits := List.find?_some hfirst
    rw [Option.any_some, Option.any_some, h.eligible c hmem hadmits, Option.getD_some]

theorem eligibleOf_filed {plan : EvaluationPlan} (hfiled : Filed requests plan)
    (h : eligibleOf requests ranked = true) : ∃ profile : BenchmarkProfile,
      profile.value = plan.profile ∧ (profiles (F := F) profile).productionEligible = true := by
  obtain ⟨c, hc⟩ : ∃ c, eligible requests c = true := by
    unfold eligibleOf at h
    cases hfirst : firstAdmitted requests ranked with
    | none =>
      rw [hfirst] at h
      cases h
    | some c =>
      rw [hfirst] at h
      exact ⟨c, h⟩
  unfold eligible at hc
  cases hresult : evaluate requests c with
  | error e =>
    rw [hresult] at hc
    cases hc
  | ok result =>
    rw [hresult] at hc
    unfold evaluate at hresult
    cases hrequest : requests.lookup c with
    | none =>
      rw [hrequest] at hresult
      cases hresult
    | some request =>
      rw [hrequest] at hresult
      dsimp only at hresult
      cases heval : evaluateCandidateAdmission request with
      | error e =>
        rw [heval] at hresult
        cases hresult
      | ok evaluated =>
        rw [heval] at hresult
        cases hresult
        exact ⟨request.profile, (hfiled c request hrequest).2,
          (evaluate_productionEligible heval).symm.trans hc⟩

variable [Hashing F]

theorem decideCandidate_ok :
    decideCandidate requests p c = .ok p' ↔ ∃ result store, evaluate requests c = .ok result ∧
      p.store.createDecision c ⟨result.status, Hashing.evidence result⟩ = .ok store ∧
      p' = p.record store c result := by
  constructor
  · intro h
    obtain ⟨result, hresult, h⟩ := bind_eq_ok.mp h
    obtain ⟨store, hstore, h⟩ := bind_eq_ok.mp h
    cases h
    exact ⟨result, store, hresult, hstore, rfl⟩
  · rintro ⟨result, store, hresult, hstore, rfl⟩
    simp only [decideCandidate, hresult, hstore, bind, Except.bind]
    rfl

theorem Gathered.record (h : Gathered s requests done p) {result : AdmissionResult F}
    (hresult : evaluate requests c = .ok result) {store : Store}
    (hstore : p.store.createDecision c ⟨result.status, Hashing.evidence result⟩ = .ok store) :
    Gathered s requests (done ++ [c]) (p.record store c result) := by
  obtain ⟨-, -, rfl⟩ := Store.createDecision_ok.mp hstore
  have hevidence : p.evidence ++ [(c, result)] = evidenceOf requests (done ++ [c]) := by
    rw [h.evidence, evidenceOf, evidenceOf, List.filterMap_append]
    simp [hresult, Except.toOption]
  have hdecisions (c' : CandidateId) {d : AdmissionDecision} :
      Function.update p.store.decisions c (some d) c' = none ↔
        s.decisions c' = none ∧ c' ∉ done ++ [c] := by
    by_cases hc : c' = c
    · subst hc
      simp
    · rw [Function.update_of_ne hc, h.decisions]
      simp [hc]
  unfold Progress.record
  by_cases hadmitted : result.status = .admitted
  · have hadmits : admits requests c = true := by simp [admits, hresult, hadmitted]
    rw [if_pos hadmitted]
    refine ⟨?_, hevidence, h.artifacts, fun c' => ?_, fun c' => hdecisions c',
      fun c' hc' hadmits' => ?_⟩
    · simp [h.admitted, hadmits]
    · rw [Store.setCandidateStatus_none]
      exact h.candidates c'
    · by_cases hc : c' = c
      · subst hc
        simp [Durable.eligible, hresult]
      · rw [AList.lookup_insert_ne hc]
        exact h.eligible c' (by simpa [hc] using hc') hadmits'
  · have hadmits : admits requests c = false := by simp [admits, hresult, hadmitted]
    rw [if_neg hadmitted]
    refine ⟨?_, hevidence, h.artifacts, fun c' => ?_, fun c' => hdecisions c',
      fun c' hc' hadmits' => ?_⟩
    · simp [h.admitted, hadmits]
    · rw [Store.setCandidateStatus_none]
      exact h.candidates c'
    · by_cases hc : c' = c
      · subst hc
        rw [hadmits] at hadmits'
        cases hadmits'
      · exact h.eligible c' (by simpa [hc] using hc') hadmits'

theorem Gathered.open_of_ok (h : Gathered s requests done p)
    (hok : decideCandidate requests p c = .ok p') :
    c ∉ done ∧ Open s requests c ∧ Gathered s requests (done ++ [c]) p' := by
  obtain ⟨result, store, hresult, hstore, rfl⟩ := decideCandidate_ok.mp hok
  obtain ⟨hcandidate, hdecision, -⟩ := Store.createDecision_ok.mp hstore
  obtain ⟨hdecision, hdone⟩ := (h.decisions c).mp hdecision
  exact ⟨hdone, ⟨fun hno => hcandidate ((h.candidates c).mpr hno), hdecision, result, hresult⟩,
    h.record hresult hstore⟩

theorem Gathered.ok_of_open (h : Gathered s requests done p) (hdone : c ∉ done)
    (hopen : Open s requests c) :
    ∃ p', decideCandidate requests p c = .ok p' ∧ Gathered s requests (done ++ [c]) p' := by
  obtain ⟨hcandidate, hdecision, result, hresult⟩ := hopen
  have hstore : ∃ store,
      p.store.createDecision c ⟨result.status, Hashing.evidence result⟩ = .ok store :=
    ⟨_, Store.createDecision_ok.mpr ⟨fun hno => hcandidate ((h.candidates c).mp hno),
      (h.decisions c).mpr ⟨hdecision, hdone⟩, rfl⟩⟩
  obtain ⟨store, hstore⟩ := hstore
  exact ⟨_, decideCandidate_ok.mpr ⟨result, store, hresult, hstore, rfl⟩, h.record hresult hstore⟩

/-- The loop goes through exactly where every candidate is open, and none is listed twice. -/
theorem Gathered.of_foldlM (h : Gathered s requests done p)
    (hok : ranked.foldlM (decideCandidate requests) p = .ok p') :
    ranked.Nodup ∧ (∀ c ∈ ranked, c ∉ done ∧ Open s requests c) ∧
      Gathered s requests (done ++ ranked) p' := by
  induction ranked generalizing done p with
  | nil =>
    cases hok
    exact ⟨.nil, nofun, (List.append_nil done).symm ▸ h⟩
  | cons c ranked ih =>
    obtain ⟨next, hnext, hok⟩ := bind_eq_ok.mp hok
    obtain ⟨hdone, hopen, hgathered⟩ := h.open_of_ok hnext
    obtain ⟨hnodup, hrest, hfinal⟩ := ih hgathered hok
    refine ⟨List.nodup_cons.mpr ⟨fun hmem => (hrest c hmem).1 (by simp), hnodup⟩, ?_, ?_⟩
    · intro c' hc'
      rcases List.mem_cons.mp hc' with rfl | hc'
      · exact ⟨hdone, hopen⟩
      · exact ⟨fun hmem => (hrest c' hc').1 (List.mem_append_left _ hmem), (hrest c' hc').2⟩
    · simpa using hfinal

theorem Gathered.foldlM_ok (h : Gathered s requests done p) (hnodup : ranked.Nodup)
    (hopen : ∀ c ∈ ranked, c ∉ done ∧ Open s requests c) :
    ∃ p', ranked.foldlM (decideCandidate requests) p = .ok p' := by
  induction ranked generalizing done p with
  | nil => exact ⟨p, rfl⟩
  | cons c ranked ih =>
    obtain ⟨hc, hnodup⟩ := List.nodup_cons.mp hnodup
    obtain ⟨hdone, hfirst⟩ := hopen c List.mem_cons_self
    obtain ⟨next, hnext, hgathered⟩ := h.ok_of_open hdone hfirst
    have hrest (c' : CandidateId) (hc' : c' ∈ ranked) :
        c' ∉ done ++ [c] ∧ Open s requests c' := by
      obtain ⟨hdone', hopen'⟩ := hopen c' (List.mem_cons_of_mem c hc')
      refine ⟨fun hmem => ?_, hopen'⟩
      rcases List.mem_append.mp hmem with hmem | hmem
      · exact hdone' hmem
      · exact hc (List.mem_singleton.mp hmem ▸ hc')
    obtain ⟨p', hp'⟩ := ih hgathered hnodup hrest
    exact ⟨p', by rw [List.foldlM_cons, hnext]; exact hp'⟩

/-- What a deciding call that goes through has found, and what it returns and leaves. -/
theorem decideForRun_accepts {run : RunId} {result : DurableAdmissionResult}
    (hnone : s.artifactOf run = none) (h : decideForRun s run requests = .ok (s', result)) :
    ∃ plan, Accepts s run requests plan ∧
      result.selectedCandidateId = firstAdmitted requests plan.selectedCandidateIds ∧
      result.productionEligible = eligibleOf requests plan.selectedCandidateIds ∧
      ∃ a, s'.artifactOf run = some a ∧ a.result = result := by
  unfold decideForRun at h
  rw [hnone] at h
  cases hplan : s.plans run with
  | none =>
    rw [hplan] at h
    cases h
  | some plan =>
    rw [hplan] at h
    dsimp only at h
    by_cases hlisted : requests.keys.toFinset = plan.selectedCandidateIds.toFinset
    · rw [if_neg (not_not.mpr hlisted)] at h
      obtain ⟨p, hp, h⟩ := bind_eq_ok.mp h
      obtain ⟨store, hstore, h⟩ := bind_eq_ok.mp h
      cases h
      obtain ⟨hnodup, hopen, hgathered⟩ := Gathered.nil.of_foldlM hp
      rw [List.nil_append] at hgathered
      obtain ⟨hfresh, rfl⟩ := Store.createArtifact_ok hstore
      rw [hgathered.selected, hgathered.productionEligible, hgathered.evidence,
        hgathered.artifacts] at hfresh
      refine ⟨plan, ⟨hnone, hplan, hlisted, hnodup, fun c hc => (hopen c hc).2, hfresh⟩,
        hgathered.selected, ?_, _, ?_, rfl⟩
      · change Option.any _ (plan.selectedCandidateIds.find? _) = _
        rw [hgathered.selected]
        exact hgathered.productionEligible
      · simp [Store.artifactOf]
    · rw [if_pos hlisted] at h
      cases h

theorem Accepts.ok {run : RunId} {plan : EvaluationPlan} (h : Accepts s run requests plan) :
    ∃ s' result, decideForRun s run requests = .ok (s', result) := by
  obtain ⟨p, hp⟩ := Gathered.nil.foldlM_ok h.distinct (fun c hc => ⟨nofun, h.isOpen c hc⟩)
  obtain ⟨-, -, hgathered⟩ := Gathered.nil.of_foldlM hp
  rw [List.nil_append] at hgathered
  have hfresh := h.fresh
  rw [← hgathered.productionEligible, ← hgathered.evidence, ← hgathered.selected,
    ← hgathered.artifacts] at hfresh
  have hundecided : ∀ a ∈ p.store.artifacts, a.optimizationRunId ≠ run := by
    rw [hgathered.artifacts]
    simpa [Store.artifactOf] using h.undecided
  unfold decideForRun
  rw [h.undecided, h.planned]
  dsimp only
  rw [if_neg (not_not.mpr h.listed), hp]
  dsimp only [bind, Except.bind]
  rw [Store.createArtifact_fresh hundecided]
  · exact ⟨_, _, rfl⟩
  · exact hfresh

/-- A run that has its artifact gets it back, whatever the requests are. -/
theorem decideForRun_again {run : RunId} {result : DurableAdmissionResult}
    (h : decideForRun s run requests = .ok (s', result)) (requests' : Requests F) :
    decideForRun s' run requests' = .ok (s', result) := by
  have hartifact : ∃ a, s'.artifactOf run = some a ∧ a.result = result := by
    cases hex : s.artifactOf run with
    | none =>
      obtain ⟨-, -, -, -, ha⟩ := decideForRun_accepts hex h
      exact ha
    | some a =>
      simp only [decideForRun, hex] at h
      cases h
      exact ⟨a, hex, rfl⟩
  obtain ⟨a, ha, rfl⟩ := hartifact
  simp only [decideForRun, ha]

/-- What a decision says, if it is bound to the plan. -/
structure Bound (requests : Requests F) (plan : EvaluationPlan) (result : DurableAdmissionResult) :
    Prop where
  filed : Filed requests plan
  eligible : result.productionEligible = true → ∃ profile : BenchmarkProfile,
    profile.value = plan.profile ∧ (profiles (F := F) profile).productionEligible = true
  selected : result.selectedCandidateId = firstAdmitted requests plan.selectedCandidateIds

/-- A call that is not refused decides in a way that is bound to the run's plan; of a run that is
decided already it returns the decision. -/
def IsBound (s : Store) (run : RunId) (requests : Requests F) : Prop :=
  ∀ s' result, decideForRun s run requests = .ok (s', result) →
    (∀ a, s.artifactOf run = some a → s' = s ∧ result = a.result) ∧
    (s.artifactOf run = none → ∃ plan, s.plans run = some plan ∧ Bound requests plan result)

/-- The decision is bound to the plan exactly where no mapping is accepted whose requests are not those
of the candidates and of the profile they are filed under. -/
theorem isBound_iff (s : Store) (run : RunId) (requests : Requests F) :
    IsBound s run requests ↔ ∀ plan, Accepts s run requests plan → Filed requests plan := by
  constructor
  · intro h plan haccepts
    obtain ⟨s', result, hok⟩ := haccepts.ok
    obtain ⟨plan', hplan', hbound⟩ := (h s' result hok).2 haccepts.undecided
    obtain rfl := Option.some.inj (haccepts.planned.symm.trans hplan')
    exact hbound.filed
  · intro h s' result hok
    refine ⟨fun a ha => ?_, fun hnone => ?_⟩
    · simp only [decideForRun, ha] at hok
      cases hok
      exact ⟨rfl, rfl⟩
    · obtain ⟨plan, haccepts, hselected, heligible, -⟩ := decideForRun_accepts hnone hok
      have hfiled := h plan haccepts
      refine ⟨plan, haccepts.planned, hfiled, fun hresult => ?_, hselected⟩
      exact eligibleOf_filed hfiled (heligible.symm.trans hresult)

end

section

local instance : Numerics ℚ := rationals

local instance : Hashing ℚ := ⟨fun _ => "evidence", fun _ _ _ _ _ => "artifact"⟩

/-- One candidate is to be evaluated with a profile that is not production eligible. -/
def smokePlanned : Store where
  plans run := if run = 1 then some ⟨⟨"SMOKE", [1]⟩, 1⟩ else none
  candidates c := if c = 1 then some .evaluating else none

/-- Another candidate's request, with another profile, is filed under it. -/
def misfiled : Requests ℚ := AList.singleton 1 threePairs

theorem misfiled_evaluates : ∃ result, evaluate misfiled 1 = .ok result ∧
    result.status = .admitted ∧ result.productionEligible = true := by
  obtain ⟨byMetric, g, hpasses⟩ := threePairs_passes
  obtain ⟨result, hresult, hstatus⟩ := hpasses.admitted
  refine ⟨result, ?_, hstatus, evaluate_productionEligible hresult⟩
  have hlookup : misfiled.lookup 1 = some threePairs := rfl
  simp only [evaluate, hlookup, hresult]
  rfl

theorem misfiled_accepted : Accepts smokePlanned 1 misfiled ⟨⟨"SMOKE", [1]⟩, 1⟩ := by
  refine ⟨rfl, rfl, rfl, by decide, fun c hc => ?_, nofun⟩
  obtain rfl := List.mem_singleton.mp hc
  obtain ⟨result, hresult, -⟩ := misfiled_evaluates
  exact ⟨nofun, rfl, result, hresult⟩

/-- A request of another candidate makes the selected candidate of a SMOKE plan production
eligible. -/
theorem not_isBound_misfiled :
    (∃ s' result, decideForRun smokePlanned 1 misfiled = .ok (s', result) ∧
      result.selectedCandidateId = some 1 ∧ result.productionEligible = true) ∧
    ¬ IsBound smokePlanned 1 misfiled := by
  obtain ⟨s', result, hok⟩ := misfiled_accepted.ok
  obtain ⟨plan, haccepts, hselected, heligible, -⟩ := decideForRun_accepts rfl hok
  obtain rfl := Option.some.inj haccepts.planned
  obtain ⟨evaluated, hevaluated, hstatus, hflag⟩ := misfiled_evaluates
  have hfirst : firstAdmitted misfiled [1] = some 1 := by
    simp [firstAdmitted, admits, hevaluated, hstatus]
  refine ⟨⟨s', result, hok, hselected.trans hfirst, heligible.trans ?_⟩, fun h => ?_⟩
  · simp [eligibleOf, hfirst, eligible, hevaluated, hflag]
  · obtain ⟨plan, hplan, hbound⟩ := (h s' result hok).2 rfl
    obtain rfl := Option.some.inj hplan
    exact absurd (hbound.filed 1 threePairs rfl).2 (by decide)

end

end Durable

end NoSQLOptimizer.Admission
