import NoSQLOptimizer.ControlPlane.Tables
import NoSQLOptimizer.Encoding.Json

namespace NoSQLOptimizer.AI

open ControlPlane Encoding

inductive ProviderFailureCode
  | unavailable
  | timeout
  | httpError
  | structuredOutputUnsupported
  | responseSchemaInvalid
  deriving DecidableEq

/-- What an advisory call raises: a `ProviderError`, or anything else. -/
inductive ProviderFailure
  | provider : ProviderFailureCode → Bool → ProviderFailure
  | other
  deriving DecidableEq

inductive DiagnosisFindingType
  | queryLatencyHotspot
  | excessiveDocumentScan
  | excessiveKeyScan
  | filterIndexMismatch
  | sortIndexMismatch
  | workloadSkew
  | readPressure
  | writePressure
  | resourcePressure
  | replicationPressure
  | insufficientEvidence
  deriving DecidableEq

namespace DiagnosisFindingType

def value : DiagnosisFindingType → String
  | queryLatencyHotspot => "QUERY_LATENCY_HOTSPOT"
  | excessiveDocumentScan => "EXCESSIVE_DOCUMENT_SCAN"
  | excessiveKeyScan => "EXCESSIVE_KEY_SCAN"
  | filterIndexMismatch => "FILTER_INDEX_MISMATCH"
  | sortIndexMismatch => "SORT_INDEX_MISMATCH"
  | workloadSkew => "WORKLOAD_SKEW"
  | readPressure => "READ_PRESSURE"
  | writePressure => "WRITE_PRESSURE"
  | resourcePressure => "RESOURCE_PRESSURE"
  | replicationPressure => "REPLICATION_PRESSURE"
  | insufficientEvidence => "INSUFFICIENT_EVIDENCE"

def all : List DiagnosisFindingType :=
  [queryLatencyHotspot, excessiveDocumentScan, excessiveKeyScan, filterIndexMismatch,
    sortIndexMismatch, workloadSkew, readPressure, writePressure, resourcePressure,
    replicationPressure, insufficientEvidence]

def ofValue (s : String) : Option DiagnosisFindingType := all.find? (·.value = s)

@[simp] theorem ofValue_value (t : DiagnosisFindingType) : ofValue t.value = some t := by
  cases t <;> decide +kernel

end DiagnosisFindingType

/-- A string of `Field(min_length=1, max_length=max)`. -/
abbrev Text (max : Nat) := { s : String // 1 ≤ s.length ∧ s.length ≤ max }

structure DiagnosisFinding where
  findingId : Text 128
  findingType : DiagnosisFindingType
  summary : Text 2048
  rationale : Text 4096
  queryShapeIds : List String
  evidenceRefs : { refs : List String // refs ≠ [] }
  deriving DecidableEq

structure DiagnosisArtifactResult where
  findings : List DiagnosisFinding := []
  deriving DecidableEq

structure RankingCandidateInput where
  handle : String
  safeSummary : String
  deriving DecidableEq

structure CandidateHandleRanking where
  candidateHandles : List String
  rationale : { s : String // 1 ≤ s.length }
  reasonsByHandle : List (String × String) := []
  riskNotes : List String := []
  deriving DecidableEq

section Documents

def strings (names : List String) : Json := .list (names.map .str)

def asText (max : Nat) : Json → Option (Text max)
  | .str s => if h : 1 ≤ s.length ∧ s.length ≤ max then some ⟨s, h⟩ else none
  | _ => none

def asStrings : Json → Option (List String)
  | .arr items => items.toList.mapM Json.asStr
  | _ => none

theorem asText_str {max : Nat} (s : Text max) : asText max (.str s.1) = some s := dif_pos s.2

/-- A list read back item by item. -/
theorem mapM_map {α β : Type} {f : β → Option α} {g : α → β} (h : ∀ a, f (g a) = some a)
    (as : List α) : (as.map g).mapM f = some as := by
  induction as with
  | nil => rfl
  | cons a as ih => simp [h, ih]

theorem asStrings_strings (names : List String) : asStrings (strings names) = some names := by
  simp only [asStrings, strings, Json.list, Items.toList_ofList]
  exact mapM_map (f := Json.asStr) (g := Json.str) (fun _ => rfl) names

/-- The fields of an object, where it has no others than these: `extra="forbid"`. -/
def closed (names : List String) : Json → Option Fields
  | .obj fields => if fields.keys.all (names.contains ·) then some fields else none
  | _ => none

namespace DiagnosisFinding

/-- `model_dump(mode="json")`. -/
def dump (f : DiagnosisFinding) : Json :=
  .object [("finding_id", .str f.findingId.1), ("finding_type", .str f.findingType.value),
    ("summary", .str f.summary.1), ("rationale", .str f.rationale.1),
    ("query_shape_ids", strings f.queryShapeIds), ("evidence_refs", strings f.evidenceRefs.1)]

/-- `model_validate`. -/
def validate (j : Json) : Option DiagnosisFinding := do
  let fields ← closed ["finding_id", "finding_type", "summary", "rationale", "query_shape_ids",
    "evidence_refs"] j
  let findingId ← (← fields.lookup "finding_id") |> asText 128
  let findingType ← (← (← fields.lookup "finding_type").asStr) |> DiagnosisFindingType.ofValue
  let summary ← (← fields.lookup "summary") |> asText 2048
  let rationale ← (← fields.lookup "rationale") |> asText 4096
  let queryShapeIds ← ((fields.lookup "query_shape_ids").map asStrings).getD (some [])
  let evidenceRefs ← (← fields.lookup "evidence_refs") |> asStrings
  if h : evidenceRefs ≠ [] then
    return ⟨findingId, findingType, summary, rationale, queryShapeIds, ⟨evidenceRefs, h⟩⟩
  else none

theorem validate_dump (f : DiagnosisFinding) : validate f.dump = some f := by
  have hclosed : closed ["finding_id", "finding_type", "summary", "rationale", "query_shape_ids",
      "evidence_refs"] f.dump = some (.ofList [("finding_id", .str f.findingId.1),
        ("finding_type", .str f.findingType.value), ("summary", .str f.summary.1),
        ("rationale", .str f.rationale.1), ("query_shape_ids", strings f.queryShapeIds),
        ("evidence_refs", strings f.evidenceRefs.1)]) := by
    simp [closed, dump, Json.object, Fields.ofList, Fields.keys]
  have hrefs : asStrings (strings f.evidenceRefs.1) = some f.evidenceRefs.1 := asStrings_strings _
  unfold validate
  refine Option.bind_eq_some_iff.mpr ⟨_, hclosed, ?_⟩
  refine Option.bind_eq_some_iff.mpr ⟨.str f.findingId.1, rfl, ?_⟩
  refine Option.bind_eq_some_iff.mpr ⟨f.findingId, asText_str _, ?_⟩
  refine Option.bind_eq_some_iff.mpr ⟨.str f.findingType.value, rfl, ?_⟩
  refine Option.bind_eq_some_iff.mpr ⟨f.findingType.value, rfl, ?_⟩
  refine Option.bind_eq_some_iff.mpr ⟨f.findingType, DiagnosisFindingType.ofValue_value _, ?_⟩
  refine Option.bind_eq_some_iff.mpr ⟨.str f.summary.1, rfl, ?_⟩
  refine Option.bind_eq_some_iff.mpr ⟨f.summary, asText_str _, ?_⟩
  refine Option.bind_eq_some_iff.mpr ⟨.str f.rationale.1, rfl, ?_⟩
  refine Option.bind_eq_some_iff.mpr ⟨f.rationale, asText_str _, ?_⟩
  refine Option.bind_eq_some_iff.mpr ⟨f.queryShapeIds, asStrings_strings _, ?_⟩
  refine Option.bind_eq_some_iff.mpr ⟨strings f.evidenceRefs.1, rfl, ?_⟩
  refine Option.bind_eq_some_iff.mpr ⟨f.evidenceRefs.1, hrefs, ?_⟩
  exact dif_pos f.evidenceRefs.2

end DiagnosisFinding

namespace DiagnosisArtifactResult

def dump (result : DiagnosisArtifactResult) : Json :=
  .object [("findings", .list (result.findings.map (·.dump)))]

def validate (j : Json) : Option DiagnosisArtifactResult := do
  let fields ← closed ["findings"] j
  match fields.lookup "findings" with
  | none => return {}
  | some (.arr items) => return ⟨← items.toList.mapM DiagnosisFinding.validate⟩
  | some _ => none

theorem validate_dump (result : DiagnosisArtifactResult) : validate result.dump = some result := by
  simp [validate, dump, closed, Json.object, Json.list, Fields.ofList, Fields.keys, Fields.lookup,
    mapM_map DiagnosisFinding.validate_dump]

end DiagnosisArtifactResult

namespace CandidateHandleRanking

def dump (ranking : CandidateHandleRanking) : Json :=
  .object [("candidate_handles", strings ranking.candidateHandles),
    ("rationale", .str ranking.rationale.1),
    ("reasons_by_handle", .object (ranking.reasonsByHandle.map (fun x => (x.1, .str x.2)))),
    ("risk_notes", strings ranking.riskNotes)]

/-- A `dict[str, str]`. -/
def asReasons : Json → Option (List (String × String))
  | .obj fields => fields.toList.mapM (fun x => x.2.asStr.map (x.1, ·))
  | _ => none

def asRationale : Json → Option { s : String // 1 ≤ s.length }
  | .str s => if h : 1 ≤ s.length then some ⟨s, h⟩ else none
  | _ => none

def validate (j : Json) : Option CandidateHandleRanking := do
  let fields ← closed ["candidate_handles", "rationale", "reasons_by_handle", "risk_notes"] j
  let candidateHandles ← (← fields.lookup "candidate_handles") |> asStrings
  let rationale ← (← fields.lookup "rationale") |> asRationale
  let reasonsByHandle ← ((fields.lookup "reasons_by_handle").map asReasons).getD (some [])
  let riskNotes ← ((fields.lookup "risk_notes").map asStrings).getD (some [])
  return ⟨candidateHandles, rationale, reasonsByHandle, riskNotes⟩

theorem asReasons_object (reasons : List (String × String)) :
    asReasons (.object (reasons.map (fun x => (x.1, .str x.2)))) = some reasons := by
  simp only [asReasons, Json.object, Fields.toList_ofList]
  exact mapM_map (f := fun x : String × Json => x.2.asStr.map (x.1, ·))
    (g := fun x => (x.1, .str x.2)) (fun _ => rfl) reasons

theorem validate_dump (ranking : CandidateHandleRanking) :
    validate ranking.dump = some ranking := by
  have hrationale : asRationale (.str ranking.rationale.1) = some ranking.rationale :=
    dif_pos ranking.rationale.2
  have hclosed : closed ["candidate_handles", "rationale", "reasons_by_handle", "risk_notes"]
      ranking.dump = some (.ofList [("candidate_handles", strings ranking.candidateHandles),
        ("rationale", .str ranking.rationale.1),
        ("reasons_by_handle", .object (ranking.reasonsByHandle.map (fun x => (x.1, .str x.2)))),
        ("risk_notes", strings ranking.riskNotes)]) := by
    simp [closed, dump, Json.object, Fields.ofList, Fields.keys]
  unfold validate
  refine Option.bind_eq_some_iff.mpr ⟨_, hclosed, ?_⟩
  refine Option.bind_eq_some_iff.mpr ⟨strings ranking.candidateHandles, rfl, ?_⟩
  refine Option.bind_eq_some_iff.mpr ⟨ranking.candidateHandles, asStrings_strings _, ?_⟩
  refine Option.bind_eq_some_iff.mpr ⟨.str ranking.rationale.1, rfl, ?_⟩
  refine Option.bind_eq_some_iff.mpr ⟨ranking.rationale, hrationale, ?_⟩
  refine Option.bind_eq_some_iff.mpr ⟨ranking.reasonsByHandle, asReasons_object _, ?_⟩
  exact Option.bind_eq_some_iff.mpr ⟨ranking.riskNotes, asStrings_strings _, rfl⟩

end CandidateHandleRanking

end Documents

/-- A row of `ai_invocations`. -/
structure AIInvocation where
  id : Nat
  createdAt : Instant
  optimizationRunId : RunId
  stage : String
  provider : String
  model : String
  promptVersion : String
  schemaVersion : String
  workloadSnapshotId : SnapshotId
  inputHash : String
  sanitizedInput : Json
  outputHash : Option String
  validatedOutput : Option Json
  status : String
  safeErrorCode : Option String
  attemptNumber : Nat
  deriving DecidableEq

end NoSQLOptimizer.AI
