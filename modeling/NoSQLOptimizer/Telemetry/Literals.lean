import NoSQLOptimizer.QueryShapes.Literals
import NoSQLOptimizer.Telemetry.Persistence

namespace NoSQLOptimizer.Telemetry

open Encoding QueryShapes

section

variable {command command' : Document}

theorem structural_eq_of_canonicalize
    (h : canonicalize (.dict command) = canonicalize (.dict command')) :
    command.structural = command'.structural := by
  rw [Document.structural, Document.structural, Json.obj.inj h]

/-- Two commands of one structure are taken for one operation. -/
theorem operationFromCommand_eq {R : Value → Value → Prop}
    (h : Alike R (.dict command) (.dict command')) :
    operationFromCommand command = operationFromCommand command' := by
  have hnames (name : String) : name ∈ command.names ↔ name ∈ command'.names := by
    cases h with
    | literal h => cases h
    | dict hnames _ => rw [Document.mem_names_iff, Document.mem_names_iff, hnames name]
  simp only [operationFromCommand, hnames]

theorem reportedOperation_eq {R : Value → Value → Prop}
    (h : Alike R (.dict command) (.dict command')) (reported : Option Value) :
    reportedOperation command reported = reportedOperation command' reported := by
  unfold reportedOperation
  rw [operationFromCommand_eq h]

end

theorem fromCommandDocument_of_namespace (source : TelemetrySource) {document : Document}
    {ns : String × String} (hns : namespaceOf (document.lookup "ns") = some ns) :
    ∃ successful failure timeout execution,
      fromCommandDocument source document =
        (reportedOperation (commandOf document) (either document "op" "type")).map
          (fun operation => some ⟨source, 1, ns.1, ns.2, operation, (commandOf document).structural,
            successful, failure, timeout, execution⟩) := by
  simp only [fromCommandDocument, hns]
  cases reportedOperation (commandOf document) (either document "op" "type") with
  | error e => exact ⟨none, none, none, none, rfl⟩
  | ok operation => exact ⟨_, _, _, _, rfl⟩

namespace TelemetryPersistenceService

/-- What is stored of a query shape: the observation's shape, and the registered payload and hash. -/
def stored (P : TelemetryPersistenceService) (o : TelemetryObservation) :
    Document × Json × String :=
  (o.normalizedShape, (P.shapeOf o).canonicalShape, (P.shapeOf o).shapeHash)

/-- Commands of one structure with literals of the same types leave one normalized shape, and in one
namespace and of one reported operation one payload and one hash. -/
theorem stored_eq_of_sameShape (P : TelemetryPersistenceService) (source source' : TelemetrySource)
    (document document' : Document)
    (h : SameShape (.dict (commandOf document)) (.dict (commandOf document'))) :
    (∀ o o', fromCommandDocument source document = .ok (some o) →
      fromCommandDocument source' document' = .ok (some o') →
        o.normalizedShape = o'.normalizedShape) ∧
    (document.lookup "ns" = document'.lookup "ns" →
      either document "op" "type" = either document' "op" "type" →
        (fromCommandDocument source document).map (Option.map P.stored) =
          (fromCommandDocument source' document').map (Option.map P.stored)) := by
  have hstructural := structural_eq_of_canonicalize h.canonicalize_eq
  constructor
  · intro o o' ho ho'
    rw [normalizedShape_of_fromCommandDocument ho, normalizedShape_of_fromCommandDocument ho',
      hstructural]
  · intro hns hop
    cases hnamespace : namespaceOf (document.lookup "ns") with
    | none =>
      have hnamespace' := hnamespace
      rw [hns] at hnamespace'
      simp only [fromCommandDocument, hnamespace, hnamespace']
    | some ns =>
      have hnamespace' := hnamespace
      rw [hns] at hnamespace'
      obtain ⟨_, _, _, _, ho⟩ := fromCommandDocument_of_namespace source hnamespace
      obtain ⟨_, _, _, _, ho'⟩ := fromCommandDocument_of_namespace source' hnamespace'
      rw [ho, ho', hop, reportedOperation_eq h, hstructural]
      cases reportedOperation (commandOf document') (either document' "op" "type") with
      | error e => rfl
      | ok operation => rfl

/-- A command with one literal in its filter. -/
def sample (v : Value) : Document :=
  .cons "ns" (.str "shop.orders") (.cons "command" (.dict (.cons "find" (.str "orders")
    (.cons "filter" (.dict (.cons "total" v .nil)) .nil))) .nil)

theorem alike_sample {R : Value → Value → Prop} {v v' : Value} (hstr : ∀ s, R (.str s) (.str s))
    (h : Alike R v v') : Alike R (.dict (commandOf (sample v))) (.dict (commandOf (sample v'))) :=
  .cons "find" (.literal trivial trivial (hstr _)) (.cons "filter" (.cons "total" h .nil) .nil)

theorem stored_eq_of_sameShape_integers :
    (fromCommandDocument .profiler (sample (.int 1))).map (Option.map (stored ⟨Json.text, id⟩)) =
      (fromCommandDocument .profiler (sample (.int 2))).map
        (Option.map (stored ⟨Json.text, id⟩)) :=
  (stored_eq_of_sameShape ⟨Json.text, id⟩ .profiler .profiler (sample (.int 1)) (sample (.int 2))
    (alike_sample (fun _ => trivial) (.literal trivial trivial trivial))).2 rfl rfl

/-- Canonicalizing is idempotent where every literal is a string, and the hash of what has been
normalized is that of the query where every literal of it is; the hash does not tell queries of one
structure apart at all. -/
theorem persisted_hash_iff (P : TelemetryPersistenceService) (hsha : Function.Injective P.sha256) :
    (∀ v, JsonShaped v → (canonicalize (Value.ofJson (canonicalize v)) = canonicalize v ↔
      ∀ leaf, Occurs leaf v → leaf.IsString)) ∧
    (∀ source document o, fromCommandDocument source document = .ok (some o) →
      JsonShaped (.dict (commandOf document)) →
        ((P.shapeOf o).shapeHash = (register P.sha256 o.operation (P.namespaceName o)
            (commandOf document) none).shapeHash ↔
          ∀ leaf, Occurs leaf (.dict (commandOf document)) → leaf.IsString)) ∧
    ∀ source source' document document' o o',
      fromCommandDocument source document = .ok (some o) →
        fromCommandDocument source' document' = .ok (some o') →
          o.operation = o'.operation → P.namespaceName o = P.namespaceName o' →
            SameStructure (.dict (commandOf document)) (.dict (commandOf document')) →
              (P.shapeOf o).shapeHash = (P.shapeOf o').shapeHash := by
  refine ⟨fun v => canonicalize_structural_iff_strings, ?_, ?_⟩
  · intro source document o ho hjson
    rw [shapeOf, register_hash, register_hash, hsha.eq_iff, register_canonicalShape_inj,
      normalizedShape_of_fromCommandDocument ho, ← structural_dict]
    exact canonicalize_structural_iff_strings hjson
  · intro source source' document document' o o' ho ho' hoperation hnamespace h
    have hshape := h.structural.canonicalize_eq
    rw [structural_dict, structural_dict, ← normalizedShape_of_fromCommandDocument ho,
      ← normalizedShape_of_fromCommandDocument ho'] at hshape
    rw [shapeOf, shapeOf, register_hash, register_hash, hoperation, hnamespace,
      register_canonicalShape_inj.mpr hshape]

theorem occurs_str {leaf : Value} {s : String} : Occurs leaf (.str s) ↔ leaf = .str s :=
  occurs_literal (v := .str s) trivial

theorem persisted_hash_iff_text :
    canonicalize (Value.ofJson (canonicalize (.str "x"))) = canonicalize (.str "x") :=
  ((persisted_hash_iff ⟨Json.text, id⟩ Json.text_injective).1 (.str "x")
    (fun _ _ h => nomatch occurs_str.mp h)).mpr (by
      intro leaf h
      rw [occurs_str.mp h]
      trivial)

/-- An integer becomes its token, and the token a string, so that its query is stored as that of a
string. -/
theorem not_canonicalize_idem :
    canonicalize (Value.ofJson (canonicalize (.int 1))) ≠ canonicalize (.int 1) ∧
    canonicalize (.dict (commandOf (sample (.int 1)))) ≠
      canonicalize (.dict (commandOf (sample (.str "x")))) ∧
    canonicalize (.dict (commandOf (sample (.int 1))).structural) =
      canonicalize (.dict (commandOf (sample (.str "x"))).structural) := by
  decide

end TelemetryPersistenceService

end NoSQLOptimizer.Telemetry
