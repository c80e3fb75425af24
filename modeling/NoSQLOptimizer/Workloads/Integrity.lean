import NoSQLOptimizer.ControlPlane.Rows
import NoSQLOptimizer.Telemetry.Persistence
import NoSQLOptimizer.Workloads.Interference

namespace NoSQLOptimizer.Workloads

open ControlPlane Encoding

/-- `SnapshotRead`: a snapshot with the rows below it, as they were read. -/
structure SnapshotRead (δ : Type) where
  metadata : WorkloadSnapshot δ
  sourceWindows : List WindowId
  queryShapes : List ShapeEvidence
  metrics : List MetricEvidence

section

variable {δ : Type}

/-- What `read` may return of a snapshot: each `ORDER BY` leaves rows of one key in any order. -/
structure Reads (a : WorkloadSnapshot δ) (view : SnapshotRead δ) : Prop where
  metadata : view.metadata = a
  sources : view.sourceWindows.Perm a.sourceWindows
  sourcesOrdered : view.sourceWindows.Pairwise (· ≤ ·)
  shapes : view.queryShapes.Perm a.queryShapes
  shapesOrdered : view.queryShapes.Pairwise (·.queryShapeHash ≤ ·.queryShapeHash)
  metrics : view.metrics.Perm a.metrics
  metricsOrdered : view.metrics.Pairwise
    (·.sourceMetricObservationId ≤ ·.sourceMetricObservationId)

/-- What is hashed of a view. -/
def SnapshotRead.document (view : SnapshotRead δ) : Json :=
  digestInput view.metadata.targetId view.metadata.sourceRunId view.metadata.observedFrom
    view.metadata.observedUntil view.metadata.anchorAt view.metadata.summary
    view.metadata.completeness view.sourceWindows view.queryShapes view.metrics

/-- `verify_snapshot_integrity`, of what was read. -/
def WorkloadSnapshotService.verifyRead [DecidableEq δ] (S : WorkloadSnapshotService δ)
    (view : SnapshotRead δ) : Bool :=
  S.sha256 view.document.canonical = view.metadata.fingerprint

/-- The snapshots have one evidence: their hashed fields agree, and so do the rows below them. -/
structure SameEvidence (a b : WorkloadSnapshot δ) : Prop where
  targetId : a.targetId = b.targetId
  sourceRunId : a.sourceRunId = b.sourceRunId
  observedFrom : a.observedFrom = b.observedFrom
  observedUntil : a.observedUntil = b.observedUntil
  anchorAt : a.anchorAt = b.anchorAt
  summary : a.summary.canonical = b.summary.canonical
  completeness : a.completeness.canonical = b.completeness.canonical
  sources : a.sourceWindows.Perm b.sourceWindows
  shapes : a.queryShapes.Perm b.queryShapes
  metrics : a.metrics.Perm b.metrics

/-- One row is changed, added or removed. -/
inductive RowChange {ρ : Type} : List ρ → List ρ → Prop
  | changed (before after : List ρ) {row row' : ρ} (h : row ≠ row') :
      RowChange (before ++ row :: after) (before ++ row' :: after)
  | added (before after : List ρ) (row : ρ) :
      RowChange (before ++ after) (before ++ row :: after)
  | removed (before after : List ρ) (row : ρ) :
      RowChange (before ++ row :: after) (before ++ after)

/-- One hashed field of the parent row is changed, or one row below it. -/
inductive Tampered (a : WorkloadSnapshot δ) : WorkloadSnapshot δ → Prop
  | targetId {value : TargetId} (h : a.targetId ≠ value) : Tampered a { a with targetId := value }
  | sourceRunId {value : RunId} (h : a.sourceRunId ≠ value) :
      Tampered a { a with sourceRunId := value }
  | observedFrom {value : Instant} (h : a.observedFrom ≠ value) :
      Tampered a { a with observedFrom := value }
  | observedUntil {value : Instant} (h : a.observedUntil ≠ value) :
      Tampered a { a with observedUntil := value }
  | anchorAt {value : Instant} (h : a.anchorAt ≠ value) : Tampered a { a with anchorAt := value }
  | summary {value : Json} (h : a.summary.canonical ≠ value.canonical) :
      Tampered a { a with summary := value }
  | completeness {value : Json} (h : a.completeness.canonical ≠ value.canonical) :
      Tampered a { a with completeness := value }
  | sources {rows : List WindowId} (h : RowChange a.sourceWindows rows) :
      Tampered a { a with sourceWindows := rows }
  | shapes {rows : List ShapeEvidence} (h : RowChange a.queryShapes rows) :
      Tampered a { a with queryShapes := rows }
  | metrics {rows : List MetricEvidence} (h : RowChange a.metrics rows) :
      Tampered a { a with metrics := rows }

theorem RowChange.not_perm {ρ : Type} {rows rows' : List ρ} (h : RowChange rows rows') :
    ¬ rows.Perm rows' := by
  classical
  intro hperm
  cases h with
  | @changed before after row row' hne =>
    have hcount := hperm.count_eq row
    simp [List.count_append, hne.symm] at hcount
  | added before after row =>
    have hlength := hperm.length_eq
    simp at hlength
  | removed before after row =>
    have hlength := hperm.length_eq
    simp at hlength

theorem Tampered.not_same {a b : WorkloadSnapshot δ} (h : Tampered a b) : ¬ SameEvidence a b := by
  intro hsame
  cases h with
  | targetId h => exact h hsame.targetId
  | sourceRunId h => exact h hsame.sourceRunId
  | observedFrom h => exact h hsame.observedFrom
  | observedUntil h => exact h hsame.observedUntil
  | anchorAt h => exact h hsame.anchorAt
  | summary h => exact h hsame.summary
  | completeness h => exact h hsame.completeness
  | sources h => exact h.not_perm hsame.sources
  | shapes h => exact h.not_perm hsame.shapes
  | metrics h => exact h.not_perm hsame.metrics

theorem Tampered.fingerprint {a b : WorkloadSnapshot δ} (h : Tampered a b) :
    b.fingerprint = a.fingerprint := by
  cases h <;> rfl

end

section Documents

theorem number_inj {p q : ℚ} (h : (number p).canonical = (number q).canonical) : p = q :=
  toString_injective (Json.float.inj h)

theorem optional_inj {α : Type} {encode : α → Json}
    (hinj : ∀ a b, (encode a).canonical = (encode b).canonical → a = b)
    (hnull : ∀ a, (encode a).canonical ≠ .null) {a b : Option α}
    (h : (optional encode a).canonical = (optional encode b).canonical) : a = b := by
  cases a with
  | none =>
    cases b with
    | none => rfl
    | some b => exact absurd h.symm (hnull b)
  | some a =>
    cases b with
    | none => exact absurd h (hnull a)
    | some b => rw [hinj a b h]

theorem optional_int_inj {a b : Option Int}
    (h : (optional .int a).canonical = (optional .int b).canonical) : a = b :=
  optional_inj (fun a b (h : (Json.int a).canonical = (Json.int b).canonical) => Json.int.inj h)
    (fun _ h => by cases h) h

theorem optional_number_inj {a b : Option ℚ}
    (h : (optional number a).canonical = (optional number b).canonical) : a = b :=
  optional_inj (fun _ _ h => number_inj h) (fun _ h => by cases h) h

theorem MetricEvidence.document_inj {m m' : MetricEvidence}
    (h : m.document.canonical = m'.document.canonical) : m = m' := by
  have hget := Json.get_canonical_congr h
  cases m
  cases m'
  congr
  · exact Int.ofNat.inj (Json.int.inj (hget "source_metric_observation_id"))
  · exact Json.str.inj (hget "scope")
  · exact Json.str.inj (hget "metric_name")
  · exact number_inj (hget "metric_value")

theorem ShapeEvidence.document_inj {e e' : ShapeEvidence}
    (h : e.document.canonical = e'.document.canonical) : e = e' := by
  have hget := Json.get_canonical_congr h
  cases e
  cases e'
  congr
  · exact Int.ofNat.inj (Json.int.inj (hget "query_shape_id"))
  · exact Json.str.inj (hget "query_shape_hash")
  · exact Json.str.inj (hget "operation")
  · exact Json.str.inj (hget "namespace")
  · exact Json.int.inj (hget "observed_operation_count")
  · exact optional_int_inj (hget "successful_operation_count")
  · exact optional_int_inj (hget "failure_count")
  · exact optional_int_inj (hget "timeout_count")
  · exact optional_number_inj (hget "aggregate_execution_time_ms")
  · exact number_inj (hget "workload_operation_share")
  · exact optional_number_inj (hget "execution_time_share")
  · exact Json.bool.inj (hget "manually_critical")
  · exact Json.bool.inj (hget "protected_manual_critical")
  · exact Json.bool.inj (hget "protected_operation_share")
  · exact Json.bool.inj (hget "protected_execution_time_share")
  · exact Json.bool.inj (hget "base_protected")
  · exact Json.str.inj (hget "provider")

end Documents

section

variable {δ : Type}

/-- Equal documents are of equal evidence, listed in the same order. -/
theorem SnapshotRead.document_inj {v w : SnapshotRead δ}
    (h : v.document.canonical = w.document.canonical) :
    v.metadata.targetId = w.metadata.targetId ∧
      v.metadata.sourceRunId = w.metadata.sourceRunId ∧
      v.metadata.observedFrom = w.metadata.observedFrom ∧
      v.metadata.observedUntil = w.metadata.observedUntil ∧
      v.metadata.anchorAt = w.metadata.anchorAt ∧
      v.metadata.summary.canonical = w.metadata.summary.canonical ∧
      v.metadata.completeness.canonical = w.metadata.completeness.canonical ∧
      v.sourceWindows = w.sourceWindows ∧ v.queryShapes = w.queryShapes ∧
      v.metrics = w.metrics := by
  have hget := Json.get_canonical_congr h
  refine ⟨Int.ofNat.inj (Json.int.inj (hget "target_id")),
    Int.ofNat.inj (Json.int.inj (hget "source_run_id")), Json.int.inj (hget "observed_from"),
    Json.int.inj (hget "observed_until"), Json.int.inj (hget "anchor_at"), hget "summary",
    hget "completeness", ?_, ?_, ?_⟩
  · have hsources := Json.list_inj (fun a b (h : (Json.int a).canonical = (Json.int b).canonical) =>
      Json.int.inj h) (hget "sources")
    simp only [bind_pure_comp, List.map_eq_map] at hsources
    exact List.map_injective_iff.mpr Int.ofNat_injective hsources
  · exact Json.list_inj (fun _ _ => ShapeEvidence.document_inj) (hget "shapes")
  · exact Json.list_inj (fun _ _ => MetricEvidence.document_inj) (hget "metrics")

/-- Its rows as they are hashed when a snapshot is made. -/
def WorkloadSnapshot.view (a : WorkloadSnapshot δ) : SnapshotRead δ where
  metadata := a
  sourceWindows := a.sourceWindows.insertionSort (· ≤ ·)
  queryShapes := a.queryShapes
  metrics := a.metrics

/-- The fingerprint is that of the rows, which are in order, with no two rows of one key. -/
structure Fingerprinted (S : WorkloadSnapshotService δ) (a : WorkloadSnapshot δ) : Prop where
  fingerprint : a.fingerprint = S.sha256 a.view.document.canonical
  shapesOrdered : a.queryShapes.Pairwise (·.queryShapeHash ≤ ·.queryShapeHash)
  shapes : (a.queryShapes.map (·.queryShapeHash)).Nodup
  metricsOrdered : a.metrics.Pairwise (·.sourceMetricObservationId ≤ ·.sourceMetricObservationId)
  metrics : (a.metrics.map (·.sourceMetricObservationId)).Nodup

variable {S : WorkloadSnapshotService δ} {a b : WorkloadSnapshot δ} {view : SnapshotRead δ}

/-- Every read of the same evidence is of the same document. -/
theorem Fingerprinted.document_eq (ha : Fingerprinted S a) (hsame : SameEvidence a b)
    (hview : Reads b view) : view.document.canonical = a.view.document.canonical := by
  have hsources : view.sourceWindows = a.view.sourceWindows := by
    apply List.Perm.eq_of_pairwise' hview.sourcesOrdered (List.pairwise_insertionSort _ _)
    exact (hview.sources.trans hsame.sources.symm).trans (List.perm_insertionSort _ _).symm
  have hshapes : view.queryShapes = a.view.queryShapes :=
    eq_of_perm_of_key (·.queryShapeHash) (hview.shapes.trans hsame.shapes.symm) ha.shapes
      hview.shapesOrdered ha.shapesOrdered
  have hmetrics : view.metrics = a.view.metrics :=
    eq_of_perm_of_key (·.sourceMetricObservationId) (hview.metrics.trans hsame.metrics.symm)
      ha.metrics hview.metricsOrdered ha.metricsOrdered
  obtain rfl := hview.metadata
  simp only [SnapshotRead.document, hsources, hshapes, hmetrics, digestInput, Json.object,
    Fields.ofList, Json.canonical, Fields.canonical, WorkloadSnapshot.view, ← hsame.targetId,
    ← hsame.sourceRunId, ← hsame.observedFrom, ← hsame.observedUntil, ← hsame.anchorAt,
    ← hsame.summary, ← hsame.completeness]

/-- Where the fingerprint is kept, exactly the same evidence is accepted. -/
theorem Fingerprinted.verifyRead_iff [DecidableEq δ] (hinj : Function.Injective S.sha256)
    (ha : Fingerprinted S a) (hprint : b.fingerprint = a.fingerprint) (hview : Reads b view) :
    S.verifyRead view = true ↔ SameEvidence a b := by
  rw [WorkloadSnapshotService.verifyRead, decide_eq_true_eq, hview.metadata, hprint,
    ha.fingerprint]
  constructor
  · intro h
    obtain ⟨htarget, hrun, hfrom, huntil, hanchor, hsummary, hcompleteness, hsources, hshapes,
      hmetrics⟩ := SnapshotRead.document_inj (hinj h)
    rw [hview.metadata] at htarget hrun hfrom huntil hanchor hsummary hcompleteness
    refine ⟨htarget.symm, hrun.symm, hfrom.symm, huntil.symm, hanchor.symm, hsummary.symm,
      hcompleteness.symm, ?_, ?_, ?_⟩
    · exact ((List.perm_insertionSort _ _).symm.trans (.of_eq hsources.symm)).trans hview.sources
    · exact (List.Perm.of_eq hshapes.symm).trans hview.shapes
    · exact (List.Perm.of_eq hmetrics.symm).trans hview.metrics
  · intro hsame
    exact congrArg S.sha256 (ha.document_eq hsame hview)

end

section Grouping

/-- What is grouped is of the shapes that were grouped already, or of the one that is added. -/
theorem shape_mem_groupShape {shape : QueryShape} {name : String} {value : ℚ} {d : ShapeTotals}
    {grouped : List ShapeTotals} (h : d ∈ groupShape shape name value grouped) :
    d.shape = shape ∨ ∃ d' ∈ grouped, d'.shape = d.shape := by
  fun_induction groupShape shape name value grouped with
  | case1 =>
    obtain rfl := List.mem_singleton.mp h
    exact .inl (shape_observe _ _ _)
  | case2 a grouped _ =>
    rcases List.mem_cons.mp h with rfl | h
    · exact .inr ⟨a, List.mem_cons_self, (shape_observe _ _ _).symm⟩
    · exact .inr ⟨d, List.mem_cons_of_mem _ h, rfl⟩
  | case3 a grouped _ ih =>
    rcases List.mem_cons.mp h with rfl | h
    · exact .inr ⟨d, List.mem_cons_self, rfl⟩
    · rcases ih h with hshape | ⟨d', hd', hshape⟩
      · exact .inl hshape
      · exact .inr ⟨d', List.mem_cons_of_mem _ hd', hshape⟩

theorem shape_mem_foldl {rows : List MetricObservation} {d : ShapeTotals}
    {grouped : List ShapeTotals} (h : d ∈ rows.foldl groupObservation grouped) :
    (∃ o ∈ rows, o.queryShape = some d.shape) ∨ ∃ d' ∈ grouped, d'.shape = d.shape := by
  induction rows generalizing grouped with
  | nil => exact .inr ⟨d, h, rfl⟩
  | cons o rows ih =>
    rcases ih h with ⟨o', ho', hshape⟩ | ⟨d', hd', hshape⟩
    · exact .inl ⟨o', List.mem_cons_of_mem _ ho', hshape⟩
    · unfold groupObservation at hd'
      split at hd'
      · exact .inr ⟨d', hd', hshape⟩
      · next shape ho =>
        rcases shape_mem_groupShape hd' with hd' | ⟨d'', hd'', hsame⟩
        · exact .inl ⟨o, List.mem_cons_self, by rw [ho, ← hshape, hd']⟩
        · exact .inr ⟨d'', hd'', hsame.trans hshape⟩

end Grouping

/-- Among these observations the hash of a shape names it. -/
def HashNamesShape (rows : List MetricObservation) : Prop :=
  ∀ o ∈ rows, ∀ o' ∈ rows, ∀ a ∈ o.queryShape, ∀ a' ∈ o'.queryShape,
    a.shapeHash = a'.shapeHash → a.id = a'.id

section

variable {δ : Type} {S : WorkloadSnapshotService δ} {s t : Database δ} {r : RunId}
  {target : TargetId} {windows : List TelemetryWindow} {anchor : Instant} {material : Material δ}

theorem buildMaterial_fingerprinted (hhash : HashNamesShape (s.telemetry.observed windows))
    (h : S.buildMaterial s windows target anchor r = .ok material) (id : SnapshotId) :
    Fingerprinted S (material.snapshot id r target windows anchor) := by
  have hmetrics := (buildMaterial_insertable h).metrics
  simp only [WorkloadSnapshotService.buildMaterial] at h
  obtain ⟨-, h⟩ := require_bind_eq_ok.mp h
  obtain ⟨-, h⟩ := require_bind_eq_ok.mp h
  cases h
  have : Std.Total (fun a b : ShapeTotals => a.shape.shapeHash ≤ b.shape.shapeHash) :=
    ⟨fun _ _ => le_total _ _⟩
  have : IsTrans ShapeTotals (fun a b => a.shape.shapeHash ≤ b.shape.shapeHash) :=
    ⟨fun _ _ _ => le_trans⟩
  have : Std.Total (fun a b : MetricEvidence =>
    a.sourceMetricObservationId ≤ b.sourceMetricObservationId) := ⟨fun _ _ => le_total _ _⟩
  have : IsTrans MetricEvidence (fun a b =>
    a.sourceMetricObservationId ≤ b.sourceMetricObservationId) := ⟨fun _ _ _ => le_trans⟩
  refine ⟨rfl, ?_, ?_, List.pairwise_insertionSort _ _, ?_⟩
  · exact List.pairwise_map.mpr (List.pairwise_insertionSort _ _)
  · simp only [Material.snapshot, List.map_map]
    refine ((List.perm_insertionSort _ _).map _).nodup_iff.mpr (List.pairwise_map.mpr ?_)
    have hgrouped : Grouped ((s.telemetry.observed windows).foldl groupObservation []) :=
      Grouped.foldl .nil
    refine List.Pairwise.imp_of_mem ?_ (hgrouped.sublist List.filter_sublist)
    intro a b ha hb hne hsame
    obtain ⟨o, ho, hoa⟩ | ⟨_, hd, -⟩ := shape_mem_foldl (List.mem_filter.mp ha).1
    · obtain ⟨o', ho', hob⟩ | ⟨_, hd, -⟩ := shape_mem_foldl (List.mem_filter.mp hb).1
      · exact hne (hhash o ho o' ho' _ hoa _ hob hsame)
      · cases hd
    · cases hd
  · exact hmetrics.nodup_iff.mpr (s.telemetry.observed_nodup windows)

theorem hashNamesShape_of_persisted {P : Telemetry.TelemetryPersistenceService}
    {store : Telemetry.Store} (hinj : Function.Injective P.sha256)
    (hpersisted : Telemetry.Persisted P s.telemetry store)
    (h : S.selectSourceWindows s target = .ok (windows, anchor)) :
    HashNamesShape (s.telemetry.observed windows) := by
  have hwindows := selectSourceWindows_completed h
  have hsource : ∀ o ∈ s.telemetry.observed windows, o ∈ s.telemetry.observations ∧
      ∃ w ∈ s.telemetry.windows, o.telemetryWindowId = w.id ∧ w.targetId = target := by
    intro o ho
    obtain ⟨ho, hmem⟩ := List.mem_filter.mp ho
    obtain ⟨w, hw, hid⟩ := List.mem_map.mp (of_decide_eq_true hmem)
    obtain ⟨hw, hcompleted⟩ := List.mem_filter.mp (hwindows hw)
    exact ⟨ho, w, hw, hid.symm, (of_decide_eq_true hcompleted).1⟩
  intro o ho o' ho' a ha a' ha' hhash
  obtain ⟨ho, w, hw, hid, htarget⟩ := hsource o ho
  obtain ⟨ho', w', hw', hid', htarget'⟩ := hsource o' ho'
  exact hpersisted.shape_of_hash hinj ho ho' hw hw' hid hid' (htarget.trans htarget'.symm)
    (Option.mem_def.mp ha) (Option.mem_def.mp ha') hhash

variable [DecidableEq δ] {result : WorkloadSnapshotResult δ}

/-- What `create_for_run` builds is in the database under the fingerprint of its rows. -/
theorem createForRun_fingerprinted {P : Telemetry.TelemetryPersistenceService}
    {store : Telemetry.Store} (hinj : Function.Injective P.sha256)
    (hpersisted : Telemetry.Persisted P s.telemetry store)
    (h : S.createForRun r s = .ok (result, t)) (hbuilt : result.reused = false) :
    ∃ a, t.snapshot result.snapshotId = some a ∧ Fingerprinted S a := by
  obtain ⟨run, -, ⟨-, hx⟩ | ⟨attached, -, hx⟩⟩ := createForRun_cases h
  · obtain ⟨-, windows, anchor, material, u, hselect, hbuild, hinsert, heq⟩ :=
      materialize_eq_ok.mp hx
    obtain ⟨-, -, -, -, rfl⟩ := insertSnapshot_eq_ok.mp hinsert
    obtain ⟨rfl, rfl⟩ := Prod.mk.inj heq
    refine ⟨_, ?_, buildMaterial_fingerprinted
      (hashNamesShape_of_persisted hinj hpersisted hselect) hbuild s.freshId⟩
    have hfresh : s.snapshots.find? (·.id = s.freshId) = none :=
      List.find?_eq_none.mpr (fun b hb => by simpa using (lt_freshId hb).ne)
    simp only [Database.snapshot, WorkloadSnapshotService.attach, List.find?_append, hfresh,
      Option.none_or]
    exact List.find?_cons_of_pos (by simp [Material.snapshot])
  · obtain ⟨a, -, -, heq⟩ := reuse_eq_ok.mp hx
    rw [(Prod.mk.inj heq).1] at hbuilt
    cases hbuilt

end

section

/-- A service whose digest is the text of a document. -/
def collector : Telemetry.TelemetryPersistenceService where
  sha256 := Json.text

/-- One command was seen a hundred times. -/
def collected : Telemetry.Store :=
  collector.persistCompleted 7 "QUERY_STATS" [⟨.queryStats, 100, "shop", "orders", "find",
    .cons "filter" (.dict (.cons "customer" (.str "<integer>") .nil)) .nil, some 100, none, none,
    none⟩] 0 5000000 {}

def collectedRun : Database Json where
  now := 6000000
  runs := fun _ => some snapshotting
  telemetry :=
    { windows := collected.windows
      observations := collected.observations.map collected.join }

end

end NoSQLOptimizer.Workloads
