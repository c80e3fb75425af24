import NoSQLOptimizer.Workloads.Totals

namespace NoSQLOptimizer.Workloads

open ControlPlane Encoding

/-- The shape was observed to be manually critical. -/
def ManuallyCritical (rows : List MetricObservation) (id : ShapeId) : Prop :=
  ∃ v ∈ valuesOf rows id "manually_critical", 0 < v

/-- The shape is in the snapshot, protected as manually critical. -/
def WorkloadSnapshot.Keeps {δ : Type} (snapshot : WorkloadSnapshot δ) (id : ShapeId) : Prop :=
  ∃ e ∈ snapshot.queryShapes, e.queryShapeId = id ∧ e.protectedManualCritical = true ∧
    e.baseProtected = true

section

variable {rows : List MetricObservation} {id : ShapeId}

theorem exists_named {name : String} : valuesOf rows id name ≠ [] ↔
    ∃ o ∈ ofShape rows id, o.metricName = name := by
  rw [valuesOf, Ne, List.map_eq_nil_iff, List.filter_eq_nil_iff]
  simp

/-- Just the shapes that have a count are kept. -/
theorem mem_counted_iff : (∃ d ∈ (rows.foldl groupObservation []).filter (·.operationCount.isSome),
      d.shape.id = id) ↔ valuesOf rows id "operation_count" ≠ [] := by
  rw [exists_named]
  constructor
  · rintro ⟨d, hd, rfl⟩
    obtain ⟨hd, hsome⟩ := List.mem_filter.mp hd
    rw [eq_totalsOf hd] at hsome
    exact (operationCount_observeAll.2.mp hsome).resolve_left (by simp)
  · rintro ⟨o, ho, hname⟩
    obtain ⟨hmem, a, ha, rfl⟩ := mem_ofShape.mp ho
    obtain ⟨d, hd, hid⟩ := exists_mem_foldl hmem ha
    refine ⟨d, List.mem_filter.mpr ⟨hd, ?_⟩, hid⟩
    rw [eq_totalsOf hd]
    exact operationCount_observeAll.2.mpr (.inr ⟨o, by rwa [hid], hname⟩)

theorem manual_iff {d : ShapeTotals} (hd : d ∈ rows.foldl groupObservation []) :
    d.manual = true ↔ ManuallyCritical rows d.shape.id := by
  rw [eq_totalsOf hd]
  refine manual_observeAll.trans ?_
  simp [ManuallyCritical, valuesOf, totalsOf, shape_observeAll, and_assoc]

end

section

variable {δ : Type} {S : WorkloadSnapshotService δ} {s : Database δ} {r : RunId}
  {target : TargetId} {windows : List TelemetryWindow} {anchor : Instant} {material : Material δ}

theorem buildMaterial_shapes (h : S.buildMaterial s windows target anchor r = .ok material) :
    ∃ providers total totalExecution, material.shapes =
      ((((s.telemetry.observed windows).foldl groupObservation []).filter
        (·.operationCount.isSome)).insertionSort (·.shape.shapeHash ≤ ·.shape.shapeHash)).map
          (shapeEvidence providers S.pseudonymizeIdentifier total totalExecution) := by
  simp only [WorkloadSnapshotService.buildMaterial] at h
  obtain ⟨-, h⟩ := require_bind_eq_ok.mp h
  obtain ⟨-, h⟩ := require_bind_eq_ok.mp h
  cases h
  exact ⟨_, _, _, rfl⟩

/-- A manually critical shape is kept just where it has a count. -/
theorem keeps_iff (h : S.buildMaterial s windows target anchor r = .ok material) (id : SnapshotId)
    {shape : ShapeId} (hmanual : ManuallyCritical (s.telemetry.observed windows) shape) :
    (material.snapshot id r target windows anchor).Keeps shape ↔
      valuesOf (s.telemetry.observed windows) shape "operation_count" ≠ [] := by
  obtain ⟨providers, total, totalExecution, hshapes⟩ := buildMaterial_shapes h
  rw [WorkloadSnapshot.Keeps, Material.snapshot, hshapes, ← mem_counted_iff]
  constructor
  · rintro ⟨e, he, rfl, -, -⟩
    obtain ⟨d, hd, rfl⟩ := List.mem_map.mp he
    exact ⟨d, (List.mem_insertionSort _).mp hd, rfl⟩
  · rintro ⟨d, hd, rfl⟩
    have hkept : d.manual = true := (manual_iff (List.mem_of_mem_filter hd)).mpr hmanual
    refine ⟨_, List.mem_map_of_mem ((List.mem_insertionSort _).mpr hd), rfl, hkept, ?_⟩
    simp [shapeEvidence, hkept]

variable [DecidableEq δ] {result : WorkloadSnapshotResult δ} {t : Database δ}

/-- A snapshot that is created is of the windows that were selected. -/
theorem createForRun_created (h : S.createForRun r s = .ok (result, t))
    (hnew : result.reused = false) : ∃ run windows anchor material, s.runs r = some run ∧
      S.selectSourceWindows s run.targetId = .ok (windows, anchor) ∧
      S.buildMaterial s windows run.targetId anchor r = .ok material ∧
      t.snapshot result.snapshotId =
        some (material.snapshot s.freshId r run.targetId windows anchor) := by
  obtain ⟨run, hrun, ⟨-, hx⟩ | ⟨attached, -, hx⟩⟩ := createForRun_cases h
  · obtain ⟨-, windows, anchor, material, u, hselect, hbuild, hinsert, hresult⟩ :=
      materialize_eq_ok.mp hx
    obtain ⟨-, -, -, -, rfl⟩ := insertSnapshot_eq_ok.mp hinsert
    cases hresult
    refine ⟨run, windows, anchor, material, hrun, hselect, hbuild, ?_⟩
    have hnone : s.snapshots.find? (·.id = s.freshId) = none := by
      rw [List.find?_eq_none]
      intro a ha heq
      exact (lt_freshId ha).ne (of_decide_eq_true heq)
    simp only [Database.snapshot, WorkloadSnapshotService.attach, List.find?_append, hnone,
      Option.none_or]
    exact List.find?_cons_of_pos (decide_eq_true rfl)
  · obtain ⟨a, -, -, hresult⟩ := reuse_eq_ok.mp hx
    cases hresult
    cases hnew

/-- Where a snapshot is created, the manually critical shapes of the selected windows are in it, and
protected, just where each of them has an operation count there. -/
theorem manual_kept_iff (h : S.createForRun r s = .ok (result, t)) (hnew : result.reused = false) :
    ∃ run windows anchor snapshot, s.runs r = some run ∧
      S.selectSourceWindows s run.targetId = .ok (windows, anchor) ∧
      t.snapshot result.snapshotId = some snapshot ∧
      ((∀ id, ManuallyCritical (s.telemetry.observed windows) id → snapshot.Keeps id) ↔
        ∀ id, ManuallyCritical (s.telemetry.observed windows) id →
          valuesOf (s.telemetry.observed windows) id "operation_count" ≠ []) := by
  obtain ⟨run, windows, anchor, material, hrun, hselect, hbuild, hsnapshot⟩ :=
    createForRun_created h hnew
  refine ⟨run, windows, anchor, _, hrun, hselect, hsnapshot, ?_⟩
  exact forall_congr' (fun id => forall_congr' (fun hmanual => keeps_iff hbuild _ hmanual))

end

section

/-- A shape of which it is only known that it is manually critical. -/
def flagged : Telemetry where
  windows := [⟨1, 7, 0, 5000000, "QUERY_STATS", "COMPLETED"⟩]
  observations := [⟨1, 1, some orders, "operation_count", 100⟩,
    ⟨2, 1, some ⟨2, "shape-2", "find", "orders"⟩, "manually_critical", 1⟩]
  windows_nodup := oneWindow.windows_nodup

def flaggedOnce : Telemetry where
  windows := [⟨1, 7, 0, 5000000, "QUERY_STATS", "COMPLETED"⟩]
  observations := [⟨1, 1, some orders, "operation_count", 10000⟩,
    ⟨2, 1, some ⟨2, "shape-2", "find", "orders"⟩, "manually_critical", 1⟩,
    ⟨3, 1, some ⟨2, "shape-2", "find", "orders"⟩, "operation_count", 1⟩]
  windows_nodup := oneWindow.windows_nodup

/-- A run whose target has this telemetry. -/
def observing (telemetry : Telemetry) : Database Json where
  now := 6000000
  runs := fun _ => some snapshotting
  telemetry := telemetry

theorem manual_kept_iff_once : ∃ result t, document.createForRun 1 (observing flaggedOnce) =
      .ok (result, t) ∧ result.reused = false ∧
    ∃ run windows anchor snapshot, (observing flaggedOnce).runs 1 = some run ∧
      document.selectSourceWindows (observing flaggedOnce) run.targetId = .ok (windows, anchor) ∧
      t.snapshot result.snapshotId = some snapshot ∧
      ((∀ id, ManuallyCritical (flaggedOnce.observed windows) id → snapshot.Keeps id) ↔
        ∀ id, ManuallyCritical (flaggedOnce.observed windows) id →
          valuesOf (flaggedOnce.observed windows) id "operation_count" ≠ []) := by
  have hok : ((document.createForRun 1 (observing flaggedOnce)).toOption.map (·.1.reused)) =
      some false := by
    decide +kernel
  cases h : document.createForRun 1 (observing flaggedOnce) with
  | error e =>
    rw [h] at hok
    cases hok
  | ok x =>
    rw [h] at hok
    have hnew : x.1.reused = false := Option.some.inj hok
    exact ⟨x.1, x.2, rfl, hnew, manual_kept_iff h hnew⟩

/-- The shape is lost. -/
theorem not_manual_kept : ¬ ∀ (s : Database Json) (r : RunId) result t,
    document.createForRun r s = .ok (result, t) → result.reused = false →
    ∀ run windows anchor snapshot, s.runs r = some run →
      document.selectSourceWindows s run.targetId = .ok (windows, anchor) →
      t.snapshot result.snapshotId = some snapshot →
      ∀ id, ManuallyCritical (s.telemetry.observed windows) id → snapshot.Keeps id := by
  intro hkept
  have hok : ((document.createForRun 1 (observing flagged)).toOption.map (fun x =>
      (x.1.reused, (x.2.snapshot x.1.snapshotId).map (fun a => a.queryShapes.map (·.queryShapeId))))) =
      some (false, some [1]) := by
    decide +kernel
  have hselect : document.selectSourceWindows (observing flagged) 7 =
      .ok (flagged.windows, 5000000) := by
    decide +kernel
  have hmanual : ManuallyCritical (flagged.observed flagged.windows) 2 := by
    have hvalues : valuesOf (flagged.observed flagged.windows) 2 "manually_critical" = [1] := by
      decide +kernel
    rw [ManuallyCritical, hvalues]
    exact ⟨1, List.mem_cons_self, one_pos⟩
  cases h : document.createForRun 1 (observing flagged) with
  | error e =>
    rw [h] at hok
    cases hok
  | ok x =>
    rw [h] at hok
    obtain ⟨hnew, hshapes⟩ := Prod.mk.inj (Option.some.inj hok)
    obtain ⟨snapshot, hsnapshot, hids⟩ := Option.map_eq_some_iff.mp hshapes
    obtain ⟨e, he, hid, -⟩ := hkept _ 1 x.1 x.2 h hnew snapshotting _ _ snapshot rfl hselect hsnapshot
      2 hmanual
    have hmem : e.queryShapeId ∈ snapshot.queryShapes.map (·.queryShapeId) := List.mem_map_of_mem he
    rw [hids, hid] at hmem
    exact absurd hmem (by decide)

end

end NoSQLOptimizer.Workloads
