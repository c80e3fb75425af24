import NoSQLOptimizer.ControlPlane.Rows
import NoSQLOptimizer.Telemetry.Providers
import NoSQLOptimizer.Workloads.Durable

namespace NoSQLOptimizer.Telemetry

open ControlPlane Encoding QueryShapes
open Workloads (TelemetryWindow WindowId ShapeId ObservationId MetricObservation)

abbrev NamespaceId := Nat

structure NamespaceRow where
  id : NamespaceId
  targetId : TargetId
  name : String
  deriving DecidableEq

/-- A row of `query_shapes`. -/
structure QueryShapeRow where
  id : ShapeId
  namespaceId : NamespaceId
  shapeHash : String
  normalizedShape : Json
  operation : String
  deriving DecidableEq

/-- A row of `metric_observations`. -/
structure ObservationRow where
  id : ObservationId
  telemetryWindowId : WindowId
  queryShapeId : Option ShapeId
  metricName : String
  metricValue : ℚ
  deriving DecidableEq

/-- The tables that telemetry is persisted to. -/
structure Store where
  namespaces : List NamespaceRow := []
  queryShapes : List QueryShapeRow := []
  windows : List TelemetryWindow := []
  observations : List ObservationRow := []
  deriving DecidableEq

/-- `uuid4()`: an id that is not among these. -/
def freshId (ids : List Nat) : Nat := ids.foldr (fun id n => max (id + 1) n) 0

/-- The row that is there, or the one that is inserted for want of it. -/
def ensure {ρ : Type} (wanted : ρ → Bool) (row : ρ) (rows : List ρ) : List ρ × ρ :=
  match rows.find? wanted with
  | some there => (rows, there)
  | none => (rows ++ [row], row)

namespace Store

def ensureNamespace (target : TargetId) (name : String) (s : Store) : Store × NamespaceRow :=
  let (namespaces, row) := ensure (fun n => n.targetId = target ∧ n.name = name)
    ⟨freshId (s.namespaces.map (·.id)), target, name⟩ s.namespaces
  ({ s with namespaces := namespaces }, row)

def ensureShape (namespaceId : NamespaceId) (operation : String) (shape : QueryShape) (s : Store) :
    Store × QueryShapeRow :=
  let (queryShapes, row) := ensure
    (fun q => q.namespaceId = namespaceId ∧ q.shapeHash = shape.shapeHash)
    ⟨freshId (s.queryShapes.map (·.id)), namespaceId, shape.shapeHash, shape.canonicalShape,
      operation⟩ s.queryShapes
  ({ s with queryShapes := queryShapes }, row)

/-- A window that has been collected. -/
def completedWindow (target : TargetId) (source : String) (startedAt endedAt : Instant) (s : Store) :
    TelemetryWindow :=
  ⟨freshId (s.windows.map (·.id)), target, startedAt, endedAt, source, "COMPLETED"⟩

def insertWindow (s : Store) (window : TelemetryWindow) : Store :=
  { s with windows := s.windows ++ [window] }

def insertMetric (window : WindowId) (shape : ShapeId) (s : Store) (metric : String × ℚ) : Store :=
  { s with observations := s.observations ++
      [⟨freshId (s.observations.map (·.id)), window, some shape, metric.1, metric.2⟩] }

end Store

/-- The metrics of an observation that has a value for them. -/
def TelemetryObservation.metrics (o : TelemetryObservation) : List (String × ℚ) :=
  [("operation_count", some (o.operationCount : ℚ)),
    ("successful_operation_count", o.successfulOperationCount.map (↑·)),
    ("failure_count", o.failureCount.map (↑·)), ("timeout_count", o.timeoutCount.map (↑·)),
    ("aggregate_execution_time_ms", o.aggregateExecutionTimeMs)].filterMap
      (fun m => m.2.map (m.1, ·))

/-- The service's digest and how it names what it stores. -/
structure TelemetryPersistenceService where
  sha256 : Json → String
  pseudonymizeIdentifier : String → String := id

namespace TelemetryPersistenceService

variable (P : TelemetryPersistenceService)

def namespaceName (o : TelemetryObservation) : String :=
  P.pseudonymizeIdentifier o.database ++ "." ++ P.pseudonymizeIdentifier o.collection

/-- The shape that an observation is registered as. -/
def shapeOf (o : TelemetryObservation) : QueryShape :=
  register P.sha256 o.operation (P.namespaceName o) o.normalizedShape none

/-- The row of an observation's shape, and the store with it. -/
def persistShape (target : TargetId) (s : Store) (o : TelemetryObservation) :
    Store × QueryShapeRow :=
  let (s, namespaceRow) := s.ensureNamespace target (P.namespaceName o)
  s.ensureShape namespaceRow.id o.operation (P.shapeOf o)

def persistObservation (target : TargetId) (window : WindowId) (s : Store)
    (o : TelemetryObservation) : Store :=
  let persisted := P.persistShape target s o
  o.metrics.foldl (Store.insertMetric window persisted.2.id) persisted.1

def persistCompleted (target : TargetId) (source : String)
    (observations : List TelemetryObservation) (startedAt endedAt : Instant) (s : Store) : Store :=
  let window := s.completedWindow target source startedAt endedAt
  observations.foldl (P.persistObservation target window.id) (s.insertWindow window)

/-- What any windows, persisted one after the other, leave in the store. -/
inductive Collected : Store → Prop
  | empty : Collected {}
  | persist (target : TargetId) (source : String) (observations : List TelemetryObservation)
      (startedAt endedAt : Instant) {s : Store} (h : Collected s) :
      Collected (P.persistCompleted target source observations startedAt endedAt s)

end TelemetryPersistenceService

namespace Store

/-- The shape that an observation is joined to, with the name of its namespace. -/
def joinShape (s : Store) (id : ShapeId) : Option Workloads.QueryShape := do
  let q ← s.queryShapes.find? (·.id = id)
  let n ← s.namespaces.find? (·.id = q.namespaceId)
  return ⟨q.id, q.shapeHash, q.operation, n.name⟩

def join (s : Store) (o : ObservationRow) : MetricObservation :=
  ⟨o.id, o.telemetryWindowId, o.queryShapeId.bind s.joinShape, o.metricName, o.metricValue⟩

end Store

/-- Telemetry that was persisted, its rows in any order. -/
structure Persisted (P : TelemetryPersistenceService) (t : Workloads.Telemetry) (s : Store) :
    Prop where
  collected : P.Collected s
  windows : t.windows.Perm s.windows
  observations : t.observations.Perm (s.observations.map s.join)

section

variable {ρ : Type} {wanted : ρ → Bool} {row : ρ} {rows : List ρ}

theorem lt_freshId {ids : List Nat} {id : Nat} (h : id ∈ ids) : id < freshId ids :=
  lt_foldr_max (fun n => n) h

theorem ne_freshId {key : ρ → Nat} {r : ρ} (h : r ∈ rows) : key r ≠ freshId (rows.map key) :=
  (lt_freshId (List.mem_map_of_mem h)).ne

theorem ensure_cases (wanted : ρ → Bool) (row : ρ) (rows : List ρ) :
    (∃ there ∈ rows, wanted there = true ∧ ensure wanted row rows = (rows, there)) ∨
      (∀ r ∈ rows, wanted r = false) ∧ ensure wanted row rows = (rows ++ [row], row) := by
  unfold ensure
  cases h : rows.find? wanted with
  | none => exact .inr ⟨fun r hr => by simpa using List.find?_eq_none.mp h r hr, rfl⟩
  | some there => exact .inl ⟨there, List.mem_of_find?_eq_some h, List.find?_some h, rfl⟩

theorem subset_ensure : rows ⊆ (ensure wanted row rows).1 := by
  obtain ⟨_, -, -, he⟩ | ⟨-, he⟩ := ensure_cases wanted row rows
  · rw [he]
    exact List.Subset.refl rows
  · rw [he]
    exact List.subset_append_left rows [row]

end

/-- What holds of the tables: their keys and constraints, the hash of a shape is that of its
canonical form, and an observation's shape is in a namespace of its window's target. -/
structure Store.Sound (sha256 : Json → String) (s : Store) : Prop where
  namespaceIds : (s.namespaces.map (·.id)).Nodup
  names : (s.namespaces.map (fun n => (n.targetId, n.name))).Nodup
  shapeIds : (s.queryShapes.map (·.id)).Nodup
  hashes : (s.queryShapes.map (fun q => (q.namespaceId, q.shapeHash))).Nodup
  windowIds : (s.windows.map (·.id)).Nodup
  shapes : ∀ q ∈ s.queryShapes, ∃ n ∈ s.namespaces, n.id = q.namespaceId ∧
    q.shapeHash = sha256 q.normalizedShape ∧ q.normalizedShape.get "namespace" = .str n.name
  observations : ∀ o ∈ s.observations, ∀ id ∈ o.queryShapeId, ∃ w ∈ s.windows,
    w.id = o.telemetryWindowId ∧ ∃ q ∈ s.queryShapes, q.id = id ∧
      ∃ n ∈ s.namespaces, n.id = q.namespaceId ∧ n.targetId = w.targetId

section

variable {sha256 : Json → String} {s : Store}

theorem Store.Sound.ensureNamespace (h : s.Sound sha256) (target : TargetId) (name : String) :
    (s.ensureNamespace target name).1.Sound sha256 ∧
      (s.ensureNamespace target name).2 ∈ (s.ensureNamespace target name).1.namespaces ∧
      (s.ensureNamespace target name).2.targetId = target ∧
      (s.ensureNamespace target name).2.name = name := by
  unfold Store.ensureNamespace
  rcases ensure_cases (fun n : NamespaceRow => decide (n.targetId = target ∧ n.name = name))
    ⟨freshId (s.namespaces.map (·.id)), target, name⟩ s.namespaces with
      ⟨there, hthere, hwanted, he⟩ | ⟨hnone, he⟩
  · rw [he]
    obtain ⟨htarget, hname⟩ := of_decide_eq_true hwanted
    exact ⟨h, hthere, htarget, hname⟩
  · rw [he]
    refine ⟨⟨?_, ?_, h.shapeIds, h.hashes, h.windowIds, fun q hq => ?_, fun o ho id hid => ?_⟩,
      List.mem_append_right _ List.mem_cons_self, rfl, rfl⟩
    · exact nodup_map_concat h.namespaceIds (fun _ => ne_freshId)
    · refine nodup_map_concat h.names (fun a ha heq => ?_)
      exact of_decide_eq_false (hnone a ha) (Prod.mk.inj heq)
    · obtain ⟨n, hn, hq⟩ := h.shapes q hq
      exact ⟨n, List.mem_append_left _ hn, hq⟩
    · obtain ⟨w, hw, hwid, q, hq, hqid, n, hn, hnid⟩ := h.observations o ho id hid
      exact ⟨w, hw, hwid, q, hq, hqid, n, List.mem_append_left _ hn, hnid⟩

theorem Store.Sound.ensureShape (h : s.Sound sha256) {n : NamespaceRow} (hn : n ∈ s.namespaces)
    (operation : String) {shape : QueryShape}
    (hhash : shape.shapeHash = sha256 shape.canonicalShape)
    (hname : shape.canonicalShape.get "namespace" = .str n.name) :
    (s.ensureShape n.id operation shape).1.Sound sha256 ∧
      (s.ensureShape n.id operation shape).2 ∈ (s.ensureShape n.id operation shape).1.queryShapes ∧
      (s.ensureShape n.id operation shape).2.namespaceId = n.id ∧
      (s.ensureShape n.id operation shape).2.shapeHash = shape.shapeHash := by
  unfold Store.ensureShape
  rcases ensure_cases
    (fun q : QueryShapeRow => decide (q.namespaceId = n.id ∧ q.shapeHash = shape.shapeHash))
    ⟨freshId (s.queryShapes.map (·.id)), n.id, shape.shapeHash, shape.canonicalShape, operation⟩
    s.queryShapes with ⟨there, hthere, hwanted, he⟩ | ⟨hnone, he⟩
  · rw [he]
    obtain ⟨hid, hsame⟩ := of_decide_eq_true hwanted
    exact ⟨h, hthere, hid, hsame⟩
  · rw [he]
    refine ⟨⟨h.namespaceIds, h.names, ?_, ?_, h.windowIds, fun q hq => ?_, fun o ho id hid => ?_⟩,
      List.mem_append_right _ List.mem_cons_self, rfl, rfl⟩
    · exact nodup_map_concat h.shapeIds (fun _ => ne_freshId)
    · refine nodup_map_concat h.hashes (fun a ha heq => ?_)
      exact of_decide_eq_false (hnone a ha) (Prod.mk.inj heq)
    · rcases List.mem_append.mp hq with hq | hq
      · exact h.shapes q hq
      · obtain rfl := List.mem_singleton.mp hq
        exact ⟨n, hn, rfl, hhash, hname⟩
    · obtain ⟨w, hw, hwid, q, hq, hn⟩ := h.observations o ho id hid
      exact ⟨w, hw, hwid, q, List.mem_append_left _ hq, hn⟩

theorem Store.Sound.insertMetric (h : s.Sound sha256) {w : TelemetryWindow} (hw : w ∈ s.windows)
    {q : QueryShapeRow} (hq : q ∈ s.queryShapes) {n : NamespaceRow} (hn : n ∈ s.namespaces)
    (hid : n.id = q.namespaceId) (htarget : n.targetId = w.targetId) (metric : String × ℚ) :
    (s.insertMetric w.id q.id metric).Sound sha256 := by
  refine ⟨h.namespaceIds, h.names, h.shapeIds, h.hashes, h.windowIds, h.shapes, ?_⟩
  intro o ho id hoid
  rcases List.mem_append.mp ho with ho | ho
  · exact h.observations o ho id hoid
  · obtain rfl := List.mem_singleton.mp ho
    obtain rfl := Option.mem_some_iff.mp hoid
    exact ⟨w, hw, rfl, q, hq, rfl, n, hn, hid, htarget⟩

theorem Store.Sound.insertMetrics (h : s.Sound sha256) {w : TelemetryWindow} (hw : w ∈ s.windows)
    {q : QueryShapeRow} (hq : q ∈ s.queryShapes) {n : NamespaceRow} (hn : n ∈ s.namespaces)
    (hid : n.id = q.namespaceId) (htarget : n.targetId = w.targetId)
    (metrics : List (String × ℚ)) :
    (metrics.foldl (Store.insertMetric w.id q.id) s).Sound sha256 := by
  induction metrics generalizing s with
  | nil => exact h
  | cons m metrics ih => exact ih (h.insertMetric hw hq hn hid htarget m) hw hq hn

theorem insertMetrics_eq (window : WindowId) (shape : ShapeId) (metrics : List (String × ℚ))
    (s : Store) : ∃ rows, metrics.foldl (Store.insertMetric window shape) s =
      { s with observations := rows } := by
  induction metrics generalizing s with
  | nil => exact ⟨_, rfl⟩
  | cons m metrics ih => exact ih (s.insertMetric window shape m)

theorem windows_persistShape (P : TelemetryPersistenceService) (target : TargetId) (s : Store)
    (o : TelemetryObservation) : (P.persistShape target s o).1.windows = s.windows := rfl

/-- Rows are added only. -/
theorem persistShape_subset (P : TelemetryPersistenceService) (target : TargetId) (s : Store)
    (o : TelemetryObservation) : s.namespaces ⊆ (P.persistShape target s o).1.namespaces ∧
      s.queryShapes ⊆ (P.persistShape target s o).1.queryShapes :=
  ⟨subset_ensure, subset_ensure⟩

end

namespace TelemetryPersistenceService

variable {P : TelemetryPersistenceService} {s : Store} {target : TargetId}

/-- The row of an observation's shape is in its namespace, under its hash. -/
theorem persistShape_spec (h : s.Sound P.sha256) (target : TargetId) (o : TelemetryObservation) :
    (P.persistShape target s o).1.Sound P.sha256 ∧
      (P.persistShape target s o).2 ∈ (P.persistShape target s o).1.queryShapes ∧
      (P.persistShape target s o).2.shapeHash = (P.shapeOf o).shapeHash ∧
      ∃ n ∈ (P.persistShape target s o).1.namespaces,
        n.id = (P.persistShape target s o).2.namespaceId ∧ n.targetId = target ∧
          n.name = P.namespaceName o := by
  obtain ⟨hs, hn, htarget, hname⟩ := h.ensureNamespace target (P.namespaceName o)
  have hpayload : (P.shapeOf o).canonicalShape.get "namespace" =
      .str (s.ensureNamespace target (P.namespaceName o)).2.name := by
    rw [hname]
    exact get_namespace_canonicalShape
  obtain ⟨ht, hq, hqid, hhash⟩ := hs.ensureShape hn o.operation register_hash hpayload
  exact ⟨ht, hq, hhash, _, hn, hqid.symm, htarget, hname⟩

theorem persistObservation_sound (h : s.Sound P.sha256) {w : TelemetryWindow}
    (hw : w ∈ s.windows) (o : TelemetryObservation) :
    (P.persistObservation w.targetId w.id s o).Sound P.sha256 := by
  obtain ⟨hs, hq, -, n, hn, hid, htarget, -⟩ := persistShape_spec h w.targetId o
  exact hs.insertMetrics hw hq hn hid htarget o.metrics

theorem persistObservation_eq (P : TelemetryPersistenceService) (target : TargetId)
    (window : WindowId) (s : Store) (o : TelemetryObservation) : ∃ rows, P.persistObservation target window s o =
      { (P.persistShape target s o).1 with observations := rows } :=
  insertMetrics_eq window (P.persistShape target s o).2.id o.metrics _

theorem windows_persistObservation (window : WindowId) (o : TelemetryObservation) :
    (P.persistObservation target window s o).windows = s.windows := by
  obtain ⟨rows, hrows⟩ := P.persistObservation_eq target window s o
  exact (congrArg Store.windows hrows).trans (windows_persistShape P target s o)

theorem persistObservation_subset (window : WindowId) (s : Store) (o : TelemetryObservation) :
    s.namespaces ⊆ (P.persistObservation target window s o).namespaces ∧
      s.queryShapes ⊆ (P.persistObservation target window s o).queryShapes := by
  obtain ⟨rows, hrows⟩ := P.persistObservation_eq target window s o
  rw [hrows]
  exact persistShape_subset P target s o

theorem foldl_subset (P : TelemetryPersistenceService) (target : TargetId) (window : WindowId)
    (s : Store) (observations : List TelemetryObservation) :
    s.namespaces ⊆ (observations.foldl (P.persistObservation target window) s).namespaces ∧
      s.queryShapes ⊆ (observations.foldl (P.persistObservation target window) s).queryShapes := by
  induction observations generalizing s with
  | nil => exact ⟨List.Subset.refl _, List.Subset.refl _⟩
  | cons o observations ih =>
    obtain ⟨hnamespaces, hshapes⟩ := persistObservation_subset window s o
    obtain ⟨hnamespaces', hshapes'⟩ := ih (P.persistObservation target window s o)
    exact ⟨List.Subset.trans hnamespaces hnamespaces', List.Subset.trans hshapes hshapes'⟩

theorem foldl_sound (h : s.Sound P.sha256) {w : TelemetryWindow} (hw : w ∈ s.windows)
    (observations : List TelemetryObservation) :
    (observations.foldl (P.persistObservation w.targetId w.id) s).Sound P.sha256 := by
  induction observations generalizing s with
  | nil => exact h
  | cons o observations ih =>
    apply ih (persistObservation_sound h hw o)
    rw [windows_persistObservation]
    exact hw

/-- A window that has just been opened. -/
theorem mem_insertWindow (s : Store) (window : TelemetryWindow) :
    window ∈ (s.insertWindow window).windows := List.mem_append_right _ List.mem_cons_self

theorem insertWindow_sound (h : s.Sound P.sha256) (target : TargetId) (source : String)
    (startedAt endedAt : Instant) :
    (s.insertWindow (s.completedWindow target source startedAt endedAt)).Sound P.sha256 := by
  refine ⟨h.namespaceIds, h.names, h.shapeIds, h.hashes, ?_, h.shapes, ?_⟩
  · exact nodup_map_concat h.windowIds (fun _ => ne_freshId)
  · intro o ho id hid
    obtain ⟨w, hw, hq⟩ := h.observations o ho id hid
    exact ⟨w, List.mem_append_left _ hw, hq⟩

theorem Collected.sound (h : P.Collected s) : s.Sound P.sha256 := by
  induction h with
  | empty => exact ⟨.nil, .nil, .nil, .nil, .nil, (fun _ h => by cases h), (fun _ h => by cases h)⟩
  | persist target source observations startedAt endedAt _ ih =>
    exact foldl_sound (insertWindow_sound ih target source startedAt endedAt)
      (mem_insertWindow _ _) observations

/-- The row of every observation's shape is there once its window is persisted. -/
theorem exists_shape_of_mem (h : P.Collected s) (target : TargetId) (source : String)
    {observations : List TelemetryObservation} (startedAt endedAt : Instant)
    {o : TelemetryObservation} (ho : o ∈ observations) :
    ∃ q ∈ (P.persistCompleted target source observations startedAt endedAt s).queryShapes,
      q.shapeHash = (P.shapeOf o).shapeHash ∧
      ∃ n ∈ (P.persistCompleted target source observations startedAt endedAt s).namespaces,
        n.id = q.namespaceId ∧ n.targetId = target ∧ n.name = P.namespaceName o := by
  obtain ⟨before, after, rfl⟩ := List.append_of_mem ho
  -- the store at the turn of `o`, and its row in the one that its turn leaves
  have hopened := insertWindow_sound h.sound target source startedAt endedAt
  have hturn := foldl_sound hopened (mem_insertWindow _ _) before
  obtain ⟨-, hq, hhash, n, hn, hid, htarget, hname⟩ := persistShape_spec hturn target o
  obtain ⟨rows, hrows⟩ := P.persistObservation_eq target
    (s.completedWindow target source startedAt endedAt).id _ o
  obtain ⟨hnamespaces, hshapes⟩ := P.foldl_subset target
    (s.completedWindow target source startedAt endedAt).id _ after
  rw [persistCompleted, List.foldl_append, List.foldl_cons]
  refine ⟨_, hshapes ?_, hhash, n, hnamespaces ?_, hid, htarget, hname⟩
  · rw [hrows]
    exact hq
  · rw [hrows]
    exact hn

end TelemetryPersistenceService

section

variable {sha256 : Json → String} {s : Store}

/-- Two namespaces of one target have different names, so two shapes of one target hash
differently. -/
theorem Store.Sound.eq_of_hash (hinj : Function.Injective sha256) (h : s.Sound sha256)
    {q q' : QueryShapeRow} (hq : q ∈ s.queryShapes) (hq' : q' ∈ s.queryShapes)
    {n n' : NamespaceRow} (hn : n ∈ s.namespaces) (hn' : n' ∈ s.namespaces)
    (hid : n.id = q.namespaceId) (hid' : n'.id = q'.namespaceId)
    (htarget : n.targetId = n'.targetId) (hhash : q.shapeHash = q'.shapeHash) : q = q' := by
  obtain ⟨m, hm, hmid, hqhash, hname⟩ := h.shapes q hq
  obtain ⟨m', hm', hmid', hqhash', hname'⟩ := h.shapes q' hq'
  obtain rfl : m = n := List.inj_on_of_nodup_map h.namespaceIds hm hn (hmid.trans hid.symm)
  obtain rfl : m' = n' := List.inj_on_of_nodup_map h.namespaceIds hm' hn' (hmid'.trans hid'.symm)
  have hshape : q.normalizedShape = q'.normalizedShape := by
    apply hinj
    rw [← hqhash, ← hqhash', hhash]
  have hsame : m.name = m'.name := by
    rw [hshape, hname'] at hname
    exact (Json.str.inj hname).symm
  have hnamespace : m = m' :=
    List.inj_on_of_nodup_map h.names hm hm' (Prod.ext htarget hsame)
  apply List.inj_on_of_nodup_map h.hashes hq hq'
  rw [← hid, ← hid', hnamespace, hhash]

theorem Store.joinShape_eq_some {id : ShapeId} {a : Workloads.QueryShape}
    (h : s.joinShape id = some a) : ∃ q ∈ s.queryShapes, q.id = id ∧ a.id = q.id ∧
      a.shapeHash = q.shapeHash := by
  unfold Store.joinShape at h
  obtain ⟨q, hq, h⟩ := Option.bind_eq_some_iff.mp h
  obtain ⟨n, -, h⟩ := Option.bind_eq_some_iff.mp h
  cases h
  exact ⟨q, List.mem_of_find?_eq_some hq, by simpa using List.find?_some hq, rfl, rfl⟩

variable {P : TelemetryPersistenceService} {t : Workloads.Telemetry}

/-- In the windows of one target, the hash of a query shape names it. -/
theorem Persisted.shape_of_hash (hinj : Function.Injective P.sha256) (h : Persisted P t s)
    {o o' : MetricObservation} (ho : o ∈ t.observations) (ho' : o' ∈ t.observations)
    {w w' : TelemetryWindow} (hw : w ∈ t.windows) (hw' : w' ∈ t.windows)
    (hid : o.telemetryWindowId = w.id) (hid' : o'.telemetryWindowId = w'.id)
    (htarget : w.targetId = w'.targetId) {a a' : Workloads.QueryShape}
    (ha : o.queryShape = some a) (ha' : o'.queryShape = some a')
    (hhash : a.shapeHash = a'.shapeHash) : a.id = a'.id := by
  have hsound := h.collected.sound
  -- the row that an observation's shape is joined from, in a namespace of the window's target
  have hrow : ∀ {o : MetricObservation} {w : TelemetryWindow} {a : Workloads.QueryShape},
      o ∈ t.observations → w ∈ t.windows → o.telemetryWindowId = w.id → o.queryShape = some a →
      ∃ q ∈ s.queryShapes, a.id = q.id ∧ a.shapeHash = q.shapeHash ∧
        ∃ n ∈ s.namespaces, n.id = q.namespaceId ∧ n.targetId = w.targetId := by
    intro o w a ho hw hid ha
    obtain ⟨row, hrow, rfl⟩ := List.mem_map.mp (h.observations.mem_iff.mp ho)
    obtain ⟨shape, hshape, hjoin⟩ := Option.bind_eq_some_iff.mp ha
    obtain ⟨v, hv, hvid, q, hq, hqid, n, hn, hnid, hntarget⟩ :=
      hsound.observations row hrow shape hshape
    obtain ⟨q', hq', hqid', haid, hahash⟩ := Store.joinShape_eq_some hjoin
    obtain rfl : q = q' := List.inj_on_of_nodup_map hsound.shapeIds hq hq' (hqid.trans hqid'.symm)
    obtain rfl : v = w := List.inj_on_of_nodup_map hsound.windowIds hv (h.windows.mem_iff.mp hw)
      (hvid.trans hid)
    exact ⟨q, hq, haid, hahash, n, hn, hnid, hntarget⟩
  obtain ⟨q, hq, haid, hahash, n, hn, hnid, hntarget⟩ := hrow ho hw hid ha
  obtain ⟨q', hq', haid', hahash', n', hn', hnid', hntarget'⟩ := hrow ho' hw' hid' ha'
  have heq : q = q' := by
    apply hsound.eq_of_hash hinj hq hq' hn hn' hnid hnid'
    · rw [hntarget, hntarget', htarget]
    · rw [← hahash, ← hahash', hhash]
  rw [haid, haid', heq]

end

end NoSQLOptimizer.Telemetry
