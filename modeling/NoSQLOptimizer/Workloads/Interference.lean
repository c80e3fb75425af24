import Mathlib.Logic.Relation
import NoSQLOptimizer.ControlPlane.Rows
import NoSQLOptimizer.Workloads.Durable

namespace NoSQLOptimizer.Workloads

open ControlPlane Encoding

section Results

variable {α β : Type}

theorem isOk_iff {x : Result α} : x.isOk = true ↔ ∃ a, x = .ok a := by
  cases x <;> simp [Except.isOk, Except.toBool]

theorem require_eq_ok {holds : Bool} {e : Error} : require holds e = .ok () ↔ holds = true := by
  cases holds <;> simp [require]

theorem require_bind_eq_ok {holds : Bool} {e : Error} {f : Unit → Result β} {b : β} :
    (require holds e >>= f) = .ok b ↔ holds = true ∧ f () = .ok b := by
  rw [bind_eq_ok]
  exact ⟨fun ⟨_, h, hf⟩ => ⟨require_eq_ok.mp h, hf⟩, fun ⟨h, hf⟩ => ⟨(), require_eq_ok.mpr h, hf⟩⟩

end Results

section Grouping

@[simp] theorem shape_observe (d : ShapeTotals) (name : String) (value : ℚ) :
    (d.observe name value).shape = d.shape := by
  unfold ShapeTotals.observe
  split_ifs <;> rfl

theorem mem_groupShape {shape : QueryShape} {name : String} {value : ℚ} {d : ShapeTotals}
    {grouped : List ShapeTotals} (h : d ∈ groupShape shape name value grouped) :
    d.shape.id = shape.id ∨ ∃ d' ∈ grouped, d'.shape.id = d.shape.id := by
  fun_induction groupShape shape name value grouped with
  | case1 =>
    obtain rfl := List.mem_singleton.mp h
    exact .inl (by simp)
  | case2 a grouped ha =>
    rcases List.mem_cons.mp h with rfl | h
    · exact .inl (by simpa using ha)
    · exact .inr ⟨d, List.mem_cons_of_mem _ h, rfl⟩
  | case3 a grouped _ ih =>
    rcases List.mem_cons.mp h with rfl | h
    · exact .inr ⟨d, List.mem_cons_self, rfl⟩
    · exact (ih h).imp id (fun ⟨d', hd', hid⟩ => ⟨d', List.mem_cons_of_mem _ hd', hid⟩)

/-- Every shape has one entry. -/
def Grouped (grouped : List ShapeTotals) : Prop :=
  grouped.Pairwise (fun a b => a.shape.id ≠ b.shape.id)

theorem Grouped.groupShape {shape : QueryShape} {name : String} {value : ℚ}
    {grouped : List ShapeTotals} (h : Grouped grouped) :
    Grouped (groupShape shape name value grouped) := by
  fun_induction Workloads.groupShape shape name value grouped with
  | case1 => exact List.pairwise_singleton _ _
  | case2 a grouped ha =>
    obtain ⟨hhead, htail⟩ := List.pairwise_cons.mp h
    exact List.pairwise_cons.mpr ⟨fun d hd => by simpa using hhead d hd, htail⟩
  | case3 a grouped hne ih =>
    obtain ⟨hhead, htail⟩ := List.pairwise_cons.mp h
    refine List.pairwise_cons.mpr ⟨fun d hd => ?_, ih htail⟩
    rcases mem_groupShape hd with hd | ⟨d', hd', hid⟩
    · rwa [hd]
    · rw [← hid]
      exact hhead d' hd'

theorem Grouped.foldl {rows : List MetricObservation} {grouped : List ShapeTotals}
    (h : Grouped grouped) : Grouped (rows.foldl groupObservation grouped) := by
  induction rows generalizing grouped with
  | nil => exact h
  | cons o rows ih =>
    refine ih ?_
    unfold groupObservation
    split
    · exact h
    · exact h.groupShape

end Grouping

theorem Telemetry.observed_nodup (t : Telemetry) (windows : List TelemetryWindow) :
    ((t.observed windows).map (·.id)).Nodup :=
  t.observations_nodup.sublist (List.filter_sublist.map _)

section

variable {δ : Type} [DecidableEq δ] (S : WorkloadSnapshotService δ)

/-- Everything that may have happened: telemetry came in, runs were made and moved on, time passed,
and snapshots were created.  An attached snapshot stays attached. -/
inductive Step : Database δ → Database δ → Prop
  | telemetry (telemetry : Telemetry) : Step s { s with telemetry := telemetry }
  | clock (now : Instant) : Step s { s with now := now }
  | runs (runs : RunId → Option OptimizationRun)
      (attached : ∀ r run, s.runs r = some run → run.workloadSnapshotId ≠ none →
        ∃ run', runs r = some run' ∧ run'.workloadSnapshotId ≠ none) :
      Step s { s with runs := runs }
  | create : S.createForRun r s = .ok (result, t) → Step s t

def Reachable : Database δ → Prop := Relation.ReflTransGen (Step S) {}

/-- A snapshot is the attached one of its run, and its fingerprint names the run. -/
structure Sound (s : Database δ) : Prop where
  ids : (s.snapshots.map (·.id)).Nodup
  attached : ∀ a ∈ s.snapshots, ∃ run, s.runs a.sourceRunId = some run ∧
    run.workloadSnapshotId ≠ none
  fingerprint : ∀ a ∈ s.snapshots, ∃ document : Json, a.fingerprint = S.sha256 document ∧
    document.get "source_run_id" = .int a.sourceRunId

/-- The database without what other runs have frozen. -/
def Database.alone (s : Database δ) (r : RunId) : Database δ :=
  { s with snapshots := s.snapshots.filter (·.sourceRunId = r) }

def Succeeds (r : RunId) (s : Database δ) : Prop := ∃ x, S.createForRun r s = .ok x

/-- The databases show the run the same clock, the same completed telemetry of its target, and the
same of itself. -/
structure Agree (r : RunId) (s t : Database δ) : Prop where
  now : s.now = t.now
  run : s.runs r = t.runs r
  windows : ∀ run, s.runs r = some run →
    s.telemetry.completed run.targetId = t.telemetry.completed run.targetId
  observations : ∀ run, s.runs r = some run →
    s.telemetry.observed (s.telemetry.completed run.targetId) =
      t.telemetry.observed (t.telemetry.completed run.targetId)
  own : (s.alone r).snapshots = (t.alone r).snapshots

/-- The run has its snapshot, or there is no material for one, or none of the observations that its
lookback selects is frozen already. -/
def Unfrozen (s : Database δ) (r : RunId) (run : OptimizationRun) : Prop :=
  run.workloadSnapshotId ≠ none ∨ ∀ windows anchor material,
    S.selectSourceWindows s run.targetId = .ok (windows, anchor) →
    S.buildMaterial s windows run.targetId anchor r = .ok material →
    ∀ o ∈ s.telemetry.observed windows, o.id ∉ s.frozen

end

section

variable {δ : Type} {S : WorkloadSnapshotService δ} {s : Database δ} {r : RunId}
  {target : TargetId} {windows : List TelemetryWindow} {anchor : Instant} {material : Material δ}

theorem selectSourceWindows_nodup (h : S.selectSourceWindows s target = .ok (windows, anchor)) :
    (windows.map (·.id)).Nodup := by
  simp only [WorkloadSnapshotService.selectSourceWindows] at h
  split at h
  · cases h
  · obtain ⟨-, h⟩ := require_bind_eq_ok.mp h
    obtain ⟨-, h⟩ := require_bind_eq_ok.mp h
    cases h
    refine ((List.perm_insertionSort _ _).map _).nodup_iff.mpr ?_
    exact s.telemetry.windows_nodup.sublist
      ((List.filter_sublist.trans List.filter_sublist).map _)

/-- What the inserts need to know of the material. -/
structure Insertable (S : WorkloadSnapshotService δ) (r : RunId) (rows : List MetricObservation)
    (material : Material δ) : Prop where
  fingerprint : ∃ document : Json, material.fingerprint = S.sha256 document ∧
    document.get "source_run_id" = .int r
  shapes : (material.shapes.map (·.queryShapeId)).Nodup
  metrics : (material.metrics.map (·.sourceMetricObservationId)).Perm (rows.map (·.id))

theorem buildMaterial_insertable (h : S.buildMaterial s windows target anchor r = .ok material) :
    Insertable S r (s.telemetry.observed windows) material := by
  simp only [WorkloadSnapshotService.buildMaterial] at h
  obtain ⟨-, h⟩ := require_bind_eq_ok.mp h
  obtain ⟨-, h⟩ := require_bind_eq_ok.mp h
  cases h
  refine ⟨⟨_, rfl, ?_⟩, ?_, ?_⟩
  · simp [Json.get_canonical, digestInput]
  · rw [List.map_map]
    refine ((List.perm_insertionSort _ _).map _).nodup_iff.mpr (List.pairwise_map.mpr ?_)
    exact (Grouped.foldl .nil).sublist List.filter_sublist
  · refine ((List.perm_insertionSort _ _).map _).trans ?_
    rw [List.map_map]
    rfl

theorem Sound.empty : Sound S ({} : Database δ) :=
  ⟨.nil, (fun _ ha => by cases ha), (fun _ ha => by cases ha)⟩

theorem lt_freshId {a : WorkloadSnapshot δ} (ha : a ∈ s.snapshots) : a.id < s.freshId :=
  lt_foldr_max (·.id) ha

/-- An attachment leaves every run with a snapshot that had one, and this one. -/
theorem attach_attached {run : OptimizationRun} (hrun : s.runs r = some run) (id : SnapshotId)
    {q : RunId} (hq : (∃ run', s.runs q = some run' ∧ run'.workloadSnapshotId ≠ none) ∨ q = r) :
    ∃ run', (WorkloadSnapshotService.attach s r id).runs q = some run' ∧
      run'.workloadSnapshotId ≠ none := by
  by_cases hqr : q = r
  · subst hqr
    refine ⟨{ run with workloadSnapshotId := run.workloadSnapshotId.or id }, ?_, ?_⟩
    · simp [WorkloadSnapshotService.attach, hrun]
    · cases run.workloadSnapshotId <;> simp
  · obtain ⟨run', hrun', hne⟩ := hq.resolve_right hqr
    exact ⟨run', by simp [WorkloadSnapshotService.attach, hqr, hrun'], hne⟩

theorem Sound.alone (h : Sound S s) (r : RunId) : Sound S (s.alone r) :=
  ⟨h.ids.sublist (List.filter_sublist.map _),
    fun a ha => h.attached a (List.mem_filter.mp ha).1,
    fun a ha => h.fingerprint a (List.mem_filter.mp ha).1⟩

theorem Sound.snapshot_eq_some (h : Sound S s) {id : SnapshotId} {a : WorkloadSnapshot δ} :
    s.snapshot id = some a ↔ a ∈ s.snapshots ∧ a.id = id := by
  constructor
  · intro ha
    exact ⟨List.mem_of_find?_eq_some ha, by simpa using List.find?_some ha⟩
  · rintro ⟨ha, rfl⟩
    obtain ⟨b, hb⟩ : ∃ b, s.snapshot a.id = some b :=
      Option.isSome_iff_exists.mp (List.find?_isSome.mpr ⟨a, ha, by simp⟩)
    have hid : b.id = a.id := by simpa using List.find?_some hb
    rw [hb, List.inj_on_of_nodup_map h.ids (List.mem_of_find?_eq_some hb) ha hid]

theorem Sound.unowned (h : Sound S s) {run : OptimizationRun}
    (hrun : s.runs r = some run) (hnone : run.workloadSnapshotId = none) : ∀ a ∈ s.snapshots, a.sourceRunId ≠ r := by
  rintro a ha rfl
  obtain ⟨run', hrun', hne⟩ := h.attached a ha
  rw [hrun] at hrun'
  cases hrun'
  exact hne hnone

theorem alone_eq_nil (h : ∀ a ∈ s.snapshots, a.sourceRunId ≠ r) : (s.alone r).snapshots = [] :=
  List.filter_eq_nil_iff.mpr (fun a ha => by simpa using h a ha)

theorem selectSourceWindows_congr {t : Database δ} (hnow : s.now = t.now)
    (hwindows : s.telemetry.completed target = t.telemetry.completed target) :
    S.selectSourceWindows s target = S.selectSourceWindows t target := by
  simp only [WorkloadSnapshotService.selectSourceWindows, hnow, hwindows]

theorem selectSourceWindows_completed
    (h : S.selectSourceWindows s target = .ok (windows, anchor)) :
    windows ⊆ s.telemetry.completed target := by
  simp only [WorkloadSnapshotService.selectSourceWindows] at h
  split at h
  · cases h
  · obtain ⟨-, h⟩ := require_bind_eq_ok.mp h
    obtain ⟨-, h⟩ := require_bind_eq_ok.mp h
    cases h
    intro w hw
    exact (List.mem_filter.mp ((List.mem_insertionSort _).mp hw)).1

theorem Telemetry.observed_of_subset (t : Telemetry) {some all : List TelemetryWindow}
    (h : some ⊆ all) : t.observed some =
      (t.observed all).filter (fun o => o.telemetryWindowId ∈ some.map (·.id)) := by
  rw [observed, observed, List.filter_filter]
  refine List.filter_congr (fun o _ => ?_)
  by_cases ho : o.telemetryWindowId ∈ some.map (·.id)
  · simp only [ho, decide_true, Bool.true_and, List.map_subset _ h ho]
  · simp only [ho, decide_false, Bool.false_and]

theorem buildMaterial_congr {t : Database δ}
    (h : s.telemetry.observed windows = t.telemetry.observed windows) :
    S.buildMaterial s windows target anchor r = S.buildMaterial t windows target anchor r := by
  simp only [WorkloadSnapshotService.buildMaterial, h]

@[simp] theorem alone_alone (s : Database δ) (r : RunId) : (s.alone r).alone r = s.alone r := by
  simp [Database.alone, List.filter_filter]

variable [DecidableEq δ]

theorem insertSnapshot_eq_ok {snapshot : WorkloadSnapshot δ} {t : Database δ} :
    WorkloadSnapshotService.insertSnapshot snapshot s = .ok t ↔
      (∀ a ∈ s.snapshots, a.fingerprint ≠ snapshot.fingerprint ∧
        a.sourceRunId ≠ snapshot.sourceRunId) ∧
      snapshot.sourceWindows.Nodup ∧ (snapshot.queryShapes.map (·.queryShapeId)).Nodup ∧
      ((snapshot.metrics.map (·.sourceMetricObservationId)).Nodup ∧
        ∀ id ∈ snapshot.metrics.map (·.sourceMetricObservationId), id ∉ s.frozen) ∧
      t = { s with snapshots := s.snapshots ++ [snapshot] } := by
  simp only [WorkloadSnapshotService.insertSnapshot, require_bind_eq_ok, List.all_eq_true,
    decide_eq_true_eq, pure, Except.pure, Except.ok.injEq, @eq_comm _ _ t]

variable {run : OptimizationRun}

theorem createForRun_of_unattached (hrun : s.runs r = some run)
    (hnone : run.workloadSnapshotId = none) : S.createForRun r s = S.materialize r run s := by
  simp [WorkloadSnapshotService.createForRun, WorkloadSnapshotService.lockedRun, hrun, hnone, bind,
    Except.bind]

theorem createForRun_of_attached (hrun : s.runs r = some run) {attached : SnapshotId}
    (hattached : run.workloadSnapshotId = some attached) :
    S.createForRun r s = S.reuse r run attached s := by
  simp [WorkloadSnapshotService.createForRun, WorkloadSnapshotService.lockedRun, hrun, hattached,
    bind, Except.bind]

theorem reuse_eq_ok {attached : SnapshotId} {x : WorkloadSnapshotResult δ × Database δ} :
    S.reuse r run attached s = .ok x ↔ ∃ a, s.snapshot attached = some a ∧
      S.validateExisting r run a = .ok () ∧ x = (⟨a.id, true, a.fingerprint⟩, s) := by
  rw [WorkloadSnapshotService.reuse]
  cases s.snapshot attached with
  | none => simp
  | some a =>
    simp only [bind_eq_ok, pure, Except.pure, Except.ok.injEq, Option.some.injEq]
    exact ⟨fun ⟨_, ha, hx⟩ => ⟨a, rfl, ha, hx.symm⟩, fun ⟨_, rfl, ha, hx⟩ => ⟨_, ha, hx.symm⟩⟩

theorem materialize_eq_ok {x : WorkloadSnapshotResult δ × Database δ} :
    S.materialize r run s = .ok x ↔ run.status = .snapshotting ∧
      ∃ windows anchor material t,
        S.selectSourceWindows s run.targetId = .ok (windows, anchor) ∧
        S.buildMaterial s windows run.targetId anchor r = .ok material ∧
        WorkloadSnapshotService.insertSnapshot
          (material.snapshot s.freshId r run.targetId windows anchor) s = .ok t ∧
        x = (⟨s.freshId, false, material.fingerprint⟩,
          WorkloadSnapshotService.attach t r s.freshId) := by
  rw [WorkloadSnapshotService.materialize, require_bind_eq_ok, decide_eq_true_eq]
  simp only [bind_eq_ok, Prod.exists, pure, Except.pure, Except.ok.injEq]
  constructor
  · rintro ⟨hstatus, windows, anchor, hselect, material, hbuild, t, hinsert, rfl⟩
    exact ⟨hstatus, windows, anchor, material, t, hselect, hbuild, hinsert, rfl⟩
  · rintro ⟨hstatus, windows, anchor, material, t, hselect, hbuild, hinsert, rfl⟩
    exact ⟨hstatus, windows, anchor, hselect, material, hbuild, t, hinsert, rfl⟩

/-- With no snapshot of its own there already, a run gets one unless an observation is frozen. -/
theorem materialize_isOk_iff (hinj : Function.Injective S.sha256)
    (hprint : ∀ a ∈ s.snapshots, ∃ document : Json, a.fingerprint = S.sha256 document ∧
      document.get "source_run_id" = .int a.sourceRunId)
    (hother : ∀ a ∈ s.snapshots, a.sourceRunId ≠ r) :
    (∃ x, S.materialize r run s = .ok x) ↔ run.status = .snapshotting ∧
      ∃ windows anchor material,
        S.selectSourceWindows s run.targetId = .ok (windows, anchor) ∧
        S.buildMaterial s windows run.targetId anchor r = .ok material ∧
        ∀ o ∈ s.telemetry.observed windows, o.id ∉ s.frozen := by
  constructor
  · rintro ⟨x, hx⟩
    obtain ⟨hstatus, windows, anchor, material, t, hselect, hbuild, hinsert, -⟩ :=
      materialize_eq_ok.mp hx
    obtain ⟨-, -, -, ⟨-, hfree⟩, -⟩ := insertSnapshot_eq_ok.mp hinsert
    refine ⟨hstatus, windows, anchor, material, hselect, hbuild, fun o ho => hfree _ ?_⟩
    exact (buildMaterial_insertable hbuild).metrics.mem_iff.mpr (List.mem_map_of_mem ho)
  · rintro ⟨hstatus, windows, anchor, material, hselect, hbuild, hfree⟩
    have hmaterial := buildMaterial_insertable hbuild
    have hinsert : WorkloadSnapshotService.insertSnapshot
        (material.snapshot s.freshId r run.targetId windows anchor) s = .ok _ :=
      insertSnapshot_eq_ok.mpr ⟨fun a ha => ⟨fun hsame => ?_, hother a ha⟩, selectSourceWindows_nodup hselect,
        hmaterial.shapes, ⟨?_, fun id hid => ?_⟩, rfl⟩
    · exact ⟨_, materialize_eq_ok.mpr
        ⟨hstatus, windows, anchor, material, _, hselect, hbuild, hinsert, rfl⟩⟩
    · obtain ⟨document, hdocument, hrun⟩ := hprint a ha
      obtain ⟨document', hdocument', hrun'⟩ := hmaterial.fingerprint
      have heq : document = document' :=
        hinj (hdocument.symm.trans (hsame.trans hdocument'))
      rw [heq, hrun'] at hrun
      exact hother a ha (Int.ofNat.inj (Json.int.inj hrun).symm)
    · exact hmaterial.metrics.nodup_iff.mpr (s.telemetry.observed_nodup windows)
    · obtain ⟨o, ho, rfl⟩ := List.mem_map.mp (hmaterial.metrics.mem_iff.mp hid)
      exact hfree o ho

theorem createForRun_cases {x : WorkloadSnapshotResult δ × Database δ}
    (h : S.createForRun r s = .ok x) : ∃ run, s.runs r = some run ∧
      (run.workloadSnapshotId = none ∧ S.materialize r run s = .ok x ∨
        ∃ attached, run.workloadSnapshotId = some attached ∧ S.reuse r run attached s = .ok x) := by
  cases hrun : s.runs r with
  | none => simp [WorkloadSnapshotService.createForRun, WorkloadSnapshotService.lockedRun, hrun, bind,
      Except.bind] at h
  | some run =>
    refine ⟨run, rfl, ?_⟩
    cases hattached : run.workloadSnapshotId with
    | none => exact .inl ⟨rfl, (createForRun_of_unattached hrun hattached).symm.trans h⟩
    | some attached =>
      exact .inr ⟨attached, rfl, (createForRun_of_attached hrun hattached).symm.trans h⟩

theorem Sound.create (h : Sound S s) {x : WorkloadSnapshotResult δ × Database δ}
    (hx : S.createForRun r s = .ok x) : Sound S x.2 := by
  obtain ⟨run, hrun, ⟨-, hx⟩ | ⟨attached, -, hx⟩⟩ := createForRun_cases hx
  · obtain ⟨-, windows, anchor, material, t, -, hbuild, hinsert, rfl⟩ := materialize_eq_ok.mp hx
    obtain ⟨-, -, -, -, rfl⟩ := insertSnapshot_eq_ok.mp hinsert
    refine ⟨?_, fun a ha => ?_, fun a ha => ?_⟩
    · simp only [WorkloadSnapshotService.attach, List.map_append, List.map_singleton]
      refine List.nodup_append.mpr ⟨h.ids, List.nodup_singleton _, fun id hid id' hid' heq => ?_⟩
      obtain ⟨a, ha, rfl⟩ := List.mem_map.mp hid
      obtain rfl := List.mem_singleton.mp hid'
      exact (lt_freshId ha).ne heq
    · rcases List.mem_append.mp ha with ha | ha
      · exact attach_attached hrun _ (.inl (h.attached a ha))
      · obtain rfl := List.mem_singleton.mp ha
        exact attach_attached hrun _ (.inr rfl)
    · rcases List.mem_append.mp ha with ha | ha
      · exact h.fingerprint a ha
      · obtain rfl := List.mem_singleton.mp ha
        exact (buildMaterial_insertable hbuild).fingerprint
  · obtain ⟨a, -, -, rfl⟩ := reuse_eq_ok.mp hx
    exact h

theorem Sound.step {t : Database δ} (h : Sound S s) (hstep : Step S s t) : Sound S t := by
  cases hstep with
  | telemetry telemetry => exact ⟨h.ids, h.attached, h.fingerprint⟩
  | clock now => exact ⟨h.ids, h.attached, h.fingerprint⟩
  | runs runs attached =>
    refine ⟨h.ids, fun a ha => ?_, h.fingerprint⟩
    obtain ⟨run, hrun, hattached⟩ := h.attached a ha
    exact attached _ run hrun hattached
  | create hx => exact h.create hx

theorem Reachable.sound (h : Reachable S s) : Sound S s := by
  induction h with
  | refl => exact .empty
  | tail _ hstep ih => exact ih.step hstep

theorem succeeds_of_attached (h : Sound S s) (hrun : s.runs r = some run) {attached : SnapshotId}
    (hattached : run.workloadSnapshotId = some attached) :
    Succeeds S r s ↔ ∃ a ∈ (s.alone r).snapshots, a.id = attached ∧
      S.validateExisting r run a = .ok () := by
  simp only [Succeeds, createForRun_of_attached hrun hattached, reuse_eq_ok, h.snapshot_eq_some]
  constructor
  · rintro ⟨_, a, ⟨ha, hid⟩, hvalid, rfl⟩
    obtain ⟨hown, -⟩ := require_bind_eq_ok.mp hvalid
    exact ⟨a, List.mem_filter.mpr ⟨ha, hown⟩, hid, hvalid⟩
  · rintro ⟨a, ha, hid, hvalid⟩
    exact ⟨_, a, ⟨(List.mem_filter.mp ha).1, hid⟩, hvalid, rfl⟩

theorem succeeds_of_unattached (hinj : Function.Injective S.sha256) (h : Sound S s)
    (hrun : s.runs r = some run) (hnone : run.workloadSnapshotId = none) :
    Succeeds S r s ↔ run.status = .snapshotting ∧ ∃ windows anchor material,
      S.selectSourceWindows s run.targetId = .ok (windows, anchor) ∧
      S.buildMaterial s windows run.targetId anchor r = .ok material ∧
      ∀ o ∈ s.telemetry.observed windows, o.id ∉ s.frozen := by
  rw [Succeeds, createForRun_of_unattached hrun hnone]
  exact materialize_isOk_iff hinj h.fingerprint (h.unowned hrun hnone)

/-- On its own, a run without a snapshot gets one if there is material for it. -/
theorem alone_succeeds (hinj : Function.Injective S.sha256) (h : Sound S s)
    (hrun : s.runs r = some run) (hnone : run.workloadSnapshotId = none) :
    Succeeds S r (s.alone r) ↔ run.status = .snapshotting ∧ ∃ windows anchor material,
      S.selectSourceWindows s run.targetId = .ok (windows, anchor) ∧
      S.buildMaterial s windows run.targetId anchor r = .ok material := by
  rw [succeeds_of_unattached hinj (h.alone r) hrun hnone]
  have hempty : (s.alone r).frozen = [] := by
    rw [Database.frozen, alone_eq_nil (h.unowned hrun hnone)]
    rfl
  simp only [hempty, List.not_mem_nil, not_false_eq_true, implies_true, and_true]
  exact Iff.rfl

/-- On its own, a run gets its snapshot by its own row, its target's telemetry and the clock. -/
theorem Agree.alone_succeeds {t : Database δ} (hinj : Function.Injective S.sha256)
    (hs : Sound S s) (ht : Sound S t) (h : Agree r s t) (hrun : s.runs r = some run) :
    Succeeds S r (s.alone r) ↔ Succeeds S r (t.alone r) := by
  have hrun' : t.runs r = some run := h.run.symm.trans hrun
  cases hattached : run.workloadSnapshotId with
  | some attached =>
    rw [succeeds_of_attached (hs.alone r) hrun hattached,
      succeeds_of_attached (ht.alone r) hrun' hattached, alone_alone, alone_alone, h.own]
  | none =>
    rw [Workloads.alone_succeeds hinj hs hrun hattached,
      Workloads.alone_succeeds hinj ht hrun' hattached,
      selectSourceWindows_congr h.now (h.windows run hrun)]
    have hmaterial : ∀ windows anchor,
        S.selectSourceWindows t run.targetId = .ok (windows, anchor) →
        S.buildMaterial s windows run.targetId anchor r =
          S.buildMaterial t windows run.targetId anchor r := by
      intro windows anchor hselect
      have hsub := selectSourceWindows_completed hselect
      refine buildMaterial_congr ?_
      rw [t.telemetry.observed_of_subset hsub, ← h.observations run hrun,
        s.telemetry.observed_of_subset ((h.windows run hrun).symm ▸ hsub)]
    refine and_congr_right (fun _ => exists_congr (fun windows => exists_congr (fun anchor =>
      exists_congr (fun material => and_congr_right (fun hselect => ?_)))))
    rw [hmaterial windows anchor hselect]

/-- Without what other runs have frozen, a run's snapshot depends on its target's completed
telemetry, the clock and the run; and those other snapshots make no difference to it exactly where
none of the observations that its lookback selects is frozen already. -/
theorem alone_iff_unfrozen (hinj : Function.Injective S.sha256) (hs : Reachable S s)
    (hrun : s.runs r = some run) (hstatus : run.status = .snapshotting) :
    (∀ t, Reachable S t → Agree r s t → (Succeeds S r (s.alone r) ↔ Succeeds S r (t.alone r))) ∧
      ((Succeeds S r s ↔ Succeeds S r (s.alone r)) ↔ Unfrozen S s r run) := by
  refine ⟨fun t ht h => h.alone_succeeds hinj hs.sound ht.sound hrun, ?_⟩
  cases hattached : run.workloadSnapshotId with
  | some attached =>
    rw [succeeds_of_attached hs.sound hrun hattached,
      succeeds_of_attached (hs.sound.alone r) hrun hattached, alone_alone]
    exact iff_of_true Iff.rfl (.inl (by simp [hattached]))
  | none =>
    rw [succeeds_of_unattached hinj hs.sound hrun hattached,
      alone_succeeds hinj hs.sound hrun hattached]
    constructor
    · intro h
      refine .inr (fun windows anchor material hselect hbuild => ?_)
      obtain ⟨-, windows', anchor', _, hselect', -, hfree⟩ :=
        h.mpr ⟨hstatus, windows, anchor, material, hselect, hbuild⟩
      rw [hselect] at hselect'
      cases hselect'
      exact hfree
    · rintro (hne | hfree)
      · exact absurd hattached hne
      · constructor
        · rintro ⟨-, windows, anchor, material, hselect, hbuild, -⟩
          exact ⟨hstatus, windows, anchor, material, hselect, hbuild⟩
        · rintro ⟨-, windows, anchor, material, hselect, hbuild⟩
          exact ⟨hstatus, windows, anchor, material, hselect, hbuild,
            hfree windows anchor material hselect hbuild⟩

end

section

/-- A digest that is the document. -/
def document : WorkloadSnapshotService Json where
  sha256 := id

def orders : QueryShape := ⟨1, "shape-1", "find", "orders"⟩

/-- One completed window, in which one query shape was seen. -/
def oneWindow : Telemetry where
  windows := [⟨1, 7, 0, 5000000, "QUERY_STATS", "COMPLETED"⟩]
  observations := [⟨1, 1, some orders, "operation_count", 100⟩]

def snapshotting : OptimizationRun where
  targetId := 7
  status := .snapshotting
  requestedByUserId := 1
  deploymentMode := .approvalControlled

/-- Two runs of one target, a second after its telemetry came in. -/
def twoRuns : Database Json where
  now := 6000000
  runs := fun _ => some snapshotting
  telemetry := oneWindow

theorem twoRuns_reachable : Reachable document twoRuns := by
  have hruns : Step document {} { runs := fun _ => some snapshotting } :=
    .runs _ (fun r run hrun => by cases hrun)
  have htelemetry : Step document { runs := fun _ => some snapshotting }
      { runs := fun _ => some snapshotting, telemetry := oneWindow } := .telemetry oneWindow
  exact .tail (.tail (.tail .refl hruns) htelemetry) (.clock 6000000)

theorem alone_iff_unfrozen_first :
    Succeeds document 1 twoRuns ↔ Succeeds document 1 (twoRuns.alone 1) :=
  (alone_iff_unfrozen (fun _ _ h => h) twoRuns_reachable rfl rfl).2.mpr
    (.inr (fun _ _ _ _ _ _ _ => by simp [Database.frozen, twoRuns]))

/-- The first run has its snapshot. -/
def firstTaken : Database Json := ((document.createForRun 1 twoRuns).toOption.map (·.2)).getD twoRuns

theorem firstTaken_reachable : Reachable document firstTaken := by
  have hok : (document.createForRun 1 twoRuns).isOk = true := by decide +kernel
  obtain ⟨⟨result, t⟩, ht⟩ := isOk_iff.mp hok
  rw [firstTaken, ht]
  exact twoRuns_reachable.tail (.create ht)

theorem not_alone_iff : ¬ ∀ s r run, Reachable document s → s.runs r = some run →
    run.status = .snapshotting →
    (Succeeds document r s ↔ Succeeds document r (s.alone r)) := by
  intro h
  have hrun : firstTaken.runs 2 = some snapshotting := by decide +kernel
  have hfails : (document.createForRun 2 firstTaken).isOk = false := by decide +kernel
  have halone : (document.createForRun 2 (firstTaken.alone 2)).isOk = true := by decide +kernel
  have hsucceeds := (h firstTaken 2 snapshotting firstTaken_reachable hrun rfl).mpr
    (isOk_iff.mp halone)
  rw [isOk_iff.mpr hsucceeds] at hfails
  cases hfails

end

end NoSQLOptimizer.Workloads
