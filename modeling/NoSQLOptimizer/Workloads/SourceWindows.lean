import Mathlib.Data.Prod.Lex
import NoSQLOptimizer.Workloads.Interference

namespace NoSQLOptimizer.Workloads

open ControlPlane Encoding

section Sorted

variable {α : Type} {le : α → α → Prop} {l : List α} {a : α}

theorem le_getLast (hl : l.Pairwise le) (ha : l.getLast? = some a) : ∀ b ∈ l, b = a ∨ le b a := by
  obtain ⟨init, rfl⟩ := List.getLast?_eq_some_iff.mp ha
  intro b hb
  rcases List.mem_append.mp hb with hb | hb
  · exact .inr ((List.pairwise_append.mp hl).2.2 b hb a List.mem_cons_self)
  · exact .inl (List.mem_singleton.mp hb)

theorem exists_getLast (ha : a ∈ l) : ∃ b, l.getLast? = some b :=
  ⟨_, List.getLast?_eq_some_getLast (List.ne_nil_of_mem ha)⟩

theorem head_le (hl : l.Pairwise le) (ha : l.head? = some a) : ∀ b ∈ l, b = a ∨ le a b := by
  cases l with
  | nil => cases ha
  | cons c l =>
    cases ha
    intro b hb
    rcases List.mem_cons.mp hb with rfl | hb
    · exact .inl rfl
    · exact .inr ((List.pairwise_cons.mp hl).1 b hb)

end Sorted

/-- `ORDER BY started_at, id`. -/
abbrev StartsBefore (a b : TelemetryWindow) : Prop :=
  a.startedAt < b.startedAt ∨ a.startedAt = b.startedAt ∧ a.id ≤ b.id

/-- `ORDER BY ended_at DESC, id DESC`. -/
abbrev EndsAfter (a b : TelemetryWindow) : Prop :=
  b.endedAt < a.endedAt ∨ b.endedAt = a.endedAt ∧ b.id ≤ a.id

section

variable {windows : List TelemetryWindow} {w : TelemetryWindow}

theorem startsBefore_iff {a b : TelemetryWindow} :
    StartsBefore a b ↔ toLex (a.startedAt, a.id) ≤ toLex (b.startedAt, b.id) := by
  rw [Prod.Lex.toLex_le_toLex]

theorem endsAfter_iff {a b : TelemetryWindow} :
    EndsAfter a b ↔ toLex (b.endedAt, b.id) ≤ toLex (a.endedAt, a.id) := by
  rw [Prod.Lex.toLex_le_toLex]

instance : Std.Total StartsBefore where
  total a b := by
    rw [startsBefore_iff, startsBefore_iff]
    exact le_total _ _

instance : IsTrans TelemetryWindow StartsBefore where
  trans a b c := by
    rw [startsBefore_iff, startsBefore_iff, startsBefore_iff]
    exact le_trans

instance : Std.Total EndsAfter where
  total a b := by
    rw [endsAfter_iff, endsAfter_iff]
    exact le_total _ _

instance : IsTrans TelemetryWindow EndsAfter where
  trans a b c := by
    rw [endsAfter_iff, endsAfter_iff, endsAfter_iff]
    exact fun hab hbc => le_trans hbc hab

theorem newest_eq_some (h : newest windows = some w) :
    w ∈ windows ∧ ∀ v ∈ windows, v.endedAt ≤ w.endedAt := by
  have hmem : w ∈ windows.insertionSort EndsAfter := List.mem_of_head? h
  refine ⟨(List.mem_insertionSort _).mp hmem, fun v hv => ?_⟩
  rcases head_le (List.pairwise_insertionSort EndsAfter windows) h v
    ((List.mem_insertionSort _).mpr hv) with rfl | hafter
  · exact le_refl _
  · rcases hafter with hlt | ⟨heq, -⟩
    · exact hlt.le
    · exact heq.le

theorem newest_isSome (h : w ∈ windows) : ∃ v, newest windows = some v := by
  refine Option.ne_none_iff_exists'.mp (fun hnone => ?_)
  have hnil : windows.insertionSort EndsAfter = [] := List.head?_eq_none_iff.mp hnone
  have hmem : w ∈ windows.insertionSort EndsAfter := (List.mem_insertionSort _).mpr h
  rw [hnil] at hmem
  cases hmem

theorem ordered_getLast (h : (ordered windows).getLast? = some w) :
    w ∈ windows ∧ ∀ v ∈ windows, StartsBefore v w := by
  have hmem : w ∈ windows.insertionSort StartsBefore := List.mem_of_getLast? h
  refine ⟨(List.mem_insertionSort _).mp hmem, fun v hv => ?_⟩
  rcases le_getLast (List.pairwise_insertionSort StartsBefore windows) h v
    ((List.mem_insertionSort _).mpr hv) with rfl | hbefore
  · exact .inr ⟨rfl, le_refl _⟩
  · exact hbefore

end

section

variable {δ : Type} {S : WorkloadSnapshotService δ} {s : Database δ} {target : TargetId}
  {windows : List TelemetryWindow} {anchor : Instant}

/-- The completed windows of the lookback. -/
def sources (S : WorkloadSnapshotService δ) (s : Database δ) (target : TargetId) (anchor : Instant) :
    List TelemetryWindow :=
  (s.telemetry.completed target).filter (fun w =>
    anchor - seconds S.lookbackSeconds ≤ w.startedAt ∧ w.endedAt ≤ anchor)

/-- The newest end of a completed window of the target, and that it is fresh. -/
structure Fresh (S : WorkloadSnapshotService δ) (s : Database δ) (target : TargetId)
    (anchor : Instant) : Prop where
  ends : ∃ w ∈ s.telemetry.completed target, w.endedAt = anchor
  newest : ∀ w ∈ s.telemetry.completed target, w.endedAt ≤ anchor
  fresh : s.now - anchor ≤ seconds S.maxSourceAgeSeconds

/-- What the selection is to be: a window that ends at the anchor is among the windows, each of them
is that window or lies within the lookback, and the one that the snapshot names ends at the anchor. -/
structure Anchors (S : WorkloadSnapshotService δ) (s : Database δ) (target : TargetId)
    (anchor : Instant) (windows : List TelemetryWindow) : Prop where
  selected : S.selectSourceWindows s target = .ok (windows, anchor)
  ends : ∃ w ∈ windows, w.endedAt = anchor
  within : ∀ w ∈ windows, w.endedAt = anchor ∨
    anchor - seconds S.lookbackSeconds ≤ w.startedAt ∧ w.endedAt ≤ anchor
  named : ∀ (material : Material δ) id r, ∃ w ∈ s.telemetry.completed target,
    w.id = (material.snapshot id r target windows anchor).telemetryWindowId ∧ w.endedAt = anchor

theorem Fresh.select (h : Fresh S s target anchor) : S.selectSourceWindows s target =
    if sources S s target anchor = [] then .error (retryable .noCompletedTelemetry)
    else .ok (ordered (sources S s target anchor), anchor) := by
  obtain ⟨w, hw, hanchor⟩ := h.ends
  obtain ⟨v, hv⟩ := newest_isSome hw
  obtain ⟨hmem, hmax⟩ := newest_eq_some hv
  have hend : v.endedAt = anchor := le_antisymm (h.newest v hmem) (hanchor ▸ hmax w hw)
  have hordered : ordered (sources S s target anchor) = [] ↔ sources S s target anchor = [] := by
    rw [ordered, ← List.length_eq_zero_iff, List.length_insertionSort, List.length_eq_zero_iff]
  have hfresh : decide (s.now - anchor ≤ seconds S.maxSourceAgeSeconds) = true :=
    decide_eq_true h.fresh
  simp only [WorkloadSnapshotService.selectSourceWindows, hv, hend, hfresh]
  rw [← sources]
  by_cases hnone : sources S s target anchor = []
  · rw [if_pos hnone, hnone]
    rfl
  · rw [if_neg hnone]
    have hsome : decide (ordered (sources S s target anchor) ≠ []) = true :=
      decide_eq_true (fun hnil => hnone (hordered.mp hnil))
    simp only [hsome]
    rfl

/-- The selection is as it is to be just where the window of the lookback that starts last ends at the
anchor. -/
theorem anchors_iff_starts_last (h : Fresh S s target anchor) :
    (∃ windows, Anchors S s target anchor windows) ↔
      ∃ w ∈ s.telemetry.completed target, w.endedAt = anchor ∧
        anchor - seconds S.lookbackSeconds ≤ w.startedAt ∧
        ∀ v ∈ s.telemetry.completed target, anchor - seconds S.lookbackSeconds ≤ v.startedAt →
          StartsBefore v w := by
  have hmem (w : TelemetryWindow) : w ∈ sources S s target anchor ↔
      w ∈ s.telemetry.completed target ∧ anchor - seconds S.lookbackSeconds ≤ w.startedAt := by
    rw [sources, List.mem_filter, decide_eq_true_eq]
    exact ⟨fun hw => ⟨hw.1, hw.2.1⟩, fun hw => ⟨hw.1, hw.2, h.newest w hw.1⟩⟩
  have hinj : ∀ v ∈ s.telemetry.completed target, ∀ w ∈ s.telemetry.completed target,
      v.id = w.id → v = w := fun v hv w hw =>
    List.inj_on_of_nodup_map s.telemetry.windows_nodup (List.mem_of_mem_filter hv)
      (List.mem_of_mem_filter hw)
  constructor
  · rintro ⟨windows, hanchors⟩
    have hselected := hanchors.selected
    rw [h.select] at hselected
    split at hselected
    · cases hselected
    next hnone =>
      cases hselected
      obtain ⟨v, hv, -⟩ := hanchors.ends
      obtain ⟨last, hlast⟩ := exists_getLast hv
      obtain ⟨hsource, hbefore⟩ := ordered_getLast hlast
      obtain ⟨w, hw, hid, hend⟩ :=
        hanchors.named ⟨.null, .null, [], [], S.sha256 .null⟩ 0 0
      simp only [Material.snapshot, hlast, Option.map_some, Option.getD_some] at hid
      obtain rfl := hinj w hw last ((hmem last).mp hsource).1 hid
      exact ⟨w, hw, hend, ((hmem w).mp hsource).2,
        fun v hv hstart => hbefore v ((hmem v).mpr ⟨hv, hstart⟩)⟩
  · rintro ⟨w, hw, hend, hstart, hlatest⟩
    have hsource : w ∈ sources S s target anchor := (hmem w).mpr ⟨hw, hstart⟩
    have hordered : w ∈ ordered (sources S s target anchor) :=
      (List.mem_insertionSort _).mpr hsource
    obtain ⟨last, hlast⟩ := exists_getLast hordered
    obtain ⟨hmemLast, hbefore⟩ := ordered_getLast hlast
    have hlastCompleted := (hmem last).mp hmemLast
    have hid : last.id = w.id := by
      have hle := startsBefore_iff.mp (hlatest last hlastCompleted.1 hlastCompleted.2)
      have hge := startsBefore_iff.mp (hbefore w hsource)
      exact (Prod.mk.inj (toLex_inj.mp (le_antisymm hle hge))).2
    refine ⟨ordered (sources S s target anchor), ?_, ⟨w, hordered, hend⟩, fun v hv => ?_, ?_⟩
    · rw [h.select, if_neg (List.ne_nil_of_mem hsource)]
    · obtain ⟨hv, hwithin⟩ := List.mem_filter.mp ((List.mem_insertionSort _).mp hv)
      exact .inr (of_decide_eq_true hwithin)
    · intro material id r
      refine ⟨w, hw, ?_, hend⟩
      simp only [Material.snapshot, hlast, Option.map_some, Option.getD_some, hid]

end

section

theorem twoRuns_fresh : Fresh document twoRuns 7 5000000 where
  ends := ⟨⟨1, 7, 0, 5000000, "QUERY_STATS", "COMPLETED"⟩, by decide +kernel, rfl⟩
  newest := by decide +kernel
  fresh := by decide +kernel

theorem anchors_iff_starts_last_twoRuns : Fresh document twoRuns 7 5000000 ∧
    ∃ windows, Anchors document twoRuns 7 5000000 windows := by
  refine ⟨twoRuns_fresh, (anchors_iff_starts_last twoRuns_fresh).mpr ?_⟩
  exact ⟨⟨1, 7, 0, 5000000, "QUERY_STATS", "COMPLETED"⟩, by decide +kernel, rfl, by decide +kernel,
    by decide +kernel⟩

/-- The second window began and ended within the first one. -/
def nested : Database Json where
  now := 11000000
  telemetry.windows := [⟨1, 7, 0, 10000000, "QUERY_STATS", "COMPLETED"⟩,
    ⟨2, 7, 2000000, 5000000, "QUERY_STATS", "COMPLETED"⟩]
  telemetry.observations := []
  telemetry.observations_nodup := List.nodup_nil

theorem not_anchors : ¬ ∀ (s : Database Json) (target : TargetId) (anchor : Instant),
    (∀ w ∈ s.telemetry.completed target, w.startedAt ≤ w.endedAt) →
    Fresh document s target anchor → ∃ windows, Anchors document s target anchor windows := by
  intro h
  have hfresh : Fresh document nested 7 10000000 :=
    ⟨⟨⟨1, 7, 0, 10000000, "QUERY_STATS", "COMPLETED"⟩, by decide +kernel, rfl⟩, by decide +kernel,
      by decide +kernel⟩
  obtain ⟨windows, hanchors⟩ := h nested 7 10000000 (by decide +kernel) hfresh
  have hselect : document.selectSourceWindows nested 7 = .ok (nested.telemetry.windows, 10000000) := by
    decide +kernel
  have hselected := hanchors.selected
  rw [hselect] at hselected
  cases hselected
  obtain ⟨w, hw, hid, hend⟩ := hanchors.named ⟨.null, .null, [], [], .null⟩ 0 0
  have hnone : ∀ w ∈ nested.telemetry.completed 7, w.id = 2 → w.endedAt ≠ 10000000 := by
    decide +kernel
  exact hnone w hw hid hend

end

end NoSQLOptimizer.Workloads
