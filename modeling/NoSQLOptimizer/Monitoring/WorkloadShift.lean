import Mathlib.Algebra.Order.Ring.Abs
import Mathlib.Data.Rat.Cast.Order
import NoSQLOptimizer.Monitoring.Episodes
import NoSQLOptimizer.Workloads.Snapshots

namespace NoSQLOptimizer.Monitoring

open Workloads (Share)

abbrev Distribution := List Share

inductive Error
  | value : String → Error
  | index : String → Error
  | zeroDivision : String → Error
  deriving DecidableEq

def addShare (values : Distribution) (share : Share) : Except Error Distribution :=
  if share.name = "" ∨ share.name ∈ values.map (·.name) ∨
      ¬ (0 ≤ share.fraction ∧ share.fraction ≤ 1) then
    .error (.value "workload distribution must contain unique probability shares")
  else .ok (values ++ [share])

/-- `_validated_distribution`. -/
def validatedDistribution (distribution : Distribution) : Except Error Distribution := do
  let values ← distribution.foldlM addShare []
  if values ≠ [] ∧ 1 / 1000000000 < |(values.map (·.fraction)).sum - 1| then
    throw (.value "workload distribution fractions must sum to one")
  else return values

/-- `values.get(name, 0.0)`. -/
def fractionOf (values : Distribution) (name : String) : ℚ :=
  ((values.find? (·.name = name)).map (·.fraction)).getD 0

def totalVariationDistance (baseline observed : Distribution) : Except Error ℚ := do
  let baseline ← validatedDistribution baseline
  let observed ← validatedDistribution observed
  let names := (baseline.map (·.name) ++ observed.map (·.name)).dedup
  return 1 / 2 * (names.map (fun name => |fractionOf baseline name - fractionOf observed name|)).sum

def totalVariationThreshold : ℚ := 1 / 5

def consecutiveWindowsRequired : ℕ := 3

structure WorkloadShiftDecision where
  totalVariationDistance : ℚ
  consecutiveShiftWindows : ℕ
  shiftDetected : Bool
  reanalysisRequested : Bool
  deriving DecidableEq

/-- The scheduler, by how often it was called. -/
structure ReanalysisScheduler where
  requests : ℕ := 0
  deriving DecidableEq

def ReanalysisScheduler.requestReanalysis (scheduler : ReanalysisScheduler) : ReanalysisScheduler :=
  ⟨scheduler.requests + 1⟩

structure WorkloadShiftDetector where
  consecutiveShiftWindows : ℕ := 0
  shiftEpisodeOpen : Bool := false
  deriving DecidableEq

/-- The comparison of the source, which allows for rounding. -/
def Shifted (distance : ℚ) : Prop := totalVariationThreshold ≤ distance + 1 / 1000000000000

instance : DecidablePred Shifted := fun _ => inferInstanceAs (Decidable (_ ≤ _))

def WorkloadShiftDetector.observe (detector : WorkloadShiftDetector)
    (scheduler : ReanalysisScheduler) (baseline observed : Distribution) :
    Except Error (WorkloadShiftDecision × WorkloadShiftDetector × ReanalysisScheduler) := do
  let distance ← Monitoring.totalVariationDistance baseline observed
  let consecutive := if Shifted distance then detector.consecutiveShiftWindows + 1 else 0
  let episodeOpen := detector.shiftEpisodeOpen && decide (Shifted distance)
  let detected := decide (consecutiveWindowsRequired ≤ consecutive)
  let requested := detected && !episodeOpen
  return (⟨distance, consecutive, detected, requested⟩, ⟨consecutive, episodeOpen || requested⟩,
    if requested then scheduler.requestReanalysis else scheduler)

/-- A window: what it is compared with, and what was observed. -/
abbrev Window := Distribution × Distribution

/-- The decisions so far, and where the detector and the scheduler stand. -/
abbrev Progress := List WorkloadShiftDecision × WorkloadShiftDetector × ReanalysisScheduler

def observeNext (s : Progress) (w : Window) : Except Error Progress := do
  let (decision, detector, scheduler) ← s.2.1.observe s.2.2 w.1 w.2
  return (s.1 ++ [decision], detector, scheduler)

/-- A sequence of windows that are fed to a new detector. -/
def observeAll (windows : List Window) : Except Error Progress :=
  windows.foldlM observeNext ([], {}, {})

/-- The `i`-th window is shifted. -/
def ShiftedAt (windows : List Window) (i : ℕ) : Prop :=
  ∃ w ∈ windows[i]?, ∃ distance ∈ (totalVariationDistance w.1 w.2).toOption, Shifted distance

instance (windows : List Window) : DecidablePred (ShiftedAt windows) := fun i =>
  inferInstanceAs (Decidable (∃ w ∈ windows[i]?,
    ∃ distance ∈ (totalVariationDistance w.1 w.2).toOption, Shifted distance))

def Valid (distribution : Distribution) : Prop :=
  ∃ values, validatedDistribution distribution = .ok values

section

variable {windows : List Window} {n : ℕ}

theorem not_shiftedAt (windows : List Window) : ∀ i, windows.length ≤ i → ¬ ShiftedAt windows i := by
  rintro i hi ⟨w, hw, -⟩
  rw [List.getElem?_eq_none hi] at hw
  cases hw

theorem totalVariationDistance_ok {baseline observed : Distribution} (hbaseline : Valid baseline)
    (hobserved : Valid observed) : ∃ distance, totalVariationDistance baseline observed = .ok distance := by
  obtain ⟨values, hvalues⟩ := hbaseline
  obtain ⟨values', hvalues'⟩ := hobserved
  rw [totalVariationDistance, hvalues, hvalues']
  exact ⟨_, rfl⟩

/-- Where the detector stands after `n` windows. -/
structure InStep (windows : List Window) (n : ℕ) (s : Progress) : Prop where
  length : s.1.length = n
  consecutive : s.2.1.consecutiveShiftWindows = streak (ShiftedAt windows) n
  episode : s.2.1.shiftEpisodeOpen = decide (3 ≤ streak (ShiftedAt windows) n)
  requests : s.2.2.requests =
    ((Finset.range n).filter (fun i => streak (ShiftedAt windows) (i + 1) = 3)).card
  decisions : ∀ i, ∀ d ∈ s.1[i]?,
    d.reanalysisRequested = decide (streak (ShiftedAt windows) (i + 1) = 3) ∧
    d.shiftDetected = decide (3 ≤ streak (ShiftedAt windows) (i + 1))

theorem InStep.empty (windows : List Window) : InStep windows 0 ([], {}, {}) where
  length := rfl
  consecutive := rfl
  episode := rfl
  requests := rfl
  decisions i d hd := by cases hd

/-- The counter and the flag stay in step. -/
theorem InStep.next {s : Progress} {w : Window} {distance : ℚ} (h : InStep windows n s)
    (hw : windows[n]? = some w) (hdistance : totalVariationDistance w.1 w.2 = .ok distance) :
    ∃ t, observeNext s w = .ok t ∧ InStep windows (n + 1) t := by
  obtain ⟨decisions, detector, scheduler⟩ := s
  have hshifted : ShiftedAt windows n ↔ Shifted distance := by
    simp [ShiftedAt, hw, hdistance, Except.toOption]
  have hstreak : streak (ShiftedAt windows) (n + 1) =
      if Shifted distance then detector.consecutiveShiftWindows + 1 else 0 := by
    rw [streak, h.consecutive]
    simp only [hshifted]
  have hepisode := h.episode
  have hconsecutive := h.consecutive
  dsimp only at hepisode hconsecutive
  rw [← hconsecutive] at hepisode
  have hrequested : (decide (3 ≤ streak (ShiftedAt windows) (n + 1)) &&
      !(detector.shiftEpisodeOpen && decide (Shifted distance))) =
      decide (streak (ShiftedAt windows) (n + 1) = 3) := by
    rw [hstreak, hepisode, Bool.eq_iff_iff]
    by_cases hs : Shifted distance <;> simp [hs]
    omega
  simp only [observeNext, WorkloadShiftDetector.observe, hdistance, consecutiveWindowsRequired,
    bind, Except.bind, pure, Except.pure]
  rw [← hstreak]
  refine ⟨_, rfl, ?_, rfl, ?_, ?_, ?_⟩
  · simp [h.length]
  · dsimp only
    rw [hrequested, hstreak, hepisode, Bool.eq_iff_iff]
    by_cases hs : Shifted distance <;> simp [hs]
    omega
  · dsimp only
    rw [hrequested, Finset.range_add_one, Finset.filter_insert]
    have hrequests : scheduler.requests = _ := h.requests
    by_cases hthird : streak (ShiftedAt windows) (n + 1) = 3
    · rw [if_pos (decide_eq_true hthird), if_pos hthird, Finset.card_insert_of_notMem (by simp),
        ReanalysisScheduler.requestReanalysis, hrequests]
    · rw [if_neg (by simpa using hthird), if_neg hthird, hrequests]
  · intro i d hd
    dsimp only at hd
    have hlength : decisions.length = n := h.length
    rcases lt_trichotomy i n with hlt | rfl | hgt
    · rw [List.getElem?_append_left (by omega)] at hd
      exact h.decisions i d hd
    · rw [← hlength, List.getElem?_concat_length] at hd
      obtain rfl := Option.mem_some_iff.mp hd
      rw [hlength]
      exact ⟨hrequested, rfl⟩
    · rw [List.getElem?_eq_none (by simp; omega)] at hd
      cases hd

/-- After each number of windows. -/
theorem observe_inStep (h : ∀ w ∈ windows, Valid w.1 ∧ Valid w.2) (hn : n ≤ windows.length) :
    ∃ s, observeAll (windows.take n) = .ok s ∧ InStep windows n s := by
  induction n with
  | zero => exact ⟨_, rfl, .empty windows⟩
  | succ n ih =>
    obtain ⟨s, hs, hstep⟩ := ih (by omega)
    have hlt : n < windows.length := by omega
    obtain ⟨hbaseline, hobserved⟩ := h windows[n] (List.getElem_mem hlt)
    obtain ⟨distance, hdistance⟩ := totalVariationDistance_ok hbaseline hobserved
    obtain ⟨t, ht, hnext⟩ := hstep.next (List.getElem?_eq_getElem hlt) hdistance
    refine ⟨t, ?_, hnext⟩
    rw [← List.take_append_getElem hlt, observeAll, List.foldlM_append, ← observeAll, hs]
    change List.foldlM observeNext s [windows[n]] = _
    rw [List.foldlM_cons, ht]
    rfl

/-- Requests are counted by the runs of three shifted windows or more; each is made at the third window
of its run, and a shift is detected from there on, to the end of the run. -/
theorem observe_counts_episodes (h : ∀ w ∈ windows, Valid w.1 ∧ Valid w.2) :
    ∃ decisions detector scheduler, observeAll windows = .ok (decisions, detector, scheduler) ∧
      decisions.length = windows.length ∧
      scheduler.requests =
        {r : ℕ × ℕ | Run (ShiftedAt windows) r.1 r.2 ∧ r.1 + 3 ≤ r.2 + 1}.ncard ∧
      ∀ i, ∀ d ∈ decisions[i]?,
        (d.reanalysisRequested = true ↔ ∃ first last, Run (ShiftedAt windows) first last ∧
          first + 3 = i + 1 ∧ i ≤ last) ∧
        (d.shiftDetected = true ↔ ∃ first last, Run (ShiftedAt windows) first last ∧
          first + 3 ≤ i + 1 ∧ i ≤ last) := by
  obtain ⟨⟨decisions, detector, scheduler⟩, hs, hstep⟩ := observe_inStep h (le_refl windows.length)
  rw [List.take_length] at hs
  have hend := not_shiftedAt windows
  refine ⟨decisions, detector, scheduler, hs, hstep.length, ?_, fun i d hd => ?_⟩
  · rw [← card_streak_eq hend (by decide)]
    exact hstep.requests
  · obtain ⟨hrequested, hdetected⟩ := hstep.decisions i d hd
    rw [hrequested, hdetected, decide_eq_true_eq, decide_eq_true_eq,
      streak_eq_iff hend (by decide), le_streak_iff hend (by decide)]
    exact ⟨Iff.rfl, Iff.rfl⟩

end

section

/-- Reads and writes in equal parts, and reads alone. -/
def readsAlone : Window := ([⟨"read", 1 / 2⟩, ⟨"write", 1 / 2⟩], [⟨"read", 1⟩])

instance (distribution : Distribution) : Decidable (Valid distribution) :=
  match h : validatedDistribution distribution with
  | .ok values => isTrue ⟨values, h⟩
  | .error e => isFalse (fun ⟨values, hvalues⟩ => by rw [h] at hvalues; cases hvalues)

theorem observe_counts_episodes_readsAlone :
    (∀ w ∈ List.replicate 5 readsAlone, Valid w.1 ∧ Valid w.2) ∧
    ∃ decisions detector scheduler,
      observeAll (List.replicate 5 readsAlone) = .ok (decisions, detector, scheduler) ∧
      scheduler.requests = {r : ℕ × ℕ | Run (ShiftedAt (List.replicate 5 readsAlone)) r.1 r.2 ∧
        r.1 + 3 ≤ r.2 + 1}.ncard := by
  have hvalid : ∀ w ∈ List.replicate 5 readsAlone, Valid w.1 ∧ Valid w.2 := by decide +kernel
  obtain ⟨decisions, detector, scheduler, hs, -, hrequests, -⟩ := observe_counts_episodes hvalid
  exact ⟨hvalid, decisions, detector, scheduler, hs, hrequests⟩

/-- The `i`-th window is at the threshold or above. -/
def AtThreshold (windows : List Window) (i : ℕ) : Prop :=
  ∃ w ∈ windows[i]?, ∃ distance ∈ (totalVariationDistance w.1 w.2).toOption,
    totalVariationThreshold ≤ distance

/-- A distance that falls short of the threshold by less than is allowed for rounding. -/
def nearly : Window := ([⟨"read", 1 / 2⟩, ⟨"write", 1 / 2⟩],
  [⟨"read", 3 / 10 + 1 / 2000000000000⟩, ⟨"write", 7 / 10 - 1 / 2000000000000⟩])

theorem not_counts_at_threshold : ¬ ∀ windows : List Window,
    (∀ w ∈ windows, Valid w.1 ∧ Valid w.2) →
    ∀ decisions detector scheduler, observeAll windows = .ok (decisions, detector, scheduler) →
      scheduler.requests =
        {r : ℕ × ℕ | Run (AtThreshold windows) r.1 r.2 ∧ r.1 + 3 ≤ r.2 + 1}.ncard := by
  intro h
  have hrun : (observeAll [nearly, nearly, nearly]).toOption.map (·.2.2) = some ⟨1⟩ := by
    decide +kernel
  have hbelow : ∀ i, ¬ AtThreshold [nearly, nearly, nearly] i := by
    have hdistance : totalVariationDistance nearly.1 nearly.2 =
        .ok (1 / 5 - 1 / 2000000000000) := by
      decide +kernel
    rintro i ⟨w, hw, distance, hd, hle⟩
    obtain rfl : w = nearly := by
      have hmem := List.mem_of_getElem? hw
      simpa using hmem
    rw [hdistance] at hd
    obtain rfl := Option.mem_some_iff.mp hd
    exact absurd hle (by decide +kernel)
  obtain ⟨s, hs, hrequests⟩ := Option.map_eq_some_iff.mp hrun
  have hall : observeAll [nearly, nearly, nearly] = .ok s := by
    cases hobserved : observeAll [nearly, nearly, nearly] with
    | error e =>
      rw [hobserved] at hs
      cases hs
    | ok t =>
      rw [hobserved] at hs
      exact congrArg Except.ok (Option.some.inj hs)
  have hnone : {r : ℕ × ℕ | Run (AtThreshold [nearly, nearly, nearly]) r.1 r.2 ∧
      r.1 + 3 ≤ r.2 + 1} = ∅ :=
    Set.eq_empty_iff_forall_notMem.mpr
      (fun r hr => hbelow r.1 (hr.1.holds r.1 (le_refl _) hr.1.le))
  have hcount := h [nearly, nearly, nearly] (by decide +kernel) s.1 s.2.1 s.2.2 hall
  rw [hnone, Set.ncard_empty, hrequests] at hcount
  exact absurd hcount (by decide)

end

end NoSQLOptimizer.Monitoring
