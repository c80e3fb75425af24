import NoSQLOptimizer.Benchmarks.Publication
import NoSQLOptimizer.Files.Simulation

namespace NoSQLOptimizer.Benchmarks.Publication

open Admission Encoding Files

variable {F : Type} [Numerics F] (p : Publication F)

/-- The pairs of the calibration with their numbers, and the candidate pairs up to a count. -/
def aaPairs : List (String × ℕ) := p.aaPairIds.zipIdx 1

def candidatePairs (count : ℕ) : List (String × ℕ) :=
  ((List.range' 1 count).map (fun index => p.experimentId ++ "-cand-" ++ twoDigits index)).zipIdx 1

def pairs : List (String × ℕ) :=
  p.aaPairs ++ p.candidatePairs publicationProtocol.maximumCandidatePairs

/-- The two records of a pair. -/
def evidence (pair : String × ℕ) :
    Except PublicationError (RealBenchmarkRunRecord × RealBenchmarkRunRecord) :=
  p.runPair pair.1 (deterministicArmOrder F pair.1 pair.2)

/-- The two values of a pair. -/
def values (pair : String × ℕ) : Except PublicationError (F × F) := do
  let records ← p.evidence pair
  return (← records.1.p99 p.float (p.path pair.1), ← records.2.p99 p.float (p.path pair.1))

/-- What the values of the calibration pairs come to. -/
def calibrationOf (aaValues : List (F × F)) : Except PublicationError (Calibration F) := do
  let scores ← aaScores aaValues
  let required ← required aaValues scores
  return { aaPairCount := p.aaPairs.length, scores, required }

/-- What a run comes to before the candidate pairs, all files apart. -/
def calibration : Except PublicationError (Calibration F) := do
  let _ ← p.aaPairs.mapM p.evidence
  p.calibrationOf (← p.aaPairs.mapM p.values)

def comparison (calibration : Calibration F) : Except PublicationError (PublicationSummary F) := do
  let pairIds ← p.candidatePairIds calibration.required.requiredPairs
  let _ ← (pairIds.zipIdx 1).mapM p.evidence
  let candidatePairs ← (pairIds.zipIdx 1).mapM p.values
  let admission ← p.admission calibration.scores candidatePairs
  return p.summary calibration
    (.decided (pairIds.zipIdx 1).length admission p.plan.safetyGate p.plan.sandboxOnly)

/-- The final decision. -/
def decision : Except PublicationError (PublicationSummary F) := do
  let calibration ← p.calibration
  if calibration.required.status = .inconclusiveNoise then
    return p.summary calibration .inconclusiveNoise
  else p.comparison calibration

theorem evidence_arms {pair : String × ℕ} {r : RealBenchmarkRunRecord × RealBenchmarkRunRecord}
    (h : p.evidence pair = .ok r) : r.1.arm = .baseline ∧ r.2.arm = .candidate := by
  simp only [evidence, runPair] at h
  split_ifs at h
  cases h
  exact ⟨rfl, rfl⟩

end NoSQLOptimizer.Benchmarks.Publication

namespace NoSQLOptimizer.Benchmarks.Publication

variable {F : Type} (p : Publication F)

theorem numbered_eq (f : ℕ → String) (count : ℕ) :
    ((List.range' 1 count).map f).zipIdx 1 = (List.range' 1 count).map (fun i => (f i, i)) := by
  apply List.ext_getElem
  · simp
  · intro i h h'
    simp

theorem candidatePairs_start {count most : ℕ} (h : count ≤ most) :
    p.candidatePairs count <+: p.candidatePairs most := by
  rw [candidatePairs, candidatePairs, numbered_eq, numbered_eq]
  apply List.IsPrefix.map
  obtain ⟨more, rfl⟩ := Nat.exists_eq_add_of_le h
  rw [← List.range'_append]
  exact List.prefix_append _ _

theorem candidatePairs_of_candidatePairIds {count : Int} {pairIds : List String}
    (h : p.candidatePairIds count = .ok pairIds) :
    pairIds.zipIdx 1 = p.candidatePairs count.toNat ∧
      count.toNat ≤ publicationProtocol.maximumCandidatePairs := by
  unfold candidatePairIds at h
  split_ifs at h with hcount
  cases h
  exact ⟨rfl, Int.toNat_le.mpr hcount.2⟩

theorem mem_pairs_of_candidatePairIds {count : Int} {pairIds : List String}
    (h : p.candidatePairIds count = .ok pairIds) : ∀ q ∈ pairIds.zipIdx 1, q ∈ p.pairs := by
  obtain ⟨heq, hle⟩ := p.candidatePairs_of_candidatePairIds h
  intro q hq
  rw [heq] at hq
  exact List.mem_append_right _ ((p.candidatePairs_start hle).subset hq)

theorem exists_of_mem_pairs {pair : String × ℕ} (h : pair ∈ p.pairs) :
    pair.2 < 41 ∧ (pair.1 = p.experimentId ++ "-aa-" ++ twoDigits pair.2 ∨
      pair.1 = p.experimentId ++ "-cand-" ++ twoDigits pair.2) := by
  rw [pairs, aaPairs, aaPairIds, candidatePairs, numbered_eq, numbered_eq, List.mem_append] at h
  rcases h with h | h
  · obtain ⟨i, hi, rfl⟩ := List.mem_map.mp h
    rw [List.mem_range'_1] at hi
    exact ⟨hi.2.trans_le (by decide), .inl rfl⟩
  · obtain ⟨i, hi, rfl⟩ := List.mem_map.mp h
    rw [List.mem_range'_1] at hi
    exact ⟨hi.2.trans_le (by decide), .inr rfl⟩

theorem number_twoDigits : ∀ i < 41,
    (twoDigits i).toList.foldl (fun n c => 10 * n + (c.toNat - '0'.toNat)) 0 = i := by
  decide +kernel

theorem twoDigits_inj {i j : ℕ} (hi : i < 41) (hj : j < 41) (h : twoDigits i = twoDigits j) :
    i = j := by
  rw [← number_twoDigits i hi, h, number_twoDigits j hj]

/-- No two pairs have one file. -/
theorem fileName_inj {pair pair' : String × ℕ} (h : pair ∈ p.pairs) (h' : pair' ∈ p.pairs)
    (hname : fileName pair.1 = fileName pair'.1) : pair = pair' := by
  have hids : pair.1 = pair'.1 := (String.append_left_inj ".jsonl").mp hname
  obtain ⟨hlt, hid⟩ := p.exists_of_mem_pairs h
  obtain ⟨hlt', hid'⟩ := p.exists_of_mem_pairs h'
  refine Prod.ext hids (twoDigits_inj hlt hlt' ?_)
  have hne (s t : String) : p.experimentId ++ "-aa-" ++ s ≠ p.experimentId ++ "-cand-" ++ t := by
    intro heq
    rw [String.append_assoc, String.append_assoc, String.append_right_inj] at heq
    have hlists := congrArg String.toList heq
    simp at hlists
  rcases hid with hid | hid <;> rcases hid' with hid' | hid'
  · rwa [hid, hid', String.append_right_inj] at hids
  · exact absurd (hid.symm.trans (hids.trans hid')) (hne _ _)
  · exact absurd (hid'.symm.trans (hids.symm.trans hid)) (hne _ _)
  · rwa [hid, hid', String.append_right_inj] at hids

end NoSQLOptimizer.Benchmarks.Publication

namespace NoSQLOptimizer.Benchmarks.Publication

open Admission Encoding Files

variable {F : Type} (p : Publication F)

theorem output_ne_pairs : Folder.output ≠ Folder.pairs := by decide

section

variable {P : Machine Folder String → Prop}
  (hP : ∀ m disk, disk.file .pairs = m.disk.file .pairs → P m → P { m with disk := disk })
include hP

/-- A change in the output folder that nothing cuts short is none to the evidence. -/
theorem spec_change {c : Change Folder String} {Q : Disk Folder String → Prop}
    (htouch : ∀ name, ¬ c.Touches .pairs name)
    (happly : ∀ disk, Q disk → ∃ disk', c.apply disk = some disk') :
    Filing.Spec (ε := PublicationError) (fun m => (m.faults = [] ∧ P m) ∧ Q m.disk)
      (Filing.change c)
      (fun _ m => (m.faults = [] ∧ P m) ∧ ∃ disk, Q disk ∧ c.apply disk = some m.disk)
      (fun _ _ => False) := by
  apply Filing.Spec.change_of_apply
  rintro m ⟨⟨hfaults, hm⟩, hQ⟩
  obtain ⟨disk', hdisk'⟩ := happly m.disk hQ
  exact ⟨hfaults, disk', hdisk',
    ⟨hfaults, hP m disk' (Change.file_eq htouch hdisk') hm⟩, m.disk, hQ, hdisk'⟩

theorem spec_mkdir (folder : Folder) :
    Filing.Spec (ε := PublicationError) (fun m => m.faults = [] ∧ P m)
      (Filing.change (.mkdir folder true)) (fun _ m => m.faults = [] ∧ P m) (fun _ _ => False) := by
  apply Filing.Spec.change_of_apply
  rintro m ⟨hfaults, hm⟩
  obtain ⟨disk', hdisk', -⟩ := Change.apply_mkdir m.disk folder
  exact ⟨hfaults, disk', hdisk', hfaults, hP m disk' (Change.file_eq (fun _ => id) hdisk') hm⟩

theorem spec_writeJson [Numerics F] (name : String) (report : Report F) :
    Filing.Spec (fun m => m.faults = [] ∧ P m) (p.writeJson name report)
      (fun _ m => m.faults = [] ∧ P m) (fun _ _ => False) := by
  have hmkdir := spec_change hP (c := .mkdir .output true) (Q := fun _ => True) (fun _ => id)
    (fun disk _ => (Change.apply_mkdir disk .output).imp (fun _ h => h.1))
  have hcreate := spec_change hP (c := .create .output (name ++ ".tmp"))
    (Q := fun disk => (disk .output).isSome) (Change.not_touches_of_folder output_ne_pairs)
    (fun _ h => Change.apply_create h _)
  have happend := spec_change hP (c := .append .output (name ++ ".tmp") (p.render report))
    (Q := fun disk => disk.file .output (name ++ ".tmp") = some []) (Change.not_touches_of_folder output_ne_pairs)
    (fun _ h => Change.apply_append h _)
  have hreplace := spec_change hP (c := .replace .output (name ++ ".tmp") name)
    (Q := fun disk => disk.file .output (name ++ ".tmp") = some (p.render report))
    (Change.not_touches_of_folder output_ne_pairs) (fun _ h => Change.apply_replace h _)
  unfold writeJson
  apply (hmkdir.mono (fun m hm => ⟨hm, trivial⟩) ?_ (fun _ _ => id)).bind
  · intro _
    apply (hcreate.mono (fun _ => id) ?_ (fun _ _ => id)).bind
    · intro _
      apply (happend.mono (fun _ => id) ?_ (fun _ _ => id)).bind
      · intro _
        exact hreplace.mono (fun _ => id) (fun _ _ => And.left) (fun _ _ => id)
      · rintro _ m ⟨hm, disk, hfile, hdisk⟩
        obtain ⟨before, hbefore, hafter⟩ := Change.file_apply_append hdisk
        cases hfile.symm.trans hbefore
        exact ⟨hm, hafter⟩
    · rintro _ m ⟨hm, disk, -, hdisk⟩
      exact ⟨hm, Change.file_apply_create hdisk⟩
  · rintro _ m ⟨hm, disk, -, hdisk⟩
    obtain ⟨disk', hdisk', hsome⟩ := Change.apply_mkdir disk .output
    cases hdisk.symm.trans hdisk'
    exact ⟨hm, hsome⟩

end

end NoSQLOptimizer.Benchmarks.Publication

namespace NoSQLOptimizer.Benchmarks.Publication

open Admission Encoding Files

/-- What is written of a pair. -/
def records (r : RealBenchmarkRunRecord × RealBenchmarkRunRecord) : List Json := [r.1.line, r.2.line]

theorem persist_pair (pairId : String) (b c : RealBenchmarkRunRecord) :
    persist pairId [b, c] = (do
      Filing.change (.mkdir .pairs true)
      Filing.change (.create .pairs (fileName pairId))
      Filing.change (.append .pairs (fileName pairId) (b.line.dumps ++ ['\n']))
      Filing.change (.append .pairs (fileName pairId) (c.line.dumps ++ ['\n']))) := by
  simp only [persist, List.forM_eq_forM, List.forM_cons, List.forM_nil, bind_pure_unit]

theorem persist_apply {m : Machine Folder String} (hm : m.faults = []) (pairId : String)
    (r : RealBenchmarkRunRecord × RealBenchmarkRunRecord) :
    ∃ disk, persist pairId [r.1, r.2] m = (.ok (), { m with disk := disk }) ∧
      disk.file .pairs =
        Function.update (m.disk.file .pairs) (fileName pairId) (some (jsonLines (records r))) := by
  obtain ⟨disk₁, h₁, hfolder⟩ := Change.apply_mkdir m.disk .pairs
  obtain ⟨disk₂, h₂⟩ := Change.apply_create hfolder (fileName pairId)
  have hfile₂ := Change.file_apply_create h₂
  obtain ⟨disk₃, h₃⟩ := Change.apply_append hfile₂ (r.1.line.dumps ++ ['\n'])
  have hfiles₃ := Change.file_eq_append h₃ hfile₂
  obtain ⟨disk₄, h₄⟩ := Change.apply_append (by rw [hfiles₃, Function.update_self])
    (r.2.line.dumps ++ ['\n'])
  have hfiles₄ := Change.file_eq_append h₄ (by rw [hfiles₃, Function.update_self])
  refine ⟨disk₄, ?_, ?_⟩
  · rw [persist_pair, Filing.bind_of_ok (Filing.change_of_apply hm h₁),
      Filing.bind_of_ok (Filing.change_of_apply (m := { m with disk := disk₁ }) hm h₂),
      Filing.bind_of_ok (Filing.change_of_apply (m := { m with disk := disk₂ }) hm h₃),
      Filing.change_of_apply (m := { m with disk := disk₃ }) hm h₄]
  · rw [hfiles₄, hfiles₃, Change.file_eq_create h₂, Change.file_eq (fun _ => id) h₁,
      Function.update_idem, Function.update_idem]
    simp [records, jsonLines]

section

variable (files : String → Option Text) (pair : String × ℕ)

def Begun : Prop := ∃ text, files (fileName pair.1) = some text ∧ text ≠ []

variable {F : Type} [Numerics F] (p : Publication F)

/-- The evidence of the pair is there. -/
def Done : Prop :=
  ∃ text r, files (fileName pair.1) = some text ∧ p.evidence pair = .ok r ∧ Whole (records r) text

/-- If there is anything of the pair, all of it is. -/
def Intact : Prop :=
  ∀ text, files (fileName pair.1) = some text →
    ∃ r, p.evidence pair = .ok r ∧ (text = [] ∨ Whole (records r) text)

end

section

variable {F : Type} [Numerics F] (p : Publication F) {files : String → Option Text}
  {pair : String × ℕ} {r : RealBenchmarkRunRecord × RealBenchmarkRunRecord} {text : Text}

theorem ne_nil_of_whole (h : Whole (records r) text) : text ≠ [] := by
  rintro rfl
  obtain ⟨cs, hcs⟩ := r.1.recorded.dumps_eq_cons
  rw [Whole, records, jsonLines_cons, hcs] at h
  rcases h with h | h <;> simp at h

theorem start_of_whole (h : Whole (records r) text) : text <+: jsonLines (records r) := by
  rcases h with h | h
  · rw [h]
  · rw [← h]
    exact List.prefix_append _ _

theorem Done.begun (h : p.Done files pair) : Begun files pair := by
  obtain ⟨text, r, hfile, -, hwhole⟩ := h
  exact ⟨text, hfile, ne_nil_of_whole hwhole⟩

theorem Done.intact (h : p.Done files pair) : p.Intact files pair := by
  obtain ⟨text, r, hfile, hevidence, hwhole⟩ := h
  intro text' hfile'
  cases hfile.symm.trans hfile'
  exact ⟨r, hevidence, .inr hwhole⟩

/-- What is written of a pair is its evidence, and no other pair's. -/
theorem done_update (hevidence : p.evidence pair = .ok r) :
    p.Done (Function.update files (fileName pair.1) (some (jsonLines (records r)))) pair :=
  ⟨_, r, Function.update_self _ _ _, hevidence, .inl rfl⟩

/-- What is read of a pair is what it measured. -/
theorem readPair_of_done {m : Machine Folder String} (h : p.Done (m.disk.file .pairs) pair) :
    p.readPair pair.1 m = ((p.values pair).mapError .error, m) := by
  obtain ⟨text, r, hfile, hevidence, hwhole⟩ := h
  obtain ⟨hb, hc⟩ := p.evidence_arms hevidence
  rw [readPair, Filing.bind_of_ok (Filing.readText_of_file hfile), Filing.lift_apply,
    pairP99_of_whole p.float (p.path pair.1) hb hc (start_of_whole hwhole) hwhole, values, hevidence]
  rfl

end

end NoSQLOptimizer.Benchmarks.Publication

namespace NoSQLOptimizer.Benchmarks.Publication

open Admission Encoding Files

variable {F : Type} [Numerics F] (p : Publication F) {m : Machine Folder String}
  {pair : String × ℕ} {K xs : List (String × ℕ)}

theorem ensurePair_of_begun (h : Begun (m.disk.file .pairs) pair) : p.ensurePair pair m =
    (.ok pair.1, { m with examined := (.pairs, fileName pair.1) :: m.examined }) := by
  obtain ⟨text, hfile, hne⟩ := h
  have hany : ((m.disk.file .pairs (fileName pair.1)).map List.length).any (0 < ·) = true := by
    rw [hfile, Option.map_some, Option.any_some, decide_eq_true_eq]
    exact List.length_pos_iff.mpr hne
  rw [ensurePair, Filing.bind_of_ok (Filing.size_apply m), if_pos hany]
  rfl

theorem ensurePair_of_not_begun (h : ¬ Begun (m.disk.file .pairs) pair) : p.ensurePair pair m =
    (do
      let records ← Filing.lift (p.evidence pair)
      persist pair.1 [records.1, records.2]
      return pair.1 : Run String)
    { m with examined := (.pairs, fileName pair.1) :: m.examined } := by
  have hany : ((m.disk.file .pairs (fileName pair.1)).map List.length).any (0 < ·) ≠ true := by
    intro hany
    cases hfile : m.disk.file .pairs (fileName pair.1) with
    | none =>
      rw [hfile] at hany
      exact Bool.false_ne_true hany
    | some text =>
      rw [hfile, Option.map_some, Option.any_some, decide_eq_true_eq] at hany
      exact h ⟨text, hfile, List.length_pos_iff.mp hany⟩
  rw [ensurePair, Filing.bind_of_ok (Filing.size_apply m), if_neg hany]
  rfl

/-- Nothing that was asked for its size is left empty, and whatever there is of a pair is all. -/
structure Sound (K : List (String × ℕ)) (m : Machine Folder String) : Prop where
  intact : ∀ pair ∈ K, p.Intact (m.disk.file .pairs) pair
  examined : ∀ pair ∈ K, (Folder.pairs, fileName pair.1) ∈ m.examined →
    m.disk.file .pairs (fileName pair.1) ≠ some []

namespace Sound

variable {p}

theorem examine (h : p.Sound K m) (hfile : m.disk.file .pairs (fileName pair.1) ≠ some []) :
    p.Sound K { m with examined := (.pairs, fileName pair.1) :: m.examined } where
  intact := h.intact
  examined q hq hmem := by
    rcases List.mem_cons.mp hmem with heq | hmem
    · rw [Prod.mk.injEq] at heq
      rw [heq.2]
      exact hfile
    · exact h.examined q hq hmem

theorem write (h : p.Sound K m) (hK : ∀ q ∈ K, q ∈ p.pairs) (hpair : pair ∈ K)
    {r : RealBenchmarkRunRecord × RealBenchmarkRunRecord} (hevidence : p.evidence pair = .ok r)
    {disk : Disk Folder String} (hdisk : disk.file .pairs =
      Function.update (m.disk.file .pairs) (fileName pair.1) (some (jsonLines (records r)))) :
    p.Sound K { m with
      disk := disk, examined := (.pairs, fileName pair.1) :: m.examined } where
  intact q hq := by
    simp only [hdisk]
    by_cases heq : fileName q.1 = fileName pair.1
    · cases p.fileName_inj (hK q hq) (hK pair hpair) heq
      exact (p.done_update hevidence).intact
    · intro text htext
      rw [Function.update_of_ne heq] at htext
      exact h.intact q hq text htext
  examined q hq hmem := by
    simp only [hdisk]
    by_cases heq : fileName q.1 = fileName pair.1
    · rw [heq, Function.update_self, ne_eq, Option.some.injEq]
      exact ne_nil_of_whole (r := r) (.inl rfl)
    · rw [Function.update_of_ne heq]
      rcases List.mem_cons.mp hmem with hkey | hmem
      · exact absurd (Prod.mk.inj hkey).2 heq
      · exact h.examined q hq hmem

end Sound

def Ready (K : List (String × ℕ)) (m : Machine Folder String) : Prop := m.faults = [] ∧ p.Sound K m

/-- These pairs have all been run. -/
def Settled (K xs : List (String × ℕ)) (m : Machine Folder String) : Prop :=
  p.Ready K m ∧ ∀ q ∈ xs, p.Done (m.disk.file .pairs) q

section

variable (hK : ∀ q ∈ K, q ∈ p.pairs)
include hK

theorem ensurePair_follows {done : List (String × ℕ)} (hdone : ∀ q ∈ done, q ∈ K)
    (hpair : pair ∈ K) :
    Filing.Follows (p.Settled K done) (p.ensurePair pair) (p.evidence pair)
      (fun pairId _ m => pairId = pair.1 ∧ p.Settled K (done ++ [pair]) m) (p.Sound K) := by
  rintro m ⟨⟨hfaults, hsound⟩, hsettled⟩
  have hintact := hsound.intact pair hpair
  by_cases hbegun : Begun (m.disk.file .pairs) pair
  · obtain ⟨text, hfile, hne⟩ := hbegun
    obtain ⟨r, hevidence, hwhole⟩ := hintact text hfile
    rw [p.ensurePair_of_begun ⟨text, hfile, hne⟩, hevidence]
    refine ⟨rfl, ⟨hfaults, hsound.examine ?_⟩, List.forall_mem_append.mpr ⟨hsettled, ?_⟩⟩
    · rw [hfile, ne_eq, Option.some.injEq]
      exact hne
    · exact List.forall_mem_singleton.mpr
        ⟨text, r, hfile, hevidence, hwhole.resolve_left hne⟩
  · rw [p.ensurePair_of_not_begun hbegun]
    cases hevidence : p.evidence pair with
    | error e =>
      refine ⟨rfl, hsound.examine (fun hfile => ?_)⟩
      obtain ⟨r, hr, -⟩ := hintact [] hfile
      rw [hevidence] at hr
      cases hr
    | ok r =>
      obtain ⟨disk, hpersist, hdisk⟩ := persist_apply
        (m := { m with examined := (.pairs, fileName pair.1) :: m.examined }) hfaults pair.1 r
      rw [Filing.bind_of_ok (Filing.lift_apply _ _), Filing.bind_of_ok hpersist, Filing.pure_apply]
      refine ⟨rfl, ⟨hfaults, hsound.write hK hpair hevidence hdisk⟩,
        List.forall_mem_append.mpr ⟨fun q hq => ?_, List.forall_mem_singleton.mpr ?_⟩⟩
      · simp only [hdisk]
        by_cases heq : fileName q.1 = fileName pair.1
        · cases p.fileName_inj (hK q (hdone q hq)) (hK pair hpair) heq
          exact p.done_update hevidence
        · obtain ⟨text, r, hfile, h⟩ := hsettled q hq
          exact ⟨text, r, by rwa [Function.update_of_ne heq], h⟩
      · simp only [hdisk]
        exact p.done_update hevidence

theorem mapM_ensurePair_follows (hxs : ∀ q ∈ xs, q ∈ K) :
    Filing.Follows (p.Ready K) (xs.mapM p.ensurePair) (xs.mapM p.evidence)
      (fun pairIds _ m => pairIds = xs.map (·.1) ∧ p.Settled K xs m) (p.Sound K) := by
  have hloop := Filing.Follows.mapM p.ensurePair p.evidence xs (S := p.Sound K)
    (fun done pairIds _ m => pairIds = done.map (·.1) ∧ p.Settled K done m) ?_
  · refine hloop.mono (fun m hm => ⟨rfl, hm, ?_⟩) (fun _ _ _ => id) (fun _ => id)
    exact fun q hq => absurd hq List.not_mem_nil
  · intro done x rest pairIds _ heq
    subst heq
    have hdone (q : String × ℕ) (hq : q ∈ done) : q ∈ K := hxs q (List.mem_append_left _ hq)
    have hx : x ∈ K := hxs x (List.mem_append_right done List.mem_cons_self)
    intro m hm
    refine ((p.ensurePair_follows hK hdone hx).mono (fun _ => id) ?_ (fun _ => id)) m hm.2
    rintro _ _ m' ⟨rfl, hsettled⟩
    exact ⟨by rw [hm.1, List.map_append, List.map_singleton], hsettled⟩

end

theorem mapM_readPair_follows :
    Filing.Follows (p.Settled K xs) ((xs.map (·.1)).mapM p.readPair) (xs.mapM p.values)
      (fun values values' m => values = values' ∧ p.Ready K m) (p.Sound K) := by
  rw [List.mapM_map]
  have hloop := Filing.Follows.mapM (p.readPair ∘ Prod.fst) p.values xs (S := p.Sound K)
    (fun _ values values' m => values = values' ∧ p.Settled K xs m) ?_
  · exact hloop.mono (fun m hm => ⟨rfl, hm⟩) (fun _ _ m hm => ⟨hm.1, hm.2.1⟩) (fun _ => id)
  · rintro done x rest values _ rfl m ⟨rfl, hsettled⟩
    rw [Function.comp_apply, p.readPair_of_done (hsettled.2 x (by simp))]
    cases p.values x with
    | error e => exact ⟨rfl, hsettled.1.2⟩
    | ok value => exact ⟨rfl, hsettled⟩

theorem Sound.congr (m : Machine Folder String) (disk : Disk Folder String)
    (hdisk : disk.file .pairs = m.disk.file .pairs) (h : p.Sound K m) :
    p.Sound K { m with disk := disk } where
  intact := by
    simp only [hdisk]
    exact h.intact
  examined := by
    simp only [hdisk]
    exact h.examined

theorem spec_mkdir_ready (folder : Folder) :
    Filing.Spec (ε := PublicationError) (p.Ready K) (Filing.change (.mkdir folder true))
      (fun _ => p.Ready K) (fun _ _ => False) :=
  spec_mkdir (Sound.congr p) folder

theorem spec_writeJson_ready (name : String) (report : Report F) :
    Filing.Spec (p.Ready K) (p.writeJson name report) (fun _ => p.Ready K) (fun _ _ => False) :=
  p.spec_writeJson (Sound.congr p) name report

theorem calibrate_follows (hK : ∀ q ∈ K, q ∈ p.pairs) (haa : ∀ q ∈ p.aaPairs, q ∈ K) :
    Filing.Follows (p.Ready K) p.calibrate p.calibration
      (fun calibration calibration' m => calibration = calibration' ∧ p.Ready K m)
      (p.Sound K) := by
  unfold calibrate calibration
  apply Filing.Follows.after (p.spec_mkdir_ready .output)
  intro _
  apply Filing.Follows.after (p.spec_mkdir_ready .pairs)
  intro _
  apply Filing.Follows.after (p.spec_writeJson_ready "dataset.json" .dataset)
  intro _
  apply Filing.Follows.after (p.spec_writeJson_ready "plan.json" .plan)
  intro _
  apply Filing.Follows.after (p.spec_writeJson_ready "reset.json" .reset)
  intro _
  apply Filing.Follows.bind (p.mapM_ensurePair_follows hK haa)
  rintro _ _ m ⟨rfl, hsettled⟩
  revert m hsettled
  apply Filing.Follows.bind_eq p.mapM_readPair_follows
  intro values
  unfold calibrationOf
  apply Filing.Follows.bind_eq (Filing.Follows.lift _ (fun _ => And.right))
  intro scores
  apply Filing.Follows.bind_eq (Filing.Follows.lift _ (fun _ => And.right))
  intro required
  apply Filing.Follows.after (p.spec_writeJson_ready _ _)
  intro _
  apply Filing.Follows.pure
  intro m hready
  exact ⟨by simp [aaPairs], hready⟩

theorem compare_follows (calibration : Calibration F) :
    Filing.Follows (p.Ready p.pairs) (p.compare calibration) (p.comparison calibration)
      (fun summary summary' m => summary = summary' ∧ p.Ready p.pairs m) (p.Sound p.pairs) := by
  unfold compare comparison
  cases hpairIds : p.candidatePairIds calibration.required.requiredPairs with
  | error e => exact fun m hm => ⟨rfl, hm.2⟩
  | ok pairIds =>
    apply Filing.Follows.bind (p.mapM_ensurePair_follows (fun _ => id)
      (p.mem_pairs_of_candidatePairIds hpairIds))
    rintro _ _ m ⟨rfl, hsettled⟩
    revert m hsettled
    apply Filing.Follows.bind_eq p.mapM_readPair_follows
    intro values
    apply Filing.Follows.bind_eq (Filing.Follows.lift _ (fun _ => And.right))
    intro admission
    apply Filing.Follows.after (p.spec_writeJson_ready _ _)
    intro _
    apply Filing.Follows.after (p.spec_writeJson_ready _ _)
    intro _
    apply Filing.Follows.pure
    intro m hready
    exact ⟨by rw [List.length_map], hready⟩

/-- From files without anything torn a run comes to the decision. -/
theorem runPublication_follows :
    Filing.Follows (p.Ready p.pairs) p.runPublication p.decision
      (fun summary summary' m => summary = summary' ∧ p.Ready p.pairs m) (p.Sound p.pairs) := by
  unfold runPublication decision
  apply Filing.Follows.bind_eq
    (p.calibrate_follows (fun _ => id) (fun _ => List.mem_append_left _))
  intro calibration
  split
  · apply Filing.Follows.after (p.spec_writeJson_ready _ _)
    intro _
    exact Filing.Follows.pure (fun m hready => ⟨rfl, hready⟩)
  · exact p.compare_follows calibration

end NoSQLOptimizer.Benchmarks.Publication
