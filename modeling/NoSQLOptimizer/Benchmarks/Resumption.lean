import NoSQLOptimizer.Admission.Rationals
import NoSQLOptimizer.Benchmarks.Interrupted

namespace NoSQLOptimizer.Benchmarks.Publication

open Admission Encoding Files

theorem mem_or_eq_or_lt {xs done rest : List (String × ℕ)} {x q : String × ℕ}
    (hxs : xs.Pairwise (·.2 < ·.2)) (heq : xs = done ++ x :: rest) (hq : q ∈ xs) :
    q ∈ done ∨ q = x ∨ x.2 < q.2 := by
  rw [heq] at hxs hq
  rcases List.mem_append.mp hq with hq | hq
  · exact .inl hq
  · rcases List.mem_cons.mp hq with rfl | hq
    · exact .inr (.inl rfl)
    · have hpairwise := (List.pairwise_append.mp hxs).2.1
      exact .inr (.inr ((List.pairwise_cons.mp hpairwise).1 q hq))

theorem pairwise_zipIdx (ids : List String) : (ids.zipIdx 1).Pairwise (·.2 < ·.2) := by
  have hnumbers : (List.range' 1 ids.length).Pairwise (· < ·) := List.pairwise_lt_range'
  rwa [← List.zipIdx_map_snd, List.pairwise_map] at hnumbers

/-- The text of the pair is there, and the pair is one of those that were used. -/
def Used (pair : String × ℕ) (text : Text) (files : String → Option Text)
    (examined : List (Folder × String)) : Prop :=
  files (fileName pair.1) = some text ∧ (Folder.pairs, fileName pair.1) ∈ examined

theorem lasting_used {pair : String × ℕ} {text : Text} (hne : text ≠ []) :
    Lasting (Used pair text) :=
  fun _ _ _ _ hgrown hused =>
    ⟨hgrown _ text hused.1 hne, List.mem_cons_of_mem _ hused.2⟩

section

variable {F : Type} [Numerics F] (p : Publication F) {files : String → Option Text}
  {q : String × ℕ} {text : Text}

def Onward (files : String → Option Text) (m : Machine Folder String) : Prop :=
  m.faults = [] ∧ Grown files (m.disk.file .pairs)

/-- The calibration of a run whose calibration pairs are all there. -/
theorem calibrate_of_done {m : Machine Folder String} {calibration : Calibration F}
    (hfaults : m.faults = []) (hexamined : m.examined = [])
    (hdone : ∀ x ∈ p.aaPairs, p.Done (m.disk.file .pairs) x)
    (hcalibration : p.calibration = .ok calibration) :
    ∃ m', p.calibrate m = (.ok calibration, m') ∧ Onward (m.disk.file .pairs) m' := by
  have hready : p.Ready p.aaPairs m := by
    refine ⟨hfaults, fun x hx => (hdone x hx).intact, fun x _ hmem => ?_⟩
    rw [hexamined] at hmem
    exact absurd hmem List.not_mem_nil
  have hfollows := p.calibrate_follows (fun _ => List.mem_append_left _) (fun _ => id) m hready
  have hgrown := p.spec_calibrate_kept (P := fun files' _ => Grown (m.disk.file .pairs) files')
    (fun _ _ _ _ hgrown h => h.trans hgrown) m (Grown.refl _)
  rw [hcalibration] at hfollows
  revert hfollows hgrown
  cases p.calibrate m with
  | mk r m' =>
    cases r with
    | ok calibration' =>
      rintro ⟨rfl, hready'⟩ hgrown
      exact ⟨m', rfl, hready'.1, hgrown⟩
    | error e => exact False.elim

variable (hfile : files (fileName q.1) = some text) (hne : text ≠ [])
include hfile hne

/-- A pair that was begun, and behind others that were, is used by the next run. -/
theorem spec_mapM_ensurePair_used {xs : List (String × ℕ)} (hxs : xs.Pairwise (·.2 < ·.2))
    (hq : q ∈ xs) (hbegun : ∀ x ∈ xs, x.2 < q.2 → Begun files x) :
    Filing.Spec (Onward files) (xs.mapM p.ensurePair)
      (fun pairIds m => pairIds = xs.map (·.1) ∧ Kept (Used q text) m)
      (fun _ => Kept (Used q text)) := by
  have hloop := p.spec_mapM_ensurePair xs (E := Kept (Used q text))
    (fun done m => q ∈ done ∧ Kept (Used q text) m ∨ q ∉ done ∧ Onward files m) ?_
  · refine hloop.mono (fun m hm => .inr ⟨List.not_mem_nil, hm⟩) ?_ (fun _ _ => id)
    rintro pairIds m ⟨hpairIds, ⟨-, hm⟩ | ⟨hnot, -⟩⟩
    · exact ⟨hpairIds, hm⟩
    · exact absurd hq hnot
  · rintro done x rest hdone m (⟨hmem, hm⟩ | ⟨hnot, hfaults, hgrown⟩)
    · exact (p.spec_ensurePair_kept (lasting_used hne) x m hm).mono
        (fun _ h => .inl ⟨List.mem_append_left _ hmem, h⟩) (fun _ => id)
    · have hx : x ∈ xs := by
        rw [hdone]
        exact List.mem_append_right done List.mem_cons_self
      by_cases heq : q = x
      · subst heq
        rw [p.ensurePair_of_begun (hgrown.begun ⟨text, hfile, hne⟩)]
        exact .inl ⟨List.mem_append_right done List.mem_cons_self, hgrown _ text hfile hne,
          List.mem_cons_self⟩
      · have hlt := ((mem_or_eq_or_lt hxs hdone hq).resolve_left hnot).resolve_left heq
        rw [p.ensurePair_of_begun (hgrown.begun (hbegun x hx hlt))]
        exact .inr ⟨by simp [hnot, heq], hfaults, hgrown⟩

omit hfile in
theorem spec_rest_used (calibration : Calibration F) :
    Filing.Spec (Kept (Used q text))
      (if calibration.required.status = .inconclusiveNoise then do
        let summary := p.summary calibration .inconclusiveNoise
        p.writeJson "summary.json" (.summary summary)
        return summary
      else p.compare calibration)
      (fun _ => Kept (Used q text)) (fun _ => Kept (Used q text)) := by
  split
  · exact Filing.Spec.bind (p.spec_writeJson_kept _ _) (fun _ => Filing.Spec.pure (fun m => id))
  · exact p.spec_compare_kept (lasting_used hne) calibration

theorem spec_runPublication_used_aa (hq : q ∈ p.aaPairs)
    (hbegun : ∀ x ∈ p.aaPairs, x.2 < q.2 → Begun files x) :
    Filing.Spec (Onward files) p.runPublication (fun _ => Kept (Used q text))
      (fun _ => Kept (Used q text)) := by
  have honward (m : Machine Folder String) (disk : Disk Folder String)
      (hdisk : disk.file .pairs = m.disk.file .pairs) (hgrown : Grown files (m.disk.file .pairs)) :
      Grown files (disk.file .pairs) := by
    rwa [hdisk]
  unfold runPublication
  refine Filing.Spec.bind ((p.spec_calibrate (V := fun _ => True) (I := Onward files) ?_ ?_
    (p.spec_mapM_ensurePair_used hfile hne (pairwise_zipIdx _) hq hbegun) ?_
    p.spec_writeJson_kept (fun _ => id)).mono (fun _ => id) (fun _ _ => And.right) (fun _ _ => id))
    (p.spec_rest_used hne)
  · intro folder
    exact (spec_mkdir honward folder).mono (fun _ => id) (fun _ _ => id) (fun _ _ => False.elim)
  · intro name report
    exact (p.spec_writeJson honward name report).mono (fun _ => id) (fun _ _ => id)
      (fun _ _ => False.elim)
  · exact (Filing.Spec.mapM_of_step (fun pairId _ => p.spec_readPair pairId)).mono (fun _ => id)
      (fun _ _ hm => ⟨trivial, hm⟩) (fun _ _ => id)

theorem used_candidate {disk : Disk Folder String} (hdisk : disk.file .pairs = files)
    {calibration : Calibration F} {pairIds : List String}
    (hdone : ∀ x ∈ p.aaPairs, p.Done files x) (hcalibration : p.calibration = .ok calibration)
    (hstatus : calibration.required.status ≠ .inconclusiveNoise)
    (hpairIds : p.candidatePairIds calibration.required.requiredPairs = .ok pairIds)
    (hq : q ∈ pairIds.zipIdx 1) (hbegun : ∀ x ∈ pairIds.zipIdx 1, x.2 < q.2 → Begun files x) :
    Kept (Used q text) (p.runPublication ⟨disk, [], []⟩).2 := by
  subst hdisk
  obtain ⟨m, hcalibrate, honward⟩ :=
    p.calibrate_of_done (m := ⟨disk, [], []⟩) rfl rfl hdone hcalibration
  rw [runPublication, Filing.bind_of_ok hcalibrate, if_neg hstatus]
  have hcompare : Filing.Spec (Onward (disk.file .pairs)) (p.compare calibration)
      (fun _ => Kept (Used q text)) (fun _ => Kept (Used q text)) := by
    apply p.spec_compare _ _ p.spec_readPair p.spec_writeJson_kept
    · intro e m herror
      rw [hpairIds] at herror
      cases herror
    · intro pairIds' hpairIds'
      cases hpairIds.symm.trans hpairIds'
      exact (p.spec_mapM_ensurePair_used hfile hne (pairwise_zipIdx _) hq hbegun).mono
        (fun _ => id) (fun _ _ => And.right) (fun _ _ => id)
  exact (hcompare m honward).elim (fun _ => id) (fun _ => id)

end

end NoSQLOptimizer.Benchmarks.Publication
namespace NoSQLOptimizer.Benchmarks.Publication

open Admission Encoding Files

section

variable {F : Type} [Numerics F] (p : Publication F)

/-- The runs so far came to the candidate pairs up to this one. -/
structure Calibrated (files : String → Option Text) (pair : String × ℕ)
    (calibration : Calibration F) (pairIds : List String) : Prop where
  calibration_eq : p.calibration = .ok calibration
  status : calibration.required.status ≠ .inconclusiveNoise
  pairIds_eq : p.candidatePairIds calibration.required.requiredPairs = .ok pairIds
  mem : pair ∈ pairIds.zipIdx 1
  done : ∀ q ∈ p.aaPairs, p.Done files q

/-- A run comes to a pair behind the pairs before it. -/
inductive Reached (files : String → Option Text) (pair : String × ℕ) : Prop
  | aa (hmem : pair ∈ p.aaPairs) (hbegun : ∀ q ∈ p.aaPairs, q.2 < pair.2 → Begun files q)
  | candidate {calibration : Calibration F} {pairIds : List String}
    (hcalibrated : p.Calibrated files pair calibration pairIds)
    (hbegun : ∀ q ∈ pairIds.zipIdx 1, q.2 < pair.2 → Begun files q)

/-- What runs leave of the evidence. -/
structure Left (files : String → Option Text) : Prop where
  start : ∀ pair ∈ p.pairs, ∀ text, files (fileName pair.1) = some text →
    ∃ r, p.evidence pair = .ok r ∧ text <+: jsonLines (records r)
  reached : ∀ pair ∈ p.pairs, Begun files pair → p.Reached files pair

variable {p} {files files' : String → Option Text} {pair : String × ℕ}

theorem Calibrated.grown {calibration : Calibration F} {pairIds : List String}
    (h : p.Calibrated files pair calibration pairIds) (hgrown : Grown files files') :
    p.Calibrated files' pair calibration pairIds :=
  { h with done := fun q hq => hgrown.done (h.done q hq) }

theorem Reached.grown (h : p.Reached files pair) (hgrown : Grown files files') :
    p.Reached files' pair := by
  cases h with
  | aa hmem hbegun => exact .aa hmem (fun q hq hlt => hgrown.begun (hbegun q hq hlt))
  | candidate hcalibrated hbegun =>
    exact .candidate (hcalibrated.grown hgrown) (fun q hq hlt => hgrown.begun (hbegun q hq hlt))

theorem Reached.mem_pairs (h : p.Reached files pair) : pair ∈ p.pairs := by
  cases h with
  | aa hmem _ => exact List.mem_append_left _ hmem
  | candidate hcalibrated _ =>
    exact p.mem_pairs_of_candidatePairIds hcalibrated.pairIds_eq pair hcalibrated.mem

/-- What runs leave is what they leave of one pair more. -/
theorem Left.ran (h : p.Left files) (hreached : p.Reached files pair)
    (hran : p.Ran files pair files') : p.Left files' := by
  have hgrown := hran.grown
  rcases hran with rfl | ⟨hbegun, r, text, hevidence, hstart, rfl⟩
  · exact h
  have hpair := hreached.mem_pairs
  refine ⟨fun q hq text' hfile => ?_, fun q hq hq' => ?_⟩
  · by_cases heq : fileName q.1 = fileName pair.1
    · cases p.fileName_inj hq hpair heq
      rw [Function.update_self, Option.some.injEq] at hfile
      exact ⟨r, hevidence, hfile ▸ hstart⟩
    · rw [Function.update_of_ne heq] at hfile
      exact h.start q hq text' hfile
  · by_cases heq : fileName q.1 = fileName pair.1
    · cases p.fileName_inj hq hpair heq
      exact hreached.grown hgrown
    · obtain ⟨text', hfile, hne⟩ := hq'
      rw [Function.update_of_ne heq] at hfile
      exact (h.reached q hq ⟨text', hfile, hne⟩).grown hgrown

end

section

variable {F : Type} [Numerics F] (p : Publication F) {m : Machine Folder String}
  {pair : String × ℕ}

/-- What is read of a pair that was cut short is an error. -/
theorem readPair_of_left (h : p.Left (m.disk.file .pairs)) (hpair : pair ∈ p.pairs) :
    (∃ e, p.readPair pair.1 m = (.error e, m)) ∨ p.Done (m.disk.file .pairs) pair := by
  cases hfile : m.disk.file .pairs (fileName pair.1) with
  | none =>
    left
    have hread : (Filing.readText .pairs (fileName pair.1) : Run Text) m = (.error .osError, m) := by
      rw [Filing.readText, hfile]
    exact ⟨_, by rw [readPair, Filing.bind_of_error hread]⟩
  | some text =>
    obtain ⟨r, hevidence, hstart⟩ := h.start pair hpair text hfile
    by_cases hwhole : Whole (records r) text
    · exact .inr ⟨text, r, hfile, hevidence, hwhole⟩
    · left
      obtain ⟨e, he⟩ := pairP99_of_cut p.float (p.path pair.1) (p.evidence_arms hevidence).1
        hstart hwhole
      refine ⟨.error e, ?_⟩
      rw [readPair, Filing.bind_of_ok (Filing.readText_of_file hfile), Filing.lift_apply, he]
      rfl

/-- A loop over pairs that a run comes to. -/
theorem spec_mapM_ensurePair_left (xs : List (String × ℕ)) (hxs : xs.Pairwise (·.2 < ·.2))
    {R : (String → Option Text) → Prop}
    (hR : ∀ files files', Grown files files' → R files → R files')
    (hreached : ∀ files, R files → ∀ x ∈ xs, (∀ q ∈ xs, q.2 < x.2 → Begun files q) →
      p.Reached files x) :
    Filing.Spec (Kept (fun files _ => p.Left files ∧ R files)) (xs.mapM p.ensurePair)
      (fun pairIds m => pairIds = xs.map (·.1) ∧ Kept (fun files _ => p.Left files ∧ R files) m)
      (fun _ => Kept (fun files _ => p.Left files)) := by
  have hloop := p.spec_mapM_ensurePair xs (E := Kept (fun files _ => p.Left files))
    (fun done => Kept (fun files _ => (p.Left files ∧ R files) ∧ ∀ q ∈ done, Begun files q)) ?_
  · exact hloop.mono (fun m hm => ⟨hm, fun q hq => absurd hq List.not_mem_nil⟩)
      (fun _ _ hm => ⟨hm.1, hm.2.1⟩) (fun _ _ => id)
  · rintro done x rest hdone m ⟨⟨hleft, hRm⟩, hbegun⟩
    have hx : x ∈ xs := by
      rw [hdone]
      exact List.mem_append_right done List.mem_cons_self
    have hcome : p.Reached (m.disk.file .pairs) x := by
      apply hreached _ hRm x hx
      intro q hq hlt
      rcases mem_or_eq_or_lt hxs hdone hq with hmem | rfl | hgt
      · exact hbegun q hmem
      · exact absurd hlt (lt_irrefl _)
      · exact absurd hgt (lt_asymm hlt)
    apply (p.spec_ensurePair x m ⟨rfl, rfl⟩).mono
    · rintro _ ⟨-, files', hran, hnew, hat⟩
      unfold Kept
      rw [hat.1]
      refine ⟨⟨hleft.ran hcome hran, hR _ _ hran.grown hRm⟩, fun q hq => ?_⟩
      rcases List.mem_append.mp hq with hq | hq
      · exact hran.grown.begun (hbegun q hq)
      · rw [List.mem_singleton.mp hq]
        exact hnew
    · rintro _ ⟨files', hran, hat⟩
      unfold Kept
      rw [hat.1]
      exact hleft.ran hcome hran

theorem spec_mapM_readPair_left (xs : List (String × ℕ)) (hxs : ∀ x ∈ xs, x ∈ p.pairs) :
    Filing.Spec (Kept (fun files _ => p.Left files)) ((xs.map (·.1)).mapM p.readPair)
      (fun values m => xs.mapM p.values = .ok values ∧
        Kept (fun files _ => p.Left files ∧ ∀ x ∈ xs, p.Done files x) m)
      (fun _ => Kept (fun files _ => p.Left files)) := by
  rw [List.mapM_map]
  have hloop := Filing.Spec.mapM (p.readPair ∘ Prod.fst) xs
    (E := fun _ => Kept (fun files _ => p.Left files))
    (fun done values m => done.mapM p.values = .ok values ∧
      Kept (fun files _ => p.Left files ∧ ∀ x ∈ done, p.Done files x) m) ?_
  · exact hloop.mono (fun m hm => ⟨rfl, hm, fun x hx => absurd hx List.not_mem_nil⟩)
      (fun _ _ => id) (fun _ _ => id)
  · rintro done x rest values hdone m ⟨hvalues, hleft, hall⟩
    have hx : x ∈ p.pairs := by
      apply hxs x
      rw [hdone]
      exact List.mem_append_right done List.mem_cons_self
    rw [Function.comp_apply]
    rcases p.readPair_of_left hleft hx with ⟨e, he⟩ | hone
    · rw [he]
      exact hleft
    · rw [p.readPair_of_done hone]
      cases hvalue : p.values x with
      | error e => exact hleft
      | ok value =>
        refine ⟨?_, hleft, List.forall_mem_append.mpr ⟨hall, List.forall_mem_singleton.mpr hone⟩⟩
        rw [List.mapM_append, hvalues, List.mapM_cons, hvalue]
        rfl

theorem exists_mapM {α β ε : Type} (f : α → Except ε β) (xs : List α)
    (h : ∀ x ∈ xs, ∃ b, f x = .ok b) : ∃ bs, xs.mapM f = .ok bs := by
  induction xs with
  | nil => exact ⟨[], rfl⟩
  | cons x xs ih =>
    obtain ⟨b, hb⟩ := h x List.mem_cons_self
    obtain ⟨bs, hbs⟩ := ih (fun y hy => h y (List.mem_cons_of_mem x hy))
    exact ⟨b :: bs, by rw [List.mapM_cons, hb, hbs]; rfl⟩

theorem spec_calibrate_left :
    Filing.Spec (Kept (fun files _ => p.Left files)) p.calibrate
      (fun calibration m => p.calibration = .ok calibration ∧
        Kept (fun files _ => p.Left files ∧ ∀ x ∈ p.aaPairs, p.Done files x) m)
      (fun _ => Kept (fun files _ => p.Left files)) := by
  have hensure := p.spec_mapM_ensurePair_left p.aaPairs (R := fun _ => True)
    (pairwise_zipIdx _) (fun _ _ _ => id) (fun files _ x hx hbegun => .aa hx hbegun)
  have hread := p.spec_mapM_readPair_left p.aaPairs (fun _ => List.mem_append_left _)
  refine (p.spec_calibrate (I := Kept (fun files _ => p.Left files)) spec_mkdir_kept
    p.spec_writeJson_kept (hensure.mono (fun m hm => ⟨hm, trivial⟩)
      (fun _ m hm => ⟨hm.1, hm.2.1⟩) (fun _ _ => id)) hread ?_ (fun m hm => hm.1)).mono (fun _ => id) ?_ (fun _ _ => id)
  · exact fun name report => (p.spec_writeJson_kept name report).mono (fun _ => id) (fun _ _ => id)
      (fun _ m hm => hm.1)
  · rintro calibration m ⟨⟨values, hvalues, hcalibration⟩, hleft, hdone⟩
    refine ⟨?_, hleft, hdone⟩
    obtain ⟨evidence, hevidence⟩ := exists_mapM p.evidence p.aaPairs (fun x hx => by
      obtain ⟨text, r, -, hr, -⟩ := hdone x hx
      exact ⟨r, hr⟩)
    rw [Publication.calibration, hevidence, hvalues]
    exact hcalibration

theorem spec_compare_left {calibration : Calibration F} (hcalibration : p.calibration = .ok calibration)
    (hstatus : calibration.required.status ≠ .inconclusiveNoise) :
    Filing.Spec (Kept (fun files _ => p.Left files ∧ ∀ x ∈ p.aaPairs, p.Done files x))
      (p.compare calibration) (fun _ => Kept (fun files _ => p.Left files))
      (fun _ => Kept (fun files _ => p.Left files)) := by
  apply p.spec_compare (fun _ _ _ hm => hm.1) _ p.spec_readPair p.spec_writeJson_kept
  intro pairIds hpairIds
  apply (p.spec_mapM_ensurePair_left (pairIds.zipIdx 1)
    (R := fun files => ∀ x ∈ p.aaPairs, p.Done files x) (pairwise_zipIdx _)
    (fun _ _ hgrown hdone x hx => hgrown.done (hdone x hx)) _).mono (fun _ => id)
    (fun _ _ hm => hm.2.1) (fun _ _ => id)
  exact fun files hdone x hx hbegun => .candidate ⟨hcalibration, hstatus, hpairIds, hx, hdone⟩ hbegun

/-- A run leaves what runs leave, wherever it ends. -/
theorem spec_runPublication_left :
    Filing.Spec (Kept (fun files _ => p.Left files)) p.runPublication
      (fun _ => Kept (fun files _ => p.Left files)) (fun _ => Kept (fun files _ => p.Left files)) := by
  refine Filing.Spec.bind p.spec_calibrate_left (fun calibration => ?_)
  rintro m ⟨hcalibration, hm⟩
  split
  · refine Filing.Spec.bind (p.spec_writeJson_kept _ _) (fun _ => ?_) m hm.1
    exact Filing.Spec.pure (fun m => id)
  · next hstatus => exact p.spec_compare_left hcalibration hstatus m hm

/-- The disks that are left by runs with the same arguments, each cut short somewhere. -/
inductive Attempted : Disk Folder String → Prop
  | fresh : Attempted (fun _ => none)
  | crashed {disk : Disk Folder String} (changes characters : ℕ) (h : Attempted disk) :
    Attempted (p.runPublication.crash changes characters disk)

theorem Attempted.left {disk : Disk Folder String} (h : p.Attempted disk) :
    p.Left (disk.file .pairs) := by
  induction h with
  | fresh =>
    refine ⟨fun pair _ text hfile => ?_, fun pair _ hbegun => ?_⟩
    · cases hfile
    · obtain ⟨text, hfile, -⟩ := hbegun
      cases hfile
  | @crashed disk changes characters _ ih =>
    have hends := p.spec_runPublication_left
      ⟨disk, List.replicate changes none ++ [some characters], []⟩ ih
    exact hends.elim (fun _ => id) (fun _ => id)

end

end NoSQLOptimizer.Benchmarks.Publication

namespace NoSQLOptimizer.Benchmarks.Publication

open Admission Encoding Files

section

variable {F : Type} [Numerics F] (p : Publication F) {disk : Disk Folder String}

/-- The run that nothing cuts short. -/
def rerun (disk : Disk Folder String) :
    Except (Raised PublicationError) (PublicationSummary F) × Machine Folder String :=
  p.runPublication ⟨disk, [], []⟩

/-- The two arms of the pair are on the lines of the text, and nothing else. -/
def HoldsBoth (pair : String × ℕ) (text : Text) : Prop :=
  ∃ r, p.evidence pair = .ok r ∧ loadLines text = some (records r)

/-- A rerun comes to what a run comes to that nothing was before, and what it used of the pairs are
the two arms of each. -/
structure Resumes (disk : Disk Folder String) : Prop where
  decides : (p.rerun disk).1 = (p.rerun (fun _ => none)).1
  holdsBoth : ∀ pair ∈ p.pairs, (Folder.pairs, fileName pair.1) ∈ (p.rerun disk).2.examined →
    ∀ text, (p.rerun disk).2.disk.file .pairs (fileName pair.1) = some text → p.HoldsBoth pair text

/-- No pair was cut short between the first character of its evidence and the last, the end of the
last line apart. -/
def Untorn (disk : Disk Folder String) : Prop :=
  ∀ pair ∈ p.pairs, ∀ text, disk.file .pairs (fileName pair.1) = some text →
    text = [] ∨ ∃ r, p.evidence pair = .ok r ∧ Whole (records r) text

variable {p}

theorem holdsBoth_iff {pair : String × ℕ} {text : Text}
    {r : RealBenchmarkRunRecord × RealBenchmarkRunRecord} (hevidence : p.evidence pair = .ok r)
    (hstart : text <+: jsonLines (records r)) : p.HoldsBoth pair text ↔ Whole (records r) text := by
  have hload := loadLines_of_start (recorded_pair (b := r.1) (c := r.2)) hstart
  constructor
  · rintro ⟨r', hr', hlines⟩
    cases hevidence.symm.trans hr'
    rcases hload with ⟨hwhole, -⟩ | ⟨-, htake⟩
    · exact hwhole
    · obtain ⟨k, hk, heq⟩ := htake _ hlines
      have hlength := congrArg List.length heq
      rw [List.length_take_of_le (Nat.le_of_lt hk)] at hlength
      exact absurd hlength (Nat.ne_of_gt hk)
  · intro hwhole
    rcases hload with ⟨-, hlines⟩ | ⟨hcut, -⟩
    · exact ⟨r, hevidence, hlines⟩
    · exact absurd hwhole hcut

theorem ready_of_intact (h : ∀ pair ∈ p.pairs, p.Intact (disk.file .pairs) pair) :
    p.Ready p.pairs ⟨disk, [], []⟩ :=
  ⟨rfl, h, fun _ _ hmem => absurd hmem List.not_mem_nil⟩

theorem rerun_fst (h : ∀ pair ∈ p.pairs, p.Intact (disk.file .pairs) pair) :
    (p.rerun disk).1 = p.decision.mapError .error :=
  (p.runPublication_follows.mono (fun _ => id) (fun _ _ _ => And.left) (fun _ => id)).outcome
    (ready_of_intact h)

theorem sound_rerun (h : ∀ pair ∈ p.pairs, p.Intact (disk.file .pairs) pair) :
    p.Sound p.pairs (p.rerun disk).2 := by
  have hagree := p.runPublication_follows ⟨disk, [], []⟩ (ready_of_intact h)
  revert hagree
  unfold rerun
  cases (p.runPublication ⟨disk, [], []⟩).1 <;> cases p.decision
  · exact And.right
  · exact False.elim
  · exact False.elim
  · exact fun hagree => hagree.2.2

theorem resumes_of_untorn (h : p.Attempted disk) (huntorn : p.Untorn disk) : p.Resumes disk := by
  have hintact (pair : String × ℕ) (hpair : pair ∈ p.pairs) :
      p.Intact (disk.file .pairs) pair := by
    intro text hfile
    obtain ⟨r, hevidence, -⟩ := h.left.start pair hpair text hfile
    rcases huntorn pair hpair text hfile with hnil | hwhole
    · exact ⟨r, hevidence, .inl hnil⟩
    · obtain ⟨r', hr', hwhole⟩ := hwhole
      exact ⟨r', hr', .inr hwhole⟩
  have hfresh (pair : String × ℕ) (_ : pair ∈ p.pairs) :
      p.Intact (Disk.file (D := Folder) (fun _ => none) .pairs) pair := by
    intro text hfile
    cases hfile
  have hsound := sound_rerun hintact
  refine ⟨(rerun_fst hintact).trans (rerun_fst hfresh).symm, fun pair hpair hused text hfile => ?_⟩
  obtain ⟨r, hevidence, hnil | hwhole⟩ := hsound.intact pair hpair text hfile
  · rw [hnil] at hfile
    exact absurd hfile (hsound.examined pair hpair hused)
  · exact (holdsBoth_iff hevidence (start_of_whole hwhole)).mpr hwhole

/-- What was begun is used by the next run. -/
theorem Attempted.used {pair : String × ℕ} {text : Text} (h : p.Attempted disk)
    (hpair : pair ∈ p.pairs) (hfile : disk.file .pairs (fileName pair.1) = some text)
    (hne : text ≠ []) : Kept (Used pair text) (p.rerun disk).2 := by
  have hreached := h.left.reached pair hpair ⟨text, hfile, hne⟩
  cases hreached with
  | aa hmem hbegun =>
    exact (p.spec_runPublication_used_aa hfile hne hmem hbegun ⟨disk, [], []⟩
      ⟨rfl, Grown.refl _⟩).elim (fun _ => id) (fun _ => id)
  | candidate hcalibrated hbegun =>
    exact p.used_candidate hfile hne rfl hcalibrated.done hcalibrated.calibration_eq
      hcalibrated.status hcalibrated.pairIds_eq hcalibrated.mem hbegun

theorem untorn_of_resumes (h : p.Attempted disk) (hresumes : p.Resumes disk) : p.Untorn disk := by
  intro pair hpair text hfile
  by_cases hne : text = []
  · exact .inl hne
  · obtain ⟨hafter, hused⟩ := h.used hpair hfile hne
    obtain ⟨r, hevidence, hstart⟩ := h.left.start pair hpair text hfile
    have hholds := hresumes.holdsBoth pair hpair hused text hafter
    exact .inr ⟨r, hevidence, (holdsBoth_iff hevidence hstart).mp hholds⟩

theorem three_le_length_of_whole {text : Text}
    {r : RealBenchmarkRunRecord × RealBenchmarkRunRecord} (h : Whole (records r) text) :
    3 ≤ text.length := by
  obtain ⟨cs, hcs⟩ := r.1.recorded.dumps_eq_cons
  obtain ⟨cs', hcs'⟩ := r.2.recorded.dumps_eq_cons
  have hlength : 4 ≤ (jsonLines (records r)).length := by
    rw [records, jsonLines_cons, jsonLines_cons, hcs, hcs']
    simp only [List.length_cons, List.length_append]
    omega
  rcases h with h | h
  · rw [h]
    omega
  · rw [← h, List.length_append, List.length_singleton] at hlength
    omega

/-- A run is resumable exactly where no earlier one was cut short within the evidence of a pair. -/
theorem resumes_iff (h : p.Attempted disk) : p.Resumes disk ↔ p.Untorn disk :=
  ⟨untorn_of_resumes h, resumes_of_untorn h⟩

end

section

local instance : Numerics ℚ := rationals

def oneMillisecond : FloatText := ⟨"1.0", List.all_eq_true.mp (by decide), by decide +kernel⟩

/-- Every arm is reset alike, and has one latency. -/
def steady : Trial where
  resetImplementation := "full"
  resetFingerprint := "reset"
  measurement := {
    successfulOperations := 1
    errorCount := 0
    timeoutCount := 0
    elapsedSeconds := oneMillisecond
    throughputSuccessfulOpsPerSecond := oneMillisecond
    p50LatencyMs := some oneMillisecond
    p95LatencyMs := some oneMillisecond
    p99LatencyMs := some oneMillisecond
    counterDeltas := {
      cpuUtilization := oneMillisecond
      memoryUtilization := oneMillisecond
      diskUtilization := oneMillisecond
      diskIoBytesPerOp := oneMillisecond
      networkBytesPerOp := oneMillisecond } }

def steadyPublication : Publication ℚ where
  profile := .publication
  outputDir := "runs"
  experimentId := "r28"
  plan := {
    mode := .b0Native
    deterministicCandidates := false
    llmRanking := false
    safetyGate := false
    experienceMemory := false
    sandboxOnly := false
    candidates := []
    rankingOrder := []
    experienceInvoked := false }
  datasetFingerprint := "dataset"
  environment := ⟨"7.0", "rs0"⟩
  trial := fun _ _ => steady
  float := fun _ => some 1
  render := fun _ => []

/-- A crash behind the first character of the first pair. -/
def tornDisk : Disk Folder String := steadyPublication.runPublication.crash 16 1 (fun _ => none)

theorem attempted_tornDisk : steadyPublication.Attempted tornDisk := .crashed 16 1 .fresh

theorem file_tornDisk : tornDisk.file .pairs "r28-aa-01.jsonl" = some ['{'] := by decide +kernel

theorem resumes_iff_tornDisk :
    steadyPublication.Resumes tornDisk ↔ steadyPublication.Untorn tornDisk :=
  resumes_iff attempted_tornDisk

/-- Behind such a crash the next run takes the character for a pair. -/
theorem not_resumes_tornDisk :
    steadyPublication.Attempted tornDisk ∧ ¬ steadyPublication.Resumes tornDisk := by
  refine ⟨attempted_tornDisk, fun hresumes => ?_⟩
  have huntorn := untorn_of_resumes attempted_tornDisk hresumes
  have hpair : ("r28-aa-01", 1) ∈ steadyPublication.pairs := by decide +kernel
  rcases huntorn _ hpair _ file_tornDisk with hnil | ⟨r, -, hwhole⟩
  · cases hnil
  · exact absurd (three_le_length_of_whole hwhole) (by decide)

end

end NoSQLOptimizer.Benchmarks.Publication
