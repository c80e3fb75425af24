import NoSQLOptimizer.Benchmarks.Uninterrupted

namespace NoSQLOptimizer.Benchmarks.Publication

open Admission Encoding Files

/-- No evidence is gone, and none is another. -/
def Grown (files files' : String → Option Text) : Prop :=
  ∀ name text, files name = some text → text ≠ [] → files' name = some text

namespace Grown

variable {files files' : String → Option Text} {pair : String × ℕ}

theorem refl (files : String → Option Text) : Grown files files := fun _ _ h _ => h

theorem trans {files'' : String → Option Text} (h : Grown files files')
    (h' : Grown files' files'') : Grown files files'' :=
  fun name text hfile hne => h' name text (h name text hfile hne) hne

theorem update (h : ¬ Begun files pair) (text : Option Text) :
    Grown files (Function.update files (fileName pair.1) text) := by
  intro name text' hfile hne
  rw [Function.update_of_ne, hfile]
  rintro rfl
  exact h ⟨text', hfile, hne⟩

theorem begun (h : Grown files files') (hbegun : Begun files pair) : Begun files' pair := by
  obtain ⟨text, hfile, hne⟩ := hbegun
  exact ⟨text, h _ text hfile hne, hne⟩

theorem done {F : Type} [Numerics F] {p : Publication F} (h : Grown files files')
    (hdone : p.Done files pair) : p.Done files' pair := by
  obtain ⟨text, r, hfile, hevidence, hwhole⟩ := hdone
  exact ⟨text, r, h _ text hfile (ne_nil_of_whole hwhole), hevidence, hwhole⟩

end Grown

section

variable {files : String → Option Text} {examined : List (Folder × String)}

/-- These are the files, and these were asked for their size. -/
def At (files : String → Option Text) (examined : List (Folder × String))
    (m : Machine Folder String) : Prop := m.disk.file .pairs = files ∧ m.examined = examined

/-- A change in the output folder, cut short or not, is none to the evidence. -/
theorem spec_change_at {c : Change Folder String} (htouch : ∀ name, ¬ c.Touches .pairs name) :
    Filing.Spec (ε := PublicationError) (At files examined) (Filing.change c)
      (fun _ => At files examined) (fun _ => At files examined) := by
  apply Filing.Spec.change
  · rintro m characters faults ⟨hfiles, hexamined⟩
    exact ⟨(Change.cut_file_eq htouch characters).trans hfiles, hexamined⟩
  · exact fun m faults hm => hm
  · rintro m disk faults ⟨hfiles, hexamined⟩ hdisk
    exact ⟨(Change.file_eq htouch hdisk).trans hfiles, hexamined⟩

theorem spec_writeJson_at {F : Type} (p : Publication F) (name : String) (report : Report F) :
    Filing.Spec (At files examined) (p.writeJson name report) (fun _ => At files examined)
      (fun _ => At files examined) := by
  refine Filing.Spec.bind (spec_change_at (fun _ => id)) (fun _ => ?_)
  refine Filing.Spec.bind (spec_change_at (Change.not_touches_of_folder output_ne_pairs)) (fun _ => ?_)
  refine Filing.Spec.bind (spec_change_at (Change.not_touches_of_folder output_ne_pairs)) (fun _ => ?_)
  exact spec_change_at (Change.not_touches_of_folder output_ne_pairs)

end

section

variable {files : String → Option Text} {examined : List (Folder × String)} {pairId : String}
  {before text whole : Text}

/-- Some of the text of a pair is there. -/
def Partly (files : String → Option Text) (examined : List (Folder × String)) (pairId : String)
    (whole : Text) (m : Machine Folder String) : Prop :=
  At files examined m ∨
    ∃ text, text <+: whole ∧ At (Function.update files (fileName pairId) (some text)) examined m

theorem spec_append (hwhole : before ++ text <+: whole) :
    Filing.Spec (ε := PublicationError)
      (At (Function.update files (fileName pairId) (some before)) examined)
      (Filing.change (.append .pairs (fileName pairId) text))
      (fun _ => At (Function.update files (fileName pairId) (some (before ++ text))) examined)
      (fun _ => Partly files examined pairId whole) := by
  have hbefore : before <+: whole := (List.prefix_append before text).trans hwhole
  apply Filing.Spec.change
  · rintro m characters faults ⟨hfiles, hexamined⟩
    refine .inr ⟨before ++ text.take characters, ?_, ?_, hexamined⟩
    · exact ((List.prefix_append_right_inj before).mpr (List.take_prefix _ _)).trans hwhole
    · rw [Change.cut_file_eq_append characters (by rw [hfiles, Function.update_self]), hfiles,
        Function.update_idem]
  · exact fun m faults hm => .inr ⟨before, hbefore, hm⟩
  · rintro m disk faults ⟨hfiles, hexamined⟩ hdisk
    refine ⟨?_, hexamined⟩
    rw [Change.file_eq_append hdisk (by rw [hfiles, Function.update_self]), hfiles,
      Function.update_idem]

/-- Wherever the writing of a pair was cut short, a beginning of its text is there. -/
theorem spec_persist (pairId : String) (r : RealBenchmarkRunRecord × RealBenchmarkRunRecord) :
    Filing.Spec (At files examined) (persist pairId [r.1, r.2])
      (fun _ => At (Function.update files (fileName pairId) (some (jsonLines (records r)))) examined)
      (fun _ => Partly files examined pairId (jsonLines (records r))) := by
  have hrecords : jsonLines (records r) =
      [] ++ (r.1.line.dumps ++ ['\n']) ++ (r.2.line.dumps ++ ['\n']) := by
    simp [records, jsonLines]
  rw [persist_pair, hrecords]
  apply Filing.Spec.bind ((spec_change_at (fun _ => id)).mono (fun _ => id) (fun _ _ => id)
    (fun _ _ => .inl))
  intro _
  apply Filing.Spec.bind (R := fun _ => At (Function.update files (fileName pairId) (some [])) examined)
  · apply Filing.Spec.change
    · exact fun m characters faults hm => .inl hm
    · exact fun m faults hm => .inl hm
    · rintro m disk faults ⟨hfiles, hexamined⟩ hdisk
      exact ⟨by rw [Change.file_eq_create hdisk, hfiles], hexamined⟩
  intro _
  apply Filing.Spec.bind (spec_append (List.prefix_append _ _))
  intro _
  exact spec_append (List.prefix_refl _)

end

section

variable {F : Type} [Numerics F] (p : Publication F) {files files' : String → Option Text}
  {pair : String × ℕ} {examined : List (Folder × String)}

/-- What becomes of the files while a pair is run: nothing, or something of its evidence is there
where there was none. -/
def Ran (files : String → Option Text) (pair : String × ℕ) (files' : String → Option Text) : Prop :=
  files' = files ∨ ¬ Begun files pair ∧ ∃ r text, p.evidence pair = .ok r ∧
    text <+: jsonLines (records r) ∧
    files' = Function.update files (fileName pair.1) (some text)

theorem Ran.grown (h : p.Ran files pair files') : Grown files files' := by
  rcases h with rfl | ⟨hbegun, r, text, -, -, rfl⟩
  · exact Grown.refl files'
  · exact Grown.update hbegun (some text)

theorem spec_ensurePair (pair : String × ℕ) :
    Filing.Spec (At files examined) (p.ensurePair pair)
      (fun pairId m => pairId = pair.1 ∧ ∃ files', p.Ran files pair files' ∧ Begun files' pair ∧
        At files' ((.pairs, fileName pair.1) :: examined) m)
      (fun _ m => ∃ files', p.Ran files pair files' ∧
        At files' ((.pairs, fileName pair.1) :: examined) m) := by
  rintro m ⟨rfl, rfl⟩
  by_cases hbegun : Begun (m.disk.file .pairs) pair
  · rw [p.ensurePair_of_begun hbegun]
    exact ⟨rfl, _, .inl rfl, hbegun, rfl, rfl⟩
  · rw [p.ensurePair_of_not_begun hbegun]
    cases hevidence : p.evidence pair with
    | error e => exact ⟨_, .inl rfl, rfl, rfl⟩
    | ok r =>
      rw [Filing.bind_of_ok (Filing.lift_apply _ _)]
      refine (Filing.Spec.bind ((spec_persist pair.1 r).mono (fun _ => id) (fun _ _ => id) ?_)
        (fun _ => Filing.Spec.pure ?_)) _ ⟨rfl, rfl⟩
      · rintro _ m' (hm | ⟨text, hstart, hm⟩)
        · exact ⟨_, .inl rfl, hm⟩
        · exact ⟨_, .inr ⟨hbegun, r, text, hevidence, hstart, rfl⟩, hm⟩
      · intro m' hm
        refine ⟨rfl, _, .inr ⟨hbegun, r, _, hevidence, List.prefix_refl _, rfl⟩, ?_, hm⟩
        exact (p.done_update hevidence).begun

end

section

variable {F : Type} (p : Publication F)

theorem readPair_snd (pairId : String) (m : Machine Folder String) :
    (p.readPair pairId m).2 = m := by
  unfold readPair
  cases hfile : m.disk.file .pairs (fileName pairId) with
  | none =>
    have hread : (Filing.readText .pairs (fileName pairId) : Run Text) m = (.error .osError, m) := by
      rw [Filing.readText, hfile]
    rw [Filing.bind_of_error hread]
  | some text => rw [Filing.bind_of_ok (Filing.readText_of_file hfile), Filing.lift_apply]

variable [Numerics F] {I J P E : Machine Folder String → Prop}

/-- A calibration, from what its loops do. -/
theorem spec_calibrate {V : List (F × F) → Prop}
    (hmkdir : ∀ folder, Filing.Spec (ε := PublicationError) I (Filing.change (.mkdir folder true))
      (fun _ => I) (fun _ => E))
    (hwrite₀ : ∀ name report, Filing.Spec I (p.writeJson name report) (fun _ => I) (fun _ => E))
    (hensure : Filing.Spec I (p.aaPairs.mapM p.ensurePair)
      (fun pairIds m => pairIds = p.aaPairs.map (·.1) ∧ J m) (fun _ => E))
    (hread : Filing.Spec J ((p.aaPairs.map (·.1)).mapM p.readPair)
      (fun values m => V values ∧ P m) (fun _ => E))
    (hwrite : ∀ name report, Filing.Spec P (p.writeJson name report) (fun _ => P) (fun _ => E))
    (hE : ∀ m, P m → E m) :
    Filing.Spec I p.calibrate
      (fun calibration m => (∃ values, V values ∧ p.calibrationOf values = .ok calibration) ∧ P m)
      (fun _ => E) := by
  unfold calibrate
  refine Filing.Spec.bind (hmkdir .output) (fun _ => ?_)
  refine Filing.Spec.bind (hmkdir .pairs) (fun _ => ?_)
  refine Filing.Spec.bind (hwrite₀ _ _) (fun _ => ?_)
  refine Filing.Spec.bind (hwrite₀ _ _) (fun _ => ?_)
  refine Filing.Spec.bind (hwrite₀ _ _) (fun _ => ?_)
  refine Filing.Spec.bind hensure (fun pairIds => ?_)
  rintro m ⟨rfl, hm⟩
  refine Filing.Spec.bind hread (fun values => ?_) m hm
  rintro m ⟨hvalues, hm⟩
  revert m hm
  refine Filing.Spec.bind_lift (fun _ m _ => hE m) (fun scores hscores => ?_)
  refine Filing.Spec.bind_lift (fun _ m _ => hE m) (fun required hrequired => ?_)
  refine Filing.Spec.bind (hwrite _ _) (fun _ => Filing.Spec.pure (fun m hm => ⟨?_, hm⟩))
  refine ⟨values, hvalues, ?_⟩
  rw [calibrationOf, hscores, List.length_map]
  simp only [hrequired, bind, Except.bind, pure, Except.pure]

theorem spec_compare {calibration : Calibration F}
    (hE : ∀ e m, p.candidatePairIds calibration.required.requiredPairs = .error e → I m → P m)
    (hensure : ∀ pairIds, p.candidatePairIds calibration.required.requiredPairs = .ok pairIds →
      Filing.Spec I ((pairIds.zipIdx 1).mapM p.ensurePair) (fun _ => P) (fun _ => P))
    (hread : ∀ pairId, Filing.Spec P (p.readPair pairId) (fun _ => P) (fun _ => P))
    (hwrite : ∀ name report, Filing.Spec P (p.writeJson name report) (fun _ => P) (fun _ => P)) :
    Filing.Spec I (p.compare calibration) (fun _ => P) (fun _ => P) := by
  unfold compare
  refine Filing.Spec.bind_lift hE (fun pairIds hpairIds => ?_)
  refine Filing.Spec.bind (hensure pairIds hpairIds) (fun candidatePaths => ?_)
  refine Filing.Spec.bind (Filing.Spec.mapM_of_step (fun pairId _ => hread pairId)) (fun _ => ?_)
  refine Filing.Spec.bind_lift (fun _ m _ => id) (fun admission _ => ?_)
  refine Filing.Spec.bind (hwrite _ _) (fun _ => ?_)
  exact Filing.Spec.bind (hwrite _ _) (fun _ => Filing.Spec.pure (fun m => id))

end

section

variable {F : Type} (p : Publication F)

/-- What is said of the evidence and of the files that were asked for their size. -/
def Kept (P : (String → Option Text) → List (Folder × String) → Prop) (m : Machine Folder String) :
    Prop := P (m.disk.file .pairs) m.examined

variable {P : (String → Option Text) → List (Folder × String) → Prop}

theorem spec_kept_of_at {α : Type} {x : Run α}
    (h : ∀ files examined, Filing.Spec (At files examined) x (fun _ => At files examined)
      (fun _ => At files examined)) :
    Filing.Spec (Kept P) x (fun _ => Kept P) (fun _ => Kept P) := by
  intro m hm
  have hkept (m' : Machine Folder String) (h : At (m.disk.file .pairs) m.examined m') :
      Kept P m' := by
    unfold Kept
    rwa [h.1, h.2]
  exact (h _ _ m ⟨rfl, rfl⟩).mono (fun _ => hkept _) (fun _ => hkept _)

theorem spec_mkdir_kept (folder : Folder) : Filing.Spec (ε := PublicationError) (Kept P)
    (Filing.change (.mkdir folder true)) (fun _ => Kept P) (fun _ => Kept P) :=
  spec_kept_of_at (fun _ _ => spec_change_at (fun _ => id))

theorem spec_writeJson_kept (name : String) (report : Report F) :
    Filing.Spec (Kept P) (p.writeJson name report) (fun _ => Kept P) (fun _ => Kept P) :=
  spec_kept_of_at (fun _ _ => p.spec_writeJson_at name report)

theorem spec_readPair {P : Machine Folder String → Prop} (pairId : String) :
    Filing.Spec P (p.readPair pairId) (fun _ => P) (fun _ => P) := by
  intro m hm
  rw [p.readPair_snd pairId m]
  cases (p.readPair pairId m).1 with
  | ok values => exact hm
  | error e => exact hm

variable [Numerics F]

/-- A loop over pairs gives their paths, and keeps what each of its steps keeps. -/
theorem spec_mapM_ensurePair {E : Machine Folder String → Prop} (xs : List (String × ℕ))
    (I : List (String × ℕ) → Machine Folder String → Prop)
    (hstep : ∀ done x rest, xs = done ++ x :: rest →
      Filing.Spec (I done) (p.ensurePair x) (fun _ => I (done ++ [x])) (fun _ => E)) :
    Filing.Spec (I []) (xs.mapM p.ensurePair) (fun pairIds m => pairIds = xs.map (·.1) ∧ I xs m)
      (fun _ => E) := by
  have hloop := Filing.Spec.mapM p.ensurePair xs (E := fun _ => E)
    (fun done pairIds m => pairIds = done.map (·.1) ∧ I done m) ?_
  · exact hloop.mono (fun m hm => ⟨rfl, hm⟩) (fun _ _ => id) (fun _ _ => id)
  · rintro done x rest pairIds hxs m ⟨rfl, hm⟩
    have hpair := p.spec_ensurePair x m ⟨rfl, rfl⟩
    have hends := hstep done x rest hxs m hm
    revert hpair hends
    cases (p.ensurePair x m).1 with
    | ok pairId =>
      rintro ⟨rfl, -⟩ hends
      exact ⟨by rw [List.map_append, List.map_singleton], hends⟩
    | error e => exact fun _ => id

/-- What no growth of the evidence undoes. -/
def Lasting (P : (String → Option Text) → List (Folder × String) → Prop) : Prop :=
  ∀ files files' examined key, Grown files files' → P files examined → P files' (key :: examined)

variable (hP : Lasting P)
include hP

theorem spec_ensurePair_kept (pair : String × ℕ) :
    Filing.Spec (Kept P) (p.ensurePair pair) (fun _ => Kept P) (fun _ => Kept P) := by
  intro m hm
  have hkept {files' : String → Option Text} {m' : Machine Folder String}
      (hran : p.Ran (m.disk.file .pairs) pair files')
      (h : At files' ((.pairs, fileName pair.1) :: m.examined) m') : Kept P m' := by
    unfold Kept
    rw [h.1, h.2]
    exact hP _ _ _ _ hran.grown hm
  apply (p.spec_ensurePair pair m ⟨rfl, rfl⟩).mono
  · rintro _ ⟨rfl, files', hran, -, h⟩
    exact hkept hran h
  · rintro _ ⟨files', hran, h⟩
    exact hkept hran h

theorem spec_calibrate_kept :
    Filing.Spec (Kept P) p.calibrate (fun _ => Kept P) (fun _ => Kept P) := by
  apply (p.spec_calibrate (V := fun _ => True) spec_mkdir_kept p.spec_writeJson_kept
    (p.spec_mapM_ensurePair _ (fun _ => Kept P) (fun _ x _ _ => p.spec_ensurePair_kept hP x))
    ?_ p.spec_writeJson_kept (fun _ => id)).mono (fun _ => id) (fun _ _ => And.right) (fun _ _ => id)
  exact (Filing.Spec.mapM_of_step (fun pairId _ => p.spec_readPair pairId)).mono (fun _ => id)
    (fun _ _ hm => ⟨trivial, hm⟩) (fun _ _ => id)

theorem spec_compare_kept (calibration : Calibration F) :
    Filing.Spec (Kept P) (p.compare calibration) (fun _ => Kept P) (fun _ => Kept P) :=
  p.spec_compare (fun _ _ _ => id)
    (fun _ _ => Filing.Spec.mapM_of_step (fun x _ => p.spec_ensurePair_kept hP x)) p.spec_readPair
    p.spec_writeJson_kept

end

end NoSQLOptimizer.Benchmarks.Publication
