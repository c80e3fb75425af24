import Mathlib.Algebra.Ring.Nat
import NoSQLOptimizer.Benchmarks.Export
import NoSQLOptimizer.Files.Counted

namespace NoSQLOptimizer.Benchmarks.Export

open Encoding Files

/-- A file of an export: its whole text, and in how many changes it is written. -/
structure Artifact where
  name : String
  text : Except ExportError Text
  changes : ℕ
  write : Run Unit

def jsonArtifact (directory name : String) (value : Mapping) : Artifact where
  name := name
  text := ((Value.mapping value).dumps (some 2)).map (· ++ ['\n'])
  changes := 2
  write := writeJson directory name value

def jsonlArtifact (directory name : String) (values : List Value) : Artifact where
  name := name
  text := (values.mapM (Value.dumps none)).map (List.flatMap (· ++ ['\n']))
  changes := 2
  write := writeJsonl directory name values

/-- The whole text of a table. -/
def csvTable (rows : List Mapping) : Except ExportError Text :=
  (rows.mapM (csvRow (headers rows))).map
    (fun lines => csvLine ((headers rows).map String.toList) ++ lines.flatten)

def csvArtifact (directory name : String) (rows : List Mapping) : Artifact where
  name := name
  text := csvTable rows
  changes := 2 + rows.length
  write := writeCsv directory name rows

def textArtifact (directory name : String) (text : Text) : Artifact where
  name := name
  text := .ok text
  changes := 2
  write := writeText directory name text

namespace ExperimentExport

variable (evidence : ExperimentExport)

def artifacts : List Artifact :=
  let directory := evidence.experimentId
  [jsonArtifact directory "manifest.json" evidence.manifest,
    jsonArtifact directory "environment.json" evidence.environment,
    jsonArtifact directory "workload.json" evidence.workload,
    jsonArtifact directory "policy.json" evidence.policy,
    csvArtifact directory "raw_trials.csv" (evidence.rawTrials.map trialRow),
    csvArtifact directory "metric_summary.csv" evidence.metricSummary,
    csvArtifact directory "admission_results.csv" (evidence.admissionResults.map admissionRow),
    csvArtifact directory "candidate_results.csv" evidence.candidateResults,
    jsonlArtifact directory "ai_results.jsonl" (evidence.aiResults.map .mapping),
    jsonlArtifact directory "ledger.jsonl" (evidence.ledgerEntries.map LedgerEntry.value),
    textArtifact directory "README.md" (readme directory)]

/-- There is a text for every value that is written as one. -/
def Serialises : Prop := ∀ a ∈ evidence.artifacts, ∃ text, a.text = .ok text

/-- How many changes a whole export makes. -/
def changes : ℕ := 1 + (evidence.artifacts.map Artifact.changes).sum

/-- The required files are there, each with its whole text, and no other. -/
def Complete (disk : Disk String String) : Prop :=
  (∃ files, disk evidence.experimentId = some files ∧ ∀ name, name ∈ files ↔ name ∈ requiredFiles) ∧
    ∀ a ∈ evidence.artifacts, ∃ text, a.text = .ok text ∧
      disk.file evidence.experimentId a.name = some text

end ExperimentExport

section

variable {directory name : String} {faults : List (Option ℕ)} {k total : ℕ} {Good : Prop}
  {files : String → Option Text}

/-- The directory is there, with these files. -/
def Holding (directory : String) (files : String → Option Text) (disk : Disk String String) : Prop :=
  (disk directory).isSome ∧ disk.file directory = files

/-- The directory is there, and something was in the way of the export. -/
def Stuck (directory : String) (Good : Prop) (m : Machine String String) : Prop :=
  (m.disk directory).isSome ∧ ¬ Good

variable (hgood : Good → Unfailed faults total)
include hgood

theorem spec_create (hk : k + 1 ≤ total) :
    Filing.Spec (ε := ExportError) (Filing.Made faults k (Holding directory files))
      (Filing.change (.create directory name))
      (fun _ => Filing.Made faults (k + 1) (Holding directory (Function.update files name (some []))))
      (fun _ => Stuck directory Good) := by
  apply (Filing.Spec.change_made (R := fun disk => (disk directory).isSome) _ _).mono (fun _ => id)
    (fun _ _ => id) (fun _ m hm => ⟨hm.2, fun h => hm.1 ((hgood h).mono hk)⟩)
  · rintro disk ⟨hsome, hfiles⟩
    obtain ⟨disk', hdisk'⟩ := Change.apply_create hsome name
    exact ⟨disk', hdisk', Change.isSome_apply hdisk' hsome,
      (Change.file_eq_create hdisk').trans (by rw [hfiles])⟩
  · exact fun disk characters hdisk => Change.isSome_cut characters hdisk.1

theorem spec_append (hk : k + 1 ≤ total) {before text : Text} :
    Filing.Spec (ε := ExportError)
      (Filing.Made faults k (Holding directory (Function.update files name (some before))))
      (Filing.change (.append directory name text))
      (fun _ => Filing.Made faults (k + 1)
        (Holding directory (Function.update files name (some (before ++ text)))))
      (fun _ => Stuck directory Good) := by
  apply (Filing.Spec.change_made (R := fun disk => (disk directory).isSome) _ _).mono (fun _ => id)
    (fun _ _ => id) (fun _ m hm => ⟨hm.2, fun h => hm.1 ((hgood h).mono hk)⟩)
  · rintro disk ⟨hsome, hfiles⟩
    have hbefore : disk.file directory name = some before := by rw [hfiles, Function.update_self]
    obtain ⟨disk', hdisk'⟩ := Change.apply_append hbefore text
    refine ⟨disk', hdisk', Change.isSome_apply hdisk' hsome, ?_⟩
    rw [Change.file_eq_append hdisk' hbefore, hfiles, Function.update_idem]
  · exact fun disk characters hdisk => Change.isSome_cut characters hdisk.1

theorem spec_writeText (hk : k + 2 ≤ total) (text : Text) :
    Filing.Spec (Filing.Made faults k (Holding directory files)) (writeText directory name text)
      (fun _ => Filing.Made faults (k + 2)
        (Holding directory (Function.update files name (some text))))
      (fun _ => Stuck directory Good) :=
  Filing.Spec.bind (spec_create hgood (Nat.le_of_succ_le hk)) (fun _ => spec_append hgood hk)

end

/-- The artifact is written as its text, or it is known what was in the way. -/
def Artifact.Writes (directory : String) (a : Artifact) : Prop :=
  ∀ {faults : List (Option ℕ)} {k total : ℕ} {Good : Prop} {files : String → Option Text},
    (Good → Unfailed faults total) → (Good → ∃ text, a.text = .ok text) → k + a.changes ≤ total →
    Filing.Spec (Filing.Made faults k (Holding directory files)) a.write
      (fun _ m => ∃ text, a.text = .ok text ∧ Filing.Made faults (k + a.changes)
        (Holding directory (Function.update files a.name (some text))) m)
      (fun _ => Stuck directory Good)

theorem Filing.Made.stuck {directory : String} {faults : List (Option ℕ)} {k : ℕ}
    {files : String → Option Text} {Good : Prop} {m : Machine String String}
    (h : Filing.Made faults k (Holding directory files) m) (hgood : ¬ Good) :
    Stuck directory Good m := ⟨h.2.2.1, hgood⟩

section

variable (directory name : String)

theorem writes_textArtifact (text : Text) : (textArtifact directory name text).Writes directory := by
  intro faults k total Good files hgood _ hk
  exact (spec_writeText hgood hk text).mono (fun _ => id) (fun _ m hm => ⟨text, rfl, hm⟩)
    (fun _ _ => id)

theorem ok_of_map_ok {β γ ε : Type} {g : Except ε β} {f : β → γ} {c : γ} (h : g.map f = .ok c) :
    ∃ b, g = .ok b := by
  cases g with
  | ok b => exact ⟨b, rfl⟩
  | error e => cases h

/-- A text that is made before its file is opened. -/
theorem writes_of_lift {β : Type} {g : Except ExportError β} {f : β → Text} :
    (Artifact.mk name (g.map f) 2 (do
      let b ← Filing.lift g
      writeText directory name (f b))).Writes directory := by
  intro faults k total Good files hgood htext hk
  refine Filing.Spec.bind_lift (fun e m he hm => Filing.Made.stuck hm (fun h => ?_))
    (fun b hb => ?_)
  · obtain ⟨text, htext⟩ := htext h
    obtain ⟨b, hb⟩ := ok_of_map_ok htext
    cases he.symm.trans hb
  · refine (spec_writeText hgood hk (f b)).mono (fun _ => id) (fun _ m hm => ⟨f b, ?_, hm⟩)
      (fun _ _ => id)
    simp only [hb, Except.map]

/-- Row by row the file grows to the text of the table. -/
theorem writes_csvArtifact (rows : List Mapping) :
    (csvArtifact directory name rows).Writes directory := by
  intro faults k total Good files hgood htext hk
  have htotal : k + (2 + rows.length) ≤ total := hk
  refine Filing.Spec.bind (spec_create hgood (by omega)) (fun _ => ?_)
  refine Filing.Spec.bind (spec_append hgood (by omega)) (fun _ => ?_)
  have hloop := Filing.Spec.forM (E := fun _ => Stuck directory Good)
    (fun row => (do
      let text ← Filing.lift (csvRow (headers rows) row)
      Filing.change (.append directory name text) : Run Unit)) rows
    (fun done m => ∃ lines, done.mapM (csvRow (headers rows)) = .ok lines ∧
      Filing.Made faults (k + 2 + done.length) (Holding directory (Function.update files name
        (some (csvLine ((headers rows).map String.toList) ++ lines.flatten)))) m) ?_
  · refine hloop.mono (fun m hm => ⟨[], rfl, ?_⟩) ?_ (fun _ _ => id)
    · rwa [List.flatten_nil, List.append_nil]
    · rintro _ m ⟨lines, hlines, hm⟩
      refine ⟨csvLine ((headers rows).map String.toList) ++ lines.flatten, ?_, ?_⟩
      · simp only [csvArtifact, csvTable, hlines, Except.map]
      · rwa [Nat.add_assoc] at hm
  · rintro done row rest hrows m ⟨lines, hlines, hm⟩
    have hlength := congrArg List.length hrows
    rw [List.length_append, List.length_cons] at hlength
    revert m hm
    refine Filing.Spec.bind_lift (fun e m he hm => Filing.Made.stuck hm (fun h => ?_))
      (fun line hline => ?_)
    · obtain ⟨text, htext⟩ := htext h
      obtain ⟨all, hall⟩ := ok_of_map_ok htext
      rw [hrows, List.mapM_append, ← hrows, hlines, List.mapM_cons, he] at hall
      cases hall
    · refine (spec_append hgood (by omega)).mono (fun _ => id) (fun _ m hm => ⟨lines ++ [line], ?_, ?_⟩)
        (fun _ _ => id)
      · rw [List.mapM_append, hlines, List.mapM_cons, hline]
        rfl
      · rw [List.length_append, List.length_singleton, List.flatten_append, List.flatten_singleton,
          ← List.append_assoc]
        exact hm

end

/-- The files of artifacts. -/
def filesOf (artifacts : List Artifact) (name : String) : Option Text :=
  (artifacts.find? (·.name = name)).bind (fun a => a.text.toOption)

theorem filesOf_append {artifacts : List Artifact} {a : Artifact} {text : Text}
    (hnew : ∀ b ∈ artifacts, b.name ≠ a.name) (htext : a.text = .ok text) :
    filesOf (artifacts ++ [a]) = Function.update (filesOf artifacts) a.name (some text) := by
  rw [Function.eq_update_iff]
  constructor
  · have hnone : artifacts.find? (·.name = a.name) = none := by
      rw [List.find?_eq_none]
      intro b hb
      simpa using hnew b hb
    rw [filesOf, List.find?_append, hnone, Option.none_or, List.find?_singleton]
    simp [htext, Except.toOption]
  · intro name hne
    have hnone : [a].find? (·.name = name) = none := by
      simpa [List.find?_singleton] using hne.symm
    rw [filesOf, List.find?_append, hnone, Option.or_none]
    rfl

theorem isSome_filesOf {artifacts : List Artifact}
    (htexts : ∀ a ∈ artifacts, ∃ text, a.text = .ok text) (name : String) :
    (filesOf artifacts name).isSome ↔ name ∈ artifacts.map Artifact.name := by
  unfold filesOf
  cases h : artifacts.find? (·.name = name) with
  | none =>
    rw [List.find?_eq_none] at h
    simp only [Option.bind_none, Option.isSome_none, Bool.false_eq_true, List.mem_map, false_iff]
    rintro ⟨a, ha, hname⟩
    exact h a ha (decide_eq_true hname)
  | some a =>
    have ha := List.mem_of_find?_eq_some h
    obtain ⟨text, htext⟩ := htexts a ha
    have hname : a.name = name := by simpa using List.find?_some h
    simp only [Option.bind_some, htext, Except.toOption, Option.isSome_some, true_iff]
    exact List.mem_map.mpr ⟨a, ha, hname⟩

theorem filesOf_of_mem {artifacts : List Artifact} {a : Artifact}
    (hnames : (artifacts.map Artifact.name).Nodup) (ha : a ∈ artifacts) :
    filesOf artifacts a.name = a.text.toOption := by
  induction artifacts with
  | nil => cases ha
  | cons b artifacts ih =>
    rw [List.map_cons, List.nodup_cons] at hnames
    rcases List.mem_cons.mp ha with rfl | ha
    · rw [filesOf, List.find?_cons_of_pos (by simp), Option.bind_some]
    · have hne : b.name ≠ a.name :=
        fun heq => hnames.1 (heq ▸ List.mem_map_of_mem ha)
      rw [filesOf, List.find?_cons_of_neg (by simpa using hne)]
      exact ih hnames.2 ha

section

variable {directory : String} {faults : List (Option ℕ)} {total : ℕ} {Good : Prop}
  {artifacts : List Artifact}

/-- Artifact by artifact the directory grows to all of them. -/
theorem spec_artifacts {k : ℕ} (hwrites : ∀ a ∈ artifacts, a.Writes directory)
    (hnames : (artifacts.map Artifact.name).Nodup)
    (htotal : k + (artifacts.map Artifact.changes).sum ≤ total)
    (hfaults : Good → Unfailed faults total)
    (htexts : Good → ∀ a ∈ artifacts, ∃ text, a.text = .ok text) :
    Filing.Spec (Filing.Made faults k (Holding directory (fun _ => none)))
      (artifacts.forM Artifact.write)
      (fun _ m => (∀ a ∈ artifacts, ∃ text, a.text = .ok text) ∧
        Filing.Made faults (k + (artifacts.map Artifact.changes).sum)
          (Holding directory (filesOf artifacts)) m)
      (fun _ => Stuck directory Good) := by
  have hloop := Filing.Spec.forM Artifact.write artifacts (E := fun _ => Stuck directory Good)
    (fun done m => (∀ a ∈ done, ∃ text, a.text = .ok text) ∧
      Filing.Made faults (k + (done.map Artifact.changes).sum)
        (Holding directory (filesOf done)) m) ?_
  · exact hloop.mono (fun m hm => ⟨fun a ha => absurd ha List.not_mem_nil, hm⟩) (fun _ _ => id)
      (fun _ _ => id)
  · rintro done a rest hdone m ⟨hok, hm⟩
    have ha : a ∈ artifacts := by
      rw [hdone]
      exact List.mem_append_right done List.mem_cons_self
    have hnew (b : Artifact) (hb : b ∈ done) : b.name ≠ a.name := by
      rw [hdone, List.map_append, List.map_cons] at hnames
      exact (List.nodup_append.mp hnames).2.2 b.name (List.mem_map_of_mem hb) a.name
        List.mem_cons_self
    have hsum := congrArg (fun artifacts => (artifacts.map Artifact.changes).sum) hdone
    simp only [List.map_append, List.map_cons, List.sum_append, List.sum_cons] at hsum
    apply ((hwrites a ha) hfaults (fun h => htexts h a ha) (by omega) m hm).mono
    · rintro _ ⟨text, htext, hm'⟩
      refine ⟨List.forall_mem_append.mpr ⟨hok, List.forall_mem_singleton.mpr ⟨text, htext⟩⟩, ?_⟩
      rw [filesOf_append hnew htext, List.map_append, List.sum_append, List.map_singleton,
        List.sum_singleton, ← Nat.add_assoc]
      exact hm'
    · exact fun _ => id

end

section

variable (exporter : ResultExporter) (evidence : ExperimentExport)

theorem writes_artifacts : ∀ a ∈ evidence.artifacts, a.Writes evidence.experimentId := by
  unfold ExperimentExport.artifacts
  simp only [List.forall_mem_cons, List.not_mem_nil, false_implies, implies_true, and_true]
  exact ⟨writes_of_lift _ _, writes_of_lift _ _, writes_of_lift _ _, writes_of_lift _ _,
    writes_csvArtifact _ _ _, writes_csvArtifact _ _ _, writes_csvArtifact _ _ _,
    writes_csvArtifact _ _ _, writes_of_lift _ _, writes_of_lift _ _, writes_textArtifact _ _ _⟩

theorem names_artifacts : evidence.artifacts.map Artifact.name = requiredFiles := rfl

theorem nodup_requiredFiles : requiredFiles.Nodup := by decide

/-- What is left to do where the directory was made. -/
def finish : Run String := do
  evidence.artifacts.forM Artifact.write
  let names ← Filing.names evidence.experimentId
  if ¬ (names ⊆ requiredFiles ∧ requiredFiles ⊆ names) then
    Filing.raise (.runtimeError "result export is incomplete")
  else return exporter.artifactsRoot ++ "/" ++ evidence.experimentId

variable {exporter evidence} {m : Machine String String}

theorem export_of_invalid (h : isExperimentId evidence.experimentId = false) :
    exporter.export evidence m =
      (.error (.error (.valueError "experiment ID must be a safe relative artifact name")), m) := by
  rw [ResultExporter.export, h]
  rfl

theorem export_of_present (hid : isExperimentId evidence.experimentId = true)
    (h : (m.disk evidence.experimentId).isSome) :
    exporter.export evidence m = (.error (.error (.fileExistsError
      ("experiment artifacts already exist: " ++ exporter.artifactsRoot ++ "/" ++
        evidence.experimentId))), m) := by
  have hexists : (Filing.folderExists evidence.experimentId : Run Bool) m = (.ok true, m) := by
    rw [Filing.folderExists, h]
  rw [ResultExporter.export, hid, if_neg (by decide), Filing.bind_of_ok hexists]
  rfl

theorem export_of_absent (hid : isExperimentId evidence.experimentId = true)
    (h : m.disk evidence.experimentId = none) :
    exporter.export evidence m = (do
      Filing.change (.mkdir evidence.experimentId false)
      finish exporter evidence) m := by
  have hexists : (Filing.folderExists evidence.experimentId : Run Bool) m = (.ok false, m) := by
    rw [Filing.folderExists, h]
    rfl
  rw [ResultExporter.export, hid, if_neg (by decide), Filing.bind_of_ok hexists,
    if_neg (by decide)]
  simp only [finish, ExperimentExport.artifacts, List.forM_eq_forM, List.forM_cons, List.forM_nil,
    bind_assoc, pure_bind]
  rfl

/-- What an export needs besides the directory. -/
def Feasible (evidence : ExperimentExport) (faults : List (Option ℕ)) : Prop :=
  evidence.Serialises ∧ Unfailed faults evidence.changes

theorem spec_finish (exporter : ResultExporter) (faults : List (Option ℕ)) :
    Filing.Spec (Filing.Made faults 1 (Holding evidence.experimentId (fun _ => none)))
      (finish exporter evidence)
      (fun _ m => Feasible evidence faults ∧ evidence.Complete m.disk)
      (fun _ => Stuck evidence.experimentId (Feasible evidence faults)) := by
  refine Filing.Spec.bind (spec_artifacts (writes_artifacts evidence)
    nodup_requiredFiles (Nat.le_refl _) (fun h => h.2) (fun h => h.1)) (fun _ => ?_)
  rintro m ⟨htexts, -, hunfailed, hsome, hfiles⟩
  obtain ⟨files, hdirectory⟩ := Option.isSome_iff_exists.mp hsome
  have hnames : (Filing.names evidence.experimentId : Run (List String)) m = (.ok files.keys, m) := by
    rw [Filing.names, hdirectory]
  have hmem (name : String) : name ∈ files.keys ↔ name ∈ requiredFiles := by
    have hlookup : m.disk.file evidence.experimentId name = files.lookup name := by
      rw [Disk.file, hdirectory, Option.bind_some]
    rw [← AList.mem_keys, ← AList.lookup_isSome, ← hlookup, hfiles, isSome_filesOf htexts,
      names_artifacts]
  rw [Filing.bind_of_ok hnames,
    if_neg (not_not_intro ⟨fun name => (hmem name).mp, fun name => (hmem name).mpr⟩),
    Filing.pure_apply]
  refine ⟨⟨htexts, hunfailed⟩, ⟨files, hdirectory, fun name => ?_⟩, fun a ha => ?_⟩
  · rw [AList.mem_keys, hmem]
  · obtain ⟨text, htext⟩ := htexts a ha
    refine ⟨text, htext, ?_⟩
    rw [hfiles, filesOf_of_mem (names_artifacts evidence ▸ nodup_requiredFiles) ha, htext]
    rfl

/-- All or nothing: the required files, or no directory. -/
structure AllOrNothing (exporter : ResultExporter) (evidence : ExperimentExport)
    (m : Machine String String) : Prop where
  all : ∀ path, (exporter.export evidence m).1 = .ok path →
    evidence.Complete (exporter.export evidence m).2.disk
  nothing : ∀ e, (exporter.export evidence m).1 = .error e →
    (exporter.export evidence m).2.disk evidence.experimentId = none

theorem allOrNothing_of_ok {path : String} {m' : Machine String String}
    (h : exporter.export evidence m = (.ok path, m')) :
    AllOrNothing exporter evidence m ↔ evidence.Complete m'.disk := by
  constructor
  · intro hall
    have hcomplete := hall.all path (by rw [h])
    rwa [h] at hcomplete
  · intro hcomplete
    refine ⟨fun _ _ => ?_, fun e he => ?_⟩
    · rwa [h]
    · rw [h] at he
      cases he

theorem allOrNothing_of_error {e : Raised ExportError} {m' : Machine String String}
    (h : exporter.export evidence m = (.error e, m')) :
    AllOrNothing exporter evidence m ↔ m'.disk evidence.experimentId = none := by
  constructor
  · intro hall
    have hnothing := hall.nothing e (by rw [h])
    rwa [h] at hnothing
  · intro hnothing
    refine ⟨fun path hpath => ?_, fun _ _ => ?_⟩
    · rw [h] at hpath
      cases hpath
    · rwa [h]

theorem allOrNothing_of_absent (hid : isExperimentId evidence.experimentId = true)
    (h : m.disk evidence.experimentId = none) :
    AllOrNothing exporter evidence m ↔ ¬ Unfailed m.faults 1 ∨ Feasible evidence m.faults := by
  have hmkdir : Filing.Spec (ε := ExportError)
      (Filing.Made m.faults 0 (fun disk => disk evidence.experimentId = none))
      (Filing.change (.mkdir evidence.experimentId false))
      (fun _ => Filing.Made m.faults 1 (Holding evidence.experimentId (fun _ => none)))
      (fun _ m' => ¬ Unfailed m.faults 1 ∧ m'.disk evidence.experimentId = none) := by
    apply Filing.Spec.change_made (R := fun disk => disk evidence.experimentId = none) _
      (fun _ _ => id)
    intro disk hdisk
    refine ⟨Function.update disk evidence.experimentId (some ∅), ?_, ?_, ?_⟩
    · rw [Change.apply, hdisk]
    · rw [Function.update_self]
      rfl
    · funext name
      rw [Change.file_update, if_pos rfl, AList.lookup_empty]
  have hends := hmkdir m ⟨rfl, fun f hf => absurd hf List.not_mem_nil, h⟩
  have heq : exporter.export evidence m = _ := export_of_absent hid h
  cases hchange : (Filing.change (.mkdir evidence.experimentId false) : Run Unit) m with
  | mk r m' =>
    rw [hchange] at hends
    cases r with
    | error e =>
      rw [Filing.bind_of_error hchange] at heq
      rw [allOrNothing_of_error heq]
      exact iff_of_true hends.2 (.inl hends.1)
    | ok _ =>
      rw [Filing.bind_of_ok hchange] at heq
      have hunfailed : Unfailed m.faults 1 := hends.2.1
      have hfinish := spec_finish exporter m.faults m' hends
      rw [or_iff_right (not_not_intro hunfailed)]
      cases hr : finish exporter evidence m' with
      | mk r m'' =>
        rw [hr] at heq hfinish
        cases r with
        | ok path =>
          rw [allOrNothing_of_ok heq]
          exact iff_of_true hfinish.2 hfinish.1
        | error e =>
          rw [allOrNothing_of_error heq]
          exact iff_of_false (Option.isSome_iff_ne_none.mp hfinish.1) hfinish.2

/-- An export leaves all or nothing exactly where there was no directory before, and either it stops
before the directory is made, or it can serialise everything and write everything. -/
theorem allOrNothing_iff : AllOrNothing exporter evidence m ↔
    m.disk evidence.experimentId = none ∧
      (isExperimentId evidence.experimentId = false ∨ ¬ Unfailed m.faults 1 ∨
        Feasible evidence m.faults) := by
  cases hid : isExperimentId evidence.experimentId with
  | false =>
    rw [allOrNothing_of_error (export_of_invalid hid)]
    simp only [true_or, and_true]
  | true =>
    cases hdisk : m.disk evidence.experimentId with
    | none =>
      rw [allOrNothing_of_absent hid hdisk]
      simp only [true_and, Bool.true_eq_false, false_or]
    | some files =>
      rw [allOrNothing_of_error (export_of_present hid (by rw [hdisk]; rfl)), hdisk]
      simp only [reduceCtorEq, false_and]

/-- An answer of the model was recorded with its identifier, which has no JSON text. -/
def unserialisable : ExperimentExport where
  experimentId := "demo-001"
  manifest := [("experiment_id", .str "demo-001")]
  environment := []
  workload := []
  policy := []
  rawTrials := []
  metricSummary := []
  admissionResults := []
  candidateResults := []
  aiResults := [[("id", .other "UUID" "8a6e0804-2bd0-4672-b79d-d97027f9071a")]]
  ledgerEntries := []

theorem not_serialises_unserialisable : ¬ unserialisable.Serialises := by
  intro h
  obtain ⟨text, htext⟩ := h
    (jsonlArtifact "demo-001" "ai_results.jsonl" (unserialisable.aiResults.map .mapping))
    (by simp [ExperimentExport.artifacts, unserialisable])
  cases htext

/-- What an export of it leaves. -/
def leftBehind : Machine String String :=
  (({} : ResultExporter).export unserialisable ⟨fun _ => none, [], []⟩).2

theorem isSome_leftBehind : (leftBehind.disk unserialisable.experimentId).isSome := by
  decide +kernel

/-- Such an export leaves its directory behind, and the next one with the same identifier is refused. -/
theorem not_allOrNothing_unserialisable :
    ¬ AllOrNothing {} unserialisable ⟨fun _ => none, [], []⟩ ∧
      ∃ text, ({} : ResultExporter).export unserialisable leftBehind =
        (.error (.error (.fileExistsError text)), leftBehind) := by
  constructor
  · rw [allOrNothing_of_absent (by decide) rfl]
    rintro (hfailed | hfeasible)
    · exact hfailed (fun f hf => absurd hf List.not_mem_nil)
    · exact not_serialises_unserialisable hfeasible.1
  · exact ⟨_, export_of_present (by decide) isSome_leftBehind⟩

end

end NoSQLOptimizer.Benchmarks.Export
