import NoSQLOptimizer.Concurrency.Triple
import NoSQLOptimizer.ControlPlane.Rows
import NoSQLOptimizer.Diagnosis.Durable
import NoSQLOptimizer.Workloads.Integrity

namespace NoSQLOptimizer.Diagnosis

open ControlPlane Concurrency Encoding Workloads AI

/-- The findings are told apart by their ids, and refer to what the view shows. -/
structure GroundedFindings (view : DiagnosisEvidenceView) (findings : List DiagnosisFinding) :
    Prop where
  distinct : (findings.map (·.findingId.1)).Nodup
  shapes : ∀ f ∈ findings, f.queryShapeIds ⊆ view.queryShapes.map (·.queryShapeId)
  refs : ∀ f ∈ findings, f.evidenceRefs.1 ⊆ allowedEvidenceRefs view

section

variable {view : DiagnosisEvidenceView} {findings findings' : List DiagnosisFinding}

theorem validateFindings_eq_ok {seen : List String} :
    validateFindings view seen findings = .ok () ↔
      (∀ f ∈ findings, f.findingId.1 ∉ seen) ∧ GroundedFindings view findings := by
  induction findings generalizing seen with
  | nil =>
    simp only [validateFindings, true_iff]
    exact ⟨(fun _ h => by cases h), List.nodup_nil, (fun _ h => by cases h), (fun _ h => by cases h)⟩
  | cons f findings ih =>
    simp only [validateFindings]
    split
    · next hseen =>
      simp only [reduceCtorEq, false_iff]
      exact fun h => h.1 f List.mem_cons_self hseen
    · next hseen =>
      split
      · next hshapes =>
        simp only [reduceCtorEq, false_iff]
        exact fun h => hshapes (h.2.shapes f List.mem_cons_self)
      · next hshapes =>
        split
        · next hrefs =>
          simp only [reduceCtorEq, false_iff]
          exact fun h => hrefs (h.2.refs f List.mem_cons_self)
        · next hrefs =>
          rw [ih]
          constructor
          · rintro ⟨hfresh, h⟩
            refine ⟨fun g hg => ?_, ?_, fun g hg => ?_, fun g hg => ?_⟩
            · rcases List.mem_cons.mp hg with rfl | hg
              · exact hseen
              · exact fun hmem => hfresh g hg (List.mem_cons_of_mem _ hmem)
            · refine List.nodup_cons.mpr ⟨fun hmem => ?_, h.distinct⟩
              obtain ⟨g, hg, hid⟩ := List.mem_map.mp hmem
              exact hfresh g hg (hid ▸ List.mem_cons_self)
            · rcases List.mem_cons.mp hg with rfl | hg
              · exact not_not.mp hshapes
              · exact h.shapes g hg
            · rcases List.mem_cons.mp hg with rfl | hg
              · exact not_not.mp hrefs
              · exact h.refs g hg
          · rintro ⟨hfresh, h⟩
            obtain ⟨hnot, hdistinct⟩ := List.nodup_cons.mp h.distinct
            refine ⟨fun g hg hmem => ?_, hdistinct, fun g hg => h.shapes g (List.mem_cons_of_mem _ hg),
              fun g hg => h.refs g (List.mem_cons_of_mem _ hg)⟩
            rcases List.mem_cons.mp hmem with hid | hmem
            · exact hnot (List.mem_map.mpr ⟨g, hg, hid⟩)
            · exact hfresh g (List.mem_cons_of_mem _ hg) hmem

theorem validateOutput_eq_ok {output : DiagnosisArtifactResult} :
    validateOutput output view = .ok () ↔ GroundedFindings view output.findings := by
  rw [validateOutput, validateFindings_eq_ok]
  exact and_iff_right (fun _ _ h => by cases h)

theorem GroundedFindings.perm (h : GroundedFindings view findings) (hp : findings'.Perm findings) :
    GroundedFindings view findings' where
  distinct := (hp.map _).nodup_iff.mpr h.distinct
  shapes f hf := h.shapes f (hp.mem_iff.mp hf)
  refs f hf := h.refs f (hp.mem_iff.mp hf)

theorem sortedFindings_perm (findings : List DiagnosisFinding) :
    (sortedFindings findings).Perm findings :=
  List.perm_insertionSort _ _

/-- In whatever order the findings come, they are hashed in one order. -/
theorem sortedFindings_congr (h : (findings.map (·.findingId.1)).Nodup)
    (hp : findings'.Perm findings) : sortedFindings findings' = sortedFindings findings := by
  have : Std.Total (fun f g : DiagnosisFinding => f.findingId.1 ≤ g.findingId.1) :=
    ⟨fun _ _ => le_total _ _⟩
  have : IsTrans DiagnosisFinding (fun f g => f.findingId.1 ≤ g.findingId.1) :=
    ⟨fun _ _ _ => le_trans⟩
  refine eq_of_perm_of_key (·.findingId.1)
    ((sortedFindings_perm findings').trans (hp.trans (sortedFindings_perm findings).symm)) ?_
    (List.pairwise_insertionSort _ _) (List.pairwise_insertionSort _ _)
  exact ((sortedFindings_perm findings).map _).nodup_iff.mpr h

end

section

variable (S : DiagnosisService)

/-- The snapshot is that of the run and of its target, and intact. -/
structure Backed (s : Store) (r : RunId) (target : TargetId) (id : SnapshotId) (a : Snapshot) :
    Prop where
  run : ∃ run, s.runs r = some run ∧ run.targetId = target ∧ run.workloadSnapshotId = some id
  snapshot : s.snapshots id = some a
  sourceRun : a.row.sourceRunId = r
  target : a.row.targetId = target
  intact : S.snapshots.verifySnapshotIntegrity a.row = true

/-- The diagnosis is of the run's own snapshot and target; its findings are told apart and refer to
what that snapshot shows; and its fingerprint is theirs. -/
structure Grounded (s : Store) (d : DiagnosisArtifactRead) (a : Snapshot) : Prop where
  backed : Backed S s d.optimizationRunId d.targetId d.workloadSnapshotId a
  source : d.sourceSnapshotFingerprint = a.row.fingerprint
  findings : GroundedFindings (buildEvidenceView a) d.findings
  fingerprint : S.artifactFingerprint d.optimizationRunId d.targetId (buildEvidenceView a)
    d.deterministicEvidenceHash d.aiInvocationId d.findings = d.artifactFingerprint

/-- What the others may do meanwhile. -/
structure Extends (s t : Store) : Prop where
  runs : ∀ r run, s.runs r = some run → ∃ run', t.runs r = some run' ∧
    run'.targetId = run.targetId ∧
      ∀ id, run.workloadSnapshotId = some id → run'.workloadSnapshotId = some id
  snapshots : ∀ id a, s.snapshots id = some a → t.snapshots id = some a
  artifacts : ∀ d ∈ s.artifacts, d ∈ t.artifacts

/-- What holds of the tables at every moment. -/
structure Consistent (s : Store) : Prop where
  artifacts : ∀ d ∈ s.artifacts, ∃ a, Grounded S s d a
  ids : (s.artifacts.map (·.diagnosisId)).Nodup
  invocations : ∀ v ∈ s.invocations, v.stage = "DIAGNOSIS" → ∀ json, v.validatedOutput = some json →
    ∃ a, s.snapshots v.workloadSnapshotId = some a ∧ ∃ output : DiagnosisArtifactResult,
      json = output.dump ∧ GroundedFindings (buildEvidenceView a) output.findings
  returned : ∀ x ∈ s.returned, ∃ d ∈ s.artifacts, x.2 = S.read d ∧ d.optimizationRunId = x.1

end

section

variable {S : DiagnosisService} {s t u : Store} {r : RunId} {target : TargetId} {id : SnapshotId}
  {a : Snapshot} {d : DiagnosisArtifactRead}

theorem Extends.refl (s : Store) : Extends s s :=
  ⟨fun _ run h => ⟨run, h, rfl, fun _ h => h⟩, fun _ _ h => h, fun _ h => h⟩

theorem Extends.trans (h : Extends s t) (h' : Extends t u) : Extends s u := by
  refine ⟨fun r run hrun => ?_, fun id a ha => h'.snapshots id a (h.snapshots id a ha),
    fun d hd => h'.artifacts d (h.artifacts d hd)⟩
  obtain ⟨run', hrun', htarget, hsnapshot⟩ := h.runs r run hrun
  obtain ⟨run'', hrun'', htarget', hsnapshot'⟩ := h'.runs r run' hrun'
  exact ⟨run'', hrun'', htarget'.trans htarget, fun id hid => hsnapshot' id (hsnapshot id hid)⟩

theorem Backed.extend (h : Backed S s r target id a) (hst : Extends s t) :
    Backed S t r target id a := by
  obtain ⟨run, hrun, htarget, hid⟩ := h.run
  obtain ⟨run', hrun', htarget', hid'⟩ := hst.runs r run hrun
  exact ⟨⟨run', hrun', htarget'.trans htarget, hid' id hid⟩, hst.snapshots id a h.snapshot,
    h.sourceRun, h.target, h.intact⟩

theorem Grounded.extend (h : Grounded S s d a) (hst : Extends s t) : Grounded S t d a :=
  ⟨h.backed.extend hst, h.source, h.findings, h.fingerprint⟩

theorem artifactFingerprint_congr {view : DiagnosisEvidenceView} {hash : String} {invocation : Nat}
    {findings findings' : List DiagnosisFinding} (h : (findings.map (·.findingId.1)).Nodup)
    (hp : findings'.Perm findings) :
    S.artifactFingerprint r target view hash invocation findings' =
      S.artifactFingerprint r target view hash invocation findings := by
  rw [DiagnosisService.artifactFingerprint, sortedFindings_congr h hp]
  rfl

/-- As it is read, a diagnosis is grounded where it is. -/
theorem Grounded.read (h : Grounded S s d a) : Grounded S s (S.read d) a :=
  ⟨h.backed, h.source, h.findings.perm (S.listed_perm d.findings),
    (artifactFingerprint_congr h.findings.distinct (S.listed_perm d.findings)).trans h.fingerprint⟩

end

section

variable {S : DiagnosisService} {ι : Type} {i : ι} {r : RunId}

/-- Any calls, among surroundings that leave evidence alone. -/
abbrev outside (S : DiagnosisService) (ι : Type) : (diagnosing S ι).Conduct where
  env := Outside

/-- The tables are consistent, and grow only. -/
def tables (S : DiagnosisService) (ι : Type) : Discipline (outside S ι) where
  inv := Consistent S
  grows := Extends
  rely _ := Extends
  rely_grows := fun h => h
  idle _ _ := True
  refl _ := Extends.refl
  trans := Extends.trans
  idle_stable := fun _ _ => trivial

theorem tables_crashable (K : Store → Prop) : (tables S ι).Crashable i K :=
  fun _ _ hs _ _ => ⟨.refl hs, trivial⟩

/-- The run is there, with this target and, if it has one, this snapshot. -/
def Knows (r : RunId) (run : OptimizationRun) (s : Store) : Prop :=
  ∃ run', s.runs r = some run' ∧ run'.targetId = run.targetId ∧
    ∀ id, run.workloadSnapshotId = some id → run'.workloadSnapshotId = some id

theorem knows_stable (run : OptimizationRun) : (tables S ι).Stable i (Knows r run) := by
  rintro s t hst - ⟨run', hrun, htarget, hid⟩
  obtain ⟨run'', hrun', htarget', hid'⟩ := Extends.runs hst r run' hrun
  exact ⟨run'', hrun', htarget'.trans htarget, fun id h => hid' id (hid id h)⟩

theorem snapshot_stable (id : SnapshotId) (a : Snapshot) :
    (tables S ι).Stable i (fun s => s.snapshots id = some a) :=
  fun _ _ hst _ h => Extends.snapshots hst id a h

/-- What was loaded is what the run's snapshot shows. -/
def Shows (S : DiagnosisService) (r : RunId) (loaded : Loaded) (s : Store) : Prop :=
  ∃ a, Backed S s r loaded.run.targetId loaded.snapshotId a ∧ loaded.view = buildEvidenceView a

theorem shows_stable (loaded : Loaded) : (tables S ι).Stable i (Shows S r loaded) :=
  fun _ _ hst _ ⟨a, ha, hview⟩ => ⟨a, ha.extend hst, hview⟩

theorem fail_triple {α : Type} {K : Store → Prop} {Q : α → Store → Prop}
    (hK : (tables S ι).Stable i K) (e : Error) :
    (tables S ι).Triple i K (.fail e) Q (fun _ _ => True) :=
  .fail hK (fun _ _ _ => trivial)

theorem load_triple (b : Bool) :
    (tables S ι).Triple i (fun _ => True) (S.loadValidRunSnapshot r b) (Shows S r)
      (fun _ _ => True) := by
  refine .bind (Q := fun o s => ∀ run, o = some run → Knows r run s) (.read (.const True)
    (tables_crashable _) (fun o => .opt (fun run => knows_stable run)) (fun s _ _ _ run hrun =>
      ⟨run, hrun, rfl, fun _ h => h⟩)) (fun o => ?_)
  cases o with
  | none => exact fail_triple (.opt (fun run => knows_stable run)) _
  | some run =>
    refine Discipline.Triple.pre (K := Knows r run) ?_ (fun s _ h => h run rfl)
    dsimp only
    cases hid : run.workloadSnapshotId with
    | none => exact fail_triple (knows_stable run) _
    | some id =>
      dsimp only
      have hknows : ∀ a, (tables S ι).Stable i
          (fun s => Knows r run s ∧ s.snapshots id = some a) :=
        fun a => (knows_stable run).and (snapshot_stable id a)
      refine .bind (.raiseIf (knows_stable run) (fun _ _ _ => trivial)) (fun _ => ?_)
      refine .bind (Q := fun a s => Knows r run s ∧ s.snapshots id = some a)
        (.atomic ((knows_stable run).and (.const _)) (tables_crashable _) hknows
          (fun _ => .const True) ?_ (fun _ _ _ _ _ _ => trivial)) (fun a => ?_)
      · intro s a t hs hk _ ht
        unfold readSnapshot at ht
        split at ht
        · cases ht
        · next hsnapshot =>
          cases ht
          exact ⟨.refl hs, hk.1, hsnapshot⟩
      · refine .bind (.raiseIf (hknows a) (fun _ _ _ => trivial)) (fun _ => ?_)
        refine .bind (.raiseIf ((hknows a).and (.const _)) (fun _ _ _ => trivial)) (fun _ => ?_)
        refine .bind (Q := fun intact s => ((Knows r run s ∧ s.snapshots id = some a) ∧
          decide (a.row.sourceRunId ≠ r) = false ∧ decide (a.row.targetId ≠ run.targetId) = false) ∧
            intact = S.snapshots.verifySnapshotIntegrity a.row)
          (.atomic (((hknows a).and (.const _)).and (.const _)) (tables_crashable _)
            (fun _ => ((hknows a).and (.const _)).and (.const _)) (fun _ => .const True) ?_
            (fun _ _ _ _ _ _ => trivial)) (fun intact => ?_)
        · rintro s intact t hs ⟨⟨hk, hrun⟩, htarget⟩ - ht
          simp only [DiagnosisService.verifySnapshotIntegrity, readSnapshot, hk.2, Except.map,
            Except.ok.injEq, Prod.mk.injEq] at ht
          obtain ⟨rfl, rfl⟩ := ht
          exact ⟨.refl hs, ⟨hk, hrun, htarget⟩, rfl⟩
        · refine .bind (.raiseIf (((hknows a).and (.const _)).and (.const _))
            (fun _ _ _ => trivial)) (fun _ => ?_)
          refine .ret ((((hknows a).and (.const _)).and (.const _)).and (.const _)) ?_
          rintro s hs ⟨⟨⟨⟨⟨run', hrun', htarget', hid'⟩, hsnapshot⟩, hrun, htarget⟩, rfl⟩, hintact⟩
          refine ⟨a, ⟨⟨run', hrun', htarget', hid' id hid⟩, hsnapshot, ?_, ?_, ?_⟩, rfl⟩
          · exact not_not.mp (of_decide_eq_false hrun)
          · exact not_not.mp (of_decide_eq_false htarget)
          · simpa using hintact

theorem grounded_permanent (d : DiagnosisArtifactRead) :
    (tables S ι).Permanent (fun s => ∃ a, Grounded S s d a) :=
  fun _ _ hst _ ⟨a, ha⟩ => ⟨a, ha.extend hst⟩

/-- What is validated is grounded. -/
theorem validateArtifact_triple (d : DiagnosisArtifactRead) {K : Store → Prop}
    (hK : (tables S ι).Permanent K) :
    (tables S ι).Triple i K (S.validateArtifact d) (fun _ s => K s ∧ ∃ a, Grounded S s d a)
      (fun _ _ => True) := by
  refine .bind (((load_triple false).keep hK).pre (fun _ _ h => ⟨h, trivial⟩)) (fun loaded => ?_)
  have hloaded : (tables S ι).Stable i (fun s => K s ∧ Shows S d.optimizationRunId loaded s) :=
    hK.stable.and (shows_stable loaded)
  refine .bind (.raiseIf hloaded (fun _ _ _ => trivial)) (fun _ => ?_)
  cases hvalid : validateOutput ⟨d.findings⟩ loaded.view with
  | error code => exact fail_triple (hloaded.and (.const _)) _
  | ok _ =>
    refine .bind (.raiseIf (hloaded.and (.const _)) (fun _ _ _ => trivial)) (fun _ => ?_)
    refine .ret ((hloaded.and (.const _)).and (.const _)) ?_
    rintro s - ⟨⟨⟨hk, a, hbacked, hview⟩, hsame⟩, hprint⟩
    obtain ⟨hid, hsame⟩ := not_or.mp (of_decide_eq_false hsame)
    obtain ⟨htarget, hsource⟩ := not_or.mp hsame
    have hid := not_not.mp hid
    have htarget := not_not.mp htarget
    have hprint := not_not.mp (of_decide_eq_false hprint)
    rw [hview] at hvalid hprint
    rw [← htarget] at hbacked hprint
    rw [← hid] at hbacked
    refine ⟨hk, a, hbacked, ?_, validateOutput_eq_ok.mp hvalid, hprint⟩
    rw [not_not.mp hsource, hview]
    rfl

section

variable {s : Store}

theorem Grounded.congr {t : Store} {d : DiagnosisArtifactRead} {a : Snapshot}
    (h : Grounded S s d a) (hruns : t.runs = s.runs) (hsnapshots : t.snapshots = s.snapshots) :
    Grounded S t d a :=
  ⟨⟨hruns ▸ h.backed.run, hsnapshots ▸ h.backed.snapshot, h.backed.sourceRun, h.backed.target,
    h.backed.intact⟩, h.source, h.findings, h.fingerprint⟩

/-- An invocation is recorded. -/
theorem Consistent.record (h : Consistent S s) {v : AIInvocation}
    (hv : v.stage = "DIAGNOSIS" → ∀ json, v.validatedOutput = some json →
      ∃ a, s.snapshots v.workloadSnapshotId = some a ∧ ∃ output : DiagnosisArtifactResult,
        json = output.dump ∧ GroundedFindings (buildEvidenceView a) output.findings) :
    (tables S ι).Admits i s { s with invocations := s.invocations ++ [v] } := by
  have hextends : Extends s { s with invocations := s.invocations ++ [v] } :=
    ⟨fun _ run hrun => ⟨run, hrun, rfl, fun _ h => h⟩, fun _ _ h => h, fun _ h => h⟩
  refine ⟨⟨fun d hd => ?_, h.ids, fun w hw => ?_, h.returned⟩, hextends, fun _ _ => hextends⟩
  · obtain ⟨a, ha⟩ := h.artifacts d hd
    exact ⟨a, ha.extend hextends⟩
  · rcases List.mem_append.mp hw with hw | hw
    · exact h.invocations w hw
    · rw [List.mem_singleton.mp hw]
      exact hv

end

theorem reusableInvocation_triple (loaded : Loaded) :
    (tables S ι).Triple i (Shows S r loaded)
      (DiagnosisService.reusableInvocation r loaded.snapshotId (S.sha256 loaded.view.canonicalJson))
      (fun o s => Shows S r loaded s ∧ ∀ x, o = some x → GroundedFindings loaded.view x.2.findings)
      (fun _ _ => True) := by
  refine .bind (Q := fun o s => Shows S r loaded s ∧ ∀ v json, o = some v → v.validatedOutput = some json →
    ∃ output : DiagnosisArtifactResult, json = output.dump ∧
      GroundedFindings loaded.view output.findings) (.read (shows_stable loaded)
    (tables_crashable _) (fun _ => (shows_stable loaded).and (.const _)) ?_) (fun o => ?_)
  · rintro s hs ⟨a, hbacked, hview⟩ -
    refine ⟨⟨a, hbacked, hview⟩, fun v json hv hjson => ?_⟩
    have hmem := (List.mem_insertionSort _).mp (List.mem_of_mem_head? hv)
    obtain ⟨hmem, hmatch⟩ := List.mem_filter.mp hmem
    obtain ⟨-, hstage, hid, -⟩ := of_decide_eq_true hmatch
    obtain ⟨b, hb, output, houtput, hgrounded⟩ := hs.invocations v hmem hstage json hjson
    rw [hid, hbacked.snapshot] at hb
    cases hb
    exact ⟨output, houtput, hview ▸ hgrounded⟩
  · have hstable (p : Prop) : (tables S ι).Stable i (fun s => Shows S r loaded s ∧ p) :=
      (shows_stable loaded).and (.const p)
    cases o with
    | none => exact .ret (hstable _) (fun _ _ h => ⟨h.1, fun _ h => by cases h⟩)
    | some v =>
      dsimp only
      cases hjson : v.validatedOutput with
      | none => exact .ret (hstable _) (fun _ _ h => ⟨h.1, fun _ h => by cases h⟩)
      | some json =>
        dsimp only
        cases houtput : DiagnosisArtifactResult.validate json with
        | none => exact fail_triple (hstable _) _
        | some output =>
          refine .ret (hstable _) (fun s _ h => ⟨h.1, fun x hx => ?_⟩)
          cases hx
          obtain ⟨recorded, hdump, hgrounded⟩ := h.2 v json rfl hjson
          rw [hdump, DiagnosisArtifactResult.validate_dump] at houtput
          cases houtput
          exact hgrounded

theorem recordFailedInvocation_triple (loaded : Loaded) (code : DiagnosisFailureCode) :
    (tables S ι).Triple i (Shows S r loaded) (S.recordFailedInvocation r loaded code)
      (fun _ => Shows S r loaded) (fun _ _ => True) := by
  refine .modify (shows_stable loaded) (tables_crashable _) (shows_stable loaded) ?_
  rintro s hs ⟨a, hbacked, hview⟩ -
  have hadmits := hs.record (i := i) (ι := ι) (v := { S.invocation r loaded s with
    safeErrorCode := some code.value }) (fun _ _ h => by cases h)
  exact ⟨hadmits, a, hbacked.extend hadmits.grows, hview⟩

/-- Only an answer that is grounded gets past its validation. -/
theorem invoke_triple (loaded : Loaded) (answer : Answer) :
    (tables S ι).Triple i (Shows S r loaded) (S.invoke r loaded answer)
      (fun x s => Shows S r loaded s ∧ GroundedFindings loaded.view x.2.findings)
      (fun _ _ => True) := by
  have hfail : ∀ (code : DiagnosisFailureCode) (e : Error), (tables S ι).Triple i (Shows S r loaded)
      (do S.recordFailedInvocation r loaded code; throw e)
      (fun (x : Nat × DiagnosisArtifactResult) s =>
        Shows S r loaded s ∧ GroundedFindings loaded.view x.2.findings) (fun _ _ => True) :=
    fun code e => .bind (recordFailedInvocation_triple loaded code)
      (fun _ => fail_triple (shows_stable loaded) e)
  cases answer with
  | error failure =>
    cases failure with
    | provider code retryable => exact hfail _ _
    | other => exact hfail _ _
  | ok output =>
    rw [DiagnosisService.invoke]
    cases hvalid : validateOutput output loaded.view with
    | error code => exact hfail _ _
    | ok _ =>
      have hgrounded := validateOutput_eq_ok.mp hvalid
      refine .bind (Q := fun _ => Shows S r loaded) (.atomic (shows_stable loaded)
        (tables_crashable _) (fun _ => shows_stable loaded) (fun _ => .const True) ?_
        (fun _ _ _ _ _ _ => trivial))
        (fun _ => .ret (shows_stable loaded) (fun _ _ h => ⟨h, hgrounded⟩))
      rintro s id t hs ⟨a, hbacked, hview⟩ - ht
      cases ht
      have hadmits := hs.record (i := i) (ι := ι) (v := { S.invocation r loaded s with
        outputHash := some (S.sha256 output.dump.canonical)
        validatedOutput := some output.dump
        status := "SUCCEEDED" }) (fun _ json hjson => by
          cases hjson
          exact ⟨a, hbacked.snapshot, output, rfl, hview ▸ hgrounded⟩)
      exact ⟨hadmits, a, hbacked.extend hadmits.grows, hview⟩

theorem grounded_artifact {s : Store} {a : Snapshot} {loaded : Loaded}
    {output : DiagnosisArtifactResult}
    (hbacked : Backed S s r loaded.run.targetId loaded.snapshotId a)
    (hview : loaded.view = buildEvidenceView a)
    (hgrounded : GroundedFindings loaded.view output.findings) (invocation id : Nat) :
    Grounded S s (S.artifact r loaded invocation output id) a where
  backed := hbacked
  source := by rw [DiagnosisService.artifact, hview]; rfl
  findings := (hview ▸ hgrounded).perm (sortedFindings_perm output.findings)
  fingerprint := by rw [DiagnosisService.artifact, hview]

/-- What is in the tables for the run as it is returned. -/
def Kept (S : DiagnosisService) (r : RunId) (d : DiagnosisArtifactRead) (s : Store) : Prop :=
  ∃ e ∈ s.artifacts, d = S.read e ∧ e.optimizationRunId = r

theorem kept_permanent (d : DiagnosisArtifactRead) : (tables S ι).Permanent (Kept S r d) :=
  fun _ _ hst _ ⟨e, he, hd⟩ => ⟨e, Extends.artifacts hst e he, hd⟩

theorem persist_triple (loaded : Loaded) (invocation : Nat) (output : DiagnosisArtifactResult)
    (hgrounded : GroundedFindings loaded.view output.findings) :
    (tables S ι).Triple i (Shows S r loaded)
      (.atomic .persist (S.persist r loaded invocation output))
      (fun x s => (∀ d, x = .existing d → Kept S r d s) ∧
        ∀ id, x = .inserted id → ∃ e ∈ s.artifacts, e.diagnosisId = id ∧ e.optimizationRunId = r)
      (fun _ _ => True) := by
  refine .atomic (shows_stable loaded) (tables_crashable _) (fun x => ?_) (fun _ => .const True) ?_
    (fun _ _ _ _ _ _ => trivial)
  · refine .and (.all (fun d => .imp (kept_permanent d).stable)) (.all (fun id => .imp ?_))
    exact fun _ _ hst _ ⟨e, he, hid⟩ => ⟨e, Extends.artifacts hst e he, hid⟩
  · rintro s x t hs ⟨a, hbacked, hview⟩ - ht
    unfold DiagnosisService.persist at ht
    split at ht
    · cases ht
    · next locked hlocked =>
      split at ht
      · next existing hexisting =>
        cases ht
        refine ⟨.refl hs, fun d hd => ?_, fun _ h => by cases h⟩
        cases hd
        exact ⟨existing, List.mem_of_find?_eq_some hexisting, rfl,
          by simpa using List.find?_some hexisting⟩
      · next hnone =>
        dsimp only at ht
        split_ifs at ht
        cases ht
        have hextends : Extends s { s with artifacts :=
            s.artifacts ++ [S.artifact r loaded invocation output s.freshArtifactId] } :=
          ⟨fun _ run hrun => ⟨run, hrun, rfl, fun _ h => h⟩, fun _ _ h => h,
            fun _ h => List.mem_append_left _ h⟩
        have hnew := (grounded_artifact hbacked hview hgrounded invocation s.freshArtifactId).extend
          hextends
        refine ⟨⟨⟨fun d hd => ?_, ?_, fun v hv => hs.invocations v hv, fun x hx => ?_⟩, hextends,
          fun _ _ => hextends⟩, (fun _ h => by cases h), fun id hid => ?_⟩
        · rcases List.mem_append.mp hd with hd | hd
          · obtain ⟨b, hb⟩ := hs.artifacts d hd
            exact ⟨b, hb.extend hextends⟩
          · rw [List.mem_singleton.mp hd]
            exact ⟨a, hnew⟩
        · exact nodup_map_concat hs.ids (fun d hd => (lt_foldr_max (·.diagnosisId) hd).ne)
        · obtain ⟨d, hd, hx⟩ := hs.returned x hx
          exact ⟨d, List.mem_append_left _ hd, hx⟩
        · cases hid
          exact ⟨_, List.mem_append_right _ List.mem_cons_self, rfl, rfl⟩

/-- An artifact that was found is validated before it is returned. -/
theorem validated_triple {K : Store → Prop} (d : DiagnosisArtifactRead)
    (hK : (tables S ι).Permanent K) :
    (tables S ι).Triple i K (do let _ ← S.validateArtifact d; return d)
      (fun x s => x = d ∧ K s) (fun _ _ => True) :=
  .bind (validateArtifact_triple d hK)
    (fun _ => .ret (hK.stable.and (grounded_permanent d).stable) (fun _ _ h => ⟨rfl, h.1⟩))

theorem persistOrReuse_triple (loaded : Loaded) (invocation : Nat)
    (output : DiagnosisArtifactResult) (hgrounded : GroundedFindings loaded.view output.findings) :
    (tables S ι).Triple i (Shows S r loaded) (S.persistOrReuse r loaded invocation output)
      (Kept S r) (fun _ _ => True) := by
  refine .bind (persist_triple loaded invocation output hgrounded) (fun x => ?_)
  cases x with
  | existing d =>
    refine ((validated_triple d (kept_permanent d)).pre (fun s _ h => h.1 d rfl)).post ?_
    rintro _ s - ⟨rfl, h⟩
    exact h
  | inserted id =>
    refine .bind (Q := fun o s => ∀ d, o = some d → Kept S r d s) (.read ?_ (tables_crashable _)
      (fun o => .opt (fun d => (kept_permanent d).stable)) ?_) (fun o => ?_)
    · refine .and (.all (fun d => .imp (kept_permanent d).stable)) (.all (fun id => .imp ?_))
      exact fun _ _ hst _ ⟨e, he, hid⟩ => ⟨e, Extends.artifacts hst e he, hid⟩
    · rintro s hs ⟨-, hinserted⟩ - d hd
      obtain ⟨e, he, hid, hrun⟩ := hinserted id rfl
      obtain ⟨e', he', rfl⟩ := Option.map_eq_some_iff.mp hd
      have hfound : s.artifactById id = some e :=
        find?_eq_some_of_key hs.ids he (fun _ => by simp [hid])
      rw [hfound] at he'
      cases he'
      exact ⟨e, he, rfl, hrun⟩
    · cases o with
      | none => exact fail_triple (.opt (fun d => (kept_permanent d).stable)) _
      | some d =>
        refine ((validated_triple d (kept_permanent d)).pre (fun s _ h => h d rfl)).post ?_
        rintro _ s - ⟨rfl, h⟩
        exact h

theorem createForRun_triple (answer : Answer) :
    (tables S ι).Triple i (fun _ => True) (S.createForRun r answer) (Kept S r)
      (fun _ _ => True) := by
  refine .bind (Q := fun o s => ∀ d, o = some d → Kept S r d s) (.read (.const True)
    (tables_crashable _) (fun o => .opt (fun d => (kept_permanent d).stable)) ?_) (fun o => ?_)
  · rintro s - - - d hd
    obtain ⟨e, he, rfl⟩ := Option.map_eq_some_iff.mp hd
    exact ⟨e, List.mem_of_find?_eq_some he, rfl, by simpa using List.find?_some he⟩
  · cases o with
    | some d =>
      refine ((validated_triple d (kept_permanent d)).pre (fun s _ h => h d rfl)).post ?_
      rintro _ s - ⟨rfl, h⟩
      exact h
    | none =>
      refine .bind ((load_triple true).pre (fun _ _ _ => trivial)) (fun loaded => ?_)
      have hpersist (x : Nat × DiagnosisArtifactResult) : (tables S ι).Triple i
          (fun s => Shows S r loaded s ∧ GroundedFindings loaded.view x.2.findings)
          (S.persistOrReuse r loaded x.1 x.2) (Kept S r) (fun _ _ => True) :=
        .assuming (fun hgrounded => persistOrReuse_triple loaded x.1 x.2 hgrounded)
      refine .bind (reusableInvocation_triple loaded) (fun o => ?_)
      cases o with
      | none => exact .bind ((invoke_triple loaded answer).pre (fun _ _ h => h.1)) hpersist
      | some x => exact (hpersist x).pre (fun _ _ h => ⟨h.1, h.2 x rfl⟩)

theorem call_triple (k : RunId × Answer) :
    (tables S ι).Triple i (fun _ => True) ((diagnosing S ι).call i k) (fun _ _ => True)
      (fun _ _ => True) := by
  refine .bind (createForRun_triple k.2) (fun d => .modify (kept_permanent d).stable
    (tables_crashable _) (.const True) ?_)
  rintro s hs ⟨e, he, rfl, hrun⟩ -
  have hextends : Extends s { s with returned := s.returned ++ [(k.1, S.read e)] } :=
    ⟨fun _ run hrun => ⟨run, hrun, rfl, fun _ h => h⟩, fun _ _ h => h, fun _ h => h⟩
  refine ⟨⟨⟨fun d hd => ?_, hs.ids, hs.invocations, fun x hx => ?_⟩, hextends, fun _ _ => hextends⟩,
    trivial⟩
  · obtain ⟨a, ha⟩ := hs.artifacts d hd
    exact ⟨a, ha.extend hextends⟩
  · rcases List.mem_append.mp hx with hx | hx
    · exact hs.returned x hx
    · rw [List.mem_singleton.mp hx]
      exact ⟨e, he, rfl, hrun⟩

theorem Outside.neutral {s t : Store} (h : Outside s t) (hs : Consistent S s) :
    (tables S ι).Neutral s t := by
  have hextends : Extends s t := ⟨h.runs, h.snapshots, fun d hd => h.artifacts.symm ▸ hd⟩
  refine ⟨⟨fun d hd => ?_, h.artifacts.symm ▸ hs.ids, fun v hv hstage json hjson => ?_,
    fun x hx => ?_⟩, fun _ => hextends⟩
  · obtain ⟨a, ha⟩ := hs.artifacts d (h.artifacts ▸ hd)
    exact ⟨a, ha.extend hextends⟩
  · obtain ⟨more, hmore, hother⟩ := h.invocations
    rw [hmore] at hv
    rcases List.mem_append.mp hv with hv | hv
    · obtain ⟨a, ha, houtput⟩ := hs.invocations v hv hstage json hjson
      exact ⟨a, h.snapshots _ a ha, houtput⟩
    · exact absurd hstage (hother v hv)
  · obtain ⟨d, hd, hx⟩ := hs.returned x (h.returned ▸ hx)
    exact ⟨d, h.artifacts.symm ▸ hd, hx⟩

/-- No diagnosis is there yet, nor an answer to make one of. -/
structure Store.Fresh (s : Store) : Prop where
  artifacts : s.artifacts = []
  invocations : ∀ v ∈ s.invocations, v.stage ≠ "DIAGNOSIS"
  returned : s.returned = []

theorem Store.Fresh.consistent {s : Store} (h : s.Fresh) : Consistent S s := by
  refine ⟨fun d hd => ?_, by simp [h.artifacts], fun v hv hstage => absurd hstage (h.invocations v hv),
    fun x hx => ?_⟩
  · rw [h.artifacts] at hd
    cases hd
  · rw [h.returned] at hx
    cases hx

/-- A check that passes. -/
theorem run_raiseIf_bind {α : Type} {s : Store} {b : Bool} {e : Error} (h : b = false)
    (f : PUnit → Proc α) : ((Process.raiseIf b e).bind f).run s = (f ⟨⟩).run s := by
  subst h
  rfl

theorem run_load {s : Store} {run : OptimizationRun} {id : SnapshotId} {a : Snapshot}
    (hrun : s.runs r = some run) (hid : run.workloadSnapshotId = some id)
    (h : Backed S s r run.targetId id a) :
    (S.loadValidRunSnapshot r false).run s = (.ok ⟨run, id, buildEvidenceView a⟩, s) := by
  have hread : (Process.atomic .snapshot (readSnapshot · id) : Proc Snapshot).run s = (.ok a, s) := by
    simp [Process.atomic, readSnapshot, h.snapshot]
  have hverify : (Process.atomic Label.snapshotIntegrity (S.verifySnapshotIntegrity · id)).run s =
      (.ok true, s) := by
    simp [Process.atomic, DiagnosisService.verifySnapshotIntegrity, readSnapshot, h.snapshot,
      Except.map, h.intact]
  simp only [DiagnosisService.loadValidRunSnapshot, Process.bind_def, Process.pure_def]
  rw [Process.run_bind_ok (Process.run_read _ _ s), hrun]
  dsimp only
  rw [hid]
  dsimp only
  rw [run_raiseIf_bind (Bool.false_and _), Process.run_bind_ok hread,
    run_raiseIf_bind (decide_eq_false (not_not.mpr h.sourceRun)),
    run_raiseIf_bind (decide_eq_false (not_not.mpr h.target)), Process.run_bind_ok hverify]
  rfl

/-- Alone, the verification of a grounded diagnosis succeeds. -/
theorem run_validateArtifact {s : Store} {d : DiagnosisArtifactRead} {a : Snapshot}
    (h : Grounded S s d a) : (S.validateArtifact d).run s = (.ok true, s) := by
  obtain ⟨run, hrun, htarget, hid⟩ := h.backed.run
  have hload := run_load hrun hid (htarget ▸ h.backed)
  have hvalid : validateOutput ⟨d.findings⟩ (buildEvidenceView a) = .ok () :=
    validateOutput_eq_ok.mpr h.findings
  simp only [DiagnosisService.validateArtifact, Process.bind_def, Process.pure_def]
  rw [Process.run_bind_ok hload, run_raiseIf_bind (decide_eq_false ?_)]
  · dsimp only
    rw [hvalid]
    dsimp only
    rw [run_raiseIf_bind (decide_eq_false ?_)]
    · rfl
    · rw [htarget]
      exact not_not.mpr h.fingerprint
  · rw [not_or, not_or, not_not, not_not, not_not, htarget]
    exact ⟨rfl, rfl, h.source⟩

/-- Whatever the provider answers and wherever callers meet or crash: what is committed is grounded,
and what is returned is grounded too and is accepted by the verification. -/
theorem diagnosis_grounded [DecidableEq ι] {s : Store} (hs : s.Fresh)
    {c : Config Label Store Error ι}
    (hr : (diagnosing S ι).Reach (outside S ι).Allows (.quiet s) c) :
    (∀ d ∈ c.shared.artifacts, ∃ a, Grounded S c.shared d a) ∧
      ∀ x ∈ c.shared.returned, x.2.optimizationRunId = x.1 ∧ (∃ a, Grounded S c.shared x.2 a) ∧
        (S.verifyDiagnosisIntegrity x.2.diagnosisId).run c.shared = (.ok true, c.shared) := by
  have hquiet : (tables S ι).Holds (.quiet s) := .quiet hs.consistent (fun _ => trivial)
  have hinv : Consistent S c.shared := (hquiet.reach (.of_triples (fun i k _ => call_triple k)
    (fun _ _ hst hs => Outside.neutral hst hs)) hr).inv
  refine ⟨hinv.artifacts, fun x hx => ?_⟩
  obtain ⟨d, hd, hread, hrun⟩ := hinv.returned x hx
  obtain ⟨a, ha⟩ := hinv.artifacts d hd
  have hgrounded : Grounded S c.shared x.2 a := hread ▸ ha.read
  refine ⟨by rw [hread]; exact hrun, ⟨a, hgrounded⟩, ?_⟩
  have hfound : c.shared.artifactById x.2.diagnosisId = some d :=
    find?_eq_some_of_key hinv.ids hd (fun _ => by rw [hread]; exact decide_eq_true_iff)
  have hby : (S.artifactById x.2.diagnosisId).run c.shared = (.ok (some x.2), c.shared) := by
    rw [DiagnosisService.artifactById, Process.run_read, hfound, hread]
    rfl
  simp only [DiagnosisService.verifyDiagnosisIntegrity, Process.bind_def]
  rw [Process.run_bind_ok hby]
  exact run_validateArtifact hgrounded

end

section

def checksums : WorkloadSnapshotService String where
  sha256 j := toString (j.checksum 0)

/-- A service whose digest is a checksum, over a database that lists rows as they were inserted. -/
def checksummed : DiagnosisService where
  sha256 := checksums.sha256
  snapshots := checksums
  providerName := "fake"
  chatModel := "fake"
  listed findings := findings
  listed_perm := .refl

def observedShape : ShapeEvidence where
  queryShapeId := 4
  queryShapeHash := "shape"
  operation := "find"
  namespaceName := "shop.orders"
  observedOperationCount := 100
  successfulOperationCount := none
  failureCount := none
  timeoutCount := none
  aggregateExecutionTimeMs := none
  workloadOperationShare := 1
  executionTimeShare := none
  manuallyCritical := false
  protectedManualCritical := false
  protectedOperationShare := true
  protectedExecutionTimeShare := false
  baseProtected := true
  provider := "QUERY_STATS"

/-- The snapshot of run 1, with its fingerprint. -/
def observedRow (fingerprint : String) : WorkloadSnapshot String where
  id := 0
  targetId := 7
  telemetryWindowId := 0
  sourceRunId := 1
  observedFrom := 0
  observedUntil := 5
  anchorAt := 5
  summary := .null
  completeness := .null
  fingerprint := fingerprint
  sourceWindows := [0]
  queryShapes := [observedShape]
  metrics := []

def observedSnapshot : Snapshot where
  row := observedRow (checksums.sha256 (observedRow "").view.document.canonical)
  shapeIds := [9]
  metricIds := []
  shapes_length := rfl
  metrics_length := rfl
  shapes_nodup := List.nodup_singleton _
  metrics_nodup := List.nodup_nil

/-- A run that waits for its diagnosis. -/
def undiagnosed : Store where
  runs r := if r = 1 then some
    { targetId := 7, workloadSnapshotId := some 0, status := .diagnosing, requestedByUserId := 1,
      deploymentMode := .approvalControlled } else none
  snapshots id := if id = 0 then some observedSnapshot else none

def latencyFinding : DiagnosisFinding where
  findingId := ⟨"F-1", by decide⟩
  findingType := .queryLatencyHotspot
  summary := ⟨"slow", by decide⟩
  rationale := ⟨"one shape", by decide⟩
  queryShapeIds := ["4"]
  evidenceRefs := ⟨["QS:9", "SNAPSHOT:0"], by decide⟩

theorem diagnosis_grounded_observed : undiagnosed.Fresh ∧
    ∃ c : Config Label Store Error Unit,
      (diagnosing checksummed Unit).Reach (outside checksummed Unit).Allows (.quiet undiagnosed) c ∧
      c.shared.returned.map (·.1) = [1] ∧
      (∀ d ∈ c.shared.artifacts, ∃ a, Grounded checksummed c.shared d a) ∧
      ∀ x ∈ c.shared.returned, x.2.optimizationRunId = x.1 ∧
        (∃ a, Grounded checksummed c.shared x.2 a) ∧
        (checksummed.verifyDiagnosisIntegrity x.2.diagnosisId).run c.shared = (.ok true, c.shared) := by
  have hfresh : undiagnosed.Fresh := ⟨rfl, (fun _ h => by cases h), rfl⟩
  have hrun : ((diagnosing checksummed Unit).exec (fun _ _ => true)
      (Event.calls () (1, .ok ⟨[latencyFinding]⟩) 12) (.quiet undiagnosed)).map
        (fun c => c.shared.returned.map (·.1)) = some [1] := by
    decide +kernel
  obtain ⟨c, hr, hc⟩ := System.Reach.of_exec_map
    (P := (outside checksummed Unit).Allows) (fun e he c _ => by
      obtain rfl | rfl := Event.of_mem_calls he
      · trivial
      · exact fun _ _ => trivial) hrun
  exact ⟨hfresh, c, hr, hc, diagnosis_grounded hfresh hr⟩

end

end NoSQLOptimizer.Diagnosis
