import NoSQLOptimizer.Rollback.Account

namespace NoSQLOptimizer.Rollback

open Adapters Actions ControlPlane Concurrency Production Recovery Runs

variable {τ : Type}

namespace Settled

variable {A : DatabaseAdapter τ} {r : RunId} {T : TargetId} {c : CandidateId} {i : WorkerId}

def mutex (A : DatabaseAdapter τ) (r : RunId) (T : TargetId) (c : CandidateId) :
    Mutex ((assigned A r T c).given Keyed) TargetId where
  owner := World.locks
  lock := T
  always := Accounted r T c
  good _ := True
  grows := Settles r c
  view := Same r c
  grows_refl s := .of_same (.refl s) (.refl r c s)
  grows_trans := Settles.trans
  view_refl := Same.refl r c
  view_trans := Same.trans
  view_good _ _ := trivial

theorem guards : Guards (mutex A r T c) where
  owner := rfl
  always _ _ h := h.of_same ⟨h.target, h.selected⟩ h.artifact ⟨rfl, rfl, rfl, rfl⟩
  grows _ _ := .of_same (.of_eq rfl rfl rfl rfl List.prefix_rfl) ⟨rfl, rfl, rfl, rfl⟩
  view _ _ := ⟨rfl, rfl, rfl, rfl⟩
  crash := rfl
  crashes _ _ _ _ _ _ := trivial

theorem neutral {s t : World τ} (hs : (mutex A r T c).discipline.inv s) (hlocks : t.locks = s.locks)
    (hg : Grows s t) (hassigned : Assigned r T c t)
    (hartifact : ∀ q a, t.artifacts q = some a → (a.candidateId = c ↔ q = r))
    (hsame : Same r c s t) : (mutex A r T c).discipline.Neutral s t :=
  Mutex.neutral hs hlocks hsame (.of_same hg hsame) (hs.1.of_same hassigned hartifact hsame)

theorem held_stable (t : TargetId) :
    (mutex A r T c).discipline.Stable i ((mutex A r T c).Holds i (some t)) :=
  Mutex.holds_stable _

section

variable {K : World τ → Prop} {α : Type} {p : Proc τ α} {keeps : World τ → World τ → Prop}

/-- Work that leaves artifacts, rollback records and the target alone, and of the ledger the
rollback's entries. -/
theorem touches (hp : Does (Touches keeps) p) (hK : (mutex A r T c).discipline.Stable i K)
    (hk : ∀ s t, keeps s t → t = { s with
        runs := t.runs, recovery := t.recovery, ledger := t.ledger } ∧
      SameRuns s t ∧ Grows s t ∧ entries r c t = entries r c s) :
    (mutex A r T c).discipline.Triple i K p (fun _ => K) (fun _ => K) := by
  refine .neutral hp (fun l s t hs _ h => ?_) hK (guards.crashable K) (fun _ _ _ _ h => h)
    (fun _ _ _ _ h => h)
  obtain ⟨hframe, hruns, hg, hentries⟩ := hk s t h.2
  refine neutral hs (by rw [hframe]) hg (hs.1.of_sameRuns hruns (by rw [hframe])) ?_
    ⟨by rw [hframe], by rw [hframe], hentries, by rw [hframe]; rfl⟩
  rw [hframe]
  exact hs.1.artifact

theorem reads (hp : Does Reads p) (hK : (mutex A r T c).discipline.Stable i K) :
    (mutex A r T c).discipline.Triple i K p (fun _ => K) (fun _ => K) :=
  touches hp hK (fun s t h => by subst h; exact ⟨rfl, fun _ => rfl, .refl _, rfl⟩)

theorem touchesRun {q : RunId} {next : RunStatus} (hp : Does (TouchesRun q next) p)
    (hK : (mutex A r T c).discipline.Stable i K) :
    (mutex A r T c).discipline.Triple i K p (fun _ => K) (fun _ => K) :=
  touches hp hK (fun s t h => ⟨by rw [h.1], h.2.1, by
    rw [h.1]
    exact .of_eq rfl rfl rfl rfl List.prefix_rfl, by rw [h.1]; rfl⟩)

theorem touchesRecovery (hp : Does TouchesRecovery p) (hK : (mutex A r T c).discipline.Stable i K) :
    (mutex A r T c).discipline.Triple i K p (fun _ => K) (fun _ => K) :=
  touches hp hK (fun s t h => ⟨by rw [h.1], fun _ => by rw [h.1], h.2, by rw [h.1]; rfl⟩)

/-- An entry of a deployment. -/
theorem append_spec (payload : LedgerPayload) (hevent : payload.eventType ≠ .rollbackApplied)
    (hK : (mutex A r T c).discipline.Stable i K) :
    (mutex A r T c).discipline.Triple i K (append payload) (fun _ => K) (fun _ => K) := by
  refine .modify hK (guards.crashable K) hK (fun s hs hk _ => ?_)
  obtain ⟨e, -, he⟩ := entries_enter r c payload s
  have hn : (mutex A r T c).discipline.Neutral s (s.enter payload) := by
    refine neutral hs rfl (enter_grows payload s) (hs.1.of_sameRuns (fun _ => rfl) rfl) hs.1.artifact
      ⟨rfl, rfl, ?_, rfl⟩
    simpa [hevent] using he
  exact ⟨hn.admits, hK (hn.2 i) hn.1 hk⟩

end

/-- The run's artifact, while it is not applied: nothing has been recorded of its rollback. -/
theorem put_admits {s : World τ} {b : DeploymentArtifact} (hs : (mutex A r T c).discipline.inv s)
    (hkeyed : Keyed s) (hheld : (mutex A r T c).Holds i (some T) s) (hc : b.candidateId = c)
    (hold : ∀ a, s.artifacts r = some a → a.status ≠ .applied ∧ Advances a b) :
    (mutex A r T c).discipline.Admits i s (putArtifact r b s) := by
  have hg := putArtifact_grows (fun a ha => (hold a ha).2)
  have hnone : ∀ a before after, s.artifacts r = some a → ¬ Inverts a before after := by
    intro a before after ha h
    exact (hold a ha).1 ((hkeyed.applied r a ha).mpr (by simp [h.observed]))
  have hentries : entries r c s = [] := by
    refine List.eq_nil_iff_forall_not_mem.mpr (fun e he => ?_)
    obtain ⟨a, ha, hinverts, -⟩ := hs.1.entered e he
    exact hnone a _ _ ha hinverts
  refine Mutex.owned hheld.owns rfl ⟨hg, fun a ha happlied => ?_, fun _ _ _ => ⟨rfl, rfl⟩⟩
    ⟨⟨hs.1.target, hs.1.selected⟩, fun q a ha => ?_, fun p hp => ?_, fun p hp => ?_, ?_, ?_⟩
  · exact absurd happlied (hold a ha).1
  · by_cases hq : q = r
    · subst hq
      cases (by simpa [putArtifact] using ha : b = a)
      exact iff_of_true hc rfl
    · exact hs.1.artifact q a (by simpa [putArtifact, hq] using ha)
  · obtain ⟨a, before, after, ha, hinverts, -⟩ := hs.1.intent p hp
    exact absurd hinverts (hnone a before after ha)
  · obtain ⟨a, before, after, ha, hinverts, -⟩ := hs.1.rolledBack p hp
    exact absurd hinverts (hnone a before after ha)
  · exact hs.1.single
  · change ∀ e ∈ entries r c s, _
    simp [hentries]

/-- What the call is bound to, as far as run and candidate go. -/
structure Binds (r : RunId) (T : TargetId) (c : CandidateId) (q : RunId) (bound : BoundAction) :
    Prop where
  runId : bound.runId = q
  targetId : q = r → bound.targetId = T
  candidate : bound.selectedCandidateId = c ↔ q = r

/-- The call holds the lock of its target, and the artifact of run `r` if that is its run. -/
def Has (A : DatabaseAdapter τ) (r : RunId) (T : TargetId) (c : CandidateId) (i : WorkerId)
    (bound : BoundAction) (a : DeploymentArtifact) (s : World τ) : Prop :=
  (mutex A r T c).Holds i (some bound.targetId) s ∧ (bound.runId = r → s.artifacts r = some a)

theorem has_stable {q : RunId} {bound : BoundAction} (hb : Binds r T c q bound)
    (a : DeploymentArtifact) :
    (mutex A r T c).discipline.Stable i (Has A r T c i bound a) := by
  rintro s t hr ht ⟨hheld, ha⟩
  refine ⟨held_stable _ hr ht hheld, fun hq => ?_⟩
  have howns := hheld.owns
  rw [hb.targetId (hb.runId.symm.trans hq)] at howns
  exact (hr.2.2 howns).artifact.trans (ha hq)

theorem intent_spec {q : RunId} {bound : BoundAction} (hb : Binds r T c q bound)
    (before : IndexState) (action : CreateIndexAction) :
    (mutex A r T c).discipline.Triple i ((mutex A r T c).Holds i (some bound.targetId))
      (intent bound before action) (fun x => Has A r T c i bound x.1)
      (fun _ => (mutex A r T c).Holds i (some bound.targetId)) := by
  refine .atomic (held_stable _) (guards.crashable _) (fun x => has_stable hb x.1)
    (fun _ => held_stable _) (fun s x t hs hk hact hT => ?_) (fun _ _ _ hk _ _ => hk)
  obtain ⟨a, created⟩ := x
  rcases intentRow_ok hT with ⟨ha, -, -, rfl⟩ | ⟨hnone, rfl, -, rfl⟩
  · exact ⟨.refl hs, hk, fun hq => hq ▸ ha⟩
  · refine ⟨?_, hk.congr rfl, fun hq => by simp [putArtifact, hq]⟩
    obtain ⟨rfl, htarget, hcandidate⟩ := hb
    by_cases hq : bound.runId = r
    · rw [htarget hq] at hk
      rw [hq] at hnone ⊢
      exact put_admits hs hact.2 hk (hcandidate.mpr hq) (by simp [hnone])
    · refine (neutral (t := putArtifact bound.runId _ s) hs rfl (putArtifact_grows (by simp [hnone]))
        ⟨hs.1.target, hs.1.selected⟩ (fun q a ha => ?_)
        ⟨by simp [putArtifact, Ne.symm hq], rfl, rfl, rfl⟩).admits
      by_cases hqb : q = bound.runId
      · subst hqb
        cases (by simpa [putArtifact] using ha : bound.newArtifact before action = a)
        exact hcandidate
      · exact hs.1.artifact q a (by simpa [putArtifact, hqb] using ha)

theorem markApplied_spec {q : RunId} {bound : BoundAction} (hb : Binds r T c q bound)
    (a : DeploymentArtifact) (hpending : a.status ≠ .applied) (after : IndexState) :
    (mutex A r T c).discipline.Triple i (Has A r T c i bound a) (markApplied bound.runId after)
      (fun _ => (mutex A r T c).Holds i (some bound.targetId))
      (fun _ => (mutex A r T c).Holds i (some bound.targetId)) := by
  refine .atomic (has_stable hb a) (guards.crashable _) (fun _ => held_stable _)
    (fun _ => held_stable _) (fun s b t hs hk hact hT => ?_) (fun _ _ _ hk _ _ => hk.1)
  obtain ⟨a', ha', rfl, rfl⟩ := markAppliedRow_ok hT
  have hadv : Advances a' { a' with status := .applied, afterState := some after } :=
    ⟨rfl, fun _ => rfl⟩
  have hold : ∀ old, s.artifacts bound.runId = some old →
      Advances old { a' with status := .applied, afterState := some after } := by
    intro old hold
    rw [ha'] at hold
    cases hold
    exact hadv
  refine ⟨?_, hk.1.congr rfl⟩
  obtain ⟨rfl, htarget, -⟩ := hb
  by_cases hq : bound.runId = r
  · obtain rfl : a' = a := Option.some_inj.mp (ha'.symm.trans (hq ▸ hk.2 hq))
    have hheld := hk.1
    rw [htarget hq] at hheld
    have hc := (hs.1.artifact bound.runId a' ha').mpr hq
    rw [hq] at hold ⊢
    refine put_admits hs hact.2 hheld hc (fun old h => ?_)
    obtain rfl : old = a' := Option.some_inj.mp (h.symm.trans (hk.2 hq))
    exact ⟨hpending, hadv⟩
  · refine (neutral (t := putArtifact bound.runId _ s) hs rfl (putArtifact_grows hold)
      ⟨hs.1.target, hs.1.selected⟩ (fun q b hb => ?_)
      ⟨by simp [putArtifact, Ne.symm hq], rfl, rfl, rfl⟩).admits
    by_cases hqb : q = bound.runId
    · subst hqb
      cases (by simpa [putArtifact] using hb :
        { a' with status := DeploymentStatus.applied, afterState := some after } = b)
      exact hs.1.artifact bound.runId a' ha'
    · exact hs.1.artifact q b (by simpa [putArtifact, hqb] using hb)

theorem mutation_spec {K : World τ → Prop} (q : RunId) (action : CreateIndexAction)
    (hK : (mutex A r T c).discipline.Stable i K) :
    (mutex A r T c).discipline.Triple i K (mutation A i q action) (fun _ => K) (fun _ => K) := by
  refine .bind (reads (ensureLeaseOwned_reads i) hK) (fun _ => ?_)
  refine .act hK (guards.crashable _) (fun s hs hk _ => ?_)
  obtain ⟨outcome, hcalls⟩ := s.create_calls A q action.toNamespace action.toIndexSpec
  have hframe := s.create_frame A q action.toNamespace action.toIndexSpec
  have hgrows := create_grows A q action.toNamespace action.toIndexSpec s
  set t := s.create A q action.toNamespace action.toIndexSpec
  have hn : (mutex A r T c).discipline.Neutral s t := by
    refine neutral hs (by rw [hframe]) hgrows
      (hs.1.of_sameRuns (fun _ => by rw [hframe]) (by rw [hframe])) ?_
      ⟨by rw [hframe], by rw [hframe], by rw [hframe]; rfl, ?_⟩
    · rw [hframe]
      exact hs.1.artifact
    · rw [drops, World.callsOf_snoc hcalls, List.filter_append]
      split <;> simp [drops, AdapterCall.creates]
  refine ⟨hn.admits, .pre (K := K) ?_ ?_⟩
  · split
    · exact .ret hK (fun _ _ h => h)
    · exact .fail hK (fun _ _ h => h)
  · rintro _ - rfl
    exact hK (hn.2 i) hn.1 hk

theorem applyIntent_spec {q : RunId} {bound : BoundAction} (hb : Binds r T c q bound)
    (before : IndexState) (action : CreateIndexAction) (a : DeploymentArtifact)
    (intentCreated : Bool) (hpending : a.status ≠ .applied) :
    (mutex A r T c).discipline.Triple i (Has A r T c i bound a)
      (applyIntent A i bound before action a intentCreated)
      (fun _ => (mutex A r T c).Holds i (some bound.targetId))
      (fun _ => (mutex A r T c).Holds i (some bound.targetId)) := by
  have hhas := has_stable (A := A) (i := i) hb a
  have hheld := held_stable (A := A) (r := r) (T := T) (c := c) (i := i) bound.targetId
  have hkeep : ∀ {α : Type} {p : Proc τ α}, (mutex A r T c).discipline.Triple i
      (Has A r T c i bound a) p (fun _ => Has A r T c i bound a) (fun _ => Has A r T c i bound a) →
      (mutex A r T c).discipline.Triple i (Has A r T c i bound a) p
        (fun _ => Has A r T c i bound a) (fun _ => (mutex A r T c).Holds i (some bound.targetId)) :=
    fun h => h.conseq (fun _ _ hk => hk) (fun _ _ _ hk => hk) (fun _ _ _ hk => hk.1)
  unfold applyIntent
  refine .bind (hkeep (touchesRecovery (recordIntent_touches _ _ _ _) hhas)) (fun _ => ?_)
  refine .bind (.when hhas (fun _ => hkeep (append_spec _ (by simp [BoundAction.ledgerPayload]) hhas))
    (fun _ _ _ hk => hk)) (fun _ => ?_)
  refine .bind (hkeep (reads (ensureLeaseOwned_reads i) hhas)) (fun _ => ?_)
  refine .bind (Q := fun _ => Has A r T c i bound a) ?_ (fun _ => ?_)
  · unfold executeOrRecover
    refine .bind (hkeep (touchesRecovery (beginExecution_touches _) hhas)) (fun o => ?_)
    cases o with
    | none => exact .ret hhas (fun _ _ hk => hk)
    | some expected =>
      refine .bind (hkeep (reads (exactEffect_reads A _ _ _) hhas)) (fun effect => ?_)
      refine .bind (.when hhas (fun _ => hkeep (mutation_spec _ _ hhas)) (fun _ _ _ hk => hk))
        (fun _ => hkeep (touchesRecovery (confirmExecution_touches _) hhas))
  · refine .bind (hkeep (reads (ensureLeaseOwned_reads i) hhas)) (fun _ => ?_)
    unfold recordApplied
    refine .bind (hkeep (reads (state_reads A _ _ _) hhas)) (fun after => ?_)
    refine .bind (hkeep (reads (guardAll_does _) hhas)) (fun _ => ?_)
    refine .bind (markApplied_spec hb a hpending after) (fun persisted => ?_)
    refine .bind (append_spec _ (by simp [BoundAction.ledgerPayload]) hheld) (fun _ => ?_)
    refine .bind (reads (ensureLeaseOwned_reads i) hheld) (fun _ => ?_)
    refine .bind (touchesRun (finishDeploying_touches _) hheld) (fun _ => ?_)
    exact .ret hheld (fun _ _ hk => hk)

theorem deployLocked_spec {q : RunId} {bound : BoundAction} (hb : Binds r T c q bound) :
    (mutex A r T c).discipline.Triple i ((mutex A r T c).Holds i (some bound.targetId))
      (deployLocked A i bound) (fun _ => (mutex A r T c).Holds i (some bound.targetId))
      (fun _ => (mutex A r T c).Holds i (some bound.targetId)) := by
  have hheld := held_stable (A := A) (r := r) (T := T) (c := c) (i := i) bound.targetId
  unfold deployLocked
  refine .bind (reads (Does.ofExcept _) hheld) (fun action => ?_)
  refine .bind (reads (state_reads A _ _ _) hheld) (fun before => ?_)
  refine .bind (intent_spec hb before action) (fun x => ?_)
  obtain ⟨a, intentCreated⟩ := x
  refine .bind (Q := fun _ => Has A r T c i bound a) ((touchesRun (enterDeploying_touches bound)
    (has_stable hb a)).conseq (fun _ _ hk => hk) (fun _ _ _ hk => hk) (fun _ _ _ hk => hk.1))
    (fun _ => ?_)
  split
  · refine .bind ((touchesRun (reconcileApplied_touches bound before action) hheld).pre
      (fun _ _ hk => hk.1)) (fun _ => ?_)
    exact .ret hheld (fun _ _ hk => hk)
  · next hpending => exact applyIntent_spec hb before action a _ hpending

theorem boundAction_admission {s : World τ} {q : RunId} {bound : BoundAction}
    (h : boundAction s q = some bound) : ∃ admission, s.admissions q = some admission ∧
      admission.selectedCandidateId = some bound.selectedCandidateId := by
  simp only [boundAction, Option.bind_eq_bind, Option.bind_eq_some_iff] at h
  obtain ⟨_, _, admission, hadmission, _, _, selected, hselected, _, _, _, _, _, _, _, _, _, _, h⟩ := h
  cases h
  exact ⟨admission, hadmission, hselected⟩

theorem deployForRun_spec (q : RunId) :
    (mutex A r T c).discipline.Triple i ((mutex A r T c).Holds i none) (deployForRun A i q)
      (fun _ => (mutex A r T c).Holds i none) (fun _ => (mutex A r T c).Holds i none) := by
  refine Locked.deployForRun_spec (B := Binds r T c q) (Q := fun _ _ => True) guards q
    (fun s hs bound hbound => ⟨boundAction_runId hbound, fun hq => ?_, ?_⟩) (fun bound hb => ?_)
    (fun _ _ _ _ => trivial) (fun _ => (Mutex.holds_stable _).and (.const _))
    (fun _ _ _ _ _ _ _ => trivial)
  · subst hq
    exact hs.1.target bound.run (boundAction_run hbound)
  · obtain ⟨admission, hadmission, hselected⟩ := boundAction_admission hbound
    exact hs.1.selected q admission _ hadmission hselected
  · exact (deployLocked_spec hb).conseq (fun _ _ hk => hk.1) (fun _ _ _ hk => ⟨hk, trivial⟩)
      (fun _ _ _ hk => ⟨hk, trivial⟩)

end Settled

end NoSQLOptimizer.Rollback
