import NoSQLOptimizer.ControlPlane.Prepared
import NoSQLOptimizer.Rollback.Guarded

namespace NoSQLOptimizer.Rollback

open Adapters Actions ControlPlane Concurrency Production

variable {τ : Type}

namespace Settled

variable {A : DatabaseAdapter τ} {r : RunId} {T : TargetId} {c : CandidateId} {i : WorkerId}

/-- A rollback writes no record but its own candidate's. -/
theorem rollbackLocked_records (bound : BoundRollback) : Does (τ := τ)
    (fun _ s t => ∀ other, other ≠ bound.candidateId → t.rollbacks other = s.rollbacks other)
    (rollbackLocked A bound) := by
  have hreads : ∀ {α : Type} {p : Proc τ α}, Does Reads p → Does (fun _ s t =>
      ∀ other, other ≠ bound.candidateId → t.rollbacks other = s.rollbacks other) p :=
    fun hp => hp.mono (fun _ _ _ h _ _ => by rw [h.2]) (fun _ h => h)
  have hrecord : ∀ status payload, Does (τ := τ) (fun _ s t =>
      ∀ other, other ≠ bound.candidateId → t.rollbacks other = s.rollbacks other)
      (record bound.candidateId status payload) := by
    intro status payload
    refine Process.Always.atomic _ _ (fun s _ t h => ⟨fun other hother => ?_, trivial⟩)
      (fun _ _ _ => ⟨fun _ _ => rfl, trivial⟩)
    rcases recordRow_ok h with ⟨-, rfl⟩ | ⟨_, -, -, rfl⟩
    · simp [putRollback, hother]
    · rfl
  have hfinalize : ∀ before after action, Does (τ := τ) (fun _ s t =>
      ∀ other, other ≠ bound.candidateId → t.rollbacks other = s.rollbacks other)
      (finalizeRecord bound before after action) := by
    intro before after action
    refine Does.bind (hreads (rollbackLedgerExists_reads _)) (fun recorded => ?_)
    refine Does.bind (.when ?_ trivial) (fun _ => hrecord _ _)
    exact (append_touches _).mono (fun _ _ _ h _ _ => by rw [h.2.1]) (fun _ h => h)
  unfold rollbackLocked
  refine Does.bind (Does.ofExcept _) (fun action => ?_)
  refine Does.bind (hreads (state_reads A _ _ _)) (fun state => ?_)
  refine Does.bind (hreads (Does.read rfl _)) (fun intent => ?_)
  split
  · exact Does.bind (hfinalize _ _ _) (fun _ => trivial)
  · split
    · exact Does.bind (hrecord _ _) (fun _ => trivial)
    · unfold dropOwned
      refine Does.bind (hrecord _ _) (fun _ => ?_)
      refine Does.bind (fun s => ⟨fun _ _ => by rw [World.drop_frame], ?_⟩) (fun _ => ?_)
      · dsimp only
        split <;> trivial
      · refine Does.bind (hreads (state_reads A _ _ _)) (fun after => ?_)
        split
        · exact Does.bind (hrecord _ _) (fun _ => trivial)
        · exact Does.bind (hfinalize _ _ _) (fun _ => trivial)

/-- The artifact of the call's row is the run's still; what was applied then has not changed. -/
def Current (r : RunId) (bound : BoundRollback) (s : World τ) : Prop :=
  ∃ a, s.artifacts r = some a ∧ Advances bound.artifact a ∧
    (bound.artifact.afterState ≠ none → a.status = .applied ∧ a = bound.artifact)

theorem current_stable (bound : BoundRollback) :
    (mutex A r T c).discipline.Stable i (Current r bound) := by
  rintro s t hr - ⟨a, ha, hadv, hfrozen⟩
  obtain ⟨b, hb, hab⟩ := hr.1.grows.artifacts r a ha
  refine ⟨b, hb, hadv.trans hab, fun hafter => ?_⟩
  obtain ⟨happlied, rfl⟩ := hfrozen hafter
  obtain rfl : b = bound.artifact :=
    Option.some_inj.mp (hb.symm.trans (hr.1.frozen _ ha happlied))
  exact ⟨happlied, rfl⟩

/-- What a call of run `q` has looked up. -/
structure Found (r : RunId) (T : TargetId) (c : CandidateId) (q : RunId) (bound : BoundRollback)
    (s : World τ) : Prop where
  runId : bound.runId = q
  candidate : bound.candidateId = c ↔ q = r
  targetId : q = r → bound.targetId = T
  current : q = r → Current r bound s

theorem found_stable (q : RunId) (bound : BoundRollback) :
    (mutex A r T c).discipline.Stable i (Found r T c q bound) :=
  fun _ _ hr ht h => ⟨h.runId, h.candidate, h.targetId, fun hq => current_stable bound hr ht (h.current hq)⟩

theorem found_of_boundRollback {s : World τ} {q : RunId} {bound : BoundRollback}
    (hs : Accounted r T c s) (hkeyed : Keyed s) (h : boundRollback s q = some bound) :
    Found r T c q bound s := by
  have hrun := boundRollback_runId h
  obtain ⟨run, hrow, htarget⟩ := boundRollback_run h
  simp only [boundRollback, Option.bind_eq_bind, Option.bind_eq_some_iff] at h
  obtain ⟨_, -, a, ha, _, -, _, -, _, -, h⟩ := h
  cases h
  refine ⟨hrun, hs.artifact q a ha, fun hq => ?_, fun hq => ?_⟩
  · subst hq
    rw [htarget]
    exact hs.target run hrow
  · subst hq
    exact ⟨a, ha, .refl a, fun hafter => ⟨(hkeyed.applied q a ha).mpr hafter, rfl⟩⟩

/-- The run's rollback holds the lock. -/
def Rolls (A : DatabaseAdapter τ) (r : RunId) (T : TargetId) (c : CandidateId) (i : WorkerId)
    (bound : BoundRollback) (s : World τ) : Prop :=
  (mutex A r T c).Holds i (some T) s ∧ Current r bound s

/-- Its intent is recorded: this is what it saw, and what it expects. -/
def Intends (A : DatabaseAdapter τ) (r : RunId) (T : TargetId) (c : CandidateId) (i : WorkerId)
    (bound : BoundRollback) (before after : IndexState) (s : World τ) : Prop :=
  Rolls A r T c i bound s ∧ s.rollbacks c = some ⟨.intentRecorded, .intent before after⟩

theorem rolls_stable (bound : BoundRollback) :
    (mutex A r T c).discipline.Stable i (Rolls A r T c i bound) :=
  (held_stable T).and (current_stable bound)

/-- Nobody but the lock's owner touches the record, the entries and the drops. -/
theorem rolls_view_stable (bound : BoundRollback) {P : World τ → Prop}
    (hP : ∀ s t, Same r c s t → P s → P t) :
    (mutex A r T c).discipline.Stable i (fun s => Rolls A r T c i bound s ∧ P s) :=
  fun s t hr ht h => ⟨rolls_stable bound hr ht h.1, hP s t (hr.2.2 h.1.1.owns) h.2⟩

theorem intends_stable (bound : BoundRollback) (before after : IndexState) :
    (mutex A r T c).discipline.Stable i (Intends A r T c i bound before after) :=
  rolls_view_stable bound (fun _ _ hsame h => hsame.record.trans h)

theorem Current.congr {bound : BoundRollback} {s t : World τ} (h : Current r bound s)
    (ht : t.artifacts r = s.artifacts r) : Current r bound t := by
  rw [Current, ht]
  exact h

/-- An outcome, where there is none yet. -/
theorem putRollback_admits {s : World τ} {row : RollbackRecord}
    (hs : (mutex A r T c).discipline.inv s) (hheld : (mutex A r T c).Holds i (some T) s)
    (hold : ∀ old, s.rollbacks c = some old → old.status = .intentRecorded)
    (hintent : ∀ p, row = ⟨.intentRecorded, p⟩ → ∃ a before after, s.artifacts r = some a ∧
      Inverts a before after ∧ p = .intent before after)
    (hrolledBack : ∀ p, row = ⟨.rolledBack, p⟩ → ∃ a before after, s.artifacts r = some a ∧
      Inverts a before after ∧ p = .applied before after ∧ entries r c s ≠ []) :
    (mutex A r T c).discipline.Admits i s (putRollback c row s) := by
  refine Mutex.owned hheld.owns rfl ⟨putRollback_grows hold, fun a ha _ => ha, fun _ _ _ => ⟨rfl, rfl⟩⟩
    ⟨⟨hs.1.target, hs.1.selected⟩, hs.1.artifact, fun p hp => ?_, fun p hp => ?_, hs.1.single,
      hs.1.entered⟩
  · exact hintent p (by simpa [putRollback] using hp)
  · exact hrolledBack p (by simpa [putRollback] using hp)

/-- `_record`, of why the drop is not made or not believed. -/
theorem block_spec (bound : BoundRollback) (reason : String) (state : IndexState) :
    (mutex A r T c).discipline.Triple i (Rolls A r T c i bound)
      (record c .rollbackBlocked (.blocked reason state)) (fun _ => Rolls A r T c i bound)
      (fun _ => Rolls A r T c i bound) := by
  refine .atomic (rolls_stable bound) (guards.crashable _) (fun _ => rolls_stable bound)
    (fun _ => rolls_stable bound) (fun s _ t hs hk _ hT => ?_) (fun _ _ _ hk _ _ => hk)
  rcases recordRow_ok hT with ⟨hold, rfl⟩ | ⟨_, -, -, rfl⟩
  · exact ⟨putRollback_admits hs hk.1 hold (by simp) (by simp), hk.1.congr rfl, hk.2.congr rfl⟩
  · exact ⟨.refl hs, hk⟩

/-- `_record`, of the intent to drop: the record then holds what this call has seen. -/
theorem open_spec (bound : BoundRollback) {before after : IndexState}
    (hinverts : Inverts bound.artifact before after) :
    (mutex A r T c).discipline.Triple i (Rolls A r T c i bound)
      (record c .intentRecorded (.intent before after))
      (fun _ => Intends A r T c i bound before after) (fun _ => Rolls A r T c i bound) := by
  refine .atomic (rolls_stable bound) (guards.crashable _) (fun _ => intends_stable _ _ _)
    (fun _ => rolls_stable bound) (fun s _ t hs hk _ hT => ?_) (fun _ _ _ hk _ _ => hk)
  obtain ⟨a, ha, -, hfrozen⟩ := hk.2
  obtain ⟨-, rfl⟩ := hfrozen (by simp [hinverts.observed])
  rcases recordRow_ok hT with ⟨hold, rfl⟩ | ⟨row, hrow, hstatus, rfl⟩
  · refine ⟨putRollback_admits hs hk.1 hold (fun p hp => ?_) (by simp),
      ⟨hk.1.congr rfl, hk.2.congr rfl⟩, by simp [putRollback]⟩
    cases hp
    exact ⟨_, before, after, ha, hinverts, rfl⟩
  · refine ⟨.refl hs, hk, ?_⟩
    obtain ⟨_, p⟩ := row
    obtain rfl := hstatus
    obtain ⟨b, before', after', hb, hinverts', rfl⟩ := hs.1.intent p hrow
    obtain rfl : b = bound.artifact := Option.some_inj.mp (hb.symm.trans ha)
    obtain rfl : before' = before := Option.some_inj.mp (hinverts'.observed.symm.trans hinverts.observed)
    rw [hrow, hinverts.expected, hinverts'.expected]

theorem enter_spec (bound : BoundRollback) (hr : bound.runId = r) (hc : bound.candidateId = c)
    (before after : IndexState) (action : CreateIndexAction) :
    (mutex A r T c).discipline.Triple i
      (fun s => Intends A r T c i bound before after s ∧ entries r c s = [])
      (append (bound.ledgerPayload before after action))
      (fun _ s => Intends A r T c i bound before after s ∧ entries r c s ≠ [])
      (fun _ => Rolls A r T c i bound) := by
  have hstable : ∀ P : List LedgerEntry → Prop, (mutex A r T c).discipline.Stable i
      (fun s => Intends A r T c i bound before after s ∧ P (entries r c s)) := by
    intro P s t hr' ht hk
    refine ⟨intends_stable bound before after hr' ht hk.1, ?_⟩
    rw [(hr'.2.2 hk.1.1.1.owns).entries]
    exact hk.2
  refine .modify (hstable (· = [])) (guards.crashable _) (hstable (· ≠ [])) (fun s hs hk _ => ?_)
  obtain ⟨⟨hrolls, hrow⟩, hnone⟩ := hk
  obtain ⟨e, he, hentries⟩ := entries_enter r c
    (bound.ledgerPayload before after action) s
  rw [if_pos ⟨hr, hc, rfl⟩, hnone, List.nil_append] at hentries
  refine ⟨Mutex.owned hrolls.1.owns rfl ⟨enter_grows _ s, fun a ha _ => ha, fun row' hrow' hn => ?_⟩
    ⟨⟨hs.1.target, hs.1.selected⟩, hs.1.artifact, hs.1.intent, fun p hp => ?_, ?_, ?_⟩,
    ⟨⟨hrolls.1.congr rfl, hrolls.2.congr rfl⟩, hrow⟩, by simp [hentries]⟩
  · rw [hrow] at hrow'
    cases hrow'
    exact absurd rfl hn
  · have hp' : s.rollbacks c = some ⟨.rolledBack, p⟩ := hp
    rw [hrow] at hp'
    cases hp'
  · rw [hentries]
    exact Nat.le_refl 1
  · rw [hentries]
    intro e' he'
    obtain rfl := List.mem_singleton.mp he'
    obtain ⟨a, before', after', ha, hinverts, hp⟩ := hs.1.intent _ hrow
    cases hp
    obtain ⟨b, hb, hadv, -⟩ := hrolls.2
    obtain rfl : b = a := Option.some_inj.mp (hb.symm.trans ha)
    refine ⟨b, ha, ?_, ?_⟩
    · rw [he]
      exact hinverts
    · rw [he, hadv.row]
      rfl

/-- `_record`, of the effect that the ledger has. -/
theorem close_spec (bound : BoundRollback) (before after : IndexState) :
    (mutex A r T c).discipline.Triple i
      (fun s => Intends A r T c i bound before after s ∧ entries r c s ≠ [])
      (record c .rolledBack (.applied before after)) (fun _ => Rolls A r T c i bound)
      (fun _ => Rolls A r T c i bound) := by
  refine .atomic ?_ (guards.crashable _) (fun _ => rolls_stable bound)
    (fun _ => rolls_stable bound) (fun s _ t hs hk _ hT => ?_) (fun _ _ _ hk _ _ => hk.1.1)
  · intro s t hr ht hk
    refine ⟨intends_stable bound before after hr ht hk.1, ?_⟩
    rw [(hr.2.2 hk.1.1.1.owns).entries]
    exact hk.2
  · obtain ⟨⟨hrolls, hrow⟩, hsome⟩ := hk
    rcases recordRow_ok hT with ⟨hold, rfl⟩ | ⟨_, -, -, rfl⟩
    · refine ⟨putRollback_admits hs hrolls.1 hold (by simp) (fun p hp => ?_), hrolls.1.congr rfl,
        hrolls.2.congr rfl⟩
      cases hp
      obtain ⟨a, before', after', ha, hinverts, hp⟩ := hs.1.intent _ hrow
      cases hp
      exact ⟨a, before, after, ha, hinverts, rfl, hsome⟩
    · exact ⟨.refl hs, hrolls⟩

theorem finalizeRecord_spec (bound : BoundRollback) (hr : bound.runId = r)
    (hc : bound.candidateId = c) (before after : IndexState) (action : CreateIndexAction) :
    (mutex A r T c).discipline.Triple i (Intends A r T c i bound before after)
      (finalizeRecord bound before after action) (fun _ => Rolls A r T c i bound)
      (fun _ => Rolls A r T c i bound) := by
  have hintends := intends_stable (A := A) (r := r) (T := T) (c := c) (i := i) bound before after
  have hseen : ∀ recorded : Bool, (mutex A r T c).discipline.Stable i (fun s =>
      Intends A r T c i bound before after s ∧ (recorded = false ↔ entries r c s = [])) := by
    intro recorded s t hr' ht hk
    refine ⟨hintends hr' ht hk.1, ?_⟩
    rw [(hr'.2.2 hk.1.1.1.owns).entries]
    exact hk.2
  unfold finalizeRecord
  refine .bind (Q := fun recorded s => Intends A r T c i bound before after s ∧
    (recorded = false ↔ entries r c s = [])) (.read hintends (guards.crashable _) hseen
      (fun s _ hk _ => ⟨hk, ?_⟩)) (fun recorded => ?_)
  · rw [hr, hc]
    exact entries_eq_nil.symm
  · rw [hc]
    refine .bind (.when (hseen recorded) (fun hnone => ?_) (fun s hsome _ hk => ⟨hk.1, fun hnone => ?_⟩))
      (fun _ => close_spec bound before after)
    · exact (enter_spec bound hr hc before after action).pre
        (fun s _ hk => ⟨hk.1, hk.2.mp (by simpa using hnone)⟩)
    · rw [hk.2.mpr hnone] at hsome
      cases hsome

theorem dropIndex_spec (bound : BoundRollback) (before after : IndexState) (ns : Namespace)
    (name : String) :
    (mutex A r T c).discipline.Triple i (Intends A r T c i bound before after)
      (dropIndex A r ns name) (fun _ => Intends A r T c i bound before after)
      (fun _ => Rolls A r T c i bound) := by
  have hintends := intends_stable (A := A) (r := r) (T := T) (c := c) (i := i) bound before after
  refine .act hintends (guards.crashable _) (fun s hs hk _ => ?_)
  have hframe := s.drop_frame A r ns name
  have hgrows := drop_grows A r ns name s
  set t := s.drop A r ns name
  obtain ⟨⟨hheld, hcurrent⟩, hrow⟩ := hk
  have hrow' : t.rollbacks c = s.rollbacks c := by rw [hframe]
  have hart : t.artifacts = s.artifacts := by rw [hframe]
  have hentries : entries r c t = entries r c s := by rw [hframe]; rfl
  refine ⟨Mutex.owned hheld.owns (by rw [hframe]; rfl) ⟨hgrows, fun a ha _ => hart ▸ ha,
    fun row hold hn => ?_⟩ ?_, .pre (K := Intends A r T c i bound before after) ?_ ?_⟩
  · rw [hrow] at hold
    cases hold
    exact absurd rfl hn
  · refine ⟨hs.1.of_sameRuns (fun _ => by rw [hframe]) (by rw [hframe]), hart ▸ hs.1.artifact, ?_, ?_,
      hentries ▸ hs.1.single, ?_⟩
    · rw [hrow', hart]
      exact hs.1.intent
    · rw [hrow', hart, hentries]
      exact hs.1.rolledBack
    · rw [hentries, hart]
      exact hs.1.entered
  · split
    · exact .ret hintends (fun _ _ h => h)
    · exact .fail hintends (fun _ _ h => h.1)
  · rintro _ - rfl
    exact ⟨⟨hheld.congr (by rw [hframe]; rfl), hcurrent.congr (by rw [hart])⟩, hrow'.trans hrow⟩

theorem rollbackLocked_spec (bound : BoundRollback) (hr : bound.runId = r)
    (hc : bound.candidateId = c) :
    (mutex A r T c).discipline.Triple i (Rolls A r T c i bound) (rollbackLocked A bound)
      (fun _ => Rolls A r T c i bound) (fun _ => Rolls A r T c i bound) := by
  have hrolls := rolls_stable (A := A) (r := r) (T := T) (c := c) (i := i) bound
  have hread : ∀ row, (mutex A r T c).discipline.Stable i
      (fun s => Rolls A r T c i bound s ∧ s.rollbacks c = row) :=
    fun row => rolls_view_stable bound (fun _ _ hsame h => hsame.record.trans h)
  unfold rollbackLocked
  refine .bind (reads (Does.ofExcept _) hrolls) (fun action => ?_)
  refine .bind (reads (state_reads A _ _ _) hrolls) (fun state => ?_)
  rw [hc]
  refine .bind (Q := fun row s => Rolls A r T c i bound s ∧ s.rollbacks c = row)
    (.read hrolls (guards.crashable _) hread (fun _ _ hk _ => ⟨hk, rfl⟩)) (fun row => ?_)
  split
  · next before heffect =>
    have hintent : row = some ⟨.intentRecorded, .intent before state⟩ := by
      unfold effectedIntent at heffect
      split at heffect
      · split at heffect <;> cases heffect
        next h => rw [h]
      · cases heffect
    refine .bind ((finalizeRecord_spec bound hr hc before state action).pre
      (fun _ _ hk => ⟨hk.1, hk.2.trans hintent⟩)) (fun _ => ?_)
    exact .ret hrolls (fun _ _ hk => hk)
  · split
    · next reason _ =>
      refine .bind ((block_spec bound reason state).pre (fun _ _ hk => hk.1)) (fun _ => ?_)
      exact .ret hrolls (fun _ _ hk => hk)
    · next hreason =>
      obtain ⟨hafter, hfingerprint⟩ := safeReason_none hreason
      have hinverts : Inverts bound.artifact state (withoutOwnedIndex state action.indexName) :=
        ⟨hafter, by rw [hfingerprint]⟩
      unfold dropOwned
      rw [hc, hr]
      refine .bind ((open_spec bound hinverts).pre (fun _ _ hk => hk.1)) (fun _ => ?_)
      refine .bind (dropIndex_spec bound _ _ _ _) (fun _ => ?_)
      refine .bind ((reads (state_reads A _ _ _) (intends_stable _ _ _)).conseq (fun _ _ hk => hk)
        (fun _ _ _ hk => hk) (fun _ _ _ hk => hk.1)) (fun after => ?_)
      split
      · refine .bind ((block_spec bound _ after).pre (fun _ _ hk => hk.1)) (fun _ => ?_)
        exact .ret hrolls (fun _ _ hk => hk)
      · next hexpected =>
        obtain rfl := not_ne_iff.mp hexpected
        refine .bind (finalizeRecord_spec bound hr hc state _ action) (fun _ => ?_)
        exact .ret hrolls (fun _ _ hk => hk)

theorem rollbackForRun_spec (q : RunId) :
    (mutex A r T c).discipline.Triple i ((mutex A r T c).Holds i none) (rollbackForRun A i q)
      (fun _ => (mutex A r T c).Holds i none) (fun _ => (mutex A r T c).Holds i none) := by
  refine Locked.rollbackForRun_spec (B := Found r T c q) (Q := fun _ _ => True) guards q
    (fun s hs hact bound hb => found_of_boundRollback hs.1 hact.2 hb) (found_stable q)
    (fun bound s l hb => ⟨hb.runId, hb.candidate, hb.targetId, hb.current⟩) (fun bound => ?_)
    (fun _ => (Mutex.holds_stable _).and (.const _)) (fun _ _ _ _ _ _ => trivial)
  intro s hs hk
  obtain ⟨hheld, ⟨hrun, hcandidate, htarget, hcurrent⟩, -⟩ := hk
  by_cases hq : q = r
  · rw [htarget hq] at hheld ⊢
    exact (rollbackLocked_spec bound (hrun.trans hq) (hcandidate.mpr hq)).conseq (fun _ _ hk => hk)
      (fun _ _ _ hk => ⟨hk.1, trivial⟩) (fun _ _ _ hk => ⟨hk.1, trivial⟩) s hs ⟨hheld, hcurrent hq⟩
  · have hother : bound.candidateId ≠ c := fun h => hq (hcandidate.mp h)
    refine Discipline.Triple.neutral ((rollbackLocked_operates A bound).and
      (rollbackLocked_records bound)) (fun l s t hs _ h => ?_) (held_stable bound.targetId)
      (guards.crashable _) (fun _ _ _ _ hk => ⟨hk, trivial⟩) (fun _ _ _ _ hk => ⟨hk, trivial⟩) s hs hheld
    obtain ⟨⟨⟨-, -, hart, -⟩, hworks⟩, hrecords⟩ := h
    have hspared := hworks.within r (fun h => hq (hrun.symm.trans h.symm))
    refine neutral hs (by rw [hworks.frame]) hworks.grows
      (hs.1.of_sameRuns hworks.sameRuns (by rw [hworks.frame])) (hart ▸ hs.1.artifact)
      ⟨hspared.artifact, hrecords c hother.symm, ?_, ?_⟩
    · rw [entries, hspared.ledger]
      rfl
    · rw [drops, hspared.calls]
      rfl

theorem governs : (mutex A r T c).discipline.Governs := by
  refine .of_triples (fun i k _ => ?_) (fun s t h hs => ?_)
  · cases k with
    | deployForRun q =>
      exact .bind (deployForRun_spec q) (fun _ => .ret (Mutex.holds_stable _) (fun _ _ hk => hk))
    | rollbackForRun q =>
      exact .bind (rollbackForRun_spec q) (fun _ => .ret (Mutex.holds_stable _) (fun _ _ hk => hk))
  · obtain ⟨⟨hexternal, hlocks, hassigned⟩, -⟩ := h
    refine neutral hs hlocks hexternal.grows hassigned (hexternal.artifacts ▸ hs.1.artifact)
      ⟨by rw [hexternal.artifacts], by rw [hexternal.rollbacks], ?_, ?_⟩
    · rw [entries, World.entriesOf, hexternal.ledger]
      rfl
    · rw [drops, World.callsOf, hexternal.calls]
      rfl

theorem holds {s₀ : World τ} (h₀ : Untouched s₀) (hassigned : Assigned r T c s₀)
    (hfree : s₀.locks = fun _ => none) :
    (mutex A r T c).discipline.Holds (.quiet s₀ : Config Label (World τ) Error WorkerId) := by
  refine .quiet ⟨.of_untouched h₀ hassigned, fun _ => trivial⟩ (fun i t => ?_)
  simp [mutex, hfree]

end Settled

/-- One inverse mutation at most is in the ledger, as the artifact has it, and a record of a
rollback that was made stands on that one entry. -/
structure Reconciled (r : RunId) (c : CandidateId) (s : World τ) : Prop where
  single : (entries r c s).length ≤ 1
  entered : ∀ e ∈ entries r c s, ∃ a, s.artifacts r = some a ∧
    Inverts a e.beforeState e.afterState ∧ e.forwardAction = .dropIndex a.inverseAction
  rolledBack : ∀ p, s.rollbacks c = some ⟨.rolledBack, p⟩ →
    ∃ e, entries r c s = [e] ∧ p = .applied e.beforeState e.afterState

theorem Accounted.reconciled {r : RunId} {T : TargetId} {c : CandidateId} {s : World τ}
    (h : Accounted r T c s) : Reconciled r c s := by
  refine ⟨h.single, h.entered, fun p hp => ?_⟩
  obtain ⟨a, before, after, ha, hinverts, rfl, hsome⟩ := h.rolledBack p hp
  obtain ⟨e, he⟩ : ∃ e, entries r c s = [e] :=
    List.length_eq_one_iff.mp (Nat.le_antisymm h.single (List.length_pos_iff.mpr hsome))
  obtain ⟨b, hb, hinverts', -⟩ := h.entered e (by simp [he])
  obtain rfl : b = a := Option.some_inj.mp (hb.symm.trans ha)
  have hbefore : before = e.beforeState :=
    Option.some_inj.mp (hinverts.observed.symm.trans hinverts'.observed)
  refine ⟨e, he, ?_⟩
  rw [hinverts.expected, hinverts'.expected, hbefore]

section

variable {A : DatabaseAdapter τ} {r : RunId} {T : TargetId} {c : CandidateId} {s₀ : World τ}
  {d d' : Config Label (World τ) Error WorkerId}

/-- Over any deployments and rollbacks of any runs, crashes, retries and changes from outside, the
ledger, the record and the artifact of the run agree on its rollback. -/
theorem rollback_reconciled (h₀ : Untouched s₀) (hassigned : Assigned r T c s₀)
    (hfree : s₀.locks = fun _ => none)
    (hr : (services A).Reach (assigned A r T c).Allows (.quiet s₀) d) : Reconciled r c d.shared := by
  have hgiven := hr.given (fun e he => Keyed.reach (C := assigned A r T c) (fun _ _ h => h.1) h₀ he)
  exact ((Settled.holds h₀ hassigned hfree).reach Settled.governs hgiven).inv.1.reconciled

/-- Once the candidate has an outcome on record, it keeps that record, and nothing more is dropped
or entered for the run, whatever calls are under way or still to come. -/
theorem rollback_settled (h₀ : Untouched s₀) (hassigned : Assigned r T c s₀)
    (hfree : s₀.locks = fun _ => none)
    (hr : (services A).Reach (assigned A r T c).Allows (.quiet s₀) d)
    (hr' : (services A).Reach (assigned A r T c).Allows d d') {outcome : Outcome}
    (hrecorded : recordedOutcome (d.shared.rollbacks c) = some outcome) :
    d'.shared.rollbacks c = d.shared.rollbacks c ∧ entries r c d'.shared = entries r c d.shared ∧
      drops r d'.shared = drops r d.shared := by
  have hkeyed : ∀ e, (services A).Reach (assigned A r T c).Allows (.quiet s₀) e → Keyed e.shared :=
    fun e he => Keyed.reach (C := assigned A r T c) (fun _ _ h => h.1) h₀ he
  have hgiven := hr.given hkeyed
  have hgiven' := hr'.given (fun e he => hkeyed e (hr.trans he))
  have hsettles := Mutex.grown ((Settled.holds h₀ hassigned hfree).reach Settled.governs hgiven)
    Settled.governs hgiven'
  obtain ⟨row, hrow, hn⟩ : ∃ row, d.shared.rollbacks c = some row ∧ row.status ≠ .intentRecorded := by
    cases hd : d.shared.rollbacks c with
    | none =>
      rw [hd] at hrecorded
      cases hrecorded
    | some row =>
      refine ⟨row, rfl, ?_⟩
      rintro hstatus
      obtain ⟨status, p⟩ := row
      obtain rfl := hstatus
      rw [hd] at hrecorded
      cases hrecorded
  obtain ⟨hentries, hdrops⟩ := hsettles.settled row hrow hn
  exact ⟨(hsettles.grows.rollbacks c row hrow hn).trans hrow.symm, hentries, hdrops⟩

end

theorem assigned_prepared : Assigned 0 0 0 (Preparation.world {} (preparedCollection [])) := by
  refine ⟨?_, fun q admission other hq hselected => ?_⟩
  · rintro _ ⟨⟩
    rfl
  · cases q with
    | zero =>
      cases hq
      cases hselected
      exact Iff.rfl
    | succ q => cases hq

/-- Worker 1 dies between the ledger entry and the record; worker 2 takes over. -/
theorem rollback_reconciled_prepared :
    ∃ d, (services mongodb).Reach (assigned mongodb 0 0 0).Allows
        (.quiet (Preparation.world {} (preparedCollection []))) d ∧
      (d.shared.rollbacks 0).map (·.status) = some .rolledBack ∧ Reconciled 0 0 d.shared := by
  have hrun : ((services mongodb).exec (stepwise (fun _ _ => true))
      (Event.calls 0 (.deployForRun 0) 28 ++ Event.calls 1 (.rollbackForRun 0) 12 ++ [.crash 1] ++
        Event.calls 2 (.rollbackForRun 0) 9)
      (.quiet (Preparation.world {} (preparedCollection [])))).map
        (fun d => (d.shared.rollbacks 0).map (·.status)) = some (some .rolledBack) := by
    decide +kernel
  obtain ⟨d, hr, hd⟩ := System.Reach.of_exec_map (stepwise_allows (C := assigned mongodb 0 0 0)
    (fun _ _ _ => trivial) (fun _ _ _ _ => trivial) (fun _ _ _ _ => trivial)
    (by simp [Event.calls])) hrun
  exact ⟨d, hr, hd, rollback_reconciled ⟨rfl, rfl, rfl, rfl, rfl⟩ assigned_prepared rfl hr⟩

/-- Worker 1 rolls back, and worker 2 calls once more. -/
theorem rollback_settled_prepared :
    ∃ d d', (services mongodb).Reach (assigned mongodb 0 0 0).Allows
        (.quiet (Preparation.world {} (preparedCollection []))) d ∧
      (services mongodb).Reach (assigned mongodb 0 0 0).Allows d d' ∧
      recordedOutcome (d.shared.rollbacks 0) = some .applied ∧
      drops 0 d'.shared = drops 0 d.shared := by
  have hrun : ((services mongodb).exec (stepwise (fun _ _ => true))
      (Event.calls 0 (.deployForRun 0) 28 ++ Event.calls 1 (.rollbackForRun 0) 14)
      (.quiet (Preparation.world {} (preparedCollection [])))).map
        (fun d => (recordedOutcome (d.shared.rollbacks 0),
          ((services mongodb).exec (stepwise (fun _ _ => true))
            (Event.calls 2 (.rollbackForRun 0) 2) d).isSome)) = some (some .applied, true) := by
    decide +kernel
  have hallows : ∀ es : List (Event WorkerId Call (World MongoDatabase → World MongoDatabase)),
      (∀ f, .env f ∉ es) → ∀ e ∈ es, ∀ c, stepwise (fun _ _ => true) c e = true →
        (assigned mongodb 0 0 0).Allows c e :=
    fun es hes => stepwise_allows (C := assigned mongodb 0 0 0) (fun _ _ _ => trivial)
      (fun _ _ _ _ => trivial) (fun _ _ _ _ => trivial) (fun f hf => absurd hf (hes f))
  obtain ⟨d, hr, hd⟩ := System.Reach.of_exec_map (hallows _ (by simp [Event.calls])) hrun
  simp only [Prod.mk.injEq] at hd
  obtain ⟨d', hd'⟩ := Option.isSome_iff_exists.mp hd.2
  have hr' := System.Reach.of_exec (hallows _ (by simp [Event.calls])) hd'
  exact ⟨d, d', hr, hr', hd.1,
    (rollback_settled ⟨rfl, rfl, rfl, rfl, rfl⟩ assigned_prepared rfl hr hr' hd.1).2.2⟩

end NoSQLOptimizer.Rollback
