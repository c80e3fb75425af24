import NoSQLOptimizer.Production.Keyed
import NoSQLOptimizer.Production.Locked

namespace NoSQLOptimizer.Rollback

open Adapters Actions ControlPlane Concurrency Production Recovery Runs

variable {τ : Type}

/-- The ledger's ROLLBACK_APPLIED entries of the run for the candidate. -/
def entries (r : RunId) (c : CandidateId) (s : World τ) : List LedgerEntry :=
  (s.entriesOf r).filter (fun e => e.candidateId = c && e.eventType = .rollbackApplied)

/-- `_rollback_ledger_exists`. -/
theorem entries_eq_nil {r : RunId} {c : CandidateId} {s : World τ} : entries r c s = [] ↔
    s.ledger.any (fun e => e.runId = r && e.candidateId = c && e.eventType = .rollbackApplied) =
      false := by
  rw [entries, World.entriesOf, List.filter_filter, List.filter_eq_nil_iff, List.any_eq_false]
  refine forall₂_congr (fun e _ => ?_)
  simp only [Bool.and_eq_true, decide_eq_true_eq]
  tauto

theorem entries_enter (r : RunId) (c : CandidateId) (payload : LedgerPayload) (s : World τ) : ∃ e : LedgerEntry,
    e.toLedgerPayload = payload ∧ entries r c (s.enter payload) = entries r c s ++
      if payload.runId = r ∧ payload.candidateId = c ∧ payload.eventType = .rollbackApplied then [e]
      else [] := by
  obtain ⟨e, rfl, he⟩ := s.enter_eq payload
  refine ⟨e, rfl, ?_⟩
  rw [he]
  by_cases hr : e.runId = r
  · simp only [entries, World.entriesOf, List.filter_append, List.filter_cons, hr, decide_true,
      if_true, List.filter_nil, true_and, Bool.and_eq_true, decide_eq_true_eq]
  · simp [entries, World.entriesOf, List.filter_append, hr]

/-- The calls of `drop_index` for the run. -/
def drops (r : RunId) (s : World τ) : List AdapterCall := (s.callsOf r).filter (!·.creates)

/-- The state that the deployment left, and that state without the deployment's index. -/
structure Inverts (a : DeploymentArtifact) (before after : IndexState) : Prop where
  observed : a.afterState = some before
  expected : after = withoutOwnedIndex before a.actionFingerprint.document.indexName

/-- Run `r` is of target `T`, and its admission selects candidate `c`, which no other run's does. -/
structure Assigned (r : RunId) (T : TargetId) (c : CandidateId) (s : World τ) : Prop where
  target : ∀ run, s.runs r = some run → run.targetId = T
  selected : ∀ q admission other, s.admissions q = some admission →
    admission.selectedCandidateId = some other → (other = c ↔ q = r)

/-- Any calls and any crashes; the advisory locks are the services' own, and outside of them
anything happens but to their tables and to the assignment. -/
def assigned (A : DatabaseAdapter τ) (r : RunId) (T : TargetId) (c : CandidateId) :
    (services A).Conduct where
  env s t := External s t ∧ t.locks = s.locks ∧ Assigned r T c t

/-- The candidate's record and the ledger tell of one inverse mutation of the run's artifact. -/
structure Accounted (r : RunId) (T : TargetId) (c : CandidateId) (s : World τ) : Prop
    extends Assigned r T c s where
  artifact : ∀ q a, s.artifacts q = some a → (a.candidateId = c ↔ q = r)
  intent : ∀ p, s.rollbacks c = some ⟨.intentRecorded, p⟩ → ∃ a before after,
    s.artifacts r = some a ∧ Inverts a before after ∧ p = .intent before after
  rolledBack : ∀ p, s.rollbacks c = some ⟨.rolledBack, p⟩ → ∃ a before after,
    s.artifacts r = some a ∧ Inverts a before after ∧ p = .applied before after ∧ entries r c s ≠ []
  single : (entries r c s).length ≤ 1
  entered : ∀ e ∈ entries r c s, ∃ a, s.artifacts r = some a ∧
    Inverts a e.beforeState e.afterState ∧ e.forwardAction = .dropIndex a.inverseAction

/-- What the owner of the target's lock has to itself. -/
structure Same (r : RunId) (c : CandidateId) (s t : World τ) : Prop where
  artifact : t.artifacts r = s.artifacts r
  record : t.rollbacks c = s.rollbacks c
  entries : entries r c t = entries r c s
  drops : drops r t = drops r s

theorem Same.refl (r : RunId) (c : CandidateId) (s : World τ) : Same r c s s := ⟨rfl, rfl, rfl, rfl⟩

theorem Same.trans {r : RunId} {c : CandidateId} {s t u : World τ} (h : Same r c s t)
    (h' : Same r c t u) : Same r c s u :=
  ⟨h'.artifact.trans h.artifact, h'.record.trans h.record, h'.entries.trans h.entries,
    h'.drops.trans h.drops⟩

/-- What is applied is not written again, and after an outcome is recorded nothing more is done. -/
structure Settles (r : RunId) (c : CandidateId) (s t : World τ) : Prop where
  grows : Grows s t
  frozen : ∀ a, s.artifacts r = some a → a.status = .applied → t.artifacts r = some a
  settled : ∀ row, s.rollbacks c = some row → row.status ≠ .intentRecorded →
    Rollback.entries r c t = Rollback.entries r c s ∧ Rollback.drops r t = Rollback.drops r s

theorem Settles.of_same {r : RunId} {c : CandidateId} {s t : World τ} (h : Grows s t)
    (hsame : Same r c s t) : Settles r c s t :=
  ⟨h, fun _ ha _ => hsame.artifact.trans ha, fun _ _ _ => ⟨hsame.entries, hsame.drops⟩⟩

theorem Settles.trans {r : RunId} {c : CandidateId} {s t u : World τ} (h : Settles r c s t)
    (h' : Settles r c t u) : Settles r c s u := by
  refine ⟨h.grows.trans h'.grows, fun a ha happlied => ?_, fun row hrow hn => ?_⟩
  · exact h'.frozen a (h.frozen a ha happlied) happlied
  · obtain ⟨hentries, hdrops⟩ := h.settled row hrow hn
    obtain ⟨hentries', hdrops'⟩ := h'.settled row (h.grows.rollbacks c row hrow hn) hn
    exact ⟨hentries'.trans hentries, hdrops'.trans hdrops⟩

theorem Accounted.of_same {r : RunId} {T : TargetId} {c : CandidateId} {s t : World τ}
    (h : Accounted r T c s) (hassigned : Assigned r T c t)
    (hartifact : ∀ q a, t.artifacts q = some a → (a.candidateId = c ↔ q = r))
    (hsame : Same r c s t) : Accounted r T c t := by
  refine ⟨hassigned, hartifact, ?_, ?_, ?_, ?_⟩
  · rw [hsame.record, hsame.artifact]
    exact h.intent
  · rw [hsame.record, hsame.artifact, hsame.entries]
    exact h.rolledBack
  · rw [hsame.entries]
    exact h.single
  · rw [hsame.entries, hsame.artifact]
    exact h.entered

theorem Assigned.of_sameRuns {r : RunId} {T : TargetId} {c : CandidateId} {s t : World τ}
    (h : Assigned r T c s) (hruns : SameRuns s t) (hadmissions : t.admissions = s.admissions) :
    Assigned r T c t := by
  refine ⟨fun run hrun => ?_, fun q admission other hq => ?_⟩
  · have hfixed := hruns r
    rw [hrun] at hfixed
    obtain ⟨run', hrun', heq⟩ := Option.map_eq_some_iff.mp hfixed.symm
    rw [← h.target run' hrun']
    exact (congrArg OptimizationRun.targetId heq).symm
  · rw [hadmissions] at hq
    exact h.selected q admission other hq

theorem Accounted.of_untouched {r : RunId} {T : TargetId} {c : CandidateId} {s : World τ}
    (h : Untouched s) (hassigned : Assigned r T c s) : Accounted r T c s := by
  refine ⟨hassigned, ?_, ?_, ?_, ?_, ?_⟩
  · simp [h.artifacts]
  · simp [h.rollbacks]
  · simp [h.rollbacks]
  · simp [entries, World.entriesOf, h.ledger]
  · simp [entries, World.entriesOf, h.ledger]

end NoSQLOptimizer.Rollback
