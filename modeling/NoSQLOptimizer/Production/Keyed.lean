import NoSQLOptimizer.Concurrency.Triple
import NoSQLOptimizer.Production.Footprints

namespace NoSQLOptimizer.Production

open Adapters Actions ControlPlane Concurrency Recovery

variable {τ : Type}

/-- Artifacts and recovery rows agree with the keys they are found under, and a deployment is APPLIED
exactly when its after-state is recorded. -/
structure Keyed (s : World τ) : Prop where
  key : ∀ r a, s.artifacts r = some a →
    a.idempotencyKey = ⟨r, a.candidateFingerprint, a.actionFingerprint⟩
  applied : ∀ r a, s.artifacts r = some a → (a.status = .applied ↔ a.afterState ≠ none)
  expected : ∀ key row, s.recovery key = some row →
    row.expectedFingerprint = key.actionFingerprint

theorem Keyed.of_eq {s t : World τ} (h : Keyed s) (ha : t.artifacts = s.artifacts)
    (hr : t.recovery = s.recovery) : Keyed t :=
  ⟨fun q a hq => h.key q a (ha ▸ hq), fun q a hq => h.applied q a (ha ▸ hq),
    fun k row hk => h.expected k row (hr ▸ hk)⟩

theorem Keyed.of_untouched {s : World τ} (h : Untouched s) : Keyed s :=
  ⟨by simp [h.artifacts], by simp [h.artifacts], by simp [h.recovery]⟩

theorem Keyed.putArtifact {s : World τ} {r : RunId} {a : DeploymentArtifact} (h : Keyed s)
    (hkey : a.idempotencyKey = ⟨r, a.candidateFingerprint, a.actionFingerprint⟩)
    (happlied : a.status = .applied ↔ a.afterState ≠ none) : Keyed (putArtifact r a s) := by
  have hrow : ∀ q b, (Production.putArtifact r a s).artifacts q = some b →
      s.artifacts q = some b ∨ q = r ∧ b = a := by
    intro q b hb
    by_cases hq : q = r
    · subst hq
      exact .inr ⟨rfl, by simpa [Production.putArtifact, eq_comm] using hb⟩
    · exact .inl (by simpa [Production.putArtifact, hq] using hb)
  refine ⟨fun q b hb => ?_, fun q b hb => ?_, h.expected⟩
  · rcases hrow q b hb with hb | ⟨rfl, rfl⟩
    · exact h.key q b hb
    · exact hkey
  · rcases hrow q b hb with hb | ⟨rfl, rfl⟩
    · exact h.applied q b hb
    · exact happlied

theorem Keyed.putRecovery {s : World τ} {key : IdempotencyKey} {row : RecoveryRecord} (h : Keyed s)
    (hrow : row.expectedFingerprint = key.actionFingerprint) : Keyed (put key row s) := by
  refine ⟨h.key, h.applied, fun k old hold => ?_⟩
  by_cases hk : k = key
  · subst hk
    cases (by simpa [put] using hold : row = old)
    exact hrow
  · exact h.expected k old (by simpa [put, hk] using hold)

namespace Keyed

variable {A : DatabaseAdapter τ} {C : (services A).Conduct} {i : WorkerId}

def discipline (C : (services A).Conduct) : Discipline C where
  inv := Keyed
  rely _ _ _ := True
  idle _ _ := True
  refl _ _ := trivial
  trans _ _ := trivial
  idle_stable _ _ := trivial

theorem admits {s t : World τ} (h : Keyed t) : (discipline C).Admits i s t :=
  ⟨h, trivial, fun _ _ => trivial⟩

theorem crashable (K : World τ → Prop) : (discipline C).Crashable i K :=
  fun _ s hs _ _ => ⟨admits (hs.of_eq (t := s.endSession i) rfl rfl), trivial⟩

theorem quiet (e : Error) :
    (discipline C).Stable i ((fun _ _ => True : Error → World τ → Prop) e) :=
  .const _

/-- The session runs the process and the keys stay right. -/
abbrev Keeps (C : (services A).Conduct) (i : WorkerId) {α : Type} (p : Proc τ α) : Prop :=
  (discipline C).Triple i (fun _ => True) p (fun _ _ => True) (fun _ _ => True)

theorem Keeps.bind {α β : Type} {p : Proc τ α} {f : α → Proc τ β} (hp : Keeps C i p)
    (hf : ∀ a, Keeps C i (f a)) : Keeps C i (p >>= f) :=
  Discipline.Triple.bind hp hf

theorem Keeps.ret {α : Type} (a : α) : Keeps C i (.ret a) :=
  Discipline.Triple.ret (.const _) (fun _ _ _ => trivial)

/-- What leaves artifacts and recovery rows as they are leaves their keys as they are. -/
theorem moves {α : Type} {p : Proc τ α} {T : Label → World τ → World τ → Prop} (hp : Does T p)
    (hT : ∀ l s t, T l s t → t.artifacts = s.artifacts ∧ t.recovery = s.recovery) :
    Keeps C i p :=
  .neutral hp (fun l s t hs _ h => ⟨hs.of_eq (hT l s t h).1 (hT l s t h).2, fun _ => trivial⟩)
    (.const _) (crashable _) (fun _ _ _ _ _ => trivial) (fun _ _ _ _ _ => trivial)

theorem reads {α : Type} {p : Proc τ α} (hp : Does Reads p) :
    Keeps C i p :=
  moves hp (fun _ _ _ h => by rw [h.2]; exact ⟨rfl, rfl⟩)

theorem touchesRun {r : RunId} {next : RunStatus} {α : Type} {p : Proc τ α} (hp : Does (TouchesRun r next) p) :
    Keeps C i p :=
  moves hp (fun _ _ _ h => by rw [h.2.1]; exact ⟨rfl, rfl⟩)

theorem append_spec (payload : LedgerPayload) :
    Keeps C i (append payload) :=
  moves (append_touches payload) (fun _ _ _ h => by rw [h.2.1]; exact ⟨rfl, rfl⟩)

theorem locks {α : Type} {p : Proc τ α} (hp : Does TouchesLocks p) :
    Keeps C i p :=
  moves hp (fun _ _ _ h => by rw [h.2]; exact ⟨rfl, rfl⟩)

theorem intent_spec (bound : BoundAction) (before : IndexState) (action : CreateIndexAction) :
    (discipline C).Triple i (fun _ => True) (intent bound before action)
      (fun x _ => x.1.idempotencyKey = bound.idempotencyKey action) (fun _ _ => True) := by
  refine .atomic (.const _) (crashable _) (fun _ => .const _) quiet (fun s x t hs _ _ hT => ?_)
    (fun _ _ _ _ _ _ => trivial)
  obtain ⟨a, created⟩ := x
  rcases intentRow_ok hT with ⟨ha, howns, -, rfl⟩ | ⟨-, rfl, -, rfl⟩
  · simp only [BoundAction.owns, Bool.and_eq_true, decide_eq_true_eq] at howns
    refine ⟨admits hs, ?_⟩
    rw [hs.key _ a ha, howns.1.2, howns.2]
    rfl
  · exact ⟨admits (hs.putArtifact rfl (by simp [BoundAction.newArtifact])), rfl⟩

theorem markApplied_spec (r : RunId) (after : IndexState) :
    Keeps C i (markApplied r after) := by
  refine .atomic (.const _) (crashable _) (fun _ => .const _) quiet (fun s x t hs _ _ hT => ?_)
    (fun _ _ _ _ _ _ => trivial)
  obtain ⟨a, ha, rfl, rfl⟩ := markAppliedRow_ok hT
  exact ⟨admits (hs.putArtifact (hs.key r a ha) (by simp)), trivial⟩

theorem recordIntent_spec (key : IdempotencyKey) (actionId : Nat) (t : TargetId) :
    Keeps C i (recordIntent key actionId t key.actionFingerprint) := by
  refine .modify (.const _) (crashable _) (.const _) (fun s hs _ _ => ⟨admits ?_, trivial⟩)
  split
  · exact hs
  · exact hs.putRecovery rfl

theorem beginExecution_spec (key : IdempotencyKey) : Keeps C i (beginExecution key) := by
  refine .atomic (.const _) (crashable _) (fun _ => .const _) quiet
    (fun s o t hs _ _ hT => ⟨?_, trivial⟩) (fun _ _ _ _ _ _ => trivial)
  obtain ⟨row, hrow, ⟨-, -, rfl⟩ | ⟨-, rfl⟩⟩ := beginRow_ok hT
  · exact admits hs
  · exact admits (hs.putRecovery (hs.expected key row hrow))

theorem confirmExecution_spec (key : IdempotencyKey) : Keeps C i (confirmExecution key) := by
  refine .modify (.const _) (crashable _) (.const _) (fun s hs _ _ => ⟨admits ?_, trivial⟩)
  split
  · exact hs
  · next row hrow => exact hs.putRecovery (hs.expected key row hrow)

theorem mutation_spec (r : RunId) (action : CreateIndexAction) :
    Keeps C i (mutation A i r action) :=
  .bind (reads (ensureLeaseOwned_reads i)) (fun _ => moves (T := fun _ s t =>
    t.artifacts = s.artifacts ∧ t.recovery = s.recovery) (fun s =>
      ⟨by rw [World.create_frame]; exact ⟨rfl, rfl⟩, by dsimp only; split <;> trivial⟩)
    (fun _ _ _ h => h))

theorem applyIntent_spec (bound : BoundAction) (before : IndexState) (action : CreateIndexAction)
    (artifact : DeploymentArtifact) (intentCreated : Bool)
    (hkey : artifact.idempotencyKey = bound.idempotencyKey action) :
    Keeps C i (applyIntent A i bound before action artifact intentCreated) := by
  unfold applyIntent
  rw [hkey]
  refine .bind (recordIntent_spec (bound.idempotencyKey action) _ _) (fun _ => ?_)
  refine .bind (.when (.const _) (fun _ => append_spec _) (fun _ _ _ _ => trivial)) (fun _ => ?_)
  refine .bind (reads (ensureLeaseOwned_reads i)) (fun _ => ?_)
  refine .bind ?_ (fun _ => ?_)
  · unfold executeOrRecover
    refine .bind (beginExecution_spec _) (fun o => ?_)
    cases o with
    | none => exact .ret _
    | some expected =>
      refine .bind (reads (exactEffect_reads A _ _ _)) (fun effect => ?_)
      refine .bind (.when (.const _) (fun _ => mutation_spec _ _) (fun _ _ _ _ => trivial))
        (fun _ => confirmExecution_spec _)
  · refine .bind (reads (ensureLeaseOwned_reads i)) (fun _ => ?_)
    refine .bind (reads (state_reads A _ _ _)) (fun after => ?_)
    refine .bind (reads (guardAll_does _)) (fun _ => ?_)
    refine .bind (markApplied_spec _ after) (fun persisted => ?_)
    refine .bind (append_spec _) (fun _ => ?_)
    refine .bind (reads (ensureLeaseOwned_reads i)) (fun _ => ?_)
    exact .bind (touchesRun (finishDeploying_touches _))
      (fun _ => .ret _)

theorem deployLocked_spec (bound : BoundAction) : Keeps C i (deployLocked A i bound) := by
  unfold deployLocked
  refine .bind (reads (Does.ofExcept _)) (fun action => ?_)
  refine .bind (reads (state_reads A _ _ _)) (fun before => ?_)
  refine Discipline.Triple.bind (intent_spec bound before action) (fun x s hs hkey => ?_)
  refine Keeps.bind (touchesRun (enterDeploying_touches bound)) (fun _ => ?_) s hs trivial
  split
  · exact .bind (touchesRun (reconcileApplied_touches _ _ _))
      (fun _ => .ret _)
  · exact applyIntent_spec bound before action _ _ hkey

theorem governs (hC : ∀ s t, C.env s t → External s t) : (discipline C).Governs := by
  refine .of_triples (fun i k _ => ?_)
    (fun s t h hs => ⟨hs.of_eq (hC s t h).artifacts (hC s t h).recovery, fun _ => trivial⟩)
  cases k with
  | deployForRun r =>
    refine Keeps.bind ?_ (fun _ => .ret _)
    unfold deployForRun
    refine .bind (reads (ensureLeaseOwned_reads i)) (fun _ => ?_)
    refine .bind (reads ((loadBoundAction_reads r).mono (fun _ _ _ h => h) (fun _ _ => trivial)))
      (fun bound => ?_)
    refine .bind (locks (tryAcquire_touches _ _ _)) (fun acquired => ?_)
    cases acquired with
    | false => exact .fail (.const _) (fun _ _ _ => trivial)
    | true =>
      exact .onExit (.bind (reads (ensureLeaseOwned_reads i)) (fun _ => deployLocked_spec bound))
        (fun _ => locks (release_touches _ _ _ _)) (fun _ => locks (release_touches _ _ _ _))
  | rollbackForRun r =>
    refine Keeps.bind (moves (rollbackForRun_acts A i r) ?_)
      (fun _ => .ret _)
    rintro l s t (⟨⟨-, -, h⟩, -⟩ | ⟨-, h⟩)
    · exact h
    · rw [h]
      exact ⟨rfl, rfl⟩

theorem reach {s₀ : World τ} {c : Config Label (World τ) Error WorkerId}
    (hC : ∀ s t, C.env s t → External s t) (h₀ : Untouched s₀)
    (hr : (services A).Reach C.Allows (.quiet s₀) c) : Keyed c.shared :=
  ((Discipline.Holds.quiet (of_untouched h₀) (fun _ => trivial)).reach (governs hC) hr).inv

end Keyed

end NoSQLOptimizer.Production
