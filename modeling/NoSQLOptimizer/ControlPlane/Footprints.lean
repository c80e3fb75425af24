import NoSQLOptimizer.Runs.Repository
import NoSQLOptimizer.Recovery.Durable

namespace NoSQLOptimizer.ControlPlane

open Adapters Actions Concurrency

variable {τ α β : Type}

/-- An action on the control plane, not on the target, and what of the world it may change. -/
def Touches (keeps : World τ → World τ → Prop) (l : Label) (s t : World τ) : Prop :=
  l.mutates = none ∧ keeps s t

abbrev Reads : Label → World τ → World τ → Prop := Touches (fun s t => t = s)

/-- The artifact's row, later: its binding and its first observation never change, and what is
applied stays applied. -/
structure Advances (a b : DeploymentArtifact) : Prop where
  row : b = { a with status := b.status, afterState := b.afterState }
  applied : a.status = .applied → b.status = .applied

theorem Advances.refl (a : DeploymentArtifact) : Advances a a := ⟨rfl, id⟩

theorem Advances.trans {a b c : DeploymentArtifact} (h : Advances a b) (h' : Advances b c) :
    Advances a c :=
  ⟨by rw [h'.row, h.row], h'.applied ∘ h.applied⟩

/-- What no service ever undoes. -/
structure Grows (s t : World τ) : Prop where
  artifacts : ∀ r a, s.artifacts r = some a → ∃ b, t.artifacts r = some b ∧ Advances a b
  recovery : ∀ key row, s.recovery key = some row →
    ∃ row', t.recovery key = some row' ∧ row'.expectedFingerprint = row.expectedFingerprint
  ledger : s.ledger <+: t.ledger
  rollbacks : ∀ c row, s.rollbacks c = some row → row.status ≠ .intentRecorded →
    t.rollbacks c = some row
  calls : s.calls <+: t.calls

theorem Grows.of_eq {s t : World τ} (ha : t.artifacts = s.artifacts) (hr : t.recovery = s.recovery)
    (hl : t.ledger = s.ledger) (hb : t.rollbacks = s.rollbacks) (hc : s.calls <+: t.calls) :
    Grows s t :=
  ⟨fun _ a h => ⟨a, ha ▸ h, .refl a⟩, fun _ row h => ⟨row, hr ▸ h, rfl⟩, hl ▸ List.prefix_rfl,
    fun _ _ h _ => hb ▸ h, hc⟩

theorem Grows.refl (s : World τ) : Grows s s := .of_eq rfl rfl rfl rfl List.prefix_rfl

theorem Grows.trans {s t u : World τ} (h : Grows s t) (h' : Grows t u) : Grows s u := by
  refine ⟨fun r a ha => ?_, fun key row hrow => ?_, h.ledger.trans h'.ledger,
    fun c row hrow hn => h'.rollbacks c row (h.rollbacks c row hrow hn) hn,
    h.calls.trans h'.calls⟩
  · obtain ⟨b, hb, hab⟩ := h.artifacts r a ha
    obtain ⟨c, hc, hbc⟩ := h'.artifacts r b hb
    exact ⟨c, hc, hab.trans hbc⟩
  · obtain ⟨row', hrow', he⟩ := h.recovery key row hrow
    obtain ⟨row'', hrow'', he'⟩ := h'.recovery key row' hrow'
    exact ⟨row'', hrow'', he'.trans he⟩

/-- What no transition changes of a run. -/
def OptimizationRun.fixed (run : OptimizationRun) : OptimizationRun :=
  { run with status := .created, completionReason := none }

/-- Runs neither come nor go, and keep all but their status. -/
def SameRuns (s t : World τ) : Prop :=
  ∀ r, (t.runs r).map OptimizationRun.fixed = (s.runs r).map OptimizationRun.fixed

theorem SameRuns.row {s t : World τ} (h : SameRuns s t) {r : RunId} {run : OptimizationRun}
    (hr : s.runs r = some run) : ∃ run', t.runs r = some run' ∧ run'.fixed = run.fixed := by
  have hfixed := h r
  rw [hr] at hfixed
  exact Option.map_eq_some_iff.mp hfixed

/-- What is recorded of the run, and what it has called, stays as it is. -/
structure SparesRun (r : RunId) (s t : World τ) : Prop where
  run : t.runs r = s.runs r
  artifact : t.artifacts r = s.artifacts r
  ledger : t.entriesOf r = s.entriesOf r
  calls : t.callsOf r = s.callsOf r

theorem SparesRun.refl (r : RunId) (s : World τ) : SparesRun r s s := ⟨rfl, rfl, rfl, rfl⟩

/-- All other runs are spared. -/
def Within (r : RunId) (s t : World τ) : Prop := ∀ q, q ≠ r → SparesRun q s t

theorem Within.refl (r : RunId) (s : World τ) : Within r s s := fun q _ => .refl q s

/-- The run stands still, or goes to `next` along the graph. -/
def Steps (r : RunId) (next : RunStatus) (s t : World τ) : Prop :=
  t.runs r = s.runs r ∨ ∃ run run', s.runs r = some run ∧ t.runs r = some run' ∧
    next ∈ Runs.nextStates run.status ∧ run'.status = next

abbrev TouchesRun (r : RunId) (next : RunStatus) : Label → World τ → World τ → Prop :=
  Touches (fun s t =>
    t = { s with runs := t.runs } ∧ SameRuns s t ∧ Within r s t ∧ Steps r next s t)

theorem TouchesRun.refl {l : Label} (hl : l.mutates = none) (r : RunId) (next : RunStatus)
    (s : World τ) : TouchesRun r next l s s :=
  ⟨hl, rfl, fun _ => rfl, .refl r s, .inl rfl⟩

abbrev TouchesLedger (r : RunId) : Label → World τ → World τ → Prop :=
  Touches (fun s t => t = { s with ledger := t.ledger } ∧ Within r s t ∧ Grows s t)

abbrev TouchesLocks : Label → World τ → World τ → Prop :=
  Touches (fun s t => t = { s with locks := t.locks })

abbrev TouchesRecovery : Label → World τ → World τ → Prop :=
  Touches (fun s t => t = { s with recovery := t.recovery } ∧ Grows s t)

abbrev TouchesArtifact (r : RunId) : Label → World τ → World τ → Prop :=
  Touches (fun s t => t = { s with artifacts := t.artifacts } ∧ Within r s t ∧ Grows s t)

abbrev TouchesRollbacks : Label → World τ → World τ → Prop :=
  Touches (fun s t => t = { s with rollbacks := t.rollbacks } ∧ Grows s t)

/-- Every action of the process is of the kind `T`. -/
abbrev Does (T : Label → World τ → World τ → Prop) (p : Proc τ α) : Prop :=
  p.Always T (fun _ => True)

section

variable {T : Label → World τ → World τ → Prop}

theorem Does.bind {p : Proc τ α} {f : α → Proc τ β} (hp : Does T p) (hf : ∀ a, Does T (f a)) :
    Does T (p >>= f) :=
  Process.Always.bind hp (fun a _ => hf a) (fun _ _ => trivial)

theorem Does.onExit {p : Proc τ α} {q : Proc τ PUnit} (hp : Does T p) (hq : Does T q) :
    Does T (p.onExit q) :=
  Process.Always.onExit hp hq (fun _ => trivial)

theorem Does.ret (a : α) : Does T (.ret a : Proc τ α) := trivial

theorem Does.fail (e : Error) : Does T (.fail e : Proc τ α) := trivial

theorem Does.read {l : Label} (hl : l.mutates = none) (f : World τ → α) :
    Does Reads (Process.read l f : Proc τ α) :=
  Process.Always.read l f (fun _ => ⟨hl, rfl⟩) (fun _ => trivial)

theorem Does.ofExcept (x : Except Error α) : Does T (Process.ofExcept x : Proc τ α) := by
  cases x <;> trivial

theorem Does.of_reads {keeps : World τ → World τ → Prop} {p : Proc τ α} (hp : Does Reads p)
    (hT : ∀ s, keeps s s) : Does (Touches keeps) p :=
  Process.Always.mono hp (fun _ s _ h => ⟨h.1, h.2 ▸ hT s⟩) (fun _ h => h)

end

theorem guardAll_does {T : Label → World τ → World τ → Prop} (checks : List (Bool × String)) :
    Does T (guardAll checks) := by
  unfold guardAll
  split <;> trivial

theorem ensureLeaseOwned_reads (worker : WorkerId) : Does (τ := τ) Reads (ensureLeaseOwned worker) := by
  unfold ensureLeaseOwned
  refine Does.bind (Does.read rfl _) (fun lost => ?_)
  split <;> trivial

theorem state_reads (A : DatabaseAdapter τ) (r : RunId) (why : Reading)
    (action : CreateIndexAction) : Does Reads (state A r why action) := by
  unfold state
  refine Does.bind (Does.read rfl _) (fun namespaces => ?_)
  split
  · exact Does.bind (Does.read rfl _) (fun _ => trivial)
  · trivial

theorem tryAcquire_touches (service : Service) (worker : WorkerId) (t : TargetId) :
    Does (τ := τ) TouchesLocks (tryAcquire service worker t) := by
  intro s
  refine ⟨⟨rfl, ?_⟩, trivial⟩
  dsimp only
  split <;> rfl

theorem release_touches (service : Service) (r : RunId) (worker : WorkerId) (t : TargetId) :
    Does (τ := τ) TouchesLocks (release service r worker t) := by
  intro s
  refine ⟨⟨rfl, ?_⟩, trivial⟩
  dsimp only
  split <;> rfl

theorem enter_grows (payload : LedgerPayload) (s : World τ) : Grows s (s.enter payload) :=
  ⟨(Grows.refl s).artifacts, (Grows.refl s).recovery, List.prefix_append _ _,
    (Grows.refl s).rollbacks, List.prefix_rfl⟩

theorem append_touches (payload : LedgerPayload) :
    Does (τ := τ) (TouchesLedger payload.runId) (append payload) :=
  fun s => ⟨⟨rfl, rfl, fun _ hq => ⟨rfl, rfl, by
      simp [World.enter, World.entriesOf, Ne.symm hq], rfl⟩,
    enter_grows payload s⟩, trivial⟩

theorem transition_touches (r : RunId) (next : RunStatus) (reason : Option RunCompletionReason) :
    Does (τ := τ) (TouchesRun r next) (Runs.transition r next reason) := by
  refine Process.Always.atomic _ _ (fun s moved s' h => ⟨⟨rfl, ?_⟩, trivial⟩)
    (fun s _ _ => ⟨.refl rfl r next s, trivial⟩)
  obtain ⟨run, hrun, hnext, -, rfl, rfl⟩ := Runs.transitionRun_ok h
  refine ⟨rfl, fun q => ?_, fun q hq => ⟨by simp [hq], rfl, rfl, rfl⟩,
    .inr ⟨run, _, hrun, Function.update_self _ _ _, hnext, rfl⟩⟩
  by_cases hq : q = r
  · subst hq
    simp [hrun, OptimizationRun.fixed]
  · simp [hq]

section

open Recovery

/-- A key gets its first row, or one that expects what the row before it did. -/
theorem Grows.putRecovery {s : World τ} {key : IdempotencyKey} {row : RecoveryRecord}
    (h : ∀ old, s.recovery key = some old → row.expectedFingerprint = old.expectedFingerprint) :
    Grows s (put key row s) := by
  refine ⟨(Grows.refl s).artifacts, fun k old hold => ?_, List.prefix_rfl, (Grows.refl s).rollbacks,
    List.prefix_rfl⟩
  by_cases hk : k = key
  · subst hk
    exact ⟨row, by simp [put], h old hold⟩
  · exact ⟨old, by simpa [put, hk] using hold, rfl⟩

theorem recordIntent_touches (key : IdempotencyKey) (actionId : Nat) (t : TargetId)
    (expected : ActionFingerprint) :
    Does (τ := τ) TouchesRecovery (recordIntent key actionId t expected) := by
  intro s
  refine ⟨⟨rfl, ?_⟩, trivial⟩
  dsimp only
  cases h : s.recovery key with
  | none => exact ⟨rfl, .putRecovery (by simp [h])⟩
  | some row => exact ⟨rfl, .refl s⟩

theorem beginExecution_touches (key : IdempotencyKey) :
    Does (τ := τ) TouchesRecovery (beginExecution key) := by
  refine Process.Always.atomic _ _ (fun s o s' h => ⟨⟨rfl, ?_⟩, trivial⟩)
    (fun s _ _ => ⟨⟨rfl, rfl, .refl s⟩, trivial⟩)
  obtain ⟨row, hrow, ⟨-, -, rfl⟩ | ⟨-, rfl⟩⟩ := beginRow_ok h
  · exact ⟨rfl, .refl _⟩
  · refine ⟨rfl, .putRecovery (fun old hold => ?_)⟩
    rw [hrow] at hold
    cases hold
    rfl

theorem confirmExecution_touches (key : IdempotencyKey) :
    Does (τ := τ) TouchesRecovery (confirmExecution key) := by
  intro s
  refine ⟨⟨rfl, ?_⟩, trivial⟩
  dsimp only
  cases h : s.recovery key with
  | none => exact ⟨rfl, .refl s⟩
  | some row =>
    refine ⟨rfl, .putRecovery (fun old hold => ?_)⟩
    rw [h] at hold
    cases hold
    rfl

end

end NoSQLOptimizer.ControlPlane
