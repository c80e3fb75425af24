import NoSQLOptimizer.ControlPlane.Footprints
import NoSQLOptimizer.Production.Services

namespace NoSQLOptimizer.Production

open Adapters Actions ControlPlane Concurrency Rollback Runs

variable {τ : Type}

theorem runStatus_reads (r : RunId) : Does (τ := τ) Reads (runStatus r) := by
  refine Does.bind (Does.read rfl _) (fun row => ?_)
  cases row <;> trivial

theorem requireApproval_reads (bound : BoundAction) :
    Does (τ := τ) Reads (requireApproval bound) := by
  unfold requireApproval
  split
  · exact Does.bind (Does.read rfl _) (fun _ => Does.bind (Does.read rfl _) (fun _ => guardAll_does _))
  · trivial

theorem boundAction_runId {s : World τ} {r : RunId} {bound : BoundAction}
    (h : boundAction s r = some bound) : bound.runId = r := by
  simp only [boundAction, Option.bind_eq_bind, Option.bind_eq_some_iff] at h
  obtain ⟨_, _, _, _, _, _, _, _, _, _, _, _, _, _, _, _, _, _, h⟩ := h
  cases h
  rfl

theorem boundAction_run {s : World τ} {r : RunId} {bound : BoundAction}
    (h : boundAction s r = some bound) : s.runs r = some bound.run := by
  simp only [boundAction, Option.bind_eq_bind, Option.bind_eq_some_iff] at h
  obtain ⟨run, hrun, _, _, _, _, _, _, _, _, _, _, _, _, _, _, _, _, h⟩ := h
  cases h
  exact hrun

/-- Loading reads only, and what it returns is the row it has read. -/
theorem loadBoundAction_reads (r : RunId) : (loadBoundAction (τ := τ) r).Always Reads
    (fun x => ∀ bound, x = .ok bound → bound.runId = r) := by
  refine Process.Always.bind (Q := fun x => ∀ bound, x = .ok (some bound) → bound.runId = r)
    (fun s => ⟨⟨rfl, rfl⟩, fun bound h => boundAction_runId (by simpa using h)⟩) (fun row hrow => ?_)
    (by simp)
  cases row with
  | none => rintro _ ⟨⟩
  | some bound =>
    refine Process.Always.bind (guardAll_does _) (fun _ _ => ?_) (by simp)
    refine Process.Always.bind (Does.read rfl _) (fun _ _ => ?_) (by simp)
    refine Process.Always.bind (Does.read rfl _) (fun _ _ => ?_) (by simp)
    refine Process.Always.bind (guardAll_does _) (fun _ _ => ?_) (by simp)
    refine Process.Always.bind (requireApproval_reads bound) (fun _ _ => ?_) (by simp)
    rintro _ ⟨⟩
    exact hrow bound rfl

theorem enterDeploying_touches (bound : BoundAction) :
    Does (τ := τ) (TouchesRun bound.runId .deploying) (enterDeploying bound) := by
  unfold enterDeploying
  split
  · exact Does.bind (transition_touches _ _ _) (fun _ => trivial)
  · exact guardAll_does _

theorem finishDeploying_touches (r : RunId) :
    Does (τ := τ) (TouchesRun r .deployed) (finishDeploying r) := by
  refine Does.bind ((runStatus_reads r).of_reads
    (fun s => ⟨rfl, fun _ => rfl, .refl r s, .inl rfl⟩)) (fun current => ?_)
  split
  · exact Does.bind (transition_touches _ _ _) (fun _ => trivial)
  · trivial

theorem reconcileApplied_touches (bound : BoundAction) (before : IndexState)
    (action : CreateIndexAction) :
    Does (τ := τ) (TouchesRun bound.runId .deployed) (reconcileApplied bound before action) := by
  refine Does.bind (guardAll_does _) (fun _ => ?_)
  refine Does.bind ((runStatus_reads _).of_reads
    (fun s => ⟨rfl, fun _ => rfl, .refl _ s, .inl rfl⟩)) (fun current => ?_)
  split
  · exact Does.bind (transition_touches _ _ _) (fun _ => trivial)
  · exact guardAll_does _

theorem exactEffect_reads (A : DatabaseAdapter τ) (r : RunId) (action : CreateIndexAction)
    (expected : ActionFingerprint) : Does Reads (exactEffect A r action expected) :=
  Does.bind (state_reads A r .effect action) (fun _ => trivial)

theorem rollbackLedgerExists_reads (bound : BoundRollback) :
    Does (τ := τ) Reads (rollbackLedgerExists bound) :=
  Does.read rfl _

/-- The candidate gets its first record, or the outcome of the intent that it had. -/
theorem putRollback_grows {c : CandidateId} {row : RollbackRecord} {s : World τ}
    (h : ∀ old, s.rollbacks c = some old → old.status = .intentRecorded) :
    Grows s (putRollback c row s) := by
  refine ⟨(Grows.refl s).artifacts, (Grows.refl s).recovery, List.prefix_rfl, fun q old hold hn => ?_,
    List.prefix_rfl⟩
  by_cases hq : q = c
  · subst hq
    exact absurd (h old hold) hn
  · simpa [putRollback, hq] using hold

theorem record_touches (c : CandidateId) (status : RollbackStatus) (payload : RollbackPayload) :
    Does (τ := τ) TouchesRollbacks (record c status payload) := by
  refine Process.Always.atomic _ _ (fun s o s' h => ⟨⟨rfl, ?_⟩, trivial⟩)
    (fun s _ _ => ⟨⟨rfl, rfl, .refl s⟩, trivial⟩)
  rcases recordRow_ok h with ⟨hold, rfl⟩ | ⟨_, -, -, rfl⟩
  · exact ⟨rfl, putRollback_grows hold⟩
  · exact ⟨rfl, .refl _⟩

/-- The run gets its first artifact, or a later row of it. -/
theorem putArtifact_grows {r : RunId} {a : DeploymentArtifact} {s : World τ}
    (h : ∀ old, s.artifacts r = some old → Advances old a) : Grows s (putArtifact r a s) := by
  refine ⟨fun q b hb => ?_, (Grows.refl s).recovery, List.prefix_rfl, (Grows.refl s).rollbacks,
    List.prefix_rfl⟩
  by_cases hq : q = r
  · subst hq
    exact ⟨a, by simp [putArtifact], h b hb⟩
  · exact ⟨b, by simpa [putArtifact, hq] using hb, .refl b⟩

theorem putArtifact_within (r : RunId) (a : DeploymentArtifact) (s : World τ) :
    Within r s (putArtifact r a s) :=
  fun _ hq => ⟨rfl, by simp [putArtifact, hq], rfl, rfl⟩

theorem intent_touches (bound : BoundAction) (before : IndexState) (action : CreateIndexAction) :
    Does (τ := τ) (TouchesArtifact bound.runId) (intent bound before action) := by
  refine Process.Always.atomic _ _ (fun s o s' h => ⟨⟨rfl, ?_⟩, trivial⟩)
    (fun s _ _ => ⟨⟨rfl, rfl, .refl _ s, .refl s⟩, trivial⟩)
  rcases intentRow_ok h with ⟨-, -, -, rfl⟩ | ⟨hnone, -, -, rfl⟩
  · exact ⟨rfl, .refl _ _, .refl _⟩
  · exact ⟨rfl, putArtifact_within _ _ s, putArtifact_grows (by simp [hnone])⟩

theorem markApplied_touches (r : RunId) (after : IndexState) :
    Does (τ := τ) (TouchesArtifact r) (markApplied r after) := by
  refine Process.Always.atomic _ _ (fun s o s' h => ⟨⟨rfl, ?_⟩, trivial⟩)
    (fun s _ _ => ⟨⟨rfl, rfl, .refl r s, .refl s⟩, trivial⟩)
  obtain ⟨a, ha, rfl, rfl⟩ := markAppliedRow_ok h
  refine ⟨rfl, putArtifact_within _ _ s, putArtifact_grows (fun old hold => ?_)⟩
  rw [ha] at hold
  cases hold
  exact ⟨rfl, fun _ => rfl⟩

/-- One action of a call for the run, under the lock or outside of it: it writes the services' own
tables, for that run, and reaches the target in its name. -/
structure Works (A : DatabaseAdapter τ) (r : RunId) (l : Label) (s t : World τ) : Prop where
  frame : t = { s with
    runs := t.runs, artifacts := t.artifacts, recovery := t.recovery, ledger := t.ledger
    rollbacks := t.rollbacks, db := t.db, calls := t.calls }
  sameRuns : SameRuns s t
  within : Within r s t
  grows : Grows s t
  quiet : l.mutates = none → t.db = s.db ∧ t.calls = s.calls
  create : ∀ q ns x, l = .createIndex q ns x → q = r ∧ t = s.create A r ns x
  drop : ∀ q ns name, l = .dropIndex q ns name → q = r ∧ t = s.drop A r ns name

/-- What a deployment of the run may do. -/
def Deploys (r : RunId) (l : Label) (s t : World τ) : Prop :=
  (l.mutates = none ∨ ∃ ns x, l = .createIndex r ns x) ∧ t.rollbacks = s.rollbacks

/-- What a rollback of the run may do, where it `may` drop at all. -/
def RollsBack (may : Prop) (r : RunId) (l : Label) (s t : World τ) : Prop :=
  (l.mutates = none ∨ may ∧ ∃ ns name, l = .dropIndex r ns name) ∧ t.runs = s.runs ∧
    t.artifacts = s.artifacts ∧ t.recovery = s.recovery

/-- A service works for its run, and only as `P` has it. -/
def Operates (A : DatabaseAdapter τ) (P : RunId → Label → World τ → World τ → Prop) (r : RunId)
    (l : Label) (s t : World τ) : Prop :=
  P r l s t ∧ Works A r l s t

theorem Works.of_quiet {A : DatabaseAdapter τ} {r : RunId} {l : Label} {s t : World τ}
    (hl : l.mutates = none)
    (hframe : t = { s with
      runs := t.runs, artifacts := t.artifacts, recovery := t.recovery, ledger := t.ledger
      rollbacks := t.rollbacks })
    (hsame : SameRuns s t) (hwithin : Within r s t) (hgrows : Grows s t) : Works A r l s t := by
  have hdb : t.db = s.db := by rw [hframe]
  have hcalls : t.calls = s.calls := by rw [hframe]
  refine ⟨?_, hsame, hwithin, hgrows, fun _ => ⟨hdb, hcalls⟩, ?_, ?_⟩
  · rw [hdb, hcalls]
    exact hframe
  · rintro q ns x rfl
    cases hl
  · rintro q ns name rfl
    cases hl

section

variable {A : DatabaseAdapter τ} {P : RunId → Label → World τ → World τ → Prop} {r : RunId}
  {α : Type} {p : Proc τ α}

theorem Does.operates {keeps : World τ → World τ → Prop} (hp : Does (Touches keeps) p)
    (hP : ∀ l s t, l.mutates = none → keeps s t → P r l s t)
    (hk : ∀ l s t, l.mutates = none → keeps s t → Works A r l s t) : Does (Operates A P r) p :=
  Process.Always.mono hp (fun l s t h => ⟨hP l s t h.1 h.2, hk l s t h.1 h.2⟩) (fun _ h => h)

/-- Both services read and append to the ledger. -/
structure Logs (P : RunId → Label → World τ → World τ → Prop) : Prop where
  logs : ∀ r l s t, l.mutates = none → t = { s with ledger := t.ledger } → P r l s t

theorem Deploys.logs : Logs (τ := τ) Deploys := ⟨fun _ _ _ _ hl h => ⟨.inl hl, by rw [h]⟩⟩

theorem RollsBack.logs (may : Prop) : Logs (τ := τ) (RollsBack may) :=
  ⟨fun _ _ _ _ hl h => ⟨.inl hl, by rw [h], by rw [h], by rw [h]⟩⟩

theorem Works.refl {l : Label} (hl : l.mutates = none) (s : World τ) : Works A r l s s :=
  .of_quiet hl rfl (fun _ => rfl) (.refl r s) (.refl s)

theorem Logs.reads (hP : Logs P) (hp : Does Reads p) : Does (Operates A P r) p :=
  Does.operates hp (fun l s t hl h => hP.logs r l s t hl (by rw [h]))
    (fun _ _ _ hl h => by subst h; exact .refl hl _)

theorem Logs.appends (hP : Logs P) (hp : Does (TouchesLedger r) p) : Does (Operates A P r) p :=
  Does.operates hp (fun l s t hl h => hP.logs r l s t hl h.1)
    (fun _ _ _ hl h => .of_quiet hl (by rw [h.1]) (fun _ => by rw [h.1]) h.2.1 h.2.2)

theorem Deploys.run {next : RunStatus} (hp : Does (TouchesRun r next) p) :
    Does (Operates A Deploys r) p :=
  Does.operates hp (fun _ _ _ hl h => ⟨.inl hl, by rw [h.1]⟩) (fun _ _ _ hl h =>
    .of_quiet hl (by rw [h.1]) h.2.1 h.2.2.1 (by rw [h.1]; exact .of_eq rfl rfl rfl rfl List.prefix_rfl))

theorem Deploys.artifact (hp : Does (TouchesArtifact r) p) : Does (Operates A Deploys r) p :=
  Does.operates hp (fun _ _ _ hl h => ⟨.inl hl, by rw [h.1]⟩)
    (fun _ _ _ hl h => .of_quiet hl (by rw [h.1]) (fun _ => by rw [h.1]) h.2.1 h.2.2)

theorem Deploys.recovery (hp : Does TouchesRecovery p) : Does (Operates A Deploys r) p :=
  Does.operates hp (fun _ _ _ hl h => ⟨.inl hl, by rw [h.1]⟩) (fun _ _ _ hl h =>
    .of_quiet hl (by rw [h.1]) (fun _ => by rw [h.1])
      (by rw [h.1]; exact fun _ _ => ⟨rfl, rfl, rfl, rfl⟩) h.2)

theorem RollsBack.records (may : Prop) (hp : Does TouchesRollbacks p) :
    Does (Operates A (RollsBack may) r) p :=
  Does.operates hp (fun _ _ _ hl h => ⟨.inl hl, by rw [h.1], by rw [h.1], by rw [h.1]⟩)
    (fun _ _ _ hl h => .of_quiet hl (by rw [h.1]) (fun _ => by rw [h.1])
      (by rw [h.1]; exact fun _ _ => ⟨rfl, rfl, rfl, rfl⟩) h.2)

end

theorem RollsBack.any {A : DatabaseAdapter τ} {may : Prop} {r : RunId} {α : Type} {p : Proc τ α}
    (hp : Does (Operates A (RollsBack may) r) p) : Does (Operates A (RollsBack True) r) p :=
  Process.Always.mono hp (fun _ _ _ h =>
    ⟨⟨h.1.1.imp_right (fun hd => ⟨trivial, hd.2⟩), h.1.2⟩, h.2⟩) (fun _ h => h)

section

variable (A : DatabaseAdapter τ) (worker : WorkerId)

theorem create_grows (r : RunId) (ns : Namespace) (x : IndexSpec) (s : World τ) :
    Grows s (s.create A r ns x) := by
  have hframe := s.create_frame A r ns x
  obtain ⟨_, hcalls⟩ := s.create_calls A r ns x
  exact .of_eq (by rw [hframe]) (by rw [hframe]) (by rw [hframe]) (by rw [hframe])
    (hcalls ▸ List.prefix_append _ _)

theorem drop_grows (r : RunId) (ns : Namespace) (name : String) (s : World τ) :
    Grows s (s.drop A r ns name) := by
  have hframe := s.drop_frame A r ns name
  obtain ⟨_, hcalls⟩ := s.drop_calls A r ns name
  exact .of_eq (by rw [hframe]) (by rw [hframe]) (by rw [hframe]) (by rw [hframe])
    (hcalls ▸ List.prefix_append _ _)

theorem createIndex_operates (r : RunId) (ns : Namespace) (x : IndexSpec) :
    Does (Operates A Deploys r) (createIndex A r ns x) := by
  refine fun s => ⟨⟨⟨.inr ⟨ns, x, rfl⟩, by rw [World.create_frame]⟩, ?_⟩, ?_⟩
  · have hframe := s.create_frame A r ns x
    obtain ⟨outcome, hcalls⟩ := s.create_calls A r ns x
    refine ⟨?_, fun _ => by rw [hframe], fun q hq => ?_, create_grows A r ns x s,
      by simp [Label.mutates], ?_, by simp⟩
    · unfold World.create
      split <;> rfl
    · refine ⟨by rw [hframe], by rw [hframe], by rw [hframe]; rfl, ?_⟩
      rw [World.callsOf_snoc hcalls]
      simp [Ne.symm hq]
    · rintro q ns' x' ⟨⟩
      exact ⟨rfl, rfl⟩
  · dsimp only
    split <;> trivial

theorem dropIndex_operates {may : Prop} (hmay : may) (r : RunId) (ns : Namespace) (name : String) :
    Does (Operates A (RollsBack may) r) (dropIndex A r ns name) := by
  refine fun s => ⟨⟨⟨.inr ⟨hmay, ns, name, rfl⟩, by rw [World.drop_frame], by rw [World.drop_frame],
    by rw [World.drop_frame]⟩, ?_⟩, ?_⟩
  · have hframe := s.drop_frame A r ns name
    obtain ⟨outcome, hcalls⟩ := s.drop_calls A r ns name
    refine ⟨?_, fun _ => by rw [hframe], fun q hq => ?_, drop_grows A r ns name s,
      by simp [Label.mutates], by simp, ?_⟩
    · unfold World.drop
      split <;> rfl
    · refine ⟨by rw [hframe], by rw [hframe], by rw [hframe]; rfl, ?_⟩
      rw [World.callsOf_snoc hcalls]
      simp [Ne.symm hq]
    · rintro q ns' name' ⟨⟩
      exact ⟨rfl, rfl⟩
  · dsimp only
    split <;> trivial

theorem recordApplied_operates (bound : BoundAction) (before : IndexState)
    (action : CreateIndexAction) :
    Does (Operates A Deploys bound.runId) (recordApplied A worker bound before action) := by
  unfold recordApplied
  refine Does.bind (Deploys.logs.reads (state_reads A _ _ _)) (fun after => ?_)
  refine Does.bind (guardAll_does _) (fun _ => ?_)
  refine Does.bind (Deploys.artifact (markApplied_touches _ _)) (fun persisted => ?_)
  refine Does.bind (Deploys.logs.appends (append_touches _)) (fun _ => ?_)
  refine Does.bind (Deploys.logs.reads (ensureLeaseOwned_reads _)) (fun _ => ?_)
  exact Does.bind (Deploys.run (finishDeploying_touches _)) (fun _ => trivial)

open Recovery in
theorem executeOrRecover_operates (r : RunId) (action : CreateIndexAction) (key : IdempotencyKey) :
    Does (Operates A Deploys r)
      (executeOrRecover key (exactEffect A r action) (mutation A worker r action)) := by
  unfold executeOrRecover
  refine Does.bind (Deploys.recovery (beginExecution_touches _)) (fun o => ?_)
  cases o with
  | none => trivial
  | some expected =>
    refine Does.bind (Deploys.logs.reads (exactEffect_reads A _ _ _)) (fun effect => ?_)
    refine Does.bind ?_ (fun _ => Deploys.recovery (confirmExecution_touches _))
    unfold Process.when
    split
    · exact Does.bind (Deploys.logs.reads (ensureLeaseOwned_reads _)) (fun _ => createIndex_operates A r _ _)
    · trivial

theorem applyIntent_operates (bound : BoundAction) (before : IndexState)
    (action : CreateIndexAction) (artifact : DeploymentArtifact) (intentCreated : Bool) :
    Does (Operates A Deploys bound.runId)
      (applyIntent A worker bound before action artifact intentCreated) := by
  unfold applyIntent
  refine Does.bind (Deploys.recovery (recordIntent_touches _ _ _ _)) (fun _ => ?_)
  refine Does.bind ?_ (fun _ => ?_)
  · unfold Process.when
    split
    · exact Deploys.logs.appends (append_touches _)
    · trivial
  · refine Does.bind (Deploys.logs.reads (ensureLeaseOwned_reads _)) (fun _ => ?_)
    refine Does.bind (executeOrRecover_operates A worker bound.runId action _) (fun _ => ?_)
    refine Does.bind (Deploys.logs.reads (ensureLeaseOwned_reads _)) (fun _ => ?_)
    exact recordApplied_operates A worker bound before action

theorem deployLocked_operates (bound : BoundAction) :
    Does (Operates A Deploys bound.runId) (deployLocked A worker bound) := by
  unfold deployLocked
  refine Does.bind (Does.ofExcept _) (fun action => ?_)
  refine Does.bind (Deploys.logs.reads (state_reads A _ _ _)) (fun before => ?_)
  refine Does.bind (Deploys.artifact (intent_touches _ _ _)) (fun x => ?_)
  refine Does.bind (Deploys.run (enterDeploying_touches _)) (fun _ => ?_)
  split
  · exact Does.bind (Deploys.run (reconcileApplied_touches _ _ _)) (fun _ => trivial)
  · exact applyIntent_operates A worker bound before action _ _

theorem finalizeRecord_operates (bound : BoundRollback) (before after : IndexState)
    (action : CreateIndexAction) (may : Prop) :
    Does (Operates A (RollsBack may) bound.runId) (finalizeRecord bound before after action) := by
  unfold finalizeRecord
  refine Does.bind ((RollsBack.logs _).reads (rollbackLedgerExists_reads _)) (fun recorded => ?_)
  refine Does.bind ?_ (fun _ => RollsBack.records _ (record_touches _ _ _))
  unfold Process.when
  split
  · exact (RollsBack.logs _).appends (append_touches _)
  · trivial

theorem rollbackLocked_operates (bound : BoundRollback) :
    Does (Operates A (RollsBack (bound.artifact.afterState ≠ none)) bound.runId)
      (rollbackLocked A bound) := by
  unfold rollbackLocked
  refine Does.bind (Does.ofExcept _) (fun action => ?_)
  refine Does.bind ((RollsBack.logs _).reads (state_reads A _ _ _)) (fun state => ?_)
  refine Does.bind ((RollsBack.logs _).reads (Does.read rfl _)) (fun intent => ?_)
  split
  · exact Does.bind (finalizeRecord_operates _ _ _ _ _ _) (fun _ => trivial)
  · split
    · exact Does.bind (RollsBack.records _ (record_touches _ _ _)) (fun _ => trivial)
    · next hreason =>
      have hafter : bound.artifact.afterState ≠ none := by simp [(safeReason_none hreason).1]
      unfold dropOwned
      refine Does.bind (RollsBack.records _ (record_touches _ _ _)) (fun _ => ?_)
      refine Does.bind (dropIndex_operates A hafter _ _ _) (fun _ => ?_)
      refine Does.bind ((RollsBack.logs _).reads (state_reads A _ _ _)) (fun after => ?_)
      split
      · exact Does.bind (RollsBack.records _ (record_touches _ _ _)) (fun _ => trivial)
      · exact Does.bind (finalizeRecord_operates _ _ _ _ _ _) (fun _ => trivial)

/-- An action of a whole call: the call's own work, or a move of the lock. -/
def Acts (A : DatabaseAdapter τ) (P : RunId → Label → World τ → World τ → Prop) (r : RunId)
    (l : Label) (s t : World τ) : Prop :=
  Operates A P r l s t ∨ TouchesLocks l s t

theorem Acts.grows {P : RunId → Label → World τ → World τ → Prop} {r : RunId} {l : Label}
    {s t : World τ} (h : Acts A P r l s t) : Grows s t := by
  rcases h with ⟨-, h⟩ | ⟨-, h⟩
  · exact h.grows
  · have hcalls : t.calls = s.calls := by rw [h]
    exact .of_eq (by rw [h]) (by rw [h]) (by rw [h]) (by rw [h]) (hcalls ▸ List.prefix_rfl)

theorem Does.acts {P : RunId → Label → World τ → World τ → Prop} {r : RunId} {α : Type}
    {p : Proc τ α}
    (hp : Does (Operates A P r) p) : Does (Acts A P r) p :=
  Process.Always.mono hp (fun _ _ _ h => .inl h) (fun _ h => h)

theorem Does.locks {P : RunId → Label → World τ → World τ → Prop} {r : RunId} {α : Type}
    {p : Proc τ α}
    (hp : Does TouchesLocks p) : Does (Acts A P r) p :=
  Process.Always.mono hp (fun _ _ _ h => .inr h) (fun _ h => h)

theorem deployBound_acts (bound : BoundAction) :
    Does (Acts A Deploys bound.runId) (deployBound A worker bound) := by
  unfold deployBound
  refine Does.bind (Does.locks A (tryAcquire_touches _ _ _)) (fun acquired => ?_)
  cases acquired with
  | false => trivial
  | true =>
    refine Does.onExit ?_ (Does.locks A (release_touches _ _ _ _))
    refine Does.bind (Does.acts A (Deploys.logs.reads (ensureLeaseOwned_reads _))) (fun _ => ?_)
    exact Does.acts A (deployLocked_operates A worker bound)

theorem deployForRun_acts (r : RunId) : Does (Acts A Deploys r) (deployForRun A worker r) := by
  unfold deployForRun
  refine Does.bind (Does.acts A (Deploys.logs.reads (ensureLeaseOwned_reads _))) (fun _ => ?_)
  refine Process.Always.bind (Q := fun x => ∀ bound, x = .ok bound → bound.runId = r) ?_
    (fun bound hbound => ?_) (fun _ _ => trivial)
  · refine (loadBoundAction_reads r).mono (fun l s t h => .inl ⟨⟨.inl h.1, by rw [h.2]⟩, ?_⟩)
      (fun _ h => h)
    obtain ⟨hl, rfl⟩ := h
    exact .refl hl _
  · obtain rfl := hbound bound rfl
    exact deployBound_acts A worker bound

theorem boundRollback_runId {s : World τ} {r : RunId} {bound : BoundRollback}
    (h : boundRollback s r = some bound) : bound.runId = r := by
  simp only [boundRollback, Option.bind_eq_bind, Option.bind_eq_some_iff] at h
  obtain ⟨_, -, _, -, _, -, _, -, _, -, h⟩ := h
  cases h
  rfl

theorem boundRollback_run {s : World τ} {r : RunId} {bound : BoundRollback}
    (h : boundRollback s r = some bound) :
    ∃ run, s.runs r = some run ∧ bound.targetId = run.targetId := by
  simp only [boundRollback, Option.bind_eq_bind, Option.bind_eq_some_iff] at h
  obtain ⟨run, hrun, _, -, _, -, _, -, _, -, h⟩ := h
  cases h
  exact ⟨run, hrun, rfl⟩

theorem rollbackForRun_acts (r : RunId) :
    Does (Acts A (RollsBack True) r) (rollbackForRun A worker r) := by
  unfold rollbackForRun
  refine Process.Always.bind (Q := fun x => ∀ bound, x = .ok (some bound) → bound.runId = r)
    (fun s => ⟨.inl ⟨⟨.inl rfl, rfl, rfl, rfl⟩, .refl rfl s⟩,
      fun bound h => boundRollback_runId (by simpa using h)⟩)
    (fun row hrow => ?_) (fun _ _ => trivial)
  cases row with
  | none => trivial
  | some bound =>
    obtain rfl := hrow bound rfl
    refine Does.bind (Does.acts A ((RollsBack.logs _).reads (Does.read rfl _))) (fun recorded => ?_)
    split
    · trivial
    · refine Does.bind (Does.locks A (tryAcquire_touches _ _ _)) (fun acquired => ?_)
      cases acquired with
      | false => trivial
      | true =>
        exact Does.onExit (Does.acts A (RollsBack.any (rollbackLocked_operates A bound)))
          (Does.locks A (release_touches _ _ _ _))

end

end NoSQLOptimizer.Production
