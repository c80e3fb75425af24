import NoSQLOptimizer.Concurrency.Triple
import NoSQLOptimizer.ControlPlane.Prepared
import NoSQLOptimizer.Production.Footprints

namespace NoSQLOptimizer.Production

open Adapters Actions ControlPlane Concurrency Recovery Rollback Runs

variable {τ : Type}

/-- `create_index` was called for the run's index. -/
def Created (s : World τ) (r : RunId) (action : CreateIndexAction) : Prop :=
  ∃ outcome n, AdapterCall.create r action.toNamespace action.toIndexSpec outcome n ∈ s.calls

theorem Created.grows {s t : World τ} {r : RunId} {action : CreateIndexAction}
    (h : Created s r action) (hg : Grows s t) : Created t r action :=
  h.imp (fun _ h => h.imp (fun _ h => hg.calls.subset h))

/-- Among `earlier` calls the run made this index, and its artifact records that the index was not
there when the deployment first looked. -/
def OwnedBy (s : World τ) (earlier : List AdapterCall) (r : RunId) (ns : Namespace)
    (name : String) : Prop :=
  ∃ artifact action, s.artifacts r = some artifact ∧ artifact.actionFingerprint = ⟨action⟩ ∧
    ns = action.toNamespace ∧ name = action.indexName ∧
    hasExactIndex artifact.beforeState action = false ∧
    ∃ outcome n, AdapterCall.create r ns action.toIndexSpec outcome n ∈ earlier

/-- Every drop is of an index that the same run made before. -/
def OwnedDrops (s : World τ) : Prop :=
  ∀ earlier later r ns name outcome,
    s.calls = earlier ++ AdapterCall.drop r ns name outcome :: later → OwnedBy s earlier r ns name

/-- The artifact agrees with what the run really observed and called. -/
structure Faithful (s : World τ) (r : RunId) (a : DeploymentArtifact) : Prop where
  key : a.idempotencyKey = ⟨r, a.candidateFingerprint, a.actionFingerprint⟩
  unadopted : hasExactIndex a.beforeState a.actionFingerprint.document = false
  applied : a.afterState ≠ none → Created s r a.actionFingerprint.document

structure Recorded (s : World τ) : Prop where
  artifact : ∀ r a, s.artifacts r = some a → Faithful s r a
  confirmed : ∀ key row, s.recovery key = some row → row.state = .executionConfirmed →
    Created s key.runId key.actionFingerprint.document
  drops : OwnedDrops s

theorem OwnedDrops.grows {s t : World τ} (h : OwnedDrops s) (hg : Grows s t)
    (hc : t.calls = s.calls) : OwnedDrops t := by
  intro earlier later r ns name outcome hcalls
  obtain ⟨a, action, ha, hf, hns, hname, hbefore, hcreate⟩ :=
    h earlier later r ns name outcome (hc ▸ hcalls)
  obtain ⟨b, hb, hab⟩ := hg.artifacts r a ha
  exact ⟨b, action, hb, by rw [hab.row]; exact hf, hns, hname, by rw [hab.row]; exact hbefore, hcreate⟩

theorem OwnedDrops.snoc {s t : World τ} {call : AdapterCall} (h : OwnedDrops s)
    (ha : t.artifacts = s.artifacts) (hc : t.calls = s.calls ++ [call])
    (hcall : ∀ r ns name outcome, call = .drop r ns name outcome → OwnedBy s s.calls r ns name) :
    OwnedDrops t := by
  intro earlier later r ns name outcome hcalls
  rw [hc] at hcalls
  simp only [OwnedBy, ha]
  rcases List.eq_nil_or_concat later with rfl | ⟨later, last, rfl⟩
  · obtain ⟨rfl, hlast⟩ := List.append_inj' hcalls rfl
    exact hcall r ns name outcome (by simpa using hlast)
  · have hcalls' : s.calls ++ [call] = (earlier ++ .drop r ns name outcome :: later) ++ [last] := by
      simpa using hcalls
    obtain ⟨hinit, -⟩ := List.append_inj' hcalls' rfl
    exact h earlier later r ns name outcome hinit

theorem Recorded.putRecovery {s : World τ} {key : IdempotencyKey} {row : RecoveryRecord}
    (hs : Recorded s)
    (h : row.state = .executionConfirmed → Created s key.runId key.actionFingerprint.document) :
    Recorded (Recovery.put key row s) := by
  refine ⟨fun q a ha => ⟨(hs.artifact q a ha).key, (hs.artifact q a ha).unadopted,
    (hs.artifact q a ha).applied⟩, fun k b hb hstate => ?_, hs.drops⟩
  by_cases hk : k = key
  · subst hk
    cases (by simpa [Recovery.put] using hb : row = b)
    exact h hstate
  · exact hs.confirmed k b (by simpa [Recovery.put, hk] using hb) hstate

theorem Recorded.put {s : World τ} {r : RunId} {a : DeploymentArtifact} (hs : Recorded s)
    (h : ∀ old, s.artifacts r = some old → Advances old a) (ha : Faithful s r a) :
    Recorded (putArtifact r a s) := by
  refine ⟨fun q b hb => ?_, hs.confirmed, hs.drops.grows (putArtifact_grows h) rfl⟩
  by_cases hq : q = r
  · subst hq
    cases (by simpa [putArtifact] using hb : a = b)
    exact ⟨ha.key, ha.unadopted, ha.applied⟩
  · have hf := hs.artifact q b (by simpa [putArtifact, hq] using hb)
    exact ⟨hf.key, hf.unadopted, hf.applied⟩

/-- A look that decides on ownership does not see the exact index while the run has not yet made
it: the first observation, and the probe for the effect. -/
def Unadopted (A : DatabaseAdapter τ) (s : World τ) : Label → Prop
  | .listIndexes r .before ns x =>
    s.artifacts r = none → exactlyOnce x (A.listIndexes s.db ns) = false
  | .listIndexes r .effect ns x =>
    s.createCalled r ns x = false → exactlyOnce x (A.listIndexes s.db ns) = false
  | _ => True

instance (A : DatabaseAdapter τ) (s : World τ) (l : Label) : Decidable (Unadopted A s l) := by
  unfold Unadopted
  split <;> infer_instance

def unadopted (A : DatabaseAdapter τ) : (services A).Conduct where
  acts _ l s := Unadopted A s l
  env := External

namespace Ownership

def discipline (A : DatabaseAdapter τ) : Discipline (unadopted A) where
  inv := Recorded
  grows := Grows
  rely _ := Grows
  rely_grows h := h
  idle _ _ := True
  refl _ := Grows.refl
  trans := Grows.trans
  idle_stable _ _ := trivial

variable {A : DatabaseAdapter τ} {i : WorkerId}

theorem admits {s t : World τ} (h : Recorded t) (hg : Grows s t) : (discipline A).Admits i s t :=
  ⟨h, hg, fun _ _ => hg⟩

/-- Moves that leave artifacts, recovery keys and calls as they are. -/
theorem neutral {s t : World τ} (hg : Grows s t) (ha : t.artifacts = s.artifacts)
    (hr : t.recovery = s.recovery) (hc : t.calls = s.calls) (h : Recorded s) :
    (discipline A).Neutral s t := by
  refine ⟨⟨fun r a h' => ?_, fun key row h' hrow => ?_, h.drops.grows hg hc⟩, fun _ => hg⟩
  · have hf := h.artifact r a (ha ▸ h')
    exact ⟨hf.key, hf.unadopted, fun hn => (hf.applied hn).grows hg⟩
  · exact (h.confirmed key row (hr ▸ h') hrow).grows hg

theorem crashable (K : World τ → Prop) : (discipline A).Crashable i K :=
  fun _ s hs _ _ =>
    ⟨(neutral (A := A) (s := s) (t := s.endSession i) (.of_eq rfl rfl rfl rfl List.prefix_rfl) rfl
      rfl rfl hs).admits, trivial⟩

theorem quiet (e : Error) : (discipline A).Stable i ((fun _ _ => True : Error → World τ → Prop) e) :=
  Discipline.Stable.const _

/-- The run has its artifact, and it is for this action. -/
def Bound (r : RunId) (action : CreateIndexAction) (s : World τ) : Prop :=
  ∃ a, s.artifacts r = some a ∧ a.actionFingerprint = ⟨action⟩

theorem bound_permanent (r : RunId) (action : CreateIndexAction) :
    (discipline A).Permanent (Bound r action) := by
  rintro s t hg - ⟨a, ha, hf⟩
  obtain ⟨b, hb, hab⟩ := hg.artifacts r a ha
  exact ⟨b, hb, by rw [hab.row]; exact hf⟩

theorem created_permanent (r : RunId) (action : CreateIndexAction) :
    (discipline A).Permanent (fun s => Created s r action) :=
  fun _ _ hg _ h => h.grows hg

/-- The first observation, as long as no artifact records another. -/
def FirstLook (r : RunId) (action : CreateIndexAction) (before : IndexState) (s : World τ) : Prop :=
  s.artifacts r = none → hasExactIndex before action = false

theorem firstLook_stable (r : RunId) (action : CreateIndexAction) (before : IndexState) :
    (discipline A).Stable i (FirstLook r action before) := by
  intro s t hg _ h hn
  refine h ?_
  cases hs : s.artifacts r with
  | none => rfl
  | some a =>
    obtain ⟨b, hb, -⟩ := hg.artifacts r a hs
    rw [hn] at hb
    cases hb

theorem reads {α : Type} {p : Proc τ α} {K : World τ → Prop} (hp : Does Reads p)
    (hK : (discipline A).Stable i K) :
    (discipline A).Triple i K p (fun _ => K) (fun _ _ => True) :=
  .still (hp.mono (fun _ _ _ h => h.2) (fun _ h => h)) hK (crashable K) (fun _ _ _ _ h => h)
    (fun _ _ _ _ _ => trivial)

theorem before_spec (r : RunId) (action : CreateIndexAction) :
    (discipline A).Triple i (fun _ => True) (state A r .before action)
      (FirstLook r action) (fun _ _ => True) := by
  unfold state
  refine .bind (reads (Does.read rfl _) (.const _)) (fun namespaces => ?_)
  split
  · refine .bind (Q := fun indexes s => s.artifacts r = none →
      exactlyOnce action.toIndexSpec indexes = false) ?_ (fun indexes => ?_)
    · exact .read (.const _) (crashable _) (fun a => firstLook_stable r action ⟨"", "", true, a⟩)
        (fun s _ _ hl => hl)
    · exact .ret (firstLook_stable r action ⟨"", "", true, indexes⟩) (fun s _ h => h)
  · exact .ret (.const _) (fun s _ _ _ => rfl)

theorem intent_spec (bound : BoundAction) (before : IndexState) (action : CreateIndexAction) :
    (discipline A).Triple i (FirstLook bound.runId action before) (intent bound before action)
      (fun x s => Bound bound.runId action s ∧ x.1.idempotencyKey = bound.idempotencyKey action)
      (fun _ _ => True) := by
  refine .atomic (firstLook_stable _ _ _) (crashable _)
    (fun x => (bound_permanent _ _).stable.and (.const _)) quiet (fun s x t hs hk _ hT => ?_)
    (fun _ _ _ _ _ _ => trivial)
  obtain ⟨a, created⟩ := x
  rcases intentRow_ok hT with ⟨hex, howns, -, rfl⟩ | ⟨hnone, rfl, -, rfl⟩
  · simp only [BoundAction.owns, Bool.and_eq_true, decide_eq_true_eq] at howns
    refine ⟨(Discipline.Neutral.refl hs).admits, ⟨a, hex, howns.2⟩, ?_⟩
    rw [(hs.artifact _ _ hex).key, howns.1.2, howns.2]
    rfl
  · have hnew : ∀ old, s.artifacts bound.runId = some old →
        Advances old (bound.newArtifact before action) := by simp [hnone]
    refine ⟨admits (hs.put hnew ⟨rfl, hk hnone, fun h => absurd rfl h⟩) (putArtifact_grows hnew), ?_, rfl⟩
    exact ⟨bound.newArtifact before action, by simp [putArtifact], rfl⟩

/-- Recovery keys are nobody's concern but their rows must be right. -/
theorem putRecovery_neutral {s : World τ} {key : IdempotencyKey} {row : RecoveryRecord}
    (hs : Recorded s)
    (hold : ∀ old, s.recovery key = some old → row.expectedFingerprint = old.expectedFingerprint)
    (h : row.state = .executionConfirmed → Created s key.runId key.actionFingerprint.document) :
    (discipline A).Neutral s (Recovery.put key row s) :=
  ⟨hs.putRecovery h, fun _ => .putRecovery hold⟩

theorem recordIntent_spec {K : World τ → Prop} (hK : (discipline A).Stable i K)
    (key : IdempotencyKey) (actionId : Nat) (t : TargetId) (expected : ActionFingerprint) :
    (discipline A).Triple i K (recordIntent key actionId t expected) (fun _ => K)
      (fun _ _ => True) := by
  refine .modify hK (crashable K) hK (fun s hs hk _ => ?_)
  split
  · exact ⟨(Discipline.Neutral.refl hs).admits, hk⟩
  · next hnone =>
    have hn : (discipline A).Neutral s
        (Recovery.put key ⟨actionId, t, expected, .intentRecorded⟩ s) :=
      putRecovery_neutral hs (by simp [hnone]) (fun h => by cases h)
    exact ⟨hn.admits, hK (hn.2 i) hn.1 hk⟩

/-- Execution that is confirmed already has called `create_index`. -/
theorem beginExecution_spec (key : IdempotencyKey) :
    (discipline A).Triple i (fun _ => True) (beginExecution key)
      (fun o s => o = none → Created s key.runId key.actionFingerprint.document)
      (fun _ _ => True) := by
  refine .atomic (.const _) (crashable _) (fun o => (created_permanent _ _).stable.imp) quiet
    (fun s o t hs _ _ hT => ?_) (fun _ _ _ _ _ _ => trivial)
  obtain ⟨row, hrow, ⟨hconf, -, rfl⟩ | ⟨rfl, rfl⟩⟩ := beginRow_ok hT
  · exact ⟨(Discipline.Neutral.refl hs).admits, fun _ => hs.confirmed _ _ hrow hconf⟩
  · exact ⟨(putRecovery_neutral hs (by simp [hrow]) (by simp)).admits, by simp⟩

theorem confirmExecution_spec (key : IdempotencyKey) :
    (discipline A).Triple i (fun s => Created s key.runId key.actionFingerprint.document)
      (confirmExecution key)
      (fun _ s => Created s key.runId key.actionFingerprint.document) (fun _ _ => True) := by
  refine .modify (created_permanent _ _).stable (crashable _) (created_permanent _ _).stable (fun s hs hk _ => ?_)
  split
  · exact ⟨(Discipline.Neutral.refl hs).admits, hk⟩
  · next row hrow =>
    have hn : (discipline A).Neutral s
        (Recovery.put key { row with state := .executionConfirmed } s) :=
      putRecovery_neutral hs (by simp [hrow]) (fun _ => hk)
    exact ⟨hn.admits, hk.grows (hn.2 i)⟩

theorem ensureLeaseOwned_spec {K : World τ → Prop} (hK : (discipline A).Stable i K) :
    (discipline A).Triple i K (ensureLeaseOwned i) (fun _ => K) (fun _ _ => True) :=
  reads (ensureLeaseOwned_reads i) hK

/-- The probe finds the effect only where `create_index` was called before. -/
theorem exactEffect_spec (r : RunId) (action : CreateIndexAction) (expected : ActionFingerprint) :
    (discipline A).Triple i (fun _ => True) (exactEffect A r action expected)
      (fun effect s => effect = true → Created s r action) (fun _ _ => True) := by
  refine .bind (Q := fun effect s => hasExactIndex effect action = true → Created s r action) ?_
    (fun effect => .ret (created_permanent r action).stable.imp (fun s _ h he => h ?_))
  · unfold state
    refine .bind (reads (Does.read rfl _) (.const _)) (fun namespaces => ?_)
    split
    · refine .bind (Q := fun indexes s => exactlyOnce action.toIndexSpec indexes = true →
        Created s r action) ?_ (fun indexes => .ret (created_permanent r action).stable.imp (fun s _ h => h))
      refine .read (.const _) (crashable _) (fun _ => (created_permanent r action).stable.imp)
        (fun s _ _ hl hshown => ?_)
      by_contra hno
      have hnone := hl (Bool.eq_false_iff.mpr (fun hcalled => hno (World.createCalled_iff.mp hcalled)))
      rw [hshown] at hnone
      cases hnone
    · exact .ret (.const _) (fun s _ _ hshown => by cases hshown)
  · exact ((Bool.and_eq_true _ _).mp he).2

theorem mutation_spec (r : RunId) (action : CreateIndexAction) :
    (discipline A).Triple i (fun _ => True) (mutation A i r action)
      (fun _ s => Created s r action) (fun _ _ => True) := by
  refine .bind (ensureLeaseOwned_spec (.const _)) (fun _ => ?_)
  refine .act (.const _) (crashable _) (fun s hs _ _ => ?_)
  obtain ⟨outcome, hcalls⟩ := s.create_calls A r action.toNamespace action.toIndexSpec
  have hframe := s.create_frame A r action.toNamespace action.toIndexSpec
  set t := s.create A r action.toNamespace action.toIndexSpec
  have hg : Grows s t := create_grows A r _ _ s
  have hcreated : Created t r action := ⟨outcome, s.ledger.length, by simp [hcalls]⟩
  refine ⟨admits ⟨fun q a ha => ?_, fun key row hrow hstate => ?_, ?_⟩ hg, ?_⟩
  · have hf := hs.artifact q a (by rw [hframe] at ha; exact ha)
    exact ⟨hf.key, hf.unadopted, fun hn => (hf.applied hn).grows hg⟩
  · exact (hs.confirmed key row (by rw [hframe] at hrow; exact hrow) hstate).grows hg
  · exact hs.drops.snoc (by rw [hframe]) hcalls (by simp)
  · refine (Discipline.Triple.pre (K := fun s => Created s r action) ?_
      (by rintro _ _ rfl; exact hcreated))
    split
    · exact .ret (created_permanent r action).stable (fun _ _ h => h)
    · exact .fail (created_permanent r action).stable (fun _ _ _ => trivial)

theorem executeOrRecover_spec (r : RunId) (action : CreateIndexAction) (key : IdempotencyKey)
    (hr : key.runId = r) (ha : key.actionFingerprint = ⟨action⟩) :
    (discipline A).Triple i (fun _ => True)
      (executeOrRecover key (exactEffect A r action) (mutation A i r action))
      (fun _ s => Created s r action) (fun _ _ => True) := by
  obtain ⟨q, fingerprint, _⟩ := key
  obtain rfl : q = r := hr
  obtain rfl := ha
  unfold executeOrRecover
  refine .bind (beginExecution_spec _) (fun o => ?_)
  cases o with
  | none => exact .ret (created_permanent _ _).stable.imp (fun s _ h => h rfl)
  | some expected =>
    refine .bind ((exactEffect_spec q action expected).pre (fun _ _ _ => trivial)) (fun effect => ?_)
    refine .bind (.when (created_permanent _ _).stable.imp (fun _ => ?_) (fun s he _ h => ?_))
      (fun _ => confirmExecution_spec ⟨q, fingerprint, ⟨action⟩⟩)
    · exact (mutation_spec q action).pre (fun _ _ _ => trivial)
    · exact h (by simpa using he)

/-- The run's own artifact, and the call it stands for. -/
def Made (r : RunId) (action : CreateIndexAction) (s : World τ) : Prop :=
  Bound r action s ∧ Created s r action

theorem made_stable (r : RunId) (action : CreateIndexAction) :
    (discipline A).Stable i (Made r action) :=
  (bound_permanent r action).stable.and (created_permanent r action).stable

theorem markApplied_spec (r : RunId) (action : CreateIndexAction) (after : IndexState) :
    (discipline A).Triple i (Made r action) (markApplied r after) (fun _ _ => True)
      (fun _ _ => True) := by
  refine .atomic (made_stable r action) (crashable _) (fun _ => .const _) quiet
    (fun s x t hs hk _ hT => ⟨?_, trivial⟩) (fun _ _ _ _ _ _ => trivial)
  obtain ⟨a, ha, rfl, rfl⟩ := markAppliedRow_ok hT
  obtain ⟨⟨b, hb, hf⟩, hcreated⟩ := hk
  obtain rfl : a = b := by
    rw [ha] at hb
    exact Option.some_inj.mp hb
  have hadv : ∀ old, s.artifacts r = some old →
      Advances old { a with status := .applied, afterState := some after } := by
    intro old hold
    rw [ha] at hold
    cases hold
    exact ⟨rfl, fun _ => rfl⟩
  have hfaithful := hs.artifact r a ha
  refine admits (hs.put hadv ⟨hfaithful.key, hfaithful.unadopted, fun _ => ?_⟩)
    (putArtifact_grows hadv)
  rw [hf]
  exact hcreated

theorem touches {α : Type} {p : Proc τ α} {K : World τ → Prop} {keeps : World τ → World τ → Prop}
    (hp : Does (Touches keeps) p) (hT : ∀ s t, keeps s t → Grows s t ∧ t.artifacts = s.artifacts ∧
      t.recovery = s.recovery ∧ t.calls = s.calls) (hK : (discipline A).Stable i K) :
    (discipline A).Triple i K p (fun _ => K) (fun _ _ => True) :=
  .neutral hp (fun _ s t hs _ h => neutral (hT s t h.2).1 (hT s t h.2).2.1 (hT s t h.2).2.2.1 (hT s t h.2).2.2.2 hs) hK
    (crashable K) (fun _ _ _ _ h => h) (fun _ _ _ _ _ => trivial)

theorem touchesRun {r : RunId} {next : RunStatus} {α : Type} {p : Proc τ α} {K : World τ → Prop} (hp : Does (TouchesRun r next) p)
    (hK : (discipline A).Stable i K) :
    (discipline A).Triple i K p (fun _ => K) (fun _ _ => True) :=
  touches hp (fun _ _ h => by
    rw [h.1]
    exact ⟨.of_eq rfl rfl rfl rfl List.prefix_rfl, rfl, rfl, rfl⟩) hK

theorem append_spec {K : World τ → Prop} (payload : LedgerPayload)
    (hK : (discipline A).Stable i K) :
    (discipline A).Triple i K (append payload) (fun _ => K) (fun _ _ => True) :=
  touches (append_touches payload)
    (fun _ _ h => ⟨h.2.2, by rw [h.1], by rw [h.1], by rw [h.1]⟩) hK

theorem recordApplied_spec (bound : BoundAction) (before : IndexState)
    (action : CreateIndexAction) :
    (discipline A).Triple i (Made bound.runId action) (recordApplied A i bound before action)
      (fun _ _ => True) (fun _ _ => True) := by
  have hmade := made_stable (A := A) (i := i) bound.runId action
  unfold recordApplied
  refine .bind (reads (state_reads A _ _ _) hmade) (fun after => ?_)
  refine .bind (reads (guardAll_does _) hmade) (fun _ => ?_)
  refine .bind (markApplied_spec _ action after) (fun persisted => ?_)
  refine .bind (append_spec _ (.const _)) (fun _ => ?_)
  refine .bind (ensureLeaseOwned_spec (.const _)) (fun _ => ?_)
  refine .bind (touchesRun (finishDeploying_touches _) (.const _)) (fun _ => ?_)
  exact .ret (.const _) (fun _ _ _ => trivial)

theorem applyIntent_spec (bound : BoundAction) (before : IndexState) (action : CreateIndexAction)
    (artifact : DeploymentArtifact) (intentCreated : Bool)
    (hkey : artifact.idempotencyKey = bound.idempotencyKey action) :
    (discipline A).Triple i (Bound bound.runId action)
      (applyIntent A i bound before action artifact intentCreated)
      (fun _ _ => True) (fun _ _ => True) := by
  have hbound := (bound_permanent (A := A) bound.runId action).stable (i := i)
  unfold applyIntent
  refine .bind (recordIntent_spec hbound _ _ _ _) (fun _ => ?_)
  refine .bind (.when hbound (fun _ => append_spec _ hbound) (fun _ _ _ h => h)) (fun _ => ?_)
  refine .bind (ensureLeaseOwned_spec hbound) (fun _ => ?_)
  refine .bind (Q := fun _ => Made bound.runId action) ?_ (fun _ => ?_)
  · refine ((executeOrRecover_spec bound.runId action _ ?_ ?_).keep
      (bound_permanent bound.runId action)).pre (fun _ _ h => ⟨h, trivial⟩)
    · rw [hkey]
      rfl
    · rw [hkey]
      rfl
  · refine .bind (ensureLeaseOwned_spec (made_stable _ _)) (fun _ => ?_)
    exact recordApplied_spec bound before action

/-- A deployment, from any state and whatever others do, keeps the records right. -/
theorem deployLocked_spec (bound : BoundAction) :
    (discipline A).Triple i (fun _ => True) (deployLocked A i bound) (fun _ _ => True)
      (fun _ _ => True) := by
  unfold deployLocked
  refine .bind (reads (Does.ofExcept _) (.const _)) (fun action => ?_)
  refine .bind ((before_spec bound.runId action).pre (fun _ _ _ => trivial)) (fun before => ?_)
  refine .bind (intent_spec bound before action) (fun x => ?_)
  obtain ⟨artifact, intentCreated⟩ := x
  have hK : (discipline A).Stable i (fun s => Bound bound.runId action s ∧
      artifact.idempotencyKey = bound.idempotencyKey action) :=
    (bound_permanent _ _).stable.and (.const _)
  refine .bind (touchesRun (enterDeploying_touches bound) hK) (fun _ => ?_)
  dsimp only
  split
  · refine .bind (touchesRun (reconcileApplied_touches bound before action) hK) (fun _ => ?_)
    exact .ret hK (fun _ _ _ => trivial)
  · intro s hs hk
    exact applyIntent_spec bound before action artifact intentCreated hk.2 s hs hk.1

theorem touchesLocks {α : Type} {p : Proc τ α} {K : World τ → Prop} (hp : Does TouchesLocks p)
    (hK : (discipline A).Stable i K) :
    (discipline A).Triple i K p (fun _ => K) (fun _ _ => True) :=
  touches hp (fun _ _ h => by
    rw [h]
    exact ⟨.of_eq rfl rfl rfl rfl List.prefix_rfl, rfl, rfl, rfl⟩) hK

theorem deployForRun_spec (r : RunId) :
    (discipline A).Triple i (fun _ => True) (deployForRun A i r) (fun _ _ => True)
      (fun _ _ => True) := by
  unfold deployForRun
  refine .bind (ensureLeaseOwned_spec (.const _)) (fun _ => ?_)
  refine .bind (reads ((loadBoundAction_reads r).mono (fun _ _ _ h => h) (fun _ _ => trivial))
    (.const _)) (fun bound => ?_)
  unfold deployBound
  refine .bind (touchesLocks (tryAcquire_touches _ _ _) (.const _)) (fun acquired => ?_)
  cases acquired with
  | false => exact .fail (.const _) (fun _ _ _ => trivial)
  | true =>
    refine .onExit (Q := fun _ _ => True) (E := fun _ _ => True) ?_
      (fun _ => touchesLocks (release_touches _ _ _ _) (.const _))
      (fun _ => touchesLocks (release_touches _ _ _ _) (.const _))
    exact .bind (ensureLeaseOwned_spec (.const _)) (fun _ => deployLocked_spec bound)

/-- The run may drop the index: it made it, where it saw none before. -/
def Owned (r : RunId) (action : CreateIndexAction) (s : World τ) : Prop :=
  ∃ a, s.artifacts r = some a ∧ a.actionFingerprint = ⟨action⟩ ∧
    hasExactIndex a.beforeState action = false ∧ Created s r action

theorem owned_permanent (r : RunId) (action : CreateIndexAction) :
    (discipline A).Permanent (Owned r action) := by
  rintro s t hg - ⟨a, ha, hf, hbefore, hcreated⟩
  obtain ⟨b, hb, hab⟩ := hg.artifacts r a ha
  exact ⟨b, hb, by rw [hab.row]; exact hf, by rw [hab.row]; exact hbefore, hcreated.grows hg⟩

theorem owned_of_boundRollback {s : World τ} {r : RunId} {bound : BoundRollback}
    (h : boundRollback s r = some bound) (hs : Recorded s) :
    bound.artifact.afterState ≠ none →
      Owned bound.runId bound.artifact.actionFingerprint.document s := by
  simp only [boundRollback, Option.bind_eq_bind, Option.bind_eq_some_iff] at h
  obtain ⟨_, -, a, ha, _, -, _, -, _, -, h⟩ := h
  cases h
  exact fun hn => ⟨a, ha, rfl, (hs.artifact r a ha).unadopted, (hs.artifact r a ha).applied hn⟩

theorem touchesRollbacks {α : Type} {p : Proc τ α} {K : World τ → Prop}
    (hp : Does TouchesRollbacks p) (hK : (discipline A).Stable i K) :
    (discipline A).Triple i K p (fun _ => K) (fun _ _ => True) :=
  touches hp (fun _ _ h => ⟨h.2, by rw [h.1], by rw [h.1], by rw [h.1]⟩) hK

theorem finalizeRecord_spec (bound : BoundRollback) (before after : IndexState)
    (action : CreateIndexAction) :
    (discipline A).Triple i (fun _ => True) (finalizeRecord bound before after action)
      (fun _ _ => True) (fun _ _ => True) := by
  unfold finalizeRecord
  refine .bind (reads (rollbackLedgerExists_reads bound) (.const _)) (fun recorded => ?_)
  refine .bind (.when (.const _) (fun _ => append_spec _ (.const _)) (fun _ _ _ h => h))
    (fun _ => touchesRollbacks (record_touches _ _ _) (.const _))

theorem dropIndex_spec (r : RunId) (action : CreateIndexAction) :
    (discipline A).Triple i (Owned r action)
      (dropIndex A r action.toNamespace action.indexName) (fun _ _ => True) (fun _ _ => True) := by
  refine .act (owned_permanent r action).stable (crashable _) (fun s hs hk _ => ?_)
  obtain ⟨outcome, hcalls⟩ := s.drop_calls A r action.toNamespace action.indexName
  have hframe := s.drop_frame A r action.toNamespace action.indexName
  set t := s.drop A r action.toNamespace action.indexName
  have hg : Grows s t := drop_grows A r _ _ s
  obtain ⟨a, ha, hf, hbefore, o, n, hcreate⟩ := hk
  refine ⟨admits ⟨fun q b hb => ?_, fun key row hrow hstate => ?_, ?_⟩ hg, ?_⟩
  · have hb' := hs.artifact q b (by rw [hframe] at hb; exact hb)
    exact ⟨hb'.key, hb'.unadopted, fun hn => (hb'.applied hn).grows hg⟩
  · exact (hs.confirmed key row (by rw [hframe] at hrow; exact hrow) hstate).grows hg
  · refine hs.drops.snoc (by rw [hframe]) hcalls ?_
    rintro _ _ _ _ ⟨⟩
    exact ⟨a, action, ha, hf, rfl, rfl, hbefore, o, n, hcreate⟩
  · refine .pre (K := fun _ => True) ?_ (fun _ _ _ => trivial)
    split
    · exact .ret (.const _) (fun _ _ _ => trivial)
    · exact .fail (.const _) (fun _ _ _ => trivial)

theorem dropOwned_spec (bound : BoundRollback) (state : IndexState) (action : CreateIndexAction) :
    (discipline A).Triple i (Owned bound.runId action) (dropOwned A bound state action)
      (fun _ _ => True) (fun _ _ => True) := by
  have howned := (owned_permanent (A := A) bound.runId action).stable (i := i)
  unfold dropOwned
  refine .bind (touchesRollbacks (record_touches _ _ _) howned) (fun _ => ?_)
  refine .bind (dropIndex_spec bound.runId action) (fun _ => ?_)
  refine .bind (reads (state_reads A _ _ _) (.const _)) (fun after => ?_)
  split
  · exact .bind (touchesRollbacks (record_touches _ _ _) (.const _))
      (fun _ => .ret (.const _) (fun _ _ _ => trivial))
  · exact .bind (finalizeRecord_spec bound state after action)
      (fun _ => .ret (.const _) (fun _ _ _ => trivial))

theorem rollbackLocked_spec (bound : BoundRollback) :
    (discipline A).Triple i (fun s => bound.artifact.afterState ≠ none →
        Owned bound.runId bound.artifact.actionFingerprint.document s)
      (rollbackLocked A bound) (fun _ _ => True) (fun _ _ => True) := by
  have hK := ((owned_permanent (A := A) bound.runId
    bound.artifact.actionFingerprint.document).stable (i := i)).imp
      (p := bound.artifact.afterState ≠ none)
  unfold rollbackLocked
  refine .bind (reads (Does.ofExcept _) hK) (fun action => ?_)
  refine .bind (reads (state_reads A _ _ _) hK) (fun state => ?_)
  refine .bind (reads (Does.read rfl _) hK) (fun intent => ?_)
  split
  · refine .bind ((finalizeRecord_spec bound _ state action).pre (fun _ _ _ => trivial)) (fun _ => ?_)
    exact .ret (.const _) (fun _ _ _ => trivial)
  · split
    · refine .bind (touchesRollbacks (record_touches _ _ _) hK) (fun _ => ?_)
      exact .ret hK (fun _ _ _ => trivial)
    · next hreason =>
      obtain ⟨hafter, hfingerprint⟩ := safeReason_none hreason
      refine (dropOwned_spec bound state action).pre (fun s _ h => ?_)
      have howned := h (by simp [hafter])
      rw [hfingerprint] at howned
      exact howned

theorem rollbackForRun_spec (r : RunId) :
    (discipline A).Triple i (fun _ => True) (rollbackForRun A i r) (fun _ _ => True)
      (fun _ _ => True) := by
  unfold rollbackForRun
  have hK : ∀ bound : BoundRollback, (discipline A).Stable i (fun s =>
      bound.artifact.afterState ≠ none →
        Owned bound.runId bound.artifact.actionFingerprint.document s) :=
    fun bound => (owned_permanent _ _).stable.imp
  refine .bind (Q := fun row s => ∀ bound, row = some bound → bound.artifact.afterState ≠ none →
      Owned bound.runId bound.artifact.actionFingerprint.document s)
    (.read (.const _) (crashable _) (fun _ => .opt hK)
      (fun s hs _ _ bound h => owned_of_boundRollback h hs)) (fun row => ?_)
  cases row with
  | none => exact .fail (.opt hK) (fun _ _ _ => trivial)
  | some bound =>
    refine .pre (K := fun s => bound.artifact.afterState ≠ none →
      Owned bound.runId bound.artifact.actionFingerprint.document s) ?_ (fun s _ h => h bound rfl)
    refine .bind (reads (Does.read rfl _) (hK bound)) (fun recorded => ?_)
    split
    · exact .ret (hK bound) (fun _ _ _ => trivial)
    · refine .bind (touchesLocks (tryAcquire_touches _ _ _) (hK bound)) (fun acquired => ?_)
      cases acquired with
      | false => exact .ret (hK bound) (fun _ _ _ => trivial)
      | true =>
        exact .onExit (Q := fun _ _ => True) (E := fun _ _ => True) (rollbackLocked_spec bound)
          (fun _ => touchesLocks (release_touches _ _ _ _) (.const _))
          (fun _ => touchesLocks (release_touches _ _ _ _) (.const _))

theorem governs : (discipline A).Governs := by
  refine .of_triples (fun i k _ => ?_) (fun s t h hs => neutral h.grows h.artifacts h.recovery h.calls hs)
  cases k with
  | deployForRun r =>
    exact .bind (deployForRun_spec r) (fun _ => .ret (.const _) (fun _ _ _ => trivial))
  | rollbackForRun r =>
    exact .bind (rollbackForRun_spec r) (fun _ => .ret (.const _) (fun _ _ _ => trivial))

theorem recorded_of_untouched {s : World τ} (h : Untouched s) : Recorded s := by
  refine ⟨?_, ?_, ?_⟩
  · simp [h.artifacts]
  · simp [h.recovery]
  · simp [OwnedDrops, h.calls]

end Ownership

/-- In every run in which no deployment adopts an index that it did not make, every drop is of an
index that the same run made where it had seen none. -/
theorem rollback_drops_owned (A : DatabaseAdapter τ) {s₀ : World τ} (h₀ : Untouched s₀)
    {c : Config Label (World τ) Error WorkerId}
    (hr : (services A).Reach (unadopted A).Allows (.quiet s₀) c) : OwnedDrops c.shared :=
  ((Discipline.Holds.quiet (Ownership.recorded_of_untouched h₀) (fun _ => trivial)).reach
    Ownership.governs hr).inv.drops

/-- The prepared run deployed and rolled back with nobody else about. -/
theorem rollback_drops_owned_prepared :
    ∃ c, (services mongodb).Reach (unadopted mongodb).Allows
        (.quiet (Preparation.world {} (preparedCollection []))) c ∧
      c.shared.calls = [.create 0 ⟨"orders"⟩ preparedAction.toIndexSpec .effected 1,
        .drop 0 ⟨"orders"⟩ "optimizer_status" .effected] ∧ OwnedDrops c.shared := by
  have hrun : ((services mongodb).exec (stepwise (fun s l => decide (Unadopted mongodb s l)))
      (Event.calls 0 (.deployForRun 0) 28 ++ Event.calls 0 (.rollbackForRun 0) 14)
      (.quiet (Preparation.world {} (preparedCollection [])))).map (·.shared.calls) =
      some [.create 0 ⟨"orders"⟩ preparedAction.toIndexSpec .effected 1,
        .drop 0 ⟨"orders"⟩ "optimizer_status" .effected] := by decide +kernel
  obtain ⟨c, hr, hc⟩ := System.Reach.of_exec_map (stepwise_allows (C := unadopted mongodb)
    (fun _ _ _ => trivial) (fun _ l s h => (of_decide_eq_true h : Unadopted mongodb s l))
    (fun _ _ _ _ => trivial) (by simp [Event.calls])) hrun
  exact ⟨c, hr, hc, rollback_drops_owned mongodb ⟨rfl, rfl, rfl, rfl, rfl⟩ hr⟩

/-- A human made the index before: the deployment adopts it, and the rollback drops it. -/
theorem not_rollback_drops_owned :
    ¬ ∀ c, (services mongodb).Reach (anyConduct mongodb).Allows
        (.quiet (Preparation.world {} (preparedCollection [preparedAction.toIndexSpec]))) c →
      OwnedDrops c.shared := by
  intro h
  have hrun : ((services mongodb).exec (stepwise (fun _ _ => true))
      (Event.calls 0 (.deployForRun 0) 26 ++ Event.calls 0 (.rollbackForRun 0) 14)
      (.quiet (Preparation.world {} (preparedCollection [preparedAction.toIndexSpec])))).map
        (·.shared.calls) = some [.drop 0 ⟨"orders"⟩ "optimizer_status" .effected] := by
    decide +kernel
  obtain ⟨c, hr, hc⟩ := System.Reach.of_exec_map (stepwise_allows (C := anyConduct mongodb)
    (fun _ _ _ => trivial) (fun _ _ _ _ => trivial) (fun _ _ _ _ => trivial) (by simp [Event.calls])) hrun
  obtain ⟨_, _, _, _, _, _, _, _, _, hcreate⟩ := h c hr [] [] 0 _ _ _ hc
  cases hcreate

end NoSQLOptimizer.Production
