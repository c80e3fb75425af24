import NoSQLOptimizer.ControlPlane.Prepared
import NoSQLOptimizer.Production.Keyed
import NoSQLOptimizer.Production.Locked

namespace NoSQLOptimizer.Production

open Adapters Actions ControlPlane Concurrency Recovery Rollback Runs

variable {τ : Type}

/-- One call at most of the run's `create_index` takes effect, and none comes after it. -/
structure CreatedOnce (s : World τ) (r : RunId) : Prop where
  once : ((s.callsOf r).filter AdapterCall.created).length ≤ 1
  last : (s.callsOf r).Pairwise (fun earlier later => earlier.created = true → later.creates = false)

/-- Every index that the run has made and that is there is there afterwards. -/
def StillShown (A : DatabaseAdapter τ) (r : RunId) (s t : World τ) : Prop :=
  ∀ ns x n, AdapterCall.create r ns x .effected n ∈ s.calls → A.shows s.db ns x = true →
    A.shows t.db ns x = true

/-- The run's target is `T`, whose lock nobody else takes, and no other party drops what the run has
made. -/
def serialised (A : DatabaseAdapter τ) (r : RunId) (T : TargetId) : (services A).Conduct where
  acts _ l s := ∀ q ns name, l = .dropIndex q ns name → q ≠ r → StillShown A r s (s.drop A q ns name)
  env s t := External s t ∧ t.locks = s.locks ∧ StillShown A r s t ∧
    ∀ run, t.runs r = some run → run.targetId = T

/-- The run makes the index of its one artifact; once made it is there, or the artifact is applied. -/
structure Sole (A : DatabaseAdapter τ) (r : RunId) (T : TargetId) (s : World τ) : Prop where
  target : ∀ run, s.runs r = some run → run.targetId = T
  made : ∀ ns x o n, AdapterCall.create r ns x o n ∈ s.calls → ∃ a, s.artifacts r = some a ∧
    ns = a.actionFingerprint.document.toNamespace ∧ x = a.actionFingerprint.document.toIndexSpec
  shown : ∀ ns x n, AdapterCall.create r ns x .effected n ∈ s.calls →
    A.shows s.db ns x = true ∨ ∃ a, s.artifacts r = some a ∧ a.status = .applied
  last : (s.callsOf r).Pairwise (fun earlier later => earlier.created = true → later.creates = false)

theorem Sole.of_untouched {A : DatabaseAdapter τ} {r : RunId} {T : TargetId} {s : World τ}
    (h : Untouched s) (hT : ∀ run, s.runs r = some run → run.targetId = T) : Sole A r T s :=
  ⟨hT, by simp [h.calls], by simp [h.calls], by simp [World.callsOf, h.calls]⟩

/-- Everything but a call of the run itself. -/
theorem Sole.mono {A : DatabaseAdapter τ} {r : RunId} {T : TargetId} {s t : World τ}
    (h : Sole A r T s) (hg : Grows s t) (hT : ∀ run, t.runs r = some run → run.targetId = T)
    (hc : t.callsOf r = s.callsOf r) (hs : StillShown A r s t) : Sole A r T t := by
  refine ⟨hT, fun ns x o n hcall => ?_, fun ns x n hcall => ?_, hc ▸ h.last⟩
  · obtain ⟨a, ha, hns, hx⟩ := h.made ns x o n ((mem_callsOf hc rfl).mp hcall)
    obtain ⟨b, hb, hab⟩ := hg.artifacts r a ha
    exact ⟨b, hb, by rw [hab.row]; exact hns, by rw [hab.row]; exact hx⟩
  · have hcall' := (mem_callsOf hc rfl).mp hcall
    rcases h.shown ns x n hcall' with hshown | ⟨a, ha, happlied⟩
    · exact .inl (hs ns x n hcall' hshown)
    · obtain ⟨b, hb, hab⟩ := hg.artifacts r a ha
      exact .inr ⟨b, hb, hab.applied happlied⟩

theorem Sole.once {A : DatabaseAdapter τ} {r : RunId} {T : TargetId} {s : World τ}
    (h : Sole A r T s) : CreatedOnce s r := by
  refine ⟨?_, h.last⟩
  have hfilter := h.last.filter (p := AdapterCall.created)
  have hcreated : ∀ call ∈ (s.callsOf r).filter AdapterCall.created, call.created = true :=
    fun call hcall => (List.mem_filter.mp hcall).2
  match hl : (s.callsOf r).filter AdapterCall.created with
  | [] => simp
  | [_] => simp
  | first :: second :: rest =>
    rw [hl] at hfilter hcreated
    have hlater := (List.pairwise_cons.mp hfilter).1 second (by simp) (hcreated first (by simp))
    rw [AdapterCall.creates_of_created (hcreated second (by simp))] at hlater
    cases hlater

namespace Once

variable {A : DatabaseAdapter τ} {r : RunId} {T : TargetId} {i : WorkerId}

def mutex (A : DatabaseAdapter τ) (r : RunId) (T : TargetId) :
    Mutex ((serialised A r T).given Keyed) TargetId where
  owner := World.locks
  lock := T
  always := Sole A r T
  good _ := True
  grows := Grows
  view s t := t.artifacts r = s.artifacts r ∧ t.callsOf r = s.callsOf r
  grows_refl := Grows.refl
  grows_trans := Grows.trans
  view_refl _ := ⟨rfl, rfl⟩
  view_trans h h' := ⟨h'.1.trans h.1, h'.2.trans h.2⟩
  view_good _ _ := trivial

theorem guards : Guards (mutex A r T) where
  owner := rfl
  always _ _ h := ⟨h.target, h.made, h.shown, h.last⟩
  grows _ _ := .of_eq rfl rfl rfl rfl List.prefix_rfl
  view _ _ := ⟨rfl, rfl⟩
  crash := rfl
  crashes _ _ _ _ _ _ := trivial

/-- What leaves the run's artifact and calls alone, and the index where it is, nobody minds. -/
theorem neutral {s t : World τ} (hs : (mutex A r T).discipline.inv s) (hlocks : t.locks = s.locks)
    (hg : Grows s t) (hT : ∀ run, t.runs r = some run → run.targetId = T)
    (ha : t.artifacts r = s.artifacts r) (hc : t.callsOf r = s.callsOf r)
    (hshown : StillShown A r s t) : (mutex A r T).discipline.Neutral s t :=
  Mutex.neutral hs hlocks ⟨ha, hc⟩ hg (hs.1.mono hg hT hc hshown)

theorem target_of_sameRuns {s t : World τ} (hs : Sole A r T s) (h : SameRuns s t) :
    ∀ run, t.runs r = some run → run.targetId = T := by
  intro run hrun
  have hfixed := h r
  rw [hrun] at hfixed
  obtain ⟨run', hrun', heq⟩ := Option.map_eq_some_iff.mp hfixed.symm
  rw [← hs.target run' hrun']
  exact (congrArg OptimizationRun.targetId heq).symm

/-- No call for another run is minded. -/
theorem works_neutral {q : RunId} {l : Label} {s t : World τ} (hA : A.Lawful) (hq : q ≠ r)
    (hs : (mutex A r T).discipline.inv s) (hact : ((serialised A r T).given Keyed).acts i l s)
    (h : Works A q l s t) : (mutex A r T).discipline.Neutral s t := by
  have hspared := h.within r (Ne.symm hq)
  refine neutral hs (by rw [h.frame]) h.grows (target_of_sameRuns hs.1 h.sameRuns) hspared.artifact
    hspared.calls (fun ns x n hcall hshown => ?_)
  have haction := hact.1
  cases l with
  | createIndex q' ns' x' =>
    obtain ⟨rfl, rfl⟩ := h.create q' ns' x' rfl
    simp only [World.create]
    split
    · exact hshown
    · next hcreate => exact hA.create_keeps hcreate hshown
  | dropIndex q' ns' name =>
    obtain ⟨rfl, rfl⟩ := h.drop q' ns' name rfl
    exact haction q' ns' name rfl hq ns x n hcall hshown
  | _ =>
    rw [(h.quiet rfl).1]
    exact hshown

/-- The lock's owner has the run's artifact to itself. -/
def Has (i : WorkerId) (r : RunId) (T : TargetId) (a : DeploymentArtifact) (A : DatabaseAdapter τ)
    (s : World τ) : Prop :=
  (mutex A r T).Holds i (some T) s ∧ s.artifacts r = some a

theorem held_stable : (mutex A r T).discipline.Stable i ((mutex A r T).Holds i (some T)) :=
  Mutex.holds_stable _

theorem has_stable (a : DeploymentArtifact) : (mutex A r T).discipline.Stable i (Has i r T a A) :=
  Mutex.stable_of_view (fun _ _ _ hv ha => hv.1.trans ha)

theorem has_noneCreated_stable (a : DeploymentArtifact) : (mutex A r T).discipline.Stable i
    (fun s => Has i r T a A s ∧ NoneCreated r s) := by
  have hview := Mutex.stable_of_view (M := mutex A r T) (i := i)
    (P := fun s => s.artifacts r = some a ∧ NoneCreated r s)
    (fun s t _ hv h => ⟨hv.1.trans h.1, by rw [NoneCreated, hv.2]; exact h.2⟩)
  exact fun s t hr ht h => (and_assoc (a := (mutex A r T).Holds i (some T) t)).mpr
    (hview hr ht ⟨h.1.1, h.1.2, h.2⟩)

section

variable {K : World τ → Prop} {α : Type} {p : Proc τ α} {keeps : World τ → World τ → Prop}

/-- Work that touches neither the run's artifact nor its calls nor the target. -/
theorem touches (hp : Does (Touches keeps) p) (hK : (mutex A r T).discipline.Stable i K)
    (hk : ∀ s t, keeps s t → t = { s with
        runs := t.runs, recovery := t.recovery, ledger := t.ledger, rollbacks := t.rollbacks } ∧
      SameRuns s t ∧ Grows s t) :
    (mutex A r T).discipline.Triple i K p (fun _ => K) (fun _ => K) := by
  refine .neutral hp (fun l s t hs _ h => ?_) hK (guards.crashable K) (fun _ _ _ _ h => h)
    (fun _ _ _ _ h => h)
  obtain ⟨hframe, hruns, hg⟩ := hk s t h.2
  refine neutral hs (by rw [hframe]) hg (target_of_sameRuns hs.1 hruns) (by rw [hframe])
    (by rw [hframe]; rfl) (fun ns x n _ hshown => ?_)
  rw [hframe]
  exact hshown

theorem reads (hp : Does Reads p) (hK : (mutex A r T).discipline.Stable i K) :
    (mutex A r T).discipline.Triple i K p (fun _ => K) (fun _ => K) :=
  touches hp hK (fun s t h => by subst h; exact ⟨rfl, fun _ => rfl, .refl _⟩)

theorem touchesRun {q : RunId} {next : RunStatus} (hp : Does (TouchesRun q next) p)
    (hK : (mutex A r T).discipline.Stable i K) :
    (mutex A r T).discipline.Triple i K p (fun _ => K) (fun _ => K) :=
  touches hp hK (fun s t h => ⟨by rw [h.1], h.2.1, by
    rw [h.1]
    exact .of_eq rfl rfl rfl rfl List.prefix_rfl⟩)

theorem touchesRecovery (hp : Does TouchesRecovery p) (hK : (mutex A r T).discipline.Stable i K) :
    (mutex A r T).discipline.Triple i K p (fun _ => K) (fun _ => K) :=
  touches hp hK (fun s t h => ⟨by rw [h.1], fun _ => by rw [h.1], h.2⟩)

theorem append_spec (payload : LedgerPayload) (hK : (mutex A r T).discipline.Stable i K) :
    (mutex A r T).discipline.Triple i K (append payload) (fun _ => K) (fun _ => K) :=
  touches (append_touches payload) hK (fun s t h => ⟨by rw [h.1], fun _ => by rw [h.1], h.2.2⟩)

end

/-- A move of the lock's owner that only writes the run's artifact. -/
theorem put_admits {s : World τ} {b : DeploymentArtifact} (hs : (mutex A r T).discipline.inv s)
    (hheld : (mutex A r T).Holds i (some T) s)
    (hadv : ∀ old, s.artifacts r = some old → Advances old b) :
    (mutex A r T).discipline.Admits i s (putArtifact r b s) :=
  Mutex.owned hheld.owns rfl (putArtifact_grows hadv)
    (hs.1.mono (putArtifact_grows hadv) hs.1.target rfl (fun _ _ _ _ h => h))

theorem intent_spec (bound : BoundAction) (hr : bound.runId = r) (before : IndexState)
    (action : CreateIndexAction) :
    (mutex A r T).discipline.Triple i ((mutex A r T).Holds i (some T)) (intent bound before action)
      (fun x s => Has i r T x.1 A s ∧ x.1.idempotencyKey.actionFingerprint = ⟨action⟩ ∧
        x.1.actionFingerprint = ⟨action⟩)
      (fun _ => (mutex A r T).Holds i (some T)) := by
  subst hr
  refine .atomic held_stable (guards.crashable _) (fun x => (has_stable x.1).and (.const _))
    (fun _ => held_stable) (fun s x t hs hk hact hT => ?_) (fun _ _ _ hk _ _ => hk)
  obtain ⟨a, created⟩ := x
  rcases intentRow_ok hT with ⟨ha, howns, -, rfl⟩ | ⟨hnone, rfl, -, rfl⟩
  · simp only [BoundAction.owns, Bool.and_eq_true, decide_eq_true_eq] at howns
    refine ⟨.refl hs, ⟨hk, ha⟩, ?_, howns.2⟩
    rw [hact.2.key _ a ha]
    exact howns.2
  · refine ⟨put_admits hs hk (by simp [hnone]), ⟨hk.congr rfl, by simp [putArtifact]⟩, rfl, rfl⟩

theorem markApplied_spec (a : DeploymentArtifact) (after : IndexState) :
    (mutex A r T).discipline.Triple i (Has i r T a A) (markApplied r after)
      (fun _ => (mutex A r T).Holds i (some T)) (fun _ => (mutex A r T).Holds i (some T)) := by
  refine .atomic (has_stable a) (guards.crashable _) (fun _ => held_stable) (fun _ => held_stable)
    (fun s b t hs hk _ hT => ?_) (fun _ _ _ hk _ _ => hk.1)
  obtain ⟨a', ha', rfl, rfl⟩ := markAppliedRow_ok hT
  refine ⟨put_admits hs hk.1 (fun old hold => ?_), hk.1.congr rfl⟩
  rw [ha'] at hold
  cases hold
  exact ⟨rfl, fun _ => rfl⟩

theorem beginExecution_spec (a : DeploymentArtifact) (key : IdempotencyKey) :
    (mutex A r T).discipline.Triple i (Has i r T a A) (beginExecution key)
      (fun o s => Has i r T a A s ∧ ∀ expected, o = some expected → expected = key.actionFingerprint)
      (fun _ => (mutex A r T).Holds i (some T)) := by
  refine .atomic (has_stable a) (guards.crashable _) (fun o => (has_stable a).and (.const _))
    (fun _ => held_stable) (fun s o t hs hk hact hT => ?_) (fun _ _ _ hk _ _ => hk.1)
  obtain ⟨row, hrow, ⟨-, rfl, rfl⟩ | ⟨rfl, rfl⟩⟩ := beginRow_ok hT
  · exact ⟨.refl hs, hk, by simp⟩
  · have hgrows : Grows s (put key { row with state := .executionStarted } s) :=
      .putRecovery (by simp [hrow])
    refine ⟨(neutral (t := put _ _ s) hs rfl hgrows hs.1.target rfl rfl (fun _ _ _ _ h => h)).admits,
      ⟨hk.1.congr rfl, hk.2⟩, ?_⟩
    rintro _ ⟨⟩
    exact hact.2.expected key row hrow

/-- While the artifact is not applied, an index that is not there has not been made. -/
theorem noneCreated_of_unshown {s : World τ} {a : DeploymentArtifact} (hs : Sole A r T s)
    (ha : s.artifacts r = some a) (hpending : a.status ≠ .applied)
    (hno : A.shows s.db a.actionFingerprint.document.toNamespace
      a.actionFingerprint.document.toIndexSpec = false) : NoneCreated r s := by
  intro call hcall
  obtain ⟨hmem, hrun⟩ := List.mem_filter.mp hcall
  match call, hrun with
  | .drop .., _ => rfl
  | .create _ _ _ .refused _, _ => rfl
  | .create _ _ _ .unchanged _, _ => rfl
  | .create q ns x .effected n, hrun =>
    obtain rfl : q = r := of_decide_eq_true hrun
    obtain ⟨b, hb, rfl, rfl⟩ := hs.made ns x _ n hmem
    obtain rfl : a = b := Option.some_inj.mp (ha.symm.trans hb)
    rcases hs.shown _ _ n hmem with hshown | ⟨b, hb', happlied⟩
    · rw [hno] at hshown
      cases hshown
    · obtain rfl : a = b := Option.some_inj.mp (ha.symm.trans hb')
      exact absurd happlied hpending

/-- The probe misses an effect only where there is none. -/
theorem exactEffect_spec (a : DeploymentArtifact) (action : CreateIndexAction)
    (hpending : a.status ≠ .applied) (haction : a.actionFingerprint = ⟨action⟩) :
    (mutex A r T).discipline.Triple i (Has i r T a A) (exactEffect A r action ⟨action⟩)
      (fun effect s => Has i r T a A s ∧ (effect = false → NoneCreated r s))
      (fun _ => (mutex A r T).Holds i (some T)) := by
  have hunless : ∀ p : Prop, (mutex A r T).discipline.Stable i
      (fun s => Has i r T a A s ∧ (p → NoneCreated r s)) := by
    intro p s t hr ht hk
    refine ⟨has_stable a hr ht hk.1, fun hp => ?_⟩
    exact (has_noneCreated_stable a hr ht ⟨hk.1, hk.2 hp⟩).2
  have hunshown : ∀ s, Sole A r T s → Has i r T a A s →
      A.shows s.db action.toNamespace action.toIndexSpec = false → NoneCreated r s :=
    fun s hs hk hno => noneCreated_of_unshown hs hk.2 hpending (by rw [haction]; exact hno)
  unfold exactEffect
  refine .bind (Q := fun effect s => Has i r T a A s ∧
    (hasExactIndex effect action = false → NoneCreated r s)) ?_ (fun effect => ?_)
  · unfold state
    refine .bind (Q := fun namespaces s => Has i r T a A s ∧
      (action.toNamespace ∉ namespaces → NoneCreated r s)) (.read (has_stable a) (guards.crashable _)
        (fun _ => hunless _) (fun s hs hk _ => ⟨hk, fun hns => ?_⟩)) (fun namespaces => ?_)
    · exact hunshown s hs.1 hk (by simp [DatabaseAdapter.shows, hns])
    · split
      · refine .bind (Q := fun indexes s => Has i r T a A s ∧
          (exactlyOnce action.toIndexSpec indexes = false → NoneCreated r s))
          (.read (hunless _) (guards.crashable _) (fun _ => hunless _)
            (fun s hs hk _ => ⟨hk.1, fun hno => ?_⟩)) (fun indexes => ?_)
        · exact hunshown s hs.1 hk.1 (by simp [DatabaseAdapter.shows, hno])
        · exact .ret (hunless _) (fun _ _ hk => hk)
      · next hns => exact .ret (hunless _) (fun _ _ hk => ⟨hk.1, fun _ => hk.2 hns⟩)
  · refine .ret (hunless _) (fun _ _ hk => ⟨hk.1, fun he => hk.2 ?_⟩)
    simpa using he

/-- Where none of the run's calls has taken effect, one more may be made. -/
theorem mutation_spec (hA : A.Lawful) (a : DeploymentArtifact) (action : CreateIndexAction)
    (haction : a.actionFingerprint = ⟨action⟩) :
    (mutex A r T).discipline.Triple i (fun s => Has i r T a A s ∧ NoneCreated r s)
      (mutation A i r action) (fun _ => Has i r T a A)
      (fun _ => (mutex A r T).Holds i (some T)) := by
  refine .bind ((reads (ensureLeaseOwned_reads i) (has_noneCreated_stable a)).conseq
    (fun _ _ hk => hk) (fun _ _ _ hk => hk) (fun _ _ _ hk => hk.1.1)) (fun _ => ?_)
  refine .act (has_noneCreated_stable a) (guards.crashable _) (fun s hs hk _ => ?_)
  obtain ⟨outcome, hcalls, hcases⟩ := s.create_cases A r action.toNamespace action.toIndexSpec
  have hframe := s.create_frame A r action.toNamespace action.toIndexSpec
  have hgrows := create_grows A r action.toNamespace action.toIndexSpec s
  set t := s.create A r action.toNamespace action.toIndexSpec
  have hart : t.artifacts r = some a := by
    rw [hframe]
    exact hk.1.2
  have hcalled : t.callsOf r = s.callsOf r ++ [.create r action.toNamespace action.toIndexSpec outcome
      s.ledger.length] := by simpa using World.callsOf_snoc hcalls r
  have hsole : Sole A r T t := by
    refine ⟨fun run hrun => hs.1.target run ?_, fun ns x o n hcall => ?_, fun ns x n hcall => ?_, ?_⟩
    · rw [hframe] at hrun
      exact hrun
    · rw [hcalls, List.mem_append, List.mem_singleton] at hcall
      rcases hcall with hcall | hcall
      · obtain ⟨b, hb, hns, hx⟩ := hs.1.made ns x o n hcall
        obtain rfl : a = b := Option.some_inj.mp (hk.1.2.symm.trans hb)
        exact ⟨a, hart, hns, hx⟩
      · cases hcall
        exact ⟨a, hart, by rw [haction], by rw [haction]⟩
    · rw [hcalls, List.mem_append, List.mem_singleton] at hcall
      rcases hcall with hcall | hcall
      · have hnone := hk.2 _ (List.mem_filter.mpr ⟨hcall, by simp⟩)
        cases hnone
      · cases hcall
        rcases hcases with ⟨h, -⟩ | ⟨-, hcreate⟩
        · cases h
        · exact .inl (hA.create_shows hcreate)
    · rw [hcalled, List.pairwise_append]
      refine ⟨hs.1.last, List.pairwise_singleton _ _, fun call hcall _ _ hcreated => ?_⟩
      rw [hk.2 call hcall] at hcreated
      cases hcreated
  refine ⟨Mutex.owned hk.1.1.owns (by rw [hframe]; rfl) hgrows hsole, ?_⟩
  refine Discipline.Triple.pre (K := Has i r T a A) ?_ ?_
  · split
    · exact .ret (has_stable a) (fun _ _ h => h)
    · exact .fail (has_stable a) (fun _ _ h => h.1)
  · rintro _ - rfl
    exact ⟨hk.1.1.congr (by rw [hframe]; rfl), hart⟩

theorem executeOrRecover_spec (hA : A.Lawful) (a : DeploymentArtifact) (action : CreateIndexAction)
    (hpending : a.status ≠ .applied) (haction : a.actionFingerprint = ⟨action⟩)
    (hkey : a.idempotencyKey.actionFingerprint = ⟨action⟩) :
    (mutex A r T).discipline.Triple i (Has i r T a A)
      (executeOrRecover a.idempotencyKey (exactEffect A r action) (mutation A i r action))
      (fun _ => Has i r T a A) (fun _ => (mutex A r T).Holds i (some T)) := by
  have hhas := has_stable (A := A) (r := r) (T := T) (i := i) a
  unfold executeOrRecover
  refine .bind (beginExecution_spec a _) (fun o => ?_)
  cases o with
  | none => exact .ret (hhas.and (.const _)) (fun _ _ hk => hk.1)
  | some expected =>
    refine .assuming (fun hexpected => ?_)
    obtain rfl := (hexpected expected rfl).trans hkey
    refine .bind (exactEffect_spec a action hpending haction) (fun effect => ?_)
    refine .bind (Q := fun _ => Has i r T a A) ?_ (fun _ => ?_)
    · cases effect with
      | true => exact .ret (fun s t hr ht hk => ⟨hhas hr ht hk.1, nofun⟩) (fun _ _ hk => hk.1)
      | false => exact (mutation_spec hA a action haction).pre (fun _ _ hk => ⟨hk.1, hk.2 rfl⟩)
    · exact (touchesRecovery (confirmExecution_touches _) hhas).conseq (fun _ _ hk => hk)
        (fun _ _ _ hk => hk) (fun _ _ _ hk => hk.1)

theorem applyIntent_spec (hA : A.Lawful) (bound : BoundAction) (hr : bound.runId = r)
    (before : IndexState) (action : CreateIndexAction) (a : DeploymentArtifact)
    (intentCreated : Bool) (hpending : a.status ≠ .applied)
    (haction : a.actionFingerprint = ⟨action⟩)
    (hkey : a.idempotencyKey.actionFingerprint = ⟨action⟩) :
    (mutex A r T).discipline.Triple i (Has i r T a A)
      (applyIntent A i bound before action a intentCreated)
      (fun _ => (mutex A r T).Holds i (some T)) (fun _ => (mutex A r T).Holds i (some T)) := by
  subst hr
  have hhas := has_stable (A := A) (r := bound.runId) (T := T) (i := i) a
  have hheld := held_stable (A := A) (r := bound.runId) (T := T) (i := i)
  have hkeep : ∀ {α : Type} {p : Proc τ α}, (mutex A bound.runId T).discipline.Triple i
      (Has i bound.runId T a A) p (fun _ => Has i bound.runId T a A)
      (fun _ => Has i bound.runId T a A) → (mutex A bound.runId T).discipline.Triple i
      (Has i bound.runId T a A) p (fun _ => Has i bound.runId T a A)
      (fun _ => (mutex A bound.runId T).Holds i (some T)) :=
    fun h => h.conseq (fun _ _ hk => hk) (fun _ _ _ hk => hk) (fun _ _ _ hk => hk.1)
  unfold applyIntent
  refine .bind (hkeep (touchesRecovery (recordIntent_touches _ _ _ _) hhas)) (fun _ => ?_)
  refine .bind (.when hhas (fun _ => hkeep (append_spec _ hhas)) (fun _ _ _ hk => hk)) (fun _ => ?_)
  refine .bind (hkeep (reads (ensureLeaseOwned_reads i) hhas)) (fun _ => ?_)
  refine .bind (executeOrRecover_spec hA a action hpending haction hkey) (fun _ => ?_)
  refine .bind (hkeep (reads (ensureLeaseOwned_reads i) hhas)) (fun _ => ?_)
  unfold recordApplied
  refine .bind (hkeep (reads (state_reads A _ _ _) hhas)) (fun after => ?_)
  refine .bind (hkeep (reads (guardAll_does _) hhas)) (fun _ => ?_)
  refine .bind (markApplied_spec a after) (fun persisted => ?_)
  refine .bind (append_spec _ hheld) (fun _ => ?_)
  refine .bind (reads (ensureLeaseOwned_reads i) hheld) (fun _ => ?_)
  refine .bind (touchesRun (finishDeploying_touches _) hheld) (fun _ => ?_)
  exact .ret hheld (fun _ _ hk => hk)

theorem deployLocked_spec (hA : A.Lawful) (bound : BoundAction) (hr : bound.runId = r) :
    (mutex A r T).discipline.Triple i ((mutex A r T).Holds i (some T)) (deployLocked A i bound)
      (fun _ => (mutex A r T).Holds i (some T)) (fun _ => (mutex A r T).Holds i (some T)) := by
  have hheld := held_stable (A := A) (r := r) (T := T) (i := i)
  unfold deployLocked
  refine .bind (reads (Does.ofExcept _) hheld) (fun action => ?_)
  refine .bind (reads (state_reads A _ _ _) hheld) (fun before => ?_)
  refine .bind (intent_spec bound hr before action) (fun x => ?_)
  obtain ⟨a, intentCreated⟩ := x
  refine .assuming (fun ⟨hkey, haction⟩ => ?_)
  refine .bind (Q := fun _ => Has i r T a A) ((touchesRun (enterDeploying_touches bound)
    (has_stable a)).conseq (fun _ _ hk => hk) (fun _ _ _ hk => hk) (fun _ _ _ hk => hk.1)) (fun _ => ?_)
  split
  · refine .bind ((touchesRun (reconcileApplied_touches bound before action) hheld).pre
      (fun _ _ hk => hk.1)) (fun _ => ?_)
    exact .ret hheld (fun _ _ hk => hk)
  · next hpending => exact applyIntent_spec hA bound hr before action a _ hpending haction hkey

/-- What the run has applied, it may drop. -/
def Applied (r : RunId) (s : World τ) : Prop :=
  ∃ a, s.artifacts r = some a ∧ a.status = .applied

theorem applied_stable : (mutex A r T).discipline.Stable i (Applied r) := by
  rintro s t hr - ⟨a, ha, happlied⟩
  obtain ⟨b, hb, hab⟩ := hr.1.artifacts r a ha
  exact ⟨b, hb, hab.applied happlied⟩

theorem applied_of_boundRollback {s : World τ} {bound : BoundRollback} (hs : Keyed s)
    (h : boundRollback s r = some bound) : bound.artifact.afterState ≠ none → Applied r s := by
  simp only [boundRollback, Option.bind_eq_bind, Option.bind_eq_some_iff] at h
  obtain ⟨_, -, a, ha, _, -, _, -, _, -, h⟩ := h
  cases h
  exact fun hn => ⟨a, ha, (hs.applied r a ha).mpr hn⟩

/-- A drop of the run's own index, once the run has it applied. -/
theorem drop_admits {s : World τ} (hs : (mutex A r T).discipline.inv s)
    (hheld : (mutex A r T).Holds i (some T) s) (happlied : Applied r s) (ns : Namespace)
    (name : String) : (mutex A r T).discipline.Admits i s (s.drop A r ns name) := by
  obtain ⟨outcome, hcalls⟩ := s.drop_calls A r ns name
  have hframe := s.drop_frame A r ns name
  have hgrows := drop_grows A r ns name s
  set t := s.drop A r ns name
  have hmem : ∀ ns' x o n, AdapterCall.create r ns' x o n ∈ t.calls →
      AdapterCall.create r ns' x o n ∈ s.calls := by
    intro ns' x o n hcall
    rw [hcalls, List.mem_append, List.mem_singleton] at hcall
    rcases hcall with hcall | hcall
    · exact hcall
    · cases hcall
  have hart : t.artifacts r = s.artifacts r := by rw [hframe]
  refine Mutex.owned hheld.owns (by rw [hframe]; rfl) hgrows ⟨fun run hrun => hs.1.target run ?_,
    fun ns' x o n hcall => ?_, fun ns' x n _ => .inr (by rw [hart]; exact happlied), ?_⟩
  · rw [hframe] at hrun
    exact hrun
  · rw [hart]
    exact hs.1.made ns' x o n (hmem ns' x o n hcall)
  · rw [World.callsOf_snoc hcalls, List.pairwise_append]
    refine ⟨hs.1.last, by simp, fun _ _ call hcall _ => ?_⟩
    rw [show call = .drop r ns name outcome by simpa using hcall]
    rfl

theorem rollbackLocked_spec (bound : BoundRollback) (hr : bound.runId = r) :
    (mutex A r T).discipline.Triple i (fun s => (mutex A r T).Holds i (some T) s ∧
        (bound.artifact.afterState ≠ none → Applied r s)) (rollbackLocked A bound)
      (fun _ => (mutex A r T).Holds i (some T)) (fun _ => (mutex A r T).Holds i (some T)) := by
  subst hr
  have hK : (mutex A bound.runId T).discipline.Stable i (fun s =>
      (mutex A bound.runId T).Holds i (some T) s ∧
        (bound.artifact.afterState ≠ none → Applied bound.runId s)) :=
    held_stable.and applied_stable.imp
  refine .always (rollbackLocked_operates A bound) (fun l s t hs hk _ h => ?_) hK
    (guards.crashable _) (fun _ _ _ _ hk => hk.1) (fun _ _ _ _ hk => hk.1)
  obtain ⟨⟨hl, hruns, hart, -⟩, hworks⟩ := h
  have hlocks : t.locks = s.locks := by rw [hworks.frame]
  have happlied : bound.artifact.afterState ≠ none → Applied bound.runId t :=
    fun hn => by simpa only [Applied, hart] using hk.2 hn
  refine ⟨?_, hk.1.congr hlocks, happlied⟩
  rcases hl with hl | ⟨hmay, ns, name, rfl⟩
  · obtain ⟨hdb, hcalls⟩ := hworks.quiet hl
    refine (neutral hs hlocks hworks.grows (fun run hrun => hs.1.target run (hruns ▸ hrun))
      (by rw [hart]) (by rw [World.callsOf, hcalls]; rfl) (fun _ _ _ _ hshown => ?_)).admits
    rw [hdb]
    exact hshown
  · obtain ⟨-, rfl⟩ := hworks.drop _ ns name rfl
    exact drop_admits hs hk.1 (hk.2 hmay) ns name

theorem deployForRun_spec (hA : A.Lawful) (q : RunId) :
    (mutex A r T).discipline.Triple i ((mutex A r T).Holds i none) (deployForRun A i q)
      (fun _ => (mutex A r T).Holds i none) (fun _ => (mutex A r T).Holds i none) := by
  by_cases hq : q = r
  · subst hq
    refine Locked.deployForRun_spec (B := fun bound => bound.runId = q ∧ bound.targetId = T)
      (Q := fun _ _ => True) guards q (fun s hs bound hb => ⟨boundAction_runId hb, ?_⟩)
      (fun bound hb => ?_) (fun _ _ _ _ => trivial) (fun _ => (Mutex.holds_stable _).and (.const _))
      (fun _ _ _ _ _ _ _ => trivial)
    · exact hs.1.target bound.run (boundAction_run hb)
    · rw [hb.2]
      exact (deployLocked_spec hA bound hb.1).conseq (fun _ _ hk => hk.1)
        (fun _ _ _ hk => ⟨hk, trivial⟩) (fun _ _ _ hk => ⟨hk, trivial⟩)
  · exact Locked.deployForRun_bystander guards q
      (fun l s t hs hact h => works_neutral (i := i) hA hq hs hact h.2)

theorem rollbackForRun_spec (hA : A.Lawful) (q : RunId) :
    (mutex A r T).discipline.Triple i ((mutex A r T).Holds i none) (rollbackForRun A i q)
      (fun _ => (mutex A r T).Holds i none) (fun _ => (mutex A r T).Holds i none) := by
  by_cases hq : q = r
  · subst hq
    refine Locked.rollbackForRun_spec (B := fun bound s => (bound.runId = q ∧ bound.targetId = T) ∧
        (bound.artifact.afterState ≠ none → Applied q s)) (Q := fun _ _ => True) guards q
      (fun s hs hact bound hb => ⟨⟨boundRollback_runId hb, ?_⟩, applied_of_boundRollback hact.2 hb⟩)
      (fun bound => (Discipline.Stable.const _).and applied_stable.imp) (fun _ _ _ hb => hb)
      (fun bound => ?_) (fun _ => (Mutex.holds_stable _).and (.const _)) (fun _ _ _ _ _ _ => trivial)
    · obtain ⟨run, hrun, htarget⟩ := boundRollback_run hb
      rw [htarget]
      exact hs.1.target run hrun
    · intro s hs hk
      obtain ⟨hheld, ⟨⟨hid, hT⟩, happlied⟩, -⟩ := hk
      rw [hT] at hheld ⊢
      exact (rollbackLocked_spec bound hid).conseq (fun _ _ hk => hk)
        (fun _ _ _ hk => ⟨hk, trivial⟩) (fun _ _ _ hk => ⟨hk, trivial⟩) s hs ⟨hheld, happlied⟩
  · exact Locked.rollbackForRun_bystander guards q
      (fun l s t hs hact h => works_neutral (i := i) hA hq hs hact h.2)

theorem governs (hA : A.Lawful) : (mutex A r T).discipline.Governs := by
  refine .of_triples (fun i k _ => ?_) (fun s t h hs => ?_)
  · cases k with
    | deployForRun q =>
      exact .bind (deployForRun_spec hA q) (fun _ => .ret (Mutex.holds_stable _) (fun _ _ hk => hk))
    | rollbackForRun q =>
      exact .bind (rollbackForRun_spec hA q)
        (fun _ => .ret (Mutex.holds_stable _) (fun _ _ hk => hk))
  · obtain ⟨⟨hexternal, hlocks, hshown, hT⟩, -⟩ := h
    exact neutral hs hlocks hexternal.grows hT (by rw [hexternal.artifacts])
      (by rw [World.callsOf, hexternal.calls]; rfl) hshown

end Once

/-- Over any number of crashes, retries and workers, `create_index` takes effect once at most for the
run, and is not called again for it. -/
theorem create_index_once {A : DatabaseAdapter τ} (hA : A.Lawful) {r : RunId} {T : TargetId}
    {s₀ : World τ} (h₀ : Untouched s₀) (hT : ∀ run, s₀.runs r = some run → run.targetId = T)
    (hfree : s₀.locks = fun _ => none) {c : Config Label (World τ) Error WorkerId}
    (hr : (services A).Reach (serialised A r T).Allows (.quiet s₀) c) : CreatedOnce c.shared r := by
  have hgiven := hr.given (fun d hd => Keyed.reach (C := serialised A r T) (fun _ _ h => h.1) h₀ hd)
  have hholds : (Once.mutex A r T).discipline.Holds (.quiet s₀ : Config _ _ _ WorkerId) := by
    refine .quiet ⟨.of_untouched h₀ hT, fun _ => trivial⟩ (fun i t => ?_)
    simp [Once.mutex, hfree]
  exact (hholds.reach (Once.governs hA) hgiven).inv.1.once

/-- Worker 0 dies after the mutation, before it has recorded anything of it; worker 1 takes over. -/
theorem create_index_once_prepared :
    ∃ c, (services mongodb).Reach (serialised mongodb 0 0).Allows
        (.quiet (Preparation.world {} (preparedCollection []))) c ∧
      c.shared.calls = [.create 0 ⟨"orders"⟩ preparedAction.toIndexSpec .effected 1] ∧
      CreatedOnce c.shared 0 := by
  have hrun : ((services mongodb).exec (stepwise (fun _ l => l.mutates.all (· = 0)))
      (Event.calls 0 (.deployForRun 0) 18 ++ [.crash 0] ++ Event.calls 1 (.deployForRun 0) 24)
      (.quiet (Preparation.world {} (preparedCollection [])))).map (·.shared.calls) =
      some [.create 0 ⟨"orders"⟩ preparedAction.toIndexSpec .effected 1] := by decide +kernel
  obtain ⟨c, hr, hc⟩ := System.Reach.of_exec_map (stepwise_allows (C := serialised mongodb 0 0)
    (fun _ _ _ => trivial)
    (by
      rintro _ _ s h q ns name rfl hq
      exact absurd (of_decide_eq_true h) hq)
    (fun _ _ _ _ => trivial) (by simp [Event.calls])) hrun
  have htarget : ∀ run, (Preparation.world {} (preparedCollection [])).runs 0 = some run →
      run.targetId = 0 := by
    rintro _ ⟨⟩
    rfl
  exact ⟨c, hr, hc, create_index_once mongodb_lawful ⟨rfl, rfl, rfl, rfl, rfl⟩ htarget rfl hr⟩

end NoSQLOptimizer.Production
