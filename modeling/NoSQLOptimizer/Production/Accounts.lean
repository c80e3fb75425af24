import Mathlib.Data.List.Infix
import NoSQLOptimizer.ControlPlane.Prepared
import NoSQLOptimizer.Production.Keyed
import NoSQLOptimizer.Production.Locked

namespace NoSQLOptimizer.Production

open Adapters Actions ControlPlane Concurrency Recovery Runs

variable {τ : Type}

/-- The run's entries of one kind. -/
def eventsOf (s : World τ) (r : RunId) (event : LedgerEvent) : List LedgerEntry :=
  (s.entriesOf r).filter (·.eventType = event)

/-- The deployment of a DEPLOYED run is in its target's ledger: the intent, before the effect, and the
effect itself, once, against the state that the artifact records. -/
def Ledgered (s : World τ) (r : RunId) : Prop :=
  ∀ run a, s.runs r = some run → run.status = .deployed → s.artifacts r = some a →
    a.status = .applied →
    (∃ e ∈ eventsOf s r .deploymentIntent, e.targetId = run.targetId) ∧
    (∀ ns x n, AdapterCall.create r ns x .effected n ∈ s.calls →
      ∃ e ∈ s.ledger.take n, e.runId = r ∧ e.targetId = run.targetId ∧
        e.eventType = .deploymentIntent) ∧
    ∃ e, eventsOf s r .deploymentApplied = [e] ∧ e.targetId = run.targetId ∧
      e.beforeState = a.beforeState ∧
      e.intendedState = intended a.beforeState a.actionFingerprint.document

/-- Nothing that the run has done still waits for its entry. -/
def settled (s : World τ) (r : RunId) : Bool :=
  ((s.artifacts r).isNone || !(eventsOf s r .deploymentIntent).isEmpty) &&
    ((s.artifacts r).all (·.status ≠ .applied) && (s.callsOf r).all (!·.created) ||
      !(eventsOf s r .deploymentApplied).isEmpty)

/-- Any deployments, crashes and retries, nobody else changing the target; but no deployment of the
run ends, by a crash or by an exception, with something still waiting for its entry. -/
def undisturbed (A : DatabaseAdapter τ) (r : RunId) (T : TargetId) : (services A).Conduct where
  starts k := ∃ q, k = .deployForRun q
  acts _ l s := (∀ q, l.mutates = some q → q = r) ∧
    (l = .release .deployment r T → settled s r = true)
  crashes i _ s := s.locks T = some i → settled s r = true
  env s t := External s t ∧ t.locks = s.locks ∧ t.db = s.db ∧
    ∀ run, t.runs r = some run → run.targetId = T ∧
      (run.status = .deployed → ∃ run', s.runs r = some run' ∧ run'.status = .deployed)

theorem settled_iff {s : World τ} {r : RunId} : settled s r = true ↔
    (s.artifacts r ≠ none → eventsOf s r .deploymentIntent ≠ []) ∧
      ((∃ a, s.artifacts r = some a ∧ a.status = .applied) ∨ ¬ NoneCreated r s →
        eventsOf s r .deploymentApplied ≠ []) := by
  have hnone : (s.callsOf r).all (!·.created) = true ↔ NoneCreated r s := by
    simp [NoneCreated]
  have hpending : (s.artifacts r).all (·.status ≠ .applied) = true ↔
      ¬ ∃ a, s.artifacts r = some a ∧ a.status = .applied := by
    cases s.artifacts r <;> simp
  rw [settled, Bool.and_eq_true, Bool.or_eq_true, Bool.or_eq_true, Bool.and_eq_true, hnone, hpending]
  simp only [Option.isNone_iff_eq_none, Bool.not_eq_true', List.isEmpty_eq_false_iff, ne_eq]
  rw [or_iff_not_imp_left, or_iff_not_imp_left, not_and_or, not_not]

/-- The run's artifact is applied, and all is entered. -/
def Paid (s : World τ) (r : RunId) : Prop :=
  settled s r = true ∧ ∃ a, s.artifacts r = some a ∧ a.status = .applied

structure Accounts (A : DatabaseAdapter τ) (r : RunId) (T : TargetId) (s : World τ) : Prop where
  run : ∀ run, s.runs r = some run → run.targetId = T ∧ (run.status = .deployed → Paid s r)
  bare : s.artifacts r = none → s.entriesOf r = [] ∧ NoneCreated r s
  entries : ∀ e ∈ s.entriesOf r, e.targetId = T
  early : ∀ ns x n, AdapterCall.create r ns x .effected n ∈ s.calls →
    ∃ e ∈ s.ledger.take n, e.runId = r ∧ e.targetId = T ∧ e.eventType = .deploymentIntent
  before : ∀ a, s.artifacts r = some a → NoneCreated r s →
    a.beforeState = stateOf A s.db a.actionFingerprint.document
  applied : eventsOf s r .deploymentApplied = [] ∨ ∃ a e, s.artifacts r = some a ∧
    a.status = .applied ∧ eventsOf s r .deploymentApplied = [e] ∧
    e.beforeState = a.beforeState ∧
    e.intendedState = intended a.beforeState a.actionFingerprint.document

theorem Accounts.ledgered {A : DatabaseAdapter τ} {r : RunId} {T : TargetId} {s : World τ}
    (h : Accounts A r T s) : Ledgered s r := by
  intro run a hrun hdeployed ha happlied
  obtain ⟨rfl, hpaid⟩ := h.run run hrun
  obtain ⟨hintent, hentered⟩ := settled_iff.mp (hpaid hdeployed).1
  have hevents : ∀ event, ∀ e ∈ eventsOf s r event, e.targetId = run.targetId :=
    fun event e he => h.entries e (List.mem_filter.mp he).1
  refine ⟨?_, h.early, ?_⟩
  · obtain ⟨e, he⟩ := List.exists_mem_of_ne_nil _ (hintent (by simp [ha]))
    exact ⟨e, he, hevents _ e he⟩
  · rcases h.applied with hnone | ⟨b, e, hb, -, he, hbefore, hintended⟩
    · exact absurd hnone (hentered (.inl ⟨a, ha, happlied⟩))
    · obtain rfl : a = b := Option.some_inj.mp (ha.symm.trans hb)
      exact ⟨e, he, hevents _ e (he ▸ List.mem_singleton_self e), hbefore, hintended⟩

theorem Accounts.of_untouched {A : DatabaseAdapter τ} {r : RunId} {T : TargetId} {s : World τ}
    (h : Untouched s) (hrun : ∀ run, s.runs r = some run → run.targetId = T ∧
      run.status ≠ .deployed) : Accounts A r T s := by
  refine ⟨fun run hr => ⟨(hrun run hr).1, fun hd => absurd hd (hrun run hr).2⟩, fun _ => ?_, ?_, ?_,
    ?_, .inl ?_⟩
  · simp [World.entriesOf, NoneCreated, World.callsOf, h.ledger, h.calls]
  · simp [World.entriesOf, h.ledger]
  · simp [h.calls]
  · simp [h.artifacts]
  · simp [eventsOf, World.entriesOf, h.ledger]

/-- What the lock's owner has to itself. -/
structure View (r : RunId) (s t : World τ) : Prop where
  artifact : t.artifacts r = s.artifacts r
  entries : t.entriesOf r = s.entriesOf r
  calls : t.callsOf r = s.callsOf r
  db : t.db = s.db

theorem View.refl (r : RunId) (s : World τ) : View r s s := ⟨rfl, rfl, rfl, rfl⟩

theorem View.trans {r : RunId} {s t u : World τ} (h : View r s t) (h' : View r t u) : View r s u :=
  ⟨h'.artifact.trans h.artifact, h'.entries.trans h.entries, h'.calls.trans h.calls,
    h'.db.trans h.db⟩

theorem View.events {r : RunId} {s t : World τ} (h : View r s t) (event : LedgerEvent) :
    eventsOf t r event = eventsOf s r event := by
  rw [eventsOf, h.entries]
  rfl

theorem View.settled {r : RunId} {s t : World τ} (h : View r s t) :
    settled t r = settled s r := by
  rw [Production.settled, h.artifact, h.events, h.events, h.calls]
  rfl

theorem View.paid {r : RunId} {s t : World τ} (h : View r s t) (hp : Paid s r) : Paid t r := by
  rw [Paid, h.settled, h.artifact]
  exact hp

/-- What leaves the view alone and does not deploy the run leaves the accounts right. -/
theorem Accounts.mono {A : DatabaseAdapter τ} {r : RunId} {T : TargetId} {s t : World τ}
    (h : Accounts A r T s) (hg : Grows s t) (hv : View r s t)
    (hrun : ∀ run, t.runs r = some run → run.targetId = T ∧ (run.status = .deployed → Paid s r)) :
    Accounts A r T t := by
  have hnone : NoneCreated r t ↔ NoneCreated r s := by rw [NoneCreated, hv.calls]; rfl
  refine ⟨fun run hr => ⟨(hrun run hr).1, fun hd => hv.paid ((hrun run hr).2 hd)⟩, fun ha => ?_, ?_,
    fun ns x n hcall => ?_, fun a ha hn => ?_, ?_⟩
  · rw [hv.entries, hnone]
    exact h.bare (hv.artifact ▸ ha)
  · rw [hv.entries]
    exact h.entries
  · obtain ⟨e, he, hentry⟩ := h.early ns x n ((mem_callsOf hv.calls rfl).mp hcall)
    exact ⟨e, (List.IsPrefix.take hg.ledger n).subset he, hentry⟩
  · rw [hv.db]
    exact h.before a (hv.artifact ▸ ha) (hnone.mp hn)
  · rw [hv.events, hv.artifact]
    exact h.applied

theorem entriesOf_enter (s : World τ) {payload : LedgerPayload} {r : RunId}
    (hr : payload.runId = r) : ∃ e : LedgerEntry, e.toLedgerPayload = payload ∧
      (s.enter payload).entriesOf r = s.entriesOf r ++ [e] ∧
      ∀ event, eventsOf (s.enter payload) r event =
        eventsOf s r event ++ if payload.eventType = event then [e] else [] := by
  obtain ⟨e, rfl, henter⟩ := s.enter_eq payload
  have hentries : (s.enter e.toLedgerPayload).entriesOf r = s.entriesOf r ++ [e] := by
    rw [henter]
    simp [World.entriesOf, hr]
  refine ⟨e, rfl, hentries, fun event => ?_⟩
  rw [eventsOf, hentries, List.filter_append]
  simp [eventsOf, List.filter_cons]

theorem unpaid {s : World τ} {r : RunId} (h : eventsOf s r .deploymentApplied = []) :
    ¬ Paid s r :=
  fun hp => (settled_iff.mp hp.1).2 (.inl hp.2) h

section

variable {A : DatabaseAdapter τ} {r : RunId} {T : TargetId} {s : World τ} {a : DeploymentArtifact}

/-- The run's first row. -/
theorem Accounts.insert (h : Accounts A r T s) (hnone : s.artifacts r = none)
    (hbefore : a.beforeState = stateOf A s.db a.actionFingerprint.document) :
    Accounts A r T (putArtifact r a s) := by
  obtain ⟨hentries, -⟩ := h.bare hnone
  have hevents : eventsOf (putArtifact r a s) r .deploymentApplied = [] := by
    rw [eventsOf, show (putArtifact r a s).entriesOf r = [] from hentries]
    rfl
  refine ⟨fun run hrun => ⟨(h.run run hrun).1, fun hd => ?_⟩, fun hn => ?_, h.entries, h.early,
    fun b hb _ => ?_, .inl hevents⟩
  · obtain ⟨-, b, hb, -⟩ := (h.run run hrun).2 hd
    rw [hnone] at hb
    cases hb
  · simp [putArtifact] at hn
  · obtain rfl : a = b := by simpa [putArtifact] using hb
    exact hbefore

/-- The effect is recorded; its entry is still to come. -/
theorem Accounts.apply (h : Accounts A r T s) (ha : s.artifacts r = some a)
    (hpending : eventsOf s r .deploymentApplied = []) (after : IndexState) :
    Accounts A r T
      (putArtifact r { a with status := .applied, afterState := some after } s) := by
  refine ⟨fun run hrun => ⟨(h.run run hrun).1, fun hd => ?_⟩, fun hn => ?_, h.entries, h.early,
    fun b hb hn => ?_, .inl hpending⟩
  · exact absurd ((h.run run hrun).2 hd) (unpaid hpending)
  · simp [putArtifact] at hn
  · have hb' : { a with status := .applied, afterState := some after } = b := by
      simpa [putArtifact] using hb
    rw [← hb']
    exact h.before a ha hn

/-- The entry of the intent, or the one of the effect. -/
theorem Accounts.enter (h : Accounts A r T s) {payload : LedgerPayload} (hr : payload.runId = r)
    (hT : payload.targetId = T) (ha : s.artifacts r = some a)
    (hpending : eventsOf s r .deploymentApplied = [])
    (happlied : payload.eventType = .deploymentApplied → a.status = .applied ∧
      payload.beforeState = a.beforeState ∧
      payload.intendedState = intended a.beforeState a.actionFingerprint.document) :
    Accounts A r T (s.enter payload) := by
  obtain ⟨e, rfl, hentries, hevents⟩ := entriesOf_enter s hr
  refine ⟨fun run hrun => ⟨(h.run run hrun).1, fun hd => ?_⟩, fun hn => ?_, fun e' he' => ?_,
    fun ns x n hcall => ?_, h.before, ?_⟩
  · exact absurd ((h.run run hrun).2 hd) (unpaid hpending)
  · rw [show s.artifacts r = none from hn] at ha
    cases ha
  · rw [hentries, List.mem_append, List.mem_singleton] at he'
    rcases he' with he' | rfl
    · exact h.entries e' he'
    · exact hT
  · obtain ⟨e', he', hentry⟩ := h.early ns x n hcall
    exact ⟨e', (List.IsPrefix.take (List.prefix_append _ _) n).subset he', hentry⟩
  · rw [hevents, hpending, List.nil_append]
    split
    · next he =>
      obtain ⟨hstatus, hbefore, hintended⟩ := happlied he
      exact .inr ⟨a, e, ha, hstatus, rfl, hbefore, hintended⟩
    · exact .inl rfl

/-- The call of `create_index`, where the intent is entered and the index is not there. -/
theorem Accounts.create (h : Accounts A r T s) (ha : s.artifacts r = some a)
    (hpending : eventsOf s r .deploymentApplied = [])
    (hintent : eventsOf s r .deploymentIntent ≠ []) {ns : Namespace} {x : IndexSpec}
    (hno : A.shows s.db ns x = false) : Accounts A r T (s.create A r ns x) := by
  obtain ⟨outcome, hcalls, hcases⟩ := s.create_cases A r ns x
  have hframe := s.create_frame A r ns x
  set t := s.create A r ns x
  have hledger : t.ledger = s.ledger := by rw [hframe]
  have hart : t.artifacts = s.artifacts := by rw [hframe]
  have hruns : t.runs = s.runs := by rw [hframe]
  refine ⟨fun run hrun => ⟨(h.run run (hruns ▸ hrun)).1, fun hd => ?_⟩, fun hn => ?_, ?_,
    fun ns' x' n hcall => ?_, fun b hb hn => ?_, .inl ?_⟩
  · exact absurd ((h.run run (hruns ▸ hrun)).2 hd) (unpaid hpending)
  · rw [hart, ha] at hn
    cases hn
  · rw [World.entriesOf, hledger]
    exact h.entries
  · rw [hcalls, List.mem_append, List.mem_singleton] at hcall
    rw [hledger]
    rcases hcall with hcall | hcall
    · exact h.early ns' x' n hcall
    · cases hcall
      obtain ⟨e, he⟩ := List.exists_mem_of_ne_nil _ hintent
      obtain ⟨hmem, hevent⟩ := List.mem_filter.mp he
      obtain ⟨hmem', hrun⟩ := List.mem_filter.mp hmem
      exact ⟨e, by rw [List.take_length]; exact hmem', of_decide_eq_true hrun, h.entries e hmem,
        of_decide_eq_true hevent⟩
  · have hlast := hn (.create r ns x outcome s.ledger.length)
      (by rw [World.callsOf_snoc hcalls]; simp)
    rcases hcases with ⟨rfl, hdb⟩ | ⟨rfl, -⟩
    · rw [hdb]
      refine h.before b (hart ▸ hb) (fun call hcall => hn call ?_)
      rw [World.callsOf_snoc hcalls]
      exact List.mem_append_left _ hcall
    · rw [hno] at hlast
      cases hlast
  · rw [eventsOf, World.entriesOf, hledger]
    exact hpending

end

namespace Accounts

variable {A : DatabaseAdapter τ} {r : RunId} {T : TargetId} {i : WorkerId}

def mutex (A : DatabaseAdapter τ) (r : RunId) (T : TargetId) :
    Mutex ((undisturbed A r T).given Keyed) TargetId where
  owner := World.locks
  lock := T
  always := Accounts A r T
  good s := settled s r = true
  grows := Grows
  view := View r
  grows_refl := Grows.refl
  grows_trans := Grows.trans
  view_refl := View.refl r
  view_trans := View.trans
  view_good h hs := h.settled.trans hs

theorem guards : Guards (mutex A r T) where
  owner := rfl
  always _ _ h := ⟨h.run, h.bare, h.entries, h.early, h.before, h.applied⟩
  grows _ _ := .of_eq rfl rfl rfl rfl List.prefix_rfl
  view _ _ := ⟨rfl, rfl, rfl, rfl⟩
  crash := rfl
  crashes _ _ _ _ h := h.1

theorem neutral {s t : World τ} (hs : (mutex A r T).discipline.inv s) (hlocks : t.locks = s.locks)
    (hg : Grows s t) (hv : View r s t)
    (hrun : ∀ run, t.runs r = some run → run.targetId = T ∧ (run.status = .deployed → Paid s r)) :
    (mutex A r T).discipline.Neutral s t :=
  Mutex.neutral hs hlocks hv hg (hs.1.mono hg hv hrun)

/-- No call for another run is minded: it changes nothing on the target. -/
theorem works_neutral {q : RunId} {l : Label} {s t : World τ} (hq : q ≠ r)
    (hs : (mutex A r T).discipline.inv s) (hact : ((undisturbed A r T).given Keyed).acts i l s)
    (h : Works A q l s t) : (mutex A r T).discipline.Neutral s t := by
  have hspared := h.within r (Ne.symm hq)
  have hquiet : l.mutates = none := by
    cases l with
    | createIndex q' ns x => exact absurd ((h.create q' ns x rfl).1.symm.trans (hact.1.1 q' rfl)) hq
    | dropIndex q' ns name => exact absurd ((h.drop q' ns name rfl).1.symm.trans (hact.1.1 q' rfl)) hq
    | _ => rfl
  refine neutral hs (by rw [h.frame]) h.grows
    ⟨hspared.artifact, hspared.ledger, hspared.calls, (h.quiet hquiet).1⟩ (fun run hrun => ?_)
  exact hs.1.run run (hspared.run ▸ hrun)

abbrev Held (i : WorkerId) (r : RunId) (T : TargetId) (A : DatabaseAdapter τ) (s : World τ) : Prop :=
  (mutex A r T).Holds i (some T) s

/-- What the lock's owner sees of the view, others leave alone. -/
theorem view_stable {P : World τ → Prop} (hP : ∀ s t, View r s t → P s → P t) :
    (mutex A r T).discipline.Stable i (fun s => Held i r T A s ∧ P s) :=
  Mutex.stable_of_view (fun s t _ hv hp => hP s t hv hp)

theorem held_stable : (mutex A r T).discipline.Stable i (Held i r T A) := Mutex.holds_stable _

section

variable {K : World τ → Prop} {α : Type} {p : Proc τ α} {keeps : World τ → World τ → Prop}

/-- Work on recovery rows, on rows of other runs or on the run's own status. -/
theorem touches (hp : Does (Touches keeps) p) (hK : (mutex A r T).discipline.Stable i K)
    (hk : ∀ s t, keeps s t → t = { s with runs := t.runs, recovery := t.recovery } ∧ Grows s t)
    (hrun : ∀ s t, (mutex A r T).discipline.inv s → K s → keeps s t →
      ∀ run, t.runs r = some run → run.targetId = T ∧ (run.status = .deployed → Paid s r)) :
    (mutex A r T).discipline.Triple i K p (fun _ => K) (fun _ => K) := by
  refine .always hp (fun l s t hs hks _ h => ?_) hK (guards.crashable K) (fun _ _ _ _ h => h)
    (fun _ _ _ _ h => h)
  obtain ⟨hframe, hg⟩ := hk s t h.2
  have hn := neutral hs (by rw [hframe]) hg
    ⟨by rw [hframe], by rw [hframe]; rfl, by rw [hframe]; rfl, by rw [hframe]⟩ (hrun s t hs hks h.2)
  exact ⟨hn.admits, hK (hn.2 i) hn.1 hks⟩

theorem reads (hp : Does Reads p) (hK : (mutex A r T).discipline.Stable i K) :
    (mutex A r T).discipline.Triple i K p (fun _ => K) (fun _ => K) :=
  touches hp hK (fun s t h => by subst h; exact ⟨rfl, .refl _⟩) (fun s t hs _ h => h ▸ hs.1.run)

theorem touchesRecovery (hp : Does TouchesRecovery p) (hK : (mutex A r T).discipline.Stable i K) :
    (mutex A r T).discipline.Triple i K p (fun _ => K) (fun _ => K) :=
  touches hp hK (fun s t h => ⟨by rw [h.1], h.2⟩) (fun s t hs _ h => by rw [h.1]; exact hs.1.run)

/-- Only a run that is paid goes to DEPLOYED. -/
theorem touchesRun {q : RunId} {next : RunStatus} (hp : Does (TouchesRun q next) p)
    (hK : (mutex A r T).discipline.Stable i K)
    (hnext : next = .deployed → ∀ s, (mutex A r T).discipline.inv s → K s → Paid s r) :
    (mutex A r T).discipline.Triple i K p (fun _ => K) (fun _ => K) := by
  refine touches hp hK (fun s t h => ⟨by rw [h.1], by
    rw [h.1]
    exact .of_eq rfl rfl rfl rfl List.prefix_rfl⟩) (fun s t hs hks h run hrun => ?_)
  obtain ⟨-, hsame, hwithin, hsteps⟩ := h
  have hsame' : SameRuns t s := fun q => (hsame q).symm
  obtain ⟨run', hrun', hfixed⟩ := hsame'.row hrun
  have htarget : run.targetId = T :=
    (congrArg OptimizationRun.targetId hfixed).symm.trans (hs.1.run run' hrun').1
  refine ⟨htarget, fun hdeployed => ?_⟩
  by_cases hq : r = q
  · subst hq
    rcases hsteps with heq | ⟨_, moved, -, hmoved, -, hstatus⟩
    · exact (hs.1.run run (heq ▸ hrun)).2 hdeployed
    · obtain rfl : moved = run := Option.some_inj.mp (hmoved.symm.trans hrun)
      exact hnext (hstatus.symm.trans hdeployed) s hs hks
  · exact (hs.1.run run ((hwithin r hq).run ▸ hrun)).2 hdeployed

end

/-- The artifact stands, and the entry of its effect is still to come. -/
def Pending (a : DeploymentArtifact) (r : RunId) (s : World τ) : Prop :=
  s.artifacts r = some a ∧ eventsOf s r .deploymentApplied = []

/-- The intent is entered besides. -/
def Intended (a : DeploymentArtifact) (r : RunId) (s : World τ) : Prop :=
  Pending a r s ∧ eventsOf s r .deploymentIntent ≠ []

theorem Pending.view {a : DeploymentArtifact} {s t : World τ} (h : View r s t)
    (hp : Pending a r s) : Pending a r t := by
  rw [Pending, h.artifact, h.events]
  exact hp

theorem Intended.view {a : DeploymentArtifact} {s t : World τ} (h : View r s t)
    (hp : Intended a r s) : Intended a r t := by
  rw [Intended, h.events]
  exact ⟨hp.1.view h, hp.2⟩

theorem Intended.pending {a : DeploymentArtifact} {s : World τ} (h : Intended a r s) :
    Pending a r s := h.1

section

variable {α : Type} {p : Proc τ α} {P : World τ → Prop}

/-- Whatever goes wrong, the lock is held to the end. -/
theorem holding (h : (mutex A r T).discipline.Triple i (fun s => Held i r T A s ∧ P s) p
      (fun _ s => Held i r T A s ∧ P s) (fun _ s => Held i r T A s ∧ P s)) :
    (mutex A r T).discipline.Triple i (fun s => Held i r T A s ∧ P s) p
      (fun _ s => Held i r T A s ∧ P s) (fun _ => Held i r T A) :=
  h.conseq (fun _ _ hk => hk) (fun _ _ _ hk => hk) (fun _ _ _ hk => hk.1)

/-- The lock's owner sees the target as it is. -/
theorem state_spec (hP : ∀ s t, View r s t → P s → P t) (why : Reading)
    (action : CreateIndexAction) :
    (mutex A r T).discipline.Triple i (fun s => Held i r T A s ∧ P s) (state A r why action)
      (fun x s => Held i r T A s ∧ P s ∧ x = stateOf A s.db action) (fun _ => Held i r T A) := by
  have hlisted : ∀ namespaces, (mutex A r T).discipline.Stable i (fun s => Held i r T A s ∧
      P s ∧ namespaces = A.listNamespaces s.db) :=
    fun _ => view_stable (fun s t hv h => ⟨hP s t hv h.1, by rw [hv.db]; exact h.2⟩)
  have hstate : ∀ x, (mutex A r T).discipline.Stable i (fun s => Held i r T A s ∧
      P s ∧ x = stateOf A s.db action) :=
    fun _ => view_stable (fun s t hv h => ⟨hP s t hv h.1, by rw [hv.db]; exact h.2⟩)
  unfold state
  refine .bind (Q := fun namespaces s => Held i r T A s ∧ P s ∧ namespaces = A.listNamespaces s.db)
    (.read (view_stable hP) (guards.crashable _) hlisted (fun s _ hk _ => ⟨hk.1, hk.2, rfl⟩))
    (fun namespaces => ?_)
  split
  · next hns =>
    refine .bind (Q := fun indexes s => Held i r T A s ∧
        P s ∧ (⟨action.database, action.collection, true, indexes⟩ : IndexState) = stateOf A s.db action)
      (.read (hlisted _) (guards.crashable _) (fun _ => hstate _) (fun s _ hk _ =>
        ⟨hk.1, hk.2.1, ?_⟩)) (fun indexes => .ret (hstate _) (fun _ _ hk => hk))
    rw [stateOf, if_pos (hk.2.2 ▸ hns)]
  · next hns =>
    refine .ret (hlisted _) (fun s _ hk => ⟨hk.1, hk.2.1, ?_⟩)
    rw [stateOf, if_neg (hk.2.2 ▸ hns)]

end

/-- What the insertion, or the row that was there, leaves to be done. -/
structure Opened (r : RunId) (before : IndexState) (a : DeploymentArtifact) (created : Bool)
    (s : World τ) : Prop where
  artifact : s.artifacts r = some a
  applied : a.status = .applied → settled s r = true
  pending : a.status ≠ .applied → Pending a r s
  intended : a.status ≠ .applied → created = false → Intended a r s

theorem Opened.view {before : IndexState} {a : DeploymentArtifact} {created : Bool} {s t : World τ}
    (hv : View r s t) (h : Opened r before a created s) : Opened r before a created t :=
  ⟨by rw [hv.artifact]; exact h.artifact, fun ha => hv.settled.trans (h.applied ha),
    fun ha => (h.pending ha).view hv, fun ha hc => (h.intended ha hc).view hv⟩

/-- A row that was there and is not applied: the state now is the one it was inserted with. -/
theorem before_of_settled {s : World τ} {a : DeploymentArtifact} (hs : Accounts A r T s)
    (hsettled : settled s r = true) (ha : s.artifacts r = some a) (hpending : a.status ≠ .applied) :
    Intended a r s ∧ a.beforeState = stateOf A s.db a.actionFingerprint.document := by
  obtain ⟨hintent, hentered⟩ := settled_iff.mp hsettled
  have hnone : eventsOf s r .deploymentApplied = [] := by
    rcases hs.applied with hnone | ⟨b, _, hb, happlied, -⟩
    · exact hnone
    · obtain rfl : a = b := Option.some_inj.mp (ha.symm.trans hb)
      exact absurd happlied hpending
  refine ⟨⟨⟨ha, hnone⟩, hintent (by simp [ha])⟩, hs.before a ha ?_⟩
  by_contra heffect
  exact hentered (.inr heffect) hnone

theorem put_admits {s : World τ} {b : DeploymentArtifact} (hheld : Held i r T A s)
    (hadv : ∀ old, s.artifacts r = some old → Advances old b)
    (ht : Accounts A r T (putArtifact r b s)) :
    (mutex A r T).discipline.Admits i s (putArtifact r b s) :=
  Mutex.owned hheld.owns rfl (putArtifact_grows hadv) ht

theorem intent_spec (bound : BoundAction) (hr : bound.runId = r) (before : IndexState)
    (action : CreateIndexAction) :
    (mutex A r T).discipline.Triple i (fun s => Held i r T A s ∧
        settled s r = true ∧ before = stateOf A s.db action) (intent bound before action)
      (fun x s => (Held i r T A s ∧ Opened r before x.1 x.2 s) ∧
        x.1.actionFingerprint = ⟨action⟩ ∧ x.1.idempotencyKey.actionFingerprint = ⟨action⟩ ∧
        (x.1.status ≠ .applied → x.1.beforeState = before))
      (fun _ => Held i r T A) := by
  subst hr
  refine .atomic (view_stable (fun s t hv h => ⟨hv.settled.trans h.1, by rw [hv.db]; exact h.2⟩))
    (guards.crashable _) (fun x => (view_stable (fun _ _ => Opened.view)).and (.const _))
    (fun _ => held_stable) (fun s x t hs hk hact hT => ?_) (fun _ _ _ hk _ _ => hk.1)
  obtain ⟨a, created⟩ := x
  obtain ⟨hheld, hsettled, hbefore⟩ := hk
  rcases intentRow_ok hT with ⟨ha, howns, rfl, rfl⟩ | ⟨hnone, rfl, rfl, rfl⟩
  · simp only [BoundAction.owns, Bool.and_eq_true, decide_eq_true_eq] at howns
    have hopen := before_of_settled hs.1 hsettled ha
    refine ⟨.refl hs, ⟨hheld, ha, fun _ => hsettled, fun hp => (hopen hp).1.pending,
      fun hp _ => (hopen hp).1⟩, howns.2, ?_, fun hp => ?_⟩
    · rw [hact.2.key _ a ha]
      exact howns.2
    · rw [(hopen hp).2, howns.2, hbefore]
  · obtain ⟨hentries, -⟩ := hs.1.bare hnone
    refine ⟨put_admits hheld (by simp [hnone]) (hs.1.insert hnone hbefore),
      ⟨hheld.congr rfl, by simp [putArtifact], (fun h => by cases h),
        fun _ => ⟨by simp [putArtifact], ?_⟩, (fun _ h => by cases h)⟩,
      rfl, rfl, fun _ => rfl⟩
    rw [eventsOf, show (putArtifact _ _ s).entriesOf _ = [] from hentries]
    rfl

theorem append_intent_spec (a : DeploymentArtifact) (payload : LedgerPayload)
    (hr : payload.runId = r) (hT : payload.targetId = T)
    (hevent : payload.eventType = .deploymentIntent) :
    (mutex A r T).discipline.Triple i (fun s => Held i r T A s ∧ Pending a r s) (append payload)
      (fun _ s => Held i r T A s ∧ Intended a r s) (fun _ => Held i r T A) := by
  refine .modify (view_stable (fun _ _ => Pending.view)) (guards.crashable _)
    (view_stable (fun _ _ => Intended.view)) (fun s hs hk _ => ?_)
  obtain ⟨hheld, ha, hnone⟩ := hk
  obtain ⟨e, -, -, hevents⟩ := entriesOf_enter s hr
  refine ⟨Mutex.owned hheld.owns rfl (enter_grows payload s)
    (hs.1.enter hr hT ha hnone (by simp [hevent])), hheld.congr rfl, ⟨ha, ?_⟩, ?_⟩
  · rw [hevents, hnone, hevent]
    rfl
  · rw [hevents, hevent]
    simp

theorem beginExecution_spec (a : DeploymentArtifact) (key : IdempotencyKey) :
    (mutex A r T).discipline.Triple i (fun s => Held i r T A s ∧ Intended a r s) (beginExecution key)
      (fun o s => (Held i r T A s ∧ Intended a r s) ∧
        ∀ expected, o = some expected → expected = key.actionFingerprint)
      (fun _ => Held i r T A) := by
  have hK := view_stable (A := A) (T := T) (i := i) (fun _ _ => Intended.view (a := a) (r := r))
  refine .atomic hK (guards.crashable _) (fun o => hK.and (.const _)) (fun _ => held_stable)
    (fun s o t hs hk hact hT => ?_) (fun _ _ _ hk _ _ => hk.1)
  obtain ⟨row, hrow, ⟨-, rfl, rfl⟩ | ⟨rfl, rfl⟩⟩ := beginRow_ok hT
  · exact ⟨.refl hs, hk, by simp⟩
  · have hgrows : Grows s (put key { row with state := .executionStarted } s) :=
      .putRecovery (by simp [hrow])
    refine ⟨(neutral (t := put _ _ s) hs rfl hgrows ⟨rfl, rfl, rfl, rfl⟩ hs.1.run).admits,
      ⟨hk.1.congr rfl, hk.2⟩, ?_⟩
    rintro _ ⟨⟩
    exact hact.2.expected key row hrow

theorem mutation_spec (a : DeploymentArtifact) (action : CreateIndexAction) :
    (mutex A r T).discipline.Triple i (fun s => Held i r T A s ∧ Intended a r s ∧
        A.shows s.db action.toNamespace action.toIndexSpec = false)
      (mutation A i r action) (fun _ s => Held i r T A s ∧ Intended a r s)
      (fun _ => Held i r T A) := by
  have hK : (mutex A r T).discipline.Stable i (fun s => Held i r T A s ∧ Intended a r s ∧
      A.shows s.db action.toNamespace action.toIndexSpec = false) :=
    view_stable (fun s t hv h => ⟨h.1.view hv, by rw [hv.db]; exact h.2⟩)
  have hdone := view_stable (A := A) (T := T) (i := i) (fun _ _ => Intended.view (a := a) (r := r))
  refine .bind (holding (reads (ensureLeaseOwned_reads i) hK)) (fun _ => ?_)
  refine .act hK (guards.crashable _) (fun s hs hk _ => ?_)
  obtain ⟨hheld, ⟨⟨ha, hnone⟩, hintent⟩, hno⟩ := hk
  have hframe := s.create_frame A r action.toNamespace action.toIndexSpec
  refine ⟨Mutex.owned hheld.owns (by rw [hframe]; rfl) (create_grows A r _ _ s)
    (hs.1.create ha hnone hintent hno), ?_⟩
  refine Discipline.Triple.pre (K := fun s => Held i r T A s ∧ Intended a r s) ?_ ?_
  · split
    · exact .ret hdone (fun _ _ h => h)
    · exact .fail hdone (fun _ _ h => h.1)
  · rintro _ - rfl
    refine ⟨hheld.congr (by rw [hframe]; rfl), ⟨?_, ?_⟩, ?_⟩
    · rw [hframe]
      exact ha
    · rw [eventsOf, World.entriesOf, hframe]
      exact hnone
    · rw [eventsOf, World.entriesOf, hframe]
      exact hintent

theorem executeOrRecover_spec (a : DeploymentArtifact) (action : CreateIndexAction)
    (hkey : a.idempotencyKey.actionFingerprint = ⟨action⟩) :
    (mutex A r T).discipline.Triple i (fun s => Held i r T A s ∧ Intended a r s)
      (executeOrRecover a.idempotencyKey (exactEffect A r action) (mutation A i r action))
      (fun _ s => Held i r T A s ∧ Intended a r s) (fun _ => Held i r T A) := by
  have hK := view_stable (A := A) (T := T) (i := i) (fun _ _ => Intended.view (a := a) (r := r))
  have hprobed : ∀ p : Prop, (mutex A r T).discipline.Stable i (fun s => Held i r T A s ∧
      Intended a r s ∧ (p → A.shows s.db action.toNamespace action.toIndexSpec = false)) :=
    fun p => view_stable (fun s t hv h => ⟨h.1.view hv, by rw [hv.db]; exact h.2⟩)
  unfold executeOrRecover
  refine .bind (beginExecution_spec a _) (fun o => .assuming (fun hexpected => ?_))
  cases o with
  | none => exact .ret hK (fun _ _ hk => hk)
  | some expected =>
    obtain rfl := (hexpected expected rfl).trans hkey
    refine .bind (Q := fun effect s => Held i r T A s ∧ Intended a r s ∧
      (effect = false → A.shows s.db action.toNamespace action.toIndexSpec = false)) ?_
      (fun effect => ?_)
    · refine .bind (state_spec (fun _ _ => Intended.view) .effect action) (fun effect => ?_)
      refine .ret (view_stable (fun s t hv h => ⟨h.1.view hv, by rw [hv.db]; exact h.2⟩))
        (fun s _ hk => ⟨hk.1, hk.2.1, fun he => ?_⟩)
      rw [← hasExactIndex_stateOf, ← hk.2.2]
      simpa using he
    · refine .bind (Q := fun _ s => Held i r T A s ∧ Intended a r s) ?_
        (fun _ => holding (touchesRecovery (confirmExecution_touches _) hK))
      cases effect with
      | true => exact .ret (hprobed _) (fun _ _ hk => ⟨hk.1, hk.2.1⟩)
      | false => exact (mutation_spec a action).pre (fun _ _ hk => ⟨hk.1, hk.2.1, hk.2.2 rfl⟩)

theorem markApplied_spec (a : DeploymentArtifact) (after : IndexState) :
    (mutex A r T).discipline.Triple i (fun s => Held i r T A s ∧ Intended a r s)
      (markApplied r after) (fun _ s => Held i r T A s ∧
        Intended { a with status := .applied, afterState := some after } r s)
      (fun _ => Held i r T A) := by
  refine .atomic (view_stable (fun _ _ => Intended.view)) (guards.crashable _)
    (fun _ => view_stable (fun _ _ => Intended.view)) (fun _ => held_stable)
    (fun s b t hs hk _ hT => ?_) (fun _ _ _ hk _ _ => hk.1)
  obtain ⟨hheld, ⟨ha, hnone⟩, hintent⟩ := hk
  obtain ⟨a', ha', rfl, rfl⟩ := markAppliedRow_ok hT
  obtain rfl : a' = a := Option.some_inj.mp (ha'.symm.trans ha)
  refine ⟨put_admits hheld (fun old hold => ?_) (hs.1.apply ha hnone after), hheld.congr rfl,
    ⟨by simp [putArtifact], hnone⟩, hintent⟩
  obtain rfl : a' = old := Option.some_inj.mp (ha.symm.trans hold)
  exact ⟨rfl, fun _ => rfl⟩

/-- The entry of the effect, against the state that the artifact records: the run is paid. -/
theorem append_applied_spec (a : DeploymentArtifact) (happlied : a.status = .applied)
    (payload : LedgerPayload) (hr : payload.runId = r) (hT : payload.targetId = T)
    (hevent : payload.eventType = .deploymentApplied) (hbefore : payload.beforeState = a.beforeState)
    (hintended : payload.intendedState = intended a.beforeState a.actionFingerprint.document) :
    (mutex A r T).discipline.Triple i (fun s => Held i r T A s ∧ Intended a r s) (append payload)
      (fun _ s => Held i r T A s ∧ Paid s r) (fun _ => Held i r T A) := by
  refine .modify (view_stable (fun _ _ => Intended.view)) (guards.crashable _)
    (view_stable (fun _ _ hv h => hv.paid h)) (fun s hs hk _ => ?_)
  obtain ⟨hheld, ⟨ha, hnone⟩, hintent⟩ := hk
  obtain ⟨e, -, -, hevents⟩ := entriesOf_enter s hr
  refine ⟨Mutex.owned hheld.owns rfl (enter_grows payload s)
    (hs.1.enter hr hT ha hnone (fun _ => ⟨happlied, hbefore, hintended⟩)), hheld.congr rfl,
    settled_iff.mpr ⟨fun _ => ?_, fun _ => ?_⟩, a, ha, happlied⟩
  · rw [hevents]
    exact List.append_ne_nil_of_left_ne_nil hintent _
  · rw [hevents, hnone, hevent]
    simp

theorem recordApplied_spec (bound : BoundAction) (hr : bound.runId = r) (hT : bound.targetId = T)
    (a : DeploymentArtifact) (before : IndexState) (action : CreateIndexAction)
    (haction : a.actionFingerprint = ⟨action⟩) (hbefore : a.beforeState = before) :
    (mutex A r T).discipline.Triple i (fun s => Held i r T A s ∧ Intended a r s)
      (recordApplied A i bound before action) (fun _ => Held i r T A) (fun _ => Held i r T A) := by
  subst hr
  have hK := view_stable (A := A) (T := T) (i := i)
    (fun _ _ hv (h : Intended a bound.runId _) => h.view hv)
  have hpaid : (mutex A bound.runId T).discipline.Stable i
      (fun s => Held i bound.runId T A s ∧ Paid s bound.runId) :=
    view_stable (fun _ _ hv h => hv.paid h)
  unfold recordApplied
  refine .bind (holding (reads (state_reads A _ _ _) hK)) (fun after => ?_)
  refine .bind (holding (reads (guardAll_does _) hK)) (fun _ => ?_)
  refine .bind (markApplied_spec a after) (fun persisted => ?_)
  refine .bind (append_applied_spec _ rfl _ rfl hT rfl hbefore.symm ?_) (fun _ => ?_)
  · simp [BoundAction.ledgerPayload, hbefore, haction]
  · refine .bind (holding (reads (ensureLeaseOwned_reads i) hpaid)) (fun _ => ?_)
    refine .bind (holding (touchesRun (finishDeploying_touches _) hpaid (fun _ _ _ hk => hk.2)))
      (fun _ => .ret hpaid (fun _ _ hk => hk.1))

theorem applyIntent_spec (bound : BoundAction) (hr : bound.runId = r) (hT : bound.targetId = T)
    (a : DeploymentArtifact) (before : IndexState) (action : CreateIndexAction) (created : Bool)
    (hpending : a.status ≠ .applied) (haction : a.actionFingerprint = ⟨action⟩)
    (hkey : a.idempotencyKey.actionFingerprint = ⟨action⟩) (hbefore : a.beforeState = before) :
    (mutex A r T).discipline.Triple i (fun s => Held i r T A s ∧ Opened r before a created s)
      (applyIntent A i bound before action a created) (fun _ => Held i r T A)
      (fun _ => Held i r T A) := by
  subst hr
  have hopened := view_stable (A := A) (T := T) (i := i)
    (fun _ _ hv (h : Opened bound.runId before a created _) => h.view hv)
  have hK := view_stable (A := A) (T := T) (i := i)
    (fun _ _ hv (h : Intended a bound.runId _) => h.view hv)
  unfold applyIntent
  refine .bind (holding (touchesRecovery (recordIntent_touches _ _ _ _) hopened)) (fun _ => ?_)
  refine .bind (Q := fun _ s => Held i bound.runId T A s ∧ Intended a bound.runId s) ?_ (fun _ => ?_)
  · cases created with
    | true =>
      exact (append_intent_spec a (bound.ledgerPayload before action .deploymentIntent before) rfl hT
        rfl).pre (fun _ _ hk => ⟨hk.1, hk.2.pending hpending⟩)
    | false => exact .ret hopened (fun _ _ hk => ⟨hk.1, hk.2.intended hpending rfl⟩)
  · refine .bind (holding (reads (ensureLeaseOwned_reads i) hK)) (fun _ => ?_)
    refine .bind (executeOrRecover_spec a action hkey) (fun _ => ?_)
    refine .bind (holding (reads (ensureLeaseOwned_reads i) hK)) (fun _ => ?_)
    exact recordApplied_spec bound rfl hT a before action haction hbefore

theorem deployLocked_spec (bound : BoundAction) (hr : bound.runId = r) (hT : bound.targetId = T) :
    (mutex A r T).discipline.Triple i (fun s => Held i r T A s ∧ settled s r = true)
      (deployLocked A i bound) (fun _ => Held i r T A) (fun _ => Held i r T A) := by
  subst hr
  have hsettled : ∀ s t : World τ, View bound.runId s t → settled s bound.runId = true →
      settled t bound.runId = true := fun _ _ hv h => hv.settled.trans h
  unfold deployLocked
  refine .bind (holding (reads (Does.ofExcept _) (view_stable hsettled))) (fun action => ?_)
  refine .bind (state_spec hsettled .before action) (fun before => ?_)
  refine .bind (intent_spec bound rfl before action) (fun x => ?_)
  obtain ⟨a, created⟩ := x
  refine .assuming (fun ⟨haction, hkey, hbefore⟩ => ?_)
  have hopened := view_stable (A := A) (T := T) (i := i)
    (fun _ _ hv (h : Opened bound.runId before a created _) => h.view hv)
  refine .bind (holding (touchesRun (enterDeploying_touches bound) hopened nofun)) (fun _ => ?_)
  split
  · next happlied =>
    refine .bind (holding (touchesRun (reconcileApplied_touches bound before action) hopened
      (fun _ s _ hk => ⟨hk.2.applied happlied, a, hk.2.artifact, happlied⟩)))
      (fun _ => .ret hopened (fun _ _ hk => hk.1))
  · next hpending =>
    exact applyIntent_spec bound rfl hT a before action created hpending haction hkey
      (hbefore hpending)

theorem deployForRun_spec (q : RunId) :
    (mutex A r T).discipline.Triple i ((mutex A r T).Holds i none) (deployForRun A i q)
      (fun _ => (mutex A r T).Holds i none) (fun _ => (mutex A r T).Holds i none) := by
  by_cases hq : q = r
  · subst hq
    refine Locked.deployForRun_spec (B := fun bound => bound.runId = q ∧ bound.targetId = T)
      (Q := fun _ _ => True) guards q (fun s hs bound hb => ⟨boundAction_runId hb, ?_⟩)
      (fun bound hb => ?_) (fun _ _ _ _ => trivial) (fun _ => (Mutex.holds_stable _).and (.const _))
      (fun bound hb s hs hact hl _ => hact.1.2 ?_)
    · exact (hs.1.run bound.run (boundAction_run hb)).1
    · rw [hb.2]
      exact (deployLocked_spec bound hb.1 hb.2).conseq (fun _ _ hk => ⟨hk.1, hk.2 rfl⟩)
        (fun _ _ _ hk => ⟨hk, trivial⟩) (fun _ _ _ hk => ⟨hk, trivial⟩)
    · rw [hb.1, hb.2]
  · exact Locked.deployForRun_bystander guards q
      (fun l s t hs hact h => works_neutral (i := i) hq hs hact h.2)

theorem governs : (mutex A r T).discipline.Governs := by
  refine .of_triples (fun i k hk => ?_) (fun s t h hs => ?_)
  · obtain ⟨q, rfl⟩ := hk
    exact .bind (deployForRun_spec q) (fun _ => .ret (Mutex.holds_stable _) (fun _ _ hk => hk))
  · obtain ⟨⟨hexternal, hlocks, hdb, hrun⟩, -⟩ := h
    refine neutral hs hlocks hexternal.grows ⟨by rw [hexternal.artifacts],
      by rw [World.entriesOf, hexternal.ledger]; rfl, by rw [World.callsOf, hexternal.calls]; rfl,
      hdb⟩ (fun run hr => ⟨(hrun run hr).1, fun hd => ?_⟩)
    obtain ⟨run', hrun', hd'⟩ := (hrun run hr).2 hd
    exact (hs.1.run run' hrun').2 hd'

end Accounts

/-- Over any number of crashes and retries, as long as no deployment of the run ends with something
still waiting for its entry, a DEPLOYED run is rightly in the ledger. -/
theorem deployment_ledgered {A : DatabaseAdapter τ} {r : RunId} {T : TargetId} {s₀ : World τ}
    (h₀ : Untouched s₀) (hrun : ∀ run, s₀.runs r = some run → run.targetId = T ∧
      run.status ≠ .deployed) (hfree : s₀.locks = fun _ => none)
    {c : Config Label (World τ) Error WorkerId}
    (hr : (services A).Reach (undisturbed A r T).Allows (.quiet s₀) c) : Ledgered c.shared r := by
  have hgiven := hr.given (fun d hd =>
    Keyed.reach (C := undisturbed A r T) (fun _ _ h => h.1) h₀ hd)
  have hholds : (Accounts.mutex A r T).discipline.Holds (.quiet s₀ : Config _ _ _ WorkerId) := by
    refine .quiet ⟨.of_untouched h₀ hrun, fun _ => settled_iff.mpr ⟨?_, ?_⟩⟩ (fun i t => ?_)
    · simp [h₀.artifacts]
    · simp [h₀.artifacts, NoneCreated, World.callsOf, h₀.calls]
    · simp [Accounts.mutex, hfree]
  exact (hholds.reach Accounts.governs hgiven).inv.1.ledgered

/-- The prepared run deployed without a crash. -/
theorem deployment_ledgered_prepared :
    ∃ c, (services mongodb).Reach (undisturbed mongodb 0 0).Allows
        (.quiet (Preparation.world {} (preparedCollection []))) c ∧
      (c.shared.runs 0).map (·.status) = some .deployed ∧
      (c.shared.artifacts 0).map (·.status) = some .applied ∧ Ledgered c.shared 0 := by
  have hrun : ((services mongodb).exec
      (stepwise (fun s l => decide ((∀ q ∈ l.mutates, q = 0) ∧
        (l = .release .deployment 0 0 → settled s 0 = true))))
      (Event.calls 0 (.deployForRun 0) 28)
      (.quiet (Preparation.world {} (preparedCollection [])))).map
        (fun c => ((c.shared.runs 0).map (·.status), (c.shared.artifacts 0).map (·.status))) =
      some (some .deployed, some .applied) := by decide +kernel
  obtain ⟨c, hr, hc⟩ := System.Reach.of_exec_map (stepwise_allows (C := undisturbed mongodb 0 0)
    (fun i k hk => ⟨0, (by simpa [Event.calls] using hk : i = 0 ∧ k = .deployForRun 0).2⟩)
    (fun _ l s h => (of_decide_eq_true h : (∀ q ∈ l.mutates, q = 0) ∧
      (l = .release .deployment 0 0 → settled s 0 = true))) (by simp [Event.calls]) (by simp [Event.calls])) hrun
  obtain ⟨hstatus, happlied⟩ := Prod.mk.inj hc
  refine ⟨c, hr, hstatus, happlied, deployment_ledgered ⟨rfl, rfl, rfl, rfl, rfl⟩ ?_ rfl hr⟩
  rintro _ ⟨⟩
  exact ⟨rfl, nofun⟩

/-- Any deployments, crashes and retries, nobody else changing the target. -/
def redeployed (A : DatabaseAdapter τ) : (services A).Conduct where
  starts k := ∃ q, k = .deployForRun q
  env s t := External s t ∧ t.db = s.db

/-- Worker 0 dies between the artifact and the entry of the intent; no retry makes up for it. -/
theorem not_deployment_ledgered :
    ¬ ∀ c, (services mongodb).Reach (redeployed mongodb).Allows
        (.quiet (Preparation.world {} (preparedCollection []))) c → Ledgered c.shared 0 := by
  intro h
  have hrun : ((services mongodb).exec (stepwise (fun _ _ => true))
      (Event.calls 0 (.deployForRun 0) 9 ++ [.crash 0] ++ Event.calls 1 (.deployForRun 0) 27)
      (.quiet (Preparation.world {} (preparedCollection [])))).map
        (fun c => ((c.shared.runs 0).map (·.status), (c.shared.artifacts 0).map (·.status),
          eventsOf c.shared 0 .deploymentIntent)) =
      some (some .deployed, some .applied, []) := by decide +kernel
  obtain ⟨c, hr, hc⟩ := System.Reach.of_exec_map (stepwise_allows (C := redeployed mongodb)
    (fun i k hk => ⟨0, by
      have hcalls : i = 0 ∧ k = .deployForRun 0 ∨ i = 1 ∧ k = .deployForRun 0 := by
        simpa [Event.calls] using hk
      rcases hcalls with h | h
      · exact h.2
      · exact h.2⟩) (fun _ _ _ _ => trivial) (fun _ _ _ _ => trivial) (by simp [Event.calls])) hrun
  obtain ⟨hstatus, hc⟩ := Prod.mk.inj hc
  obtain ⟨hartifact, hevents⟩ := Prod.mk.inj hc
  obtain ⟨run, hrow, hdeployed⟩ := Option.map_eq_some_iff.mp hstatus
  obtain ⟨a, ha, happlied⟩ := Option.map_eq_some_iff.mp hartifact
  obtain ⟨⟨_, hmem, -⟩, -⟩ := h c hr run a hrow hdeployed ha happlied
  rw [hevents] at hmem
  cases hmem

end NoSQLOptimizer.Production
