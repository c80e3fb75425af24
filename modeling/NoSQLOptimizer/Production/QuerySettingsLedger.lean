import NoSQLOptimizer.Production.QuerySettingsHuman

namespace NoSQLOptimizer.Production.DurableQuerySettings

open Actions Adapters Concurrency ControlPlane Encoding

/-- APPLIED and ROLLED_BACK in turn, APPLIED first, one entry for each move, and the last of them is
where the row stands. -/
structure Receipt.Tracks (x : Receipt) : Prop where
  once : x.entries = x.moves
  alternating : x.entries.IsChain (· ≠ ·)
  first : ∀ event ∈ x.entries.head?, event = .applied
  last : x.status.bind (·.event) = x.entries.getLast?

instance (x : Receipt) : Decidable x.Tracks :=
  decidable_of_iff (x.entries = x.moves ∧ x.entries.IsChain (· ≠ ·) ∧
    (∀ event ∈ x.entries.head?, event = .applied) ∧ x.status.bind (·.event) = x.entries.getLast?)
    ⟨fun h => ⟨h.1, h.2.1, h.2.2.1, h.2.2.2⟩, fun h => ⟨h.1, h.2, h.3, h.4⟩⟩

/-- What a row's moves and entries are while it has this status; the entry of the last move may
still be missing. -/
def Consistent (moves entries : List LedgerEvent) : DeploymentStatus → Prop
  | .intentRecorded => moves = [] ∧ entries = []
  | .applied => moves = [.applied] ∧ (entries = [] ∨ entries = [.applied])
  | .rollbackIntent => moves = [.applied] ∧ (entries = [] ∨ entries = [.applied])
  | .rolledBack => moves = [.applied, .rolledBack] ∧
      (entries = [.applied] ∨ entries = [.applied, .rolledBack])

variable {moves entries : List LedgerEvent} {status : DeploymentStatus} {event : LedgerEvent}

theorem Consistent.append (h : Consistent moves entries status) (hevent : status.event = some event)
    (hmissing : event ∉ entries) : Consistent moves (entries ++ [event]) status := by
  cases status with
  | intentRecorded => cases hevent
  | rollbackIntent => cases hevent
  | applied =>
    cases hevent
    obtain ⟨hmoves, rfl | rfl⟩ := h
    · exact ⟨hmoves, .inr rfl⟩
    · exact absurd List.mem_cons_self hmissing
  | rolledBack =>
    cases hevent
    obtain ⟨hmoves, rfl | rfl⟩ := h
    · exact ⟨hmoves, .inr rfl⟩
    · exact absurd (by simp) hmissing

theorem Consistent.tracks (h : Consistent moves entries status) (hevent : status.event = some event)
    (hfiled : event ∈ entries) : Receipt.Tracks ⟨some status, moves, entries⟩ := by
  cases status with
  | intentRecorded => cases hevent
  | rollbackIntent => cases hevent
  | applied =>
    cases hevent
    obtain ⟨rfl, rfl | rfl⟩ := h
    · cases hfiled
    · decide
  | rolledBack =>
    cases hevent
    obtain ⟨rfl, rfl | rfl⟩ := h
    · simp at hfiled
    · decide

section

variable {τ ι : Type} (s : State τ ι)

structure Sound : Prop where
  rows : ∀ id d, s.deployment id = some d → Consistent (s.movesOf id) (s.entriesOf id) d.status
  fresh : ∀ id, s.deployment id = none → s.movesOf id = [] ∧ s.entriesOf id = []
  targets : ∀ e ∈ s.ledger, ∀ d, s.deployment e.actionId = some d → e.targetId = d.targetId
  returned : ∀ x ∈ s.returned, x.Tracks

variable {s} {id : DeploymentId} {d d' : QuerySettingsDeployment}

theorem movesOf_update (s : State τ ι) (id : DeploymentId) (d : QuerySettingsDeployment)
    (move : Option LedgerEvent) (id' : DeploymentId) : (s.update id d move).movesOf id' =
      if id' = id then s.movesOf id' ++ move.toList else s.movesOf id' := by
  by_cases h : id' = id
  · subst h
    cases move <;> simp [State.update, State.movesOf]
  · cases move <;> simp [State.update, State.movesOf, h, Ne.symm h]

theorem entriesOf_append (s : State τ ι) (e : Entry) (id : DeploymentId) :
    { s with ledger := s.ledger ++ [e] }.entriesOf id =
      if e.actionId = id then s.entriesOf id ++ [e.eventType] else s.entriesOf id := by
  by_cases h : e.actionId = id <;> simp [State.entriesOf, h]

theorem mem_entriesOf {e : Entry} (he : e ∈ s.ledger) : e.eventType ∈ s.entriesOf e.actionId :=
  List.mem_map.mpr ⟨e, List.mem_filter.mpr ⟨he, by simp⟩, rfl⟩

theorem Sound.update {move : Option LedgerEvent} (h : Sound s) (hd : s.deployment id = some d)
    (hd' : d'.toIntent = d.toIntent)
    (hc : Consistent (s.movesOf id ++ move.toList) (s.entriesOf id) d'.status) :
    Sound (s.update id d' move) := by
  refine ⟨fun id' e he => ?_, fun id' hnone => ?_, fun e he d'' hd'' => ?_, h.returned⟩
  · rw [State.deployment_update hd] at he
    rw [movesOf_update]
    split at he
    · next hid =>
      subst hid
      cases he
      rw [if_pos rfl]
      exact hc
    · next hid =>
      rw [if_neg hid]
      exact h.rows id' e he
  · rw [State.deployment_update hd] at hnone
    rw [movesOf_update]
    split at hnone
    · cases hnone
    · next hid =>
      rw [if_neg hid]
      exact h.fresh id' hnone
  · rw [State.deployment_update hd] at hd''
    split at hd''
    · next hid =>
      cases hd''
      rw [hd']
      exact h.targets e he d (hid ▸ hd)
    · exact h.targets e he d'' hd''

theorem Sound.insert (h : Sound s) (hd : d.status = .intentRecorded) : Sound (s.insert d) := by
  refine ⟨fun id e he => ?_, fun id hnone => ?_, fun e he d' hd' => ?_, h.returned⟩
  · rw [State.deployment_insert] at he
    split at he
    · next hid =>
      cases he
      have hempty := h.fresh id (by simp [State.deployment, hid])
      rw [hd]
      exact hempty
    · exact h.rows id e he
  · rw [State.deployment_insert] at hnone
    split at hnone
    · cases hnone
    · exact h.fresh id hnone
  · rw [State.deployment_insert] at hd'
    split at hd'
    · next hid =>
      have hmem : e.eventType ∈ s.entriesOf e.actionId := mem_entriesOf he
      rw [(h.fresh e.actionId (by simp [State.deployment, hid])).2] at hmem
      cases hmem
    · exact h.targets e he d' hd'

theorem Sound.file {e : Entry} (h : Sound s) (hd : s.deployment e.actionId = some d)
    (htarget : e.targetId = d.targetId) (hevent : d.status.event = some e.eventType)
    (hmissing : e.eventType ∉ s.entriesOf e.actionId) :
    Sound { s with ledger := s.ledger ++ [e] } := by
  refine ⟨fun id d' hd' => ?_, fun id hnone => ?_, fun e' he' d' hd' => ?_, h.returned⟩
  · rw [entriesOf_append]
    split
    · next hid =>
      subst hid
      obtain rfl := Option.some.inj (hd.symm.trans hd')
      exact (h.rows _ d hd).append hevent hmissing
    · exact h.rows id d' hd'
  · rw [entriesOf_append, if_neg]
    · exact h.fresh id hnone
    · rintro rfl
      rw [State.deployment] at hd hnone
      rw [hd] at hnone
      cases hnone
  · rcases List.mem_append.mp he' with he' | he'
    · exact h.targets e' he' d' hd'
    · obtain rfl := List.mem_singleton.mp he'
      obtain rfl := Option.some.inj (hd.symm.trans hd')
      exact htarget

/-- The existence check of an append finds the entries of its row. -/
theorem Sound.recorded_iff (h : Sound s) (hd : s.deployment id = some d) (event : LedgerEvent) :
    s.recorded d.targetId id event = true ↔ event ∈ s.entriesOf id := by
  simp only [State.recorded, List.any_eq_true, decide_eq_true_eq]
  constructor
  · rintro ⟨e, he, -, rfl, rfl⟩
    exact mem_entriesOf he
  · intro hmem
    obtain ⟨e, hfiltered, rfl⟩ := List.mem_map.mp hmem
    obtain ⟨he, hid⟩ := List.mem_filter.mp hfiltered
    have hid : e.actionId = id := of_decide_eq_true hid
    subst hid
    exact ⟨e, he, h.targets e he d hd, rfl, rfl⟩

/-- The rows, and all that is told of them. -/
def SameRows (s t : State τ ι) : Prop :=
  t.deployments = s.deployments ∧ t.ledger = s.ledger ∧ t.moves = s.moves ∧ t.returned = s.returned

theorem Sound.same {t : State τ ι} (h : Sound s) (hsame : SameRows s t) : Sound t := by
  obtain ⟨hdeployments, hledger, hmoves, hreturned⟩ := hsame
  cases s
  cases t
  cases hdeployments
  cases hledger
  cases hmoves
  cases hreturned
  exact ⟨h.rows, h.fresh, h.targets, h.returned⟩

end

namespace Bookkeeping

variable {τ : Type} (A : QuerySettingsAdapter τ)

/-- The runs of one caller, in which no deploy moves a row to APPLIED whose rollback was begun, and
no rollback moves one to ROLLED_BACK whose APPLIED entry is missing. -/
def tracked : (services (ι := Unit) A).Conduct where
  acts _ l s := match l with
    | .mark id .applied => ∀ d, s.deployment id = some d →
        d.status ≠ .rollbackIntent ∧ d.status ≠ .rolledBack
    | .mark id .rolledBack => .applied ∈ s.entriesOf id
    | _ => True
  env := SameRows

def bookkeeping : Discipline (tracked A) where
  inv := Sound
  rely _ := SameRows
  idle _ _ := True
  refl _ _ := ⟨rfl, rfl, rfl, rfl⟩
  trans h h' := ⟨h'.1.trans h.1, h'.2.1.trans h.2.1, h'.2.2.1.trans h.2.2.1, h'.2.2.2.trans h.2.2.2⟩
  idle_stable _ _ := trivial

variable {A} {i : Unit} {s t : State τ Unit}

/-- There is no other session to mind. -/
theorem admits (ht : Sound t) : (bookkeeping A).Admits i s t :=
  ⟨ht, trivial, fun j hj => absurd (Subsingleton.elim j i) hj⟩

theorem neutral (hs : Sound s) (h : SameRows s t) : (bookkeeping A).Neutral s t :=
  ⟨hs.same h, fun _ => h⟩

theorem crashes (K : State τ Unit → Prop) : (bookkeeping A).Crashable i K :=
  fun _ _ hs _ _ => ⟨admits (hs.same ⟨rfl, rfl, rfl, rfl⟩), trivial⟩

/-- This is the row. -/
def At (d : Deployment) (s : State τ Unit) : Prop := s.deployment d.1 = some d.2

theorem stable_at (d : Deployment) : (bookkeeping A).Stable i (At d) := by
  intro s t hr _ hd
  rwa [At, State.deployment, hr.1]

/-- The last move of the row is in the ledger. -/
def Filed (d : Deployment) (s : State τ Unit) : Prop :=
  At d s ∧ ∃ event, d.2.status.event = some event ∧ event ∈ s.entriesOf d.1

theorem stable_filed (d : Deployment) : (bookkeeping A).Stable i (Filed d) := by
  rintro s t hr ht ⟨hd, event, hevent, hfiled⟩
  refine ⟨stable_at d hr ht hd, event, hevent, ?_⟩
  rwa [State.entriesOf, hr.2.1]

variable {K : State τ Unit → Prop} {α : Type} {p : Proc τ Unit α}

theorem idle_triple (hp : p.Always (fun _ s t => SameRows s t) (fun _ => True))
    (hK : (bookkeeping A).Stable i K) :
    (bookkeeping A).Triple i K p (fun _ => K) (fun _ _ => True) :=
  .neutral hp (fun _ _ _ hs _ h => neutral hs h) hK (crashes K) (fun _ _ _ _ hk => hk)
    (fun _ _ _ _ _ => trivial)

theorem readHint_idle (A : QuerySettingsAdapter τ) (l : Label)
    (action : SetQuerySettingsIndexHintAction) :
    (readHint (ι := Unit) A l action).Always (fun _ s t => SameRows s t) (fun _ => True) := by
  refine .bind (.read (Q := fun _ => True) _ _ (fun _ => ⟨rfl, rfl, rfl, rfl⟩) (fun _ => trivial)) ?_
    (fun _ _ => trivial)
  rintro (_ | hint) - <;> trivial

theorem setHint_idle (A : QuerySettingsAdapter τ) (action : SetQuerySettingsIndexHintAction)
    (call : Setting) :
    (setHint (ι := Unit) A action call).Always (fun _ s t => SameRows s t) (fun _ => True) := by
  refine .bind (Q := fun _ => True) (fun s => ⟨⟨rfl, rfl, rfl, rfl⟩, trivial⟩) ?_ (fun _ _ => trivial)
  exact fun _ _ => .raiseIf (fun _ => trivial)

theorem appendOnce_triple {d : Deployment} {e : Entry} (hid : e.actionId = d.1)
    (htarget : e.targetId = d.2.targetId) (hevent : d.2.status.event = some e.eventType) :
    (bookkeeping A).Triple i (At d) (appendOnce e) (fun _ => Filed d) (fun _ _ => True) := by
  refine .bind (Q := fun recorded s => At d s ∧ (recorded = true ↔ e.eventType ∈ s.entriesOf d.1))
    (.read (stable_at d) (crashes _) (fun recorded => ?_) (fun s hs hd _ => ⟨hd, ?_⟩))
    (fun recorded => ?_)
  · intro s t hr ht h
    refine ⟨stable_at d hr ht h.1, ?_⟩
    rw [State.entriesOf, hr.2.1]
    exact h.2
  · rw [htarget, hid]
    exact Sound.recorded_iff hs hd e.eventType
  · cases recorded with
    | true =>
      refine Discipline.Triple.pre (K := Filed d) (.ret (stable_filed d) (fun _ _ h => h)) ?_
      exact fun s _ h => ⟨h.1, e.eventType, hevent, h.2.mp rfl⟩
    | false =>
      refine .modify ?_ (crashes _) (stable_filed d) ?_
      · intro s t hr ht h
        refine ⟨stable_at d hr ht h.1, ?_⟩
        rw [State.entriesOf, hr.2.1]
        exact h.2
      · intro s hs ⟨hd, hrecorded⟩ _
        have hmissing : e.eventType ∉ s.entriesOf e.actionId := by
          rw [hid, ← hrecorded]
          exact Bool.false_ne_true
        refine ⟨admits (hs.file (hid ▸ hd) htarget hevent hmissing), hd, e.eventType, hevent, ?_⟩
        rw [entriesOf_append, if_pos hid]
        simp

theorem mark_triple {d : Deployment} {status : DeploymentStatus} (after : SettingState)
    (hconsistent : ∀ s, Sound s → At d s → (tracked A).acts i (.mark d.1 status) s → Consistent
      (s.movesOf d.1 ++ (if d.2.status = status then none else status.event).toList)
      (s.entriesOf d.1) status) :
    (bookkeeping A).Triple i (At d) (mark d.1 status after)
      (fun marked s => At marked s ∧
        marked = (d.1, { d.2 with status := status, afterState := some after })) (fun _ _ => True) := by
  refine .atomic (stable_at d) (crashes _) (fun marked => (stable_at marked).and (.const _))
    (fun _ => .const _) ?_ (fun _ _ _ _ _ _ => trivial)
  intro s marked t hs hd hacts ht
  have hd' : s.deployment d.1 = some d.2 := hd
  simp only [hd', Except.ok.injEq, Prod.mk.injEq] at ht
  obtain ⟨rfl, rfl⟩ := ht
  refine ⟨admits (Sound.update hs hd' rfl (hconsistent s hs hd hacts)), ?_, rfl⟩
  rw [At, State.deployment_update hd', if_pos rfl]

/-- Where its rollback has not begun, the row may be marked APPLIED, and that is recorded. -/
theorem markApplied_triple {d : Deployment} (after : SettingState) :
    (bookkeeping A).Triple i (At d) (mark d.1 .applied after)
      (fun marked s => At marked s ∧
        marked = (d.1, { d.2 with status := .applied, afterState := some after }))
      (fun _ _ => True) := by
  refine mark_triple after (fun s hs hd hacts => ?_)
  obtain ⟨hintent, hrolledBack⟩ := hacts d.2 hd
  have hrow := hs.rows d.1 d.2 hd
  cases hstatus : d.2.status with
  | intentRecorded =>
    rw [hstatus] at hrow
    simp [hrow.1, hrow.2, Consistent, DeploymentStatus.event]
  | applied =>
    rw [hstatus] at hrow
    simpa using hrow
  | rollbackIntent => exact absurd hstatus hintent
  | rolledBack => exact absurd hstatus hrolledBack

theorem recordIntent_triple (intent : Intent) :
    (bookkeeping A).Triple i (fun _ => True) (recordIntent intent) At (fun _ _ => True) := by
  refine .atomic (.const _) (crashes _) stable_at (fun _ => .const _) ?_ (fun _ _ _ _ _ _ => trivial)
  intro s d t hs _ _ ht
  split at ht
  · cases ht
  · cases ht
    refine ⟨admits (Sound.insert hs rfl), ?_⟩
    rw [At, State.deployment_insert, if_pos rfl]

theorem applySetting_triple (row : Deployment) (action : SetQuerySettingsIndexHintAction)
    (current : Option QuerySettingsIndexHint) (evidenceHash : String) :
    (bookkeeping A).Triple i (At row) (applySetting A row action current evidenceHash) Filed
      (fun _ _ => True) := by
  refine .bind (idle_triple (setHint_idle A _ _) (stable_at _)) (fun _ => ?_)
  refine .bind (idle_triple (readHint_idle A _ _) (stable_at _)) (fun observed => ?_)
  refine .bind (idle_triple (.raiseIf (fun _ => trivial)) (stable_at _)) (fun _ => ?_)
  refine .bind (markApplied_triple _) (fun applied => ?_)
  refine Discipline.Triple.assuming ?_
  rintro rfl
  refine .bind (appendOnce_triple rfl rfl rfl) (fun _ => ?_)
  exact .ret (stable_filed _) (fun _ _ h => h)

theorem reconcile_triple (existing : Deployment) (action : SetQuerySettingsIndexHintAction)
    (current : Option QuerySettingsIndexHint) (evidenceHash : String) :
    (bookkeeping A).Triple i (At existing) (reconcile A existing action current evidenceHash) Filed
      (fun _ _ => True) := by
  refine .bind (idle_triple (.raiseIf (fun _ => trivial)) (stable_at _)) (fun _ => ?_)
  split
  · next happlied =>
    refine .bind (idle_triple (.raiseIf (fun _ => trivial)) (stable_at _)) (fun _ => ?_)
    refine .bind (appendOnce_triple rfl rfl (by rw [happlied]; rfl)) (fun _ => ?_)
    exact .ret (stable_filed _) (fun _ _ h => h)
  · split
    · refine .bind (markApplied_triple _) (fun applied => ?_)
      refine Discipline.Triple.assuming ?_
      rintro rfl
      refine .bind (appendOnce_triple rfl rfl rfl) (fun _ => ?_)
      exact .ret (stable_filed _) (fun _ _ h => h)
    · exact applySetting_triple existing action current evidenceHash

theorem deployLocked_triple (target : TargetId) (action : SetQuerySettingsIndexHintAction)
    (evidenceHash : String) (run : Option RunId) :
    (bookkeeping A).Triple i (fun _ => True) (deployLocked A target action evidenceHash run) Filed
      (fun _ _ => True) := by
  refine .bind (idle_triple (.read _ _ (fun _ => ⟨rfl, rfl, rfl, rfl⟩) (fun _ => trivial)) (.const _))
    (fun indexes => ?_)
  refine .bind (idle_triple (.raiseIf (fun _ => trivial)) (.const _)) (fun _ => ?_)
  refine .bind (idle_triple (readHint_idle A _ _) (.const _)) (fun current => ?_)
  refine .bind (Q := fun existing s => ∀ d : Deployment, existing = some d → At d s)
    (.read (.const _) (crashes _) (fun existing => .all (fun d => .imp (stable_at d)))
      (fun s _ _ _ d hd => (State.byKey_some hd).1)) (fun existing => ?_)
  cases existing with
  | some existing =>
    exact (reconcile_triple existing action current evidenceHash).pre (fun _ _ h => h existing rfl)
  | none =>
    refine Discipline.Triple.pre (.bind (idle_triple (.raiseIf (fun _ => trivial)) (.const True))
      (fun _ => ?_)) (fun _ _ _ => trivial)
    refine .bind (recordIntent_triple _) (fun row => ?_)
    exact applySetting_triple row action current evidenceHash

theorem markRollbackIntent_triple {d : Deployment} (after : SettingState)
    (hintent : d.2.status ≠ .intentRecorded) (hrolledBack : d.2.status ≠ .rolledBack) :
    (bookkeeping A).Triple i (At d) (mark d.1 .rollbackIntent after)
      (fun marked s => At marked s ∧
        marked = (d.1, { d.2 with status := .rollbackIntent, afterState := some after }))
      (fun _ _ => True) := by
  refine mark_triple after (fun s hs hd _ => ?_)
  have hrow := hs.rows d.1 d.2 hd
  cases hstatus : d.2.status with
  | intentRecorded => exact absurd hstatus hintent
  | applied =>
    rw [hstatus] at hrow
    simpa [DeploymentStatus.event, Consistent] using hrow
  | rollbackIntent =>
    rw [hstatus] at hrow
    simpa using hrow
  | rolledBack => exact absurd hstatus hrolledBack

/-- A row whose APPLIED entry is there may be marked ROLLED_BACK, and that is recorded. -/
theorem finishRollback_triple (deployment : Deployment) {d : QuerySettingsDeployment}
    (hstatus : d.status = .rollbackIntent) (action : SetQuerySettingsIndexHintAction)
    (observed : Option QuerySettingsIndexHint) (evidenceHash : String) :
    (bookkeeping A).Triple i (At (deployment.1, d))
      (finishRollback deployment action observed evidenceHash) Filed (fun _ _ => True) := by
  refine .bind (mark_triple (d := (deployment.1, d)) _ (fun s hs hd hfiled => ?_))
    (fun rolledBack => ?_)
  · have hrow := hs.rows deployment.1 d hd
    rw [hstatus] at hrow
    obtain ⟨hmoves, hentries | hentries⟩ := hrow
    · have hentry : .applied ∈ s.entriesOf deployment.1 := hfiled
      rw [hentries] at hentry
      cases hentry
    · simp [hstatus, hmoves, hentries, Consistent, DeploymentStatus.event]
  · refine Discipline.Triple.assuming ?_
    rintro rfl
    refine .bind (appendOnce_triple rfl rfl rfl) (fun _ => ?_)
    exact .ret (stable_filed _) (fun _ _ h => h)

theorem rollbackLocked_triple (deployment : Deployment) (action : SetQuerySettingsIndexHintAction)
    (evidenceHash : String) (hintent : deployment.2.status ≠ .intentRecorded) :
    (bookkeeping A).Triple i (At deployment) (rollbackLocked A deployment action evidenceHash) Filed
      (fun _ _ => True) := by
  refine .bind (idle_triple (readHint_idle A _ _) (stable_at _)) (fun current => ?_)
  split
  · next hrolledBack =>
    refine .bind (idle_triple (.raiseIf (fun _ => trivial)) (stable_at _)) (fun _ => ?_)
    refine .bind (appendOnce_triple rfl rfl (by rw [hrolledBack]; rfl)) (fun _ => ?_)
    exact .ret (stable_filed _) (fun _ _ h => h)
  · next hrolledBack =>
    dsimp only
    split
    · next hresumed =>
      exact finishRollback_triple deployment hresumed.2 action current evidenceHash
    · refine .bind (idle_triple (.raiseIf (fun _ => trivial)) (stable_at _)) (fun _ => ?_)
      refine .bind (markRollbackIntent_triple _ hintent hrolledBack) (fun marked => ?_)
      refine Discipline.Triple.assuming ?_
      rintro rfl
      refine .bind (idle_triple (setHint_idle A _ _) (stable_at _)) (fun _ => ?_)
      refine .bind (idle_triple (readHint_idle A _ _) (stable_at _)) (fun observed => ?_)
      refine .bind (idle_triple (.raiseIf (fun _ => trivial)) (stable_at _)) (fun _ => ?_)
      exact finishRollback_triple deployment rfl action observed evidenceHash

theorem locks_idle (i : Unit) (target : TargetId) :
    (tryAcquire (τ := τ) i target).Always (fun _ s t => SameRows s t) (fun _ => True) ∧
      (release (τ := τ) i target).Always (fun _ s t => SameRows s t) (fun _ => True) := by
  refine ⟨.atomic _ _ (fun s _ t ht => ?_) (fun _ _ _ => ⟨⟨rfl, rfl, rfl, rfl⟩, trivial⟩),
    .modify _ _ (fun s => ?_) trivial⟩
  · split at ht
    · cases ht
      exact ⟨⟨rfl, rfl, rfl, rfl⟩, trivial⟩
    · cases ht
  · split <;> exact ⟨rfl, rfl, rfl, rfl⟩

theorem deploy_triple (target : TargetId) (action : SetQuerySettingsIndexHintAction)
    (evidenceHash : String) (run : Option RunId) :
    (bookkeeping A).Triple i (fun _ => True) (deploy A i target action evidenceHash run) Filed
      (fun _ _ => True) := by
  refine .bind (idle_triple (locks_idle i target).1 (.const True)) (fun _ => ?_)
  exact .onExit (deployLocked_triple target action evidenceHash run)
    (fun d => idle_triple (locks_idle i target).2 (stable_filed d))
    (fun _ => idle_triple (locks_idle i target).2 (.const True))

theorem rollback_triple (id : DeploymentId) (evidenceHash : String) :
    (bookkeeping A).Triple i (fun _ => True) (rollback A i id evidenceHash) Filed
      (fun _ _ => True) := by
  refine .bind (Q := fun row s => ∀ d : QuerySettingsDeployment, row = some d → At (id, d) s)
    (.read (.const _) (crashes _) (fun row => .all (fun d => .imp (stable_at (id, d))))
      (fun s _ _ _ d hd => hd)) (fun row => ?_)
  cases row with
  | none => exact .fail (.all (fun d => .imp (stable_at (id, d)))) (fun _ _ _ => trivial)
  | some d =>
    refine Discipline.Triple.pre (K := At (id, d)) ?_ (fun _ _ h => h d rfl)
    refine .bind (.raiseIf (stable_at _) (fun _ _ _ => trivial)) (fun _ => ?_)
    refine Discipline.Triple.assuming (fun hintent => ?_)
    refine .bind (.ofExcept (stable_at _) (fun _ _ _ _ => trivial)) (fun action => ?_)
    refine Discipline.Triple.assuming (fun _ => ?_)
    refine .bind (idle_triple (locks_idle i d.targetId).1 (stable_at _)) (fun _ => ?_)
    exact .onExit (rollbackLocked_triple (id, d) action evidenceHash (by simpa using hintent))
      (fun d => idle_triple (locks_idle i _).2 (stable_filed d))
      (fun _ => idle_triple (locks_idle i _).2 (.const True))

theorem giveBack_triple (d : Deployment) :
    (bookkeeping A).Triple i (Filed d) (giveBack d) (fun _ _ => True) (fun _ _ => True) := by
  refine .modify (stable_filed d) (crashes _) (.const True) (fun s hs ⟨hd, event, hevent, hfiled⟩ _ => ?_)
  refine ⟨admits ⟨hs.rows, hs.fresh, hs.targets, fun x hx => ?_⟩, trivial⟩
  rcases List.mem_append.mp hx with hx | hx
  · exact hs.returned x hx
  · obtain rfl := List.mem_singleton.mp hx
    have hrow : s.deployment d.1 = some d.2 := hd
    rw [State.receipt, hrow]
    exact (hs.rows d.1 d.2 hd).tracks hevent hfiled

theorem bookkeeping_governs : (bookkeeping A).Governs := by
  refine .of_triples (fun i call _ => ?_) (fun s t ht hs => neutral hs ht)
  cases call with
  | deploy target action evidenceHash run =>
    exact .bind (deploy_triple target action evidenceHash run) (fun d => giveBack_triple d)
  | rollback id evidenceHash =>
    exact .bind (rollback_triple id evidenceHash) (fun d => giveBack_triple d)

end Bookkeeping

/-- Where no deploy takes up a row whose rollback was begun, and no rollback goes past a missing
APPLIED entry, the ledger has followed the row whenever a call has returned. -/
theorem returned_tracks (A : QuerySettingsAdapter τ) {db : τ}
    {c : Config Label (State τ Unit) Error Unit}
    (hr : (services A).Reach (Bookkeeping.tracked A).Allows (.quiet { db := db }) c) :
    ∀ x ∈ c.shared.returned, x.Tracks := by
  have hstart : Sound ({ db := db } : State τ Unit) := by
    refine ⟨?_, fun _ _ => ⟨rfl, rfl⟩, ?_, ?_⟩ <;> simp [State.deployment]
  have hholds := Discipline.Holds.reach (D := Bookkeeping.bookkeeping A)
    (.quiet hstart (fun _ => trivial)) Bookkeeping.bookkeeping_governs hr
  exact hholds.inv.returned

section

def trackedTest (c : Config Label (State MongoServer Unit) Error Unit) :
    Event Unit Call (MongoServer → MongoServer) → Bool
  | .step _ => match c.label () with
    | some (.mark id .applied) => (c.shared.deployment id).all (fun d =>
        d.status ≠ .rollbackIntent ∧ d.status ≠ .rolledBack)
    | some (.mark id .rolledBack) => .applied ∈ c.shared.entriesOf id
    | _ => true
  | _ => true

theorem tracked_of_test {c : Config Label (State MongoServer Unit) Error Unit}
    {e : Event Unit Call (MongoServer → MongoServer)} (h : trackedTest c e = true) :
    (Bookkeeping.tracked mongoServer).Allows c e := by
  cases e with
  | start i call => trivial
  | crash i => exact fun _ _ => trivial
  | env f => exact ⟨rfl, rfl, rfl, rfl⟩
  | step i =>
    intro l hl
    simp only [trackedTest, hl] at h
    cases l with
    | mark id status =>
      cases status with
      | applied =>
        intro d hd
        simpa [hd] using h
      | rolledBack =>
        have hentry : .applied ∈ c.shared.entriesOf id := of_decide_eq_true h
        exact hentry
      | _ => trivial
    | _ => trivial

/-- The row is deployed, with a crash before its entry is written, again, and rolled back. -/
theorem returned_tracks_crash : ∃ c, (services (ι := Unit) mongoServer).Reach
    (Bookkeeping.tracked mongoServer).Allows (.quiet indexed) c ∧
      c.shared.returned.map (·.entries) = [[.applied], [.applied, .rolledBack]] ∧
      ∀ x ∈ c.shared.returned, x.Tracks := by
  have hrun : ((services (ι := Unit) mongoServer).exec trackedTest
      (deployOwned 8 ++ [.crash ()] ++ deployOwned 8 ++
        Event.calls () (.rollback 0 "evidence") 11)
      (.quiet indexed)).map (·.shared.returned.map (·.entries)) =
        some [[.applied], [.applied, .rolledBack]] := by decide +kernel
  obtain ⟨c, hc, hentries⟩ := System.Reach.of_exec_map (fun _ _ _ h => tracked_of_test h) hrun
  exact ⟨c, hc, hentries, returned_tracks mongoServer hc⟩

theorem not_returned_tracks : ¬ ∀ c, (services (ι := Unit) mongoServer).Reach (fun _ _ => True)
    (.quiet indexed) c → ∀ x ∈ c.shared.returned, x.Tracks := by
  intro h
  have hrun : ((services (ι := Unit) mongoServer).exec (fun _ _ => true)
      (deployOwned 12 ++ Event.calls () (.rollback 0 "evidence") 11 ++ deployOwned 10)
      (.quiet indexed)).map (·.shared.returned.all (·.Tracks)) = some false := by decide +kernel
  obtain ⟨c, hc, huntracked⟩ := System.Reach.of_exec_map (fun _ _ _ _ => trivial) hrun
  have hall : c.shared.returned.all (·.Tracks) = true :=
    List.all_eq_true.mpr (fun x hx => decide_eq_true (h c hc x hx))
  rw [hall] at huntracked
  cases huntracked

end

end NoSQLOptimizer.Production.DurableQuerySettings
