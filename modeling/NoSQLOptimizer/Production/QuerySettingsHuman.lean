import NoSQLOptimizer.Adapters.MongoDB
import NoSQLOptimizer.Production.QuerySettingsDurable

namespace NoSQLOptimizer.Production.DurableQuerySettings

open Actions Adapters Concurrency ControlPlane Encoding

/-- The hint last read was absent or the deployment's own. -/
def Setting.Respectful (call : Setting) : Prop :=
  call.read = none ∨ call.read = call.deployment.intended

instance (call : Setting) : Decidable call.Respectful := inferInstanceAs (Decidable (_ ∨ _))

section

variable {τ ι : Type}

/-- The row is there, in whatever status. -/
def Owns (s : State τ ι) (id : DeploymentId) (intent : Intent) : Prop :=
  ∃ d, s.deployment id = some d ∧ d.toIntent = intent

/-- Everything but the monitored database, the ledger and the notes of what was returned. -/
def Same (s t : State τ ι) : Prop :=
  t.settings = s.settings ∧ t.deployments = s.deployments ∧ t.locks = s.locks

theorem readHint_quiet (A : QuerySettingsAdapter τ) (l : Label) (action : SetQuerySettingsIndexHintAction) :
    (readHint (ι := ι) A l action).Always (fun _ s t => Same s t) (fun _ => True) := by
  refine .bind (.read (Q := fun _ => True) _ _ (fun _ => ⟨rfl, rfl, rfl⟩) (fun _ => trivial)) ?_
    (fun _ _ => trivial)
  rintro (_ | hint) - <;> trivial

theorem appendOnce_quiet (e : Entry) :
    (appendOnce (τ := τ) (ι := ι) e).Always (fun _ s t => Same s t) (fun _ => True) := by
  refine .bind (.read (Q := fun _ => True) _ _ (fun _ => ⟨rfl, rfl, rfl⟩) (fun _ => trivial)) ?_
    (fun _ _ => trivial)
  exact fun _ _ => .when (.modify _ _ (fun _ => ⟨rfl, rfl, rfl⟩) trivial) trivial

theorem giveBack_quiet (d : Deployment) :
    (giveBack (τ := τ) (ι := ι) d).Always (fun _ s t => Same s t) (fun _ => True) :=
  .modify _ _ (fun _ => ⟨rfl, rfl, rfl⟩) trivial

variable [DecidableEq ι] (A : QuerySettingsAdapter τ)

/-- A deploy that reads a hint of someone else finds no row of its key, or an applied one. -/
def Untouched (s : State τ ι) (key : IdempotencyKey) : Prop :=
  ∀ d ∈ s.deployments, d.idempotencyKey = key → d.status ≠ .applied →
    ∀ hint, A.getHint s.db key.action.toNamespace key.action.queryShapeHash = some (some hint) →
      hint = ⟨key.action.allowedIndexes⟩

/-- The runs in which no deploy takes up a row again whose shape shows someone else's hint. -/
def untouched : (services (ι := ι) A).Conduct where
  acts _ l s := match l with
    | .currentHint key => Untouched A s key
    | _ => True
  env s t := ∃ db, t = { s with db := db }

/-- Whoever holds a target's lock has the rows of the target to itself. -/
def respect : Discipline (untouched (ι := ι) A) where
  inv s := ∀ call ∈ s.settings, call.Respectful
  grows s t := ∀ id intent, Owns s id intent → Owns t id intent
  rely i s t := (∀ id intent, Owns s id intent → Owns t id intent) ∧
    ∀ target, s.locks target = some i → t.locks target = some i ∧
      ∀ id (d : QuerySettingsDeployment), d.targetId = target →
        (s.deployment id = some d ↔ t.deployment id = some d)
  rely_grows h := h.1
  idle _ _ := True
  refl _ _ := ⟨fun _ _ h => h, fun _ h => ⟨h, fun _ _ _ => Iff.rfl⟩⟩
  trans h h' := ⟨fun id intent hd => h'.1 id intent (h.1 id intent hd), fun target hl =>
    ⟨(h'.2 target (h.2 target hl).1).1, fun id d hd =>
      ((h.2 target hl).2 id d hd).trans ((h'.2 target (h.2 target hl).1).2 id d hd)⟩⟩
  idle_stable _ _ := trivial

variable {A} {i : ι} {s : State τ ι}

/-- A move that leaves the rows and the other sessions' locks alone. -/
theorem admits_of_same {t : State τ ι} (hcalls : ∀ call ∈ t.settings, call.Respectful)
    (hdeployments : t.deployments = s.deployments)
    (hlocks : ∀ j, j ≠ i → ∀ target, s.locks target = some j → t.locks target = some j) :
    (respect A).Admits i s t := by
  have hsame : ∀ id, t.deployment id = s.deployment id := by
    intro id
    rw [State.deployment, State.deployment, hdeployments]
  have hgrows : ∀ id intent, Owns s id intent → Owns t id intent := by
    rintro id intent ⟨d, hd, hintent⟩
    exact ⟨d, (hsame id).trans hd, hintent⟩
  exact ⟨hcalls, hgrows, fun j hj => ⟨hgrows, fun target hl =>
    ⟨hlocks j hj target hl, fun id d _ => by rw [hsame]⟩⟩⟩

/-- A move by which the rows of a target, whose lock the session holds, change. -/
theorem admits_of_owned {t : State τ ι} {target : TargetId} (hlock : s.locks target = some i)
    (hcalls : t.settings = s.settings) (hs : (respect A).inv s) (hlocks : t.locks = s.locks)
    (hgrows : ∀ id intent, Owns s id intent → Owns t id intent)
    (hothers : ∀ id (d : QuerySettingsDeployment), d.targetId ≠ target →
      (s.deployment id = some d ↔ t.deployment id = some d)) :
    (respect A).Admits i s t := by
  refine ⟨fun call hcall => hs call (hcalls ▸ hcall), hgrows, fun j hj => ⟨hgrows, ?_⟩⟩
  intro target' hl
  refine ⟨hlocks ▸ hl, fun id d hd => hothers id d ?_⟩
  rintro rfl
  rw [hd] at hlock
  exact hj (Option.some.inj (hl.symm.trans hlock))

theorem Same.neutral {t : State τ ι} (h : Same s t) (hs : (respect A).inv s) :
    (respect A).Neutral s t := by
  obtain ⟨hsettings, hdeployments, hlocks⟩ := h
  have hgrows : (respect A).grows s t := by
    rintro id intent ⟨d, hd, hintent⟩
    exact ⟨d, by rwa [State.deployment, hdeployments], hintent⟩
  refine ⟨fun call hcall => hs call (hsettings ▸ hcall), fun j => ⟨hgrows, fun target hl => ?_⟩⟩
  exact ⟨hlocks ▸ hl, fun id d _ => by rw [State.deployment, State.deployment, hdeployments]⟩

theorem crashable (K : State τ ι → Prop) : (respect A).Crashable i K := by
  intro l s hs _ _
  refine ⟨admits_of_same hs rfl (fun j hj target hl => ?_), trivial⟩
  simp only [services, dropLocks, hl, Option.some.injEq]
  exact if_neg hj

theorem stable_locked (target : TargetId) :
    (respect A).Stable i (fun s => s.locks target = some i) :=
  fun _ _ hr _ hl => (hr.2 _ hl).1

theorem permanent_owns (id : DeploymentId) (intent : Intent) :
    (respect A).Permanent (fun s : State τ ι => Owns s id intent) :=
  fun _ _ hg _ h => hg id intent h

/-- The session works on the row, under the lock of its target. -/
def Works (i : ι) (id : DeploymentId) (intent : Intent) (s : State τ ι) : Prop :=
  s.locks intent.targetId = some i ∧ Owns s id intent

theorem stable_works (id : DeploymentId) (intent : Intent) :
    (respect A).Stable i (Works i id intent) :=
  (stable_locked _).and (permanent_owns id intent).stable

variable {K : State τ ι → Prop} {α : Type} {p : Proc τ ι α}

/-- A process that neither writes a row nor a setting leaves everything as it is. -/
theorem quiet_triple (hp : p.Always (fun _ s t => Same s t) (fun _ => True))
    (hK : (respect A).Stable i K) :
    (respect A).Triple i K p (fun _ => K) (fun _ _ => True) :=
  .neutral hp (fun _ _ _ hs _ h => h.neutral hs) hK (crashable K) (fun _ _ _ _ hk => hk)
    (fun _ _ _ _ _ => trivial)

/-- A row of the target whose lock the session holds takes another status. -/
theorem update_admits {id : DeploymentId} {d d' : QuerySettingsDeployment} {move : Option LedgerEvent}
    (hs : (respect A).inv s) (hlock : s.locks d.targetId = some i) (hd : s.deployment id = some d)
    (hd' : d'.toIntent = d.toIntent) : (respect A).Admits i s (s.update id d' move) := by
  have htarget : d'.targetId = d.targetId := by rw [hd']
  refine admits_of_owned hlock rfl hs rfl ?_ (fun id' e he => ?_)
  · rintro id' intent ⟨e, he, rfl⟩
    by_cases h : id' = id
    · subst h
      obtain rfl := Option.some.inj (hd.symm.trans he)
      exact ⟨d', by simp [State.deployment_update hd], hd'⟩
    · exact ⟨e, by simp [State.deployment_update hd, h, he], rfl⟩
  · rw [State.deployment_update hd]
    split
    · next h =>
      subst h
      rw [hd, Option.some.injEq, Option.some.injEq]
      exact iff_of_false (fun hde => he (hde ▸ rfl)) (fun hde => he (hde ▸ htarget))
    · exact Iff.rfl

theorem mark_triple (id : DeploymentId) (intent : Intent) (status : DeploymentStatus)
    (after : SettingState) :
    (respect A).Triple i (Works i id intent) (mark id status after) (fun _ => Works i id intent)
      (fun _ _ => True) := by
  refine .atomic (stable_works id intent) (crashable _) (fun _ => stable_works id intent)
    (fun _ => .const _) ?_ (fun _ _ _ _ _ _ => trivial)
  rintro s marked t hs ⟨hlock, d, hd, rfl⟩ - ht
  simp only [hd, Except.ok.injEq, Prod.mk.injEq] at ht
  obtain ⟨-, rfl⟩ := ht
  exact ⟨update_admits hs hlock hd rfl, hlock, { d with status := status, afterState := some after },
    by simp [State.deployment_update hd], rfl⟩

theorem recordIntent_triple (intent : Intent) :
    (respect A).Triple i (fun s => s.locks intent.targetId = some i) (recordIntent intent)
      (fun d s => Works i d.1 intent s ∧ d.2.toIntent = intent) (fun _ _ => True) := by
  refine .atomic (stable_locked _) (crashable _) (fun d => (stable_works d.1 intent).and (.const _))
    (fun _ => .const _) ?_ (fun _ _ _ _ _ _ => trivial)
  intro s d t hs hlock _ ht
  split at ht
  · cases ht
  · cases ht
    refine ⟨admits_of_owned hlock rfl hs rfl ?_ (fun id' e he => ?_),
      ⟨hlock, ⟨intent, .intentRecorded, none⟩, ?_, rfl⟩, rfl⟩
    · rintro id' intent' ⟨e, he, rfl⟩
      refine ⟨e, ?_, rfl⟩
      rw [State.deployment_insert, if_neg (List.getElem?_eq_some_iff.mp he).1.ne, he]
    · rw [State.deployment_insert]
      split
      · next h =>
        subst h
        have hnone : s.deployment s.deployments.length = none := by simp [State.deployment]
        rw [hnone, Option.some.injEq]
        exact iff_of_false (by simp) (fun hde => he (hde ▸ rfl))
      · exact Iff.rfl
    · rw [State.deployment_insert, if_pos rfl]

theorem setHint_triple (id : DeploymentId) (intent : Intent)
    (action : SetQuerySettingsIndexHintAction) {call : Setting} (hcall : call.Respectful) :
    (respect A).Triple i (Works i id intent) (setHint A action call) (fun _ => Works i id intent)
      (fun _ _ => True) := by
  refine .bind (Q := fun _ => Works i id intent) ?_ (fun done => quiet_triple (.raiseIf (fun _ => trivial))
    (stable_works id intent))
  refine .act (stable_works id intent) (crashable _) (fun s hs hworks _ => ⟨?_, ?_⟩)
  · refine admits_of_same (fun call' hcall' => ?_) rfl (fun _ _ _ hl => hl)
    rcases List.mem_append.mp hcall' with h | h
    · exact hs call' h
    · obtain rfl := List.mem_singleton.mp h
      exact hcall
  · refine Discipline.Triple.pre (.ret (stable_works id intent) (fun _ _ h => h)) ?_
    rintro t - rfl
    exact hworks

theorem applySetting_triple {row : Deployment} {action : SetQuerySettingsIndexHintAction}
    {current : Option QuerySettingsIndexHint}
    (hcurrent : current = none ∨ current = row.2.intended) (evidenceHash : String) :
    (respect A).Triple i (Works i row.1 row.2.toIntent) (applySetting A row action current evidenceHash)
      (fun _ _ => True) (fun _ _ => True) := by
  refine .bind (setHint_triple row.1 row.2.toIntent action hcurrent) (fun _ => ?_)
  refine .bind (quiet_triple (readHint_quiet _ _ _) (stable_works _ _)) (fun observed => ?_)
  refine .bind (quiet_triple (.raiseIf (fun _ => trivial)) (stable_works _ _)) (fun _ => ?_)
  refine .bind (mark_triple _ _ _ _) (fun applied => ?_)
  refine .bind (quiet_triple (appendOnce_quiet _) (stable_works _ _)) (fun _ => ?_)
  exact .ret (stable_works _ _) (fun _ _ _ => trivial)

theorem intended_eq {d : Intent} : d.intended = some ⟨d.idempotencyKey.action.allowedIndexes⟩ := by
  rw [Intent.intended, d.intends]
  rfl

/-- A row that a deploy may take up again. -/
def Takeable (d : QuerySettingsDeployment) (current : Option QuerySettingsIndexHint) : Prop :=
  d.status ≠ .applied → current = none ∨ current = d.intended

theorem reconcile_triple {existing : Deployment} {action : SetQuerySettingsIndexHintAction}
    {current : Option QuerySettingsIndexHint} (htake : Takeable existing.2 current)
    (evidenceHash : String) :
    (respect A).Triple i (Works i existing.1 existing.2.toIntent)
      (reconcile A existing action current evidenceHash) (fun _ _ => True) (fun _ _ => True) := by
  refine .bind (quiet_triple (.raiseIf (fun _ => trivial)) (stable_works _ _)) (fun _ => ?_)
  split
  · refine .bind (quiet_triple (.raiseIf (fun _ => trivial)) (stable_works _ _)) (fun _ => ?_)
    refine .bind (quiet_triple (appendOnce_quiet _) (stable_works _ _)) (fun _ => ?_)
    exact .ret (stable_works _ _) (fun _ _ _ => trivial)
  · next happlied =>
    split
    · refine .bind (mark_triple _ _ _ _) (fun applied => ?_)
      refine .bind (quiet_triple (appendOnce_quiet _) (stable_works _ _)) (fun _ => ?_)
      exact .ret (stable_works _ _) (fun _ _ _ => trivial)
    · exact applySetting_triple (htake happlied) evidenceHash

/-- After a deploy has read the hint, the row of its key is takeable, if there is one. -/
def Read (i : ι) (key : IdempotencyKey) (current : Option QuerySettingsIndexHint) (s : State τ ι) :
    Prop :=
  s.locks key.targetId = some i ∧ ∀ id (d : QuerySettingsDeployment), s.deployment id = some d →
    d.idempotencyKey = key → Takeable d current

theorem stable_read (key : IdempotencyKey) (current : Option QuerySettingsIndexHint) :
    (respect A).Stable i (Read i key current) := by
  rintro s t hr _ ⟨hlock, hread⟩
  obtain ⟨hlock', hrows⟩ := hr.2 _ hlock
  refine ⟨hlock', fun id d hd hkey => hread id d ((hrows id d ?_).mpr hd) hkey⟩
  rw [← d.keyed, hkey]

theorem currentHint_triple (key : IdempotencyKey) :
    (respect A).Triple i (fun s => s.locks key.targetId = some i)
      (readHint A (.currentHint key) key.action) (Read i key) (fun _ _ => True) := by
  refine .bind (Q := fun hint s => ∀ current, hint = some current → Read i key current s)
    (.read (stable_locked _) (crashable _) (fun hint => .all (fun current => .imp (stable_read _ _)))
      (fun s hs hlock hacts => ?_)) (fun hint => ?_)
  · rintro current hcurrent
    refine ⟨hlock, fun id d hd hkey hstatus => ?_⟩
    have huntouched := hacts d (List.mem_of_getElem? hd) hkey hstatus
    cases current with
    | none => exact .inl rfl
    | some hint =>
      refine .inr ?_
      rw [intended_eq, hkey, huntouched hint hcurrent]
  · cases hint with
    | none => exact .fail (.all (fun _ => .imp (stable_read _ _))) (fun _ _ _ => trivial)
    | some current =>
      exact .ret (.all (fun _ => .imp (stable_read _ _))) (fun _ _ h => h current rfl)

theorem byKey_triple (key : IdempotencyKey) (current : Option QuerySettingsIndexHint) :
    (respect A).Triple i (Read i key current) (.read (.byKey key) (·.byKey key))
      (fun existing s => s.locks key.targetId = some i ∧ ∀ d : Deployment, existing = some d →
        Works i d.1 d.2.toIntent s ∧ Takeable d.2 current) (fun _ _ => True) := by
  refine .read (stable_read _ _) (crashable _) (fun existing => (stable_locked _).and
    (.all (fun d => .imp ((stable_works _ _).and (.const _))))) (fun s hs hread _ => ⟨hread.1, ?_⟩)
  intro d hd
  obtain ⟨hd, hkey⟩ := State.byKey_some hd
  have htarget : d.2.targetId = key.targetId := by rw [← d.2.keyed, hkey]
  exact ⟨⟨htarget ▸ hread.1, d.2, hd, rfl⟩, hread.2 d.1 d.2 hd hkey⟩

theorem deployLocked_triple (target : TargetId) (action : SetQuerySettingsIndexHintAction)
    (evidenceHash : String) (run : Option RunId) :
    (respect A).Triple i (fun s => s.locks target = some i)
      (deployLocked A target action evidenceHash run) (fun _ _ => True) (fun _ _ => True) := by
  refine .bind (quiet_triple (.read _ _ (fun _ => ⟨rfl, rfl, rfl⟩) (fun _ => trivial))
    (stable_locked _)) (fun indexes => ?_)
  refine .bind (quiet_triple (.raiseIf (fun _ => trivial)) (stable_locked _)) (fun _ => ?_)
  refine .bind (currentHint_triple ⟨target, action, evidenceHash⟩) (fun current => ?_)
  refine .bind (byKey_triple _ _) (fun existing => ?_)
  cases existing with
  | some existing =>
    refine Discipline.Triple.pre (Discipline.Triple.assuming (fun htake =>
      reconcile_triple htake evidenceHash)) ?_
    exact fun _ _ h => h.2 existing rfl
  | none =>
    refine Discipline.Triple.pre (.bind (.raiseIf (stable_locked target) (fun _ _ _ => trivial))
      (fun _ => ?_)) (fun _ _ h => h.1)
    refine Discipline.Triple.assuming (fun hnone => ?_)
    obtain rfl : current = none := by simpa using hnone
    refine .bind (recordIntent_triple (intentOf target run action evidenceHash _)) (fun row => ?_)
    exact (applySetting_triple (.inl rfl) evidenceHash).pre (fun _ _ h => h.2 ▸ h.1)

theorem ownedAction_ok {d : Intent} {action : SetQuerySettingsIndexHintAction}
    (h : ownedAction d = .ok action) : d.intended = some ⟨action.allowedIndexes⟩ := by
  unfold ownedAction at h
  split at h
  · cases h
  · next allowed hallowed =>
    simp only [QuerySettingsPayload.modelValidate] at h
    split at h
    · next hvalid =>
      split at hvalid <;> cases hvalid
      cases h
      rw [Intent.intended, hallowed]
      rfl
    · cases h

theorem finishRollback_triple (deployment : Deployment) (action : SetQuerySettingsIndexHintAction)
    (observed : Option QuerySettingsIndexHint) (evidenceHash : String) :
    (respect A).Triple i (Works i deployment.1 deployment.2.toIntent)
      (finishRollback deployment action observed evidenceHash) (fun _ _ => True)
      (fun _ _ => True) := by
  refine .bind (mark_triple _ _ _ _) (fun rolledBack => ?_)
  refine .bind (quiet_triple (appendOnce_quiet _) (stable_works _ _)) (fun _ => ?_)
  exact .ret (stable_works _ _) (fun _ _ _ => trivial)

theorem rollbackLocked_triple (deployment : Deployment) {action : SetQuerySettingsIndexHintAction}
    (haction : deployment.2.intended = some ⟨action.allowedIndexes⟩) (evidenceHash : String) :
    (respect A).Triple i (Works i deployment.1 deployment.2.toIntent)
      (rollbackLocked A deployment action evidenceHash) (fun _ _ => True) (fun _ _ => True) := by
  refine .bind (quiet_triple (readHint_quiet _ _ _) (stable_works _ _)) (fun current => ?_)
  split
  · refine .bind (quiet_triple (.raiseIf (fun _ => trivial)) (stable_works _ _)) (fun _ => ?_)
    refine .bind (quiet_triple (appendOnce_quiet _) (stable_works _ _)) (fun _ => ?_)
    exact .ret (stable_works _ _) (fun _ _ _ => trivial)
  · dsimp only
    split
    · exact finishRollback_triple deployment action current evidenceHash
    · refine .bind (.raiseIf (stable_works _ _) (fun _ _ _ => trivial)) (fun _ => ?_)
      refine Discipline.Triple.assuming (fun hown => ?_)
      have hcurrent : current = some ⟨action.allowedIndexes⟩ := by simpa using hown
      refine .bind (mark_triple _ _ _ _) (fun _ => ?_)
      refine .bind (setHint_triple _ _ action (.inr (hcurrent.trans haction.symm))) (fun _ => ?_)
      refine .bind (quiet_triple (readHint_quiet _ _ _) (stable_works _ _)) (fun observed => ?_)
      refine .bind (quiet_triple (.raiseIf (fun _ => trivial)) (stable_works _ _)) (fun _ => ?_)
      exact finishRollback_triple deployment action observed evidenceHash

theorem tryAcquire_triple {K : State τ ι → Prop} (hK : (respect A).Permanent K) (target : TargetId) :
    (respect A).Triple i K (tryAcquire i target) (fun _ s => s.locks target = some i ∧ K s)
      (fun _ _ => True) := by
  refine .atomic hK.stable (crashable _) (fun _ => (stable_locked target).and hK.stable)
    (fun _ => .const _) ?_ (fun _ _ _ _ _ _ => trivial)
  intro s _ t hs hk _ ht
  split at ht
  · next hfree =>
    cases ht
    have hadmits : (respect A).Admits i s
        { s with locks := Function.update s.locks target (some i) } := by
      refine admits_of_same hs rfl (fun j hj target' hl => ?_)
      have hne : target' ≠ target := by
        rintro rfl
        rw [hfree] at hl
        cases hl
      exact (Function.update_of_ne hne _ _).trans hl
    exact ⟨hadmits, Function.update_self _ _ _, hK hadmits.grows hadmits.inv hk⟩
  · cases ht

theorem release_triple (target : TargetId) :
    (respect A).Triple i (fun _ => True) (release i target) (fun _ _ => True) (fun _ _ => True) := by
  refine .modify (.const _) (crashable _) (.const _) (fun s hs _ _ => ⟨?_, trivial⟩)
  split
  · next hown =>
    refine admits_of_same hs rfl (fun j hj target' hl => ?_)
    have hne : target' ≠ target := by
      rintro rfl
      exact hj (Option.some.inj (hl.symm.trans hown))
    exact (Function.update_of_ne hne _ _).trans hl
  · exact .refl hs

theorem deploy_triple (target : TargetId) (action : SetQuerySettingsIndexHintAction)
    (evidenceHash : String) (run : Option RunId) :
    (respect A).Triple i (fun _ => True) (deploy A i target action evidenceHash run)
      (fun _ _ => True) (fun _ _ => True) := by
  refine .bind (tryAcquire_triple (fun _ _ _ _ _ => trivial) target) (fun _ => ?_)
  exact Discipline.Triple.pre (.onExit (deployLocked_triple target action evidenceHash run)
    (fun _ => release_triple target) (fun _ => release_triple target)) (fun _ _ h => h.1)

theorem rollback_triple (id : DeploymentId) (evidenceHash : String) :
    (respect A).Triple i (fun _ => True) (rollback A i id evidenceHash) (fun _ _ => True)
      (fun _ _ => True) := by
  refine .bind (Q := fun row s => ∀ d : QuerySettingsDeployment, row = some d → Owns s id d.toIntent)
    (.read (.const _) (crashable _) (fun row => .all (fun d => .imp (permanent_owns id _).stable))
      (fun s _ _ _ d hd => ⟨d, hd, rfl⟩)) (fun row => ?_)
  cases row with
  | none => exact .fail (.all (fun d => .imp (permanent_owns id _).stable)) (fun _ _ _ => trivial)
  | some d =>
    refine Discipline.Triple.pre ?_ (fun _ _ h => h d rfl)
    refine .bind (quiet_triple (.raiseIf (fun _ => trivial)) (permanent_owns _ _).stable) (fun _ => ?_)
    refine .bind (.ofExcept (permanent_owns _ _).stable (fun _ _ _ _ => trivial)) (fun action => ?_)
    refine Discipline.Triple.assuming (fun haction => ?_)
    refine .bind (tryAcquire_triple (permanent_owns _ _) d.targetId) (fun _ => ?_)
    exact .onExit (rollbackLocked_triple (id, d) (ownedAction_ok haction) evidenceHash)
      (fun _ => release_triple _) (fun _ => release_triple _)

theorem respect_governs : (respect (ι := ι) A).Governs := by
  refine .of_triples (fun i call _ => ?_) ?_
  · cases call with
    | deploy target action evidenceHash run =>
      exact .bind (deploy_triple target action evidenceHash run)
        (fun d => quiet_triple (giveBack_quiet d) (.const _))
    | rollback id evidenceHash =>
      exact .bind (rollback_triple id evidenceHash)
        (fun d => quiet_triple (giveBack_quiet d) (.const _))
  · rintro s t ⟨db, rfl⟩ hs
    exact Same.neutral ⟨rfl, rfl, rfl⟩ hs

/-- Where no deploy takes up a row again under someone else's hint, no hint of anyone else's is
replaced or removed. -/
theorem settings_respectful (A : QuerySettingsAdapter τ) {s₀ : State τ ι} (hs : s₀.settings = [])
    {c : Config Label (State τ ι) Error ι}
    (hr : (services A).Reach (untouched A).Allows (.quiet s₀) c) :
    ∀ call ∈ c.shared.settings, call.Respectful := by
  have hholds := Discipline.Holds.reach (D := respect A)
    (.quiet (fun call hcall => by simp [hs] at hcall) (fun _ => trivial)) respect_governs hr
  exact hholds.inv

end

section

def hintOwned : SetQuerySettingsIndexHintAction where
  database := "commerce"
  collection := "orders"
  queryShapeHash := "shape-owned"
  allowedIndexes := ["optimizer_owned"]
  wellFormed := by decide

/-- A server that has the index, and no setting. -/
def indexed : State MongoServer Unit :=
  let indexes : Indexes := (∅ : Indexes).insert "optimizer_owned" [("customer_id", 1)]
  { db := ⟨(∅ : MongoDatabase).insert ⟨"orders"⟩ indexes, ∅⟩ }

/-- The first `n` actions of a deploy. -/
def deployOwned (n : Nat) : List (Event Unit Call (MongoServer → MongoServer)) :=
  Event.calls () (.deploy 7 hintOwned "evidence" none) n

def untouchedTest (c : Config Label (State MongoServer Unit) Error Unit) :
    Event Unit Call (MongoServer → MongoServer) → Bool
  | .step _ => match c.label () with
    | some (.currentHint key) =>
      c.shared.deployments.all (fun d => d.idempotencyKey ≠ key ∨ d.status = .applied)
    | _ => true
  | .env _ => false
  | _ => true

theorem untouched_of_test {c : Config Label (State MongoServer Unit) Error Unit}
    {e : Event Unit Call (MongoServer → MongoServer)} (h : untouchedTest c e = true) :
    (untouched mongoServer).Allows c e := by
  cases e with
  | start i call => trivial
  | crash i => exact fun _ _ => trivial
  | env f => cases h
  | step i =>
    intro l hl
    simp only [untouchedTest, hl] at h
    cases l with
    | currentHint key =>
      intro d hd hkey happlied
      have htaken := List.all_eq_true.mp h d hd
      simp [hkey, happlied] at htaken
    | _ => trivial

theorem settings_respectful_retry : ∃ c, (services (ι := Unit) mongoServer).Reach
    (untouched mongoServer).Allows (.quiet indexed) c ∧ c.shared.settings.length = 1 ∧
      c.shared.returned.length = 2 ∧ ∀ call ∈ c.shared.settings, call.Respectful := by
  have hrun : ((services (ι := Unit) mongoServer).exec untouchedTest (deployOwned 12 ++ deployOwned 7)
      (.quiet indexed)).map (fun c => (c.shared.settings.length, c.shared.returned.length)) =
        some (1, 2) := by decide +kernel
  obtain ⟨c, hc, hlength⟩ := System.Reach.of_exec_map (fun _ _ _ h => untouched_of_test h) hrun
  obtain ⟨hsettings, hreturned⟩ := Prod.mk.inj hlength
  exact ⟨c, hc, hsettings, hreturned, settings_respectful mongoServer rfl hc⟩

/-- A person sets another hint. -/
def human (s : MongoServer) : MongoServer :=
  { s with settings := s.settings.insert "shape-owned" (⟨"orders"⟩, ⟨["_id_"]⟩) }

theorem not_settings_respectful : ¬ ∀ c, (services (ι := Unit) mongoServer).Reach
    (fun _ _ => True) (.quiet indexed) c → ∀ call ∈ c.shared.settings, call.Respectful := by
  intro h
  have hrun : ((services (ι := Unit) mongoServer).exec (fun _ _ => true)
      (deployOwned 12 ++ Event.calls () (.rollback 0 "evidence") 11 ++ [.env human] ++ deployOwned 5)
      (.quiet indexed)).map (fun c => c.shared.settings.all (·.Respectful)) = some false := by decide +kernel
  obtain ⟨c, hc, hforeign⟩ := System.Reach.of_exec_map (fun _ _ _ _ => trivial) hrun
  have hall : c.shared.settings.all (·.Respectful) = true :=
    List.all_eq_true.mpr (fun call hcall => decide_eq_true (h c hc call hcall))
  rw [hall] at hforeign
  cases hforeign

end

end NoSQLOptimizer.Production.DurableQuerySettings
