import NoSQLOptimizer.Concurrency.Permit
import NoSQLOptimizer.Concurrency.Trail
import NoSQLOptimizer.Production.QuerySettings
import NoSQLOptimizer.Reversion.Complete

namespace NoSQLOptimizer.Reversion

open Adapters Actions Concurrency Encoding Ledger Production Production.Memory
open ControlPlane (IndexState)

variable {τ F α : Type} {sha256 : Json → String}

inductive Operation (F : Type)
  | deployIndex : DeploymentRequest F → Operation F
  | deploySettings : QuerySettings.QuerySettingsDeploymentRequest → Operation F
  | rollbackIndex : Rollback.OwnedIndex.RollbackRequest → Operation F
  | rollbackSettings : QuerySettings.QuerySettingsRollbackRequest → Operation F

def Operation.run (A : QuerySettingsAdapter τ) : Operation F → Proc τ sha256 PUnit
  | .deployIndex request => do let _ ← deploy A.toDatabaseAdapter request
  | .deploySettings request => do let _ ← QuerySettings.deploy A request
  | .rollbackIndex request => do
    let _ ← Rollback.OwnedIndex.rollback A.toDatabaseAdapter request
  | .rollbackSettings request => do let _ ← QuerySettings.rollback A request

/-- Calls of any number of callers, given up at any step, with anything happening outside at any
time. -/
def inMemory (F : Type) (A : QuerySettingsAdapter τ) (sha256 : Json → String) :
    System Label (State τ sha256) Error Nat (Operation F) (State τ sha256 → State τ sha256) where
  call _ := Operation.run A
  crash _ s := s
  env e := e

/-- What happens outside: to the target, the approvals and the clock. -/
structure Outside (s t : State τ sha256) : Prop where
  ledger : t.ledger = s.ledger
  rollbacks : t.rollbacks = s.rollbacks

/-- The entry that a rollback compares with the target, where it finds nothing to speak against its
going on. -/
def recorded (A : QuerySettingsAdapter τ) (s : State τ sha256) : Label → Option LedgerEntry
  | .ownIndexes entry targetId ns =>
    let database := (entry.forwardAction.1.get "database").asStr.getD ""
    let failures := Rollback.OwnedIndex.stateFailures sha256 entry
      ⟨database, ns.collection, true, A.listIndexes s.db ns⟩
    if entry.forwardAction.1.get "target_id" = .str targetId ∧ failures.toOption = some [] then
      some entry
    else none
  | .ownHint entry ns shape =>
    match QuerySettings.appliedAction entry, A.getHint s.db ns shape with
    | .ok action, some hint =>
      if QuerySettings.allowedIndexes hint = some action.allowedIndexes then some entry else none
    | _, _ => none
  | _ => none

/-- Any calls, given up anywhere, and anything outside. -/
def AnyHistory (c : Config Label (State τ sha256) Error Nat) :
    Event Nat (Operation F) (State τ sha256 → State τ sha256) → Prop
  | .env f => Outside c.shared (f c.shared)
  | _ => True

/-- A rollback that finds the target as recorded is the first for its entry to find it so that has
not been given up. -/
def Unrepeated (A : QuerySettingsAdapter τ) (c : Config Label (State τ sha256) Error Nat) :
    Event Nat (Operation F) (State τ sha256 → State τ sha256) → Prop
  | .step i => ∀ l e, c.label i = some l → recorded A c.shared l = some e →
      e ∉ c.shared.rollbacks ∧ ∀ j, j ≠ i → (c.label j).bind Label.owner ≠ some e
  | .env f => Outside c.shared (f c.shared)
  | _ => True

/-- A rollback may change the target once it has found it as recorded. -/
def permits (A : QuerySettingsAdapter τ) (sha256 : Json → String) :
    Permits Label (State τ sha256) LedgerEntry where
  holds := Label.owner
  grants l s e := recorded A s l = some e
  done s := s.rollbacks

section

variable {A : QuerySettingsAdapter τ}

/-- Nothing in the process has to do with the target's rollbacks. -/
abbrev Plain (A : QuerySettingsAdapter τ) (p : Proc τ sha256 α) : Prop :=
  p.Always (fun l s t => (permits A sha256).Idle l s t) (fun _ => True)

theorem Plain.bind {β : Type} {p : Proc τ sha256 α} {f : α → Proc τ sha256 β} (h : Plain A p)
    (hf : ∀ a, Plain A (f a)) : Plain A (p.bind f) :=
  Process.Always.bind h (fun a _ => hf a) (fun _ _ => trivial)

theorem read_plain {l : Label} (hl : l.owner = none) (f : State τ sha256 → α) :
    Plain A (Process.read l f : Proc τ sha256 α) :=
  fun _ => ⟨⟨hl, rfl⟩, trivial⟩

theorem append_plain (record : Record) : Plain A (append record : Proc τ sha256 LedgerEntry) :=
  fun _ => ⟨⟨rfl, rfl⟩, trivial⟩

theorem findEntry_plain (id : EntryId) :
    Plain A (findEntry id : Proc τ sha256 (Option LedgerEntry)) :=
  read_plain rfl _

theorem ofExcept_plain (x : Except Error α) : Plain A (Process.ofExcept x : Proc τ sha256 α) := by
  cases x <;> trivial

theorem requireCurrentApproval_plain (actionId evidenceHash targetId : String) :
    Plain A (requireCurrentApproval actionId evidenceHash targetId : Proc τ sha256 PUnit) := by
  refine fun s => ⟨⟨rfl, rfl⟩, ?_⟩
  dsimp only
  split <;> trivial

theorem write_plain {l : Label} (hl : l.owner = none) (f : τ → Option τ) :
    Plain A (write l f : Proc τ sha256 PUnit) := by
  refine fun s => ⟨⟨hl, rfl⟩, ?_⟩
  dsimp only
  split <;> trivial

theorem readHint_plain {l : Label} (hl : l.owner = none) (ns : Namespace) (shape : String) :
    Plain A (readHint A l ns shape : Proc τ sha256 _) := by
  refine fun s => ⟨⟨hl, rfl⟩, ?_⟩
  dsimp only
  split <;> trivial

theorem currentState_plain {l l' : Label} (hl : l.owner = none) (hl' : l'.owner = none)
    (database : String) (ns : Namespace) :
    Plain A (currentState A.toDatabaseAdapter l l' database ns : Proc τ sha256 IndexState) := by
  refine Plain.bind (read_plain hl _) (fun namespaces => ?_)
  split
  · exact Plain.bind (read_plain hl' _) (fun _ => trivial)
  · trivial

theorem raiseIf_plain (b : Bool) (e : Error) : Plain A (Process.raiseIf b e : Proc τ sha256 PUnit) :=
  .raiseIf (fun _ => trivial)

theorem deploy_plain (request : DeploymentRequest F) :
    Plain A (deploy A.toDatabaseAdapter request : Proc τ sha256 DeploymentResult) := by
  refine Plain.bind (raiseIf_plain _ _) (fun _ => ?_)
  refine Plain.bind (.when (requireCurrentApproval_plain _ _ _) trivial) (fun _ => ?_)
  refine Plain.bind (currentState_plain rfl rfl _ _) (fun before => ?_)
  refine Plain.bind (raiseIf_plain _ _) (fun _ => ?_)
  refine Plain.bind (ofExcept_plain _) (fun _ => ?_)
  refine Plain.bind (append_plain _) (fun prepared => ?_)
  refine Plain.bind (write_plain rfl _) (fun _ => ?_)
  refine Plain.bind (currentState_plain rfl rfl _ _) (fun after => ?_)
  refine Plain.bind (ofExcept_plain _) (fun _ => ?_)
  exact Plain.bind (append_plain _) (fun _ => trivial)

theorem settingsDeploy_plain (request : QuerySettings.QuerySettingsDeploymentRequest) :
    Plain A (QuerySettings.deploy A request : Proc τ sha256 _) := by
  refine Plain.bind (readHint_plain rfl _ _) (fun before => ?_)
  refine Plain.bind (raiseIf_plain _ _) (fun _ => ?_)
  refine Plain.bind (raiseIf_plain _ _) (fun _ => ?_)
  refine Plain.bind (.when (requireCurrentApproval_plain _ _ _) trivial) (fun _ => ?_)
  refine Plain.bind (Plain.bind (read_plain rfl _) (fun _ => raiseIf_plain _ _)) (fun _ => ?_)
  refine Plain.bind (append_plain _) (fun prepared => ?_)
  refine Plain.bind (write_plain rfl _) (fun _ => ?_)
  refine Plain.bind (readHint_plain rfl _ _) (fun actual => ?_)
  refine Plain.bind (raiseIf_plain _ _) (fun _ => ?_)
  exact Plain.bind (append_plain _) (fun _ => trivial)

theorem rollBack_obeys {e : LedgerEntry} {l : Label} (hl : l.owner = some e) (f : τ → Option τ) :
    (permits A sha256).Obeys (fun r _ => r = none) (some e) (rollBack e l f) := by
  refine fun s => ⟨hl, none, ?_⟩
  cases hf : f s.db with
  | some db =>
    refine ⟨.inr ⟨e, rfl, rfl, by simp [permits, hf]⟩, ?_⟩
    simp [hf, Permits.Obeys]
  | none =>
    refine ⟨.inl ⟨by simp [permits, hf], by rintro r ⟨⟩⟩, ?_⟩
    simp [hf, Permits.Obeys]

/-- Reading under a permit keeps it. -/
theorem currentState_keeps (e : LedgerEntry) (database : String) (ns ns' : Namespace) :
    (permits A sha256).Obeys (fun r _ => r = some e) (some e)
      (currentState A.toDatabaseAdapter (.listNamespaces (some e)) (.listIndexes (some e) ns) database
        ns') := by
  refine .bind (Q := fun r _ => r = some e) (.read rfl (fun s => ⟨_, fun _ => .inl, rfl⟩)) ?_
  rintro _ namespaces rfl
  split
  · refine .bind (Q := fun r _ => r = some e) (.read rfl (fun s => ⟨_, fun _ => .inl, rfl⟩)) ?_
    rintro _ indexes rfl
    rfl
  · rfl

theorem Plain.obeys {p : Proc τ sha256 α} (h : Plain A p) :
    (permits A sha256).Obeys (fun r _ => r = none) none p :=
  (Permits.Obeys.of_always h).mono (fun _ _ hr => hr.1)

/-- Nothing speaks against a rollback of the entry where the target shows this. -/
def Owns (sha256 : Json → String) (entry : LedgerEntry) (targetId : String) (current : IndexState) :
    Prop :=
  entry.forwardAction.1.get "target_id" = .str targetId ∧
    Rollback.OwnedIndex.stateFailures sha256 entry current = .ok []

theorem ownState_obeys {entry : LedgerEntry} {targetId database : String}
    (hd : entry.forwardAction.1.get "database" = .str database) (ns : Namespace) :
    (permits A sha256).Obeys (fun r current => Owns sha256 entry targetId current → r = some entry) none
      (currentState A.toDatabaseAdapter (.listNamespaces none) (.ownIndexes entry targetId ns) database
        ns) := by
  refine .bind (Q := fun r _ => r = none) (.read rfl (fun s => ⟨none, by simp, rfl⟩)) ?_
  rintro _ namespaces rfl
  split
  · refine .bind (Q := fun r indexes =>
      Owns sha256 entry targetId ⟨database, ns.collection, true, indexes⟩ → r = some entry)
      (.read rfl (fun s => ⟨recorded A s (.ownIndexes entry targetId ns), fun _ => .inr, ?_⟩))
      (fun r indexes hr => hr)
    rintro ⟨htarget, hfailures⟩
    simp [recorded, hd, htarget, Json.asStr, hfailures, Except.toOption]
  · rintro ⟨-, hfailures⟩
    simp [Rollback.OwnedIndex.stateFailures, pure, Except.pure] at hfailures

theorem verifyOwnership_obeys (entry : LedgerEntry) (targetId : String) :
    (permits A sha256).Obeys (fun r failures => failures = [] → r = some entry) none
      (Rollback.OwnedIndex.verifyOwnership A.toDatabaseAdapter entry targetId) := by
  unfold Rollback.OwnedIndex.verifyOwnership
  dsimp only
  split
  · rintro ⟨⟩
  · split
    · next database collection hdatabase hcollection =>
      refine .bind (ownState_obeys hdatabase _) (fun r current hr => ?_)
      cases hfailures : Rollback.OwnedIndex.stateFailures sha256 entry current with
      | error e => trivial
      | ok failures =>
        simp only [Process.ofExcept, Process.bind_def, Process.ret_bind, Process.pure_def,
          Permits.Obeys, List.append_eq_nil_iff]
        rintro ⟨htarget, rfl⟩
        exact hr ⟨by simpa using htarget, hfailures⟩
    · simp [Permits.Obeys]

theorem dropOwned_obeys (entry : LedgerEntry) (actor : String) :
    (permits A sha256).Obeys (fun _ _ => True) (some entry)
      (Rollback.OwnedIndex.dropOwned A.toDatabaseAdapter entry actor) := by
  refine .bind (currentState_keeps entry _ _ _) ?_
  rintro _ before rfl
  refine .bind (rollBack_obeys rfl _) ?_
  rintro _ _ rfl
  refine .bind (currentState_plain rfl rfl _ _).obeys ?_
  rintro _ after rfl
  split
  · trivial
  · exact .bind (append_plain _).obeys (fun _ _ _ => trivial)

theorem rollbackIndex_obeys (request : Rollback.OwnedIndex.RollbackRequest) :
    (permits A sha256).Obeys (fun _ _ => True) none
      (Rollback.OwnedIndex.rollback A.toDatabaseAdapter request) := by
  refine .bind (findEntry_plain _).obeys ?_
  rintro _ entry rfl
  cases entry with
  | none => trivial
  | some entry =>
    refine .bind (verifyOwnership_obeys entry _) (fun r failures hr => ?_)
    split
    · trivial
    · next hnil =>
      rw [hr (by simpa using hnil)]
      exact dropOwned_obeys entry _

theorem restore_obeys {entry : LedgerEntry} {action : SetQuerySettingsIndexHintAction}
    (haction : QuerySettings.appliedAction entry = .ok action) (actor : String) :
    (permits A sha256).Obeys (fun _ _ => True) none
      (QuerySettings.restore A entry action actor) := by
  refine .bind (Q := fun r current =>
    QuerySettings.allowedIndexes current = some action.allowedIndexes → r = some entry)
    (fun s => ⟨rfl, recorded A s (.ownHint entry action.toNamespace action.queryShapeHash),
      .inl ⟨rfl, fun _ => .inr⟩, ?_⟩) (fun r current hr => ?_)
  · cases hhint : A.getHint s.db action.toNamespace action.queryShapeHash with
    | none => simp [hhint, Permits.Obeys]
    | some hint =>
      simp only [hhint, Permits.Obeys]
      intro hallowed
      simp [recorded, haction, hhint, hallowed]
  · by_cases hallowed : QuerySettings.allowedIndexes current = some action.allowedIndexes
    · rw [hr hallowed]
      simp only [hallowed, ne_eq, not_true_eq_false, decide_false, Process.raiseIf,
        Bool.false_eq_true, ↓reduceIte, Process.bind_def, Process.ret_bind]
      refine .bind (rollBack_obeys rfl _) ?_
      rintro _ _ rfl
      refine (Plain.bind (readHint_plain rfl _ _) (fun now => ?_)).obeys.mono (fun _ _ _ => trivial)
      exact Plain.bind (raiseIf_plain _ _) (fun _ => append_plain _)
    · simp [Process.raiseIf, hallowed, Permits.Obeys]

theorem rollbackSettings_obeys (request : QuerySettings.QuerySettingsRollbackRequest) :
    (permits A sha256).Obeys (fun _ _ => True) none (QuerySettings.rollback A request) := by
  refine .bind (findEntry_plain _).obeys ?_
  rintro _ entry rfl
  cases entry with
  | none => trivial
  | some entry =>
    cases haction : QuerySettings.appliedAction entry with
    | error e => simp [haction, Process.ofExcept, Permits.Obeys]
    | ok action =>
      simp only [haction, Process.ofExcept, Process.bind_def, Process.ret_bind]
      refine .bind (raiseIf_plain _ _).obeys ?_
      rintro _ _ rfl
      exact restore_obeys haction _

theorem permits_governs : (permits A sha256).Governs (inMemory F A sha256) where
  call i k := by
    cases k with
    | deployIndex request => exact .bind (deploy_plain request).obeys (fun _ _ _ => trivial)
    | deploySettings request => exact .bind (settingsDeploy_plain request).obeys (fun _ _ _ => trivial)
    | rollbackIndex request => exact .bind (rollbackIndex_obeys request) (fun _ _ _ => trivial)
    | rollbackSettings request =>
      exact .bind (rollbackSettings_obeys request) (fun _ _ _ => trivial)
  crash _ _ := rfl

end

/-- Where no rollback finds the target as recorded again, an entry leads to one change at most. -/
theorem rolledBack_once (A : QuerySettingsAdapter τ) {s₀ : State τ sha256} (hs : s₀.rollbacks = [])
    {c : Config Label (State τ sha256) Error Nat}
    (hr : (inMemory F A sha256).Reach (Unrepeated A) (.quiet s₀) c) (e : LedgerEntry) :
    c.shared.rollbacks.count e ≤ 1 := by
  refine List.nodup_iff_count_le_one.mp (permits_governs.done_nodup (by simp [permits, hs])
    (hr.mono (fun c event hP => ?_))) e
  cases event with
  | start i k => trivial
  | step i => exact hP
  | crash i => trivial
  | env f => exact hP.rollbacks

def emptyServer : State MongoServer smallDigest where
  db := ⟨emptyOrders.db, ∅⟩
  approvals := emptyOrders.approvals

def deployOnce : List (Event Nat (Operation Unit)
    (State MongoServer smallDigest → State MongoServer smallDigest)) :=
  Event.calls 0 (.deployIndex (admittedRequest customerIndex [])) 7

/-- The rollback of the second entry. -/
def rollbackOnce : List (Event Nat (Operation Unit)
    (State MongoServer smallDigest → State MongoServer smallDigest)) :=
  Event.calls 0 (.rollbackIndex ⟨"target", 1, "worker"⟩) 9

/-- Tests a run of one caller. -/
def unrepeated (c : Config Label (State MongoServer smallDigest) Error Nat) :
    Event Nat (Operation Unit) (State MongoServer smallDigest → State MongoServer smallDigest) → Bool
  | .step _ => ((c.label 0).bind (recorded mongoServer c.shared)).all (· ∉ c.shared.rollbacks)
  | _ => true

theorem rolledBack_once_deployed : ∃ c, (inMemory Unit mongoServer smallDigest).Reach
    (Unrepeated mongoServer) (.quiet emptyServer) c ∧ c.shared.rollbacks.length = 1 ∧
      ∀ e, c.shared.rollbacks.count e ≤ 1 := by
  have hrun : ((inMemory Unit mongoServer smallDigest).exec unrepeated (deployOnce ++ rollbackOnce)
      (.quiet emptyServer)).map (·.shared.rollbacks.length) = some 1 := by decide +kernel
  have hown : ∀ e ∈ deployOnce ++ rollbackOnce, e = .step 0 ∨ ∃ k, e = .start 0 k := by
    intro e he
    rcases List.mem_append.mp he with he | he
    · exact (Event.of_mem_calls he).symm.imp id (fun h => ⟨_, h⟩)
    · exact (Event.of_mem_calls he).symm.imp id (fun h => ⟨_, h⟩)
  obtain ⟨c, hc, hlength⟩ := System.Reach.of_exec_map
    (P := fun c e => unrepeated c e = true ∧ (e = .step 0 ∨ ∃ k, e = .start 0 k))
    (fun e he c ht => ⟨ht, hown e he⟩) hrun
  have hreach : (inMemory Unit mongoServer smallDigest).Reach (Unrepeated mongoServer)
      (.quiet emptyServer) c := by
    refine (hc.strengthen (fun d hd => hd.alone (i := 0) ?_)).mono ?_
    · rintro _ _ ⟨-, rfl | ⟨k, rfl⟩⟩ j hj <;> simpa [Event.session] using Ne.symm hj
    · rintro d _ ⟨⟨ht, rfl | ⟨k, rfl⟩⟩, halone⟩
      · intro l e hl he
        simp only [unrepeated, hl, Option.bind_some, he, Option.all_some, decide_eq_true_eq] at ht
        exact ⟨ht, fun j hj => by simp [halone j hj]⟩
      · trivial
  exact ⟨c, hreach, hlength, rolledBack_once mongoServer rfl hreach⟩

/-- Someone creates the dropped index again. -/
def recreate (s : State MongoServer smallDigest) : State MongoServer smallDigest :=
  { s with db := (mongoServer.createIndex s.db customerIndex.toNamespace
      customerIndex.toIndexSpec).getD s.db }

theorem not_rolledBack_once : ¬ ∀ c, (inMemory Unit mongoServer smallDigest).Reach AnyHistory
    (.quiet emptyServer) c → ∀ e, c.shared.rollbacks.count e ≤ 1 := by
  intro h
  have hrun : ((inMemory Unit mongoServer smallDigest).exec (fun _ _ => true)
      (deployOnce ++ rollbackOnce ++ [.env recreate] ++ rollbackOnce) (.quiet emptyServer)).map
        (fun c => decide c.shared.rollbacks.Nodup) = some false := by decide +kernel
  have hcalls : ∀ (k : Operation Unit) n, ∀ e ∈ Event.calls 0 k n,
      ∀ c : Config Label (State MongoServer smallDigest) Error Nat, AnyHistory c e := by
    intro k n e he c
    rcases Event.of_mem_calls he with rfl | rfl <;> trivial
  have hany : ∀ e ∈ deployOnce ++ rollbackOnce ++ [.env recreate] ++ rollbackOnce, ∀ c,
      AnyHistory c e := by
    intro e he c
    rcases List.mem_append.mp he with he | he
    · rcases List.mem_append.mp he with he | he
      · rcases List.mem_append.mp he with he | he <;> exact hcalls _ _ e he c
      · obtain rfl := List.mem_singleton.mp he
        exact ⟨rfl, rfl⟩
    · exact hcalls _ _ e he c
  obtain ⟨c, hc, hdup⟩ := System.Reach.of_exec_map (fun e he c _ => hany e he c) hrun
  exact absurd (List.nodup_iff_count_le_one.mpr (h c hc)) (by simpa using hdup)

end NoSQLOptimizer.Reversion
