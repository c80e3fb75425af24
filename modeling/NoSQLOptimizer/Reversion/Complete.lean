import NoSQLOptimizer.Adapters.MongoDB
import NoSQLOptimizer.Production.Executor
import NoSQLOptimizer.Rollback.OwnedIndex

namespace NoSQLOptimizer.Reversion

open Adapters Actions Concurrency Encoding Ledger Production Production.Memory Rollback.OwnedIndex
open ControlPlane (IndexState)

variable {τ F : Type} {sha256 : Json → String}

theorem get_freezeMapping (name : String) (j : Json) :
    (freezeMapping j).1.get name = (j.get name).canonical := Json.get_canonical name j

section

variable (sha256) (request : DeploymentRequest F)

def fieldJson (f : IndexField) : Json :=
  .object [("field", .str f.field), ("direction", .int f.direction)]

theorem fieldOf_fieldJson (f : IndexField) : fieldOf (fieldJson f) = some (f.field, f.direction) := by
  simp [fieldOf, fieldJson]

/-- The keys that a rollback reads out of the frozen action are those the deployment put in. -/
theorem fieldItems_forwardAction (phase : String) :
    (fieldItems (freezeMapping (request.forwardAction sha256 phase)).1).map (·.filterMap fieldOf) =
      .ok request.action.toIndexSpec.keys := by
  have hlookup : (Fields.ofList ([("phase", .str phase), ("target_id", .str request.targetId),
      ("index_fingerprint", .str (indexFingerprint sha256 request.action.toIndexSpec))] ++
      request.action.modelDump)).lookup "fields" =
      some (.arr (.ofList (request.action.fields.map fieldJson))) := by
    simp only [CreateIndexAction.modelDump, List.cons_append, List.nil_append, Fields.ofList,
      Fields.lookup, String.reduceEq, ↓reduceIte]
    rfl
  have hitems : fieldItems (freezeMapping (request.forwardAction sha256 phase)).1 =
      .ok ((request.action.fields.map fieldJson).map Json.canonical) := by
    rw [← Items.toList_ofList (request.action.fields.map fieldJson)]
    exact fieldItems_canonical hlookup
  have hread : ((request.action.fields.map fieldJson).map Json.canonical).filterMap fieldOf =
      request.action.toIndexSpec.keys := by
    rw [List.filterMap_map, List.filterMap_map, CreateIndexAction.toIndexSpec,
      ← List.filterMap_eq_map]
    exact List.filterMap_congr (fun f _ => (fieldOf_canonical _).trans (fieldOf_fieldJson f))
  rw [hitems, Except.map, hread]

theorem forwardAction_get (phase : String) :
    let action := (freezeMapping (request.forwardAction sha256 phase)).1
    action.get "phase" = .str phase ∧ action.get "action_type" = .str "CREATE_INDEX" ∧
      action.get "target_id" = .str request.targetId ∧
      action.get "database" = .str request.action.database ∧
      action.get "collection" = .str request.action.collection ∧
      action.get "index_name" = .str request.action.indexName ∧
      action.get "index_fingerprint" = .str (indexFingerprint sha256 request.action.toIndexSpec) := by
  simp [get_freezeMapping, DeploymentRequest.forwardAction, CreateIndexAction.modelDump,
    request.action.actionType_eq]

end

/-- The one listed index of the action's name is the action's. -/
theorem matching_applied (sha256 : Json → String) {request : DeploymentRequest F} {state : IndexState}
    (h : verifyApplied state request.action = .ok ⟨⟩) :
    matching (freezeMapping (request.forwardAction sha256 "APPLIED")).1 state.indexes =
      [request.action.toIndexSpec] := by
  unfold verifyApplied at h
  split at h
  · next hkeys =>
    have hsame : matching (freezeMapping (request.forwardAction sha256 "APPLIED")).1 state.indexes =
        state.indexes.filter (·.name = request.action.indexName) := by
      simp only [matching, (forwardAction_get sha256 request "APPLIED").2.2.2.2.2.1, Json.str.injEq, eq_comm]
    obtain ⟨index, hindex, hk⟩ := List.map_eq_singleton_iff.mp hkeys
    have hmem : index ∈ state.indexes.filter (·.name = request.action.indexName) := by
      simp [hindex]
    have hname : index.name = request.action.indexName := by
      simpa using (List.mem_filter.mp hmem).2
    rw [hsame, hindex]
    cases index
    cases hname
    cases hk
    rfl
  · cases h

/-- The entry of a deployment, and the state it has recorded. -/
structure Records (sha256 : Json → String) (request : DeploymentRequest F) (state : IndexState)
    (entry : LedgerEntry) : Prop where
  forwardAction : entry.forwardAction = freezeMapping (request.forwardAction sha256 "APPLIED")
  afterState : entry.afterState = freezeMapping (stateJson state)

theorem Records.stateFailures {request : DeploymentRequest F} {state : IndexState}
    {entry : LedgerEntry} (h : Records sha256 request state entry)
    (hexists : state.namespaceExists = true)
    (happlied : verifyApplied state request.action = .ok ⟨⟩) :
    stateFailures sha256 entry state = .ok [] := by
  have hdrift : stateHash sha256 entry.afterState = stateHash sha256 (stateJson state) := by
    rw [h.afterState, stateHash, stateHash, freezeMapping, Json.canonical_idem]
  have hkeys := fieldItems_forwardAction sha256 request "APPLIED"
  cases hitems : fieldItems (freezeMapping (request.forwardAction sha256 "APPLIED")).1 with
  | error e =>
    rw [hitems] at hkeys
    cases hkeys
  | ok items =>
    rw [hitems] at hkeys
    have hread : items.filterMap fieldOf = request.action.toIndexSpec.keys := by
      simpa [Except.map] using hkeys
    have hfingerprint := (forwardAction_get sha256 request "APPLIED").2.2.2.2.2.2
    simp [Rollback.OwnedIndex.stateFailures, hexists, h.forwardAction, hitems,
      matching_applied sha256 happlied, hread, hfingerprint, hdrift, bind, Except.bind, pure, Except.pure]

section

variable {A : DatabaseAdapter τ} {request : DeploymentRequest F} {entry : LedgerEntry}
  {s : State τ sha256}

/-- The target shows what the entry of the request recorded. -/
structure InPlace (A : DatabaseAdapter τ) (request : DeploymentRequest F) (entry : LedgerEntry)
    (s : State τ sha256) : Prop where
  found : s.ledger.entries.find? (·.entryId = entry.entryId) = some entry
  listed : request.action.toNamespace ∈ A.listNamespaces s.db
  records : Records sha256 request
    (currentStateOf A s.db request.action.database request.action.toNamespace) entry
  applied : verifyApplied
    (currentStateOf A s.db request.action.database request.action.toNamespace) request.action =
      .ok ⟨⟩

theorem InPlace.verifyOwnership (h : InPlace A request entry s) :
    (verifyOwnership A entry request.targetId).run s = (.ok [], s) := by
  obtain ⟨hphase, htype, htarget, hdatabase, hcollection, -, -⟩ :=
    forwardAction_get sha256 request "APPLIED"
  have hfailures := h.records.stateFailures (currentStateOf_exists.mpr h.listed) h.applied
  unfold Rollback.OwnedIndex.verifyOwnership
  rw [h.records.forwardAction]
  simp only [hphase, htype, htarget, hdatabase, hcollection, ne_eq, not_true_eq_false, or_self,
    ↓reduceIte, Process.bind_def, Process.pure_def]
  rw [Process.run_bind_ok (run_currentState ..)]
  erw [hfailures]
  rfl

theorem InPlace.index_listed (h : InPlace A request entry s) :
    request.action.toIndexSpec ∈ A.listIndexes s.db request.action.toNamespace := by
  have hmatching := matching_applied sha256 h.applied
  rw [currentStateOf_listed h.listed] at hmatching
  have hmem : request.action.toIndexSpec ∈ [request.action.toIndexSpec] := List.mem_singleton_self _
  rw [← hmatching] at hmem
  exact (List.mem_filter.mp hmem).1

theorem InPlace.dropOwned (h : InPlace A request entry s) (hA : A.Local) (actor : String) :
    ∃ result t, (dropOwned A entry actor).run s = (.ok result, t) ∧ result.status = .rolledBack ∧
      s.ledger.entries <+: t.ledger.entries ∧
      A.dropIndex s.db request.action.toNamespace request.action.indexName = some t.db := by
  obtain ⟨-, -, -, hdatabase, hcollection, hname, -⟩ :=
    forwardAction_get sha256 request "APPLIED"
  obtain ⟨db, hdrop⟩ := Option.isSome_iff_exists.mp (hA.drop_listed h.listed h.index_listed)
  change A.dropIndex s.db request.action.toNamespace request.action.indexName = some db at hdrop
  have hgone : ∀ y ∈ (currentStateOf A db request.action.database request.action.toNamespace).indexes,
      y.name ≠ request.action.indexName := by
    intro y hy
    rw [currentStateOf_listed ((hA.drop_namespaces hdrop).mpr h.listed), hA.drop_indexes hdrop] at hy
    simpa using (List.mem_filter.mp hy).2
  unfold Rollback.OwnedIndex.dropOwned
  rw [h.records.forwardAction]
  simp only [hdatabase, hcollection, hname, Json.asStr, Option.getD_some, Process.bind_def]
  rw [Process.run_bind_ok (run_currentState ..)]
  rw [Process.run_bind_ok (run_rollBack hdrop), Process.run_bind_ok (run_currentState ..)]
  split
  · next hany =>
    obtain ⟨y, hy, hyname⟩ := List.any_eq_true.mp hany
    exact absurd (of_decide_eq_true hyname) (hgone y hy)
  · rw [Process.run_bind_ok (run_append ..)]
    exact ⟨_, _, rfl, rfl, List.prefix_append _ _, hdrop⟩

/-- The rollback of a deployment's entry drops its index. -/
theorem InPlace.rollback (h : InPlace A request entry s) (hA : A.Local) (actor : String) :
    ∃ result t, (rollback A ⟨request.targetId, entry.entryId, actor⟩).run s = (.ok result, t) ∧
      result.status = .rolledBack ∧ s.ledger.entries <+: t.ledger.entries ∧
      A.dropIndex s.db request.action.toNamespace request.action.indexName = some t.db := by
  unfold Rollback.OwnedIndex.rollback
  simp only [findEntry, Process.bind_def, Process.run_bind_ok (Process.run_read ..), h.found]
  rw [Process.run_bind_ok h.verifyOwnership]
  exact h.dropOwned hA actor

end

/-- One deployment after the other. -/
def deployAll (A : DatabaseAdapter τ) :
    List (DeploymentRequest F) → Proc τ sha256 (List DeploymentResult)
  | [] => return []
  | request :: requests => do
    let result ← deploy A request
    return result :: (← deployAll A requests)

/-- Their applied entries are rolled back, the last one first. -/
def rollbackAll (A : DatabaseAdapter τ) (actor : String) :
    List (DeploymentRequest F × DeploymentResult) → Proc τ sha256 (List RollbackResult)
  | [] => return []
  | (request, result) :: rest => do
    let later ← rollbackAll A actor rest
    return (← rollback A ⟨request.targetId, result.appliedEntry.entryId, actor⟩) :: later

section

variable {A : DatabaseAdapter τ} {s t u : State τ sha256}

theorem inPlace_of_deployed {request : DeploymentRequest F} {result : DeploymentResult}
    (h : Deployed A request s t result) (hA : A.Local) (he : t.ledger.entries <+: u.ledger.entries)
    (hu : A.indexState u.db = A.indexState t.db) : InPlace A request result.appliedEntry u := by
  have hstate := currentStateOf_congr hu request.action.database request.action.toNamespace
  obtain ⟨rest, hrest⟩ := he
  refine ⟨?_, ?_, ⟨h.forwardAction, ?_⟩, ?_⟩
  · have hentries : u.ledger.entries = (s.ledger.entries ++ [result.preparedEntry]) ++
        result.appliedEntry :: rest := by
      rw [← hrest, h.entries]
      simp
    rw [hentries]
    exact find_fresh h.fresh
  · have hexists : (currentStateOf A u.db request.action.database
        request.action.toNamespace).namespaceExists = true := by
      rw [hstate]
      exact currentStateOf_exists.mpr ((hA.create_namespaces h.listed h.created).mpr h.listed)
    exact currentStateOf_exists.mp hexists
  · rw [hstate]
    exact h.afterState
  · rw [hstate]
    exact h.applied

/-- From any later moment at which the target shows what it showed after the deployments, the
rollbacks lead back to what it showed before them. -/
theorem rollbackAll_restores (hA : A.Local) (actor : String) {requests : List (DeploymentRequest F)}
    {results : List DeploymentResult} (h : (deployAll A requests).run s = (.ok results, t))
    (he : t.ledger.entries <+: u.ledger.entries) (hu : A.indexState u.db = A.indexState t.db) :
    s.ledger.entries <+: t.ledger.entries ∧ ∃ outcomes v,
      (rollbackAll A actor (requests.zip results)).run u = (.ok outcomes, v) ∧
      outcomes.length = requests.length ∧ (∀ o ∈ outcomes, o.status = .rolledBack) ∧
      A.indexState v.db = A.indexState s.db ∧ u.ledger.entries <+: v.ledger.entries := by
  induction requests generalizing s t results with
  | nil =>
    cases h
    exact ⟨List.prefix_rfl, [], u, rfl, rfl, by simp, hu, List.prefix_rfl⟩
  | cons request requests ih =>
    simp only [deployAll, Process.bind_def, Process.pure_def] at h
    obtain ⟨result, s₁, hdeploy, h⟩ := Process.run_bind_eq_ok.mp h
    obtain ⟨later, s₂, hlater, h⟩ := Process.run_bind_eq_ok.mp h
    cases h
    have hdeployed := deploy_ok hdeploy
    obtain ⟨hearlier, outcomes, v, hrun, hlength, hall, hv, huv⟩ := ih hlater he hu
    have hinPlace := inPlace_of_deployed hdeployed hA (hearlier.trans (he.trans huv)) hv
    obtain ⟨outcome, w, hroll, hstatus, hvw, hdrop⟩ := hinPlace.rollback hA actor
    have hs₁ : s.ledger.entries <+: s₁.ledger.entries := by
      rw [hdeployed.entries]
      exact List.prefix_append _ _
    refine ⟨hs₁.trans hearlier, outcome :: outcomes, w, ?_, by simp [hlength], ?_,
      hA.restores hdeployed.listed hdeployed.new hdeployed.created hv hdrop, huv.trans hvw⟩
    · simp only [List.zip_cons_cons, rollbackAll, Process.bind_def, Process.pure_def]
      rw [Process.run_bind_ok hrun, Process.run_bind_ok hroll]
      rfl
    · intro o ho
      rcases List.mem_cons.mp ho with rfl | ho
      · exact hstatus
      · exact hall o ho

end

/-- Deployments rolled back in reverse order are the identity on the index state, and only add to a
ledger that verifies. -/
theorem complete_reversion {A : DatabaseAdapter τ} (hA : A.Local) (actor : String)
    {s t : State τ sha256} {requests : List (DeploymentRequest F)} {results : List DeploymentResult}
    (h : (deployAll A requests).run s = (.ok results, t)) :
    ∃ outcomes u, (rollbackAll A actor (requests.zip results)).run t = (.ok outcomes, u) ∧
      outcomes.length = requests.length ∧ (∀ o ∈ outcomes, o.status = .rolledBack) ∧
      A.indexState u.db = A.indexState s.db ∧ verify sha256 u.ledger.entries = true ∧
      s.ledger.entries <+: t.ledger.entries ∧ t.ledger.entries <+: u.ledger.entries := by
  obtain ⟨hst, outcomes, u, hrun, hlength, hall, hu, htu⟩ :=
    rollbackAll_restores hA actor h List.prefix_rfl rfl
  exact ⟨outcomes, u, hrun, hlength, hall, hu, u.ledger.verified, hst, htu⟩

def smallDigest (document : Json) : String := toString (document.checksum 0)

def customerIndex : CreateIndexAction where
  database := "commerce"
  collection := "orders"
  indexName := "customer"
  fields := [⟨"customer_id", 1⟩]
  wellFormed := by decide
  unforbidden := by decide

def statusIndex : CreateIndexAction where
  database := "commerce"
  collection := "orders"
  indexName := "status"
  fields := [⟨"status", -1⟩, ⟨"customer_id", 1⟩]
  wellFormed := by decide
  unforbidden := by decide

/-- An admitted deployment of the action where the collection has these indexes. -/
def admittedRequest (action : CreateIndexAction) (indexes : List IndexSpec) :
    DeploymentRequest Unit where
  targetId := "target"
  actionId := action.indexName
  action := action
  admission := { candidateId := "candidate", evaluationRunId := "evaluation", profile := .autonomous
                 primaryMetricKey := "p95", requiredPairCount := 10, actualPairCount := 10
                 status := .admitted, reasonCodes := [], productionEligible := true }
  evidenceHash := "evidence"
  expectedStateHash :=
    stateHash smallDigest (stateJson ⟨action.database, action.collection, true, indexes⟩)
  actor := "worker"
  deploymentMode := .fullAutonomous

def nested : List (DeploymentRequest Unit) :=
  [admittedRequest customerIndex [], admittedRequest statusIndex [customerIndex.toIndexSpec]]

def emptyOrders : State MongoDatabase smallDigest where
  db := (∅ : MongoDatabase).insert ⟨"orders"⟩ ∅

theorem complete_reversion_nested : ∃ results t outcomes u,
    (deployAll mongodb nested).run emptyOrders = (.ok results, t) ∧
    (rollbackAll mongodb "worker" (nested.zip results)).run t = (.ok outcomes, u) ∧
    outcomes.length = 2 ∧ mongodb.indexState u.db = mongodb.indexState emptyOrders.db := by
  have hok : ((deployAll mongodb nested).run emptyOrders).1.isOk = true := by decide +kernel
  cases hrun : (deployAll mongodb nested).run emptyOrders with
  | mk x t =>
    cases x with
    | error e =>
      rw [hrun] at hok
      cases hok
    | ok results =>
      obtain ⟨outcomes, u, hroll, hlength, -, hstate, -⟩ :=
        complete_reversion mongodb_local "worker" hrun
      exact ⟨results, t, outcomes, u, rfl, hroll, hlength, hstate⟩

end NoSQLOptimizer.Reversion
