import Mathlib.Data.List.Dedup
import Mathlib.Data.List.ReduceOption
import NoSQLOptimizer.Benchmarks.WriteFootprint

namespace NoSQLOptimizer.Benchmarks

open Encoding

/-- The last value of this id. -/
def assign (name : String) (values : List (ℕ × Json)) (id : ℕ) (fields : DocumentFields) :
    DocumentFields :=
  values.foldl (fun fields x => if id = x.1 then fields.set name x.2 else fields) fields

theorem assign_of_notMem {name : String} {values : List (ℕ × Json)} {id : ℕ}
    (h : id ∉ values.map (·.1)) (fields : DocumentFields) :
    assign name values id fields = fields := by
  induction values with
  | nil => rfl
  | cons x values ih =>
    obtain ⟨hne, hrest⟩ := not_or.mp (List.mem_cons.not.mp h)
    rw [assign, List.foldl_cons, if_neg hne]
    exact ih hrest

theorem assign_of_mem {name : String} {values : List (ℕ × Json)} {id : ℕ} {v : Json}
    (hsame : ∀ x ∈ values, x.1 = id → x.2 = v) (h : id ∈ values.map (·.1))
    (fields : DocumentFields) : assign name values id fields = fields.set name v := by
  induction values generalizing fields with
  | nil => cases h
  | cons x values ih =>
    have hrest := fun y hy => hsame y (List.mem_cons_of_mem x hy)
    rw [assign, List.foldl_cons, ← assign]
    by_cases hmem : id ∈ values.map (·.1)
    · rw [ih hrest hmem]
      split
      · exact DocumentFields.set_set ..
      · rfl
    · have heq : id = x.1 := (List.mem_cons.mp h).resolve_right hmem
      rw [assign_of_notMem hmem, if_pos heq, hsame x List.mem_cons_self heq.symm]

namespace Collection

variable {server : Server} {name : String}

theorem bulkSet_eq (c : Collection) (values : List (ℕ × Json)) :
    (c.bulkSet server name values).documents =
        c.documents.map (fun d => ⟨d.id, assign name values d.id d.fields⟩) ∧
      (c.bulkSet server name values).indexes = c.indexes := by
  induction values generalizing c with
  | nil => exact ⟨(List.map_id _).symm, rfl⟩
  | cons x values ih =>
    rw [bulkSet, List.foldl_cons, updateOne_id, Option.getD_some, ← bulkSet]
    obtain ⟨hdocuments, hindexes⟩ := ih (c.modify x.1 (fun fields => fields.set name x.2))
    refine ⟨?_, hindexes⟩
    rw [hdocuments, modify, List.map_map]
    apply List.map_congr_left
    intro d _
    simp only [Function.comp_apply, assign, List.foldl_cons]
    split <;> rfl

theorem dropOwned_documents (c : Collection) : c.dropOwned.documents = c.documents := by
  unfold dropOwned
  generalize c.owned = names
  induction names generalizing c with
  | nil => rfl
  | cons name names ih => exact ih (c.dropIndex name)

theorem foldl_dropIndex_entries (c : Collection) (names : List String) :
    (names.foldl dropIndex c).indexes.entries = c.indexes.entries.filter (·.1 ∉ names) := by
  induction names generalizing c with
  | nil => simp
  | cons name names ih =>
    rw [List.foldl_cons, ih, dropIndex, Adapters.MongoDatabase.without, List.filter_filter]
    apply List.filter_congr
    intro e _
    simp [Bool.and_comm]

theorem dropOwned_entries (c : Collection) :
    c.dropOwned.indexes.entries = c.indexes.entries.filter (fun e => !optimizerOwned e.1) := by
  rw [dropOwned, foldl_dropIndex_entries]
  apply List.filter_congr
  intro e he
  have hkey : e.1 ∈ c.indexes.keys := List.mem_map_of_mem he
  simp [owned, hkey]

end Collection

/-- The values of a field, by `_id`, of the documents that pass a test. -/
def projection (name : String) (test : Document → Bool) (ds : List Document) : List (ℕ × Json) :=
  (ds.filter test).map (fun d => (d.id, (d.fields.get name).getD .null))

theorem map_eq_of_masked {f : Document → Document} {g : Document → Document}
    {ds ps : List Document} (h : ds.map f = ps.map f) (heq : ∀ d, ∀ p ∈ ps, f d = f p → g d = p) :
    ds.map g = ps := by
  induction ds generalizing ps with
  | nil =>
    cases ps with
    | nil => rfl
    | cons p ps => cases h
  | cons d ds ih =>
    cases ps with
    | nil => cases h
    | cons p ps =>
      rw [List.map_cons, List.map_cons, List.cons.injEq] at h
      rw [List.map_cons, heq d p List.mem_cons_self h.1,
        ih h.2 (fun d p hp => heq d p (List.mem_cons_of_mem _ hp))]

/-- The recorded values, put back, make the documents what they were. -/
theorem restores_masked {name : String} {test : Document → Bool} {ds ps : List Document}
    (hblind : Document.Blind name test) (hids : (ps.map (·.id)).Nodup)
    (hfield : ∀ p ∈ ps, test p = true → (p.fields.get name).isSome)
    (h : ds.map (Document.masked name test) = ps.map (Document.masked name test)) :
    ds.map (fun d => ⟨d.id, assign name (projection name test ps) d.id d.fields⟩) = ps := by
  apply map_eq_of_masked h
  intro d p hp hmasked
  obtain ⟨hid, -, hsame, hset⟩ := Document.eq_of_masked hblind hmasked
  have hprojected : ∀ x ∈ projection name test ps, x.1 = d.id →
      test p = true ∧ x.2 = (p.fields.get name).getD .null := by
    intro x hx hxid
    obtain ⟨q, hq, rfl⟩ := List.mem_map.mp hx
    obtain ⟨hq, htest⟩ := List.mem_filter.mp hq
    obtain rfl := List.inj_on_of_nodup_map hids hq hp (hxid.trans hid)
    exact ⟨htest, rfl⟩
  cases htest : test p with
  | false =>
    obtain rfl := hsame htest
    rw [assign_of_notMem]
    intro hmem
    obtain ⟨x, hx, hxid⟩ := List.mem_map.mp hmem
    have hcontra := (hprojected x hx hxid).1
    rw [htest] at hcontra
    cases hcontra
  | true =>
    obtain ⟨v, hv⟩ := Option.isSome_iff_exists.mp (hfield p hp htest)
    have hmem : (p.id, v) ∈ projection name test ps := by
      refine List.mem_map.mpr ⟨p, List.mem_filter.mpr ⟨hp, htest⟩, ?_⟩
      rw [hv, Option.getD_some]
    rw [assign_of_mem (fun x hx hxid => (hprojected x hx hxid).2)
      (hid ▸ List.mem_map_of_mem (f := (·.1)) hmem), hv]
    exact hset htest v hv

theorem mapM_eq_ok {α β ε : Type} {f : α → Except ε β} {as : List α} {bs : List β}
    (h : List.Forall₂ (fun a b => f a = .ok b) as bs) : as.mapM f = .ok bs := by
  induction h with
  | nil => rfl
  | cons hab _ ih =>
    rw [List.mapM_cons, hab, ih]
    rfl

theorem mapM_ok_of_forall {α β ε : Type} {f : α → Except ε β} {g : α → β} {as : List α}
    (h : ∀ a ∈ as, f a = .ok (g a)) : as.mapM f = .ok (as.map g) :=
  mapM_eq_ok (List.forall₂_map_right_iff.mpr (List.forall₂_same.mpr h))

/-- A loop over the positions of a list, up to a length. -/
theorem mapM_range_ok {β : Type} {ds : List Document} {n : ℕ}
    {f : ℕ → Document → Except BenchmarkError β} {g : Document → β} (hn : n ≤ ds.length)
    (h : ∀ i, ∀ hi : i < ds.length, f i (ds[i]) = .ok (g (ds[i]))) :
    (List.range n).mapM (fun i => do f i (← documentAt ds i)) = .ok ((ds.take n).map g) := by
  apply mapM_eq_ok
  rw [List.forall₂_iff_get]
  refine ⟨by simpa using hn, fun i hi _ => ?_⟩
  have hi : i < ds.length := by
    rw [List.length_range] at hi
    omega
  simp only [List.get_eq_getElem, List.getElem_range, documentAt, List.getElem?_eq_getElem hi,
    List.getElem_map, List.getElem_take]
  exact h i hi

theorem reduceOption_map_ite {α β : Type} (test : α → Bool) (g : α → β) (as : List α) :
    (as.map (fun a => if test a then some (g a) else none)).reduceOption =
      (as.filter test).map g := by
  induction as with
  | nil => rfl
  | cons a as ih =>
    rw [List.map_cons, List.filter_cons]
    split
    · rw [List.reduceOption_cons_of_some, ih, List.map_cons]
    · rw [List.reduceOption_cons_of_none, ih]

namespace DatasetSnapshot

variable (S : DatasetSnapshot) {name : CollectionName}

theorem id_getElem {i : ℕ} (hi : i < (S.collections name).length) :
    ((S.collections name)[i]).id = i + 1 := by
  have hids := S.ids name
  have hget : ((S.collections name).map (·.id))[i]? = some (i + 1) := by
    rw [hids, List.getElem?_range' hi]
    simp [Nat.add_comm]
  simpa [hi] using hget

theorem sorted : (S.collections name).Pairwise (fun a b => a.id ≤ b.id) := by
  have hsorted : ((S.collections name).map (·.id)).Pairwise (· ≤ ·) := by
    rw [S.ids]
    exact (List.pairwise_lt_range' 1).imp Nat.le_of_lt
  exact List.pairwise_map.mp hsorted

/-- The orders of the plan are those that the workload may write. -/
theorem filter_orders (horders : 10000 ≤ (S.collections .orders).length) :
    (S.collections .orders).filter (mutated .orders) = (S.collections .orders).take 10000 := by
  have hmutated : ∀ i, ∀ hi : i < (S.collections .orders).length,
      mutated .orders ((S.collections .orders)[i]) = decide (i < 10000) := by
    intro i hi
    simp only [mutated, S.id_getElem hi, mutatedOrderIds, List.mem_range'_1]
    congr 1
    simp only [eq_iff_iff]
    omega
  conv_lhs => rw [← List.take_append_drop 10000 (S.collections .orders)]
  rw [List.filter_append, List.filter_eq_self.mpr, List.filter_eq_nil_iff.mpr, List.append_nil]
  · intro d hd
    obtain ⟨i, hi, rfl⟩ := List.mem_drop_iff_getElem.mp hd
    rw [hmutated _ (by omega)]
    simp
  · intro d hd
    obtain ⟨i, hi, rfl⟩ := List.mem_take_iff_getElem.mp hd
    rw [hmutated _ (by omega)]
    simp only [decide_eq_true_eq]
    omega

variable (docHash : Option Document → String)

/-- The plan, as the documents have it. -/
def plan : ResetPlan where
  datasetFingerprint := S.fingerprint
  counts name := (S.collections name).length
  ordersStatus := projection "status" (mutated .orders) (S.collections .orders)
  inventoryAvailable := projection "available" (mutated .inventory) (S.collections .inventory)
  sampleHashes := CollectionName.all.map (fun name =>
    (name, (sampled name (S.collections name).length).map
      (fun id => (id, docHash (S.collections name)[id - 1]?))))

theorem mem_sampled {count id : ℕ} (h : id ∈ sampled name count) : 1 ≤ id ∧ id ≤ count := by
  have hsample : id ∈ sampleIds count := by
    unfold sampled at h
    split at h
    · exact List.mem_of_mem_filter h
    · exact h
  rw [sampleIds, List.mem_insertionSort, List.mem_dedup, List.mem_filter] at hsample
  simpa using hsample.2

theorem orderStatus_item {d : Document} (hd : d ∈ S.collections .orders) :
    d.item "status" = .ok ((d.fields.get "status").getD .null) := by
  obtain ⟨status, hstatus⟩ := S.status d hd
  simp [Document.item, hstatus]

theorem available_item {d : Document} (hd : d ∈ S.collections .inventory) :
    d.item "available" = .ok ((d.fields.get "available").getD .null) := by
  obtain ⟨-, available, -, havailable⟩ := S.stock d hd
  simp [Document.item, havailable]

theorem buildResetPlan_eq (horders : 10000 ≤ (S.collections .orders).length) :
    buildResetPlan docHash S = .ok (S.plan docHash) := by
  have hstatus : (List.range mutatedOrderIds.length).mapM (fun index => do
      return (index + 1, ← (← documentAt (S.collections .orders) index).item "status")) =
      Except.ok (S.plan docHash).ordersStatus := by
    rw [show mutatedOrderIds.length = 10000 from List.length_range']
    rw [mapM_range_ok (f := fun index d => do return (index + 1, ← d.item "status"))
      (g := fun d => (d.id, (d.fields.get "status").getD .null)) horders ?_]
    · rw [← S.filter_orders horders]
      rfl
    · intro i hi
      rw [S.orderStatus_item (List.getElem_mem hi), S.id_getElem hi]
      rfl
  have havailable : (List.range (S.collections .inventory).length).mapM (fun index => do
      let d ← documentAt (S.collections .inventory) index
      if mutatedProduct (← d.item "product_id") then
        return some (index + 1, ← d.item "available")
      else return none) = Except.ok ((S.collections .inventory).map (fun d =>
        if mutated .inventory d then some (d.id, (d.fields.get "available").getD .null)
        else none)) := by
    rw [mapM_range_ok (f := fun index d => do
      if mutatedProduct (← d.item "product_id") then
        return some (index + 1, ← d.item "available")
      else return none) (g := fun d => if mutated .inventory d then
        some (d.id, (d.fields.get "available").getD .null) else none) le_rfl ?_]
    · rw [List.take_length]
    · intro i hi
      obtain ⟨product, -, hproduct, -⟩ := S.stock _ (List.getElem_mem hi)
      rw [S.available_item (List.getElem_mem hi), S.id_getElem hi]
      simp only [Document.item, hproduct, mutated, Option.any_some, bind, Except.bind]
      cases mutatedProduct (.int product) <;> rfl
  have hsample : CollectionName.all.mapM (fun name => do
      let ds := S.collections name
      return (name, ← sample docHash ds (sampled name ds.length))) =
      Except.ok (S.plan docHash).sampleHashes := by
    simp only [plan]
    apply mapM_ok_of_forall
    intro name _
    have hhashes : sample docHash (S.collections name) (sampled name (S.collections name).length) =
        .ok ((sampled name (S.collections name).length).map
          (fun id => (id, docHash (S.collections name)[id - 1]?))) := by
      apply mapM_ok_of_forall
      intro id hid
      obtain ⟨hpos, hle⟩ := mem_sampled hid
      have hlt : id - 1 < (S.collections name).length := by omega
      simp only [documentAt, List.getElem?_eq_getElem hlt]
      rfl
    simp only [hhashes]
    rfl
  simp only [buildResetPlan, hstatus, havailable, hsample]
  simp only [bind, Except.bind, reduceOption_map_ite]
  rfl

theorem find_eq {test : Document → Bool} :
    (S.pristine.collection name).find test = (S.collections name).filter test :=
  Collection.find_sorted S.sorted

theorem findId_eq {id : ℕ} (hpos : 1 ≤ id) (hle : id ≤ (S.collections name).length) :
    (S.pristine.collection name).findId id = (S.collections name)[id - 1]? := by
  have hlt : id - 1 < (S.collections name).length := by omega
  have hid : ((S.collections name)[id - 1]).id = id := by
    rw [S.id_getElem hlt]
    omega
  rw [List.getElem?_eq_getElem hlt]
  cases hfind : (S.pristine.collection name).findId id with
  | none =>
    have hne := List.find?_eq_none.mp hfind _ (List.getElem_mem hlt)
    exact absurd (by simpa using hid) hne
  | some d =>
    have hd : d.id = id := by simpa using List.find?_some hfind
    congr 1
    exact Collection.eq_of_id (c := S.restored name) (List.mem_of_find?_eq_some hfind)
      (List.getElem_mem hlt) (hd.trans hid.symm)

/-- The pristine state is what the plan expects. -/
theorem observed_pristine (hevents : (S.collections .events).length < 10 ^ 7) :
    observed docHash S.pristine (S.plan docHash) = .ok (S.plan docHash).expected := by
  have hstatus : ((S.pristine.collection .orders).find (·.id ∈ mutatedOrderIds)).mapM (fun d => do
      return (d.id, ← d.item "status")) = Except.ok (S.plan docHash).ordersStatus := by
    rw [S.find_eq]
    apply mapM_ok_of_forall
    intro d hd
    rw [S.orderStatus_item (List.mem_of_mem_filter hd)]
    rfl
  have havailable : ((S.pristine.collection .inventory).find
      (fun d => (d.fields.get "product_id").any mutatedProduct)).mapM (fun d => do
        return (d.id, ← d.item "available")) =
      Except.ok (S.plan docHash).inventoryAvailable := by
    rw [S.find_eq]
    apply mapM_ok_of_forall
    intro d hd
    rw [S.available_item (List.mem_of_mem_filter hd)]
    rfl
  have hsynthetic : ((S.pristine.collection .events).documents.filter
      (eventInsertBase ≤ ·.id)).length = 0 := by
    rw [List.length_eq_zero_iff, List.filter_eq_nil_iff]
    intro d hd
    exact Bool.eq_false_iff.mp (S.not_synthetic hevents hd)
  have hhashes : (S.plan docHash).sampleHashes.map (fun hashes =>
      (hashes.1, hashes.2.map (fun h =>
        (h.1, docHash ((S.pristine.collection hashes.1).findId h.1))))) =
      (S.plan docHash).sampleHashes := by
    simp only [plan, List.map_map]
    apply List.map_congr_left
    intro name _
    simp only [Function.comp_apply, List.map_map]
    congr 1
    apply List.map_congr_left
    intro id hid
    obtain ⟨hpos, hle⟩ := mem_sampled hid
    simp only [Function.comp_apply, S.findId_eq hpos hle]
  simp only [observed, hstatus, havailable, hsynthetic, hhashes]
  rfl

end DatasetSnapshot

theorem dropOptimizerIndexes_eq (db : Database) :
    (dropOptimizerIndexes db).2 = fun name => (db name).map Collection.dropOwned := by
  funext name
  cases name <;> rfl

theorem Within.eq_restored {S : DatasetSnapshot} {name : CollectionName} {c c' : Collection}
    (h : Within S name c) (hindexes : c'.indexes.entries = c.dropOwned.indexes.entries)
    (hdocuments : c'.documents = (c.documents.filter (fun d => !synthetic name d)).map (fun d =>
      ⟨d.id, assign (mutatedField name)
        (projection (mutatedField name) (mutated name) (S.collections name)) d.id d.fields⟩)) :
    c' = S.restored name := by
  apply Collection.ext
  · rw [hdocuments]
    apply restores_masked (mutated_blind name) (S.nodup name) ?_ h.documents
    intro p hp hmutated
    cases name with
    | orders =>
      obtain ⟨status, hstatus⟩ := S.status p hp
      exact Option.isSome_of_eq_some hstatus
    | inventory =>
      obtain ⟨-, available, -, havailable⟩ := S.stock p hp
      exact Option.isSome_of_eq_some havailable
    | _ => cases hmutated
  · apply AList.ext
    rw [hindexes, Collection.dropOwned_entries, h.indexes]
    rfl

/-- A collection that the workload writes no field of. -/
theorem Within.eq_restored_of_unmutated {S : DatasetSnapshot} {name : CollectionName}
    {c c' : Collection} (h : Within S name c) (hmutated : ∀ d, mutated name d = false)
    (hindexes : c'.indexes.entries = c.dropOwned.indexes.entries)
    (hdocuments : c'.documents = c.documents.filter (fun d => !synthetic name d)) :
    c' = S.restored name := by
  have hnil : projection (mutatedField name) (mutated name) (S.collections name) = [] := by
    rw [projection, List.filter_eq_nil_iff.mpr (fun d _ => by simp [hmutated d]), List.map_nil]
  apply h.eq_restored hindexes
  rw [hnil, hdocuments]
  exact (List.map_id _).symm

section

variable (digest : Payload → String) (docHash : Option Document → String) (server : Server)

theorem modify_bulkSet (db : Database) (name : CollectionName) (field : String)
    (values : List (ℕ × Json)) :
    (if values = [] then db else db.modify name (fun c => c.bulkSet server field values)) =
      db.modify name (fun c => c.bulkSet server field values) := by
  split
  · next hnil =>
    subst hnil
    simp [Database.modify, Collection.bulkSet]
  · rfl

/-- What the writes of a reset leave. -/
theorem Drifted.written {S : DatasetSnapshot} {db : Database} (h : Drifted S db) :
    (((dropOptimizerIndexes db).2.modify .events
        (fun c => (c.deleteMany (eventInsertBase ≤ ·.id)).2)).modify .orders
          (fun c => c.bulkSet server "status" (S.plan docHash).ordersStatus)).modify .inventory
            (fun c => c.bulkSet server "available" (S.plan docHash).inventoryAvailable) =
      S.pristine := by
  rw [dropOptimizerIndexes_eq]
  funext name
  obtain ⟨c, hc, hwithin⟩ := h name
  simp only [Database.modify, Function.update_apply]
  cases name with
  | customers =>
    simp only [reduceCtorEq, if_false, hc, Option.map_some]
    congr 1
    refine hwithin.eq_restored_of_unmutated (fun _ => rfl) rfl ?_
    rw [filter_synthetic (by decide), Collection.dropOwned_documents]
  | products =>
    simp only [reduceCtorEq, if_false, hc, Option.map_some]
    congr 1
    refine hwithin.eq_restored_of_unmutated (fun _ => rfl) rfl ?_
    rw [filter_synthetic (by decide), Collection.dropOwned_documents]
  | orders =>
    simp only [reduceCtorEq, if_false, if_true, hc, Option.map_some]
    congr 1
    obtain ⟨hdocuments, hindexes⟩ := c.dropOwned.bulkSet_eq (S.plan docHash).ordersStatus
    refine hwithin.eq_restored (congrArg AList.entries hindexes) ?_
    rw [hdocuments, filter_synthetic (by decide), Collection.dropOwned_documents]
    rfl
  | events =>
    simp only [reduceCtorEq, if_false, if_true, hc, Option.map_some]
    congr 1
    refine hwithin.eq_restored_of_unmutated (fun _ => rfl) rfl ?_
    simp only [Collection.deleteMany, Collection.dropOwned_documents]
    rfl
  | inventory =>
    simp only [reduceCtorEq, if_false, if_true, hc, Option.map_some]
    congr 1
    obtain ⟨hdocuments, hindexes⟩ := c.dropOwned.bulkSet_eq (S.plan docHash).inventoryAvailable
    refine hwithin.eq_restored (congrArg AList.entries hindexes) ?_
    rw [hdocuments, filter_synthetic (by decide), Collection.dropOwned_documents]
    rfl

theorem Drifted.deltaReset {S : DatasetSnapshot} {db : Database} (h : Drifted S db)
    (hevents : (S.collections .events).length < 10 ^ 7) :
    ∃ report, deltaReset digest docHash server (S.plan docHash) db = (.ok report, S.pristine) := by
  have hwritten := h.written docHash server
  simp only [Benchmarks.deltaReset, modify_bulkSet]
  simp only [hwritten, observedDigest, S.observed_pristine docHash hevents, Except.map, ResetPlan.expectedDigest, ne_eq,
    not_true_eq_false, if_false]
  exact ⟨_, rfl⟩

end

/-- A server that scans a collection in its natural order. -/
def collectionScan : Server where
  first c filter := c.documents.find? filter
  first_mem h := ⟨List.mem_of_find?_eq_some h, List.find?_some h⟩
  first_none h d hd := by simpa using List.find?_eq_none.mp h d hd

/-- A smoke dataset whose draws are all the lowest. -/
def lowest : DatasetSnapshot :=
  CommerceBench.reset (fun payload => toString (payload.checksum 0)) (fun _ low _ => low) .smoke

end NoSQLOptimizer.Benchmarks
