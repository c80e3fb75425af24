import NoSQLOptimizer.Benchmarks.Commerce

namespace NoSQLOptimizer.Benchmarks

open Encoding

abbrev Database := CollectionName → Option Collection

namespace Database

/-- A collection that is not there has no documents and no indexes. -/
def collection (db : Database) (name : CollectionName) : Collection :=
  (db name).getD ⟨[], ∅, List.nodup_nil⟩

def modify (db : Database) (name : CollectionName) (f : Collection → Collection) : Database :=
  Function.update db name ((db name).map f)

end Database

inductive BenchmarkError
  | indexError
  | keyError (name : String)
  | bulkWriteError
  | runtimeError (text : String)
  deriving DecidableEq

def eventInsertBase : ℕ := 10000000

def optimizerIndexPrefix : String := "optimizer_"

def mutatedOrderIds : List ℕ := List.range' 1 10000

def mutatedInventoryProductIds : List ℕ := List.range' 1 500

/-- `name.startswith(OPTIMIZER_INDEX_PREFIX)`. -/
def optimizerOwned (name : String) : Bool := optimizerIndexPrefix.toList.isPrefixOf name.toList

/-- `product_id in product_filter`. -/
def mutatedProduct (productId : Json) : Bool :=
  mutatedInventoryProductIds.any (fun id => productId = .int id)

/-- `_sample_ids`. -/
def sampleIds (count : ℕ) : List ℕ :=
  (([1, 2, max 1 (count / 1000), max 1 (count / 2), max 1 (count - 1), count].filter
    (fun id => 1 ≤ id ∧ id ≤ count)).dedup).insertionSort (· ≤ ·)

/-- `document[name]`. -/
def Document.item (d : Document) (name : String) : Except BenchmarkError Json :=
  match d.fields.get name with
  | none => .error (.keyError name)
  | some v => .ok v

/-- `documents[index]`. -/
def documentAt (ds : List Document) (index : ℕ) : Except BenchmarkError Document :=
  match ds[index]? with
  | none => .error .indexError
  | some d => .ok d

/-- What the digest is of.  The dicts under a collection's name are functions of it, as the JSON
sorts its keys. -/
structure Payload where
  counts : CollectionName → ℕ
  indexes : CollectionName → List String
  ordersStatus : List (ℕ × Json)
  inventoryAvailable : List (ℕ × Json)
  syntheticEvents : ℕ
  sampleHashes : List (CollectionName × List (ℕ × String))

/-- The frozen pristine values and the expected state of one snapshot. -/
structure ResetPlan where
  datasetFingerprint : String
  counts : CollectionName → ℕ
  ordersStatus : List (ℕ × Json)
  inventoryAvailable : List (ℕ × Json)
  sampleHashes : List (CollectionName × List (ℕ × String))

structure ResetReport where
  resetFingerprint : String
  droppedOptimizerIndexes : List String
  removedSyntheticEvents : ℕ

section

variable (digest : Payload → String) (docHash : Option Document → String)

def ResetPlan.expected (plan : ResetPlan) : Payload where
  counts := plan.counts
  indexes _ := ["_id_"]
  ordersStatus := plan.ordersStatus
  inventoryAvailable := plan.inventoryAvailable
  syntheticEvents := 0
  sampleHashes := plan.sampleHashes

def ResetPlan.expectedDigest (plan : ResetPlan) : String := digest plan.expected

/-- `_sample`. -/
def sample (ds : List Document) (ids : List ℕ) : Except BenchmarkError (List (ℕ × String)) :=
  ids.mapM (fun id => do return (id, docHash (some (← documentAt ds (id - 1)))))

/-- The ids that are sampled of a collection. -/
def sampled (name : CollectionName) (count : ℕ) : List ℕ :=
  if name = .orders then (sampleIds count).filter (fun id => 10000 < id) else sampleIds count

/-- `build_reset_plan`. -/
def buildResetPlan (S : DatasetSnapshot) : Except BenchmarkError ResetPlan := do
  let orders := S.collections .orders
  let inventory := S.collections .inventory
  let ordersStatus ← (List.range mutatedOrderIds.length).mapM (fun index => do
    return (index + 1, ← (← documentAt orders index).item "status"))
  let inventoryAvailable ← (List.range inventory.length).mapM (fun index => do
    let d ← documentAt inventory index
    if mutatedProduct (← d.item "product_id") then return some (index + 1, ← d.item "available")
    else return none)
  let sampleHashes ← CollectionName.all.mapM (fun name => do
    let ds := S.collections name
    return (name, ← sample docHash ds (sampled name ds.length)))
  return {
    datasetFingerprint := S.fingerprint
    counts := fun name => (S.collections name).length
    ordersStatus
    inventoryAvailable := inventoryAvailable.reduceOption
    sampleHashes }

/-- What `observed_digest` reads. -/
def observed (db : Database) (plan : ResetPlan) : Except BenchmarkError Payload := do
  let ordersStatus ← ((db.collection .orders).find (·.id ∈ mutatedOrderIds)).mapM (fun d => do
    return (d.id, ← d.item "status"))
  let inventoryAvailable ← ((db.collection .inventory).find
    (fun d => (d.fields.get "product_id").any mutatedProduct)).mapM (fun d => do
      return (d.id, ← d.item "available"))
  return {
    counts := fun name => (db.collection name).documents.length
    indexes := fun name => (db.collection name).indexes.keys.insertionSort (· ≤ ·)
    ordersStatus
    inventoryAvailable
    syntheticEvents := ((db.collection .events).documents.filter (eventInsertBase ≤ ·.id)).length
    sampleHashes := plan.sampleHashes.map (fun hashes =>
      (hashes.1, hashes.2.map (fun h => (h.1, docHash ((db.collection hashes.1).findId h.1))))) }

def observedDigest (db : Database) (plan : ResetPlan) : Except BenchmarkError String :=
  (observed docHash db plan).map digest

/-- The indexes of a collection that the optimizer owns. -/
def Collection.owned (c : Collection) : List String := c.indexes.keys.filter optimizerOwned

def Collection.dropOwned (c : Collection) : Collection := c.owned.foldl Collection.dropIndex c

/-- `drop_optimizer_indexes`. -/
def dropOptimizerIndexes (db : Database) : List String × Database :=
  CollectionName.all.foldl (fun x name =>
    (x.1 ++ (x.2.collection name).owned.map (fun index => name.text ++ "." ++ index),
      x.2.modify name Collection.dropOwned)) ([], db)

variable (server : Server)

/-- A `bulk_write` of one `$set` for each `_id`. -/
def Collection.bulkSet (name : String) (c : Collection) (values : List (ℕ × Json)) : Collection :=
  values.foldl (fun c x =>
    (c.updateOne server (·.id = x.1) (fun fields => some (fields.set name x.2))).getD c) c

/-- Restores the exact pristine starting state using bounded bulk operations. -/
def deltaReset (plan : ResetPlan) (db : Database) : Except BenchmarkError ResetReport × Database :=
  let dropped := dropOptimizerIndexes db
  let removed := (dropped.2.collection .events).deleteMany (eventInsertBase ≤ ·.id)
  let db := dropped.2.modify .events (fun c => (c.deleteMany (eventInsertBase ≤ ·.id)).2)
  let db := if plan.ordersStatus = [] then db
    else db.modify .orders (fun c => c.bulkSet server "status" plan.ordersStatus)
  let db := if plan.inventoryAvailable = [] then db
    else db.modify .inventory (fun c => c.bulkSet server "available" plan.inventoryAvailable)
  match observedDigest digest docHash db plan with
  | .error e => (.error e, db)
  | .ok seen =>
    if seen ≠ plan.expectedDigest digest then
      (.error (.runtimeError "delta reset failed to restore the exact equivalent starting state"), db)
    else
      (.ok {
        resetFingerprint := seen
        droppedOptimizerIndexes := dropped.1
        removedSyntheticEvents := removed.1 }, db)

end

end NoSQLOptimizer.Benchmarks
