import NoSQLOptimizer.Benchmarks.Documents

namespace NoSQLOptimizer.Benchmarks

open Encoding

/-- `COLLECTIONS`. -/
inductive CollectionName
  | customers
  | products
  | orders
  | events
  | inventory
  deriving DecidableEq

namespace CollectionName

def text : CollectionName → String
  | customers => "customers"
  | products => "products"
  | orders => "orders"
  | events => "events"
  | inventory => "inventory"

def all : List CollectionName := [customers, products, orders, events, inventory]

theorem mem_all (name : CollectionName) : name ∈ all := by
  cases name <;> decide

end CollectionName

/-- A generated dataset.  The `_id` of a document is its position plus one, no collection is empty,
and the fields that the reset reads are there. -/
structure DatasetSnapshot where
  collections : CollectionName → List Document
  fingerprint : String
  ids : ∀ name, (collections name).map (·.id) = List.range' 1 (collections name).length
  nonempty : ∀ name, collections name ≠ []
  status : ∀ d ∈ collections .orders, ∃ s, d.fields.get "status" = some (.str s)
  stock : ∀ d ∈ collections .inventory, ∃ p a : Int,
    d.fields.get "product_id" = some (.int p) ∧ d.fields.get "available" = some (.int a)

inductive WorkloadProfile
  | smoke
  | standard
  | publication
  deriving DecidableEq

namespace WorkloadProfile

def value : WorkloadProfile → String
  | smoke => "smoke"
  | standard => "standard"
  | publication => "publication"

/-- `PROFILE_RECORD_COUNTS`. -/
def recordCounts : WorkloadProfile → CollectionName → ℕ
  | smoke, .customers => 1000
  | smoke, .products => 500
  | smoke, .orders => 10000
  | smoke, .events => 20000
  | smoke, .inventory => 3000
  | standard, .customers => 20000
  | standard, .products => 10000
  | standard, .orders => 200000
  | standard, .events => 500000
  | standard, .inventory => 30000
  | publication, .customers => 100000
  | publication, .products => 50000
  | publication, .orders => 1000000
  | publication, .events => 2000000
  | publication, .inventory => 150000

theorem recordCounts_pos (profile : WorkloadProfile) (name : CollectionName) :
    0 < profile.recordCounts name := by
  cases profile <;> cases name <;> decide

end WorkloadProfile

namespace CommerceBench

def commercebenchSeed : Int := 42

def generatorVersion : String := "2"

/-- The fields of the document of this id.  `randint` is what the seeded generator draws, draw by
draw. -/
def fields (randint : ℕ → Int → Int → Int) (counts : CollectionName → ℕ) :
    CollectionName → ℕ → DocumentFields
  | .customers, id =>
    [("segment", .str (["consumer", "business"].getD (id % 2) "")), ("region", .int (id % 5 : ℕ))]
  | .products, id =>
    [("category", .str (s!"category-{id % 8}")), ("price_cents", .int (randint (id - 1) 100 50000))]
  | .orders, id =>
    [("customer_id", .int ((id - 1) % counts .customers + 1 : ℕ)),
      ("product_id", .int ((id * 7 - 1) % counts .products + 1 : ℕ)),
      ("quantity", .int (randint (counts .products + (id - 1)) 1 5)),
      ("status", .str (["created", "paid", "shipped"].getD (id % 3) ""))]
  | .events, id =>
    [("customer_id", .int ((id - 1) % counts .customers + 1 : ℕ)),
      ("event_type", .str (["view", "cart", "purchase"].getD (id % 3) "")),
      ("sequence", .int id)]
  | .inventory, id =>
    [("product_id", .int ((id - 1) % counts .products + 1 : ℕ)),
      ("available", .int (randint (counts .products + counts .orders + (id - 1)) 0 1000))]

def documents (randint : ℕ → Int → Int → Int) (counts : CollectionName → ℕ)
    (name : CollectionName) : List Document :=
  (List.range' 1 (counts name)).map (fun id => ⟨id, fields randint counts name id⟩)

/-- `_fingerprint`. -/
def fingerprint (sha256 : Json → String) (profile : WorkloadProfile)
    (collections : CollectionName → List Document) : String :=
  let document (d : Document) : Json := .object (("_id", .int d.id) :: d.fields)
  let payload : Json := .object
    [("generator_version", .str generatorVersion),
      ("profile", .str profile.value),
      ("seed", .int commercebenchSeed),
      ("collection_counts", .object (CollectionName.all.map
        (fun name => (name.text, .int (collections name).length)))),
      ("index_state", .object []),
      ("query_settings_state", .object []),
      ("collections", .object (CollectionName.all.map
        (fun name => (name.text, .list ((collections name).map document)))))]
  sha256 payload.canonical

/-- A fresh snapshot of a profile. -/
def reset (sha256 : Json → String) (randint : ℕ → Int → Int → Int) (profile : WorkloadProfile) :
    DatasetSnapshot where
  collections := documents randint profile.recordCounts
  fingerprint := fingerprint sha256 profile (documents randint profile.recordCounts)
  ids name := by simp [documents, Function.comp_def]
  nonempty name := by
    have hpos := profile.recordCounts_pos name
    simp only [documents, ne_eq, List.map_eq_nil_iff, List.range'_eq_nil_iff]
    omega
  status d hd := by
    obtain ⟨id, -, rfl⟩ := List.mem_map.mp hd
    exact ⟨_, rfl⟩
  stock d hd := by
    obtain ⟨id, -, rfl⟩ := List.mem_map.mp hd
    exact ⟨_, _, rfl, rfl⟩

end CommerceBench

inductive WorkloadKind
  | read
  | write
  deriving DecidableEq

/-- One workload shape, with its weight in the schedule. -/
structure WorkloadShape where
  name : String
  kind : WorkloadKind
  weight : ℕ
  deriving DecidableEq

/-- `COMMERCEBENCH_WORKLOADS`. -/
def mixedWorkloadShapes : List WorkloadShape :=
  [⟨"customer_by_id", .read, 20⟩, ⟨"product_by_category", .read, 15⟩,
    ⟨"orders_by_customer", .read, 25⟩, ⟨"inventory_by_product", .read, 10⟩,
    ⟨"order_status_update", .write, 12⟩, ⟨"inventory_decrement", .write, 10⟩,
    ⟨"event_insert", .write, 8⟩]

end NoSQLOptimizer.Benchmarks
