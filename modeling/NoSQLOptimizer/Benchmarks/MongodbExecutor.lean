import NoSQLOptimizer.Benchmarks.Reset

namespace NoSQLOptimizer.Benchmarks

open Encoding

namespace Database

/-- `update_one`; `none` where it raises. -/
def updateOne (server : Server) (db : Database) (name : CollectionName) (filter : Document → Bool)
    (change : DocumentFields → Option DocumentFields) : Option Database :=
  match db name with
  | none => some db
  | some c =>
    (c.updateOne server filter change).map (fun c => Function.update db name (some c))

/-- `insert_one`; `none` where it raises. -/
def insertOne (db : Database) (name : CollectionName) (d : Document) : Option Database :=
  (((db name).getD .created).insertOne d).map (fun c => Function.update db name (some c))

end Database

/-- `_execute`.  What a read finds is dropped. -/
def execute (server : Server) (db : Database) (shape : WorkloadShape) (position : ℕ) :
    Option Database :=
  let customerId := position % 1000 + 1
  let productId := position % 500 + 1
  let orderId := position % 10000 + 1
  if shape.name = "customer_by_id" ∨ shape.name = "product_by_category" ∨
      shape.name = "orders_by_customer" ∨ shape.name = "inventory_by_product" then some db
  else if shape.name = "order_status_update" then
    db.updateOne server .orders (·.id = orderId)
      (fun fields => some (fields.set "status" (.str "paid")))
  else if shape.name = "inventory_decrement" then
    db.updateOne server .inventory (fun d => d.fields.get "product_id" = some (.int productId))
      (·.inc "available" (-1))
  else if shape.kind = .write then
    db.insertOne .events ⟨10000000 + position,
      [("customer_id", .int customerId), ("event_type", .str "view"),
        ("sequence", .int (10000000 + position : ℕ))]⟩
  else some db

/-- The schedule of the measurement. -/
def schedule : List WorkloadShape :=
  mixedWorkloadShapes.flatMap (fun shape => List.replicate shape.weight shape)

/-- Where a window of operations ends. -/
structure Window where
  position : ℕ
  errors : ℕ
  database : Database

/-- `_run_window` of so many operations.  At some positions there may be no server to take the
operation. -/
def runWindow (servers : ℕ → Option Server) (schedule : List WorkloadShape) :
    ℕ → ℕ → ℕ → Database → Window
  | 0, position, errors, db => ⟨position, errors, db⟩
  | operations + 1, position, errors, db =>
    match (do execute (← servers position) db (← schedule[position % schedule.length]?) position) with
    | none => runWindow servers schedule operations (position + 1) (errors + 1) db
    | some db' => runWindow servers schedule operations (position + 1) errors db'

/-- The inserts of `_restore`: whether one raised, and what is then there. -/
def insertAll (S : DatasetSnapshot) : List CollectionName → Database → Bool × Database
  | [], db => (false, db)
  | name :: names, db =>
    if S.collections name = [] then insertAll S names db
    else
      let inserted := ((db name).getD .created).insertMany (S.collections name)
      let db := Function.update db name (some inserted.2)
      if inserted.1 then (true, db) else insertAll S names db

/-- `_restore`. -/
def restore (S : DatasetSnapshot) (db : Database) : Except BenchmarkError String × Database :=
  let dropped := CollectionName.all.foldl (fun db name => Function.update db name none) db
  let inserted := insertAll S CollectionName.all dropped
  let counts (name : CollectionName) := (inserted.2.collection name).documents.length
  if inserted.1 then (.error .bulkWriteError, inserted.2)
  else if ∃ name ∈ CollectionName.all, counts name ≠ (S.collections name).length then
    (.error (.runtimeError ("dataset restoration counts differ: \x7b" ++
      ", ".intercalate (CollectionName.all.map
        (fun name => "'" ++ name.text ++ "': " ++ toString (counts name))) ++ "\x7d")), inserted.2)
  else (.ok S.fingerprint, inserted.2)

/-- The set-up of a candidate: the indexes that it creates. -/
def createIndexes (indexes : List (CollectionName × String × List (String × Int))) (db : Database) :
    Database :=
  indexes.foldl (fun db x => db.modify x.1 (fun c => c.createIndex x.2.1 x.2.2)) db

namespace DatasetSnapshot

variable (S : DatasetSnapshot)

theorem nodup (name : CollectionName) : ((S.collections name).map (·.id)).Nodup := by
  rw [S.ids]
  exact List.nodup_range'

/-- A collection as it was generated. -/
def restored (name : CollectionName) : Collection :=
  ⟨S.collections name, idIndex, S.nodup name⟩

/-- The pristine state. -/
def pristine : Database := fun name => some (S.restored name)

theorem insertAll_eq {db : Database} {names : List CollectionName} (hnames : names.Nodup)
    (hdb : ∀ name ∈ names, db name = none) :
    insertAll S names db = (false, fun name => if name ∈ names then S.pristine name else db name) := by
  induction names generalizing db with
  | nil => simp [insertAll]
  | cons name names ih =>
    have hnodup : ((Collection.created.documents ++ S.collections name).map (·.id)).Nodup :=
      S.nodup name
    obtain ⟨hraised, hleft⟩ := Collection.insertMany_of_nodup hnodup
    have hinserted : Collection.created.insertMany (S.collections name) =
        (false, S.restored name) := Prod.ext hraised (hleft.trans (Collection.ext rfl rfl))
    obtain ⟨hnew, hnames⟩ := List.nodup_cons.mp hnames
    have hrest : ∀ other ∈ names,
        Function.update db name (some (S.restored name)) other = none := by
      intro other hother
      have hne : other ≠ name := by
        rintro rfl
        exact hnew hother
      rw [Function.update_of_ne hne]
      exact hdb other (List.mem_cons_of_mem name hother)
    rw [insertAll, if_neg (S.nonempty name), hdb name List.mem_cons_self, Option.getD_none,
      hinserted]
    simp only [Bool.false_eq_true, if_false, ih hnames hrest]
    congr 1
    funext other
    by_cases hother : other = name
    · subst hother
      simp [hnew, pristine]
    · simp [hother]

/-- A full restore comes to the pristine state, whatever was there. -/
theorem restore_eq (db : Database) : restore S db = (.ok S.fingerprint, S.pristine) := by
  have hdropped : CollectionName.all.foldl (fun db name => Function.update db name none) db =
      fun _ => none := by
    funext name
    cases name <;> rfl
  have hinserted : insertAll S CollectionName.all (fun _ => none) = (false, S.pristine) := by
    rw [S.insertAll_eq (by decide) (fun _ _ => rfl)]
    simp [CollectionName.mem_all]
  have hcounts : ¬ ∃ name ∈ CollectionName.all,
      (S.pristine.collection name).documents.length ≠ (S.collections name).length := by
    rintro ⟨name, -, hne⟩
    exact hne rfl
  simp only [restore, hdropped, hinserted, Bool.false_eq_true, if_false, if_neg hcounts]

end DatasetSnapshot

end NoSQLOptimizer.Benchmarks
