import NoSQLOptimizer.Benchmarks.MongodbExecutor

namespace NoSQLOptimizer.Benchmarks

open Encoding

/-- The field that the workload writes. -/
def mutatedField : CollectionName → String
  | .orders => "status"
  | _ => "available"

/-- The documents that it writes the field of. -/
def mutated : CollectionName → Document → Bool
  | .orders => fun d => d.id ∈ mutatedOrderIds
  | .inventory => fun d => (d.fields.get "product_id").any mutatedProduct
  | _ => fun _ => false

/-- The documents that it inserts. -/
def synthetic : CollectionName → Document → Bool
  | .events => fun d => eventInsertBase ≤ d.id
  | _ => fun _ => false

theorem mutated_blind (name : CollectionName) : Document.Blind (mutatedField name) (mutated name) := by
  intro d v
  cases name with
  | inventory =>
    simp only [mutated, mutatedField, Document.set]
    rw [DocumentFields.get_set_ne (by decide)]
  | _ => rfl

theorem mutated_order {position : ℕ} {d : Document}
    (h : d.id = position % 10000 + 1) : mutated .orders d = true := by
  simp only [mutated, mutatedOrderIds, List.mem_range'_1, decide_eq_true_eq]
  omega

theorem mutated_inventory {position : ℕ} {d : Document}
    (h : d.fields.get "product_id" = some (.int (position % 500 + 1 : ℕ))) :
    mutated .inventory d = true := by
  simp only [mutated, h, Option.any_some, mutatedProduct, List.any_eq_true,
    mutatedInventoryProductIds, List.mem_range'_1, decide_eq_true_eq]
  exact ⟨_, by omega, rfl⟩

theorem filter_synthetic {name : CollectionName} (hname : name ≠ .events) (ds : List Document) :
    ds.filter (fun d => !synthetic name d) = ds := by
  apply List.filter_eq_self.mpr
  intro d _
  cases name <;> first | rfl | exact absurd rfl hname

variable {S : DatasetSnapshot} {name : CollectionName} {c : Collection} {db db' : Database}

/-- The collection differs from the generated one in what the workload and the optimizer write, and
in nothing else. -/
structure Within (S : DatasetSnapshot) (name : CollectionName) (c : Collection) : Prop where
  documents : (c.documents.filter (fun d => !synthetic name d)).map
      (Document.masked (mutatedField name) (mutated name)) =
    (S.collections name).map (Document.masked (mutatedField name) (mutated name))
  indexes : c.indexes.entries.filter (fun e => !optimizerOwned e.1) = idIndex.entries

/-- Every collection is there, within the footprint. -/
def Drifted (S : DatasetSnapshot) (db : Database) : Prop :=
  ∀ name, ∃ c, db name = some c ∧ Within S name c

namespace Within

/-- A write to the field of one of these documents. -/
theorem modify {d : Document} (h : Within S name c) (hname : name ≠ .events) (hd : d ∈ c.documents)
    (hmutated : mutated name d = true) (v : Json) :
    Within S name (c.modify d.id (fun _ => d.fields.set (mutatedField name) v)) := by
  refine ⟨?_, h.indexes⟩
  have hdocuments := h.documents
  rw [filter_synthetic hname] at hdocuments ⊢
  rw [← hdocuments, Collection.modify, List.map_map]
  apply List.map_congr_left
  intro d' hd'
  simp only [Function.comp_apply]
  split
  · next hid =>
    obtain rfl := Collection.eq_of_id hd' hd hid
    exact Document.masked_set (mutated_blind name) hmutated v
  · rfl

/-- The insert of a synthetic document. -/
theorem insert {c' : Collection} {d : Document} (h : Within S name c)
    (hsynthetic : synthetic name d = true) (hinsert : c.insertOne d = some c') :
    Within S name c' := by
  obtain ⟨hdocuments, hindexes⟩ := Collection.insertOne_eq_some hinsert
  refine ⟨?_, hindexes ▸ h.indexes⟩
  rw [hdocuments, List.filter_append, List.filter_singleton, hsynthetic]
  simpa using h.documents

theorem filter_kerase (index : String) (howned : optimizerOwned index = true)
    (entries : List (Σ _ : String, List (String × Int))) :
    (entries.kerase index).filter (fun e => !optimizerOwned e.1) =
      entries.filter (fun e => !optimizerOwned e.1) := by
  induction entries with
  | nil => rfl
  | cons e entries ih =>
    by_cases heq : index = e.1
    · rw [List.kerase_cons_eq heq, List.filter_cons_of_neg (by simpa [← heq] using howned)]
    · rw [List.kerase_cons_ne heq, List.filter_cons, List.filter_cons, ih]

theorem createIndex {index : String} (h : Within S name c) (howned : optimizerOwned index = true)
    (keys : List (String × Int)) : Within S name (c.createIndex index keys) := by
  refine ⟨h.documents, ?_⟩
  rw [Collection.createIndex, AList.entries_insert,
    List.filter_cons_of_neg (by simpa using howned), filter_kerase index howned, h.indexes]

end Within

theorem idIndex_kept :
    idIndex.entries.filter (fun e => !optimizerOwned e.1) = idIndex.entries := by
  decide

theorem DatasetSnapshot.not_synthetic (S : DatasetSnapshot)
    (hevents : (S.collections .events).length < 10 ^ 7) {d : Document}
    (hd : d ∈ S.collections name) : synthetic name d = false := by
  cases name with
  | events =>
    have hid : d.id ∈ (S.collections .events).map (·.id) := List.mem_map_of_mem hd
    rw [S.ids, List.mem_range'_1] at hid
    have hlt : ¬ eventInsertBase ≤ d.id := by
      unfold eventInsertBase
      omega
    simpa [synthetic] using hlt
  | _ => rfl

namespace Drifted

theorem pristine (S : DatasetSnapshot) (hevents : (S.collections .events).length < 10 ^ 7) :
    Drifted S S.pristine := by
  refine fun name => ⟨S.restored name, rfl, ?_, idIndex_kept⟩
  rw [List.filter_eq_self.mpr]
  · rfl
  · intro d hd
    rw [S.not_synthetic hevents hd]
    rfl

theorem update (h : Drifted S db) {c' : Collection} (hwithin : Within S name c') :
    Drifted S (Function.update db name (some c')) := by
  intro other
  by_cases heq : other = name
  · subst heq
    exact ⟨c', Function.update_self .., hwithin⟩
  · rw [Function.update_of_ne heq]
    exact h other

theorem createIndexes (h : Drifted S db)
    {indexes : List (CollectionName × String × List (String × Int))}
    (howned : ∀ x ∈ indexes, optimizerOwned x.2.1 = true) :
    Drifted S (createIndexes indexes db) := by
  induction indexes generalizing db with
  | nil => exact h
  | cons x indexes ih =>
    refine ih ?_ (fun y hy => howned y (List.mem_cons_of_mem x hy))
    obtain ⟨c, hc, hwithin⟩ := h x.1
    simp only [Database.modify, hc, Option.map_some]
    exact h.update (hwithin.createIndex (howned x List.mem_cons_self) _)

/-- An update that may take any document it matches, of those that the workload writes. -/
theorem updateOne {server : Server} {filter : Document → Bool}
    {change : DocumentFields → Option DocumentFields} (h : Drifted S db) (hname : name ≠ .events)
    (hfilter : ∀ d, filter d = true → mutated name d = true)
    (hchange : ∀ fields fields', change fields = some fields' →
      ∃ v, fields' = fields.set (mutatedField name) v)
    (hupdate : db.updateOne server name filter change = some db') : Drifted S db' := by
  obtain ⟨c, hc, hwithin⟩ := h name
  simp only [Database.updateOne, hc] at hupdate
  obtain ⟨c', hc', rfl⟩ := Option.map_eq_some_iff.mp hupdate
  apply h.update
  rcases Collection.updateOne_cases hc' with rfl | ⟨d, hd, hmatches, fields, hfields, rfl⟩
  · exact hwithin
  · obtain ⟨v, rfl⟩ := hchange _ _ hfields
    exact hwithin.modify hname hd (hfilter d hmatches) v

/-- An operation of the workload writes within the footprint. -/
theorem execute {server : Server} {shape : WorkloadShape} {position : ℕ} (h : Drifted S db)
    (hexecute : execute server db shape position = some db') : Drifted S db' := by
  unfold Benchmarks.execute at hexecute
  simp only at hexecute
  split_ifs at hexecute
  · cases hexecute
    exact h
  · refine h.updateOne (by decide) (fun d hd => mutated_order (by simpa using hd)) ?_ hexecute
    intro fields fields' hfields
    exact ⟨_, (Option.some.inj hfields).symm⟩
  · refine h.updateOne (by decide) (fun d hd => mutated_inventory (by simpa using hd)) ?_ hexecute
    intro fields fields' hfields
    exact DocumentFields.inc_eq_some hfields
  · obtain ⟨c, hc, hwithin⟩ := h .events
    rw [Database.insertOne, hc, Option.getD_some] at hexecute
    obtain ⟨c', hc', rfl⟩ := Option.map_eq_some_iff.mp hexecute
    refine h.update (hwithin.insert ?_ hc')
    simp [synthetic, eventInsertBase]
  · cases hexecute
    exact h

theorem runWindow {servers : ℕ → Option Server} {schedule : List WorkloadShape}
    {operations position errors : ℕ} (h : Drifted S db) :
    Drifted S (runWindow servers schedule operations position errors db).database := by
  induction operations generalizing position errors db with
  | zero => exact h
  | succ operations ih =>
    rw [Benchmarks.runWindow]
    split
    · exact ih h
    · next hattempt =>
      obtain ⟨server, -, hattempt⟩ := Option.bind_eq_some_iff.mp hattempt
      obtain ⟨shape, -, hexecute⟩ := Option.bind_eq_some_iff.mp hattempt
      exact ih (h.execute hexecute)

end Drifted

end NoSQLOptimizer.Benchmarks
