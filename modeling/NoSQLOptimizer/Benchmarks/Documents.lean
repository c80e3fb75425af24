import Mathlib.Data.List.Nodup
import Mathlib.Data.List.Sort
import NoSQLOptimizer.Adapters.MongoDB
import NoSQLOptimizer.Encoding.Json

namespace NoSQLOptimizer.Benchmarks

open Encoding
open Adapters (Indexes)

/-- The fields of a document after its `_id`. -/
abbrev DocumentFields := List (String × Json)

namespace DocumentFields

def get (name : String) : DocumentFields → Option Json
  | [] => none
  | f :: fs => if f.1 = name then some f.2 else get name fs

/-- `$set` of one field: in its place, or else at the end. -/
def set (name : String) (v : Json) : DocumentFields → DocumentFields
  | [] => [(name, v)]
  | f :: fs => if f.1 = name then (name, v) :: fs else f :: set name v fs

/-- `$inc` of one field, which a value that is no number refuses. -/
def inc (name : String) (k : Int) (fields : DocumentFields) : Option DocumentFields :=
  match fields.get name with
  | none => some (fields.set name (.int k))
  | some (.int n) => some (fields.set name (.int (n + k)))
  | some _ => none

@[simp] theorem set_set (name : String) (v w : Json) (fields : DocumentFields) :
    (fields.set name v).set name w = fields.set name w := by
  induction fields with
  | nil => simp [set]
  | cons f fs ih =>
    simp only [set]
    split
    · simp [set]
    · next hne => simp [set, hne, ih]

theorem set_get {name : String} {v : Json} {fields : DocumentFields}
    (h : fields.get name = some v) : fields.set name v = fields := by
  induction fields with
  | nil => cases h
  | cons f fs ih =>
    simp only [get] at h
    split at h
    · next hname =>
      subst hname
      cases h
      simp [set]
    · next hname => rw [set, if_neg hname, ih h]

theorem get_set_ne {name other : String} (hne : name ≠ other) (v : Json)
    (fields : DocumentFields) : (fields.set name v).get other = fields.get other := by
  induction fields with
  | nil => simp [set, get, hne]
  | cons f fs ih =>
    rw [set]
    split
    · next heq => simp [get, heq, hne]
    · simp only [get, ih]

theorem inc_eq_some {name : String} {k : Int} {fields fields' : DocumentFields}
    (h : fields.inc name k = some fields') : ∃ v, fields' = fields.set name v := by
  unfold inc at h
  split at h
  · exact ⟨_, (Option.some.inj h).symm⟩
  · exact ⟨_, (Option.some.inj h).symm⟩
  · cases h

end DocumentFields

structure Document where
  id : ℕ
  fields : DocumentFields
  deriving DecidableEq

namespace Document

def set (d : Document) (name : String) (v : Json) : Document := ⟨d.id, d.fields.set name v⟩

/-- The document, with one field struck out where the test says so. -/
def masked (name : String) (test : Document → Bool) (d : Document) : Document :=
  if test d then d.set name .null else d

/-- The test does not read the field. -/
def Blind (name : String) (test : Document → Bool) : Prop :=
  ∀ d v, test (d.set name v) = test d

variable {name : String} {test : Document → Bool} {d p : Document}

theorem masked_id (d : Document) : (d.masked name test).id = d.id := by
  unfold masked
  split <;> rfl

theorem test_masked (hblind : Blind name test) (d : Document) : test (d.masked name test) = test d := by
  unfold masked
  split
  · exact hblind d .null
  · rfl

/-- A write to the field does not show under the mask. -/
theorem masked_set (hblind : Blind name test) (htest : test d = true) (v : Json) :
    (d.set name v).masked name test = d.masked name test := by
  rw [masked, if_pos ((hblind d v).trans htest), masked, if_pos htest]
  simp [set]

/-- The documents are one under the mask: with its field put back, the one is the other. -/
theorem eq_of_masked (hblind : Blind name test) (h : d.masked name test = p.masked name test) :
    d.id = p.id ∧ test d = test p ∧ (test p = false → d = p) ∧
      (test p = true → ∀ v, p.fields.get name = some v → d.set name v = p) := by
  have hid : d.id = p.id := by rw [← masked_id d, h, masked_id]
  have htest : test d = test p := by rw [← test_masked hblind d, h, test_masked hblind]
  refine ⟨hid, htest, fun hp => ?_, fun hp v hv => ?_⟩
  · rwa [masked, htest, hp, masked, hp] at h
  · rw [masked, htest, hp, masked, hp, if_pos rfl, if_pos rfl] at h
    have hfields : d.fields.set name .null = p.fields.set name .null := congrArg Document.fields h
    calc
      d.set name v = ⟨p.id, (d.fields.set name .null).set name v⟩ := by
        rw [DocumentFields.set_set, ← hid]
        rfl
      _ = ⟨p.id, p.fields.set name v⟩ := by rw [hfields, DocumentFields.set_set]
      _ = p := by rw [DocumentFields.set_get hv]

end Document

/-- A collection: its documents in their natural order, each under its `_id`, and its indexes. -/
@[ext] structure Collection where
  documents : List Document
  indexes : Indexes
  ids : (documents.map (·.id)).Nodup

/-- The index that every collection has. -/
def idIndex : Indexes := (∅ : Indexes).insert "_id_" [("_id", 1)]

/-- Which of the documents that match an operation on one document takes: the first that the plan of
the query comes to. -/
structure Server where
  first : Collection → (Document → Bool) → Option Document
  first_mem : ∀ {c p d}, first c p = some d → d ∈ c.documents ∧ p d = true
  first_none : ∀ {c p}, first c p = none → ∀ d ∈ c.documents, p d = false

namespace Collection

/-- A collection as the first write makes it. -/
def created : Collection := ⟨[], idIndex, List.nodup_nil⟩

/-- Changes the fields of the document of this `_id`. -/
def modify (c : Collection) (id : ℕ) (f : DocumentFields → DocumentFields) : Collection where
  documents := c.documents.map (fun d => if d.id = id then ⟨d.id, f d.fields⟩ else d)
  indexes := c.indexes
  ids := by
    rw [List.map_map]
    convert c.ids using 2
    funext d
    simp only [Function.comp_apply]
    split <;> rfl

/-- `update_one`. -/
def updateOne (server : Server) (c : Collection) (filter : Document → Bool)
    (change : DocumentFields → Option DocumentFields) : Option Collection :=
  match server.first c filter with
  | none => some c
  | some d => (change d.fields).map (fun fields => c.modify d.id (fun _ => fields))

/-- `insert_one`. -/
def insertOne (c : Collection) (d : Document) : Option Collection :=
  if h : d.id ∈ c.documents.map (·.id) then none
  else some ⟨c.documents ++ [d], c.indexes, by
    rw [List.map_append, List.map_singleton, ← List.concat_eq_append]
    exact c.ids.concat h⟩

/-- `insert_many`, which goes on past a duplicate: whether there was one, and what is then there. -/
def insertMany (c : Collection) : List Document → Bool × Collection
  | [] => (false, c)
  | d :: ds =>
    match c.insertOne d with
    | none => (true, (c.insertMany ds).2)
    | some c' => c'.insertMany ds

/-- `delete_many`: how many went, and what is left. -/
def deleteMany (c : Collection) (filter : Document → Bool) : ℕ × Collection :=
  ((c.documents.filter filter).length,
    ⟨c.documents.filter (fun d => !filter d), c.indexes, c.ids.sublist (List.filter_sublist.map _)⟩)

/-- `find_one` by `_id`. -/
def findId (c : Collection) (id : ℕ) : Option Document := c.documents.find? (·.id = id)

/-- `find`, sorted by `_id`. -/
def find (c : Collection) (filter : Document → Bool) : List Document :=
  (c.documents.filter filter).insertionSort (·.id ≤ ·.id)

def createIndex (c : Collection) (name : String) (keys : List (String × Int)) : Collection :=
  { c with indexes := c.indexes.insert name keys }

def dropIndex (c : Collection) (name : String) : Collection :=
  { c with indexes := Adapters.MongoDatabase.without c.indexes name }

variable {server : Server} {c c' : Collection}

theorem eq_of_id {d d' : Document} (hd : d ∈ c.documents) (hd' : d' ∈ c.documents)
    (hid : d.id = d'.id) : d = d' := List.inj_on_of_nodup_map c.ids hd hd' hid

/-- An update takes one document that matches, or there is none. -/
theorem updateOne_cases {filter : Document → Bool}
    {change : DocumentFields → Option DocumentFields}
    (h : c.updateOne server filter change = some c') :
    c' = c ∨ ∃ d ∈ c.documents, filter d = true ∧
      ∃ fields, change d.fields = some fields ∧ c' = c.modify d.id (fun _ => fields) := by
  unfold updateOne at h
  split at h
  · exact .inl (Option.some.inj h).symm
  · next d hfirst =>
    obtain ⟨hd, hfilter⟩ := server.first_mem hfirst
    obtain ⟨fields, hchange, hc'⟩ := Option.map_eq_some_iff.mp h
    exact .inr ⟨d, hd, hfilter, fields, hchange, hc'.symm⟩

/-- An update by `_id` leaves the server no choice. -/
theorem updateOne_id (id : ℕ) (f : DocumentFields → DocumentFields) :
    c.updateOne server (·.id = id) (fun fields => some (f fields)) = some (c.modify id f) := by
  unfold updateOne
  split
  · next hnone =>
    congr 1
    apply Collection.ext
    · symm
      apply (List.map_congr_left ?_).trans (List.map_id _)
      intro d hd
      have hne := server.first_none hnone d hd
      rw [if_neg (by simpa using hne), id_eq]
    · rfl
  · next d hfirst =>
    obtain ⟨hd, hid⟩ := server.first_mem hfirst
    have hid : d.id = id := by simpa using hid
    subst hid
    rw [Option.map_some]
    congr 1
    apply Collection.ext
    · apply List.map_congr_left
      intro d' hd'
      split
      · next heq => rw [eq_of_id hd' hd heq]
      · rfl
    · rfl

theorem insertOne_eq_some {d : Document} (h : c.insertOne d = some c') :
    c'.documents = c.documents ++ [d] ∧ c'.indexes = c.indexes := by
  unfold insertOne at h
  split at h
  · cases h
  · cases h
    exact ⟨rfl, rfl⟩

theorem insertOne_of_fresh {d : Document} (h : d.id ∉ c.documents.map (·.id)) :
    ∃ c', c.insertOne d = some c' ∧ c'.documents = c.documents ++ [d] ∧ c'.indexes = c.indexes := by
  rw [insertOne, dif_neg h]
  exact ⟨_, rfl, rfl, rfl⟩

theorem insertMany_of_nodup {ds : List Document}
    (h : ((c.documents ++ ds).map (·.id)).Nodup) :
    (c.insertMany ds).1 = false ∧ (c.insertMany ds).2 = ⟨c.documents ++ ds, c.indexes, h⟩ := by
  induction ds generalizing c with
  | nil => exact ⟨rfl, Collection.ext (List.append_nil _).symm rfl⟩
  | cons d ds ih =>
    have hfresh : d.id ∉ c.documents.map (·.id) := by
      rw [List.map_append, List.nodup_append] at h
      exact fun hmem => h.2.2 _ hmem _ (List.mem_map_of_mem List.mem_cons_self) rfl
    obtain ⟨c', hc', hdocuments, hindexes⟩ := insertOne_of_fresh hfresh
    have happend : c'.documents ++ ds = c.documents ++ d :: ds := by
      rw [hdocuments, List.append_assoc, List.singleton_append]
    obtain ⟨hraised, hleft⟩ := ih (c := c') (by rw [happend]; exact h)
    simp only [insertMany, hc']
    exact ⟨hraised, hleft.trans (Collection.ext happend hindexes)⟩

theorem find_sorted {filter : Document → Bool}
    (h : c.documents.Pairwise (fun a b => a.id ≤ b.id)) :
    c.find filter = c.documents.filter filter :=
  (h.filter filter).insertionSort_eq

end Collection

end NoSQLOptimizer.Benchmarks
