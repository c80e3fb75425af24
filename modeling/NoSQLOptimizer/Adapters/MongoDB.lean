import Mathlib.Data.List.AList
import NoSQLOptimizer.Adapters.Contracts

namespace NoSQLOptimizer.Adapters

/-- The indexes of a collection, by name. -/
abbrev Indexes := AList (fun _ : String => List (String × Int))

/-- The metadata of a database, by collection. -/
abbrev MongoDatabase := AList (fun _ : Namespace => Indexes)

namespace MongoDatabase

def indexes (db : MongoDatabase) (ns : Namespace) : Indexes := (db.lookup ns).getD ∅

def specs (c : Indexes) : List IndexSpec := c.entries.map (fun e => ⟨e.1, e.2⟩)

/-- `createIndexes`: a name in use is refused unless it is this very index, and so are keys that
another name has. -/
def create (db : MongoDatabase) (ns : Namespace) (x : IndexSpec) : Option MongoDatabase :=
  match (db.indexes ns).lookup x.name with
  | some keys => if keys = x.keys then some db else none
  | none =>
    if x.keys ∈ (specs (db.indexes ns)).map (·.keys) then none
    else some (db.insert ns ((db.indexes ns).insert x.name x.keys))

def without (c : Indexes) (name : String) : Indexes :=
  ⟨c.entries.filter (·.1 ≠ name), c.nodupKeys.sublist (List.filter_sublist)⟩

def drop (db : MongoDatabase) (ns : Namespace) (name : String) : Option MongoDatabase :=
  match db.lookup ns with
  | none => none
  | some c => if name ∈ c then some (db.insert ns (without c name)) else none

end MongoDatabase

open MongoDatabase

def mongodb : DatabaseAdapter MongoDatabase where
  listNamespaces db := db.keys
  listIndexes db ns := specs (db.indexes ns)
  createIndex := create
  dropIndex := drop

/-- The query settings of a server, by query shape. -/
abbrev QuerySettings := AList (fun _ : String => Namespace × QuerySettingsIndexHint)

structure MongoServer where
  db : MongoDatabase
  settings : QuerySettings := ∅

/-- A setting of the shape for another namespace is not one exact hint. -/
def mongoServer : QuerySettingsAdapter MongoServer where
  listNamespaces s := mongodb.listNamespaces s.db
  listIndexes s := mongodb.listIndexes s.db
  createIndex s ns x := (mongodb.createIndex s.db ns x).map (fun db => { s with db := db })
  dropIndex s ns name := (mongodb.dropIndex s.db ns name).map (fun db => { s with db := db })
  getHint s ns shape :=
    match s.settings.lookup shape with
    | none => some none
    | some (ns', hint) => if ns' = ns ∧ hint.allowedIndexes ≠ [] then some (some hint) else none
  setHint s ns shape
    | none => some { s with settings := s.settings.erase shape }
    | some hint => some { s with settings := s.settings.insert shape (ns, hint) }

theorem mem_specs {c : Indexes} {x : IndexSpec} : x ∈ specs c ↔ c.lookup x.name = some x.keys := by
  rw [specs, List.mem_map, ← Option.mem_def, AList.mem_lookup_iff]
  constructor
  · rintro ⟨e, he, rfl⟩
    exact he
  · exact fun h => ⟨_, h, rfl⟩

theorem specs_nodup (c : Indexes) : (specs c).Nodup := by
  refine List.Nodup.map ?_ (List.NodupKeys.nodup c.nodupKeys)
  rintro ⟨_, _⟩ ⟨_, _⟩ h
  cases h
  rfl

theorem mongodb_shows {db : MongoDatabase} {ns : Namespace} {x : IndexSpec} :
    mongodb.shows db ns x = true ↔ ∃ c, db.lookup ns = some c ∧ c.lookup x.name = some x.keys := by
  rw [DatabaseAdapter.shows_iff, exactlyOnce, beq_iff_eq]
  change ns ∈ db ∧ (specs (db.indexes ns)).count x = 1 ↔ _
  rw [MongoDatabase.indexes]
  constructor
  · rintro ⟨hns, hcount⟩
    obtain ⟨c, hc⟩ := Option.isSome_iff_exists.mp (AList.lookup_isSome.mpr hns)
    refine ⟨c, hc, mem_specs.mp (List.count_pos_iff.mp ?_)⟩
    rw [hc, Option.getD_some] at hcount
    omega
  · rintro ⟨c, hc, hx⟩
    refine ⟨AList.lookup_isSome.mp (by rw [hc]; rfl), ?_⟩
    rw [hc, Option.getD_some]
    exact List.count_eq_one_of_mem (specs_nodup c) (mem_specs.mpr hx)

theorem create_cases {db db' : MongoDatabase} {ns : Namespace} {x : IndexSpec}
    (h : create db ns x = some db') :
    ((db.indexes ns).lookup x.name = some x.keys ∧ db' = db) ∨
      ((db.indexes ns).lookup x.name = none ∧
        db' = db.insert ns ((db.indexes ns).insert x.name x.keys)) := by
  unfold create at h
  split at h
  · next keys hk =>
    split at h
    · next he =>
      cases h
      exact .inl ⟨he ▸ hk, rfl⟩
    · cases h
  · next hk =>
    split at h
    · cases h
    · cases h
      exact .inr ⟨hk, rfl⟩

theorem mongodb_lawful : mongodb.Lawful where
  create_shows {db ns x db'} h := by
    rw [mongodb_shows]
    rcases create_cases h with ⟨hk, rfl⟩ | ⟨-, rfl⟩
    · cases hc : db'.lookup ns with
      | none => simp [MongoDatabase.indexes, hc] at hk
      | some c => exact ⟨c, rfl, by simpa [MongoDatabase.indexes, hc] using hk⟩
    · exact ⟨_, AList.lookup_insert _, AList.lookup_insert _⟩
  create_keeps {db ns x db' ns' y} h hy := by
    rw [mongodb_shows] at hy ⊢
    obtain ⟨c, hc, hyc⟩ := hy
    rcases create_cases h with ⟨-, rfl⟩ | ⟨hk, rfl⟩
    · exact ⟨c, hc, hyc⟩
    · by_cases hns : ns' = ns
      · subst hns
        have hname : y.name ≠ x.name := by
          intro hname
          rw [MongoDatabase.indexes, hc, Option.getD_some, ← hname, hyc] at hk
          cases hk
        refine ⟨_, AList.lookup_insert _, ?_⟩
        rw [AList.lookup_insert_ne hname]
        simpa [MongoDatabase.indexes, hc] using hyc
      · exact ⟨c, by rw [AList.lookup_insert_ne hns]; exact hc, hyc⟩
  drop_listed {db ns x} _ hx := by
    have hlookup := mem_specs.mp hx
    cases hc : db.lookup ns with
    | none => simp [MongoDatabase.indexes, hc] at hlookup
    | some c =>
      have hmem : x.name ∈ c :=
        AList.lookup_isSome.mp (by simp [by simpa [MongoDatabase.indexes, hc] using hlookup])
      simp [mongodb, drop, hc, hmem]
  drop_namespaces {db ns name db' ns'} h := by
    simp only [mongodb, drop] at h ⊢
    split at h
    · cases h
    · next c hc =>
      split at h
      · cases h
        change ns' ∈ AList.insert ns _ db ↔ ns' ∈ db
        rw [AList.mem_insert]
        constructor
        · rintro (rfl | h)
          · exact AList.lookup_isSome.mp (by simp [hc])
          · exact h
        · exact .inr
      · cases h
  drop_indexes {db ns name db'} h := by
    simp only [mongodb, drop] at h ⊢
    split at h
    · cases h
    · next c hc =>
      split at h
      · cases h
        simp only [MongoDatabase.indexes, AList.lookup_insert, hc, Option.getD_some]
        simp only [specs, without, withoutName, List.filter_map]
        rfl
      · cases h

theorem indexes_insert (db : MongoDatabase) (ns : Namespace) (c : Indexes) :
    MongoDatabase.indexes (db.insert ns c) ns = c := by
  simp [MongoDatabase.indexes]

theorem indexes_insert_ne (db : MongoDatabase) {ns ns' : Namespace} (c : Indexes) (h : ns' ≠ ns) :
    MongoDatabase.indexes (db.insert ns c) ns' = db.indexes ns' := by
  simp [MongoDatabase.indexes, AList.lookup_insert_ne h]

theorem drop_cases {db db' : MongoDatabase} {ns : Namespace} {name : String}
    (h : drop db ns name = some db') :
    ∃ c, db.lookup ns = some c ∧ db' = db.insert ns (without c name) := by
  unfold drop at h
  split at h
  · cases h
  · next c hc =>
    split at h
    · cases h
      exact ⟨c, hc, rfl⟩
    · cases h

theorem mongodb_local : mongodb.Local where
  create_indexes {db ns x db'} _ h hnew := by
    rcases create_cases h with ⟨hk, -⟩ | ⟨hk, rfl⟩
    · exact absurd rfl (hnew x (mem_specs.mpr hk))
    · have hmem : x.name ∉ db.indexes ns := AList.lookup_eq_none.mp hk
      change withoutName x.name (specs (MongoDatabase.indexes (db.insert ns _) ns)) = _
      rw [indexes_insert, specs, AList.entries_insert_of_notMem hmem, List.map_cons, withoutName,
        List.filter_cons_of_neg (by simp)]
      exact List.filter_eq_self.mpr (fun y hy => by simpa using hnew y hy)
  create_namespaces {db ns x db' ns'} hns h := by
    rcases create_cases h with ⟨-, rfl⟩ | ⟨-, rfl⟩
    · rfl
    · change ns' ∈ AList.insert ns _ db ↔ ns' ∈ db
      rw [AList.mem_insert]
      exact ⟨fun h => h.elim (fun h => h ▸ hns) id, .inr⟩
  create_others {db ns x db' ns'} h hne := by
    rcases create_cases h with ⟨-, rfl⟩ | ⟨-, rfl⟩
    · rfl
    · exact congrArg specs (indexes_insert_ne db _ hne)
  drop_listed := mongodb_lawful.drop_listed
  drop_indexes := mongodb_lawful.drop_indexes
  drop_namespaces := mongodb_lawful.drop_namespaces
  drop_others {db ns name db' ns'} h hne := by
    obtain ⟨c, -, rfl⟩ := drop_cases h
    exact congrArg specs (indexes_insert_ne db _ hne)

end NoSQLOptimizer.Adapters
