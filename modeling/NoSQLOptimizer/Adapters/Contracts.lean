import Mathlib.Data.List.Basic

namespace NoSQLOptimizer.Adapters

structure Namespace where
  collection : String
  deriving DecidableEq

/-- A typed index definition; it cannot encode an arbitrary database command. -/
structure IndexSpec where
  name : String
  keys : List (String × Int)
  deriving DecidableEq

structure QuerySettingsIndexHint where
  allowedIndexes : List String
  deriving DecidableEq

/-- The restricted typed interface to a database whose states are `τ`.  A write is refused
(`none`), or it is done. -/
structure DatabaseAdapter (τ : Type) where
  listNamespaces : τ → List Namespace
  listIndexes : τ → Namespace → List IndexSpec
  createIndex : τ → Namespace → IndexSpec → Option τ
  dropIndex : τ → Namespace → String → Option τ

/-- The interface with its query settings.  A hint that the adapter cannot read (`none`) is not one
that is absent (`some none`). -/
structure QuerySettingsAdapter (τ : Type) extends DatabaseAdapter τ where
  getHint : τ → Namespace → String → Option (Option QuerySettingsIndexHint)
  setHint : τ → Namespace → String → Option QuerySettingsIndexHint → Option τ

/-- `_has_exact_index`, over the indexes of a recorded state. -/
def exactlyOnce (x : IndexSpec) (indexes : List IndexSpec) : Bool := indexes.count x == 1

def withoutName (name : String) (indexes : List IndexSpec) : List IndexSpec :=
  indexes.filter (·.name ≠ name)

namespace DatabaseAdapter

variable {τ : Type} (A : DatabaseAdapter τ)

/-- The index is there, once, with its name and its keys. -/
def shows (db : τ) (ns : Namespace) (x : IndexSpec) : Bool :=
  decide (ns ∈ A.listNamespaces db) && exactlyOnce x (A.listIndexes db ns)

theorem shows_iff {db : τ} {ns : Namespace} {x : IndexSpec} : A.shows db ns x = true ↔
    ns ∈ A.listNamespaces db ∧ exactlyOnce x (A.listIndexes db ns) = true := by
  simp [shows]

/-- What the typed interface promises: a created index is listed and no other goes; a drop takes the
one name away and leaves the rest as it stands. -/
structure Lawful : Prop where
  create_shows : A.createIndex db ns x = some db' → A.shows db' ns x
  create_keeps : A.createIndex db ns x = some db' → A.shows db ns' y → A.shows db' ns' y
  drop_listed : ns ∈ A.listNamespaces db → x ∈ A.listIndexes db ns →
    (A.dropIndex db ns x.name).isSome
  drop_namespaces : A.dropIndex db ns name = some db' →
    (ns' ∈ A.listNamespaces db' ↔ ns' ∈ A.listNamespaces db)
  drop_indexes : A.dropIndex db ns name = some db' →
    A.listIndexes db' ns = withoutName name (A.listIndexes db ns)

/-- What the adapter shows of a namespace. -/
def indexState (db : τ) (ns : Namespace) : Bool × List IndexSpec :=
  (decide (ns ∈ A.listNamespaces db), A.listIndexes db ns)

/-- A write changes the one index, in the one namespace, and the other indexes stay in order. -/
structure Local : Prop where
  create_indexes : ns ∈ A.listNamespaces db → A.createIndex db ns x = some db' →
    (∀ y ∈ A.listIndexes db ns, y.name ≠ x.name) →
    withoutName x.name (A.listIndexes db' ns) = A.listIndexes db ns
  create_namespaces : ns ∈ A.listNamespaces db → A.createIndex db ns x = some db' →
    (ns' ∈ A.listNamespaces db' ↔ ns' ∈ A.listNamespaces db)
  create_others : A.createIndex db ns x = some db' → ns' ≠ ns →
    A.listIndexes db' ns' = A.listIndexes db ns'
  drop_listed : ns ∈ A.listNamespaces db → x ∈ A.listIndexes db ns →
    (A.dropIndex db ns x.name).isSome
  drop_indexes : A.dropIndex db ns name = some db' →
    A.listIndexes db' ns = withoutName name (A.listIndexes db ns)
  drop_namespaces : A.dropIndex db ns name = some db' →
    (ns' ∈ A.listNamespaces db' ↔ ns' ∈ A.listNamespaces db)
  drop_others : A.dropIndex db ns name = some db' → ns' ≠ ns →
    A.listIndexes db' ns' = A.listIndexes db ns'

variable {A}

/-- Whoever drops the created index from a database that shows what it showed after the creation
restores what was shown before. -/
theorem Local.restores (hA : A.Local) {before after late last : τ} {ns : Namespace} {x : IndexSpec}
    (hns : ns ∈ A.listNamespaces before) (hnew : ∀ y ∈ A.listIndexes before ns, y.name ≠ x.name)
    (hcreate : A.createIndex before ns x = some after)
    (hsame : A.indexState late = A.indexState after)
    (hdrop : A.dropIndex late ns x.name = some last) : A.indexState last = A.indexState before := by
  have hshown : ∀ ns', (ns' ∈ A.listNamespaces late ↔ ns' ∈ A.listNamespaces after) ∧
      A.listIndexes late ns' = A.listIndexes after ns' := by
    intro ns'
    simpa [indexState] using congrFun hsame ns'
  funext ns'
  have hnamespaces : ns' ∈ A.listNamespaces last ↔ ns' ∈ A.listNamespaces before :=
    (hA.drop_namespaces hdrop).trans ((hshown ns').1.trans (hA.create_namespaces hns hcreate))
  have hindexes : A.listIndexes last ns' = A.listIndexes before ns' := by
    by_cases h : ns' = ns
    · subst h
      rw [hA.drop_indexes hdrop, (hshown ns').2, hA.create_indexes hns hcreate hnew]
    · rw [hA.drop_others hdrop h, (hshown ns').2, hA.create_others hcreate h]
  simp only [indexState, hnamespaces, hindexes]

end DatabaseAdapter

end NoSQLOptimizer.Adapters
