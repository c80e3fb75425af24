import NoSQLOptimizer.Approvals.Flow
import NoSQLOptimizer.Concurrency.Process
import NoSQLOptimizer.ControlPlane.Tables
import NoSQLOptimizer.Ledger.Chain

namespace NoSQLOptimizer.Production.Memory

open Adapters Approvals Concurrency Encoding Ledger
open ControlPlane (IndexState)

/-- A target, and what the process that works on it keeps in memory.  `rollbacks` is a log of this
model: the entries for which a rollback has changed the target, in order. -/
structure State (τ : Type) (sha256 : Json → String) where
  db : τ
  ledger : AppendOnlyLedger sha256 := .empty
  approvals : ApprovalFlow := {}
  now : Int := 0
  rollbacks : List LedgerEntry := []

inductive Error
  | productionExecution : String → Error
  | approvalRequired : String → Error
  | validation
  | typeError
  | adapter
  deriving DecidableEq

/-- The steps of the services.  A rollback's comparison of the target with its entry, and its steps
from there to the change of the target, are labelled by the entry. -/
inductive Label
  | entries
  | approval
  | append
  | listNamespaces : Option LedgerEntry → Label
  | listIndexes : Option LedgerEntry → Namespace → Label
  | ownIndexes : LedgerEntry → String → Namespace → Label
  | createIndex : Namespace → IndexSpec → Label
  | dropIndex : LedgerEntry → Namespace → String → Label
  | hint : Namespace → String → Label
  | ownHint : LedgerEntry → Namespace → String → Label
  | setHint : Namespace → String → QuerySettingsIndexHint → Label
  | restoreHint : LedgerEntry → Namespace → String → Option QuerySettingsIndexHint → Label
  deriving DecidableEq

/-- The entry of a rollback that is on its way to change the target. -/
def Label.owner : Label → Option LedgerEntry
  | .listNamespaces e => e
  | .listIndexes e _ => e
  | .dropIndex e .. => some e
  | .restoreHint e .. => some e
  | _ => none

variable {τ : Type} {sha256 : Json → String}

abbrev Proc (τ : Type) (sha256 : Json → String) (α : Type) :=
  Process Label (State τ sha256) Error α

/-- What an append draws from outside. -/
def State.stamp (s : State τ sha256) : Stamp := ⟨freshId s.ledger.entries, s.now⟩

/-- `AppendOnlyLedger.append`. -/
def append (record : Record) : Proc τ sha256 LedgerEntry :=
  .act .append (fun s => { s with ledger := s.ledger.append s.stamp record })
    (fun s => .ret (s.ledger.appended s.stamp record))

/-- `next(item for item in ledger.entries if item.entry_id == id)`. -/
def findEntry (id : EntryId) : Proc τ sha256 (Option LedgerEntry) :=
  .read .entries (fun s => s.ledger.entries.find? (·.entryId = id))

/-- `ApprovalFlow.require_current_approval`. -/
def requireCurrentApproval (actionId evidenceHash targetId : String) : Proc τ sha256 PUnit :=
  .act .approval
    (fun s => { s with approvals := s.approvals.refresh s.now actionId evidenceHash })
    (fun s => if (s.approvals.requireCurrentApproval s.now actionId evidenceHash targetId).isSome
      then .ret ⟨⟩ else .fail (.approvalRequired actionId))

/-- A write that the adapter may refuse. -/
def write (l : Label) (f : τ → Option τ) : Proc τ sha256 PUnit :=
  .act l (fun s => { s with db := (f s.db).getD s.db })
    (fun s => if (f s.db).isSome then .ret ⟨⟩ else .fail .adapter)

/-- The same by a rollback, logged where it changes the target. -/
def rollBack (e : LedgerEntry) (l : Label) (f : τ → Option τ) : Proc τ sha256 PUnit :=
  .act l
    (fun s => match f s.db with
      | some db => { s with db := db, rollbacks := s.rollbacks ++ [e] }
      | none => s)
    (fun s => if (f s.db).isSome then .ret ⟨⟩ else .fail .adapter)

/-- A reading that the adapter may refuse. -/
def readHint (A : QuerySettingsAdapter τ) (l : Label) (ns : Namespace) (shape : String) :
    Proc τ sha256 (Option QuerySettingsIndexHint) :=
  .act l id (fun s => match A.getHint s.db ns shape with
    | some hint => .ret hint
    | none => .fail .adapter)

/-- `_current_state`: two reads, the second only of a namespace that the first one listed. -/
def currentState (A : DatabaseAdapter τ) (l l' : Label) (database : String) (ns : Namespace) :
    Proc τ sha256 IndexState := do
  let namespaces ← Process.read l (A.listNamespaces ·.db)
  if ns ∈ namespaces then
    let indexes ← Process.read l' (A.listIndexes ·.db ns)
    return ⟨database, ns.collection, true, indexes⟩
  else
    return ⟨database, ns.collection, false, []⟩

/-- What it sees of a database that nobody else changes. -/
def currentStateOf (A : DatabaseAdapter τ) (db : τ) (database : String) (ns : Namespace) :
    IndexState :=
  if ns ∈ A.listNamespaces db then ⟨database, ns.collection, true, A.listIndexes db ns⟩
  else ⟨database, ns.collection, false, []⟩

theorem currentStateOf_exists {A : DatabaseAdapter τ} {db : τ} {database : String} {ns : Namespace} :
    (currentStateOf A db database ns).namespaceExists = true ↔ ns ∈ A.listNamespaces db := by
  unfold currentStateOf
  split <;> simp_all

theorem currentStateOf_listed {A : DatabaseAdapter τ} {db : τ} {ns : Namespace}
    (h : ns ∈ A.listNamespaces db) (database : String) :
    currentStateOf A db database ns = ⟨database, ns.collection, true, A.listIndexes db ns⟩ :=
  if_pos h

theorem currentStateOf_congr {A : DatabaseAdapter τ} {db db' : τ}
    (h : A.indexState db = A.indexState db') (database : String) (ns : Namespace) :
    currentStateOf A db database ns = currentStateOf A db' database ns := by
  have hns : (ns ∈ A.listNamespaces db ↔ ns ∈ A.listNamespaces db') ∧
      A.listIndexes db ns = A.listIndexes db' ns := by
    simpa [DatabaseAdapter.indexState] using congrFun h ns
  simp only [currentStateOf, hns]

theorem run_currentState (A : DatabaseAdapter τ) (l l' : Label) (database : String) (ns : Namespace)
    (s : State τ sha256) :
    (currentState A l l' database ns).run s = (.ok (currentStateOf A s.db database ns), s) := by
  by_cases h : ns ∈ A.listNamespaces s.db <;> simp [currentState, currentStateOf, Process.read, h]

theorem run_requireCurrentApproval {actionId evidenceHash targetId : String} {s t : State τ sha256}
    {a : PUnit} (h : (requireCurrentApproval actionId evidenceHash targetId).run s = (.ok a, t)) :
    ∃ approvals, t = { s with approvals := approvals } := by
  simp only [requireCurrentApproval, Process.run_act] at h
  split at h <;> cases h
  exact ⟨_, rfl⟩

theorem run_write {l : Label} {f : τ → Option τ} {s t : State τ sha256} {a : PUnit}
    (h : (write l f).run s = (.ok a, t)) : ∃ db, f s.db = some db ∧ t = { s with db := db } := by
  simp only [write, Process.run_act] at h
  cases hf : f s.db with
  | none => simp [hf] at h
  | some db =>
    simp only [hf, Option.isSome_some, ↓reduceIte, Option.getD_some, Process.run_ret] at h
    cases h
    exact ⟨db, rfl, rfl⟩

theorem run_rollBack {e : LedgerEntry} {l : Label} {f : τ → Option τ} {s : State τ sha256} {db : τ}
    (h : f s.db = some db) :
    (rollBack e l f).run s = (.ok ⟨⟩, { s with db := db, rollbacks := s.rollbacks ++ [e] }) := by
  simp [rollBack, h]

theorem run_append (record : Record) (s : State τ sha256) :
    (append record).run s = (.ok (s.ledger.appended s.stamp record),
      { s with ledger := s.ledger.append s.stamp record }) := rfl

def keysJson (keys : List (String × Int)) : Json :=
  .list (keys.map (fun k => .list [.str k.1, .int k.2]))

def indexJson (index : IndexSpec) : Json :=
  .object [("name", .str index.name), ("keys", keysJson index.keys)]

def stateJson (state : IndexState) : Json :=
  .object [("database", .str state.database), ("collection", .str state.collection),
    ("namespace_exists", .bool state.namespaceExists),
    ("indexes", .list (state.indexes.map indexJson))]

variable (sha256)

def stateHash (state : Json) : String := sha256 state.canonical

def indexFingerprint (index : IndexSpec) : String := sha256 (indexJson index).canonical

end NoSQLOptimizer.Production.Memory
