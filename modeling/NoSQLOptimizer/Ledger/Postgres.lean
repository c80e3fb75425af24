import Mathlib.Data.List.Chain
import Mathlib.Data.List.Sort
import NoSQLOptimizer.Concurrency.Triple
import NoSQLOptimizer.ControlPlane.Tables
import NoSQLOptimizer.Ledger.Chain

namespace NoSQLOptimizer.Ledger.Postgres

open Concurrency ControlPlane Encoding

/-- The arguments of an append, with the `uuid4()` and the time that it draws. -/
structure Payload where
  entryId : EntryId
  targetId : TargetId
  runId : Option RunId
  candidateId : Option CandidateId
  actionId : String
  eventType : String
  beforeState : Json
  intendedState : Json
  afterState : Json
  forwardAction : Json
  inverseAction : Json
  evidenceHash : String
  actor : String
  createdAt : Int
  deriving DecidableEq

/-- A row of `production_ledger_entries`. -/
structure Row extends Payload where
  sequence : Nat
  previousHash : String
  entryHash : String
  deriving DecidableEq

def uuid : Option Nat → Json
  | none => .null
  | some id => .int id

/-- The hashed document; an id and an instant stand for their texts. -/
def Row.document (r : Row) : Json :=
  .object [("entry_id", .int r.entryId), ("sequence", .int r.sequence),
    ("target_id", .int r.targetId), ("run_id", uuid r.runId), ("candidate_id", uuid r.candidateId),
    ("action_id", .str r.actionId), ("event_type", .str r.eventType),
    ("before_state", r.beforeState), ("intended_state", r.intendedState),
    ("after_state", r.afterState), ("forward_action", r.forwardAction),
    ("inverse_action", r.inverseAction), ("evidence_hash", .str r.evidenceHash),
    ("actor", .str r.actor), ("previous_hash", .str r.previousHash),
    ("created_at", .int r.createdAt)]

/-- Two rows that the primary key or `UNIQUE(target_id, sequence)` keeps apart. -/
def Row.Clashes (r r' : Row) : Prop :=
  r.entryId = r'.entryId ∨ r.targetId = r'.targetId ∧ r.sequence = r'.sequence

instance (r r' : Row) : Decidable (r.Clashes r') := inferInstanceAs (Decidable (_ ∨ _))

/-- `WHERE target_id = :target_id ORDER BY sequence`. -/
def ordered (rows : List Row) (target : TargetId) : List Row :=
  (rows.filter (·.targetId = target)).insertionSort (·.sequence ≤ ·.sequence)

/-- The entry hash that the next row links to. -/
def tip (rows : List Row) : String := (rows.getLast?.map (·.entryHash)).getD genesisHash

/-- A connection's transaction: the row it has locked and the one it has inserted.  `committed` is
the row of a transaction that the caller has not been given yet. -/
structure Connection where
  locked : Option Row := none
  inserted : Option Row := none
  committed : Option Row := none

/-- The table's committed rows, in the order of their commits, and the connections to it.
`returned` is a log of this model: what an append was asked for and the row it gave back. -/
structure Database (ι : Type) where
  rows : List Row := []
  connections : ι → Connection := fun _ => {}
  returned : List (Payload × Row) := []

inductive Statement
  | select : TargetId → Statement
  | lock : Row → Statement
  | insert : Row → Statement
  | commit
  | rollback
  | returned

inductive Error
  | uniqueViolation

section

-- `hashlib.sha256` of the text of a canonical document, and what is read back of a text that was
-- written into a `jsonb` column.
variable (sha256 : Json → String) (jsonb : Json → Json)

def entryHash (r : Row) : String := sha256 r.document.canonical

def verifyFrom : Nat → String → List Row → Bool
  | _, _, [] => true
  | expected, previous, r :: rows =>
    if r.sequence != expected || r.previousHash != previous || r.entryHash != entryHash sha256 r then
      false
    else verifyFrom (expected + 1) r.entryHash rows

def verifyTarget (rows : List Row) (target : TargetId) : Bool :=
  verifyFrom sha256 1 genesisHash (ordered rows target)

/-- `_sql_payload`, and the columns that hold it afterwards. -/
def Payload.stored (p : Payload) : Payload :=
  { p with
    beforeState := jsonb p.beforeState.canonical
    intendedState := jsonb p.intendedState.canonical
    afterState := jsonb p.afterState.canonical
    forwardAction := jsonb p.forwardAction.canonical
    inverseAction := jsonb p.inverseAction.canonical }

/-- The payload after this prior row, its own hash still to be filled in. -/
def draft (prior : Option Row) (p : Payload) : Row where
  toPayload := p
  sequence := match prior with
    | none => 1
    | some r => r.sequence + 1
  previousHash := match prior with
    | none => genesisHash
    | some r => r.entryHash
  entryHash := ""

/-- The row that the insert writes. -/
def rowAfter (prior : Option Row) (p : Payload) : Row :=
  { draft prior p with
    toPayload := p.stored jsonb
    entryHash := entryHash sha256 (draft prior p) }

end

namespace Database

variable {ι : Type} [DecidableEq ι]

def connect (s : Database ι) (i : ι) (connection : Connection) : Database ι :=
  { s with connections := Function.update s.connections i connection }

def lock (i : ι) (r : Row) (s : Database ι) : Database ι :=
  s.connect i { s.connections i with locked := some r }

def insert (i : ι) (r : Row) (s : Database ι) : Except Error (Row × Database ι) :=
  if s.rows.any (r.Clashes ·) then .error .uniqueViolation
  else .ok (r, s.connect i { s.connections i with inserted := some r })

def commit (i : ι) (s : Database ι) : Database ι :=
  let written := (s.connections i).inserted
  { s.connect i { committed := written } with rows := s.rows ++ written.toList }

def rollback (i : ι) (s : Database ι) : Database ι := s.connect i {}

def give (i : ι) (p : Payload) (r : Row) (s : Database ι) : Database ι :=
  { s.connect i {} with returned := s.returned ++ [(p, r)] }

end Database

section

variable {ι : Type} [DecidableEq ι] (sha256 : Json → String) (jsonb : Json → Json)

def lockPrior (i : ι) : Option Row → Process Statement (Database ι) Error PUnit
  | none => .ret ⟨⟩
  | some r => .modify (.lock r) (.lock i r)

def transaction (i : ι) (p : Payload) : Process Statement (Database ι) Error Row := do
  let prior ← .read (.select p.targetId) (fun s => (ordered s.rows p.targetId).getLast?)
  lockPrior i prior
  let row := rowAfter sha256 jsonb prior p
  .atomic (.insert row) (Database.insert i row)

/-- The transaction commits where its block ends, and rolls back where it raises. -/
def append (i : ι) (p : Payload) : Process Statement (Database ι) Error Row := do
  let row ← (transaction sha256 jsonb i p).rescue
    (fun e => do
      Process.modify .rollback (Database.rollback i)
      throw e)
  Process.modify .commit (Database.commit i)
  return row

/-- Any number of sessions append to one table; a session that dies is rolled back. -/
def appends : System Statement (Database ι) Error ι Payload Empty where
  call i p := do
    let row ← append sha256 jsonb i p
    .modify .returned (Database.give i p row)
  crash i s := s.rollback i
  env e _ := e.elim

/-- PostgreSQL makes a statement wait while another transaction holds the row that it locks, or
has inserted one that its own row clashes with. -/
def Grants (i : ι) (s : Database ι) : Statement → Prop
  | .lock r => ∀ j, j ≠ i → (s.connections j).locked ≠ some r
  | .insert r => ∀ j, j ≠ i → ∀ r' ∈ (s.connections j).inserted, ¬ r.Clashes r'
  | _ => True

def readCommitted : (appends (ι := ι) sha256 jsonb).Conduct where
  acts i l s := Grants i s l
  env s t := t = s

end

end NoSQLOptimizer.Ledger.Postgres
