import Mathlib.Data.List.Induction
import NoSQLOptimizer.ControlPlane.Rows
import NoSQLOptimizer.Encoding.Json

namespace NoSQLOptimizer.Ledger

open ControlPlane Encoding

/-- A uuid, as the number it is. -/
abbrev EntryId := Nat

/-- What `_freeze_mapping` makes of JSON-shaped state: nothing of its order is left. -/
abbrev Frozen := {j : Json // j.Canonical}

def freezeMapping (value : Json) : Frozen := ⟨value.canonical, value.canonical_canonical⟩

@[simp] theorem canonical_frozen (value : Frozen) : value.1.canonical = value.1 := value.2.eq

def genesisHash : String := "0000000000000000000000000000000000000000000000000000000000000000"

structure LedgerEntry where
  entryId : EntryId
  createdAt : Int
  beforeState : Frozen
  intendedState : Frozen
  afterState : Frozen
  forwardAction : Frozen
  inverseAction : Frozen
  evidenceHash : String
  actor : String
  previousLedgerHash : String
  currentLedgerHash : String
  deriving DecidableEq

/-- The arguments of an append. -/
structure Record where
  beforeState : Json
  intendedState : Json
  afterState : Json
  forwardAction : Json
  inverseAction : Json
  evidenceHash : String
  actor : String

/-- What an append draws from outside: `uuid4()` and the time. -/
structure Stamp where
  entryId : EntryId
  createdAt : Int

namespace LedgerEntry

/-- The hashed document; an id and an instant stand for their texts. -/
def payload (e : LedgerEntry) : Json :=
  .object [("entry_id", .int e.entryId), ("created_at", .int e.createdAt),
    ("before_state", e.beforeState), ("intended_state", e.intendedState),
    ("after_state", e.afterState), ("forward_action", e.forwardAction),
    ("inverse_action", e.inverseAction), ("evidence_hash", .str e.evidenceHash),
    ("actor", .str e.actor), ("previous_ledger_hash", .str e.previousLedgerHash)]

theorem ext_payload {e f : LedgerEntry} (h : e.payload.canonical = f.payload.canonical)
    (hc : e.currentLedgerHash = f.currentLedgerHash) : e = f := by
  have hget : ∀ name, (e.payload.get name).canonical = (f.payload.get name).canonical := by
    intro name
    rw [← Json.get_canonical, ← Json.get_canonical, h]
  have hid : e.entryId = f.entryId := by
    simpa [payload, Int.ofNat_inj] using hget "entry_id"
  have htime : e.createdAt = f.createdAt := by simpa [payload] using hget "created_at"
  have hbefore : e.beforeState = f.beforeState := by
    simpa [payload, Subtype.ext_iff] using hget "before_state"
  have hintended : e.intendedState = f.intendedState := by
    simpa [payload, Subtype.ext_iff] using hget "intended_state"
  have hafter : e.afterState = f.afterState := by
    simpa [payload, Subtype.ext_iff] using hget "after_state"
  have hforward : e.forwardAction = f.forwardAction := by
    simpa [payload, Subtype.ext_iff] using hget "forward_action"
  have hinverse : e.inverseAction = f.inverseAction := by
    simpa [payload, Subtype.ext_iff] using hget "inverse_action"
  have hevidence : e.evidenceHash = f.evidenceHash := by simpa [payload] using hget "evidence_hash"
  have hactor : e.actor = f.actor := by simpa [payload] using hget "actor"
  have hprevious : e.previousLedgerHash = f.previousLedgerHash := by
    simpa [payload] using hget "previous_ledger_hash"
  cases e
  cases f
  simp_all only

end LedgerEntry

-- `hashlib.sha256`, of the text of a canonical document.
variable (sha256 : Json → String)

def hash (e : LedgerEntry) : String := sha256 e.payload.canonical

/-- The hash that the next entry links to. -/
def tip (entries : List LedgerEntry) : String :=
  match entries.getLast? with
  | some e => e.currentLedgerHash
  | none => genesisHash

def verifyFrom (previous : String) : List LedgerEntry → Bool
  | [] => true
  | e :: es =>
    if e.previousLedgerHash != previous || e.currentLedgerHash != hash sha256 e then false
    else verifyFrom e.currentLedgerHash es

def verify (entries : List LedgerEntry) : Bool := verifyFrom sha256 genesisHash entries

@[simp] theorem tip_nil : tip [] = genesisHash := rfl

@[simp] theorem tip_concat (es : List LedgerEntry) (e : LedgerEntry) :
    tip (es ++ [e]) = e.currentLedgerHash := by
  simp [tip]

theorem verify_concat (es : List LedgerEntry) (e : LedgerEntry) :
    verify sha256 (es ++ [e]) = true ↔ verify sha256 es = true ∧ e.previousLedgerHash = tip es ∧
      e.currentLedgerHash = hash sha256 e := by
  have key : ∀ previous, verifyFrom sha256 previous (es ++ [e]) = true ↔
      verifyFrom sha256 previous es = true ∧
        e.previousLedgerHash = (es.getLast?.map (·.currentLedgerHash)).getD previous ∧
        e.currentLedgerHash = hash sha256 e := by
    induction es with
    | nil => simp [verifyFrom]
    | cons a es ih =>
      intro previous
      simp only [List.cons_append, verifyFrom]
      split
      · simp
      · rw [ih, List.getLast?_cons]
        cases es.getLast? <;> simp
  rw [verify, key, verify, tip]
  cases es.getLast? <;> simp

/-- Entries that verify; there is no way to change one. -/
structure AppendOnlyLedger where
  entries : List LedgerEntry
  verified : verify sha256 entries = true

namespace AppendOnlyLedger

variable {sha256}

def empty : AppendOnlyLedger sha256 := ⟨[], rfl⟩

/-- The entry of an append, its own hash still to be filled in. -/
def draft (entries : List LedgerEntry) (stamp : Stamp) (record : Record) : LedgerEntry where
  entryId := stamp.entryId
  createdAt := stamp.createdAt
  beforeState := freezeMapping record.beforeState
  intendedState := freezeMapping record.intendedState
  afterState := freezeMapping record.afterState
  forwardAction := freezeMapping record.forwardAction
  inverseAction := freezeMapping record.inverseAction
  evidenceHash := record.evidenceHash
  actor := record.actor
  previousLedgerHash := tip entries
  currentLedgerHash := ""

/-- The entry that the append returns. -/
def appended (L : AppendOnlyLedger sha256) (stamp : Stamp) (record : Record) : LedgerEntry :=
  { draft L.entries stamp record with
    currentLedgerHash := hash sha256 (draft L.entries stamp record) }

def append (L : AppendOnlyLedger sha256) (stamp : Stamp) (record : Record) :
    AppendOnlyLedger sha256 where
  entries := L.entries ++ [L.appended stamp record]
  verified := (verify_concat sha256 _ _).mpr ⟨L.verified, rfl, rfl⟩

@[simp] theorem entries_append (L : AppendOnlyLedger sha256) (stamp : Stamp) (record : Record) :
    (L.append stamp record).entries = L.entries ++ [L.appended stamp record] := rfl

end AppendOnlyLedger

/-- `uuid4()`: an id that no entry has. -/
def freshId (entries : List LedgerEntry) : EntryId :=
  entries.foldr (fun e n => max (e.entryId + 1) n) 0

theorem lt_freshId {entries : List LedgerEntry} {e : LedgerEntry} (h : e ∈ entries) :
    e.entryId < freshId entries :=
  lt_foldr_max (·.entryId) h

/-- The entry with a fresh id is found by it, whatever comes later. -/
theorem find_fresh {entries rest : List LedgerEntry} {e : LedgerEntry}
    (h : e.entryId = freshId entries) :
    (entries ++ e :: rest).find? (·.entryId = e.entryId) = some e := by
  rw [List.find?_append, List.find?_eq_none.mpr]
  · simp
  · intro a ha
    simpa [h] using (lt_freshId ha).ne

/-- No two different documents of these entries have the same digest, and none has the genesis
hash. -/
structure Collisionless (entries : List LedgerEntry) : Prop where
  injective : ∀ e ∈ entries, ∀ f ∈ entries, hash sha256 e = hash sha256 f →
    e.payload.canonical = f.payload.canonical
  ne_genesis : ∀ e ∈ entries, hash sha256 e ≠ genesisHash

variable {sha256}

theorem Collisionless.of_injective (hinj : Function.Injective sha256)
    (hgenesis : ∀ j, sha256 j ≠ genesisHash) (entries : List LedgerEntry) :
    Collisionless sha256 entries :=
  ⟨fun _ _ _ _ h => hinj h, fun _ _ => hgenesis _⟩

theorem Collisionless.sublist {as bs : List LedgerEntry} (h : Collisionless sha256 bs)
    (hs : as ⊆ bs) : Collisionless sha256 as :=
  ⟨fun e he f hf => h.injective e (hs he) f (hs hf), fun e he => h.ne_genesis e (hs he)⟩

/-- From the last hash backwards, both sequences are determined. -/
theorem eq_of_tip {as bs : List LedgerEntry} (h : Collisionless sha256 (as ++ bs))
    (ha : verify sha256 as = true) (hb : verify sha256 bs = true) (ht : tip as = tip bs) :
    as = bs := by
  induction as using List.reverseRecOn generalizing bs with
  | nil =>
    rcases List.eq_nil_or_concat' bs with rfl | ⟨bs, b, rfl⟩
    · rfl
    · obtain ⟨-, -, hcurrent⟩ := (verify_concat _ _ _).mp hb
      rw [tip_nil, tip_concat, hcurrent] at ht
      exact absurd ht.symm (h.ne_genesis b (by simp))
  | append_singleton as a ih =>
    obtain ⟨ha', hlink, hcurrent⟩ := (verify_concat _ _ _).mp ha
    rcases List.eq_nil_or_concat' bs with rfl | ⟨bs, b, rfl⟩
    · rw [tip_nil, tip_concat, hcurrent] at ht
      exact absurd ht (h.ne_genesis a (by simp))
    · obtain ⟨hb', hlink', hcurrent'⟩ := (verify_concat _ _ _).mp hb
      simp only [tip_concat] at ht
      have hdoc := h.injective a (by simp) b (by simp) (by rw [← hcurrent, ← hcurrent', ht])
      obtain rfl := LedgerEntry.ext_payload hdoc ht
      rw [ih (h.sublist (fun e he => ?_)) ha' hb' (hlink.symm.trans hlink')]
      simp only [List.mem_append, List.mem_singleton] at he ⊢
      rcases he with he | he
      · exact .inl (.inl he)
      · exact .inr (.inl he)

/-- Appended entries verify, and of the sequences with one last hash only one verifies: a sequence
that was edited, inserted into, cut or reordered and keeps the last hash does not. -/
theorem tamper_evident (sha256 : Json → String) :
    (∀ appends : List (Stamp × Record), verify sha256
      (appends.foldl (fun L a => L.append a.1 a.2) (.empty : AppendOnlyLedger sha256)).entries =
        true) ∧
    (∀ as bs, Collisionless sha256 (as ++ bs) → verify sha256 as = true →
      verify sha256 bs = true → tip as = tip bs → as = bs) ∧
    (∀ as bs, Collisionless sha256 (as ++ bs) → verify sha256 as = true → bs ≠ as →
      tip bs = tip as → verify sha256 bs = false) := by
  refine ⟨fun appends => AppendOnlyLedger.verified _, fun as bs h ha hb ht => eq_of_tip h ha hb ht,
    fun as bs h ha hne ht => ?_⟩
  by_contra hb
  exact hne (eq_of_tip h ha (by simpa using hb) ht.symm).symm

/-- A digest that tells the documents of different actors apart. -/
def actorDigest (document : Json) : String := (document.get "actor").asStr.getD ""

def history : List LedgerEntry :=
  let record actor : Record := ⟨.null, .null, .null, .null, .null, "evidence", actor⟩
  let first := (.empty : AppendOnlyLedger actorDigest).append ⟨1, 0⟩ (record "deployer")
  (first.append ⟨2, 1⟩ (record "rollbacker")).entries

theorem tamper_evident_deleted : verify actorDigest history.tail = false :=
  (tamper_evident actorDigest).2.2 history history.tail ⟨by decide, by decide⟩ (by decide)
    (by decide) (by decide)

end NoSQLOptimizer.Ledger
