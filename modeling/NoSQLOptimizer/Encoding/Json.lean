import Mathlib.Data.List.Basic
import Mathlib.Data.String.Basic

namespace NoSQLOptimizer.Encoding

mutual

/-- A JSON value.  A float is the shortest text that reads back as it. -/
inductive Json
  | null : Json
  | bool : Bool → Json
  | int : Int → Json
  | float : String → Json
  | str : String → Json
  | arr : Items → Json
  | obj : Fields → Json
  deriving DecidableEq

inductive Items
  | nil : Items
  | cons : Json → Items → Items
  deriving DecidableEq

inductive Fields
  | nil : Fields
  | cons : String → Json → Fields → Fields
  deriving DecidableEq

end

namespace Items

def ofList : List Json → Items
  | [] => .nil
  | j :: js => .cons j (ofList js)

def toList : Items → List Json
  | .nil => []
  | .cons j r => j :: r.toList

@[simp] theorem toList_ofList (js : List Json) : (ofList js).toList = js := by
  induction js with
  | nil => rfl
  | cons j js ih => simp only [ofList, toList, ih]

end Items

namespace Fields

def ofList : List (String × Json) → Fields
  | [] => .nil
  | f :: fs => .cons f.1 f.2 (ofList fs)

def toList : Fields → List (String × Json)
  | .nil => []
  | .cons k j r => (k, j) :: r.toList

@[simp] theorem toList_ofList (fs : List (String × Json)) : (ofList fs).toList = fs := by
  induction fs with
  | nil => rfl
  | cons f fs ih => simp only [ofList, toList, ih]

def keys : Fields → List String
  | .nil => []
  | .cons k _ r => k :: r.keys

/-- The first field of the name. -/
def lookup (name : String) : Fields → Option Json
  | .nil => none
  | .cons k j r => if k = name then some j else r.lookup name

/-- Puts a field into its place, or in place of the one of its name. -/
def insert (name : String) (v : Json) : Fields → Fields
  | .nil => .cons name v .nil
  | .cons k j r =>
    if name < k then .cons name v (.cons k j r)
    else if name = k then .cons k v r
    else .cons k j (r.insert name v)

end Fields

mutual

/-- `json.dumps(.., sort_keys=True)` up to its text. -/
def Json.canonical : Json → Json
  | .arr r => .arr r.canonical
  | .obj r => .obj r.canonical
  | .null => .null
  | .bool b => .bool b
  | .int n => .int n
  | .float t => .float t
  | .str s => .str s

def Items.canonical : Items → Items
  | .nil => .nil
  | .cons j r => .cons j.canonical r.canonical

def Fields.canonical : Fields → Fields
  | .nil => .nil
  | .cons k j r => r.canonical.insert k j.canonical

end

/-- One more value of a polynomial checksum. -/
def mix (h n : Nat) : Nat := (h * 257 + n) % 2305843009213693951

def mixText (h : Nat) (s : String) : Nat := s.toList.foldl (fun h c => mix h c.toNat) (mix h 1)

mutual

/-- A small digest, to run things with. -/
def Json.checksum (h : Nat) : Json → Nat
  | .null => mix h 2
  | .bool b => mix h (if b then 3 else 4)
  | .int n => mix (mix h (if n < 0 then 5 else 6)) n.natAbs
  | .float t => mixText (mix h 7) t
  | .str s => mixText (mix h 8) s
  | .arr r => r.checksum (mix h 9)
  | .obj r => r.checksum (mix h 10)

def Items.checksum (h : Nat) : Items → Nat
  | .nil => mix h 11
  | .cons j r => r.checksum (j.checksum h)

def Fields.checksum (h : Nat) : Fields → Nat
  | .nil => mix h 12
  | .cons k j r => r.checksum (j.checksum (mixText h k))

end

mutual

/-- Every object in it lists its fields in the order of their names, none twice. -/
def Json.Canonical : Json → Prop
  | .arr r => r.Canonical
  | .obj r => r.Canonical
  | _ => True

def Items.Canonical : Items → Prop
  | .nil => True
  | .cons j r => j.Canonical ∧ r.Canonical

def Fields.Canonical : Fields → Prop
  | .nil => True
  | .cons k j r => j.Canonical ∧ (∀ name ∈ r.keys, k < name) ∧ r.Canonical

end

namespace Fields

theorem mem_keys_insert {name k : String} {v : Json} {r : Fields}
    (h : k ∈ (r.insert name v).keys) : k = name ∨ k ∈ r.keys := by
  fun_induction insert name v r with
  | case1 => exact .inl (by simpa [keys] using h)
  | case2 k' j r => simpa [keys] using h
  | case3 j r => exact .inr (by simpa [keys] using h)
  | case4 k' j r _ _ ih =>
    simp only [keys, List.mem_cons] at h ⊢
    rcases h with rfl | h
    · exact .inr (.inl rfl)
    · exact (ih h).imp id .inr

theorem Canonical.insert {name : String} {v : Json} {r : Fields} (hr : r.Canonical)
    (hv : v.Canonical) : (r.insert name v).Canonical := by
  fun_induction Fields.insert name v r with
  | case1 => exact ⟨hv, by simp [keys], trivial⟩
  | case2 k j r hlt =>
    obtain ⟨hj, hk, hr'⟩ := hr
    refine ⟨hv, fun k' hk' => ?_, hj, hk, hr'⟩
    rcases List.mem_cons.mp hk' with rfl | hk'
    · exact hlt
    · exact hlt.trans (hk k' hk')
  | case3 j r => exact ⟨hv, hr.2⟩
  | case4 k j r hlt hne ih =>
    obtain ⟨hj, hk, hr'⟩ := hr
    refine ⟨hj, fun k' hk' => ?_, ih hr'⟩
    rcases mem_keys_insert hk' with rfl | hk'
    · exact lt_of_le_of_ne (not_lt.mp hlt) (Ne.symm hne)
    · exact hk k' hk'

theorem insert_of_lt {name : String} {v : Json} {r : Fields} (h : ∀ k ∈ r.keys, name < k) :
    r.insert name v = .cons name v r := by
  cases r with
  | nil => rfl
  | cons k j r => simp only [insert, if_pos (h k List.mem_cons_self)]

theorem lookup_insert (name k : String) (v : Json) (r : Fields) :
    (r.insert name v).lookup k = if name = k then some v else r.lookup k := by
  fun_induction insert name v r with
  | case1 => rfl
  | case2 k' j r => rfl
  | case3 j r =>
    simp only [lookup]
    split <;> rfl
  | case4 k' j r _ hne ih =>
    simp only [lookup, ih]
    split
    · next hk =>
      subst hk
      rw [if_neg hne]
    · rfl

end Fields

mutual

theorem Json.canonical_canonical : (j : Json) → j.canonical.Canonical
  | .arr r => Items.canonical_canonical r
  | .obj r => Fields.canonical_canonical r
  | .null => trivial
  | .bool _ => trivial
  | .int _ => trivial
  | .float _ => trivial
  | .str _ => trivial

theorem Items.canonical_canonical : (r : Items) → r.canonical.Canonical
  | .nil => trivial
  | .cons j r => ⟨Json.canonical_canonical j, Items.canonical_canonical r⟩

theorem Fields.canonical_canonical : (r : Fields) → r.canonical.Canonical
  | .nil => trivial
  | .cons _ j r => (Fields.canonical_canonical r).insert (Json.canonical_canonical j)

end

mutual

theorem Json.Canonical.eq : {j : Json} → j.Canonical → j.canonical = j
  | .arr _, h => congrArg Json.arr (Items.Canonical.eq h)
  | .obj _, h => congrArg Json.obj (Fields.Canonical.eq h)
  | .null, _ => rfl
  | .bool _, _ => rfl
  | .int _, _ => rfl
  | .float _, _ => rfl
  | .str _, _ => rfl

theorem Items.Canonical.eq : {r : Items} → r.Canonical → r.canonical = r
  | .nil, _ => rfl
  | .cons _ _, h => congrArg₂ Items.cons (Json.Canonical.eq h.1) (Items.Canonical.eq h.2)

theorem Fields.Canonical.eq : {r : Fields} → r.Canonical → r.canonical = r
  | .nil, _ => rfl
  | .cons k j r, h => by
    rw [Fields.canonical, Fields.Canonical.eq h.2.2, Json.Canonical.eq h.1,
      Fields.insert_of_lt h.2.1]

end

namespace Json

/-- Reading a canonical text back and writing it again changes nothing. -/
@[simp] theorem canonical_idem (j : Json) : j.canonical.canonical = j.canonical :=
  j.canonical_canonical.eq

def list (js : List Json) : Json := .arr (.ofList js)

def object (fs : List (String × Json)) : Json := .obj (.ofList fs)

/-- `value.get(name)`: what is missing is null. -/
def get (name : String) : Json → Json
  | .obj r => (r.lookup name).getD .null
  | _ => .null

def asStr : Json → Option String
  | .str s => some s
  | _ => none

end Json

theorem Fields.lookup_canonical (k : String) (r : Fields) :
    r.canonical.lookup k = (r.lookup k).map Json.canonical := by
  fun_induction Fields.lookup k r with
  | case1 => rfl
  | case2 j r => simp [Fields.canonical, lookup_insert]
  | case3 k' j r hne ih => simp [Fields.canonical, lookup_insert, hne, ih]

namespace Fields

theorem lookup_eq_none {k : String} {r : Fields} (h : ∀ name ∈ r.keys, k < name) :
    r.lookup k = none := by
  fun_induction lookup k r with
  | case1 => rfl
  | case2 j r => exact absurd (h k List.mem_cons_self) (lt_irrefl k)
  | case3 k' j r hne ih => exact ih (fun name hname => h name (List.mem_cons_of_mem _ hname))

theorem Canonical.lookup_eq_none {k k' : String} {j : Json} {r : Fields}
    (h : (cons k' j r).Canonical) (hlt : k < k') : (cons k' j r).lookup k = none := by
  apply Fields.lookup_eq_none
  intro name hname
  rcases List.mem_cons.mp hname with rfl | hname
  · exact hlt
  · exact hlt.trans (h.2.1 name hname)

/-- Fields in the order of their names are told apart by what they hold under each name. -/
theorem Canonical.ext : {r r' : Fields} → r.Canonical → r'.Canonical →
    (∀ name, r.lookup name = r'.lookup name) → r = r'
  | .nil, .nil, _, _, _ => rfl
  | .nil, .cons k j r, _, _, h => by simpa [lookup] using h k
  | .cons k j r, .nil, _, _, h => by simpa [lookup] using h k
  | .cons k j r, .cons k' j' r', hr, hr', h => by
    have hk : k = k' := by
      rcases lt_trichotomy k k' with hlt | heq | hgt
      · have hnone := h k
        rw [hr'.lookup_eq_none hlt] at hnone
        simp [lookup] at hnone
      · exact heq
      · have hnone := h k'
        rw [hr.lookup_eq_none hgt] at hnone
        simp [lookup] at hnone
    subst hk
    have hj : j = j' := by simpa [lookup] using h k
    have htail : r = r' := by
      apply Canonical.ext hr.2.2 hr'.2.2
      intro name
      by_cases hname : k = name
      · rw [← hname, Fields.lookup_eq_none hr.2.1, Fields.lookup_eq_none hr'.2.1]
      · simpa [lookup, hname] using h name
    rw [hj, htail]

end Fields

theorem Items.toList_injective : Function.Injective Items.toList := by
  intro r r' h
  fun_induction Items.toList r generalizing r' with
  | case1 =>
    cases r' with
    | nil => rfl
    | cons j' r' => cases h
  | case2 j r ih =>
    cases r' with
    | nil => cases h
    | cons j' r' =>
      obtain ⟨hj, hr⟩ := List.cons.inj h
      rw [hj, ih hr]

theorem Items.toList_canonical (r : Items) :
    r.canonical.toList = r.toList.map Json.canonical := by
  fun_induction Items.toList r with
  | case1 => rfl
  | case2 j r ih => simp only [Items.canonical, toList, ih, List.map_cons]

namespace Json

theorem get_canonical (name : String) (j : Json) :
    get name j.canonical = (get name j).canonical := by
  cases j with
  | obj r =>
    simp only [canonical, get, Fields.lookup_canonical]
    cases r.lookup name <;> rfl
  | _ => rfl

@[simp] theorem get_object_nil (name : String) : (object []).get name = .null := rfl

@[simp] theorem get_object_cons (name : String) (f : String × Json) (fs : List (String × Json)) :
    (object (f :: fs)).get name = if f.1 = name then f.2 else (object fs).get name := by
  simp only [object, Fields.ofList, get, Fields.lookup]
  split <;> rfl

@[simp] theorem canonical_str (s : String) : (str s).canonical = .str s := rfl

@[simp] theorem canonical_int (n : Int) : (int n).canonical = .int n := rfl

@[simp] theorem canonical_null : null.canonical = .null := rfl

theorem canonical_list (js : List Json) : (list js).canonical = list (js.map canonical) := by
  simp only [list, canonical]
  congr 1
  induction js with
  | nil => rfl
  | cons j js ih => simp only [Items.ofList, Items.canonical, ih, List.map_cons]

theorem get_canonical_congr {d d' : Json} (h : d.canonical = d'.canonical) (name : String) :
    (d.get name).canonical = (d'.get name).canonical := by
  rw [← get_canonical, ← get_canonical, h]

theorem list_inj {α : Type} {encode : α → Json}
    (hinj : ∀ a b, (encode a).canonical = (encode b).canonical → a = b) {as bs : List α}
    (h : (list (as.map encode)).canonical = (list (bs.map encode)).canonical) : as = bs := by
  rw [canonical_list, canonical_list, List.map_map, List.map_map] at h
  have hlist := congrArg Items.toList (arr.inj h)
  rw [Items.toList_ofList, Items.toList_ofList] at hlist
  exact List.map_injective_iff.mpr (fun a b hab => hinj a b hab) hlist

end Json

end NoSQLOptimizer.Encoding
