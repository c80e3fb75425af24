import Mathlib
import NoSQLOptimizer.Encoding.Json

namespace NoSQLOptimizer.Encoding

/-- Reads what `toString` writes of a rational. -/
def readNumber (text : String) : ℚ :=
  let numerator := (String.ofList (text.toList.takeWhile (· ≠ '/'))).toInt?.getD 0
  match text.toList.dropWhile (· ≠ '/') with
  | [] => numerator
  | _ :: digits => mkRat numerator ((String.ofList digits).toNat?.getD 1)

theorem ne_slash_of_mem_nat {n : ℕ} {c : Char} (h : c ∈ n.repr.toList) : c ≠ '/' := by
  rintro rfl
  have hdigit : ('/').isDigit = true :=
    Nat.isDigit_of_mem_toDigits (by decide) (by decide) (Nat.toList_repr ▸ h)
  exact absurd hdigit (by decide)

theorem ne_slash_of_mem_int {n : ℤ} {c : Char} (h : c ∈ n.repr.toList) : c ≠ '/' := by
  cases n with
  | ofNat n => exact ne_slash_of_mem_nat h
  | negSucc n =>
    rw [Int.repr, String.toList_append] at h
    rcases List.mem_append.mp h with h | h
    · rintro rfl
      exact absurd h (by decide)
    · exact ne_slash_of_mem_nat h

theorem readNumber_toString (q : ℚ) : readNumber (toString q) = q := by
  have hall : ∀ c ∈ q.num.repr.toList, decide (c ≠ '/') = true :=
    fun c hc => decide_eq_true (ne_slash_of_mem_int hc)
  have htake : q.num.repr.toList.takeWhile (· ≠ '/') = q.num.repr.toList :=
    List.takeWhile_eq_self_iff.mpr hall
  have hdrop : q.num.repr.toList.dropWhile (· ≠ '/') = [] := List.dropWhile_eq_nil_iff.mpr hall
  by_cases hden : q.den = 1
  · have htext : toString q = q.num.repr := by simp only [toString, hden, if_true]
    simp only [htext, readNumber, htake, hdrop, String.ofList_toList, Int.toInt?_repr,
      Option.getD_some]
    exact Rat.den_eq_one_iff q |>.mp hden
  · have htext : (toString q).toList = q.num.repr.toList ++ '/' :: q.den.repr.toList := by
      simp [toString, hden]
    have hslash : ('/' :: q.den.repr.toList).dropWhile (· ≠ '/') = '/' :: q.den.repr.toList := rfl
    have htail : ('/' :: q.den.repr.toList).takeWhile (· ≠ '/') = [] := rfl
    simp only [readNumber, htext, List.takeWhile_append_of_pos hall,
      List.dropWhile_append_of_pos hall, hslash, htail, List.append_nil, String.ofList_toList,
      Int.toInt?_repr, Nat.toNat?_repr, Option.getD_some]
    exact Rat.mkRat_self q

theorem toString_injective : Function.Injective (toString : ℚ → String) :=
  Function.LeftInverse.injective readNumber_toString

/-- A number for every string. -/
def letters (s : String) : ℕ := Encodable.encode (s.toList.map Char.toNat)

theorem letters_inj {s t : String} (h : letters s = letters t) : s = t :=
  String.toList_inj.mp (List.map_injective_iff.mpr (fun _ _ => Char.toNat_inj.mp)
    (Encodable.encode_injective h))

mutual

/-- A number for every document. -/
def Json.code : Json → ℕ
  | .null => Nat.pair 0 0
  | .bool b => Nat.pair 1 (Encodable.encode b)
  | .int n => Nat.pair 2 (Encodable.encode n)
  | .float t => Nat.pair 3 (letters t)
  | .str s => Nat.pair 4 (letters s)
  | .arr r => Nat.pair 5 r.code
  | .obj r => Nat.pair 6 r.code

def Items.code : Items → ℕ
  | .nil => 0
  | .cons j r => Nat.pair j.code r.code + 1

def Fields.code : Fields → ℕ
  | .nil => 0
  | .cons k j r => Nat.pair (Nat.pair (letters k) j.code) r.code + 1

end

mutual

theorem Json.code_inj : (j j' : Json) → j.code = j'.code → j = j'
  | .arr r, j', h => by
    cases j' with
    | arr r' => rw [Items.code_inj r r' (Nat.pair_eq_pair.mp h).2]
    | _ => simp [Json.code] at h
  | .obj r, j', h => by
    cases j' with
    | obj r' => rw [Fields.code_inj r r' (Nat.pair_eq_pair.mp h).2]
    | _ => simp [Json.code] at h
  | .null, j', h => by cases j' <;> simp [Json.code] at h ⊢
  | .bool b, j', h => by cases j' <;> simp [Json.code] at h ⊢; exact h
  | .int n, j', h => by cases j' <;> simp [Json.code] at h ⊢; exact h
  | .float t, j', h => by cases j' <;> simp [Json.code] at h ⊢; exact letters_inj h
  | .str s, j', h => by cases j' <;> simp [Json.code] at h ⊢; exact letters_inj h

theorem Items.code_inj : (r r' : Items) → r.code = r'.code → r = r'
  | .nil, r', h => by
    cases r' with
    | nil => rfl
    | cons j' r' => simp [Items.code] at h
  | .cons j r, r', h => by
    cases r' with
    | nil => simp [Items.code] at h
    | cons j' r' =>
      obtain ⟨hj, hr⟩ := Nat.pair_eq_pair.mp (Nat.succ.inj h)
      rw [Json.code_inj j j' hj, Items.code_inj r r' hr]

theorem Fields.code_inj : (r r' : Fields) → r.code = r'.code → r = r'
  | .nil, r', h => by
    cases r' with
    | nil => rfl
    | cons k' j' r' => simp [Fields.code] at h
  | .cons k j r, r', h => by
    cases r' with
    | nil => simp [Fields.code] at h
    | cons k' j' r' =>
      obtain ⟨hf, hr⟩ := Nat.pair_eq_pair.mp (Nat.succ.inj h)
      obtain ⟨hk, hj⟩ := Nat.pair_eq_pair.mp hf
      rw [letters_inj hk, Json.code_inj j j' hj, Fields.code_inj r r' hr]

end

/-- A digest that no two documents share, to run things with. -/
def Json.text (j : Json) : String := j.code.repr

theorem Json.text_injective : Function.Injective Json.text :=
  fun j j' h => Json.code_inj j j' (Nat.repr_injective h)

end NoSQLOptimizer.Encoding
