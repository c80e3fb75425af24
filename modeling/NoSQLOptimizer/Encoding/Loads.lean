import Mathlib.Data.List.TakeWhile
import NoSQLOptimizer.Encoding.Dumps

namespace NoSQLOptimizer.Encoding

theorem hexValue_digitChar : ∀ n < 16, hexValue (Nat.digitChar n) = some n := by
  decide

theorem hexValue_hexDigit (u place : ℕ) :
    hexValue (hexDigit u place) = some (u / 16 ^ place % 16) :=
  hexValue_digitChar _ (Nat.mod_lt _ (by decide))

theorem scanUnits_unicodeEscape {u : ℕ} (h : u < 0x10000) (cs : List Char) :
    scanUnits .plain (unicodeEscape u ++ cs) =
      (scanUnits .plain cs).map (fun x => (u :: x.1, x.2)) := by
  have hu : (((0 * 16 + u / 16 ^ 3 % 16) * 16 + u / 16 ^ 2 % 16) * 16 + u / 16 ^ 1 % 16) * 16 +
      u / 16 ^ 0 % 16 = u := by
    omega
  simp only [unicodeEscape, List.cons_append, List.nil_append, scanUnits, hexValue_hexDigit,
    Option.bind_some, Char.reduceEq, if_false, if_true, hu]

theorem scanUnits_backslash {c e : Char} (he : backslash.lookup e = some c) (hu : e ≠ 'u')
    (cs : List Char) :
    scanUnits .plain ('\\' :: e :: cs) =
      (scanUnits .plain cs).map (fun x => (c.toNat :: x.1, x.2)) := by
  simp only [scanUnits, Char.reduceEq, if_false, if_true, hu, he, Option.bind_some]

theorem lt_of_mem_codeUnits {c : Char} {u : ℕ} (h : u ∈ codeUnits c) : u < 0x10000 := by
  have hvalid : c.toNat.isValidChar := c.valid
  unfold Nat.isValidChar at hvalid
  unfold codeUnits at h
  split at h
  · next hlt =>
    rw [List.mem_singleton] at h
    omega
  · simp only [List.mem_cons, List.not_mem_nil, or_false] at h
    omega

theorem scanUnits_flatMap {us : List ℕ} (h : ∀ u ∈ us, u < 0x10000) (cs : List Char) :
    scanUnits .plain (us.flatMap unicodeEscape ++ cs) =
      (scanUnits .plain cs).map (fun x => (us ++ x.1, x.2)) := by
  induction us with
  | nil => simp
  | cons u us ih =>
    rw [List.flatMap_cons, List.append_assoc, scanUnits_unicodeEscape (h u List.mem_cons_self),
      ih (fun u hu => h u (List.mem_cons_of_mem _ hu)), Option.map_map]
    rfl

theorem escapes_spec : ∀ x ∈ escapes,
    x.1.toNat < 0x10000 ∧ backslash.lookup x.2 = some x.1 ∧ x.2 ≠ 'u' := by
  decide

theorem mem_of_lookup {c e : Char} {table : List (Char × Char)} (h : table.lookup c = some e) :
    (c, e) ∈ table := by
  obtain ⟨before, after, htable, -⟩ := List.lookup_eq_some_iff.mp h
  rw [htable]
  exact List.mem_append_right _ List.mem_cons_self

theorem scanUnits_escape (c : Char) (cs : List Char) :
    scanUnits .plain (escape c ++ cs) =
      (scanUnits .plain cs).map (fun x => (codeUnits c ++ x.1, x.2)) := by
  unfold escape
  split
  · next e he =>
    obtain ⟨hlt, hback, hu⟩ := escapes_spec _ (mem_of_lookup he)
    rw [List.cons_append, List.cons_append, List.nil_append, scanUnits_backslash hback hu,
      codeUnits, if_pos hlt]
    rfl
  · next hnone =>
    split
    · next hprintable =>
      have hquote : c ≠ '"' := by
        rintro rfl
        cases hnone
      have hback : c ≠ '\\' := by
        rintro rfl
        cases hnone
      have hlt : c.toNat < 0x10000 := lt_of_le_of_lt hprintable.2 (by decide)
      rw [codeUnits, if_pos hlt, List.cons_append, List.nil_append, scanUnits, if_neg hquote,
        if_neg hback, if_neg (not_lt_of_ge hprintable.1)]
      rfl
    · exact scanUnits_flatMap (fun u => lt_of_mem_codeUnits) cs

theorem joinUnits_codeUnits (c : Char) (us : List ℕ) :
    joinUnits none (codeUnits c ++ us) = (joinUnits none us).map (c :: ·) := by
  have hvalid : c.toNat.isValidChar := c.valid
  unfold Nat.isValidChar at hvalid
  unfold codeUnits
  split
  · next hlt =>
    rw [List.cons_append, List.nil_append, joinUnits, if_neg (by omega), if_neg (by omega),
      Char.ofNat_toNat]
  · next hle =>
    have hc : 0x10000 + (0xd800 + (c.toNat - 0x10000) / 0x400 - 0xd800) * 0x400 +
        (0xdc00 + (c.toNat - 0x10000) % 0x400 - 0xdc00) = c.toNat := by
      omega
    rw [List.cons_append, List.cons_append, List.nil_append, joinUnits, if_pos (by omega),
      joinUnits, if_pos (by omega), hc, Char.ofNat_toNat]

theorem scanUnits_quoted (s cs : List Char) :
    scanUnits .plain (s.flatMap escape ++ '"' :: cs) = some (s.flatMap codeUnits, cs) := by
  induction s with
  | nil => simp [scanUnits]
  | cons c s ih =>
    rw [List.flatMap_cons, List.append_assoc, scanUnits_escape, ih]
    rfl

theorem joinUnits_flatMap (s : List Char) : joinUnits none (s.flatMap codeUnits) = some s := by
  induction s with
  | nil => rfl
  | cons c s ih =>
    rw [List.flatMap_cons, joinUnits_codeUnits, ih]
    rfl

theorem scanString_quote (s : String) (cs : List Char) :
    scanString (s.toList.flatMap escape ++ '"' :: cs) = some (s, cs) := by
  rw [scanString, scanUnits_quoted, Option.bind_some, joinUnits_flatMap, Option.map_some,
    String.ofList_toList]

theorem wordChar_of_isDigit {c : Char} (h : c.isDigit = true) : wordChar c = true := by
  simp [wordChar, Char.isAlphanum, h]

theorem wordChar_of_mem_repr {n : Int} {c : Char} (h : c ∈ n.repr.toList) : wordChar c = true := by
  have hnat {n : ℕ} (h : c ∈ n.repr.toList) : wordChar c = true := by
    rw [Nat.toList_repr] at h
    exact wordChar_of_isDigit (Nat.isDigit_of_mem_toDigits (by decide) (by decide) h)
  cases n with
  | ofNat n => exact hnat h
  | negSucc n =>
    rw [Int.repr, String.toList_append] at h
    rcases List.mem_append.mp h with h | h
    · rw [List.mem_singleton.mp h]
      rfl
    · exact hnat h

theorem takeWhile_toDigits (n : ℕ) :
    (Nat.toDigits 10 n).takeWhile Char.isDigit = Nat.toDigits 10 n ∧
      (Nat.toDigits 10 n).dropWhile Char.isDigit = [] := by
  have hdigits : ∀ c ∈ Nat.toDigits 10 n, c.isDigit = true :=
    fun c hc => Nat.isDigit_of_mem_toDigits (by decide) (by decide) hc
  exact ⟨List.takeWhile_eq_self_iff.mpr hdigits, List.dropWhile_eq_nil_iff.mpr hdigits⟩

theorem readNumberWord_repr (n : Int) : readNumberWord n.repr.toList = some (.int n) := by
  cases n with
  | ofNat n =>
    obtain ⟨htake, hdrop⟩ := takeWhile_toDigits n
    have hsign : (Nat.toDigits 10 n).head? ≠ some '-' := by
      intro h
      have hdigit := Nat.isDigit_of_mem_toDigits (b := 10) (by decide) (by decide)
        (List.mem_of_head? h)
      cases hdigit
    have hrepr : (Int.ofNat n).repr.toList = Nat.toDigits 10 n := Nat.toList_repr
    simp only [readNumberWord, hrepr, if_neg hsign, htake, hdrop, Nat.ofDigitChars_ten_toDigits,
      ne_eq, not_true, if_false, if_true]
    rfl
  | negSucc n =>
    obtain ⟨htake, hdrop⟩ := takeWhile_toDigits (n + 1)
    have hrepr : (Int.negSucc n).repr.toList = '-' :: Nat.toDigits 10 (n + 1) := by
      rw [Int.repr, String.toList_append, Nat.toList_repr]
      rfl
    simp only [readNumberWord, hrepr, List.head?_cons, if_true, List.tail_cons, htake, hdrop,
      Nat.ofDigitChars_ten_toDigits, ne_eq, not_true, if_false]
    rfl

theorem readNumberWord_literals : ∀ x ∈ literals, readNumberWord x.1.toList = none := by
  decide +kernel

theorem readWord_repr (n : Int) : readWord n.repr.toList = some (.int n) := by
  have hnone : literals.lookup n.repr = none := by
    rw [List.lookup_eq_none_iff]
    intro x hx
    rw [bne_iff_ne]
    intro heq
    have hnone := readNumberWord_literals x hx
    rw [← heq, readNumberWord_repr] at hnone
    cases hnone
  rw [readWord, String.ofList_toList, hnone, Option.none_or, readNumberWord_repr]

/-- There is no character of a word in front. -/
def Ends (cs : List Char) : Prop := ∀ c, cs.head? = some c → wordChar c = false

theorem scanWord_append {word cs : List Char} {j : Json} (hword : ∀ c ∈ word, wordChar c = true)
    (hread : readWord word = some j) (hends : Ends cs) : scanWord (word ++ cs) = some (j, cs) := by
  have htake : cs.takeWhile wordChar = [] := by
    cases cs with
    | nil => rfl
    | cons c cs => rw [List.takeWhile_cons_of_neg (by rw [hends c rfl]; decide)]
  have hdrop : cs.dropWhile wordChar = cs := by
    cases cs with
    | nil => rfl
    | cons c cs => rw [List.dropWhile_cons_of_neg (by rw [hends c rfl]; decide)]
  rw [scanWord, List.takeWhile_append_of_pos hword, List.dropWhile_append_of_pos hword, htake,
    hdrop, List.append_nil, hread]
  rfl

/-- The text of a float. -/
def IsFloat (t : String) : Prop :=
  (∀ c ∈ t.toList, wordChar c = true) ∧ readWord t.toList = some (.float t)

instance (t : String) : Decidable (IsFloat t) :=
  inferInstanceAs (Decidable (_ ∧ _))

mutual

/-- The floats in a value have texts of floats. -/
def Json.Floats : Json → Prop
  | .float t => IsFloat t
  | .arr r => r.Floats
  | .obj r => r.Floats
  | _ => True

def Items.Floats : Items → Prop
  | .nil => True
  | .cons j r => j.Floats ∧ r.Floats

def Fields.Floats : Fields → Prop
  | .nil => True
  | .cons _ j r => j.Floats ∧ r.Floats

end

theorem skip_of_head {c : Char} {cs : List Char}
    (h : wordChar c = true ∨ c ∈ ['"', '[', '{', ']', '}', ',', ':']) :
    skip (c :: cs) = c :: cs := by
  apply List.dropWhile_cons_of_neg
  rw [List.contains_iff_mem]
  intro hspace
  simp only [List.mem_cons, List.not_mem_nil, or_false] at hspace
  rcases hspace with rfl | rfl | rfl | rfl <;> revert h <;> decide

theorem ne_nil_of_readWord {word : List Char} {j : Json} (h : readWord word = some j) :
    word ≠ [] := by
  rintro rfl
  revert h
  decide +revert

/-- The first character of a value. -/
theorem dumps_eq_cons {j : Json} (hfloats : j.Floats) :
    ∃ c cs, j.dumps = c :: cs ∧ (wordChar c = true ∨ c ∈ ['"', '[', '{']) := by
  have hword {word : List Char} (hne : word ≠ []) (hword : ∀ c ∈ word, wordChar c = true) :
      ∃ c cs, word = c :: cs ∧ (wordChar c = true ∨ c ∈ ['"', '[', '{']) := by
    cases word with
    | nil => exact absurd rfl hne
    | cons c cs => exact ⟨c, cs, rfl, .inl (hword c List.mem_cons_self)⟩
  cases j with
  | null => exact ⟨'n', _, rfl, .inl rfl⟩
  | bool b =>
    cases b
    · exact ⟨'f', _, rfl, .inl rfl⟩
    · exact ⟨'t', _, rfl, .inl rfl⟩
  | int n => exact hword (ne_nil_of_readWord (readWord_repr n)) (fun c => wordChar_of_mem_repr)
  | float t => exact hword (ne_nil_of_readWord hfloats.2) hfloats.1
  | str s => exact ⟨'"', _, rfl, .inr (by decide)⟩
  | arr r => exact ⟨'[', _, rfl, .inr (by decide)⟩
  | obj r => exact ⟨'{', _, rfl, .inr (by decide)⟩

theorem Fields.dumps_eq_cons {r : Fields} (hnil : r.isNil = false) :
    ∃ c cs, r.dumps = c :: cs ∧ (wordChar c = true ∨ c ∈ ['"', '[', '{']) := by
  cases r with
  | nil => cases hnil
  | cons k j r => exact ⟨'"', _, rfl, .inr (by decide)⟩

theorem scanOnce_word {word cs : List Char} {j : Json} {steps : ℕ}
    (hword : ∀ c ∈ word, wordChar c = true) (hread : readWord word = some j) (hends : Ends cs)
    (hsteps : word.length ≤ steps) : scanOnce steps (word ++ cs) = some (j, cs) := by
  obtain ⟨c, word', rfl⟩ := List.exists_cons_of_ne_nil (ne_nil_of_readWord hread)
  obtain ⟨steps, rfl⟩ := Nat.exists_eq_succ_of_ne_zero (Nat.ne_of_gt
    (Nat.lt_of_lt_of_le (Nat.succ_pos _) hsteps))
  have hc := hword c List.mem_cons_self
  have hne (d : Char) (hd : wordChar d = false) : c ≠ d := by
    rintro rfl
    rw [hd] at hc
    cases hc
  rw [List.cons_append, Nat.succ_eq_add_one, scanOnce, if_neg (hne '"' rfl),
    if_neg (hne '[' rfl), if_neg (hne '{' rfl)]
  exact scanWord_append hword hread hends

theorem ends_cons {c : Char} (cs : List Char) (hc : wordChar c = false) : Ends (c :: cs) := by
  intro d hd
  cases hd
  exact hc

theorem Items.dumps_eq_cons {r : Items} (hnil : r.isNil = false) (hfloats : r.Floats) :
    ∃ c cs, r.dumps = c :: cs ∧ (wordChar c = true ∨ c ∈ ['"', '[', '{']) := by
  cases r with
  | nil => cases hnil
  | cons j r =>
    obtain ⟨c, cs, hdumps, hc⟩ := Encoding.dumps_eq_cons hfloats.1
    rw [Items.dumps, hdumps]
    exact ⟨c, _, rfl, hc⟩

/-- No white space and no closing bracket comes first. -/
theorem skip_of_cons {text : List Char} {d : Char} (cs : List Char)
    (h : ∃ c cs, text = c :: cs ∧ (wordChar c = true ∨ c ∈ ['"', '[', '{']))
    (hd : wordChar d = false ∧ d ∉ ['"', '[', '{']) :
    skip (text ++ cs) = text ++ cs ∧ (text ++ cs).head? ≠ some d := by
  obtain ⟨c, text, rfl, hc⟩ := h
  rw [List.cons_append]
  refine ⟨skip_of_head (hc.imp_right (fun hc => ?_)), ?_⟩
  · simp only [List.mem_cons, List.not_mem_nil, or_false] at hc ⊢
    rcases hc with rfl | rfl | rfl <;> simp
  · rw [List.head?_cons, ne_eq, Option.some.injEq]
    rintro rfl
    rcases hc with hc | hc
    · rw [hd.1] at hc
      cases hc
    · exact hd.2 hc

theorem word_null : "null".toList.all wordChar = true := by decide

theorem word_bool (b : Bool) : (if b then "true" else "false").toList.all wordChar = true := by
  cases b <;> decide

mutual

theorem Json.scan : (j : Json) → j.Floats → j.Canonical → ∀ steps cs, j.dumps.length ≤ steps →
    Ends cs → scanOnce steps (j.dumps ++ cs) = some (j, cs)
  | .null, _, _, steps, cs, hsteps, hends =>
    scanOnce_word (List.all_eq_true.mp word_null) (by decide +kernel) hends hsteps
  | .bool b, _, _, steps, cs, hsteps, hends =>
    scanOnce_word (List.all_eq_true.mp (word_bool b)) (by cases b <;> decide +kernel) hends hsteps
  | .int n, _, _, steps, cs, hsteps, hends =>
    scanOnce_word (fun c => wordChar_of_mem_repr) (readWord_repr n) hends hsteps
  | .float t, hfloats, _, steps, cs, hsteps, hends =>
    scanOnce_word hfloats.1 hfloats.2 hends hsteps
  | .str s, _, _, steps, cs, hsteps, hends => by
    cases steps with
    | zero => cases hsteps
    | succ steps =>
      rw [Json.dumps, quote, List.cons_append, scanOnce, if_pos rfl, List.append_assoc,
        List.singleton_append, scanString_quote]
      rfl
  | .arr r, hfloats, hc, steps, cs, hsteps, hends => by
    cases steps with
    | zero => cases hsteps
    | succ steps =>
      rw [Json.dumps, List.cons_append, scanOnce, if_neg (by decide), if_pos rfl]
      cases hnil : r.isNil with
      | true =>
        cases r with
        | nil => rfl
        | cons j r => cases hnil
      | false =>
        rw [Json.dumps, hnil, if_neg Bool.false_ne_true] at hsteps
        obtain ⟨hskip, hhead⟩ := skip_of_cons (d := ']') cs
          (Items.dumps_eq_cons hnil hfloats) (by decide)
        rw [if_neg Bool.false_ne_true, hskip, if_neg hhead,
          Items.scan r hfloats hc hnil steps cs (Nat.le_of_succ_le_succ hsteps)]
        rfl
  | .obj r, hfloats, hc, steps, cs, hsteps, hends => by
    cases steps with
    | zero => cases hsteps
    | succ steps =>
      rw [Json.dumps, List.cons_append, scanOnce, if_neg (by decide), if_neg (by decide),
        if_pos rfl]
      cases hnil : r.isNil with
      | true =>
        cases r with
        | nil => rfl
        | cons k j r => cases hnil
      | false =>
        rw [Json.dumps, hnil, if_neg Bool.false_ne_true] at hsteps
        obtain ⟨hskip, hhead⟩ := skip_of_cons (d := '}') cs
          (Fields.dumps_eq_cons hnil) (by decide)
        rw [if_neg Bool.false_ne_true, hskip, if_neg hhead,
          Fields.scan r hfloats hc hnil steps cs (Nat.le_of_succ_le_succ hsteps)]
        rfl

theorem Items.scan : (r : Items) → r.Floats → r.Canonical → r.isNil = false → ∀ steps cs,
    r.dumps.length ≤ steps → scanItems steps (r.dumps ++ cs) = some (r, cs)
  | .nil, _, _, hnil, _, _, _ => by cases hnil
  | .cons j r, hfloats, hc, _, steps, cs, hsteps => by
    rw [Items.dumps, List.length_append] at hsteps
    cases hnil : r.isNil with
    | true =>
      cases r with
      | nil =>
        cases steps with
        | zero => cases hsteps
        | succ steps =>
          have hscan := Json.scan j hfloats.1 hc.1 steps (']' :: cs) (Nat.le_of_succ_le_succ hsteps)
            (ends_cons cs rfl)
          rw [Items.dumps, List.append_assoc, scanItems]
          exact hscan ▸ rfl
      | cons j' r => cases hnil
    | false =>
      rw [hnil, if_neg Bool.false_ne_true, List.length_cons] at hsteps
      cases steps with
      | zero => cases hsteps
      | succ steps =>
        have hscan := Json.scan j hfloats.1 hc.1 steps (',' :: (r.dumps ++ cs)) (by omega)
          (ends_cons _ rfl)
        obtain ⟨hskip, -⟩ := skip_of_cons (d := ']') cs
          (Items.dumps_eq_cons hnil hfloats.2) (by decide)
        have hcomma : skip (',' :: (r.dumps ++ cs)) = ',' :: (r.dumps ++ cs) :=
          skip_of_head (.inr (by decide))
        rw [Items.dumps, hnil, if_neg Bool.false_ne_true, List.append_assoc, List.cons_append,
          scanItems, hscan, Option.bind_some, hcomma, List.head?_cons, List.tail_cons, hskip,
          Items.scan r hfloats.2 hc.2 hnil steps cs (by omega)]
        rfl

theorem Fields.scan : (r : Fields) → r.Floats → r.Canonical → r.isNil = false → ∀ steps cs,
    r.dumps.length ≤ steps → scanMembers steps (r.dumps ++ cs) = some (r, cs)
  | .nil, _, _, hnil, _, _, _ => by cases hnil
  | .cons k j r, hfloats, hc, _, steps, cs, hsteps => by
    have hkey (rest : List Char) :
        (quote k ++ rest).head? = some '"' ∧
          scanString (quote k ++ rest).tail = some (k, rest) := by
      rw [quote, List.cons_append, List.head?_cons, List.tail_cons, List.append_assoc,
        List.singleton_append, scanString_quote]
      exact ⟨rfl, rfl⟩
    obtain ⟨c, text, hdumps, hc'⟩ := dumps_eq_cons hfloats.1
    have hvalue (rest : List Char) : skip (j.dumps ++ rest) = j.dumps ++ rest :=
      (skip_of_cons (d := ']') rest ⟨c, text, hdumps, hc'⟩ (by decide)).1
    have hcolon (rest : List Char) : skip (':' :: rest) = ':' :: rest :=
      skip_of_head (.inr (by decide))
    rw [Fields.dumps, List.length_append, List.length_cons, List.length_append] at hsteps
    cases steps with
    | zero => omega
    | succ steps =>
      obtain ⟨hhead, hstring⟩ := hkey (':' :: ((j.dumps ++
        if r.isNil then ['}'] else ',' :: r.dumps) ++ cs))
      rw [Fields.dumps, List.append_assoc, List.cons_append, scanMembers, hhead, if_neg (by simp),
        hstring, Option.bind_some, hcolon, List.head?_cons, if_neg (by simp), List.tail_cons,
        List.append_assoc, hvalue]
      cases hnil : r.isNil with
      | true =>
        cases r with
        | nil =>
          have hscan := Json.scan j hfloats.1 hc.1 steps ('}' :: cs) (by omega) (ends_cons cs rfl)
          exact hscan ▸ rfl
        | cons k' j' r => cases hnil
      | false =>
        rw [hnil, if_neg Bool.false_ne_true, List.length_cons] at hsteps
        have hscan := Json.scan j hfloats.1 hc.1 steps (',' :: (r.dumps ++ cs)) (by omega)
          (ends_cons _ rfl)
        obtain ⟨hskip, -⟩ := skip_of_cons (d := ']') cs (Fields.dumps_eq_cons hnil)
          (by decide)
        have hcomma : skip (',' :: (r.dumps ++ cs)) = ',' :: (r.dumps ++ cs) :=
          skip_of_head (.inr (by decide))
        have hfresh : k ∉ r.keys := fun hk => lt_irrefl k (hc.2.1 k hk)
        rw [if_neg Bool.false_ne_true, List.cons_append, hscan, Option.bind_some, hcomma,
          List.head?_cons, List.tail_cons, hskip,
          Fields.scan r hfloats.2 hc.2.2 hnil steps cs (by omega)]
        simp only [Option.some.injEq, Char.reduceEq, if_false, if_true, Option.map_some,
          Fields.member, if_neg hfresh]

end

/-- What was written is read. -/
theorem loads_dumps {j : Json} (hfloats : j.Floats) (hc : j.Canonical) :
    loads j.dumps = some j := by
  have hskip := (skip_of_cons (d := ']') [] (dumps_eq_cons hfloats) (by decide)).1
  have hscan := j.scan hfloats hc j.dumps.length [] le_rfl (fun c hc => by cases hc)
  rw [List.append_nil] at hskip hscan
  rw [loads, hskip, hscan]
  rfl

theorem Json.canonical_object (fs : List (String × Json)) :
    (Json.object fs).canonical = .obj (Fields.ofList fs).canonical := rfl

theorem Json.floats_object {fs : List (String × Json)} (h : ∀ f ∈ fs, f.2.Floats) :
    (Json.object fs).Floats := by
  induction fs with
  | nil => trivial
  | cons f fs ih =>
    exact ⟨h f List.mem_cons_self, ih (fun f hf => h f (List.mem_cons_of_mem _ hf))⟩

mutual

theorem Json.Floats.canonical : (j : Json) → j.Floats → j.canonical.Floats
  | .arr r, h => Items.Floats.canonical r h
  | .obj r, h => Fields.Floats.canonical r h
  | .null, _ => trivial
  | .bool _, _ => trivial
  | .int _, _ => trivial
  | .float _, h => h
  | .str _, _ => trivial

theorem Items.Floats.canonical : (r : Items) → r.Floats → r.canonical.Floats
  | .nil, _ => trivial
  | .cons j r, h => ⟨Json.Floats.canonical j h.1, Items.Floats.canonical r h.2⟩

theorem Fields.Floats.insert {k : String} {j : Json} (hj : j.Floats) :
    (r : Fields) → r.Floats → (r.insert k j).Floats
  | .nil, _ => ⟨hj, trivial⟩
  | .cons k' j' r, h => by
    rw [Fields.insert]
    split_ifs
    · exact ⟨hj, h⟩
    · exact ⟨hj, h.2⟩
    · exact ⟨h.1, Fields.Floats.insert hj r h.2⟩

theorem Fields.Floats.canonical : (r : Fields) → r.Floats → r.canonical.Floats
  | .nil, _ => trivial
  | .cons _ j r, h =>
    Fields.Floats.insert (Json.Floats.canonical j h.1) _ (Fields.Floats.canonical r h.2)

end

def Printable (c : Char) : Prop := ' ' ≤ c ∧ c ≤ '~'

instance (c : Char) : Decidable (Printable c) := inferInstanceAs (Decidable (_ ∧ _))

theorem printable_of_wordChar {c : Char} (h : wordChar c = true) : Printable c := by
  unfold wordChar Char.isAlphanum Char.isAlpha Char.isUpper Char.isLower Char.isDigit at h
  simp only [Bool.or_eq_true, Bool.and_eq_true, decide_eq_true_eq, UInt32.le_iff_toNat_le,
    ge_iff_le] at h
  simp only [Printable, Char.le_def, UInt32.le_iff_toNat_le]
  change 32 ≤ c.val.toNat ∧ c.val.toNat ≤ 126
  have hrange {least most : Char} (hleast : 32 ≤ least.val.toNat) (hmost : most.val.toNat ≤ 126)
      (h : least.val.toNat ≤ c.val.toNat ∧ c.val.toNat ≤ most.val.toNat) :
      32 ≤ c.val.toNat ∧ c.val.toNat ≤ 126 :=
    ⟨le_trans hleast h.1, le_trans h.2 hmost⟩
  rcases h with ((((h | h) | h) | rfl) | rfl) | rfl
  · exact hrange (by decide) (by decide) h
  · exact hrange (by decide) (by decide) h
  · exact hrange (by decide) (by decide) h
  all_goals decide

theorem printable_of_mem_escape {c d : Char} (h : d ∈ escape c) : Printable d := by
  have hescapes : ∀ x ∈ escapes, Printable x.2 := by decide
  have hdigit : ∀ n < 16, Printable (Nat.digitChar n) := by decide
  unfold escape at h
  split at h
  · next e he =>
    simp only [List.mem_cons, List.not_mem_nil, or_false] at h
    rcases h with rfl | rfl
    · decide
    · exact hescapes _ (mem_of_lookup he)
  · split_ifs at h with hc
    · rw [List.mem_singleton.mp h]
      exact hc
    · obtain ⟨u, -, hu⟩ := List.mem_flatMap.mp h
      simp only [unicodeEscape, List.mem_cons, List.not_mem_nil, or_false] at hu
      have hhex (place : ℕ) : Printable (hexDigit u place) :=
        hdigit _ (Nat.mod_lt _ (by decide))
      rcases hu with rfl | rfl | rfl | rfl | rfl | rfl
      · decide
      · decide
      all_goals exact hhex _

theorem printable_of_mem_quote {s : String} {c : Char} (h : c ∈ quote s) : Printable c := by
  simp only [quote, List.mem_cons, List.mem_append, List.mem_flatMap, List.not_mem_nil,
    or_false] at h
  rcases h with rfl | ⟨d, -, h⟩ | rfl
  · decide
  · exact printable_of_mem_escape h
  · decide

mutual

theorem Json.printable : (j : Json) → j.Floats → ∀ c ∈ j.dumps, Printable c
  | .null, _, _, h => printable_of_wordChar (List.all_eq_true.mp word_null _ h)
  | .bool b, _, _, h => printable_of_wordChar (List.all_eq_true.mp (word_bool b) _ h)
  | .int n, _, c, h => printable_of_wordChar (wordChar_of_mem_repr h)
  | .float t, hfloats, c, h => printable_of_wordChar (hfloats.1 c h)
  | .str s, _, c, h => printable_of_mem_quote h
  | .arr r, hfloats, c, h => by
    rw [Json.dumps, List.mem_cons] at h
    split_ifs at h
    · rw [List.mem_singleton] at h
      rcases h with rfl | rfl <;> decide
    · rcases h with rfl | h
      · decide
      · exact Items.printable r hfloats c h
  | .obj r, hfloats, c, h => by
    rw [Json.dumps, List.mem_cons] at h
    split_ifs at h
    · rw [List.mem_singleton] at h
      rcases h with rfl | rfl <;> decide
    · rcases h with rfl | h
      · decide
      · exact Fields.printable r hfloats c h

theorem Items.printable : (r : Items) → r.Floats → ∀ c ∈ r.dumps, Printable c
  | .nil, _, c, h => by cases h
  | .cons j r, hfloats, c, h => by
    rw [Items.dumps, List.mem_append] at h
    rcases h with h | h
    · exact Json.printable j hfloats.1 c h
    split_ifs at h
    · rw [List.mem_singleton.mp h]
      decide
    · rcases List.mem_cons.mp h with rfl | h
      · decide
      · exact Items.printable r hfloats.2 c h

theorem Fields.printable : (r : Fields) → r.Floats → ∀ c ∈ r.dumps, Printable c
  | .nil, _, c, h => by cases h
  | .cons k j r, hfloats, c, h => by
    rw [Fields.dumps, List.mem_append, List.mem_cons, List.mem_append] at h
    rcases h with h | rfl | h | h
    · exact printable_of_mem_quote h
    · decide
    · exact Json.printable j hfloats.1 c h
    split_ifs at h
    · rw [List.mem_singleton.mp h]
      decide
    · rcases List.mem_cons.mp h with rfl | h
      · decide
      · exact Fields.printable r hfloats.2 c h

end

end NoSQLOptimizer.Encoding
