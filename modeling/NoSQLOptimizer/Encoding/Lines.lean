import NoSQLOptimizer.Encoding.Truncated

namespace NoSQLOptimizer.Encoding

/-- Where `str.splitlines` ends a line. -/
def isLineBreak (c : Char) : Bool :=
  [0x0a, 0x0b, 0x0c, 0x0d, 0x1c, 0x1d, 0x1e, 0x85, 0x2028, 0x2029].contains c.toNat

/-- `str.isspace`. -/
def isSpace (c : Char) : Bool :=
  let n := c.toNat
  (0x09 ≤ n ∧ n ≤ 0x0d) ∨ (0x1c ≤ n ∧ n ≤ 0x20) ∨ (0x2000 ≤ n ∧ n ≤ 0x200a) ∨
    n ∈ [0x85, 0xa0, 0x1680, 0x2028, 0x2029, 0x202f, 0x205f, 0x3000]

/-- `not line.strip()`. -/
def isBlank (line : List Char) : Bool := line.all isSpace

/-- What a text file is read as, behind a carriage return or not. -/
def universalNewlines : Bool → List Char → List Char
  | _, [] => []
  | returned, c :: cs =>
    if c = '\r' then '\n' :: universalNewlines true cs
    else if c = '\n' ∧ returned then universalNewlines false cs
    else c :: universalNewlines false cs

/-- `str.splitlines`, of a text without carriage returns. -/
def splitlines : List Char → List (List Char)
  | [] => []
  | c :: cs =>
    if isLineBreak c then [] :: splitlines cs
    else (c :: (splitlines cs).headD []) :: (splitlines cs).tail

/-- One value on a line. -/
def jsonLines (js : List Json) : List Char := js.flatMap (fun j => j.dumps ++ ['\n'])

/-- The values on the lines that are not blank. -/
def loadLines (cs : List Char) : Option (List Json) :=
  ((splitlines cs).filter (fun line => !isBlank line)).mapM loads

theorem not_isLineBreak {c : Char} (h : Printable c) : isLineBreak c = false := by
  have h1 : 0x20 ≤ c.toNat := h.1
  have h2 : c.toNat ≤ 0x7e := h.2
  simp only [isLineBreak, List.contains_eq_mem, List.mem_cons, List.not_mem_nil, or_false,
    decide_eq_false_iff_not]
  omega

theorem splitlines_append {line : List Char} (h : ∀ c ∈ line, isLineBreak c = false)
    (cs : List Char) : splitlines (line ++ '\n' :: cs) = line :: splitlines cs := by
  induction line with
  | nil => rfl
  | cons c line ih =>
    rw [List.cons_append, splitlines, h c List.mem_cons_self, if_neg Bool.false_ne_true,
      ih (fun c hc => h c (List.mem_cons_of_mem _ hc))]
    rfl

theorem splitlines_of_not_isLineBreak {line : List Char} (h : ∀ c ∈ line, isLineBreak c = false)
    (hne : line ≠ []) : splitlines line = [line] := by
  induction line with
  | nil => exact absurd rfl hne
  | cons c line ih =>
    rw [splitlines, h c List.mem_cons_self, if_neg Bool.false_ne_true]
    cases line with
    | nil => rfl
    | cons c' line =>
      rw [ih (fun c hc => h c (List.mem_cons_of_mem _ hc)) (List.cons_ne_nil _ _)]
      rfl

theorem universalNewlines_of_no_return {cs : List Char} (h : ∀ c ∈ cs, c ≠ '\r') :
    universalNewlines false cs = cs := by
  induction cs with
  | nil => rfl
  | cons c cs ih =>
    rw [universalNewlines, if_neg (h c List.mem_cons_self), if_neg (by simp),
      ih (fun c hc => h c (List.mem_cons_of_mem _ hc))]

/-- An object as it is written on a line. -/
structure Recorded (j : Json) : Prop where
  object : ∃ r, j = .obj r
  floats : j.Floats
  canonical : j.Canonical

theorem Recorded.of_object {fs : List (String × Json)} (h : ∀ f ∈ fs, f.2.Floats) :
    Recorded (Json.object fs).canonical where
  object := ⟨_, Json.canonical_object fs⟩
  floats := Json.Floats.canonical (Json.object fs) (Json.floats_object h)
  canonical := Json.canonical_canonical (Json.object fs)

namespace Recorded

variable {j : Json} (h : Recorded j)
include h

theorem dumps_eq_cons : ∃ cs, j.dumps = '{' :: cs := by
  obtain ⟨r, rfl⟩ := h.object
  exact ⟨_, rfl⟩

theorem printable : ∀ c ∈ j.dumps, Printable c := j.printable h.floats

theorem not_isLineBreak {cs : List Char} (hstart : cs <+: j.dumps) :
    ∀ c ∈ cs, isLineBreak c = false :=
  fun c hc => Encoding.not_isLineBreak (h.printable c (hstart.subset hc))

theorem not_isBlank {cs : List Char} (hstart : cs <+: j.dumps) (hne : cs ≠ []) :
    isBlank cs = false := by
  obtain ⟨text, htext⟩ := h.dumps_eq_cons
  cases cs with
  | nil => exact absurd rfl hne
  | cons c cs =>
    rw [htext] at hstart
    obtain ⟨rfl, -⟩ := List.cons_prefix_cons.mp hstart
    rfl

theorem loads_start {cs : List Char} (hstart : cs <+: j.dumps) (hne : cs ≠ j.dumps) :
    loads cs = none := by
  obtain ⟨r, rfl⟩ := h.object
  exact loads_eq_none_of_start h.floats h.canonical hstart hne

theorem loadLines_cons (cs : List Char) :
    loadLines (j.dumps ++ '\n' :: cs) = (loadLines cs).map (j :: ·) := by
  obtain ⟨text, htext⟩ := h.dumps_eq_cons
  have hblank : isBlank j.dumps = false :=
    h.not_isBlank (List.prefix_refl _) (by rw [htext]; exact List.cons_ne_nil _ _)
  rw [loadLines, splitlines_append (h.not_isLineBreak (List.prefix_refl _)),
    List.filter_cons_of_pos (by rw [hblank]; rfl), List.mapM_cons, loads_dumps h.floats h.canonical]
  cases hrest : ((splitlines cs).filter (fun line => !isBlank line)).mapM loads <;>
    simp [loadLines, hrest]

/-- What is read where a text was cut short in the middle of a line. -/
theorem loadLines_start {cs : List Char} (hstart : cs <+: j.dumps) (hne : cs ≠ []) :
    loadLines cs = if cs = j.dumps then some [j] else none := by
  rw [loadLines, splitlines_of_not_isLineBreak (h.not_isLineBreak hstart) hne,
    List.filter_cons_of_pos (by rw [h.not_isBlank hstart hne]; rfl), List.filter_nil,
    List.mapM_cons, List.mapM_nil]
  split
  · next heq =>
    rw [heq, loads_dumps h.floats h.canonical]
    rfl
  · next hcut =>
    rw [h.loads_start hstart hcut]
    rfl

end Recorded

/-- Nothing is missing but the end of the last line. -/
def Whole (js : List Json) (cs : List Char) : Prop :=
  cs = jsonLines js ∨ cs ++ ['\n'] = jsonLines js

theorem jsonLines_cons (j : Json) (js : List Json) :
    jsonLines (j :: js) = j.dumps ++ '\n' :: jsonLines js := by
  rw [jsonLines, List.flatMap_cons, List.append_assoc]
  rfl

theorem jsonLines_eq_nil {js : List Json} (h : jsonLines js = []) : js = [] := by
  cases js with
  | nil => rfl
  | cons j js =>
    rw [jsonLines_cons] at h
    exact absurd (List.append_eq_nil_iff.mp h).2 (List.cons_ne_nil _ _)

theorem whole_cons (j : Json) (js : List Json) (cs : List Char) :
    Whole (j :: js) (j.dumps ++ '\n' :: cs) ↔ Whole js cs := by
  rw [Whole, Whole, jsonLines_cons, List.append_right_inj, List.cons.injEq, List.append_assoc,
    List.append_right_inj, List.cons_append, List.cons.injEq]
  simp only [true_and]

theorem whole_cons_of_start {j : Json} {js : List Json} {cs : List Char}
    (hstart : cs <+: j.dumps) : Whole (j :: js) cs ↔ cs = j.dumps ∧ js = [] := by
  have hlength := hstart.length_le
  rw [Whole, jsonLines_cons]
  constructor
  · intro h
    have hlengths : cs.length = j.dumps.length ∧ (jsonLines js).length = 0 := by
      rcases h with h | h
      · have hcs := congrArg List.length h
        rw [List.length_append, List.length_cons] at hcs
        omega
      · have hcs := congrArg List.length h
        simp only [List.length_append, List.length_cons, List.length_nil] at hcs
        omega
    exact ⟨hstart.eq_of_length hlengths.1,
      jsonLines_eq_nil (List.eq_nil_of_length_eq_zero hlengths.2)⟩
  · rintro ⟨rfl, rfl⟩
    exact .inr rfl

theorem prefix_cases {text rest cs : List Char} (h : cs <+: text ++ '\n' :: rest) :
    cs <+: text ∨ ∃ cs', cs = text ++ '\n' :: cs' ∧ cs' <+: rest := by
  have htext := List.prefix_append text ('\n' :: rest)
  rcases List.prefix_or_prefix_of_prefix h htext with h' | ⟨t, rfl⟩
  · exact .inl h'
  · rw [List.prefix_append_right_inj] at h
    cases t with
    | nil => exact .inl (by simp)
    | cons c t =>
      obtain ⟨rfl, ht⟩ := List.cons_prefix_cons.mp h
      exact .inr ⟨t, rfl, ht⟩

/-- What is read of lines that were cut short. -/
theorem loadLines_of_start {js : List Json} {cs : List Char} (hjs : ∀ j ∈ js, Recorded j)
    (hstart : cs <+: jsonLines js) :
    (Whole js cs ∧ loadLines cs = some js) ∨
      (¬ Whole js cs ∧ ∀ js', loadLines cs = some js' → ∃ k < js.length, js' = js.take k) := by
  induction js generalizing cs with
  | nil =>
    cases List.prefix_nil.mp hstart
    exact .inl ⟨.inl rfl, rfl⟩
  | cons j js ih =>
    have hj := hjs j List.mem_cons_self
    rw [jsonLines_cons] at hstart
    rcases prefix_cases hstart with hcut | ⟨cs, rfl, hrest⟩
    · rw [whole_cons_of_start hcut]
      by_cases hwhole : cs = j.dumps ∧ js = []
      · obtain ⟨rfl, rfl⟩ := hwhole
        obtain ⟨text, htext⟩ := hj.dumps_eq_cons
        refine .inl ⟨⟨rfl, rfl⟩, ?_⟩
        rw [hj.loadLines_start hcut (by rw [htext]; exact List.cons_ne_nil _ _), if_pos rfl]
      · refine .inr ⟨hwhole, fun js' hload => ?_⟩
        by_cases hnil : cs = []
        · subst hnil
          cases hload
          exact ⟨0, Nat.succ_pos _, rfl⟩
        · rw [hj.loadLines_start hcut hnil] at hload
          split_ifs at hload with hdumps
          cases hload
          have hpos : 0 < js.length := List.length_pos_iff.mpr (fun hjs => hwhole ⟨hdumps, hjs⟩)
          exact ⟨1, Nat.succ_lt_succ hpos, rfl⟩
    · rw [whole_cons, hj.loadLines_cons]
      rcases ih (fun j hj => hjs j (List.mem_cons_of_mem _ hj)) hrest with
        ⟨hwhole, hload⟩ | ⟨hcut, hload⟩
      · rw [hload]
        exact .inl ⟨hwhole, rfl⟩
      · refine .inr ⟨hcut, fun js' h => ?_⟩
        obtain ⟨js', hjs', rfl⟩ := Option.map_eq_some_iff.mp h
        obtain ⟨k, hk, rfl⟩ := hload js' hjs'
        exact ⟨k + 1, Nat.succ_lt_succ hk, rfl⟩

end NoSQLOptimizer.Encoding
