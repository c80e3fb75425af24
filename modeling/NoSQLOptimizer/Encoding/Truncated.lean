import NoSQLOptimizer.Encoding.Loads

namespace NoSQLOptimizer.Encoding

section

variable (more : List Char)

theorem scanUnits_append {pending : Pending} {cs : List Char} {x : List ℕ × List Char}
    (h : scanUnits pending cs = some x) :
    scanUnits pending (cs ++ more) = some (x.1, x.2 ++ more) := by
  fun_induction scanUnits pending cs generalizing x with
  | case1 => cases h
  | case2 cs =>
    cases h
    simp [scanUnits]
  | case3 cs hquote ih => simpa [scanUnits, hquote] using ih h
  | case4 => cases h
  | case5 c cs hquote hback hspace ih =>
    obtain ⟨y, hy, rfl⟩ := Option.map_eq_some_iff.mp h
    simp [scanUnits, hquote, hback, hspace, ih hy]
  | case6 cs ih => simpa [scanUnits] using ih h
  | case7 e cs hu ih =>
    obtain ⟨c, hc, h⟩ := Option.bind_eq_some_iff.mp h
    obtain ⟨y, hy, rfl⟩ := Option.map_eq_some_iff.mp h
    simp [scanUnits, hu, hc, ih hy]
  | case8 u d cs ih =>
    obtain ⟨v, hv, h⟩ := Option.bind_eq_some_iff.mp h
    obtain ⟨y, hy, rfl⟩ := Option.map_eq_some_iff.mp h
    simp [scanUnits, hv, ih hy]
  | case9 n u d cs ih =>
    obtain ⟨v, hv, h⟩ := Option.bind_eq_some_iff.mp h
    simp [scanUnits, hv, ih v h]

theorem scanString_append {cs : List Char} {x : String × List Char} (h : scanString cs = some x) :
    scanString (cs ++ more) = some (x.1, x.2 ++ more) := by
  obtain ⟨y, hy, h⟩ := Option.bind_eq_some_iff.mp h
  obtain ⟨s, hs, rfl⟩ := Option.map_eq_some_iff.mp h
  rw [scanString, scanUnits_append more hy, Option.bind_some, hs]
  rfl

theorem dropWhile_append_of_ne_nil {p : Char → Bool} {cs : List Char} (h : cs.dropWhile p ≠ []) :
    (cs ++ more).dropWhile p = cs.dropWhile p ++ more ∧
      (cs ++ more).takeWhile p = cs.takeWhile p := by
  induction cs with
  | nil => exact absurd rfl h
  | cons c cs ih =>
    cases hc : p c with
    | false => simp [hc]
    | true =>
      rw [List.dropWhile_cons_of_pos hc] at h
      simp [hc, ih h]

theorem skip_append {cs : List Char} {c : Char} (h : (skip cs).head? = some c) :
    skip (cs ++ more) = skip cs ++ more ∧ (skip (cs ++ more)).head? = some c ∧
      (skip (cs ++ more)).tail = (skip cs).tail ++ more := by
  have hne : skip cs ≠ [] := by
    intro hnil
    rw [hnil] at h
    cases h
  have hskip : skip (cs ++ more) = skip cs ++ more := (dropWhile_append_of_ne_nil more hne).1
  rw [hskip]
  cases hcs : skip cs with
  | nil => exact absurd hcs hne
  | cons d cs' =>
    rw [hcs] at h
    exact ⟨rfl, h, rfl⟩

theorem scanWord_append_of_ne_nil {cs : List Char} {x : Json × List Char} (h : scanWord cs = some x)
    (hne : x.2 ≠ []) : scanWord (cs ++ more) = some (x.1, x.2 ++ more) := by
  obtain ⟨j, hj, rfl⟩ := Option.map_eq_some_iff.mp h
  obtain ⟨hdrop, htake⟩ := dropWhile_append_of_ne_nil more hne
  rw [scanWord, htake, hdrop, hj]
  rfl

theorem exists_head_of_ne_nil {cs : List Char} (h : cs ≠ []) : ∃ c, cs.head? = some c := by
  cases cs with
  | nil => exact absurd rfl h
  | cons c cs => exact ⟨c, rfl⟩

theorem scanOnce_nil (steps : ℕ) : scanOnce steps [] = none := by
  cases steps <;> rfl

theorem scanItems_nil (steps : ℕ) : scanItems steps [] = none := by
  cases steps with
  | zero => rfl
  | succ steps => rw [scanItems, scanOnce_nil, Option.bind_none]

theorem scanMembers_nil (steps : ℕ) : scanMembers steps [] = none := by
  cases steps <;> rfl

/-- What stands between brackets. -/
theorem enclosed_append (scan scan' : List Char → Option (Json × List Char)) {close : Char}
    {empty : Json} {cs : List Char} {x : Json × List Char} (hnil : scan [] = none)
    (hscan : ∀ cs x, scan cs = some x → scan' (cs ++ more) = some (x.1, x.2 ++ more))
    (h : (if (skip cs).head? = some close then some (empty, (skip cs).tail)
      else scan (skip cs)) = some x) :
    (if (skip (cs ++ more)).head? = some close then some (empty, (skip (cs ++ more)).tail)
      else scan' (skip (cs ++ more))) = some (x.1, x.2 ++ more) := by
  by_cases hclose : (skip cs).head? = some close
  · obtain ⟨-, hhead, htail⟩ := skip_append more hclose
    rw [if_pos hclose] at h
    cases h
    rw [if_pos hhead, htail]
  · rw [if_neg hclose] at h
    have hne : skip cs ≠ [] := by
      intro hskip
      rw [hskip, hnil] at h
      cases h
    obtain ⟨c, hc⟩ := exists_head_of_ne_nil hne
    obtain ⟨hskip, hhead, -⟩ := skip_append more hc
    rw [if_neg (by rwa [hhead, ← hc]), hskip, hscan _ _ h]

/-- A value that ended before the end of the text is the same whatever comes behind. -/
theorem scan_append : ∀ steps steps', steps ≤ steps' →
    (∀ cs x, scanOnce steps cs = some x → x.2 ≠ [] ∨ cs.head? = some '{' →
      scanOnce steps' (cs ++ more) = some (x.1, x.2 ++ more)) ∧
    (∀ cs x, scanItems steps cs = some x →
      scanItems steps' (cs ++ more) = some (x.1, x.2 ++ more)) ∧
    (∀ cs x, scanMembers steps cs = some x →
      scanMembers steps' (cs ++ more) = some (x.1, x.2 ++ more)) := by
  intro steps
  induction steps with
  | zero =>
    intro steps' _
    refine ⟨fun cs x h => ?_, fun cs x h => ?_, fun cs x h => ?_⟩ <;> cases h
  | succ steps ih =>
    intro steps' hsteps
    cases steps' with
    | zero => cases hsteps
    | succ steps' =>
      obtain ⟨honce, hitems, hmembers⟩ := ih steps' (Nat.le_of_succ_le_succ hsteps)
      have hvalue {cs : List Char} {x : Json × List Char} {c : Char}
          (h : scanOnce steps cs = some x) (hc : (skip x.2).head? = some c) :
          scanOnce steps' (cs ++ more) = some (x.1, x.2 ++ more) := by
        apply honce cs x h
        left
        intro hnil
        rw [hnil] at hc
        cases hc
      refine ⟨?_, ?_, ?_⟩
      · intro cs x h hclosed
        cases cs with
        | nil => cases h
        | cons c cs =>
          rw [scanOnce] at h
          rw [List.cons_append, scanOnce]
          by_cases hquote : c = '"'
          · rw [if_pos hquote] at h
            obtain ⟨y, hy, rfl⟩ := Option.map_eq_some_iff.mp h
            rw [if_pos hquote, scanString_append more hy]
            rfl
          rw [if_neg hquote] at h ⊢
          by_cases hbracket : c = '['
          · rw [if_pos hbracket] at h ⊢
            refine enclosed_append more (fun cs => (scanItems steps cs).map _)
              (fun cs => (scanItems steps' cs).map _) ?_ ?_ h
            · rw [scanItems_nil]
              rfl
            · intro cs x hx
              obtain ⟨y, hy, rfl⟩ := Option.map_eq_some_iff.mp hx
              rw [hitems cs y hy]
              rfl
          rw [if_neg hbracket] at h ⊢
          by_cases hbrace : c = '{'
          · rw [if_pos hbrace] at h ⊢
            refine enclosed_append more (fun cs => (scanMembers steps cs).map _)
              (fun cs => (scanMembers steps' cs).map _) ?_ ?_ h
            · rw [scanMembers_nil]
              rfl
            · intro cs x hx
              obtain ⟨y, hy, rfl⟩ := Option.map_eq_some_iff.mp hx
              rw [hmembers cs y hy]
              rfl
          rw [if_neg hbrace] at h ⊢
          apply scanWord_append_of_ne_nil more h
          rcases hclosed with hne | hhead
          · exact hne
          · exact absurd (Option.some.inj hhead) hbrace
      · intro cs x h
        obtain ⟨y, hy, h⟩ := Option.bind_eq_some_iff.mp h
        rw [scanItems]
        split_ifs at h with hend hcomma
        · obtain ⟨hskip, hhead, htail⟩ := skip_append more hend
          cases h
          rw [hvalue hy hend, Option.bind_some, if_pos hhead, htail]
        · obtain ⟨hskip, hhead, htail⟩ := skip_append more hcomma
          obtain ⟨z, hz, rfl⟩ := Option.map_eq_some_iff.mp h
          have hne : skip (skip y.2).tail ≠ [] := by
            intro hnil
            rw [hnil, scanItems_nil] at hz
            cases hz
          obtain ⟨c, hc⟩ := exists_head_of_ne_nil hne
          rw [hvalue hy hcomma, Option.bind_some, if_neg (by rw [hhead]; simp), if_pos hhead, htail,
            (skip_append more hc).1, hitems _ _ hz]
          rfl
      · intro cs x h
        rw [scanMembers] at h ⊢
        split_ifs at h with hhead
        have hcs : ∃ cs', cs = '"' :: cs' := by
          cases cs with
          | nil => simp at hhead
          | cons c cs => exact ⟨cs, by rw [Option.some.inj (not_not.mp hhead)]⟩
        obtain ⟨cs, rfl⟩ := hcs
        obtain ⟨k, hk, h⟩ := Option.bind_eq_some_iff.mp h
        rw [List.tail_cons] at hk
        split_ifs at h with hcolon
        obtain ⟨-, hcolon, htail⟩ := skip_append more (not_not.mp hcolon)
        obtain ⟨y, hy, h⟩ := Option.bind_eq_some_iff.mp h
        have hne : skip (skip k.2).tail ≠ [] := by
          intro hnil
          rw [hnil, scanOnce_nil] at hy
          cases hy
        obtain ⟨c, hc⟩ := exists_head_of_ne_nil hne
        rw [List.cons_append, if_neg (by simp), List.tail_cons, scanString_append more hk,
          Option.bind_some, if_neg (by rw [hcolon]; simp), htail, (skip_append more hc).1]
        split_ifs at h with hend hcomma
        · obtain ⟨-, hhead, htail⟩ := skip_append more hend
          cases h
          rw [hvalue hy hend, Option.bind_some, if_pos hhead, htail]
        · obtain ⟨-, hhead, htail⟩ := skip_append more hcomma
          obtain ⟨z, hz, rfl⟩ := Option.map_eq_some_iff.mp h
          have hne : skip (skip y.2).tail ≠ [] := by
            intro hnil
            rw [hnil, scanMembers_nil] at hz
            cases hz
          obtain ⟨c, hc⟩ := exists_head_of_ne_nil hne
          rw [hvalue hy hcomma, Option.bind_some, if_neg (by rw [hhead]; simp), if_pos hhead, htail,
            (skip_append more hc).1, hmembers _ _ hz]
          rfl

end

/-- Of an object's text no part that ends before it does is read. -/
theorem loads_eq_none_of_start {r : Fields} {cs : List Char} (hfloats : r.Floats)
    (hc : r.Canonical) (hstart : cs <+: (Json.obj r).dumps) (hne : cs ≠ (Json.obj r).dumps) :
    loads cs = none := by
  obtain ⟨more, hmore⟩ := hstart
  cases cs with
  | nil => rfl
  | cons c cs =>
    have hbrace : c = '{' := (List.cons.inj hmore).1
    have hskip : skip (c :: cs) = c :: cs := skip_of_head (.inr (by rw [hbrace]; decide))
    rw [loads, hskip]
    cases hscan : scanOnce (c :: cs).length (c :: cs) with
    | none => rfl
    | some x =>
      rw [Option.bind_some]
      split
      · next hrest =>
        have hfull := (Json.obj r).scan hfloats hc (Json.obj r).dumps.length []
          le_rfl (fun c hc => by cases hc)
        rw [List.append_nil] at hfull
        have hlength : (c :: cs).length ≤ (Json.obj r).dumps.length := by
          rw [← hmore, List.length_append]
          exact Nat.le_add_right _ _
        have hagain := (scan_append more _ _ hlength).1 _ _ hscan (.inr (by rw [hbrace]; rfl))
        rw [hmore, hfull, Option.some.injEq, Prod.mk.injEq] at hagain
        obtain ⟨-, hnil⟩ := List.append_eq_nil_iff.mp hagain.2.symm
        rw [hnil, List.append_nil] at hmore
        exact absurd hmore hne
      · rfl

end NoSQLOptimizer.Encoding
