import NoSQLOptimizer.QueryShapes.Registry

namespace NoSQLOptimizer.QueryShapes

open Encoding

def Values.toList : Values → List Value
  | .nil => []
  | .cons v vs => v :: vs.toList

namespace Value

/-- What is neither a list nor a dict. -/
def Literal : Value → Prop
  | .list _ => False
  | .dict _ => False
  | _ => True

/-- Two literals of one type. -/
def SameType : Value → Value → Prop
  | .none, .none => True
  | .bool _, .bool _ => True
  | .int _, .int _ => True
  | .float _, .float _ => True
  | .str _, .str _ => True
  | .other typeName _, .other typeName' _ => typeName = typeName'
  | _, _ => False

def IsString : Value → Prop
  | .str _ => True
  | _ => False

end Value

/-- The literals of a value. -/
inductive Occurs (leaf : Value) : Value → Prop
  | literal (h : leaf.Literal) : Occurs leaf leaf
  | list {vs : Values} {v : Value} (hv : v ∈ vs.toList) (h : Occurs leaf v) : Occurs leaf (.list vs)
  | dict {d : Document} {name : String} {v : Value} (hv : d.lookup name = some v)
      (h : Occurs leaf v) : Occurs leaf (.dict d)

/-- What a JSON text can hold: no literal is of a type of its own. -/
def JsonShaped (v : Value) : Prop :=
  ∀ typeName text, ¬ Occurs (.other typeName text) v

/-- One key structure and one length of every list, with related literals at every place. -/
inductive Alike (R : Value → Value → Prop) : Value → Value → Prop
  | literal {v v' : Value} (hv : v.Literal) (hv' : v'.Literal) (h : R v v') : Alike R v v'
  | list {vs vs' : Values} (hlength : vs.toList.length = vs'.toList.length)
      (h : ∀ (i : ℕ) (v v' : Value), vs.toList[i]? = some v → vs'.toList[i]? = some v' →
        Alike R v v') : Alike R (.list vs) (.list vs')
  | dict {d d' : Document} (hnames : ∀ name, (d.lookup name).isSome = (d'.lookup name).isSome)
      (h : ∀ name v v', d.lookup name = some v → d'.lookup name = some v' → Alike R v v') :
      Alike R (.dict d) (.dict d')

theorem Alike.nil {R : Value → Value → Prop} : Alike R (.dict .nil) (.dict .nil) :=
  .dict (fun _ => rfl) (fun _ _ _ hv => nomatch hv)

theorem Alike.cons {R : Value → Value → Prop} {v v' : Value} {d d' : Document} (name : String)
    (hv : Alike R v v') (h : Alike R (.dict d) (.dict d')) :
    Alike R (.dict (.cons name v d)) (.dict (.cons name v' d')) := by
  cases h with
  | literal hd => cases hd
  | dict hnames h =>
    apply Alike.dict
    · intro k
      unfold Document.lookup
      split
      · rfl
      · exact hnames k
    · intro k w w' hw hw'
      unfold Document.lookup at hw hw'
      split at hw
      · next hk =>
        rw [if_pos hk, Option.some.injEq] at hw'
        rw [Option.some.injEq] at hw
        exact hw ▸ hw' ▸ hv
      · next hk =>
        rw [if_neg hk] at hw'
        exact h k w w' hw hw'

/-- The same structure with the same types of literals. -/
abbrev SameShape : Value → Value → Prop := Alike Value.SameType

/-- The same structure, whatever the literals. -/
abbrev SameStructure : Value → Value → Prop := Alike (fun _ _ => True)

/-- Induction over the items of lists and the values of dicts. -/
@[elab_as_elim]
theorem Value.induct {P : Value → Prop} (literal : ∀ v : Value, v.Literal → P v)
    (list : ∀ vs : Values, (∀ v ∈ vs.toList, P v) → P (.list vs))
    (dict : ∀ d : Document, (∀ name v, d.lookup name = some v → P v) → P (.dict d)) (v : Value) :
    P v := by
  refine @Value.rec P (fun vs => ∀ v ∈ vs.toList, P v)
    (fun d => ∀ name v, d.lookup name = some v → P v) (literal _ trivial)
    (fun _ => literal _ trivial) (fun _ => literal _ trivial) (fun _ => literal _ trivial)
    (fun _ => literal _ trivial) (fun _ _ => literal _ trivial) list dict ?_ ?_ ?_ ?_ v
  · exact fun v hv => absurd hv List.not_mem_nil
  · intro w vs hw hvs v hv
    rcases List.mem_cons.mp hv with rfl | hv
    · exact hw
    · exact hvs v hv
  · exact fun name v hv => nomatch hv
  · intro k w d hw hd name v hv
    unfold Document.lookup at hv
    split at hv
    · cases hv
      exact hw
    · exact hd name v hv

theorem canonicalize_literal {v : Value} (h : v.Literal) : canonicalize v = .str v.typeToken := by
  cases v with
  | list vs => cases h
  | dict d => cases h
  | _ => rfl

theorem Values.toList_canonicalize (vs : Values) :
    vs.canonicalize.toList = vs.toList.map QueryShapes.canonicalize := by
  fun_induction Values.toList vs with
  | case1 => rfl
  | case2 v vs ih => simp only [Values.canonicalize, Items.toList, ih, List.map_cons]

theorem canonicalize_list_inj {vs vs' : Values} :
    canonicalize (.list vs) = canonicalize (.list vs') ↔
      vs.toList.map canonicalize = vs'.toList.map canonicalize := by
  simp only [canonicalize, Json.arr.injEq, ← Values.toList_canonicalize]
  exact ⟨congrArg Items.toList, fun h => Items.toList_injective h⟩

theorem canonicalize_dict_inj {d d' : Document} :
    canonicalize (.dict d) = canonicalize (.dict d') ↔
      ∀ name, (d.lookup name).map canonicalize = (d'.lookup name).map canonicalize := by
  simp only [canonicalize, Json.obj.injEq, ← Document.lookup_canonicalize]
  constructor
  · exact fun h name => congrArg (Fields.lookup name) h
  · exact (Document.canonical_canonicalize d).ext (Document.canonical_canonicalize d')

theorem map_eq_of_isSome_eq {α β : Type} {f : α → β} {o o' : Option α} (hsome : o.isSome = o'.isSome)
    (h : ∀ a a', o = some a → o' = some a' → f a = f a') : o.map f = o'.map f := by
  cases o with
  | none =>
    cases o' with
    | none => rfl
    | some a' => cases hsome
  | some a =>
    cases o' with
    | none => cases hsome
    | some a' => rw [Option.map_some, Option.map_some, h a a' rfl rfl]

/-- A value is canonicalized by its structure and what its literals are taken for. -/
theorem Alike.canonicalize_eq {R : Value → Value → Prop}
    (hR : ∀ v v', R v v' → v.typeToken = v'.typeToken) {v v' : Value} (h : Alike R v v') :
    canonicalize v = canonicalize v' := by
  induction h with
  | literal hv hv' h => rw [canonicalize_literal hv, canonicalize_literal hv', hR _ _ h]
  | list hlength _ ih =>
    rw [canonicalize_list_inj]
    apply List.ext_getElem?
    intro i
    rw [List.getElem?_map, List.getElem?_map]
    apply map_eq_of_isSome_eq
    · rw [Bool.eq_iff_iff, isSome_getElem?, isSome_getElem?, hlength]
    · exact ih i
  | dict hnames _ ih =>
    rw [canonicalize_dict_inj]
    exact fun name => map_eq_of_isSome_eq (hnames name) (ih name)

theorem Value.SameType.typeToken_eq (v v' : Value) (h : v.SameType v') :
    v.typeToken = v'.typeToken := by
  unfold SameType at h
  split at h
  · rfl
  · rfl
  · rfl
  · rfl
  · rfl
  · simp only [typeToken, h]
  · cases h

/-- No literal is left of a value that is canonicalized. -/
theorem SameShape.canonicalize_eq {v v' : Value} (h : SameShape v v') :
    canonicalize v = canonicalize v' :=
  Alike.canonicalize_eq Value.SameType.typeToken_eq h

theorem Value.structural_literal {v : Value} (h : v.Literal) : v.structural = .str v.typeToken := by
  rw [structural, canonicalize_literal h]
  rfl

theorem Values.toList_ofItems (r : Items) :
    (Values.ofItems r).toList = r.toList.map Value.ofJson := by
  fun_induction Items.toList r with
  | case1 => rfl
  | case2 j r ih => simp only [Values.ofItems, Values.toList, ih, List.map_cons]

def Values.structural (vs : Values) : Values := .ofItems vs.canonicalize

theorem structural_list (vs : Values) : (Value.list vs).structural = .list vs.structural := rfl

theorem Values.toList_structural (vs : Values) :
    vs.structural.toList = vs.toList.map Value.structural := by
  rw [structural, toList_ofItems, toList_canonicalize, List.map_map]
  rfl

/-- Once it has been canonicalized, a value is its structure: every literal is a string. -/
theorem Alike.structural {R : Value → Value → Prop} {v v' : Value} (h : Alike R v v') :
    SameShape v.structural v'.structural := by
  induction h with
  | literal hv hv' h =>
    rw [Value.structural_literal hv, Value.structural_literal hv']
    exact .literal trivial trivial trivial
  | list hlength _ ih =>
    rw [structural_list, structural_list]
    refine .list ?_ ?_
    · rw [Values.toList_structural, Values.toList_structural, List.length_map, List.length_map,
        hlength]
    · intro i w w' hw hw'
      rw [Values.toList_structural, List.getElem?_map, Option.map_eq_some_iff] at hw hw'
      obtain ⟨v, hv, rfl⟩ := hw
      obtain ⟨v', hv', rfl⟩ := hw'
      exact ih i v v' hv hv'
  | dict hnames _ ih =>
    rw [structural_dict, structural_dict]
    refine .dict ?_ ?_
    · intro name
      rw [Document.lookup_structural, Document.lookup_structural, Option.isSome_map,
        Option.isSome_map, hnames name]
    · intro name w w' hw hw'
      rw [Document.lookup_structural, Option.map_eq_some_iff] at hw hw'
      obtain ⟨v, hv, rfl⟩ := hw
      obtain ⟨v', hv', rfl⟩ := hw'
      exact ih name v v' hv hv'

section

variable {leaf v : Value} {vs : Values} {d : Document}

theorem occurs_literal (h : v.Literal) : Occurs leaf v ↔ leaf = v := by
  constructor
  · intro hleaf
    cases hleaf with
    | literal => rfl
    | list => cases h
    | dict => cases h
  · rintro rfl
    exact .literal h

theorem occurs_list : Occurs leaf (.list vs) ↔ ∃ v ∈ vs.toList, Occurs leaf v := by
  constructor
  · intro h
    cases h with
    | literal h => cases h
    | list hv h => exact ⟨_, hv, h⟩
  · rintro ⟨v, hv, h⟩
    exact .list hv h

theorem occurs_dict :
    Occurs leaf (.dict d) ↔ ∃ name v, d.lookup name = some v ∧ Occurs leaf v := by
  constructor
  · intro h
    cases h with
    | literal h => cases h
    | dict hv h => exact ⟨_, _, hv, h⟩
  · rintro ⟨name, v, hv, h⟩
    exact .dict hv h

theorem Occurs.isLiteral (h : Occurs leaf v) : leaf.Literal := by
  induction h with
  | literal h => exact h
  | list _ _ ih => exact ih
  | dict _ _ ih => exact ih

theorem typeToken_eq_string_iff (h : leaf.Literal)
    (hjson : ∀ typeName text, leaf ≠ .other typeName text) :
    leaf.typeToken = "<string>" ↔ leaf.IsString := by
  cases leaf with
  | str s => exact iff_of_true rfl trivial
  | other typeName text => exact absurd rfl (hjson typeName text)
  | list vs => cases h
  | dict d => cases h
  | none => exact iff_of_false (by simp [Value.typeToken]) id
  | bool b => exact iff_of_false (by simp [Value.typeToken]) id
  | int n => exact iff_of_false (by simp [Value.typeToken]) id
  | float q => exact iff_of_false (by simp [Value.typeToken]) id

end

/-- Canonicalizing once more changes nothing just where every literal is taken for a string. -/
theorem canonicalize_structural_iff (v : Value) : canonicalize v.structural = canonicalize v ↔
    ∀ leaf, Occurs leaf v → leaf.typeToken = "<string>" := by
  induction v using Value.induct with
  | literal v hv =>
    rw [Value.structural_literal hv, canonicalize_literal hv]
    simp only [canonicalize, Value.typeToken, Json.str.injEq, occurs_literal hv, forall_eq]
    exact eq_comm
  | list vs ih =>
    rw [structural_list, canonicalize_list_inj, Values.toList_structural, List.map_map,
      List.map_inj_left]
    simp only [occurs_list]
    constructor
    · rintro h leaf ⟨v, hv, hleaf⟩
      exact (ih v hv).mp (h v hv) leaf hleaf
    · exact fun h v hv => (ih v hv).mpr (fun leaf hleaf => h leaf ⟨v, hv, hleaf⟩)
  | dict d ih =>
    rw [structural_dict, canonicalize_dict_inj]
    simp only [Document.lookup_structural, Option.map_map, occurs_dict]
    constructor
    · rintro h leaf ⟨name, v, hv, hleaf⟩
      have hname := h name
      rw [hv, Option.map_some, Option.map_some, Option.some.injEq] at hname
      exact (ih name v hv).mp hname leaf hleaf
    · intro h name
      cases hv : d.lookup name with
      | none => rfl
      | some v =>
        rw [Option.map_some, Option.map_some, Option.some.injEq]
        exact (ih name v hv).mpr (fun leaf hleaf => h leaf ⟨name, v, hv, hleaf⟩)

/-- Of what JSON can hold, that is where every literal is a string. -/
theorem canonicalize_structural_iff_strings {v : Value} (h : JsonShaped v) :
    canonicalize v.structural = canonicalize v ↔ ∀ leaf, Occurs leaf v → leaf.IsString := by
  rw [canonicalize_structural_iff]
  apply forall₂_congr
  intro leaf hleaf
  apply typeToken_eq_string_iff hleaf.isLiteral
  rintro typeName text rfl
  exact h typeName text hleaf

/-- In one namespace and of one operation, the payload is told apart by the canonicalized query. -/
theorem register_canonicalShape_inj {sha256 : Json → String} {operation namespaceName : String}
    {query query' : Document} :
    (register sha256 operation namespaceName query none).canonicalShape =
        (register sha256 operation namespaceName query' none).canonicalShape ↔
      canonicalize (.dict query) = canonicalize (.dict query') := by
  constructor
  · intro h
    obtain ⟨r, hr, hquery⟩ := @lookup_query_canonicalShape sha256 operation namespaceName query none
    obtain ⟨r', hr', hquery'⟩ :=
      @lookup_query_canonicalShape sha256 operation namespaceName query' none
    rw [hr, hr', Json.obj.injEq] at h
    rw [h, hquery', Option.some.injEq] at hquery
    exact hquery.symm
  · intro h
    simp only [register, canonicalPayload, h]

end NoSQLOptimizer.QueryShapes
