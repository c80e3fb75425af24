import Mathlib.Data.List.Basic
import NoSQLOptimizer.Encoding.Json

namespace NoSQLOptimizer.Encoding

/-- `ESCAPE_DCT`: what stands for a character behind a backslash. -/
def escapes : List (Char × Char) :=
  [('"', '"'), ('\\', '\\'), ('\n', 'n'), ('\r', 'r'), ('\t', 't'), ('\x0c', 'f'), ('\x08', 'b')]

/-- The code units of a character in UTF-16. -/
def codeUnits (c : Char) : List ℕ :=
  if c.toNat < 0x10000 then [c.toNat]
  else [0xd800 + (c.toNat - 0x10000) / 0x400, 0xdc00 + (c.toNat - 0x10000) % 0x400]

def hexDigit (u place : ℕ) : Char := Nat.digitChar (u / 16 ^ place % 16)

def unicodeEscape (u : ℕ) : List Char :=
  ['\\', 'u', hexDigit u 3, hexDigit u 2, hexDigit u 1, hexDigit u 0]

def escape (c : Char) : List Char :=
  match escapes.lookup c with
  | some e => ['\\', e]
  | none => if ' ' ≤ c ∧ c ≤ '~' then [c] else (codeUnits c).flatMap unicodeEscape

/-- `py_encode_basestring_ascii`. -/
def quote (s : String) : List Char := '"' :: (s.toList.flatMap escape ++ ['"'])

def Items.isNil : Items → Bool
  | .nil => true
  | .cons _ _ => false

def Fields.isNil : Fields → Bool
  | .nil => true
  | .cons _ _ _ => false

mutual

/-- The text of `json.dumps(.., separators=(",", ":"))`. -/
def Json.dumps : Json → List Char
  | .null => "null".toList
  | .bool b => (if b then "true" else "false").toList
  | .int n => n.repr.toList
  | .float t => t.toList
  | .str s => quote s
  | .arr r => '[' :: if r.isNil then [']'] else r.dumps
  | .obj r => '{' :: if r.isNil then ['}'] else r.dumps

def Items.dumps : Items → List Char
  | .nil => []
  | .cons j r => j.dumps ++ if r.isNil then [']'] else ',' :: r.dumps

def Fields.dumps : Fields → List Char
  | .nil => []
  | .cons k j r => quote k ++ ':' :: (j.dumps ++ if r.isNil then ['}'] else ',' :: r.dumps)

end

def hexValue (c : Char) : Option ℕ :=
  if c.isDigit then some (c.toNat - 48)
  else if 'a' ≤ c ∧ c ≤ 'f' then some (c.toNat - 87)
  else if 'A' ≤ c ∧ c ≤ 'F' then some (c.toNat - 55)
  else none

/-- `BACKSLASH`. -/
def backslash : List (Char × Char) := ('/', '/') :: escapes.map Prod.swap

/-- Where in an escape the scan of a string is: so many digits are to come, and this is what those
before them make. -/
inductive Pending
  | plain
  | escape
  | unicode (digits u : ℕ)

/-- `scanstring`: the code units up to the closing quote, and what is behind it. -/
def scanUnits : Pending → List Char → Option (List ℕ × List Char)
  | _, [] => none
  | .plain, c :: cs =>
    if c = '"' then some ([], cs)
    else if c = '\\' then scanUnits .escape cs
    else if c < ' ' then none
    else (scanUnits .plain cs).map (fun x => (c.toNat :: x.1, x.2))
  | .escape, e :: cs =>
    if e = 'u' then scanUnits (.unicode 3 0) cs
    else (backslash.lookup e).bind (fun c =>
      (scanUnits .plain cs).map (fun x => (c.toNat :: x.1, x.2)))
  | .unicode 0 u, d :: cs =>
    (hexValue d).bind (fun v =>
      (scanUnits .plain cs).map (fun x => ((u * 16 + v) :: x.1, x.2)))
  | .unicode (n + 1) u, d :: cs =>
    (hexValue d).bind (fun v => scanUnits (.unicode n (u * 16 + v)) cs)

/-- The characters of code units, behind the first half of a pair or not.  A half of a pair on its
own is no character. -/
def joinUnits : Option ℕ → List ℕ → Option (List Char)
  | none, [] => some []
  | some _, [] => none
  | none, u :: us =>
    if 0xd800 ≤ u ∧ u < 0xdc00 then joinUnits (some u) us
    else if 0xdc00 ≤ u ∧ u < 0xe000 then none
    else (joinUnits none us).map (Char.ofNat u :: ·)
  | some u, v :: us =>
    if 0xdc00 ≤ v ∧ v < 0xe000 then
      (joinUnits none us).map (Char.ofNat (0x10000 + (u - 0xd800) * 0x400 + (v - 0xdc00)) :: ·)
    else none

def scanString (cs : List Char) : Option (String × List Char) :=
  (scanUnits .plain cs).bind (fun x => (joinUnits none x.1).map (fun s => (String.ofList s, x.2)))

/-- What a number, a name or a part of one consists of.  Behind a value there is none of them. -/
def wordChar (c : Char) : Bool := c.isAlphanum || c = '-' || c = '+' || c = '.'

/-- An exponent, or nothing. -/
def isExponent : List Char → Bool
  | [] => true
  | e :: cs =>
    let digits := if cs.head? = some '+' ∨ cs.head? = some '-' then cs.tail else cs
    (e = 'e' ∨ e = 'E') ∧ digits ≠ [] ∧ digits.all Char.isDigit

/-- A fraction and an exponent, or one of them. -/
def isFraction : List Char → Bool
  | [] => false
  | c :: cs =>
    if c = '.' then cs.takeWhile Char.isDigit ≠ [] ∧ isExponent (cs.dropWhile Char.isDigit)
    else isExponent (c :: cs)

/-- `NUMBER_RE`.  A float keeps its text. -/
def readNumberWord (word : List Char) : Option Json :=
  let unsigned := if word.head? = some '-' then word.tail else word
  let whole := unsigned.takeWhile Char.isDigit
  let rest := unsigned.dropWhile Char.isDigit
  let n := Nat.ofDigitChars 10 whole 0
  if Nat.toDigits 10 n ≠ whole then none
  else if rest = [] then some (.int (if word.head? = some '-' then -n else n))
  else if isFraction rest then some (.float (String.ofList word))
  else none

def literals : List (String × Json) :=
  [("null", .null), ("true", .bool true), ("false", .bool false), ("NaN", .float "NaN"),
    ("Infinity", .float "Infinity"), ("-Infinity", .float "-Infinity")]

def readWord (word : List Char) : Option Json :=
  (literals.lookup (String.ofList word)).or (readNumberWord word)

def scanWord (cs : List Char) : Option (Json × List Char) :=
  (readWord (cs.takeWhile wordChar)).map (fun j => (j, cs.dropWhile wordChar))

/-- `WHITESPACE`. -/
def skip (cs : List Char) : List Char := cs.dropWhile (fun c => [' ', '\t', '\n', '\r'].contains c)

/-- Of members of one name the last counts. -/
def Fields.member (name : String) (v : Json) (r : Fields) : Fields :=
  if name ∈ r.keys then r else .cons name v r

mutual

/-- `scan_once`, with so many steps to go. -/
def scanOnce : ℕ → List Char → Option (Json × List Char)
  | 0, _ => none
  | _ + 1, [] => none
  | steps + 1, c :: cs =>
    if c = '"' then (scanString cs).map (fun x => (.str x.1, x.2))
    else if c = '[' then
      if (skip cs).head? = some ']' then some (.arr .nil, (skip cs).tail)
      else (scanItems steps (skip cs)).map (fun x => (.arr x.1, x.2))
    else if c = '{' then
      if (skip cs).head? = some '}' then some (.obj .nil, (skip cs).tail)
      else (scanMembers steps (skip cs)).map (fun x => (.obj x.1, x.2))
    else scanWord (c :: cs)

/-- `JSONArray`, from its first value on. -/
def scanItems : ℕ → List Char → Option (Items × List Char)
  | 0, _ => none
  | steps + 1, cs =>
    (scanOnce steps cs).bind (fun x =>
      if (skip x.2).head? = some ']' then some (.cons x.1 .nil, (skip x.2).tail)
      else if (skip x.2).head? = some ',' then
        (scanItems steps (skip (skip x.2).tail)).map (fun y => (.cons x.1 y.1, y.2))
      else none)

/-- `JSONObject`, from its first key on. -/
def scanMembers : ℕ → List Char → Option (Fields × List Char)
  | 0, _ => none
  | steps + 1, cs =>
    if cs.head? ≠ some '"' then none
    else (scanString cs.tail).bind (fun k =>
      if (skip k.2).head? ≠ some ':' then none
      else (scanOnce steps (skip (skip k.2).tail)).bind (fun x =>
        if (skip x.2).head? = some '}' then some (.cons k.1 x.1 .nil, (skip x.2).tail)
        else if (skip x.2).head? = some ',' then
          (scanMembers steps (skip (skip x.2).tail)).map (fun y => (y.1.member k.1 x.1, y.2))
        else none))

end

/-- `json.loads`; `none` where it raises.  No value takes more steps than it has characters. -/
def loads (cs : List Char) : Option Json :=
  (scanOnce cs.length (skip cs)).bind (fun x => if skip x.2 = [] then some x.1 else none)

example : loads "\x7b\"arm\": \"b\\u00e9\", \"p\":[1.5, -2,null]\x7d".toList =
    some (.object [("arm", .str "bé"), ("p", Json.list [.float "1.5", .int (-2), .null])]) := by
  decide +kernel

end NoSQLOptimizer.Encoding
