import NoSQLOptimizer.Encoding.Dumps

namespace NoSQLOptimizer.Encoding

/-- What stands before a value on a line of its own, where lines are indented. -/
def lineBreak : Option ℕ → ℕ → List Char
  | none, _ => []
  | some indent, level => '\n' :: List.replicate (indent * level) ' '

/-- What stands between two values. -/
def itemSeparator (indent : Option ℕ) (level : ℕ) : List Char :=
  match indent with
  | none => [',', ' ']
  | some _ => ',' :: lineBreak indent level

mutual

/-- The text of `json.dumps(.., indent=..)`. -/
def Json.render (indent : Option ℕ) (level : ℕ) : Json → List Char
  | .arr r =>
    if r.isNil then ['[', ']']
    else '[' :: (lineBreak indent (level + 1) ++ r.render indent (level + 1) ++
      lineBreak indent level ++ [']'])
  | .obj r =>
    if r.isNil then ['\x7b', '\x7d']
    else '\x7b' :: (lineBreak indent (level + 1) ++ r.render indent (level + 1) ++
      lineBreak indent level ++ ['\x7d'])
  | .null => Json.null.dumps
  | .bool b => (Json.bool b).dumps
  | .int n => (Json.int n).dumps
  | .float t => (Json.float t).dumps
  | .str s => (Json.str s).dumps

def Items.render (indent : Option ℕ) (level : ℕ) : Items → List Char
  | .nil => []
  | .cons j r => j.render indent level ++
    if r.isNil then [] else itemSeparator indent level ++ r.render indent level

def Fields.render (indent : Option ℕ) (level : ℕ) : Fields → List Char
  | .nil => []
  | .cons k j r => quote k ++ ':' :: ' ' :: (j.render indent level ++
    if r.isNil then [] else itemSeparator indent level ++ r.render indent level)

end

end NoSQLOptimizer.Encoding
