import NuPlugin.Toml.Token
import NuPlugin.Toml.Table
import NuPlugin.Toml.Scalar

/-!
# Reading values

Arrays and inline tables are read with a reader for what they hold; `Value.read` is that reader
for every depth that a text can have.
-/

namespace NuPlugin.Toml

abbrev ValueReader := List Char → Except Fault (Value × List Char)

/-! ## Arrays -/

def itemsIn (item : ValueReader) :
    (items : Nat) → List Char → Except Fault (List Value × List Char)
  | 0, s => .error (.malformed .unclosedArray s)
  | items + 1, s => do
    let (v, s) ← item s
    match ← skipBlanks false s with
    | ']' :: rest => return ([v], rest)
    | ',' :: rest =>
      match ← skipBlanks false rest with
      | ']' :: rest => return ([v], rest)
      | rest =>
        let (vs, rest) ← itemsIn item items rest
        return (v :: vs, rest)
    | rest => .error (.malformed .unclosedArray rest)

def arrayAfter (item : ValueReader) (s : List Char) : Except Fault (Value × List Char) := do
  match ← skipBlanks false s with
  | ']' :: rest => return (.array [], rest)
  | rest =>
    let (items, rest) ← itemsIn item (rest.length + 1) rest
    return (.array items, rest)

/-! ## Inline tables -/

def pair (item : ValueReader) (s : List Char) : Except Fault ((Key × Value) × List Char) := do
  let (k, s) ← Key.read s
  match s with
  | '=' :: rest =>
    let (v, rest) ← item (skipSpaces rest)
    return ((k, v), rest)
  | _ => .error (.malformed .expectedEquals s)

def addInline (m : Marks) (t : Table) (k : Key) (v : Value) : Except Cause Table :=
  if m.isFrozen k.names then .error (.immutable k.names)
  else Table.update (Table.add k.name v (.duplicateInlineKey k.name)) k.path t

/-- The pairs of an inline table from one pair on, through the closing brace. A table or an array
is frozen once another pair follows. -/
def pairsIn (item : ValueReader) :
    (pairs : Nat) → Marks → Table → List Char → Except Fault (Table × List Char)
  | 0, _, _, s => .error (.malformed .unclosedInlineTable s)
  | pairs + 1, m, t, s => do
    let ((k, v), s) ← pair item s
    let t ← located s (addInline m t k v)
    match skipSpaces s with
    | '\x7d' :: rest => return (t, rest)
    | ',' :: rest =>
      let m := if v.isContainer then m.freeze k.names else m
      pairsIn item pairs m t (skipSpaces rest)
    | rest => .error (.malformed .unclosedInlineTable rest)

def inlineTableAfter (item : ValueReader) (s : List Char) : Except Fault (Value × List Char) :=
  match skipSpaces s with
  | '\x7d' :: rest => .ok (.table [], rest)
  | rest => do
    let (t, rest) ← pairsIn item (rest.length + 1) .none [] rest
    return (.table t, rest)

/-! ## Values -/

def Value.readIn : (depth : Nat) → ValueReader
  | 0, s => .error (.malformed .invalidValue s)
  | depth + 1, s =>
    match s with
    | [] => .error (.malformed .invalidValue [])
    | c :: rest =>
      if c = '"' ∨ c = '\'' then do
        let (body, rest) ← textAfter c rest
        return (.text (String.ofList body), rest)
      else if c = '[' then arrayAfter (readIn depth) rest
      else if c = '\x7b' then inlineTableAfter (readIn depth) rest
      else do
        let rest ← skipScalar s
        return (.scalar, rest)

/-- Every bracket takes a character, so no value is nested deeper than its text is long. -/
def Value.read : ValueReader := fun s => readIn (s.length + 1) s

end NuPlugin.Toml
