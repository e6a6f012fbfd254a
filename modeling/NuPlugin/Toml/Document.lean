import NuPlugin.Toml.ValueReader

/-!
# Documents

A document is a list of lines, each blank, a comment, a pair or the header of a table or of an
element of an array of tables. Reading stops at the first fault.
-/

namespace NuPlugin.Toml

structure Draft where
  root : Table
  header : List String
  marks : Marks

namespace Draft

def empty : Draft := ⟨[], [], .none⟩

/-! ## Statements -/

/-- The full names of the tables that a key passes through below the header. -/
def passed (d : Draft) (k : Key) : List (List String) :=
  (List.range k.path.length).map fun i => d.header ++ k.path.take (i + 1)

def assign (d : Draft) (k : Key) (v : Value) : Except Cause Draft :=
  let below := d.header ++ k.path
  match (d.passed k).find? d.marks.isDeclared with
  | some names => .error (.redefined names)
  | none =>
    if d.marks.isFrozen below then .error (.immutable below)
    else do
      let root ← Table.update (Table.add k.name v .overwritten) below d.root
      let marks := d.marks.await (d.passed k)
      let marks := if v.isContainer then marks.freeze (d.header ++ k.names) else marks
      return ⟨root, d.header, marks⟩

def openTable (d : Draft) (k : Key) : Except Cause Draft :=
  if d.marks.isDeclared k.names || d.marks.isFrozen k.names then .error (.declaredTwice k.names)
  else do
    let root ← Table.update .ok k.names d.root
    return ⟨root, k.names, d.marks.declare k.names⟩

def openElement (d : Draft) (k : Key) : Except Cause Draft :=
  if d.marks.isFrozen k.names then .error (.immutable k.names)
  else do
    let root ← Table.update (Table.extend k.name) k.path d.root
    return ⟨root, k.names, (d.marks.forget k.names).declare k.names⟩

def settle (d : Draft) : Draft := { d with marks := d.marks.settle }

/-! ## Reading -/

def pairStatement (d : Draft) (s : List Char) : Except Fault (Draft × List Char) := do
  let ((k, v), rest) ← pair Value.read s
  let d ← located rest (d.assign k v)
  return (d, rest)

def tableHeader (d : Draft) (s : List Char) : Except Fault (Draft × List Char) := do
  let (k, rest) ← Key.read (skipSpaces s)
  let d ← located rest (d.openTable k)
  match rest with
  | ']' :: rest => return (d, rest)
  | _ => .error (.malformed .expectedTableEnd rest)

def elementHeader (d : Draft) (s : List Char) : Except Fault (Draft × List Char) := do
  let (k, rest) ← Key.read (skipSpaces s)
  let d ← located rest (d.openElement k)
  match rest with
  | ']' :: ']' :: rest => return (d, rest)
  | _ => .error (.malformed .expectedArrayEnd rest)

def statement (d : Draft) (s : List Char) : Except Fault (Draft × List Char) :=
  match s with
  | '[' :: '[' :: rest => d.settle.elementHeader rest
  | '[' :: rest => d.settle.tableHeader rest
  | '#' :: _ => .ok (d, s)
  | c :: _ => if Key.canBegin c then d.pairStatement s else .error (.malformed .invalidStatement s)
  | [] => .error (.malformed .invalidStatement [])

def lineEnd (s : List Char) : Except Fault (List Char) := do
  match ← skipComment (skipSpaces s) with
  | [] => return []
  | '\n' :: rest => return rest
  | rest => .error (.malformed .expectedLineEnd rest)

def readIn : (lines : Nat) → Draft → List Char → Except Fault Draft
  | 0, d, _ => .ok d
  | lines + 1, d, s =>
    match skipSpaces s with
    | [] => .ok d
    | '\n' :: rest => readIn lines d rest
    | s => do
      let (d, rest) ← d.statement s
      readIn lines d (← lineEnd rest)

end Draft

/-- A line feed after a carriage return is the same newline. -/
def joinNewlines : List Char → List Char
  | '\r' :: '\n' :: rest => '\n' :: joinNewlines rest
  | c :: rest => c :: joinNewlines rest
  | [] => []

/-- The table of a document whose newlines are joined. Every line takes a character. -/
def readDocument (s : List Char) : Except Fault Table := do
  let d ← Draft.readIn (s.length + 1) .empty s
  return d.root

end NuPlugin.Toml
