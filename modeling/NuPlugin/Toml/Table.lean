import NuPlugin.Toml.Fault

/-!
# Tables and marks

What a TOML document denotes. A table grows along paths of names: a step finds or makes the table
below a name, and an array there stands for its last element. Marks say which names may no longer
be declared or changed. A mark belongs to a full name, the names from the top table down to a place.
-/

namespace NuPlugin.Toml

/-! ## Tables -/

/-- A value. Numbers, dates, times and truth values are told apart from the rest, not from one
another. -/
inductive Value where
  | text (s : String)
  | scalar
  | array (items : List Value)
  | table (entries : List (String × Value))

abbrev Table := List (String × Value)

def Value.isContainer : Value → Bool
  | .array _ => true
  | .table _ => true
  | _ => false

namespace Table

def find? (t : Table) (name : String) : Option Value := t.lookup name

def put (name : String) (value : Value) : Table → Table
  | [] => [(name, value)]
  | entry :: t => if entry.1 = name then (name, value) :: t else entry :: put name value t

/-- The table that a step into `value` reaches, and the value with that table changed. -/
def enter : Option Value → Option (Table × (Table → Value))
  | none => some ([], .table)
  | some (.table t) => some (t, .table)
  | some (.array items) =>
    match items.getLast? with
    | some (.table t) => some (t, fun t => .array (items.dropLast ++ [.table t]))
    | _ => none
  | some _ => none

def update (change : Table → Except Cause Table) : List String → Table → Except Cause Table
  | [], t => change t
  | name :: path, t =>
    match enter (t.find? name) with
    | none => .error .overwritten
    | some (inner, close) => do
      let inner ← update change path inner
      return t.put name (close inner)

def add (name : String) (value : Value) (taken : Cause) (t : Table) : Except Cause Table :=
  match t.find? name with
  | none => .ok (t.put name value)
  | some _ => .error taken

def extend (name : String) (t : Table) : Except Cause Table :=
  match t.find? name with
  | none => .ok (t.put name (.array [.table []]))
  | some (.array items) => .ok (t.put name (.array (items ++ [.table []])))
  | some _ => .error .overwritten

end Table

/-! ## Marks -/

/-- A `declared` name has had its header. A `frozen` one, with all below it, is closed to later
statements. The `pending` ones count as declared from the next header on. -/
structure Marks where
  declared : List (List String)
  frozen : List (List String)
  pending : List (List String)
  deriving DecidableEq

namespace Marks

def none : Marks := ⟨[], [], []⟩

def isDeclared (m : Marks) (names : List String) : Bool := m.declared.contains names

def isFrozen (m : Marks) (names : List String) : Bool :=
  m.frozen.any fun top => top.isPrefixOf names

def declare (m : Marks) (names : List String) : Marks :=
  { m with declared := names :: m.declared }

def freeze (m : Marks) (names : List String) : Marks := { m with frozen := names :: m.frozen }

def await (m : Marks) (names : List (List String)) : Marks :=
  { m with pending := names ++ m.pending }

def settle (m : Marks) : Marks := ⟨m.pending ++ m.declared, m.frozen, []⟩

def forget (m : Marks) (names : List String) : Marks :=
  { m with
    declared := m.declared.filter fun other => !names.isPrefixOf other
    frozen := m.frozen.filter fun other => !names.isPrefixOf other }

end Marks

end NuPlugin.Toml
