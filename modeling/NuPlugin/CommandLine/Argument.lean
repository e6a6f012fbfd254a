import NuPlugin.CommandLine.Usage

/-!
# Arguments

What each argument is, told from its text alone. All are classified before any takes effect.
-/

namespace NuPlugin.CommandLine

inductive Argument where
  | positional (s : String)
  /-- The two dashes behind which every argument is positional. -/
  | separator
  | option (o : OptionName) (value : Option String)
  /-- A letter behind a dash, with more characters behind it. -/
  | cluster (first : OptionName) (more : List Char)
  | unknown (s : String)
  deriving DecidableEq

namespace Argument

/-! ## Negative numbers -/

/-- Digits, or any number of digits, a point and digits. -/
def isNumeral (s : List Char) : Bool :=
  match s.dropWhile Text.isDecimalDigit with
  | [] => s ≠ []
  | '.' :: fraction => fraction ≠ [] && fraction.all Text.isDecimalDigit
  | _ => false

/-- A dash and a numeral. One newline at the end is overlooked. -/
def isNegativeNumber : List Char → Bool
  | '-' :: s => isNumeral (if s.getLast? = some '\n' then s.dropLast else s)
  | _ => false

/-! ## Classification -/

def splitValue (s : List Char) : List Char × Option (List Char) :=
  match s.dropWhile (· ≠ '=') with
  | [] => (s, none)
  | _ :: value => (s.takeWhile (· ≠ '='), some value)

def unnamed (s : String) : Argument :=
  if isNegativeNumber s.toList || s.toList.contains ' ' then .positional s else .unknown s

def ofLetter (o : OptionName) (more : List Char) : Argument :=
  if more = [] then .option o (some "") else .cluster o more

/-- An argument of two dashes and more. An option may be cut short as long as no other begins
with the same characters. -/
def classifyLong (s : String) : Except Misuse Argument :=
  let (name, value) := splitValue s.toList
  let value := value.map String.ofList
  match OptionName.ofLong? name with
  | some o => .ok (.option o value)
  | none =>
    match OptionName.abbreviatedBy name with
    | [] => .ok (unnamed s)
    | [o] => .ok (.option o value)
    | options => .error (.ambiguous s options)

def classifyShort (s : String) (letter : Char) (more : List Char) : Argument :=
  match OptionName.ofLetter? letter, more with
  | none, _ => unnamed s
  | some o, [] => .option o none
  | some o, '=' :: value => ofLetter o value
  | some o, more => .cluster o more

def classify (s : String) : Except Misuse Argument :=
  match s.toList with
  | '-' :: '-' :: _ => classifyLong s
  | '-' :: letter :: more => .ok (classifyShort s letter more)
  | _ => .ok (.positional s)

def classifyAll : List String → Except Misuse (List Argument)
  | [] => .ok []
  | s :: rest =>
    if s = "--" then .ok (.separator :: rest.map .positional)
    else do
      let first ← classify s
      let more ← classifyAll rest
      return first :: more

end Argument

end NuPlugin.CommandLine
