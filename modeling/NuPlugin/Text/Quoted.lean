import NuPlugin.Text.Character

/-!
# Quoted text

How a text is shown inside a message, inside a command of the host, and on the command line of a
shell. What the last two take from such a text is told by a reader beside the writer.
-/

namespace NuPlugin.Text

/-! ## In messages -/

def hexDigits : Nat → Nat → List Char
  | 0, _ => []
  | width + 1, n => hexDigits width (n / 16) ++ [Nat.digitChar (n % 16)]

/-- The shortest of the three numbered forms that holds the character. -/
def numbered (c : Char) : List Char :=
  let n := c.toNat
  if n < 0x100 then '\\' :: 'x' :: hexDigits 2 n
  else if n < 0x10000 then '\\' :: 'u' :: hexDigits 4 n
  else '\\' :: 'U' :: hexDigits 8 n

def quotedChar (quote c : Char) : List Char :=
  if c = quote ∨ c = '\\' then ['\\', c]
  else if c = '\n' then ['\\', 'n']
  else if c = '\r' then ['\\', 'r']
  else if c = '\t' then ['\\', 't']
  else if isPrintable c then [c]
  else numbered c

/-- Double quotes are used for a text that holds a single quote and no double quote. -/
def quoteFor (s : List Char) : Char :=
  if '\'' ∈ s ∧ '"' ∉ s then '"' else '\''

def quotedChars (s : List Char) : List Char :=
  let quote := quoteFor s
  quote :: s.flatMap (quotedChar quote) ++ [quote]

def quoted (s : String) : String := String.ofList (quotedChars s.toList)

example : quoted "it's" = "\"it's\"" := by decide +kernel

example : quoted "\t'\"" = "'\\t\\'\"'" := by decide +kernel

def quotedNames : List String → String
  | [name] => "(" ++ quoted name ++ ",)"
  | names => "(" ++ ", ".intercalate (names.map quoted) ++ ")"

example : quotedNames ["a"] = "('a',)" ∧ quotedNames ["a", "b"] = "('a', 'b')" := by
  decide +kernel

/-! ## In commands of the host -/

namespace DoubleQuoted

def escapedChar (c : Char) : List Char := if c = '"' ∨ c = '\\' then ['\\', c] else [c]

def escaped (s : List Char) : List Char := s.flatMap escapedChar

def writeText (s : List Char) : List Char := '"' :: escaped s ++ ['"']

/-- The text up to the closing quote, and what follows it. Only a quote and a backslash have
escapes of their own here. -/
def readEscaped : List Char → Option (List Char × List Char)
  | [] => none
  | '\\' :: c :: rest =>
    if c = '"' ∨ c = '\\' then (readEscaped rest).map fun (s, after) => (c :: s, after) else none
  | '\\' :: [] => none
  | c :: rest =>
    if c = '"' then some ([], rest)
    else (readEscaped rest).map fun (s, after) => (c :: s, after)

def readText : List Char → Option (List Char × List Char)
  | '"' :: rest => readEscaped rest
  | _ => none

end DoubleQuoted

/-! ## On the command line of a shell -/

namespace ShellWords

def isPlain (c : Char) : Bool := c.isAlphanum || "_@%+=:,./-".toList.contains c

/-! ## Writing -/

/-- Inside single quotes a single quote is written by leaving them: `'"'"'`. -/
def quotedChar (c : Char) : List Char :=
  if c = '\'' then ['\'', '"', '\'', '"', '\''] else [c]

def word (w : List Char) : List Char :=
  if w ≠ [] ∧ w.all isPlain then w else '\'' :: w.flatMap quotedChar ++ ['\'']

def join (words : List String) : String :=
  " ".intercalate (words.map fun w => String.ofList (word w.toList))

example : join ["a", "", "it's"] = "a '' 'it'\"'\"'s'" := by decide +kernel

/-! ## Reading -/

/-- Where a reader stands: between words, or in a word and outside quotes, between single quotes
or between double quotes. The word is kept back to front. -/
inductive State where
  | between
  | bare (word : List Char)
  | single (word : List Char)
  | double (word : List Char)

def isSeparator (c : Char) : Bool := c = ' ' || c = '\t' || c = '\n'

def State.unquoted (word : List Char) (c : Char) : Option State :=
  if c = '\'' then some (.single word)
  else if c = '"' then some (.double word)
  else if isPlain c then some (.bare (c :: word))
  else none

def State.inDouble (word : List Char) (c : Char) : Option State :=
  if c = '"' then some (.bare word)
  else if c = '$' ∨ c = '\u0060' ∨ c = '\\' then none
  else some (.double (c :: word))

/-- The words of a line, or none where a quote stays open or a character is refused. -/
def splitFrom : State → List Char → Option (List (List Char))
  | .between, [] => some []
  | .bare word, [] => some [word.reverse]
  | .single _, [] => none
  | .double _, [] => none
  | .between, c :: rest =>
    if isSeparator c then splitFrom .between rest
    else (State.unquoted [] c).bind fun s => splitFrom s rest
  | .bare word, c :: rest =>
    if isSeparator c then (splitFrom .between rest).map (word.reverse :: ·)
    else (State.unquoted word c).bind fun s => splitFrom s rest
  | .single word, c :: rest =>
    if c = '\'' then splitFrom (.bare word) rest else splitFrom (.single (c :: word)) rest
  | .double word, c :: rest => (State.inDouble word c).bind fun s => splitFrom s rest

def split (line : String) : Option (List String) :=
  (splitFrom .between line.toList).map (·.map String.ofList)

example : split (join ["a", "", "it's"]) = some ["a", "", "it's"] := by decide +kernel

end ShellWords

end NuPlugin.Text
