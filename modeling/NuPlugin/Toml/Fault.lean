import NuPlugin.Text.Quoted

/-!
# Faults of a TOML document

What can be wrong with a document, and where. A reader knows a place by the text that is left
there; line and column are counted from that only when a message is written.
-/

namespace NuPlugin.Toml

/-! ## Causes -/

inductive Cause where
  | invalidStatement
  | expectedLineEnd
  /-- A control character in a comment or a literal text. -/
  | invalidCharacter (c : Char)
  /-- A control character in a basic text. -/
  | illegalCharacter (c : Char)
  | invalidKeyPart
  | expectedMark (mark : String)
  | unterminatedText
  | invalidHex
  | notScalar
  | unescapedBackslash
  | invalidDate
  | invalidValue
  | unclosedArray
  | unclosedInlineTable
  | expectedEquals
  | expectedTableEnd
  | expectedArrayEnd
  | immutable (names : List String)
  | redefined (names : List String)
  | declaredTwice (names : List String)
  | duplicateInlineKey (name : String)
  | overwritten
  deriving DecidableEq

open Text in
def Cause.message : Cause → String
  | .invalidStatement => "Invalid statement"
  | .expectedLineEnd => "Expected newline or end of document after a statement"
  | .invalidCharacter c => "Found invalid character " ++ quoted (String.singleton c)
  | .illegalCharacter c => "Illegal character " ++ quoted (String.singleton c)
  | .invalidKeyPart => "Invalid initial character for a key part"
  | .expectedMark mark => "Expected " ++ quoted mark
  | .unterminatedText => "Unterminated string"
  | .invalidHex => "Invalid hex value"
  | .notScalar => "Escaped character is not a Unicode scalar value"
  | .unescapedBackslash => "Unescaped '\\' in a string"
  | .invalidDate => "Invalid date or datetime"
  | .invalidValue => "Invalid value"
  | .unclosedArray => "Unclosed array"
  | .unclosedInlineTable => "Unclosed inline table"
  | .expectedEquals => "Expected '=' after a key in a key/value pair"
  | .expectedTableEnd => "Expected ']' at the end of a table declaration"
  | .expectedArrayEnd => "Expected ']]' at the end of an array declaration"
  | .immutable names => "Cannot mutate immutable namespace " ++ quotedNames names
  | .redefined names => "Cannot redefine namespace " ++ quotedNames names
  | .declaredTwice names => "Cannot declare " ++ quotedNames names ++ " twice"
  | .duplicateInlineKey name => "Duplicate inline table key " ++ quoted name
  | .overwritten => "Cannot overwrite a value"

/-! ## Faults -/

/-- The first thing wrong with a document. An integer past the length limit has no place: its
digits are all right one by one. -/
inductive Fault where
  | malformed (cause : Cause) (rest : List Char)
  | integerTooLong (digits : Nat)
  deriving DecidableEq

def located {α : Type} (rest : List Char) : Except Cause α → Except Fault α :=
  Except.mapError fun cause => .malformed cause rest

/-! ## Locations -/

inductive Location where
  | endOfDocument
  | at (line column : Nat)
  deriving DecidableEq

def Location.of (text : List Char) (position : Nat) : Location :=
  if text.length ≤ position then .endOfDocument
  else
    let before := text.take position
    .at (before.count '\n' + 1) ((before.reverse.takeWhile (· ≠ '\n')).length + 1)

def Location.message : Location → String
  | .endOfDocument => "at end of document"
  | .at line column => s!"at line {line}, column {column}"

def Location.ofRest (text rest : List Char) : Location := .of text (text.length - rest.length)

end NuPlugin.Toml
