import NuPlugin.Toml.Fault

/-!
# Blanks, texts and keys

What a TOML document may hold between its tokens, and the tokens that have a spelling to choose: a
text is literal between single quotes or basic between double quotes, on one line or, between
tripled quotes, over several, and a key is made of names joined by dots.
-/

namespace NuPlugin.Toml

/-! ## Character classes -/

def isSpace (c : Char) : Bool := c = ' ' || c = '\t'

def isSpaceOrNewline (c : Char) : Bool := isSpace c || c = '\n'

def isControl (c : Char) : Bool := c.toNat < 0x20 || c.toNat = 0x7F

/-- Refused inside comments and texts: control characters but the tab and, where the text may
have several `lines`, the newline. -/
def isForbidden (lines : Bool) (c : Char) : Bool :=
  isControl c && c ≠ '\t' && !(lines && c = '\n')

/-! ## Skipping -/

def skipSpaces (s : List Char) : List Char := s.dropWhile isSpace

def skipCommentText : List Char → Except Fault (List Char)
  | [] => .ok []
  | c :: rest =>
    if c = '\n' then .ok (c :: rest)
    else if isForbidden false c then .error (.malformed (.invalidCharacter c) (c :: rest))
    else skipCommentText rest

def skipComment : List Char → Except Fault (List Char)
  | '#' :: rest => skipCommentText rest
  | s => .ok s

/-- Skips spaces, newlines and comments, in any number; `inComment` tells whether the text starts
inside a comment. -/
def skipBlanks (inComment : Bool) : List Char → Except Fault (List Char)
  | [] => .ok []
  | c :: rest =>
    if c = '\n' then skipBlanks false rest
    else if inComment then
      if isForbidden false c then .error (.malformed (.invalidCharacter c) (c :: rest))
      else skipBlanks true rest
    else if isSpace c then skipBlanks false rest
    else if c = '#' then skipBlanks true rest
    else .ok (c :: rest)

/-! ## Literal texts -/

def cutAt (mark : List Char) : List Char → Option (List Char × List Char)
  | [] => none
  | c :: rest =>
    if mark.isPrefixOf (c :: rest) then some ([], (c :: rest).drop mark.length)
    else (cutAt mark rest).map fun (before, after) => (c :: before, after)

def closingMark (lines : Bool) (quote : Char) : List Char :=
  if lines then [quote, quote, quote] else [quote]

/-- A text without escapes, up to its closing mark. The mark is looked for in all that is left, so
a forbidden character is seen only where there is one. -/
def literal (lines : Bool) (s : List Char) : Except Fault (List Char × List Char) :=
  let mark := closingMark lines '\''
  match cutAt mark s with
  | none => .error (.malformed (.expectedMark (String.ofList mark)) [])
  | some (body, rest) =>
    match body.find? (isForbidden lines) with
    | some c =>
      .error (.malformed (.invalidCharacter c) (s.dropWhile fun c => !isForbidden lines c))
    | none => .ok (body, rest)

/-! ## Escapes -/

def hexValue? (c : Char) : Option Nat :=
  let n := c.toNat
  if '0' ≤ c ∧ c ≤ '9' then some (n - 48)
  else if 'a' ≤ c ∧ c ≤ 'f' then some (n - 87)
  else if 'A' ≤ c ∧ c ≤ 'F' then some (n - 55)
  else none

def hexNumber? (digits : List Char) : Option Nat :=
  digits.foldlM (fun n c => (hexValue? c).map (n * 16 + ·)) 0

def hexChar (width : Nat) (s : List Char) : Except Fault (List Char × List Char) :=
  let digits := s.take width
  match if digits.length = width then hexNumber? digits else none with
  | none => .error (.malformed .invalidHex s)
  | some n =>
    let rest := s.drop width
    if n.isValidChar then .ok ([Char.ofNat n], rest) else .error (.malformed .notScalar rest)

def shortEscape? : Char → Option Char
  | 'b' => some '\x08'
  | 't' => some '\t'
  | 'n' => some '\n'
  | 'f' => some '\x0c'
  | 'r' => some '\r'
  | '"' => some '"'
  | '\\' => some '\\'
  | _ => none

/-- What a backslash stands for, read from after it. Where the text may have several lines, a
backslash at the end of one is left out together with the blanks that follow. -/
def escape (lines : Bool) : List Char → Except Fault (List Char × List Char)
  | [] => .error (.malformed .unescapedBackslash [])
  | c :: rest =>
    if lines && c = '\n' then .ok ([], rest.dropWhile isSpaceOrNewline)
    else if lines && isSpace c then
      match skipSpaces rest with
      | [] => .ok ([], [])
      | d :: after =>
        if d = '\n' then .ok ([], after.dropWhile isSpaceOrNewline)
        else .error (.malformed .unescapedBackslash (d :: after))
    else if c = 'u' then hexChar 4 rest
    else if c = 'U' then hexChar 8 rest
    else
      match shortEscape? c with
      | some d => .ok ([d], rest)
      | none => .error (.malformed .unescapedBackslash rest)

/-! ## Basic texts -/

/-- A text with escapes, up to its closing mark, read in at most `steps` steps. -/
def basicIn (lines : Bool) : (steps : Nat) → List Char → Except Fault (List Char × List Char)
  | _, [] => .error (.malformed .unterminatedText [])
  | 0, s => .error (.malformed .unterminatedText s)
  | steps + 1, c :: rest =>
    let mark := closingMark lines '"'
    if mark.isPrefixOf (c :: rest) then .ok ([], (c :: rest).drop mark.length)
    else if c = '\\' then do
      let (escaped, rest) ← escape lines rest
      let (body, rest) ← basicIn lines steps rest
      return (escaped ++ body, rest)
    else if isForbidden lines c then
      .error (.malformed (.illegalCharacter c) (c :: rest))
    else do
      let (body, rest) ← basicIn lines steps rest
      return (c :: body, rest)

def basic (lines : Bool) (s : List Char) : Except Fault (List Char × List Char) :=
  basicIn lines s.length s

/-! ## Texts over several lines -/

def dropFirstNewline : List Char → List Char
  | '\n' :: rest => rest
  | s => s

/-- Up to two more quotes behind the closing mark belong to the text. -/
def extraQuotes (quote : Char) (s : List Char) : List Char × List Char :=
  let extra := (s.take 2).takeWhile (· = quote)
  (extra, s.drop extra.length)

def textBody (lines : Bool) (quote : Char) (s : List Char) :
    Except Fault (List Char × List Char) :=
  if quote = '\'' then literal lines s else basic lines s

def textAfter (quote : Char) (s : List Char) : Except Fault (List Char × List Char) :=
  if [quote, quote].isPrefixOf s then do
    let (body, rest) ← textBody true quote (dropFirstNewline (s.drop 2))
    let (extra, rest) := extraQuotes quote rest
    return (body ++ extra, rest)
  else textBody false quote s

/-! ## Keys -/

/-- A dotted key: the names in front, and the last one. -/
structure Key where
  path : List String
  name : String
  deriving DecidableEq

namespace Key

def names (k : Key) : List String := k.path ++ [k.name]

def isBare (c : Char) : Bool := c.isAlphanum || c = '_' || c = '-'

def canBegin (c : Char) : Bool := isBare c || c = '"' || c = '\''

def part (s : List Char) : Except Fault (String × List Char) :=
  match s with
  | [] => .error (.malformed .invalidKeyPart [])
  | c :: rest =>
    if isBare c then .ok (String.ofList (s.takeWhile isBare), s.dropWhile isBare)
    else if c = '"' ∨ c = '\'' then do
      let (name, rest) ← textBody false c rest
      return (String.ofList name, rest)
    else .error (.malformed .invalidKeyPart s)

def readIn : (parts : Nat) → List Char → Except Fault (Key × List Char)
  | 0, s => .error (.malformed .invalidKeyPart s)
  | parts + 1, s => do
    let (name, rest) ← part s
    match skipSpaces rest with
    | '.' :: rest =>
      let (k, rest) ← readIn parts (skipSpaces rest)
      return (⟨name :: k.path, k.name⟩, rest)
    | rest => return (⟨[], name⟩, rest)

def read (s : List Char) : Except Fault (Key × List Char) := readIn (s.length + 1) s

end Key

end NuPlugin.Toml
