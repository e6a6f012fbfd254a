import NuPlugin.Toml.Fault

/-!
# Numbers, dates and times

Only the extent of these values matters here, and three things that can be wrong with them: no
value at all, a date that is in no calendar, and an integer of too many digits. Each reader takes
the longest form that it knows and leaves what follows to be judged by others.
-/

namespace NuPlugin.Toml

/-! ## Dates and times -/

/-- The number that two digits write, if it lies between `low` and `high`. -/
def twoDigits? (low high : Nat) (a b : Char) : Option Nat :=
  if a.isDigit ∧ b.isDigit then
    let n := (a.toNat - 48) * 10 + (b.toNat - 48)
    if low ≤ n ∧ n ≤ high then some n else none
  else none

def clock? : List Char → Option (List Char)
  | h :: h' :: ':' :: m :: m' :: rest =>
    if (twoDigits? 0 23 h h').isSome ∧ (twoDigits? 0 59 m m').isSome then some rest else none
  | _ => none

def skipFraction : List Char → List Char
  | '.' :: c :: rest => if c.isDigit then rest.dropWhile Char.isDigit else '.' :: c :: rest
  | s => s

def time? (s : List Char) : Option (List Char) :=
  match clock? s with
  | some (':' :: c :: c' :: rest) =>
    if (twoDigits? 0 59 c c').isSome then some (skipFraction rest) else none
  | _ => none

def skipOffset (s : List Char) : List Char :=
  match s with
  | [] => []
  | c :: rest =>
    if c = 'Z' ∨ c = 'z' then rest
    else if c = '+' ∨ c = '-' then (clock? rest).getD s
    else s

def skipTimeOfDay (s : List Char) : List Char :=
  match s with
  | [] => []
  | c :: rest =>
    if c = 'T' ∨ c = 't' ∨ c = ' ' then
      match time? rest with
      | some rest => skipOffset rest
      | none => s
    else s

def isLeapYear (year : Nat) : Bool := year % 4 = 0 && (year % 100 ≠ 0 || year % 400 = 0)

def daysIn (year month : Nat) : Nat :=
  if month = 2 then if isLeapYear year then 29 else 28
  else if month = 4 ∨ month = 6 ∨ month = 9 ∨ month = 11 then 30
  else 31

structure Date where
  year : Nat
  month : Nat
  day : Nat
  deriving DecidableEq

/-- The calendar begins with the year 1. -/
def Date.isValid (d : Date) : Bool := d.year ≠ 0 && d.day ≤ daysIn d.year d.month

def date? : List Char → Option (Date × List Char)
  | a :: b :: c :: d :: '-' :: m :: m' :: '-' :: e :: e' :: rest => do
    let century ← twoDigits? 0 99 a b
    let year ← twoDigits? 0 99 c d
    let month ← twoDigits? 1 12 m m'
    let day ← twoDigits? 1 31 e e'
    return (⟨century * 100 + year, month, day⟩, rest)
  | _ => none

/-! ## Numbers -/

/-- Digits with single underscores between them, after a first digit: the digits, and what
follows. -/
def moreDigits (isDigit : Char → Bool) : List Char → List Char × List Char
  | [] => ([], [])
  | [c] => if isDigit c then ([c], []) else ([], [c])
  | c :: d :: rest =>
    if isDigit c then
      let (digits, after) := moreDigits isDigit (d :: rest)
      (c :: digits, after)
    else if c = '_' ∧ isDigit d then
      let (digits, after) := moreDigits isDigit rest
      (d :: digits, after)
    else ([], c :: d :: rest)

def radixDigit? : Char → Option (Char → Bool)
  | 'x' => some fun c => c.isDigit || ('a' ≤ c && c ≤ 'f') || ('A' ≤ c && c ≤ 'F')
  | 'b' => some fun c => c = '0' || c = '1'
  | 'o' => some fun c => '0' ≤ c && c ≤ '7'
  | _ => none

def radixInteger? : List Char → Option (List Char)
  | '0' :: base :: c :: rest => do
    let isDigit ← radixDigit? base
    if isDigit c then some (moreDigits isDigit rest).2 else none
  | _ => none

def digits? : List Char → Option (List Char × List Char)
  | c :: rest =>
    if c.isDigit then
      let (digits, after) := moreDigits Char.isDigit rest
      some (c :: digits, after)
    else none
  | [] => none

def skipSign : List Char → List Char
  | '+' :: rest => rest
  | '-' :: rest => rest
  | s => s

/-- The digits before a point. A zero is the only one of its number. -/
def wholePart? : List Char → Option (List Char × List Char)
  | '0' :: rest => some (['0'], rest)
  | s => digits? s

def point? : List Char → Option (List Char)
  | '.' :: rest => (digits? rest).map (·.2)
  | _ => none

def exponent? : List Char → Option (List Char)
  | c :: rest => if c = 'e' ∨ c = 'E' then (digits? (skipSign rest)).map (·.2) else none
  | [] => none

/-- A decimal number. Only one without point and exponent is an integer, of bounded length. -/
def decimal? (s : List Char) : Option (Except Fault (List Char)) :=
  (wholePart? (skipSign s)).map fun (digits, rest) =>
    match point? rest, exponent? ((point? rest).getD rest) with
    | none, none =>
      if Text.maxDigits < digits.length then .error (.integerTooLong digits.length) else .ok rest
    | some rest, none => .ok rest
    | _, some rest => .ok rest

/-! ## All of them -/

def scalarWords : List String :=
  ["true", "false", "inf", "nan", "-inf", "+inf", "-nan", "+nan"]

def skipWord? (s : List Char) : Option (List Char) :=
  (scalarWords.find? fun word => word.toList.isPrefixOf s).map fun word => s.drop word.length

/-- The text behind a number, a date, a time or a word. -/
def skipScalar (s : List Char) : Except Fault (List Char) :=
  if let some (date, rest) := date? s then
    if date.isValid then .ok (skipTimeOfDay rest) else .error (.malformed .invalidDate s)
  else if let some rest := time? s then .ok rest
  else if let some rest := radixInteger? s then .ok rest
  else if let some outcome := decimal? s then outcome
  else if let some rest := skipWord? s then .ok rest
  else .error (.malformed .invalidValue s)

end NuPlugin.Toml
