import NuPlugin.Text.Quoted

/-!
# UTF-8

`decode` reads bytes one at a time and stops at the first that cannot continue what was read
before it. `encode` is its inverse on every text.
-/

namespace NuPlugin.Text.Utf8

def encode (s : List Char) : List UInt8 := s.flatMap String.utf8EncodeChar

/-! ## Faults -/

inductive Reason where
  | invalidStart
  | invalidContinuation
  | unexpectedEnd
  deriving DecidableEq

def Reason.message : Reason → String
  | .invalidStart => "invalid start byte"
  | .invalidContinuation => "invalid continuation byte"
  | .unexpectedEnd => "unexpected end of data"

/-- `first` and the `more` bytes after it begin no character; `start` is the offset of `first`. -/
structure Fault where
  start : Nat
  first : UInt8
  more : Nat
  reason : Reason
  deriving DecidableEq

def Fault.last (f : Fault) : Nat := f.start + f.more

def Fault.message (f : Fault) : String :=
  let what :=
    if f.more = 0 then
      s!"byte 0x{String.ofList (hexDigits 2 f.first.toNat)} in position {f.start}"
    else s!"bytes in position {f.start}-{f.last}"
  s!"'utf-8' codec can't decode {what}: {f.reason.message}"

/-! ## Reading -/

/-- A character under way: `read` bytes came after its `first`, `owed` are still to come, the next
one between `low` and `high`; `value` holds the bits so far. -/
structure Pending where
  start : Nat
  first : UInt8
  read : Nat
  owed : Nat
  low : UInt8
  high : UInt8
  value : Nat
  deriving DecidableEq

def Pending.fault (p : Pending) (reason : Reason) : Fault := ⟨p.start, p.first, p.read, reason⟩

/-- What the first byte of a character of several bytes announces. Overlong forms, surrogates
and values past the last code point are kept out by the range of the second byte. -/
def Pending.begin (start : Nat) (b : UInt8) : Option Pending :=
  let n := b.toNat
  if 0xC2 ≤ n ∧ n ≤ 0xDF then some ⟨start, b, 0, 1, 0x80, 0xBF, n - 0xC0⟩
  else if n = 0xE0 then some ⟨start, b, 0, 2, 0xA0, 0xBF, n - 0xE0⟩
  else if n = 0xED then some ⟨start, b, 0, 2, 0x80, 0x9F, n - 0xE0⟩
  else if 0xE1 ≤ n ∧ n ≤ 0xEF then some ⟨start, b, 0, 2, 0x80, 0xBF, n - 0xE0⟩
  else if n = 0xF0 then some ⟨start, b, 0, 3, 0x90, 0xBF, n - 0xF0⟩
  else if n = 0xF4 then some ⟨start, b, 0, 3, 0x80, 0x8F, n - 0xF0⟩
  else if 0xF1 ≤ n ∧ n ≤ 0xF3 then some ⟨start, b, 0, 3, 0x80, 0xBF, n - 0xF0⟩
  else none

def Pending.push (p : Pending) (b : UInt8) : Pending :=
  { p with
    read := p.read + 1, owed := p.owed - 1, low := 0x80, high := 0xBF,
    value := p.value * 64 + (b.toNat - 0x80) }

def decodeFrom (offset : Nat) : Option Pending → List UInt8 → Except Fault (List Char)
  | none, [] => .ok []
  | some p, [] => .error (p.fault .unexpectedEnd)
  | none, b :: rest =>
    if b.toNat < 0x80 then
      (decodeFrom (offset + 1) none rest).map (Char.ofNat b.toNat :: ·)
    else
      match Pending.begin offset b with
      | none => .error ⟨offset, b, 0, .invalidStart⟩
      | some p => decodeFrom (offset + 1) (some p) rest
  | some p, b :: rest =>
    if p.low ≤ b ∧ b ≤ p.high then
      if p.owed = 1 then
        (decodeFrom (offset + 1) none rest).map (Char.ofNat (p.push b).value :: ·)
      else decodeFrom (offset + 1) (some (p.push b)) rest
    else .error (p.fault .invalidContinuation)

def decode (bytes : List UInt8) : Except Fault (List Char) := decodeFrom 0 none bytes

end NuPlugin.Text.Utf8
