import NuPlugin.Proofs.Text.Utf8

/-!
# Where bytes stop being text

A fault stands behind the longest front of the bytes that is a text. Either the bytes only end too
early, and more of them would make a text, or nothing that follows could make them one.
-/

namespace NuPlugin.Text.Utf8

variable {offset : Nat} {state : Option Pending} {bytes front : List UInt8} {s : List Char}
  {f : Fault} {p : Pending} {b : UInt8}

/-! ## Valid bytes -/

def IsValid (bytes : List UInt8) : Prop := ∃ s, bytes = encode s

theorem encode_inj {s t : List Char} : encode s = encode t ↔ s = t := by
  refine ⟨fun h => ?_, fun h => h ▸ rfl⟩
  have hread := decode_encode s
  rw [h, decode_encode] at hread
  exact (Except.ok.inj hread).symm

theorem isValid_iff : IsValid bytes ↔ ∃ s, decode bytes = .ok s :=
  exists_congr fun _ => decode_eq_ok_iff.symm

theorem not_isValid_of_error (h : decode bytes = .error f) : ¬ IsValid bytes := by
  rw [isValid_iff]
  rintro ⟨s, hs⟩
  cases h.symm.trans hs

/-! ## One byte -/

/-- One byte ends a character, begins one or goes on with one, or fits nothing. -/
def step (offset : Nat) : Option Pending → UInt8 → Except Fault (List Char × Option Pending)
  | none, b =>
    if b.toNat < 0x80 then .ok ([Char.ofNat b.toNat], none)
    else
      match Pending.begin offset b with
      | none => .error ⟨offset, b, 0, .invalidStart⟩
      | some p => .ok ([], some p)
  | some p, b =>
    if p.low ≤ b ∧ b ≤ p.high then
      if p.owed = 1 then .ok ([Char.ofNat (p.push b).value], none) else .ok ([], some (p.push b))
    else .error (p.fault .invalidContinuation)

theorem decodeFrom_cons (offset : Nat) (state : Option Pending) (b : UInt8) (bytes : List UInt8) :
    decodeFrom offset state (b :: bytes) =
      step offset state b >>= fun r => (decodeFrom (offset + 1) r.2 bytes).map (r.1 ++ ·) := by
  have hnothing : ∀ x : Except Fault (List Char), x.map ([] ++ ·) = x := by
    intro x
    cases x <;> rfl
  cases state with
  | none =>
    rw [decodeFrom, step]
    split
    · rfl
    · cases Pending.begin offset b with
      | none => rfl
      | some p => exact (hnothing _).symm
  | some p =>
    rw [decodeFrom, step]
    split
    · split
      · rfl
      · exact (hnothing _).symm
    · rfl

def Pending.CanEnd (p : Pending) : Prop := 1 ≤ p.owed ∧ p.low ≤ p.high

theorem begin_fresh (h : Pending.begin offset b = some p) :
    p.CanEnd ∧ p.start = offset ∧ p.first = b ∧ p.read = 0 := by
  unfold Pending.begin at h
  dsimp only at h
  repeat' split at h
  all_goals cases h
  all_goals simp [Pending.CanEnd]

theorem Pending.CanEnd.push (h : p.CanEnd) (howed : p.owed ≠ 1) (b : UInt8) :
    (p.push b).CanEnd := by
  have hone := h.1
  refine ⟨?_, show (0x80 : UInt8) ≤ 0xBF by decide⟩
  simp only [Pending.push]
  omega

theorem step_eq_ok_some {read : List Char} {next : Pending}
    (h : step offset state b = .ok (read, some next)) :
    state = none ∧ Pending.begin offset b = some next ∨
      ∃ p, state = some p ∧ p.owed ≠ 1 ∧ next = p.push b := by
  cases state with
  | none =>
    rw [step] at h
    split at h
    · cases h
    · cases hbegin : Pending.begin offset b with
      | none => simp [hbegin] at h
      | some p =>
        rw [hbegin] at h
        cases h
        exact .inl ⟨rfl, rfl⟩
  | some p =>
    rw [step] at h
    split at h
    · split at h
      · cases h
      · next howed =>
        cases h
        exact .inr ⟨p, rfl, howed, rfl⟩
    · cases h

theorem step_eq_error (h : step offset state b = .error f) :
    state = none ∧ f = ⟨offset, b, 0, .invalidStart⟩ ∨
      ∃ p, state = some p ∧ f = p.fault .invalidContinuation := by
  cases state with
  | none =>
    rw [step] at h
    split at h
    · cases h
    · cases hbegin : Pending.begin offset b with
      | none =>
        rw [hbegin] at h
        exact .inl ⟨rfl, (Except.error.inj h).symm⟩
      | some p => simp [hbegin] at h
  | some p =>
    rw [step] at h
    split at h
    · split at h <;> cases h
    · exact .inr ⟨p, rfl, (Except.error.inj h).symm⟩

/-! ## Reading on -/

theorem decodeFrom_append_of_ok (h : decodeFrom offset state front = .ok s) (back : List UInt8) :
    decodeFrom offset state (front ++ back) =
      (decodeFrom (offset + front.length) none back).map (s ++ ·) := by
  induction front generalizing offset state s with
  | nil =>
    cases state with
    | none =>
      cases h
      cases hback : decodeFrom offset none back <;> simp [hback]
    | some p => cases h
  | cons b front ih =>
    rw [decodeFrom_cons] at h
    obtain ⟨⟨read, next⟩, hstep, h⟩ := bind_eq_ok.1 h
    obtain ⟨t, ht, rfl⟩ := map_eq_ok.1 h
    rw [List.cons_append, decodeFrom_cons, hstep, ok_bind, ih ht, List.length_cons,
      Nat.add_right_comm, Nat.add_assoc]
    cases decodeFrom (offset + (front.length + 1)) none back <;> simp

theorem decodeFrom_append_of_error (h : decodeFrom offset state front = .error f)
    (hreason : f.reason ≠ .unexpectedEnd) (back : List UInt8) :
    decodeFrom offset state (front ++ back) = .error f := by
  induction front generalizing offset state with
  | nil =>
    cases state with
    | none => cases h
    | some p =>
      cases h
      exact absurd rfl hreason
  | cons b front ih =>
    rw [decodeFrom_cons] at h
    rw [List.cons_append, decodeFrom_cons]
    rcases bind_eq_error.1 h with hstep | ⟨⟨read, next⟩, hstep, h⟩
    · rw [hstep, error_bind]
    · rw [hstep, ok_bind, ih (map_eq_error.1 h), map_error]

/-- The least byte that fits ends the character, or brings it nearer to its end. -/
theorem Pending.CanEnd.exists_ending (h : p.CanEnd) (offset : Nat) :
    ∃ back s, decodeFrom offset (some p) back = .ok s := by
  induction howed : p.owed generalizing p offset with
  | zero => exact absurd h.1 (by omega)
  | succ owed ih =>
    have hfits : p.low ≤ p.low ∧ p.low ≤ p.high := ⟨UInt8.le_refl _, h.2⟩
    by_cases hlast : p.owed = 1
    · exact ⟨[p.low], [Char.ofNat (p.push p.low).value], by
        rw [decodeFrom, if_pos hfits, if_pos hlast]
        rfl⟩
    · have hpush : (p.push p.low).owed = owed := by simp [Pending.push, howed]
      obtain ⟨back, s, hback⟩ := ih (h.push hlast p.low) (offset + 1) hpush
      exact ⟨p.low :: back, s, by rw [decodeFrom, if_pos hfits, if_neg hlast, hback]⟩

/-- Bytes that only end too early can be gone on with. -/
theorem exists_append_of_unexpectedEnd (h : decodeFrom offset state front = .error f)
    (hreason : f.reason = .unexpectedEnd) (hstate : ∀ p, state = some p → p.CanEnd) :
    ∃ back s, decodeFrom offset state (front ++ back) = .ok s := by
  induction front generalizing offset state with
  | nil =>
    cases state with
    | none => cases h
    | some p => exact (hstate p rfl).exists_ending offset
  | cons b front ih =>
    rw [decodeFrom_cons] at h
    rcases bind_eq_error.1 h with hstep | ⟨⟨read, next⟩, hstep, h⟩
    · rcases step_eq_error hstep with ⟨-, rfl⟩ | ⟨p, -, rfl⟩ <;> cases hreason
    · have hnext : ∀ p, next = some p → p.CanEnd := by
        rintro p rfl
        rcases step_eq_ok_some hstep with ⟨-, hbegin⟩ | ⟨q, rfl, howed, rfl⟩
        · exact (begin_fresh hbegin).1
        · exact (hstate q rfl).push howed b
      obtain ⟨back, s, hback⟩ := ih (map_eq_error.1 h) hnext
      refine ⟨back, read ++ s, ?_⟩
      rw [List.cons_append, decodeFrom_cons, hstep, ok_bind, hback, map_ok]

/-! ## The place of a fault -/

/-- The fault is about the first byte and no others but the next `read` and some of `rest`. Where
the bytes end too early, it is about them all. -/
def Fault.Spans (f : Fault) (read : Nat) (rest : List UInt8) : Prop :=
  f.more ≤ read + rest.length ∧ (f.reason = .unexpectedEnd → f.more = read + rest.length)

theorem decodeFrom_eq_error (h : decodeFrom offset state bytes = .error f) :
    (∃ p, state = some p ∧ f.start = p.start ∧ f.first = p.first ∧ f.Spans p.read bytes) ∨
      ∃ front s rest, bytes = front ++ f.first :: rest ∧ decodeFrom offset state front = .ok s ∧
        f.start = offset + front.length ∧ f.Spans 0 rest := by
  induction bytes generalizing offset state with
  | nil =>
    cases state with
    | none => cases h
    | some p =>
      cases h
      exact .inl ⟨p, rfl, rfl, rfl, Nat.le_refl _, fun _ => rfl⟩
  | cons b bytes ih =>
    rw [decodeFrom_cons] at h
    rcases bind_eq_error.1 h with hstep | ⟨⟨read, next⟩, hstep, h⟩
    · rcases step_eq_error hstep with ⟨rfl, rfl⟩ | ⟨p, rfl, rfl⟩
      · exact .inr ⟨[], [], bytes, rfl, rfl, rfl, Nat.zero_le _, nofun⟩
      · exact .inl ⟨p, rfl, rfl, rfl, Nat.le_add_right _ _, nofun⟩
    · rcases ih (map_eq_error.1 h) with ⟨p, rfl, hstart, hfirst, hspans⟩ |
        ⟨front, s, rest, rfl, hfront, hstart, hspans⟩
      · rcases step_eq_ok_some hstep with ⟨rfl, hbegin⟩ | ⟨q, rfl, -, rfl⟩
        · obtain ⟨-, hp, rfl, hread⟩ := begin_fresh hbegin
          refine .inr ⟨[], [], bytes, by rw [hfirst]; rfl, rfl, hstart.trans hp, ?_⟩
          rwa [hread] at hspans
        · have hpush : (q.push b).read + bytes.length = q.read + (b :: bytes).length :=
            Nat.add_right_comm ..
          rw [Fault.Spans, hpush] at hspans
          exact .inl ⟨q, rfl, hstart, hfirst, hspans⟩
      · refine .inr ⟨b :: front, read ++ s, rest, rfl, ?_, ?_, hspans⟩
        · rw [decodeFrom_cons, hstep, ok_bind, hfront, map_ok]
        · rw [hstart, List.length_cons]
          omega

/-- What a fault says of the bytes that it was found in: it stands behind the longest front that is
a text, lies within the bytes, and tells whether they could have gone on. -/
structure Fault.Explains (f : Fault) (bytes : List UInt8) : Prop where
  not_isValid : ¬ IsValid bytes
  isValid_take : IsValid (bytes.take f.start)
  le_start : ∀ n ≤ bytes.length, IsValid (bytes.take n) → n ≤ f.start
  first : bytes[f.start]? = some f.first
  last_lt : f.last < bytes.length
  unexpectedEnd_iff : f.reason = .unexpectedEnd ↔ ∃ back, IsValid (bytes ++ back)
  last_of_unexpectedEnd : f.reason = .unexpectedEnd → f.last + 1 = bytes.length

theorem explains_of_decode (h : decode bytes = .error f) : f.Explains bytes := by
  rcases decodeFrom_eq_error h with ⟨p, hp, -⟩ |
    ⟨front, s, rest, hbytes, hfront, hstart, hspans, hall⟩
  · cases hp
  · rw [Nat.zero_add] at hstart hspans hall
    have hlength : bytes.length = front.length + (rest.length + 1) := by
      rw [hbytes, List.length_append, List.length_cons]
    constructor
    case not_isValid => exact not_isValid_of_error h
    case isValid_take =>
      rw [hbytes, hstart, List.take_left]
      exact isValid_iff.2 ⟨s, hfront⟩
    case le_start =>
      intro n hn hvalid
      obtain ⟨t, ht⟩ := isValid_iff.1 hvalid
      -- The fault of all bytes is one of the bytes behind any front that is a text.
      have hback := decodeFrom_append_of_ok ht (bytes.drop n)
      rw [List.take_append_drop, ← decode, h] at hback
      rcases decodeFrom_eq_error (map_eq_error.1 hback.symm) with ⟨p, hp, -⟩ |
        ⟨front', s', rest', -, -, hstart', -⟩
      · cases hp
      · rw [hstart', List.length_take, Nat.min_eq_left hn]
        omega
    case first => rw [hbytes, hstart, List.getElem?_append_right (Nat.le_refl _)]; simp
    case last_lt =>
      rw [Fault.last, hstart, hlength]
      omega
    case unexpectedEnd_iff =>
      constructor
      · intro hreason
        obtain ⟨back, t, ht⟩ := exists_append_of_unexpectedEnd h hreason nofun
        exact ⟨back, isValid_iff.2 ⟨t, ht⟩⟩
      · rintro ⟨back, hvalid⟩
        refine Decidable.byContradiction fun hreason => ?_
        exact not_isValid_of_error (decodeFrom_append_of_error h hreason back) hvalid
    case last_of_unexpectedEnd =>
      intro hreason
      rw [Fault.last, hstart, hall hreason, hlength]
      omega

/-! ## Messages -/

/-- A fault is told with its first and its last position, and the byte where there is but one. -/
theorem Fault.message_eq (f : Fault) :
    f.message =
      "'utf-8' codec can't decode " ++
        (if f.last = f.start then
          "byte 0x" ++ String.ofList (hexDigits 2 f.first.toNat) ++ " in position " ++
            toString f.start
        else "bytes in position " ++ toString f.start ++ "-" ++ toString f.last) ++
        ": " ++ f.reason.message := by
  have hlast : f.last = f.start ↔ f.more = 0 := Nat.add_eq_left
  unfold message
  by_cases h : f.more = 0
  · rw [if_pos (hlast.2 h)]
    simp only [if_pos h]
    rfl
  · rw [if_neg (mt hlast.1 h)]
    simp only [if_neg h]
    rfl

end NuPlugin.Text.Utf8
