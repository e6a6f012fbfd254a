import NuPlugin.Proofs.Except
import NuPlugin.Text.Utf8

/-!
# UTF-8 there and back

What `encode` writes, `decode` reads as the same text, and `decode` reads nothing else.
-/

namespace NuPlugin.Text.Utf8

theorem toNat_ofNat_of_lt {n : Nat} (h : n < 256) : (UInt8.ofNat n).toNat = n := by
  rw [UInt8.toNat_ofNat']
  exact Nat.mod_eq_of_lt h

/-! ## Single bytes -/

section

variable (offset : Nat) (rest : List UInt8) {b : UInt8} {p : Pending}

theorem decodeFrom_ascii (h : b.toNat < 0x80) :
    decodeFrom offset none (b :: rest) =
      (decodeFrom (offset + 1) none rest).map (Char.ofNat b.toNat :: ·) := by
  rw [decodeFrom, if_pos h]

theorem decodeFrom_begin (h : 0x80 ≤ b.toNat) (hp : Pending.begin offset b = some p) :
    decodeFrom offset none (b :: rest) = decodeFrom (offset + 1) (some p) rest := by
  rw [decodeFrom, if_neg (by omega), hp]

theorem decodeFrom_push (hlow : p.low.toNat ≤ b.toNat) (hhigh : b.toNat ≤ p.high.toNat)
    (howed : p.owed ≠ 1) :
    decodeFrom offset (some p) (b :: rest) = decodeFrom (offset + 1) (some (p.push b)) rest := by
  rw [decodeFrom, if_pos ⟨UInt8.le_iff_toNat_le.2 hlow, UInt8.le_iff_toNat_le.2 hhigh⟩,
    if_neg howed]

theorem decodeFrom_last (hlow : p.low.toNat ≤ b.toNat) (hhigh : b.toNat ≤ p.high.toNat)
    (howed : p.owed = 1) :
    decodeFrom offset (some p) (b :: rest) =
      (decodeFrom (offset + 1) none rest).map (Char.ofNat (p.push b).value :: ·) := by
  rw [decodeFrom, if_pos ⟨UInt8.le_iff_toNat_le.2 hlow, UInt8.le_iff_toNat_le.2 hhigh⟩,
    if_pos howed]

end

/-! ## First bytes

The range of the second byte leaves room for every character whose first byte this is.
-/

section

variable (offset : Nat) {n : Nat} {a : UInt8}

theorem begin_of_two (hn : 0x7f < n) (hn' : n ≤ 0x7ff) (ha : a.toNat = n / 64 + 0xc0) :
    Pending.begin offset a = some ⟨offset, a, 0, 1, 0x80, 0xBF, n / 64⟩ := by
  simp only [Pending.begin, ha]
  rw [if_pos (by omega), Nat.add_sub_cancel]

theorem begin_of_three (hn : 0x7ff < n) (hn' : n ≤ 0xffff) (hvalid : n < 0xD800 ∨ 0xDFFF < n)
    (ha : a.toNat = n / 4096 + 0xe0) :
    ∃ low high, Pending.begin offset a = some ⟨offset, a, 0, 2, low, high, n / 4096⟩ ∧
      low.toNat ≤ n / 64 % 64 + 0x80 ∧ n / 64 % 64 + 0x80 ≤ high.toNat := by
  simp only [Pending.begin, ha]
  rw [if_neg (by omega)]
  by_cases h0 : n / 4096 + 0xe0 = 0xE0
  · exact ⟨0xA0, 0xBF, by rw [if_pos h0, Nat.add_sub_cancel], by simp; omega, by simp; omega⟩
  · rw [if_neg h0]
    by_cases h13 : n / 4096 + 0xe0 = 0xED
    · exact ⟨0x80, 0x9F, by rw [if_pos h13, Nat.add_sub_cancel], by simp, by simp; omega⟩
    · exact ⟨0x80, 0xBF, by rw [if_neg h13, if_pos (by omega), Nat.add_sub_cancel], by simp,
        by simp; omega⟩

theorem begin_of_four (hn : 0xffff < n) (hn' : n < 0x110000) (ha : a.toNat = n / 262144 + 0xf0) :
    ∃ low high, Pending.begin offset a = some ⟨offset, a, 0, 3, low, high, n / 262144⟩ ∧
      low.toNat ≤ n / 4096 % 64 + 0x80 ∧ n / 4096 % 64 + 0x80 ≤ high.toNat := by
  simp only [Pending.begin, ha]
  rw [if_neg (by omega), if_neg (by omega), if_neg (by omega), if_neg (by omega)]
  by_cases h0 : n / 262144 + 0xf0 = 0xF0
  · exact ⟨0x90, 0xBF, by rw [if_pos h0, Nat.add_sub_cancel], by simp; omega, by simp; omega⟩
  · rw [if_neg h0]
    by_cases h4 : n / 262144 + 0xf0 = 0xF4
    · exact ⟨0x80, 0x8F, by rw [if_pos h4, Nat.add_sub_cancel], by simp, by simp; omega⟩
    · exact ⟨0x80, 0xBF, by rw [if_neg h4, if_pos (by omega), Nat.add_sub_cancel], by simp,
        by simp; omega⟩

end

/-! ## Characters -/

theorem toNat_tailByte (k : Nat) : (UInt8.ofNat (k % 64 + 0x80)).toNat = k % 64 + 0x80 :=
  toNat_ofNat_of_lt (by omega)

section

variable {n : Nat} (offset : Nat) (rest : List UInt8)

theorem decodeFrom_two (hn : 0x7f < n) (hn' : n ≤ 0x7ff) :
    decodeFrom offset none
        (.ofNat (n / 64 % 0x20 + 0xc0) :: .ofNat (n % 64 + 0x80) :: rest) =
      (decodeFrom (offset + 2) none rest).map (Char.ofNat n :: ·) := by
  have ha : (UInt8.ofNat (n / 64 % 0x20 + 0xc0)).toNat = n / 64 + 0xc0 := by
    rw [toNat_ofNat_of_lt] <;> omega
  have hb := toNat_tailByte n
  have hp := begin_of_two offset hn hn' ha
  have hvalue : n / 64 * 64 + (n % 64 + 0x80 - 0x80) = n := by omega
  rw [decodeFrom_begin _ _ (by omega) hp,
    decodeFrom_last _ _ (by simp; omega) (by simp; omega) rfl]
  simp only [Pending.push, hb, hvalue]

theorem decodeFrom_three (hn : 0x7ff < n) (hn' : n ≤ 0xffff)
    (hsurrogate : n < 0xD800 ∨ 0xDFFF < n) :
    decodeFrom offset none
        (.ofNat (n / 4096 % 0x10 + 0xe0) :: .ofNat (n / 64 % 64 + 0x80) ::
          .ofNat (n % 64 + 0x80) :: rest) =
      (decodeFrom (offset + 3) none rest).map (Char.ofNat n :: ·) := by
  have ha : (UInt8.ofNat (n / 4096 % 0x10 + 0xe0)).toNat = n / 4096 + 0xe0 := by
    rw [toNat_ofNat_of_lt] <;> omega
  have hb := toNat_tailByte (n / 64)
  have hb' := toNat_tailByte n
  obtain ⟨low, high, hp, hlow, hhigh⟩ := begin_of_three offset hn hn' hsurrogate ha
  have hvalue : (n / 4096 * 64 + (n / 64 % 64 + 0x80 - 0x80)) * 64 +
      (n % 64 + 0x80 - 0x80) = n := by omega
  rw [decodeFrom_begin _ _ (by omega) hp,
    decodeFrom_push _ _ (hb.symm ▸ hlow) (hb.symm ▸ hhigh) (by simp),
    decodeFrom_last _ _ (by simp [Pending.push]; omega) (by simp [Pending.push]; omega) rfl]
  simp only [Pending.push, hb, hb', hvalue]

theorem decodeFrom_four (hn : 0xffff < n) (hn' : n < 0x110000) :
    decodeFrom offset none
        (.ofNat (n / 262144 % 0x08 + 0xf0) :: .ofNat (n / 4096 % 64 + 0x80) ::
          .ofNat (n / 64 % 64 + 0x80) :: .ofNat (n % 64 + 0x80) :: rest) =
      (decodeFrom (offset + 4) none rest).map (Char.ofNat n :: ·) := by
  have ha : (UInt8.ofNat (n / 262144 % 0x08 + 0xf0)).toNat = n / 262144 + 0xf0 := by
    rw [toNat_ofNat_of_lt] <;> omega
  have hb := toNat_tailByte (n / 4096)
  have hb' := toNat_tailByte (n / 64)
  have hb'' := toNat_tailByte n
  obtain ⟨low, high, hp, hlow, hhigh⟩ := begin_of_four offset hn hn' ha
  have hvalue : ((n / 262144 * 64 + (n / 4096 % 64 + 0x80 - 0x80)) * 64 +
      (n / 64 % 64 + 0x80 - 0x80)) * 64 + (n % 64 + 0x80 - 0x80) = n := by omega
  rw [decodeFrom_begin _ _ (by omega) hp,
    decodeFrom_push _ _ (hb.symm ▸ hlow) (hb.symm ▸ hhigh) (by simp),
    decodeFrom_push _ _ (by simp [Pending.push]; omega) (by simp [Pending.push]; omega)
      (by simp [Pending.push]),
    decodeFrom_last _ _ (by simp [Pending.push]; omega) (by simp [Pending.push]; omega) rfl]
  simp only [Pending.push, hb, hb', hb'', hvalue]

end

theorem decodeFrom_utf8EncodeChar (offset : Nat) (c : Char) (rest : List UInt8) :
    decodeFrom offset none (String.utf8EncodeChar c ++ rest) =
      (decodeFrom (offset + (String.utf8EncodeChar c).length) none rest).map (c :: ·) := by
  have hc : Char.ofNat c.val.toNat = c := c.ofNat_toNat
  have hvalid : c.val.toNat < 0xD800 ∨ 0xDFFF < c.val.toNat ∧ c.val.toNat < 0x110000 := c.valid
  unfold String.utf8EncodeChar
  generalize c.val.toNat = n at hc hvalid
  subst hc
  dsimp only
  split
  · next h1 =>
    have ha : (UInt8.ofNat n).toNat = n := toNat_ofNat_of_lt (by omega)
    rw [List.singleton_append, decodeFrom_ascii offset rest (by omega), ha]
    rfl
  · next h1 =>
    split
    · next h2 => exact decodeFrom_two offset rest (by omega) h2
    · next h2 =>
      split
      · next h3 =>
        exact decodeFrom_three offset rest (by omega) h3 (hvalid.imp_right And.left)
      · next h3 => exact decodeFrom_four offset rest (by omega) (by omega)

theorem decodeFrom_encode (offset : Nat) (s : List Char) :
    decodeFrom offset none (encode s) = .ok s := by
  induction s generalizing offset with
  | nil => rfl
  | cons c s ih =>
    rw [encode, List.flatMap_cons, decodeFrom_utf8EncodeChar]
    rw [encode] at ih
    rw [ih]
    rfl

theorem decode_encode (s : List Char) : decode (encode s) = .ok s := decodeFrom_encode 0 s

/-! ## What was read was written -/

/-- The number without its last groups of six bits. -/
def withoutGroups : (groups : Nat) → (n : Nat) → Nat
  | 0, n => n
  | groups + 1, n => withoutGroups groups n / 64

def tailBytes : (owed : Nat) → (n : Nat) → List UInt8
  | 0, _ => []
  | owed + 1, n => .ofNat (withoutGroups owed n % 64 + 0x80) :: tailBytes owed n

theorem tailBytes_succ (owed n : Nat) :
    tailBytes (owed + 1) n = .ofNat (withoutGroups owed n % 64 + 0x80) :: tailBytes owed n := rfl

section

variable {offset : Nat} {bytes : List UInt8} {p : Pending} {s : List Char}

theorem decodeFrom_pending_eq_ok (h : decodeFrom offset (some p) bytes = .ok s) :
    ∃ b rest, bytes = b :: rest ∧ p.low.toNat ≤ b.toNat ∧ b.toNat ≤ p.high.toNat ∧
      if p.owed = 1 then
        ∃ t, decodeFrom (offset + 1) none rest = .ok t ∧ s = Char.ofNat (p.push b).value :: t
      else decodeFrom (offset + 1) (some (p.push b)) rest = .ok s := by
  cases bytes with
  | nil => cases h
  | cons b rest =>
    rw [decodeFrom] at h
    split at h
    · next hb =>
      refine ⟨b, rest, rfl, UInt8.le_iff_toNat_le.1 hb.1, UInt8.le_iff_toNat_le.1 hb.2, ?_⟩
      split at h
      · next howed =>
        obtain ⟨t, ht, rfl⟩ := map_eq_ok.1 h
        rw [if_pos howed]
        exact ⟨t, ht, rfl⟩
      · next howed =>
        rw [if_neg howed]
        exact h
    · cases h

theorem decodeFrom_tailBytes {owed : Nat} (howed : p.owed = owed + 1) (hlow : 0x80 ≤ p.low.toNat)
    (hhigh : p.high.toNat ≤ 0xBF) (h : decodeFrom offset (some p) bytes = .ok s) :
    ∃ n rest t, withoutGroups (owed + 1) n = p.value ∧
      p.low.toNat ≤ withoutGroups owed n % 64 + 0x80 ∧
      withoutGroups owed n % 64 + 0x80 ≤ p.high.toNat ∧ bytes = tailBytes (owed + 1) n ++ rest ∧
      decodeFrom (offset + (owed + 1)) none rest = .ok t ∧ s = Char.ofNat n :: t := by
  induction owed generalizing offset bytes p with
  | zero =>
    obtain ⟨b, rest, rfl, hb, hb', h⟩ := decodeFrom_pending_eq_ok h
    rw [if_pos howed] at h
    obtain ⟨t, ht, rfl⟩ := h
    have hbyte : (p.push b).value % 64 + 0x80 = b.toNat := by
      simp only [Pending.push]
      omega
    refine ⟨(p.push b).value, rest, t, ?_, ?_, ?_, ?_, ht, rfl⟩
    · simp only [withoutGroups, Pending.push]
      omega
    · simpa [withoutGroups, hbyte] using hb
    · simpa [withoutGroups, hbyte] using hb'
    · simp [tailBytes, withoutGroups, hbyte]
  | succ owed ih =>
    obtain ⟨b, rest, rfl, hb, hb', h⟩ := decodeFrom_pending_eq_ok h
    rw [if_neg (by omega)] at h
    obtain ⟨n, rest, t, hn, -, -, rfl, ht, rfl⟩ :=
      ih (p := p.push b) (by simp [Pending.push, howed]) (by simp [Pending.push])
        (by simp [Pending.push]) h
    have hvalue : withoutGroups (owed + 1) n = p.value * 64 + (b.toNat - 0x80) := hn
    have hbyte : withoutGroups (owed + 1) n % 64 + 0x80 = b.toNat := by omega
    refine ⟨n, rest, t, ?_, ?_, ?_, ?_, ?_, rfl⟩
    · rw [withoutGroups, hvalue]
      omega
    · omega
    · omega
    · rw [tailBytes_succ (owed + 1), hbyte, UInt8.ofNat_toNat, List.cons_append]
    · rw [← ht]
      congr 1
      omega

end

/-! ## First bytes and the numbers they announce -/

/-- What a first byte announces: how many bytes are owed, the bits that it holds itself, and a range
for the next byte that keeps out what is written with other first bytes or not at all. -/
theorem begin_eq_some {offset : Nat} {b : UInt8} {p : Pending}
    (h : Pending.begin offset b = some p) :
    (0x80 ≤ p.low.toNat ∧ p.high.toNat ≤ 0xBF) ∧
      ((p.owed = 1 ∧ b.toNat = p.value + 0xC0 ∧ 2 ≤ p.value ∧ p.value < 0x20) ∨
        (p.owed = 2 ∧ b.toNat = p.value + 0xE0 ∧ p.value < 0x10 ∧
          (p.value = 0 → 0xA0 ≤ p.low.toNat) ∧ (p.value = 13 → p.high.toNat ≤ 0x9F)) ∨
        (p.owed = 3 ∧ b.toNat = p.value + 0xF0 ∧ p.value ≤ 4 ∧
          (p.value = 0 → 0x90 ≤ p.low.toNat) ∧ (p.value = 4 → p.high.toNat ≤ 0x8F))) := by
  unfold Pending.begin at h
  dsimp only at h
  repeat' split at h
  all_goals cases h
  all_goals
    simp
    omega

section

variable {n : Nat} {b : UInt8}

theorem val_ofNat (h : n.isValidChar) : (Char.ofNat n).val.toNat = n := by
  have hchar : Char.ofNat n = Char.ofNatAux n h := dif_pos h
  rw [hchar]
  rfl

theorem utf8EncodeChar_two (hn : 0x7f < n) (hn' : n ≤ 0x7ff) (hb : b.toNat = n / 64 + 0xC0) :
    String.utf8EncodeChar (Char.ofNat n) = b :: tailBytes 1 n := by
  have hlead : n / 64 % 0x20 + 0xC0 = b.toNat := by omega
  unfold String.utf8EncodeChar
  rw [val_ofNat (Or.inl (by omega))]
  dsimp only
  rw [if_neg (by omega), if_pos hn', hlead, UInt8.ofNat_toNat]
  simp [tailBytes, withoutGroups]

theorem utf8EncodeChar_three (hn : 0x7ff < n) (hn' : n ≤ 0xffff) (hvalid : n < 0xD800 ∨ 0xDFFF < n)
    (hb : b.toNat = n / 4096 + 0xE0) :
    String.utf8EncodeChar (Char.ofNat n) = b :: tailBytes 2 n := by
  have hlead : n / 4096 % 0x10 + 0xE0 = b.toNat := by omega
  unfold String.utf8EncodeChar
  rw [val_ofNat (hvalid.imp_right fun h => ⟨h, by omega⟩)]
  dsimp only
  rw [if_neg (by omega), if_neg (by omega), if_pos hn', hlead, UInt8.ofNat_toNat]
  simp [tailBytes, withoutGroups]

theorem utf8EncodeChar_four (hn : 0xffff < n) (hn' : n < 0x110000)
    (hb : b.toNat = n / 262144 + 0xF0) :
    String.utf8EncodeChar (Char.ofNat n) = b :: tailBytes 3 n := by
  have hlead : n / 262144 % 0x08 + 0xF0 = b.toNat := by omega
  unfold String.utf8EncodeChar
  rw [val_ofNat (Or.inr ⟨by omega, hn'⟩)]
  dsimp only
  rw [if_neg (by omega), if_neg (by omega), if_neg (by omega), hlead, UInt8.ofNat_toNat]
  simp [tailBytes, withoutGroups, Nat.div_div_eq_div_mul]

end

theorem decodeFrom_eq_ok {offset : Nat} {b : UInt8} {bytes : List UInt8} {s : List Char}
    (h : decodeFrom offset none (b :: bytes) = .ok s) :
    ∃ c rest t offset', b :: bytes = String.utf8EncodeChar c ++ rest ∧ rest.length ≤ bytes.length ∧
      decodeFrom offset' none rest = .ok t ∧ s = c :: t := by
  rw [decodeFrom] at h
  split at h
  · next hascii =>
    obtain ⟨t, ht, rfl⟩ := map_eq_ok.1 h
    have hbyte : String.utf8EncodeChar (Char.ofNat b.toNat) = [b] := by
      unfold String.utf8EncodeChar
      rw [val_ofNat (Or.inl (by omega))]
      dsimp only
      rw [if_pos (by omega), UInt8.ofNat_toNat]
    exact ⟨_, bytes, t, _, by rw [hbyte, List.singleton_append], Nat.le_refl _, ht, rfl⟩
  · split at h
    · cases h
    · next p hp =>
      obtain ⟨⟨hlow, hhigh⟩, hcases⟩ := begin_eq_some hp
      obtain ⟨owed, howed⟩ : ∃ owed, p.owed = owed + 1 := ⟨p.owed - 1, by omega⟩
      obtain ⟨n, rest, t, hn, hfrom, hto, rfl, ht, rfl⟩ := decodeFrom_tailBytes howed hlow hhigh h
      have hchar : String.utf8EncodeChar (Char.ofNat n) = b :: tailBytes (owed + 1) n := by
        rcases hcases with ⟨h1, hb, hvalue⟩ | ⟨h2, hb, hvalue⟩ | ⟨h3, hb, hvalue⟩
        · obtain rfl : owed = 0 := by omega
          simp only [withoutGroups] at hn hfrom hto
          exact utf8EncodeChar_two (by omega) (by omega) (by omega)
        · obtain rfl : owed = 1 := by omega
          simp only [withoutGroups] at hn hfrom hto
          exact utf8EncodeChar_three (by omega) (by omega) (by omega) (by omega)
        · obtain rfl : owed = 2 := by omega
          simp only [withoutGroups] at hn hfrom hto
          exact utf8EncodeChar_four (by omega) (by omega) (by omega)
      refine ⟨_, rest, t, _, by rw [hchar, List.cons_append], ?_, ht, rfl⟩
      rw [List.length_append]
      omega

theorem encode_of_decodeFrom {offset : Nat} {bytes : List UInt8} {s : List Char}
    (h : decodeFrom offset none bytes = .ok s) : encode s = bytes := by
  induction hlength : bytes.length using Nat.strongRecOn generalizing offset bytes s with
  | _ length ih =>
    subst hlength
    cases bytes with
    | nil =>
      cases h
      rfl
    | cons b bytes =>
      obtain ⟨c, rest, t, offset', hbytes, hrest, ht, rfl⟩ := decodeFrom_eq_ok h
      have hencoded := ih rest.length (Nat.lt_succ_of_le hrest) ht rfl
      rw [hbytes, encode, List.flatMap_cons, ← encode, hencoded]

/-- The texts that bytes are read as are those that they are written for. -/
theorem decode_eq_ok_iff {bytes : List UInt8} {s : List Char} :
    decode bytes = .ok s ↔ bytes = encode s :=
  ⟨fun h => (encode_of_decodeFrom h).symm, fun h => h ▸ decode_encode s⟩

end NuPlugin.Text.Utf8
