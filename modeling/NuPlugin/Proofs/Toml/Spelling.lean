import NuPlugin.Proofs.Toml.ValueReader

/-!
# Spellings of a text

All the ways to write a text on one line, and that each of them is read as that text.
-/

namespace NuPlugin.Toml

variable {text s rest : List Char} {c : Char} {n : Nat}

/-! ## Spellings -/

/-- A character that may stand for itself: the tab, or one that is no control character. -/
def IsPlain (c : Char) : Prop := c = '\t' ∨ 0x20 ≤ c.toNat ∧ c.toNat ≠ 0x7F

instance (c : Char) : Decidable (IsPlain c) := inferInstanceAs (Decidable (_ ∨ _ ∧ _))

def shortEscapes : List (Char × Char) :=
  [('b', '\x08'), ('t', '\t'), ('n', '\n'), ('f', '\x0c'), ('r', '\r'), ('"', '"'), ('\\', '\\')]

def hexDigits : List (Char × Nat) :=
  "0123456789".toList.zipIdx ++ "abcdef".toList.zipIdx 10 ++ "ABCDEF".toList.zipIdx 10

/-- The digits of a number in base 16, with any number of zeros in front. -/
inductive SpellsNumber : List Char → Nat → Prop where
  | nil : SpellsNumber [] 0
  | snoc {s : List Char} {n value : Nat} {c : Char} (hs : SpellsNumber s n)
      (hc : (c, value) ∈ hexDigits) : SpellsNumber (s ++ [c]) (n * 16 + value)

inductive SpellsChar (c : Char) : List Char → Prop where
  | raw (hplain : IsPlain c) (hquote : c ≠ '"') (hbackslash : c ≠ '\\') : SpellsChar c [c]
  | short {letter : Char} (h : (letter, c) ∈ shortEscapes) : SpellsChar c ['\\', letter]
  | hex4 {digits : List Char} (hlength : digits.length = 4) (h : SpellsNumber digits c.toNat) :
      SpellsChar c ('\\' :: 'u' :: digits)
  | hex8 {digits : List Char} (hlength : digits.length = 8) (h : SpellsNumber digits c.toNat) :
      SpellsChar c ('\\' :: 'U' :: digits)

inductive SpellsBasic : List Char → List Char → Prop where
  | nil : SpellsBasic [] []
  | cons {c : Char} {text s rest : List Char} (hc : SpellsChar c s) (h : SpellsBasic text rest) :
      SpellsBasic (c :: text) (s ++ rest)

/-- The ways to write a text on one line: between double quotes, or between single quotes, where
nothing can be escaped. -/
inductive Spells (text : List Char) : List Char → Prop where
  | basic {s : List Char} (h : SpellsBasic text s) : Spells text ('"' :: (s ++ ['"']))
  | literal (h : ∀ c ∈ text, IsPlain c ∧ c ≠ '\'') : Spells text ('\'' :: (text ++ ['\'']))

/-! ## Characters -/

theorem IsPlain.isForbidden (h : IsPlain c) : isForbidden false c = false := by
  rcases h with rfl | ⟨hlow, hdelete⟩
  · rfl
  · exact isForbidden_eq_false hlow hdelete false

theorem shortEscape?_of_mem : ∀ e ∈ shortEscapes, shortEscape? e.1 = some e.2 := by decide

theorem hexValue?_of_mem : ∀ d ∈ hexDigits, hexValue? d.1 = some d.2 := by decide

theorem SpellsNumber.hexNumber? (h : SpellsNumber s n) : hexNumber? s = some n := by
  induction h with
  | nil => rfl
  | snoc hs hc ih =>
    rw [Toml.hexNumber?] at ih ⊢
    rw [List.foldlM_append, ih]
    simp [hexValue?_of_mem _ hc]

theorem SpellsNumber.hexChar (h : SpellsNumber s c.toNat) (rest : List Char) :
    hexChar s.length (s ++ rest) = .ok ([c], rest) := by
  have hvalid : c.toNat.isValidChar := c.valid
  unfold Toml.hexChar
  simp only [List.take_left, List.drop_left, if_true, h.hexNumber?, hvalid, Char.ofNat_toNat]

theorem closingMark_not_isPrefixOf {quote : Char} (h : c ≠ quote) (s : List Char) :
    (closingMark false quote).isPrefixOf (c :: s) = false := by
  simp [closingMark, List.isPrefixOf, h.symm]

theorem SpellsChar.basicIn (h : SpellsChar c s) {steps : Nat} {r : List Char}
    (hr : basicIn false steps r = .ok (text, rest)) :
    basicIn false (steps + 1) (s ++ r) = .ok (c :: text, rest) := by
  have hmark : ∀ s : List Char, (closingMark false '"').isPrefixOf ('\\' :: s) = false :=
    closingMark_not_isPrefixOf (by decide)
  cases h with
  | raw hplain hquote hbackslash =>
    exact basicIn_char (closingMark_not_isPrefixOf hquote r) hbackslash hplain.isForbidden hr
  | short h =>
    exact basicIn_escape (hmark _) (escape_short (shortEscape?_of_mem _ h) false r) hr
  | @hex4 digits hlength h =>
    have hescape : escape false ('u' :: (digits ++ r)) = .ok ([c], r) := by
      rw [escape_hex4, ← hlength, h.hexChar]
    exact basicIn_escape (hmark _) hescape hr
  | @hex8 digits hlength h =>
    have hescape : escape false ('U' :: (digits ++ r)) = .ok ([c], r) := by
      rw [escape_hex8, ← hlength, h.hexChar]
    exact basicIn_escape (hmark _) hescape hr

theorem SpellsChar.ne_nil (h : SpellsChar c s) : s ≠ [] := by
  cases h <;> exact List.cons_ne_nil _ _

/-! ## Texts -/

theorem SpellsBasic.basicIn (h : SpellsBasic text s) {steps : Nat}
    (hsteps : (s ++ ['"']).length ≤ steps) :
    basicIn false steps (s ++ ['"']) = .ok (text, []) := by
  induction h generalizing steps with
  | nil =>
    obtain ⟨steps, rfl⟩ : ∃ n, steps = n + 1 := ⟨steps - 1, by simp at hsteps; omega⟩
    exact basicIn_mark rfl
  | @cons c text s rest hc h ih =>
    -- Every way to write a character has a character that pays for the step that reads it.
    have hlength := List.length_pos_of_ne_nil hc.ne_nil
    rw [List.append_assoc, List.length_append] at hsteps
    obtain ⟨steps, rfl⟩ : ∃ n, steps = n + 1 := ⟨steps - 1, by omega⟩
    rw [List.append_assoc]
    exact hc.basicIn (ih (by omega))

theorem SpellsBasic.head?_ne (h : SpellsBasic text s) : s.head? ≠ some '"' := by
  cases h with
  | nil => simp
  | cons hc h =>
    cases hc with
    | raw hplain hquote hbackslash => simpa using hquote
    | _ => simp

theorem cutAt_mark {quote : Char} (h : quote ∉ text) :
    cutAt (closingMark false quote) (text ++ [quote]) = some (text, []) := by
  induction text with
  | nil => simp [cutAt, closingMark, List.isPrefixOf]
  | cons c text ih =>
    rw [List.mem_cons, not_or] at h
    obtain ⟨hc, htext⟩ := h
    rw [List.cons_append, cutAt, closingMark_not_isPrefixOf (Ne.symm hc), ih htext]
    rfl

theorem literal_of_isPlain (h : ∀ c ∈ text, IsPlain c ∧ c ≠ '\'') :
    literal false (text ++ ['\'']) = .ok (text, []) := by
  have hquote : '\'' ∉ text := fun hc => (h _ hc).2 rfl
  have hfind : text.find? (isForbidden false) = none :=
    List.find?_eq_none.2 fun c hc => by simp [(h c hc).1.isForbidden]
  unfold literal
  simp only [cutAt_mark hquote, hfind]

theorem Spells.textBody (h : Spells text s) :
    ∃ quote body, s = quote :: body ∧ (quote = '"' ∨ quote = '\'') ∧
      textBody false quote body = .ok (text, []) := by
  cases h with
  | basic h => exact ⟨'"', _, rfl, .inl rfl, h.basicIn (Nat.le_refl _)⟩
  | literal h => exact ⟨'\'', _, rfl, .inr rfl, literal_of_isPlain h⟩

theorem textAfter_append {quote : Char} (hquote : quote = '"' ∨ quote = '\'') (hne : s ≠ [])
    (hhead : s.head? ≠ some quote)
    (hbody : textBody false quote (s ++ [quote]) = .ok (text, [])) (rest : List Char) :
    textAfter quote (s ++ [quote] ++ rest) = .ok (text, rest) := by
  obtain ⟨c, s, rfl⟩ := List.exists_cons_of_ne_nil hne
  have hc : quote ≠ c := fun he => hhead (he ▸ rfl)
  have hmark : [quote, quote].isPrefixOf (c :: s ++ [quote] ++ rest) = false := by
    simp [List.isPrefixOf, hc]
  rw [textAfter, hmark, if_neg Bool.false_ne_true, textBody_append hquote hbody]
  rfl

theorem SpellsBasic.ne_nil (h : SpellsBasic text s) (hne : text ≠ []) : s ≠ [] := by
  cases h with
  | nil => exact absurd rfl hne
  | cons hc h => exact List.append_ne_nil_of_left_ne_nil hc.ne_nil _

/-- A text that is not empty is read whatever follows it. Two quotes alone might be the beginning of
three. -/
theorem Spells.readIn (h : Spells text s) (hne : text ≠ []) (depth : Nat)
    (rest : List Char) :
    Value.readIn (depth + 1) (s ++ rest) = .ok (.text (String.ofList text), rest) := by
  have hread : ∃ quote body, s = quote :: body ∧ (quote = '"' ∨ quote = '\'') ∧
      Toml.textAfter quote (body ++ rest) = .ok (text, rest) := by
    cases h with
    | @basic body h =>
      have hbody : Toml.textBody false '"' (body ++ ['"']) = .ok (text, []) :=
        h.basicIn (Nat.le_refl _)
      exact ⟨'"', _, rfl, .inl rfl,
        textAfter_append (.inl rfl) (h.ne_nil hne) h.head?_ne hbody rest⟩
    | literal h =>
      have hhead : text.head? ≠ some '\'' := fun hc => (h _ (List.mem_of_head? hc)).2 rfl
      exact ⟨'\'', _, rfl, .inr rfl,
        textAfter_append (.inr rfl) hne hhead (literal_of_isPlain h) rest⟩
  obtain ⟨quote, body, rfl, hquote, hafter⟩ := hread
  rw [List.cons_append, Value.readIn]
  dsimp only
  rw [if_pos hquote, hafter]
  rfl

end NuPlugin.Toml
