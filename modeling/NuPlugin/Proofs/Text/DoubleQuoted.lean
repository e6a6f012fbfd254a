import NuPlugin.Text.Quoted

/-!
# Double-quoted text there and back

What `escaped` writes, the host takes apart into characters and escapes, and every one of them
gives back the character that it was written for. The closing quote is the first quote that no
backslash stands before.
-/

namespace NuPlugin.Text.DoubleQuoted

variable {s after : List Char}

/-! ## Writing in two passes -/

theorem escaped_cons (c : Char) (s : List Char) : escaped (c :: s) = escapedChar c ++ escaped s :=
  rfl

def replaced (c : Char) (new s : List Char) : List Char :=
  s.flatMap fun d => if d = c then new else [d]

theorem replaced_cons (c : Char) (new : List Char) (d : Char) (s : List Char) :
    replaced c new (d :: s) = (if d = c then new else [d]) ++ replaced c new s := rfl

theorem replaced_append (c : Char) (new s t : List Char) :
    replaced c new (s ++ t) = replaced c new s ++ replaced c new t :=
  List.flatMap_append

/-- Backslashes come first: those that are put before quotes must not be doubled. -/
theorem replaced_replaced (s : List Char) :
    replaced '"' ['\\', '"'] (replaced '\\' ['\\', '\\'] s) = escaped s := by
  induction s with
  | nil => rfl
  | cons c s ih =>
    rw [replaced_cons, replaced_append, ih, escaped_cons]
    congr 1
    by_cases hbackslash : c = '\\'
    · subst hbackslash
      rfl
    · rw [if_neg hbackslash]
      by_cases hquote : c = '"'
      · subst hquote
        rfl
      · simp [replaced, escapedChar, hbackslash, hquote]

/-! ## Pieces -/

/-- What a double-quoted text is made of. A backslash and the character behind it are one escape,
whether it has a meaning or not. -/
inductive Piece where
  | char (c : Char)
  | escape (c : Char)
  deriving DecidableEq

def pieces : List Char → Option (List Piece × List Char)
  | [] => none
  | '"' :: after => some ([], after)
  | ['\\'] => none
  | '\\' :: c :: s => (pieces s).map fun (ps, after) => (.escape c :: ps, after)
  | c :: s => (pieces s).map fun (ps, after) => (.char c :: ps, after)

namespace Piece

/-- The character that a piece stands for. Of the escapes only two are known here. -/
def meaning? : Piece → Option Char
  | .char c => some c
  | .escape c => if c = '"' ∨ c = '\\' then some c else none

def ofChar (c : Char) : Piece := if c = '"' ∨ c = '\\' then .escape c else .char c

theorem meaning?_ofChar (c : Char) : (ofChar c).meaning? = some c := by
  unfold ofChar
  split
  · next h => exact if_pos h
  · rfl

theorem mapM_meaning?_ofChar (s : List Char) : (s.map ofChar).mapM meaning? = some s := by
  induction s with
  | nil => rfl
  | cons c s ih => simp [List.mapM_cons, meaning?_ofChar, ih]

theorem of_escape_mem_map_ofChar {c : Char} (h : .escape c ∈ s.map ofChar) :
    c = '"' ∨ c = '\\' := by
  obtain ⟨d, -, hd⟩ := List.mem_map.1 h
  unfold ofChar at hd
  split at hd
  · next hd' => exact Piece.escape.inj hd ▸ hd'
  · cases hd

end Piece

theorem pieces_escape (c : Char) (s : List Char) :
    pieces ('\\' :: c :: s) = (pieces s).map fun (ps, after) => (.escape c :: ps, after) := rfl

theorem pieces_char {c : Char} (hquote : c ≠ '"') (hbackslash : c ≠ '\\') (s : List Char) :
    pieces (c :: s) = (pieces s).map fun (ps, after) => (.char c :: ps, after) := by
  rw [pieces.eq_def]
  split <;> simp_all

theorem pieces_escaped (s after : List Char) :
    pieces (escaped s ++ '"' :: after) = some (s.map Piece.ofChar, after) := by
  induction s with
  | nil => rfl
  | cons c s ih =>
    rw [escaped_cons, List.append_assoc, List.map_cons]
    by_cases h : c = '"' ∨ c = '\\'
    · rw [escapedChar, if_pos h, Piece.ofChar, if_pos h, List.cons_append, List.singleton_append,
        pieces_escape, ih]
      rfl
    · rw [escapedChar, if_neg h, Piece.ofChar, if_neg h, List.singleton_append,
        pieces_char (fun hc => h (.inl hc)) (fun hc => h (.inr hc)), ih]
      rfl

/-! ## Reading -/

/-- The reader takes the pieces and gives up at one that it does not know. -/
theorem readEscaped_eq (s : List Char) :
    readEscaped s =
      (pieces s).bind fun read => (read.1.mapM Piece.meaning?).map fun t => (t, read.2) := by
  fun_induction pieces s with
  | case1 => rfl
  | case2 after => rfl
  | case3 => rfl
  | case4 c s ih =>
    rw [readEscaped, ih]
    cases pieces s with
    | none => simp
    | some read =>
      by_cases h : c = '"' ∨ c = '\\' <;>
        simp [List.mapM_cons, Piece.meaning?, h, Option.map_eq_bind, Option.bind_assoc]
  | case5 c s hquote hnil hbackslash ih =>
    have hread : readEscaped (c :: s) =
        (readEscaped s).map fun read => (c :: read.1, read.2) := by
      rw [readEscaped.eq_def]
      split <;> simp_all
    rw [hread, ih]
    cases pieces s with
    | none => rfl
    | some read =>
      simp [List.mapM_cons, Piece.meaning?, Option.map_eq_bind, Option.bind_assoc]

theorem readText_writeText_append (s after : List Char) :
    readText (writeText s ++ after) = some (s, after) := by
  change readEscaped (escaped s ++ ['"'] ++ after) = some (s, after)
  rw [List.append_assoc, List.singleton_append, readEscaped_eq, pieces_escaped]
  simp only [Option.bind_some, Piece.mapM_meaning?_ofChar, Option.map_some]

theorem readText_writeText (s : List Char) : readText (writeText s) = some (s, []) := by
  have h := readText_writeText_append s []
  rwa [List.append_nil] at h

theorem writeText_inj {s t : List Char} : writeText s = writeText t ↔ s = t := by
  refine ⟨fun h => ?_, fun h => h ▸ rfl⟩
  have hread := readText_writeText s
  rw [h, readText_writeText] at hread
  cases hread
  rfl

end NuPlugin.Text.DoubleQuoted
