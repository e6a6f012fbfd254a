import Mathlib.Data.Bool.AllAny
import NuPlugin.Proofs.Toml.Document
import NuPlugin.Proofs.Toml.Spelling

/-!
# Lines as they may be written

Blanks may stand between the pieces of a line, and a comment behind them. Neither has a part in what
the line says.
-/

namespace NuPlugin.Toml

variable {s b m u w text : List Char} {c : Char}

/-! ## Pieces of a line -/

def IsBlank (b : List Char) : Prop := ∀ c ∈ b, c = ' ' ∨ c = '\t'

instance (b : List Char) : Decidable (IsBlank b) := List.decidableBAll _ b

/-- What a line may end with: blanks, and perhaps a comment. -/
inductive Margin : List Char → Prop where
  | blanks {b : List Char} (hb : IsBlank b) : Margin b
  | comment {b text : List Char} (hb : IsBlank b) (htext : ∀ c ∈ text, IsPlain c) :
      Margin (b ++ '#' :: text)

inductive MarginLines : List Char → Prop where
  | nil : MarginLines []
  | cons {m lines : List Char} (hm : Margin m) (h : MarginLines lines) :
      MarginLines (m ++ '\n' :: lines)

/-- The pieces in their order, with blanks in front of each. -/
inductive Spaced : List (List Char) → List Char → Prop where
  | nil : Spaced [] []
  | cons {b piece s : List Char} {pieces : List (List Char)} (hb : IsBlank b)
      (h : Spaced pieces s) : Spaced (piece :: pieces) (b ++ (piece ++ s))

def Line (pieces : List (List Char)) (line : List Char) : Prop :=
  ∃ s m, Spaced pieces s ∧ Margin m ∧ line = s ++ m

def EndsLine (u : List Char) : Prop := u = [] ∨ u.head? = some '\n'

/-- A document ends here, with a newline of its last line or without. -/
def EndsText (u : List Char) : Prop := u = [] ∨ u = ['\n']

theorem EndsText.endsLine (h : EndsText u) : EndsLine u := by
  rcases h with rfl | rfl
  · exact .inl rfl
  · exact .inr rfl

theorem Spaced.cons_iff {pieces : List (List Char)} {piece : List Char} :
    Spaced (piece :: pieces) s ↔ ∃ b t, IsBlank b ∧ Spaced pieces t ∧ s = b ++ (piece ++ t) := by
  constructor
  · rintro ⟨⟩
    exact ⟨_, _, ‹_›, ‹_›, rfl⟩
  · rintro ⟨b, t, hb, h, rfl⟩
    exact .cons hb h

theorem Spaced.nil_iff : Spaced [] s ↔ s = [] := by
  constructor
  · rintro ⟨⟩
    rfl
  · rintro rfl
    exact .nil

/-! ## Blanks and margins -/

theorem IsBlank.isSpace (hb : IsBlank b) : ∀ c ∈ b, isSpace c = true := by
  intro c hc
  rcases hb c hc with rfl | rfl <;> rfl

theorem IsBlank.skipSpaces (hb : IsBlank b) (s : List Char) :
    Toml.skipSpaces (b ++ s) = Toml.skipSpaces s :=
  List.dropWhile_append_of_pos hb.isSpace

theorem IsBlank.skipSpaces_cons (hb : IsBlank b) (hc : Toml.isSpace c = false) (s : List Char) :
    Toml.skipSpaces (b ++ c :: s) = c :: s := by
  rw [hb.skipSpaces, Toml.skipSpaces, List.dropWhile_cons_of_neg (by simp [hc])]

theorem IsBlank.head?_ne {p : Char → Bool} (hb : IsBlank b) (hspace : p ' ' = false)
    (htab : p '\t' = false) (hc : p c = false) (s : List Char) :
    ∀ d, (b ++ c :: s).head? = some d → p d = false := by
  intro d hd
  cases b with
  | nil =>
    cases hd
    exact hc
  | cons e b =>
    cases hd
    rcases hb d List.mem_cons_self with rfl | rfl
    · exact hspace
    · exact htab

theorem skipCommentText_plain (htext : ∀ c ∈ text, IsPlain c) (hu : EndsLine u) :
    skipCommentText (text ++ u) = .ok u := by
  induction text with
  | nil =>
    cases u with
    | nil => rfl
    | cons d u =>
      obtain rfl : d = '\n' := by simpa [EndsLine] using hu
      rfl
  | cons d text ih =>
    have hd := (htext d List.mem_cons_self).isForbidden
    have hne : d ≠ '\n' := by
      rintro rfl
      cases hd
    rw [List.cons_append, skipCommentText, if_neg hne, if_neg (by simp [hd])]
    exact ih fun c hc => htext c (List.mem_cons_of_mem d hc)

namespace Draft

variable {d d' : Draft}

theorem lineEnd_of_skip (hu : EndsLine u) (h : skipComment (skipSpaces s) = .ok u) :
    lineEnd s = .ok u.tail := by
  unfold lineEnd
  rw [h, ok_bind]
  cases u with
  | nil => rfl
  | cons c u =>
    obtain rfl : c = '\n' := by simpa [EndsLine] using hu
    rfl

theorem lineEnd_margin (hm : Margin m) (hu : EndsLine u) : lineEnd (m ++ u) = .ok u.tail := by
  apply lineEnd_of_skip hu
  cases hm with
  | blanks hb =>
    cases u with
    | nil =>
      rw [hb.skipSpaces]
      rfl
    | cons c u =>
      obtain rfl : c = '\n' := by simpa [EndsLine] using hu
      rw [hb.skipSpaces_cons (by decide)]
      rfl
  | @comment b text hb htext =>
    rw [List.append_assoc, List.cons_append, hb.skipSpaces_cons (by decide)]
    exact skipCommentText_plain htext hu

theorem readAll_of_statement (hb : IsBlank b) (hspace : isSpace c = false) (hc : c ≠ '\n')
    (h : d.statement (c :: s) = .ok (d', m ++ u)) (hm : Margin m) (hu : EndsLine u) :
    d.readAll (b ++ c :: s) = d'.readAll u.tail := by
  have hskip := hb.skipSpaces_cons hspace s
  have hline : d.line (c :: s) = .ok (d', u.tail) := by
    rw [line, h, ok_bind]
    dsimp only
    rw [lineEnd_margin hm hu]
    rfl
  rw [readAll_of_line hskip hc, hskip, hline, ok_bind]

theorem readAll_endsText (h : EndsText u) : d.readAll u.tail = .ok d := by
  rcases h with rfl | rfl <;> rfl

theorem readAll_margin (hm : Margin m) (s : List Char) :
    d.readAll (m ++ '\n' :: s) = d.readAll s := by
  cases hm with
  | blanks hb => exact readAll_of_newline (hb.skipSpaces_cons (by decide) s)
  | @comment b text hb htext =>
    have hmargin : Margin ('#' :: text) := .comment (b := []) (by decide) htext
    rw [List.append_assoc, List.cons_append]
    exact readAll_of_statement (u := '\n' :: s) hb (by decide) (by decide) rfl hmargin (.inr rfl)

theorem readAll_marginLines (h : MarginLines w) (s : List Char) :
    d.readAll (w ++ s) = d.readAll s := by
  induction h with
  | nil => rfl
  | @cons m lines hm h ih => rw [List.append_assoc, List.cons_append, readAll_margin hm, ih]

end Draft

end NuPlugin.Toml
