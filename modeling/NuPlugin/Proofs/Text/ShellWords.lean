import NuPlugin.Text.Quoted

/-!
# Words on a line there and back

A shell's rules for a line of words, as far as nothing in it is expanded. What `join` writes follows
them, and `split` reads every line that does. So a line is written for one list of words only.
-/

namespace NuPlugin.Text.ShellWords

/-! ## The rules of a shell -/

/-- Between double quotes these characters mean more than themselves, or end the part. -/
def IsSpecial (c : Char) : Prop := c = '"' ∨ c = '$' ∨ c = '\u0060' ∨ c = '\\'

/-- A part of a word and the characters that it stands for. Between single quotes everything stands
for itself, up to the next single quote. -/
inductive Part : List Char → List Char → Prop where
  | bare {c : Char} (h : isPlain c = true) : Part [c] [c]
  | single {s : List Char} (h : '\'' ∉ s) : Part ('\'' :: (s ++ ['\''])) s
  | double {s : List Char} (h : ∀ c ∈ s, ¬ IsSpecial c) : Part ('"' :: (s ++ ['"'])) s

inductive Word : List Char → List Char → Prop where
  | last {text w : List Char} (h : Part text w) : Word text w
  | more {text text' w w' : List Char} (h : Part text w) (hrest : Word text' w') :
      Word (text ++ text') (w ++ w')

/-- A line and its words. A word goes on up to a blank or to the end. -/
inductive Line : List Char → List (List Char) → Prop where
  | nil : Line [] []
  | blank {c : Char} {rest : List Char} {words : List (List Char)} (hc : isSeparator c = true)
      (h : Line rest words) : Line (c :: rest) words
  | word {text w rest : List Char} {words : List (List Char)} (hw : Word text w)
      (hend : ∀ c ∈ rest.head?, isSeparator c = true) (h : Line rest words) :
      Line (text ++ rest) (w :: words)

variable {c : Char} {s text w rest line : List Char} {words : List (List Char)}

/-! ## Reading -/

theorem isSeparator_of_isPlain (h : isPlain c = true) : isSeparator c = false := by
  cases hc : isSeparator c with
  | false => rfl
  | true =>
    simp only [isSeparator, Bool.or_eq_true, decide_eq_true_eq] at hc
    rcases hc with (rfl | rfl) | rfl <;> cases h

theorem unquoted_of_isPlain (h : isPlain c = true) (w : List Char) :
    State.unquoted w c = some (.bare (c :: w)) := by
  have hsingle : c ≠ '\'' := by
    rintro rfl
    cases h
  have hdouble : c ≠ '"' := by
    rintro rfl
    cases h
  rw [State.unquoted, if_neg hsingle, if_neg hdouble, if_pos h]

theorem splitFrom_single (h : '\'' ∉ s) (w rest : List Char) :
    splitFrom (.single w) (s ++ '\'' :: rest) = splitFrom (.bare (s.reverse ++ w)) rest := by
  induction s generalizing w with
  | nil =>
    rw [List.nil_append, splitFrom, if_pos rfl]
    rfl
  | cons c s ih =>
    have hc : c ≠ '\'' := fun he => h (he ▸ List.mem_cons_self ..)
    rw [List.cons_append, splitFrom, if_neg hc, ih fun hs => h (List.mem_cons_of_mem _ hs),
      List.reverse_cons, List.append_assoc, List.singleton_append]

theorem splitFrom_double (h : ∀ c ∈ s, ¬ IsSpecial c) (w rest : List Char) :
    splitFrom (.double w) (s ++ '"' :: rest) = splitFrom (.bare (s.reverse ++ w)) rest := by
  induction s generalizing w with
  | nil =>
    rw [List.nil_append, splitFrom, State.inDouble, if_pos rfl]
    rfl
  | cons c s ih =>
    obtain ⟨hc, hs⟩ := List.forall_mem_cons.1 h
    obtain ⟨hquote, hmore⟩ := not_or.1 hc
    rw [List.cons_append, splitFrom, State.inDouble, if_neg hquote, if_neg hmore,
      Option.bind_some, ih hs, List.reverse_cons, List.append_assoc, List.singleton_append]

theorem splitFrom_part (h : Part text s) (w rest : List Char) :
    splitFrom (.bare w) (text ++ rest) = splitFrom (.bare (s.reverse ++ w)) rest := by
  cases h with
  | bare h =>
    rw [List.singleton_append, splitFrom, if_neg (ne_true_of_eq_false (isSeparator_of_isPlain h)),
      unquoted_of_isPlain h, Option.bind_some]
    rfl
  | single h =>
    rw [List.cons_append, List.append_assoc, splitFrom, if_neg (by decide), State.unquoted,
      if_pos rfl, Option.bind_some]
    exact splitFrom_single h w rest
  | double h =>
    rw [List.cons_append, List.append_assoc, splitFrom, if_neg (by decide), State.unquoted,
      if_neg (by decide), if_pos rfl, Option.bind_some]
    exact splitFrom_double h w rest

theorem splitFrom_word (h : Word text s) (w rest : List Char) :
    splitFrom (.bare w) (text ++ rest) = splitFrom (.bare (s.reverse ++ w)) rest := by
  induction h generalizing w with
  | last h => exact splitFrom_part h w rest
  | more h _ ih =>
    rw [List.append_assoc, splitFrom_part h, ih, List.reverse_append, List.append_assoc]

theorem Part.exists_cons (h : Part text s) :
    ∃ c tail, text = c :: tail ∧ isSeparator c = false := by
  cases h with
  | bare h => exact ⟨_, _, rfl, isSeparator_of_isPlain h⟩
  | single h => exact ⟨_, _, rfl, rfl⟩
  | double h => exact ⟨_, _, rfl, rfl⟩

theorem Word.exists_cons (h : Word text s) :
    ∃ c tail, text = c :: tail ∧ isSeparator c = false := by
  cases h with
  | last h => exact h.exists_cons
  | more h _ =>
    obtain ⟨c, tail, rfl, hc⟩ := h.exists_cons
    exact ⟨c, _, rfl, hc⟩

/-- No word begins with a blank, so between words it is read as behind an empty one. -/
theorem splitFrom_between_word (h : Word text s) (rest : List Char) :
    splitFrom .between (text ++ rest) = splitFrom (.bare s.reverse) rest := by
  have hword := splitFrom_word h [] rest
  rw [List.append_nil] at hword
  obtain ⟨c, tail, rfl, hc⟩ := h.exists_cons
  rw [← hword, List.cons_append, splitFrom, splitFrom, if_neg (ne_true_of_eq_false hc),
    if_neg (ne_true_of_eq_false hc)]

theorem splitFrom_line (h : Line line words) : splitFrom .between line = some words := by
  induction h with
  | nil => rfl
  | blank hc _ ih => rw [splitFrom, if_pos hc, ih]
  | @word text w rest words hw hend _ ih =>
    rw [splitFrom_between_word hw]
    cases rest with
    | nil =>
      obtain rfl := Option.some.inj ih
      rw [splitFrom, List.reverse_reverse]
    | cons c rest =>
      have hc : isSeparator c = true := hend c rfl
      rw [splitFrom, if_pos hc] at ih
      rw [splitFrom, if_pos hc, ih, List.reverse_reverse, Option.map_some]

/-! ## Writing -/

theorem Word.of_isPlain (hne : w ≠ []) (h : ∀ c ∈ w, isPlain c = true) : Word w w := by
  induction w with
  | nil => exact absurd rfl hne
  | cons c w ih =>
    obtain ⟨hc, hw⟩ := List.forall_mem_cons.1 h
    by_cases hnil : w = []
    · rw [hnil]
      exact .last (.bare hc)
    · exact .more (.bare hc) (ih hnil hw)

/-- Quotes are left at every single quote, for one between double quotes. -/
theorem Word.quoted (h : '\'' ∉ s) (w : List Char) :
    Word ('\'' :: (s ++ (w.flatMap quotedChar ++ ['\'']))) (s ++ w) := by
  induction w generalizing s with
  | nil =>
    rw [List.append_nil]
    exact .last (.single h)
  | cons c w ih =>
    by_cases hc : c = '\''
    · have hopen : Part ('\'' :: (s ++ ['\''])) s := .single h
      have hquote : Part ('"' :: (['\''] ++ ['"'])) ['\''] := .double (by simp [IsSpecial])
      have hword := Word.more hopen (.more hquote (ih (s := []) nofun))
      subst hc
      simpa [quotedChar] using hword
    · have hsnoc : '\'' ∉ s ++ [c] := by simp [h, Ne.symm hc]
      have hword := ih hsnoc
      simpa [quotedChar, hc] using hword

theorem word_isWord (w : List Char) : Word (word w) w := by
  unfold word
  split
  · next h => exact .of_isPlain h.1 (List.all_eq_true.1 h.2)
  · exact Word.quoted (s := []) nofun w

theorem join_isLine (words : List String) :
    Line (join words).toList (words.map String.toList) := by
  induction words with
  | nil => exact .nil
  | cons w words ih =>
    have hw := word_isWord w.toList
    cases words with
    | nil =>
      have hline := Line.word hw (by simp) .nil
      simpa [join] using hline
    | cons w' words =>
      have hline := Line.word hw (by simp [isSeparator]) (.blank (c := ' ') rfl ih)
      simpa [join, String.intercalate_cons_cons, String.toList_append] using hline

/-! ## There and back -/

theorem split_join (words : List String) : split (join words) = some words := by
  rw [split, splitFrom_line (join_isLine words), Option.map_some, List.map_map]
  simp [Function.comp_def]

theorem join_inj {words words' : List String} : join words = join words' ↔ words = words' := by
  refine ⟨fun h => ?_, fun h => h ▸ rfl⟩
  have hread := split_join words
  rw [h, split_join] at hread
  exact (Option.some.inj hread).symm

end NuPlugin.Text.ShellWords
