import NuPlugin.Proofs.Toml.ValueReader
import NuPlugin.Toml.Document

/-!
# Documents across a seam

A document is read line by line, so what its first lines make of the empty draft is made whatever
lines come after them.
-/

namespace NuPlugin.Toml

variable {s t rest : List Char} {d d' : Draft}

namespace Draft

/-! ## Statements -/

theorem pairStatement_carried (hs : Seam s t) :
    Carried s t (d.pairStatement s) (d.pairStatement (s ++ t)) := by
  apply (pair_carried (Value.read_carried t) hs).bind
  rintro ⟨k, v⟩ r hr
  apply located_carried
  intro d
  exact .ok (List.suffix_refl r) hr

theorem tableHeader_carried (hs : Seam s t) :
    Carried s t (d.tableHeader s) (d.tableHeader (s ++ t)) := by
  unfold tableHeader
  rw [skipSpaces_append hs]
  apply Carried.mono (skipSpaces_suffix s)
  apply (Key.read_carried (skipSpaces_seam hs)).bind
  intro k r hr
  apply located_carried
  intro d
  split
  · exact .ok (List.suffix_cons _ _) (hr.tail (by decide))
  · exact .error _ _

theorem elementHeader_carried (hs : Seam s t) :
    Carried s t (d.elementHeader s) (d.elementHeader (s ++ t)) := by
  unfold elementHeader
  rw [skipSpaces_append hs]
  apply Carried.mono (skipSpaces_suffix s)
  apply (Key.read_carried (skipSpaces_seam hs)).bind
  intro k r hr
  apply located_carried
  intro d
  split
  · next r =>
    exact .ok (List.suffix_append [']', ']'] r) ((hr.tail (by decide)).tail (by decide))
  · exact .error _ _

theorem statement_table (d : Draft) (h : s.head? ≠ some '[') :
    d.statement ('[' :: s) = d.settle.tableHeader s := by
  cases s with
  | nil => rfl
  | cons c s =>
    have hc : c ≠ '[' := fun hc => h (hc ▸ rfl)
    simp [statement, hc]

theorem statement_pair (d : Draft) {c : Char} (hbracket : c ≠ '[') (hhash : c ≠ '#') :
    d.statement (c :: s) =
      if Key.canBegin c then d.pairStatement (c :: s)
      else .error (.malformed .invalidStatement (c :: s)) := by
  simp [statement, hbracket]

theorem statement_carried (hs : Seam s t) :
    Carried s t (d.statement s) (d.statement (s ++ t)) := by
  cases s with
  | nil => exact .error _ _
  | cons c s =>
    by_cases hbracket : c = '['
    · subst hbracket
      have hs' := hs.tail (by decide)
      cases s with
      | nil =>
        obtain ⟨t, rfl⟩ := hs'.of_nil
        rw [List.cons_append, statement_table d (by simp), statement_table d (by simp)]
        exact .mono (List.suffix_cons _ _) (tableHeader_carried hs')
      | cons c s =>
        by_cases hbracket : c = '['
        · subst hbracket
          exact .mono (List.suffix_append ['[', '['] s)
            (elementHeader_carried (hs'.tail (by decide)))
        · rw [List.cons_append, statement_table d (by simpa using hbracket),
            statement_table d (by simpa using hbracket)]
          exact .mono (List.suffix_cons _ _) (tableHeader_carried hs')
    · by_cases hhash : c = '#'
      · subst hhash
        exact .ok (List.suffix_refl _) hs
      · rw [List.cons_append, statement_pair d hbracket hhash, statement_pair d hbracket hhash]
        split
        · exact pairStatement_carried hs
        · exact .error _ _

theorem statement_suffix (h : d.statement s = .ok (d', rest)) : rest <:+ s := by
  have hs : Seam s ['\n'] := Or.inr rfl
  exact (statement_carried hs d' rest h).1

theorem statement_cases (h : d.statement s = .ok (d', rest)) :
    (∃ k v, d.assign k v = .ok d') ∨ (∃ k, d.settle.openTable k = .ok d') ∨
      (∃ k, d.settle.openElement k = .ok d') ∨ d' = d := by
  unfold statement at h
  split at h
  · obtain ⟨⟨k, r⟩, -, h⟩ := bind_eq_ok.1 h
    obtain ⟨d₁, hd, h⟩ := bind_eq_ok.1 h
    rw [located, mapError_eq_ok] at hd
    split at h
    · cases h
      exact Or.inr (Or.inr (Or.inl ⟨k, hd⟩))
    · cases h
  · obtain ⟨⟨k, r⟩, -, h⟩ := bind_eq_ok.1 h
    obtain ⟨d₁, hd, h⟩ := bind_eq_ok.1 h
    rw [located, mapError_eq_ok] at hd
    split at h
    · cases h
      exact Or.inr (Or.inl ⟨k, hd⟩)
    · cases h
  · cases h
    exact Or.inr (Or.inr (Or.inr rfl))
  · split at h
    · obtain ⟨⟨⟨k, v⟩, r⟩, -, h⟩ := bind_eq_ok.1 h
      obtain ⟨d₁, hd, h⟩ := bind_eq_ok.1 h
      rw [located, mapError_eq_ok] at hd
      cases h
      exact Or.inl ⟨k, v, hd⟩
    · cases h
  · cases h

/-! ## Ends of lines -/

theorem lineEnd_eq_ok (h : lineEnd s = .ok rest) :
    skipComment (skipSpaces s) = .ok ('\n' :: rest) ∨
      skipComment (skipSpaces s) = .ok [] ∧ rest = [] := by
  obtain ⟨r, hskip, h⟩ := bind_eq_ok.1 h
  split at h
  · exact Or.inr ⟨hskip, (Except.ok.inj h).symm⟩
  · exact Or.inl (Except.ok.inj h ▸ hskip)
  · cases h

theorem lineEnd_of_newline (h : skipComment (skipSpaces s) = .ok ('\n' :: rest)) :
    lineEnd s = .ok rest := by
  rw [lineEnd, h]
  rfl

theorem skipComment_skipSpaces_leaves (h : skipComment (skipSpaces s) = .ok rest) :
    Leaves s rest :=
  (skipSpaces_passes false s).leaves.trans (skipComment_passes h).leaves

theorem skipComment_skipSpaces_append (hs : Seam s t)
    (h : skipComment (skipSpaces s) = .ok rest) :
    skipComment (skipSpaces (s ++ t)) = .ok (rest ++ t) := by
  rw [skipSpaces_append hs]
  exact skipComment_append (skipSpaces_seam hs) h

theorem lineEnd_suffix (h : lineEnd s = .ok rest) : rest <:+ s := by
  rcases lineEnd_eq_ok h with h | ⟨-, rfl⟩
  · exact (List.suffix_cons '\n' rest).trans (skipComment_skipSpaces_leaves h).suffix
  · exact List.nil_suffix

theorem lineEnd_length (h : lineEnd s = .ok rest) : rest.length < s.length ∨ rest = [] := by
  rcases lineEnd_eq_ok h with h | ⟨-, rfl⟩
  · left
    have hle := (skipComment_skipSpaces_leaves h).length_le
    rw [List.length_cons] at hle
    omega
  · exact Or.inr rfl

/-! ## Lines -/

def line (d : Draft) (s : List Char) : Except Fault (Draft × List Char) := do
  let (d, rest) ← d.statement s
  return (d, ← lineEnd rest)

theorem readIn_line {c : Char} (h : skipSpaces s = c :: rest) (hc : c ≠ '\n') (lines : Nat) :
    readIn (lines + 1) d s =
      (d.line (skipSpaces s) >>= fun (d, rest) => readIn lines d rest) := by
  rw [readIn, h]
  split
  · next he => cases he
  · next he => exact absurd (List.cons.inj he).1 hc
  · rw [line]
    cases hs : d.statement (c :: rest) with
    | error e => rfl
    | ok read =>
      obtain ⟨d', r⟩ := read
      rw [ok_bind, ok_bind]
      cases hend : lineEnd r <;> simp [hend]

theorem line_length (h : d.line s = .ok (d', rest)) : rest.length < s.length := by
  obtain ⟨⟨d'', r⟩, hstatement, h⟩ := bind_eq_ok.1 h
  obtain ⟨rest', hend, h⟩ := bind_eq_ok.1 h
  cases h
  have hr := (statement_suffix hstatement).length_le
  rcases lineEnd_length hend with hlength | rfl
  · omega
  · cases s with
    | nil => cases hstatement
    | cons c s => exact Nat.zero_lt_succ _

theorem readIn_congr {lines lines' : Nat} (h : s.length < lines) (h' : s.length < lines') :
    readIn lines d s = readIn lines' d s := by
  induction lines generalizing s d lines' with
  | zero => omega
  | succ lines ih =>
    obtain ⟨lines', rfl⟩ : ∃ n, lines' = n + 1 := ⟨lines' - 1, by omega⟩
    have hspaces := (skipSpaces_suffix s).length_le
    cases hs : skipSpaces s with
    | nil => rw [readIn, readIn, hs]
    | cons c rest =>
      by_cases hc : c = '\n'
      · subst hc
        rw [hs, List.length_cons] at hspaces
        rw [readIn, readIn, hs]
        exact ih (by omega) (by omega)
      · -- Every line takes a character, so neither number of lines runs out.
        rw [readIn_line hs hc, readIn_line hs hc]
        cases hline : d.line (skipSpaces s) with
        | error e => rfl
        | ok read =>
          have hrest := line_length hline
          exact ih (by omega) (by omega)

def readAll (d : Draft) (s : List Char) : Except Fault Draft := readIn (s.length + 1) d s

theorem readAll_of_blank (h : skipSpaces s = []) : d.readAll s = .ok d := by
  rw [readAll, readIn, h]

theorem readAll_of_newline (h : skipSpaces s = '\n' :: rest) : d.readAll s = d.readAll rest := by
  have hspaces := (skipSpaces_suffix s).length_le
  rw [h, List.length_cons] at hspaces
  rw [readAll, readIn, h]
  exact readIn_congr (by omega) (by omega)

theorem readAll_of_line {c : Char} (h : skipSpaces s = c :: rest) (hc : c ≠ '\n') :
    d.readAll s = (d.line (skipSpaces s) >>= fun (d, rest) => d.readAll rest) := by
  have hspaces := (skipSpaces_suffix s).length_le
  rw [readAll, readIn_line h hc]
  cases hline : d.line (skipSpaces s) with
  | error e => rfl
  | ok read =>
    have hrest := line_length hline
    exact readIn_congr (by omega) (by omega)

/-- Follows the reading line by line: past a blank end, a blank line, or a line that was read. -/
theorem readAll_induct {motive : Draft → List Char → Prop}
    (blank : ∀ d s, skipSpaces s = [] → motive d s)
    (newline : ∀ d s rest, skipSpaces s = '\n' :: rest → motive d rest → motive d s)
    (line : ∀ d s c rest, skipSpaces s = c :: rest → c ≠ '\n' →
      (∀ d' r, d.line (c :: rest) = .ok (d', r) → motive d' r) → motive d s)
    (d : Draft) (s : List Char) : motive d s := by
  induction hlength : s.length using Nat.strong_induction_on generalizing s d with
  | _ length ih =>
    subst hlength
    have hspaces := (skipSpaces_suffix s).length_le
    cases hskip : skipSpaces s with
    | nil => exact blank d s hskip
    | cons c rest =>
      rw [hskip, List.length_cons] at hspaces
      by_cases hc : c = '\n'
      · subst hc
        exact newline d s rest hskip (ih rest.length (by omega) d rest rfl)
      · refine line d s c rest hskip hc fun d' r hline => ?_
        have hr := line_length hline
        rw [List.length_cons] at hr
        exact ih r.length (by omega) d' r rfl

theorem line_append (hs : Seam s t) (h : d.line s = .ok (d', rest)) :
    ((rest = [] ∨ Seam rest t) ∧ d.line (s ++ t) = .ok (d', rest ++ t)) ∨
      ∃ t', rest = [] ∧ t = '\n' :: t' ∧ d.line (s ++ t) = .ok (d', t') := by
  obtain ⟨⟨d'', r⟩, hstatement, h⟩ := bind_eq_ok.1 h
  obtain ⟨rest', hend, h⟩ := bind_eq_ok.1 h
  cases h
  obtain ⟨-, hr, hwhole⟩ := statement_carried hs _ _ hstatement
  have hline : ∀ {x}, lineEnd (r ++ t) = .ok x → d.line (s ++ t) = .ok (d', x) := by
    intro x hx
    rw [line, hwhole, ok_bind]
    dsimp only
    rw [hx]
    rfl
  rcases lineEnd_eq_ok hend with hnewline | ⟨hnil, rfl⟩
  · refine Or.inl ⟨?_, hline (lineEnd_of_newline (skipComment_skipSpaces_append hr hnewline))⟩
    by_cases hrest : rest = []
    · exact Or.inl hrest
    · have hseam := (skipComment_skipSpaces_leaves hnewline).seam hr
      exact Or.inr (hseam.of_append_ne_nil (w := ['\n']) hrest)
  · obtain ⟨t', rfl⟩ := ((skipComment_skipSpaces_leaves hnil).seam hr).of_nil
    exact Or.inr ⟨t', rfl, rfl,
      hline (lineEnd_of_newline (skipComment_skipSpaces_append hr hnil))⟩

/-- Reading two parts that meet at a newline is reading one after the other. -/
theorem readAll_append (hs : s = [] ∨ Seam s t) (h : d.readAll s = .ok d') :
    d.readAll (s ++ t) = d'.readAll t := by
  induction d, s using readAll_induct with
  | blank d s hskip =>
    rw [readAll_of_blank hskip] at h
    cases h
    rcases hs with rfl | hs
    · rfl
    · have hwhole := skipSpaces_append hs
      have hseam := skipSpaces_seam hs
      rw [hskip] at hwhole hseam
      obtain ⟨t, rfl⟩ := hseam.of_nil
      rw [readAll_of_newline hwhole, readAll_of_newline (s := '\n' :: t) rfl]
  | newline d s rest hskip ih =>
    have hs : Seam s t := hs.resolve_left (by rintro rfl; cases hskip)
    have hwhole := skipSpaces_append hs
    have hseam := skipSpaces_seam hs
    rw [hskip] at hwhole hseam
    rw [readAll_of_newline hskip] at h
    rw [readAll_of_newline hwhole]
    refine ih ?_ h
    by_cases hrest : rest = []
    · exact Or.inl hrest
    · exact Or.inr (hseam.of_append_ne_nil (w := ['\n']) hrest)
  | line d s c rest hskip hc ih =>
    have hs : Seam s t := hs.resolve_left (by rintro rfl; cases hskip)
    have hwhole := skipSpaces_append hs
    have hseam := skipSpaces_seam hs
    rw [hskip] at hwhole hseam
    rw [readAll_of_line hskip hc, hskip] at h
    rw [readAll_of_line hwhole hc, hwhole]
    obtain ⟨⟨d₁, r⟩, hline, h⟩ := bind_eq_ok.1 h
    rcases line_append hseam hline with ⟨hs', hline'⟩ | ⟨t', rfl, rfl, hline'⟩
    · rw [hline', ok_bind]
      exact ih d₁ r hline hs' h
    · -- The last line of the first part ends with the newline of the second.
      change d₁.readAll [] = .ok d' at h
      rw [readAll_of_blank rfl] at h
      cases h
      rw [hline', ok_bind]
      exact (readAll_of_newline rfl).symm

/-- What every statement keeps, a document keeps. -/
theorem readAll_keeps {P : Draft → Prop}
    (hP : ∀ {d d' s rest}, P d → d.statement s = .ok (d', rest) → P d') (hd : P d)
    (h : d.readAll s = .ok d') : P d' := by
  induction d, s using readAll_induct with
  | blank d s hskip =>
    rw [readAll_of_blank hskip] at h
    cases h
    exact hd
  | newline d s rest hskip ih =>
    rw [readAll_of_newline hskip] at h
    exact ih hd h
  | line d s c rest hskip hc ih =>
    rw [readAll_of_line hskip hc, hskip] at h
    obtain ⟨⟨d₁, r⟩, hline, h⟩ := bind_eq_ok.1 h
    obtain ⟨⟨d₂, r'⟩, hstatement, hend⟩ := bind_eq_ok.1 hline
    obtain ⟨r'', -, he⟩ := bind_eq_ok.1 hend
    cases he
    exact ih d₁ r hline (hP hd hstatement) h

end Draft

/-! ## Whole documents -/

theorem readDocument_eq (s : List Char) :
    readDocument s = (Draft.empty.readAll s >>= fun d => .ok d.root) := rfl

theorem joinNewlines_cons {c : Char} (h : c = '\r' → s.head? ≠ some '\n') :
    joinNewlines (c :: s) = c :: joinNewlines s := by
  rw [joinNewlines]
  rintro rest rfl rfl
  exact h rfl rfl

theorem joinNewlines_of_notMem (h : '\r' ∉ s) : joinNewlines s = s := by
  induction s with
  | nil => rfl
  | cons c s ih =>
    rw [List.mem_cons, not_or] at h
    obtain ⟨hc, hs⟩ := h
    rw [joinNewlines_cons fun he => absurd he.symm hc, ih hs]

theorem joinNewlines_append (h : s.getLast? ≠ some '\r') (t : List Char) :
    joinNewlines (s ++ t) = joinNewlines s ++ joinNewlines t := by
  induction s using joinNewlines.induct with
  | case1 s ih =>
    have hs : s.getLast? ≠ some '\r' := fun hs => h (by simp [List.getLast?_cons, hs])
    simp only [List.cons_append, joinNewlines, ih hs]
  | case2 c s hc ih =>
    have hs : s.getLast? ≠ some '\r' := fun hs => h (by simp [List.getLast?_cons, hs])
    have hfirst : c = '\r' → s.head? ≠ some '\n' := by
      intro hr hn
      obtain ⟨s', rfl⟩ := List.head?_eq_some_iff.1 hn
      exact hc s' hr rfl
    have hwhole : c = '\r' → (s ++ t).head? ≠ some '\n' := by
      intro hr
      cases s with
      | nil => exact absurd (congrArg some hr) h
      | cons d s => exact hfirst hr
    rw [joinNewlines_cons hfirst, List.cons_append, joinNewlines_cons hwhole, ih hs,
      List.cons_append]
  | case3 => rfl

theorem getLast?_joinNewlines (s : List Char) : (joinNewlines s).getLast? = s.getLast? := by
  induction s using joinNewlines.induct with
  | case1 s ih =>
    rw [joinNewlines, List.getLast?_cons, List.getLast?_cons, List.getLast?_cons, ih]
    rfl
  | case2 c s hc ih =>
    rw [joinNewlines, List.getLast?_cons, List.getLast?_cons, ih]
    exact hc
  | case3 => rfl

end NuPlugin.Toml
