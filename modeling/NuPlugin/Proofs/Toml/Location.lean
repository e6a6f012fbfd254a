import NuPlugin.Toml.Fault
import Mathlib.Algebra.GroupWithZero.Nat
import Mathlib.Data.List.Basic
import Mathlib.Data.List.TakeWhile

/-!
# Lines and columns

A location counts the lines of a text and the columns of a line. The lines before its own and the
columns before its own add up to the position that it was made for, so nothing of the position is
lost, and the position is read back from the words that tell the location.
-/

namespace NuPlugin.Toml

/-! ## Lines -/

theorem length_splitOn_newline (s : List Char) :
    (s.splitOn '\n').length = s.count '\n' + 1 := by
  induction s with
  | nil => rfl
  | cons c s ih =>
    rw [List.splitOn_cons_eq_if_modifyHead]
    by_cases hc : c = '\n'
    · simp [hc, ih]
    · simp [hc, ih]

theorem sum_length_splitOn_newline (s : List Char) :
    ((s.splitOn '\n').map List.length).sum + s.count '\n' = s.length := by
  induction s with
  | nil => rfl
  | cons c s ih =>
    obtain ⟨line, more, hsplit⟩ := List.exists_cons_of_ne_nil (List.splitOn_ne_nil '\n' s)
    rw [hsplit] at ih
    rw [List.splitOn_cons_eq_if_modifyHead, hsplit]
    by_cases hc : c = '\n'
    · simp [hc] at ih ⊢
      omega
    · simp [hc] at ih ⊢
      omega

theorem splitOn_newline_append {s : List Char} (h : '\n' ∉ s) (t : List Char) :
    ∃ w more, (s ++ t).splitOn '\n' = (s ++ w) :: more := by
  induction s with
  | nil =>
    obtain ⟨w, more, hsplit⟩ := List.exists_cons_of_ne_nil (List.splitOn_ne_nil '\n' t)
    exact ⟨w, more, hsplit⟩
  | cons c s ih =>
    obtain ⟨hc, hs⟩ := List.ne_and_not_mem_of_not_mem_cons h
    obtain ⟨w, more, hsplit⟩ := ih hs
    refine ⟨w, more, ?_⟩
    rw [List.cons_append, List.splitOn_cons_eq_if_modifyHead, hsplit]
    simp [hc.symm]

/-- The beginning `s` of a text is made of full lines, each with its newline, and of a line that was
only begun. -/
theorem exists_lines (s t : List Char) : ∃ (full : List (List Char)) (begun w : List Char)
    (more : List (List Char)), (s ++ t).splitOn '\n' = full ++ (begun ++ w) :: more ∧
      full.length = s.count '\n' ∧ begun = (s.reverse.takeWhile (· ≠ '\n')).reverse ∧
      s.length = (full.map List.length).sum + full.length + begun.length := by
  by_cases h : '\n' ∈ s.reverse
  · obtain ⟨begun, front, hs, hbegun⟩ := List.eq_append_cons_of_mem h
    have hne : ∀ c ∈ begun, decide (c ≠ '\n') = true :=
      fun c hc => decide_eq_true (ne_of_mem_of_not_mem hc hbegun)
    have htake : s.reverse.takeWhile (· ≠ '\n') = begun := by
      rw [hs, List.takeWhile_append_of_pos hne, List.takeWhile_cons_of_neg (by simp),
        List.append_nil]
    have hs' : s = front.reverse ++ '\n' :: begun.reverse := by
      rw [← List.reverse_reverse s, hs]
      simp
    have hfree : '\n' ∉ begun.reverse := by simpa using hbegun
    obtain ⟨w, more, hsplit⟩ := splitOn_newline_append hfree t
    refine ⟨front.reverse.splitOn '\n', begun.reverse, w, more, ?_, ?_, by rw [htake], ?_⟩
    · rw [hs', List.append_assoc, List.cons_append, List.splitOn_append_cons_self, hsplit]
    · rw [length_splitOn_newline, hs']
      simp [List.count_eq_zero.2 hbegun]
    · have hsum := sum_length_splitOn_newline front.reverse
      rw [length_splitOn_newline, hs', List.length_append, List.length_cons]
      omega
  · have hs : '\n' ∉ s := by simpa using h
    obtain ⟨w, more, hsplit⟩ := splitOn_newline_append hs t
    refine ⟨[], s, w, more, hsplit, (List.count_eq_zero.2 hs).symm, ?_, by simp⟩
    rw [List.takeWhile_eq_self_iff.2 (by simpa using fun c hc => ne_of_mem_of_not_mem hc hs),
      List.reverse_reverse]

/-! ## Positions -/

/-- The position of a column on a line, both counted from one. Every line before it has a
newline. -/
def positionOf (text : List Char) (line column : Nat) : Nat :=
  (((text.splitOn '\n').take (line - 1)).map List.length).sum + (line - 1) + (column - 1)

namespace Location

variable {text : List Char} {position : Nat}

theorem of_eq_endOfDocument_iff : of text position = .endOfDocument ↔ text.length ≤ position := by
  unfold of
  split <;> simp [*]

theorem ofRest_drop (text : List Char) (position : Nat) :
    ofRest text (text.drop position) = of text position := by
  rw [ofRest, List.length_drop]
  rcases Nat.le_total position text.length with h | h
  · rw [Nat.sub_sub_self h]
  · rw [of_eq_endOfDocument_iff.2 h, of_eq_endOfDocument_iff.2 (by omega)]

theorem of_eq_at (h : position < text.length) :
    ∃ line column content, of text position = .at line column ∧ 1 ≤ line ∧
      (text.splitOn '\n')[line - 1]? = some content ∧ 1 ≤ column ∧ column ≤ content.length + 1 ∧
      position = positionOf text line column := by
  obtain ⟨full, begun, w, more, hsplit, hfull, hbegun, hlength⟩ :=
    exists_lines (text.take position) (text.drop position)
  rw [List.take_append_drop] at hsplit
  rw [List.length_take_of_le h.le] at hlength
  have hof : of text position = .at (full.length + 1) (begun.length + 1) := by
    rw [of, if_neg (Nat.not_le.2 h), hfull, hbegun, List.length_reverse]
  refine ⟨_, _, begun ++ w, hof, by omega, ?_, by omega, by simp, ?_⟩
  · rw [hsplit]
    simp
  · rw [positionOf, hsplit]
    simpa using hlength

theorem of_injective {p q : Nat} (hp : p < text.length) (hq : q < text.length)
    (h : of text p = of text q) : p = q := by
  obtain ⟨line, column, -, hof, -, -, -, -, rfl⟩ := of_eq_at hp
  obtain ⟨line', column', -, hof', -, -, -, -, rfl⟩ := of_eq_at hq
  rw [hof, hof'] at h
  obtain ⟨rfl, rfl⟩ := Location.at.inj h
  rfl

end Location

/-! ## Reading a location back -/

def readNumber (s : List Char) : Nat × List Char :=
  (Nat.ofDigitChars 10 (s.takeWhile Char.isDigit) 0, s.dropWhile Char.isDigit)

def Location.read? (s : List Char) : Option Location :=
  if s = "at end of document".toList then some .endOfDocument
  else do
    let (line, s) := readNumber (← s.dropPrefix? "at line ".toList)
    let (column, s) := readNumber (← s.dropPrefix? ", column ".toList)
    if s = [] then some (.at line column) else none

theorem readNumber_append (n : Nat) {s : List Char} (h : ∀ c ∈ s.head?, c.isDigit = false) :
    readNumber (n.repr.toList ++ s) = (n, s) := by
  have hdigits : ∀ c ∈ n.repr.toList, c.isDigit = true := fun c hc =>
    Nat.isDigit_of_mem_toDigits (by decide) (by decide) (Nat.toList_repr ▸ hc)
  have hs : s.takeWhile Char.isDigit = [] ∧ s.dropWhile Char.isDigit = s := by
    cases s with
    | nil => exact ⟨rfl, rfl⟩
    | cons c s =>
      have hc : ¬ c.isDigit = true := by simp [h c rfl]
      exact ⟨List.takeWhile_cons_of_neg hc, List.dropWhile_cons_of_neg hc⟩
  rw [readNumber, List.takeWhile_append_of_pos hdigits, List.dropWhile_append_of_pos hdigits,
    hs.1, hs.2, List.append_nil, Nat.toList_repr, Nat.ofDigitChars_ten_toDigits]

theorem dropPrefix?_append (p s : List Char) : (p ++ s).dropPrefix? p = some s :=
  List.dropPrefix?_eq_some_iff.2 ⟨p, rfl, beq_self_eq_true p⟩

theorem Location.message_at (line column : Nat) :
    (Location.at line column).message = "at line " ++ line.repr ++ ", column " ++ column.repr := rfl

theorem Location.read?_message (l : Location) : read? l.message.toList = some l := by
  cases l with
  | endOfDocument => rfl
  | «at» line column =>
    have hmessage : (Location.at line column).message.toList =
        "at line ".toList ++ (line.repr.toList ++ (", column ".toList ++ column.repr.toList)) := by
      simp only [message_at, String.toList_append, List.append_assoc]
    have hother : (Location.at line column).message.toList ≠ "at end of document".toList := by
      simp [hmessage]
    have hline : readNumber (line.repr.toList ++ (", column ".toList ++ column.repr.toList)) =
        (line, ", column ".toList ++ column.repr.toList) := readNumber_append line (by simp)
    have hcolumn : readNumber column.repr.toList = (column, []) := by
      rw [← List.append_nil column.repr.toList]
      exact readNumber_append column nofun
    rw [read?, if_neg hother, hmessage, dropPrefix?_append]
    simp only [Option.bind_eq_bind, Option.bind_some, hline, dropPrefix?_append, hcolumn, if_true]

theorem Location.message_injective {l l' : Location} (h : l.message = l'.message) : l = l' := by
  have hread := read?_message l
  rw [h, read?_message] at hread
  exact (Option.some.inj hread).symm

theorem Location.parenthesis_notMem_message (l : Location) : '(' ∉ l.message.toList := by
  have hdigits : ∀ n : Nat, '(' ∉ Nat.toDigits 10 n := fun n hmem =>
    absurd (Nat.isDigit_of_mem_toDigits (by decide) (by decide) hmem) (by decide)
  cases l with
  | endOfDocument => decide
  | «at» line column => simp [message_at, hdigits]

/-! ## Reading a message -/

/-- What stands behind the last opening parenthesis, without the closing one at the end. -/
def lastRemark (s : List Char) : List Char :=
  (s.reverse.takeWhile (· ≠ '(')).reverse.dropLast

theorem lastRemark_append (front : List Char) {remark : List Char} (h : '(' ∉ remark) :
    lastRemark (front ++ '(' :: (remark ++ [')'])) = remark := by
  have hall : ∀ c ∈ ')' :: remark.reverse, decide (c ≠ '(') = true := by
    intro c hc
    rw [decide_eq_true_eq]
    rintro rfl
    simp [h] at hc
  have hreverse : (front ++ '(' :: (remark ++ [')'])).reverse =
      ')' :: remark.reverse ++ '(' :: front.reverse := by
    simp
  rw [lastRemark, hreverse, List.takeWhile_append_of_pos hall,
    List.takeWhile_cons_of_neg (by simp), List.append_nil, List.reverse_cons, List.reverse_reverse,
    List.dropLast_concat]

def positionTold? (text : List Char) (message : String) : Option Nat :=
  match Location.read? (lastRemark message.toList) with
  | some (.at line column) => some (positionOf text line column)
  | _ => none

theorem positionTold?_append (text : List Char) (front : String) (position : Nat) :
    positionTold? text (front ++ "(" ++ (Location.of text position).message ++ ")") =
      if position < text.length then some position else none := by
  have hremark : lastRemark
      (front ++ "(" ++ (Location.of text position).message ++ ")").toList =
        (Location.of text position).message.toList := by
    rw [← lastRemark_append front.toList (Location.parenthesis_notMem_message _)]
    simp
  rw [positionTold?, hremark, Location.read?_message]
  by_cases h : position < text.length
  · obtain ⟨line, column, -, hof, -, -, -, -, hposition⟩ := Location.of_eq_at h
    rw [if_pos h, hof, hposition]
  · rw [if_neg h, Location.of_eq_endOfDocument_iff.2 (Nat.not_lt.1 h)]

end NuPlugin.Toml
