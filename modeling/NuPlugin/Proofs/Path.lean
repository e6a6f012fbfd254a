import NuPlugin.Path
import Mathlib.Data.List.TakeWhile

/-!
# Paths and their texts

A text that is a single name leads one step down from a path, and no other text does. The names in
a text are the pieces between its slashes, and the slashes in front tell its root. So a path is what
its text is read as.
-/

namespace NuPlugin

namespace Path

variable {p q : Path} {s : String}

theorem eq_of_root_of_names (hroot : p.root = q.root) (hnames : p.names = q.names) : p = q := by
  cases p
  cases q
  cases hroot
  cases hnames
  rfl

@[simp] theorem parent_root (p : Path) : p.parent.root = p.root := rfl

@[simp] theorem parent_names (p : Path) : p.parent.names = p.names.dropLast := rfl

theorem parent_eq_self_iff : p.parent = p ↔ p.names = [] := by
  constructor
  · intro h
    have hlength := congrArg (fun q => q.names.length) h
    simp only [parent_names, List.length_dropLast] at hlength
    exact List.eq_nil_of_length_eq_zero (by omega)
  · intro h
    exact eq_of_root_of_names rfl (by rw [parent_names, h, List.dropLast_nil])

/-! ## Single names -/

theorem splitOn_of_slash_notMem {s : List Char} (h : '/' ∉ s) : s.splitOn '/' = [s] := by
  refine List.splitOnP_eq_singleton fun c hc => ?_
  have hne : c ≠ '/' := fun he => h (he ▸ hc)
  simpa using hne

theorem namesOf_of_isPathName {name : List Char} (h : IsPathName name) :
    namesOf name = [name] := by
  rw [namesOf, splitOn_of_slash_notMem h.2.2]
  exact List.filter_eq_self.2 (by simpa using ⟨h.1, h.2.1⟩)

theorem ofString_names (s : String) :
    (ofString s).names = (namesOf s.toList).map String.ofList := rfl

theorem ofString_names_of_isPathName (h : IsPathName s.toList) : (ofString s).names = [s] := by
  rw [ofString_names, namesOf_of_isPathName h, List.map_singleton, String.ofList_toList]

/-! ## Steps -/

theorem join_of_slash (p : Path) (h : s.toList.head? = some '/') : p.join s = ofString s :=
  if_pos h

theorem join_root (p : Path) (h : s.toList.head? ≠ some '/') : (p.join s).root = p.root := by
  rw [join, if_neg h]

theorem join_names (p : Path) (h : s.toList.head? ≠ some '/') :
    (p.join s).names = p.names ++ (ofString s).names := by
  rw [join, if_neg h]

theorem parent_join (p : Path) (h : IsPathName s.toList) : (p.join s).parent = p := by
  have hhead : s.toList.head? ≠ some '/' := fun hs => h.2.2 (List.mem_of_head? hs)
  refine eq_of_root_of_names ((parent_root _).trans (p.join_root hhead)) ?_
  rw [parent_names, p.join_names hhead, ofString_names_of_isPathName h, List.dropLast_concat]

/-- Joining leads to a child of that name for the texts that are names, and for no others. -/
theorem join_isChild_iff (p : Path) (s : String) :
    ((p.join s).parent = p ∧ (p.join s).names.getLast? = some s) ↔ IsPathName s.toList := by
  constructor
  · rintro ⟨-, hlast⟩
    exact (p.join s).isPathName s (List.mem_of_getLast? hlast)
  · intro h
    have hhead : s.toList.head? ≠ some '/' := fun hs => h.2.2 (List.mem_of_head? hs)
    refine ⟨p.parent_join h, ?_⟩
    rw [p.join_names hhead, ofString_names_of_isPathName h, List.getLast?_concat]

end Path

/-! ## Roots -/

namespace Root

variable {s rest : List Char}

def ofCount : Nat → Root
  | 0 => .relative
  | 2 => .doubleSlash
  | _ => .slash

theorem takeWhile_slash_eq_nil (h : s.head? ≠ some '/') : s.takeWhile (· = '/') = [] := by
  cases s with
  | nil => rfl
  | cons c s => simpa [List.takeWhile_cons] using h

theorem ofChars_eq_ofCount (s : List Char) :
    ofChars s = ofCount (s.takeWhile (· = '/')).length := by
  -- Each case but the first is one in which no further slash follows.
  fun_cases ofChars s with
  | case1 rest => simp [ofCount]
  | case2 rest hthird =>
    have hrest : rest.takeWhile (· = '/') = [] :=
      takeWhile_slash_eq_nil (by cases rest <;> simp_all)
    simp [ofCount, hrest]
  | case3 rest _ hsecond =>
    have hrest : rest.takeWhile (· = '/') = [] :=
      takeWhile_slash_eq_nil (by cases rest <;> simp_all)
    simp [ofCount, hrest]
  | case4 _ _ hfirst =>
    have hnone : s.takeWhile (· = '/') = [] := takeWhile_slash_eq_nil (by cases s <;> simp_all)
    simp [ofCount, hnone]

theorem ofChars_append (h : rest.head? ≠ some '/') : ofChars (s ++ rest) = ofChars s := by
  rw [ofChars_eq_ofCount, ofChars_eq_ofCount, List.takeWhile_append, takeWhile_slash_eq_nil h]
  split
  · next hlength => rw [List.append_nil, hlength]
  · rfl

theorem ofChars_append_of_mem {c : Char} (hc : c ∈ s) (hne : c ≠ '/') (rest : List Char) :
    ofChars (s ++ rest) = ofChars s := by
  have hlength : (s.takeWhile (· = '/')).length ≠ s.length := by
    intro hlength
    have hall := List.takeWhile_eq_self_iff.1 ((List.takeWhile_prefix _).eq_of_length hlength)
    exact hne (of_decide_eq_true (hall c hc))
  rw [ofChars_eq_ofCount, ofChars_eq_ofCount, List.takeWhile_append, if_neg hlength]

theorem ofChars_toString (root : Root) : ofChars root.toString.toList = root := by
  cases root <;> rfl

end Root

namespace Path

variable {p : Path}

/-! ## Pieces between slashes -/

theorem splitOn_append_slash (s t : List Char) :
    (s ++ '/' :: t).splitOn '/' = s.splitOn '/' ++ t.splitOn '/' := by
  simp only [List.splitOn_eq_splitOnP]
  exact List.splitOnP_append_cons s t (beq_self_eq_true '/')

theorem namesOf_append_slash (s t : List Char) :
    namesOf (s ++ '/' :: t) = namesOf s ++ namesOf t := by
  rw [namesOf, splitOn_append_slash, List.filter_append]
  rfl

theorem namesOf_slash_cons (s : List Char) : namesOf ('/' :: s) = namesOf s :=
  namesOf_append_slash [] s

theorem namesOf_concat_slash (s : List Char) : namesOf (s ++ ['/']) = namesOf s := by
  rw [namesOf_append_slash, show namesOf [] = [] from rfl, List.append_nil]

theorem namesOf_root_append (root : Root) (s : List Char) :
    namesOf (root.toString.toList ++ s) = namesOf s := by
  cases root with
  | relative => rfl
  | slash => exact namesOf_slash_cons s
  | doubleSlash => exact (namesOf_slash_cons _).trans (namesOf_slash_cons s)

/-! ## Written and read again -/

section

variable {names : List (List Char)}

theorem namesOf_intercalate (h : ∀ name ∈ names, IsPathName name) :
    namesOf (['/'].intercalate names) = names := by
  by_cases hnil : names = []
  · rw [hnil]
    rfl
  · have hsplit := List.splitOn_intercalate '/' (fun name hname => (h name hname).2.2) hnil
    rw [namesOf, hsplit, List.filter_eq_self]
    intro name hname
    simpa using ⟨(h name hname).1, (h name hname).2.1⟩

theorem head?_intercalate (h : ∀ name ∈ names, IsPathName name) :
    (['/'].intercalate names).head? ≠ some '/' := by
  rcases names with _ | ⟨name, names⟩
  · exact nofun
  have hname : IsPathName name := h name (by simp)
  obtain ⟨c, cs, rfl⟩ := List.exists_cons_of_ne_nil hname.1
  have hc : c ≠ '/' := fun he => hname.2.2 (by simp [he])
  cases names <;> simp [List.intercalate, hc]

end

theorem toString_of_empty (h : p.root = .relative ∧ p.names = []) : p.toString = "." := if_pos h

theorem toString_toList (h : ¬ (p.root = .relative ∧ p.names = [])) :
    p.toString.toList =
      p.root.toString.toList ++ ['/'].intercalate (p.names.map String.toList) := by
  rw [Path.toString, if_neg h, String.toList_append, String.toList_intercalate]
  rfl

theorem isPathName_of_mem_map {name : List Char} (h : name ∈ p.names.map String.toList) :
    IsPathName name := by
  obtain ⟨s, hs, rfl⟩ := List.mem_map.1 h
  exact p.isPathName s hs

/-- Neither a path without names nor one with two slashes in front is lost in its text. -/
theorem ofString_toString (p : Path) : ofString p.toString = p := by
  by_cases h : p.root = .relative ∧ p.names = []
  · rw [toString_of_empty h]
    exact eq_of_root_of_names h.1.symm h.2.symm
  · have hnames : ∀ name ∈ p.names.map String.toList, IsPathName name :=
      fun _ => isPathName_of_mem_map
    apply eq_of_root_of_names
    · change Root.ofChars p.toString.toList = p.root
      rw [toString_toList h, Root.ofChars_append (head?_intercalate hnames), Root.ofChars_toString]
    · rw [ofString_names, toString_toList h, namesOf_root_append, namesOf_intercalate hnames]
      simp

example : ofString (ofString "//").toString = ofString "//" ∧
    ofString (ofString "./..").toString = ofString ".." := by decide +kernel

/-! ## Characters of a path -/

theorem mem_intercalate {c d : Char} {parts : List (List Char)} (h : c ≠ d) :
    c ∈ [d].intercalate parts ↔ ∃ part ∈ parts, c ∈ part := by
  induction parts with
  | nil => simp
  | cons part parts ih =>
    cases parts with
    | nil => simp
    | cons next parts => simp [List.intercalate_cons_cons, h, ih]

variable {c : Char} (hslash : c ≠ '/') (hdot : c ≠ '.')

include hslash hdot

theorem mem_toString_iff (p : Path) :
    c ∈ p.toString.toList ↔ ∃ name ∈ p.names, c ∈ name.toList := by
  by_cases h : p.root = .relative ∧ p.names = []
  · rw [toString_of_empty h, h.2]
    simpa using hdot
  · have hroot : c ∉ p.root.toString.toList := by
      cases p.root <;> simp [Root.toString, hslash]
    rw [toString_toList h, List.mem_append, mem_intercalate hslash]
    simp [hroot]

theorem mem_ofString_iff (s : String) :
    (∃ name ∈ (ofString s).names, c ∈ name.toList) ↔ c ∈ s.toList := by
  have hparts : c ∈ s.toList ↔ ∃ part ∈ s.toList.splitOn '/', c ∈ part := by
    rw [← mem_intercalate hslash, List.intercalate_splitOn]
  rw [hparts, ofString_names]
  constructor
  · rintro ⟨name, hname, hc⟩
    obtain ⟨part, hpart, rfl⟩ := List.mem_map.1 hname
    exact ⟨part, (List.mem_filter.1 hpart).1, by simpa using hc⟩
  · rintro ⟨part, hpart, hc⟩
    have hne : part ≠ [] := List.ne_nil_of_mem hc
    have hone : part ≠ ['.'] := fun he => hdot (List.mem_singleton.1 (he ▸ hc))
    exact ⟨_, List.mem_map_of_mem (List.mem_filter.2 ⟨hpart, by simp [hne, hone]⟩), by simpa⟩

/-- A text that starts with a slash leaves nothing of the path that it is joined to. -/
theorem mem_join_iff (p : Path) (s : String) :
    c ∈ (p.join s).toString.toList ↔
      (s.toList.head? ≠ some '/' ∧ c ∈ p.toString.toList) ∨ c ∈ s.toList := by
  rw [mem_toString_iff hslash hdot, mem_toString_iff hslash hdot, ← mem_ofString_iff hslash hdot s]
  by_cases h : s.toList.head? = some '/'
  · rw [join_of_slash p h]
    simp [h]
  · rw [p.join_names h]
    simp [h, or_and_right, exists_or]

end Path

end NuPlugin
