import NuPlugin.Text.Character

/-!
# Paths

A path is a root and the names below it. A name is never empty, never a single dot and holds no
slash, so that a path is what its text is read as: `ofString p.toString = p`.
-/

namespace NuPlugin

/-- What a path starts from. Exactly two slashes in front are a root of their own. -/
inductive Root where
  | relative
  | slash
  | doubleSlash
  deriving DecidableEq, Repr

namespace Root

def toString : Root → String
  | .relative => ""
  | .slash => "/"
  | .doubleSlash => "//"

def ofChars : List Char → Root
  | '/' :: '/' :: '/' :: _ => .slash
  | '/' :: '/' :: _ => .doubleSlash
  | '/' :: _ => .slash
  | _ => .relative

end Root

def IsPathName (name : List Char) : Prop := name ≠ [] ∧ name ≠ ['.'] ∧ '/' ∉ name

instance (name : List Char) : Decidable (IsPathName name) :=
  inferInstanceAs (Decidable (_ ∧ _ ∧ _))

structure Path where
  root : Root
  names : List String
  isPathName : ∀ name ∈ names, IsPathName name.toList
  deriving DecidableEq

namespace Path

/-! ## Reading -/

/-- What stands between slashes; the empty text and the single dot name nothing. -/
def namesOf (s : List Char) : List (List Char) :=
  (s.splitOn '/').filter fun name => decide (name ≠ [] ∧ name ≠ ['.'])

theorem slash_notMem_of_mem_splitOn {s name : List Char} (h : name ∈ s.splitOn '/') :
    '/' ∉ name := by
  have key : ∀ (s : List Char), ∀ name ∈ s.splitOnP (· == '/'), '/' ∉ name := by
    intro s
    induction s with
    | nil => intro name h; rw [List.splitOnP_nil] at h; simp_all
    | cons c s ih =>
      intro name h
      rw [List.splitOnP_cons_eq_if_modifyHead] at h
      split at h
      · rcases List.mem_cons.1 h with rfl | h
        · simp
        · exact ih name h
      · next hc =>
        cases hs : s.splitOnP (· == '/') with
        | nil => exact absurd hs (List.splitOnP_ne_nil _ _)
        | cons first rest =>
          rw [hs, List.modifyHead_cons] at h
          rcases List.mem_cons.1 h with rfl | h
          · have := ih first (by simp [hs])
            have hne : '/' ≠ c := fun he => hc (beq_iff_eq.2 he.symm)
            simp [this, hne]
          · exact ih name (by simp [hs, h])
  exact key s name h

theorem isPathName_of_mem_namesOf {s name : List Char} (h : name ∈ namesOf s) :
    IsPathName name := by
  obtain ⟨hs, hn⟩ := List.mem_filter.1 h
  obtain ⟨h1, h2⟩ := of_decide_eq_true hn
  exact ⟨h1, h2, slash_notMem_of_mem_splitOn hs⟩

def ofString (s : String) : Path where
  root := .ofChars s.toList
  names := (namesOf s.toList).map String.ofList
  isPathName := by
    intro name h
    obtain ⟨chars, hc, rfl⟩ := List.mem_map.1 h
    rw [String.toList_ofList]
    exact isPathName_of_mem_namesOf hc

/-! ## Writing -/

/-- A single dot stands for the path with neither root nor names. -/
def toString (p : Path) : String :=
  if p.root = .relative ∧ p.names = [] then "."
  else p.root.toString ++ "/".intercalate p.names

example : (ofString ".//a/./b/").toString = "a/b" := by decide +kernel

example : (ofString "//a").toString = "//a" ∧ (ofString "///a").toString = "/a" := by
  decide +kernel

/-! ## Moving -/

/-- A path without names is its own parent. -/
def parent (p : Path) : Path where
  root := p.root
  names := p.names.dropLast
  isPathName := fun name h => p.isPathName name (List.dropLast_subset _ h)

/-- The path that `s` means when read from `p`: a text that starts with a slash means itself. -/
def join (p : Path) (s : String) : Path :=
  let q := ofString s
  if s.toList.head? = some '/' then q
  else
    { root := p.root
      names := p.names ++ q.names
      isPathName := by
        intro name h
        rcases List.mem_append.1 h with h | h
        · exact p.isPathName name h
        · exact q.isPathName name h }

end Path

/-! ## Package files -/

/-- What stands before the file name: all through the last slash, without the slashes at its end
unless there is nothing else. -/
def directoryPart (s : List Char) : List Char :=
  let front := Text.dropEndWhile (· ≠ '/') s
  if front.all (· = '/') then front else Text.dropEndWhile (· = '/') front

inductive PackageFile where
  | text (s : String)
  | path (p : Path)
  deriving DecidableEq

namespace PackageFile

def toString : PackageFile → String
  | .text s => s
  | .path p => p.toString

def toPath : PackageFile → Path
  | .text s => .ofString s
  | .path p => p

/-- The directory that holds the file, as written. A bare file name has none, and neither has a
path without names. -/
def directory? (file : PackageFile) : Option Path :=
  let directory := directoryPart file.toString.toList
  if directory = [] ∨ file.toPath.parent = file.toPath then none
  else some (.ofString (String.ofList directory))

end PackageFile

end NuPlugin
