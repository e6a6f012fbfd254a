import NuPlugin.Proofs.Path
import NuPlugin.Proofs.Plan
import Mathlib.Data.List.DropRight

/-!
# Which directory is built

The directory of a package file is cut out of the file as it was named. It is the parent of the
file's path if the text ends in a name. If a slash or a dot comes last, it is the file itself.
-/

namespace NuPlugin

open NuPlugin.Path (namesOf)

/-! ## Behind the last slash -/

section

variable {s : List Char}

def lastPart (s : List Char) : List Char := s.rtakeWhile (· ≠ '/')

def EndsInName (s : List Char) : Prop := lastPart s ≠ [] ∧ lastPart s ≠ ['.']

instance (s : List Char) : Decidable (EndsInName s) := inferInstanceAs (Decidable (_ ∧ _))

theorem slash_notMem_lastPart (s : List Char) : '/' ∉ lastPart s := by
  intro h
  simpa using List.mem_rtakeWhile_imp h

theorem head?_lastPart (s : List Char) : (lastPart s).head? ≠ some '/' :=
  fun h => slash_notMem_lastPart s (List.mem_of_head? h)

theorem EndsInName.isPathName (h : EndsInName s) : IsPathName (lastPart s) :=
  ⟨h.1, h.2, slash_notMem_lastPart s⟩

theorem namesOf_lastPart (s : List Char) :
    namesOf (lastPart s) = if EndsInName s then [lastPart s] else [] := by
  split
  · next h => exact Path.namesOf_of_isPathName h.isPathName
  · next h =>
    have hlast : lastPart s = [] ∨ lastPart s = ['.'] := by
      rw [EndsInName] at h
      tauto
    rcases hlast with hlast | hlast <;> rw [hlast] <;> rfl

theorem exists_front_of_slash_mem (h : '/' ∈ s) :
    ∃ front, Text.dropEndWhile (· ≠ '/') s = front ++ ['/'] ∧ s = front ++ '/' :: lastPart s := by
  have hne : s.rdropWhile (· ≠ '/') ≠ [] := by
    intro hnil
    simpa using List.rdropWhile_eq_nil_iff.1 hnil '/' h
  have hlast : (s.rdropWhile (· ≠ '/')).getLast hne = '/' := by
    simpa using List.rdropWhile_last_not (· ≠ '/') s hne
  have hfront := List.dropLast_concat_getLast hne
  rw [hlast] at hfront
  refine ⟨_, hfront.symm, ?_⟩
  rw [List.append_cons, hfront]
  exact List.rdropWhile_append_rtakeWhile.symm

theorem getLast?_splitOn_slash (s : List Char) : (s.splitOn '/').getLast? = some (lastPart s) := by
  by_cases h : '/' ∈ s
  · obtain ⟨front, -, hs⟩ := exists_front_of_slash_mem h
    conv_lhs => rw [hs]
    rw [Path.splitOn_append_slash, Path.splitOn_of_slash_notMem (slash_notMem_lastPart s),
      List.getLast?_concat]
  · have hlast : lastPart s = s := by
      rw [lastPart, List.rtakeWhile_eq_self_iff]
      intro c hc
      simpa using fun he : c = '/' => h (he ▸ hc)
    rw [Path.splitOn_of_slash_notMem h, hlast]
    rfl

theorem lastPart_append_slash (s t : List Char) : lastPart (s ++ '/' :: t) = lastPart t := by
  have hlast := getLast?_splitOn_slash (s ++ '/' :: t)
  rw [Path.splitOn_append_slash, List.getLast?_append, getLast?_splitOn_slash t] at hlast
  exact (Option.some.inj hlast).symm

theorem lastPart_intercalate_mem {names : List (List Char)}
    (h : ∀ name ∈ names, IsPathName name) (hne : names ≠ []) :
    lastPart (['/'].intercalate names) ∈ names := by
  have hlast := getLast?_splitOn_slash (['/'].intercalate names)
  rw [List.splitOn_intercalate '/' (fun name hname => (h name hname).2.2) hne] at hlast
  exact List.mem_of_getLast? hlast

/-! ## In front of the last slash -/

theorem namesOf_dropEndSlashes (s : List Char) :
    namesOf (Text.dropEndWhile (· = '/') s) = namesOf s := by
  change namesOf (s.rdropWhile (· = '/')) = namesOf s
  induction s using List.reverseRecOn with
  | nil => rfl
  | append_singleton s c ih =>
    by_cases hc : c = '/'
    · rw [hc, List.rdropWhile_concat_pos _ _ _ (by simp), ih, Path.namesOf_concat_slash]
    · rw [List.rdropWhile_concat_neg _ _ _ (by simpa using hc)]

theorem directoryPart_cases (h : '/' ∈ s) :
    ∃ front, s = front ++ '/' :: lastPart s ∧
      ((∀ c ∈ front, c = '/') ∧ directoryPart s = front ++ ['/'] ∨
        (∃ c ∈ front, c ≠ '/') ∧ directoryPart s = Text.dropEndWhile (· = '/') front) := by
  obtain ⟨front, hfront, hs⟩ := exists_front_of_slash_mem h
  refine ⟨front, hs, ?_⟩
  have hcut : Text.dropEndWhile (· = '/') (front ++ ['/']) = Text.dropEndWhile (· = '/') front :=
    List.rdropWhile_concat_pos _ _ _ (by simp)
  unfold directoryPart
  dsimp only
  rw [hfront, hcut]
  by_cases hall : ∀ c ∈ front, c = '/'
  · exact .inl ⟨hall, if_pos (by simpa using hall)⟩
  · exact .inr ⟨by simpa using hall, if_neg (by simpa using hall)⟩

theorem directoryPart_eq_nil_iff : directoryPart s = [] ↔ '/' ∉ s := by
  constructor
  · intro hnil h
    obtain ⟨front, -, ⟨-, hdirectory⟩ | ⟨⟨c, hc, hne⟩, hdirectory⟩⟩ := directoryPart_cases h
    · simp [hdirectory] at hnil
    · rw [hdirectory] at hnil
      exact hne (of_decide_eq_true (List.rdropWhile_eq_nil_iff.1 hnil c hc))
  · intro h
    have hfront : Text.dropEndWhile (· ≠ '/') s = [] :=
      List.rdropWhile_eq_nil_iff.2 fun c hc => by simpa using fun he : c = '/' => h (he ▸ hc)
    rw [directoryPart, hfront]
    rfl

theorem ofChars_directoryPart (h : '/' ∈ s) :
    Root.ofChars (directoryPart s) = Root.ofChars s := by
  obtain ⟨front, hs, ⟨-, hdirectory⟩ | ⟨⟨c, hc, hne⟩, hdirectory⟩⟩ := directoryPart_cases h
  · conv_rhs => rw [hs, List.append_cons]
    rw [hdirectory, Root.ofChars_append (head?_lastPart s)]
  · -- The directory holds a character other than a slash, so the rest of the text is too late.
    have hcut : front.rdropWhile (· = '/') ≠ [] := by
      intro hnil
      exact hne (of_decide_eq_true (List.rdropWhile_eq_nil_iff.1 hnil c hc))
    have hlast := List.rdropWhile_last_not (· = '/') front hcut
    have hfront : front.rdropWhile (· = '/') ++ front.rtakeWhile (· = '/') = front :=
      List.rdropWhile_append_rtakeWhile
    conv_rhs => rw [hs, ← hfront, List.append_assoc]
    rw [hdirectory]
    exact (Root.ofChars_append_of_mem (List.getLast_mem hcut) (by simpa using hlast) _).symm

theorem namesOf_directoryPart (h : '/' ∈ s) :
    namesOf (directoryPart s) = if EndsInName s then (namesOf s).dropLast else namesOf s := by
  obtain ⟨front, hs, hcases⟩ := directoryPart_cases h
  have hdirectory : namesOf (directoryPart s) = namesOf front := by
    rcases hcases with ⟨-, hdirectory⟩ | ⟨-, hdirectory⟩
    · rw [hdirectory, Path.namesOf_concat_slash]
    · rw [hdirectory, namesOf_dropEndSlashes]
  have hnames : namesOf s = namesOf front ++ if EndsInName s then [lastPart s] else [] := by
    conv_lhs => rw [hs, Path.namesOf_append_slash, namesOf_lastPart]
  rw [hdirectory, hnames]
  split
  · rw [List.dropLast_concat]
  · rw [List.append_nil]

end

/-! ## The directory of a package file -/

namespace PackageFile

variable {file : PackageFile} {p dir : Path}

def EndsInName (file : PackageFile) : Prop := NuPlugin.EndsInName file.toString.toList

instance (file : PackageFile) : Decidable file.EndsInName :=
  inferInstanceAs (Decidable (NuPlugin.EndsInName _))

def HasDirectory (file : PackageFile) : Prop :=
  '/' ∈ file.toString.toList ∧ file.toPath.names ≠ []

instance (file : PackageFile) : Decidable file.HasDirectory :=
  inferInstanceAs (Decidable (_ ∧ _))

theorem ofString_toString (file : PackageFile) : Path.ofString file.toString = file.toPath := by
  cases file with
  | text s => rfl
  | path p => exact p.ofString_toString

theorem ofString_directoryPart (h : '/' ∈ file.toString.toList) :
    Path.ofString (String.ofList (directoryPart file.toString.toList)) =
      if file.EndsInName then file.toPath.parent else file.toPath := by
  rw [← file.ofString_toString]
  apply Path.eq_of_root_of_names
  · rw [apply_ite Path.root, Path.parent_root, ite_self]
    simpa [Path.ofString] using ofChars_directoryPart h
  · rw [apply_ite Path.names, Path.parent_names, Path.ofString_names, Path.ofString_names,
      String.toList_ofList, namesOf_directoryPart h]
    split <;> simp_all [EndsInName]

theorem endsInName_path (h : p.names ≠ []) : (PackageFile.path p).EndsInName := by
  have hnames : ∀ name ∈ p.names.map String.toList, IsPathName name :=
    fun _ => Path.isPathName_of_mem_map
  have hlast : lastPart p.toString.toList =
      lastPart (['/'].intercalate (p.names.map String.toList)) := by
    rw [Path.toString_toList fun hempty => h hempty.2]
    cases p.root with
    | relative => rfl
    | slash => exact lastPart_append_slash [] _
    | doubleSlash => exact lastPart_append_slash ['/'] _
  have hname : IsPathName (lastPart p.toString.toList) := by
    rw [hlast]
    exact hnames _ (lastPart_intercalate_mem hnames (by simpa using h))
  exact ⟨hname.1, hname.2.1⟩

theorem directory?_eq (file : PackageFile) :
    file.directory? =
      if file.HasDirectory then some (if file.EndsInName then file.toPath.parent else file.toPath)
      else none := by
  have hnone : (directoryPart file.toString.toList = [] ∨ file.toPath.parent = file.toPath) ↔
      ¬ file.HasDirectory := by
    rw [directoryPart_eq_nil_iff, Path.parent_eq_self_iff, HasDirectory]
    tauto
  unfold directory?
  dsimp only
  by_cases h : file.HasDirectory
  · rw [if_neg (fun hn => hnone.1 hn h), if_pos h, ofString_directoryPart h.1]
  · rw [if_pos (hnone.2 h), if_neg h]

end PackageFile

section

variable {file : PackageFile} {p dir : Path}

theorem repoRoot_eq_ok_iff :
    repoRoot file = .ok dir ↔ file.HasDirectory ∧
      dir = if file.EndsInName then file.toPath.parent else file.toPath := by
  unfold repoRoot
  rw [file.directory?_eq]
  by_cases h : file.HasDirectory <;> simp [h, eq_comm]

theorem repoRoot_of_not_hasDirectory (h : ¬ file.HasDirectory) :
    repoRoot file = .error (.invalidPath file) := by
  rw [repoRoot, file.directory?_eq, if_neg h]

theorem repoRoot_eq_parent (h : repoRoot file = .ok dir) (hname : file.EndsInName) :
    dir = file.toPath.parent := by
  rw [(repoRoot_eq_ok_iff.1 h).2, if_pos hname]

theorem repoRoot_eq_self (h : repoRoot file = .ok dir) (hname : ¬ file.EndsInName) :
    dir = file.toPath := by
  rw [(repoRoot_eq_ok_iff.1 h).2, if_neg hname]

theorem repoRoot_path_eq_parent (h : repoRoot (.path p) = .ok dir) : dir = p.parent :=
  repoRoot_eq_parent h (PackageFile.endsInName_path (repoRoot_eq_ok_iff.1 h).1.2)

theorem repoRoot_eq_parent_iff (h : repoRoot file = .ok dir) :
    dir = file.toPath.parent ↔ file.EndsInName := by
  refine ⟨fun hparent => ?_, repoRoot_eq_parent h⟩
  by_contra hname
  rw [repoRoot_eq_self h hname] at hparent
  exact (repoRoot_eq_ok_iff.1 h).1.2 (Path.parent_eq_self_iff.1 hparent.symm)

end

/-- Which package files have a directory, and which it is. Texts that mean one path and end in its
name agree, however many slashes and dots stand in front of the name. -/
theorem repoRoot_domain :
    (∀ file, ((∃ dir, repoRoot file = .ok dir) ↔ file.HasDirectory) ∧
      (¬ file.HasDirectory → repoRoot file = .error (.invalidPath file))) ∧
    (∀ p dir, repoRoot (.path p) = .ok dir → dir = p.parent) ∧
    ∀ s t dir dir', repoRoot (.text s) = .ok dir → repoRoot (.text t) = .ok dir' →
      Path.ofString s = Path.ofString t → EndsInName s.toList → EndsInName t.toList →
        dir = (Path.ofString s).parent ∧ dir' = (Path.ofString s).parent := by
  refine ⟨fun file => ⟨?_, repoRoot_of_not_hasDirectory⟩, fun _ _ => repoRoot_path_eq_parent, ?_⟩
  · simp only [repoRoot_eq_ok_iff, exists_and_left, exists_eq, and_true]
  · intro s t dir dir' hs ht hpath hsname htname
    have hdir : dir = (Path.ofString s).parent := repoRoot_eq_parent hs hsname
    have hdir' : dir' = (Path.ofString t).parent := repoRoot_eq_parent ht htname
    exact ⟨hdir, hpath ▸ hdir'⟩

/-- The two slashes in front are kept, the others and the dots are not. A file below nothing has no
directory, and a path forgets that it was named with a dot. -/
theorem repoRoot_domain_dotted :
    repoRoot (.text ".//r/./p") = .ok (.ofString "r") ∧
      repoRoot (.text "r//p") = .ok (.ofString "r") ∧
      Path.ofString "r" = (Path.ofString ".//r/./p").parent ∧
      repoRoot (.text "//") = .error (.invalidPath (.text "//")) ∧
      repoRoot (.text "./p") = .ok (.ofString ".") ∧
      repoRoot (.path (.ofString "./p")) = .error (.invalidPath (.path (.ofString "./p"))) ∧
      repoRoot (.path (.ofString "//p")) = .ok (.ofString "//") ∧
      Path.ofString "//" = (Path.ofString "//p").parent := by
  obtain ⟨hdomain, hpath, htexts⟩ := repoRoot_domain
  have hdotted : repoRoot (.text ".//r/./p") = .ok (.ofString "r") := by decide +kernel
  have hplain : repoRoot (.text "r//p") = .ok (.ofString "r") := by decide +kernel
  have hroot : repoRoot (.path (.ofString "//p")) = .ok (.ofString "//") := by decide +kernel
  have hsame : Path.ofString ".//r/./p" = Path.ofString "r//p" := by decide +kernel
  have hagree := htexts _ _ _ _ hdotted hplain hsame (by decide +kernel) (by decide +kernel)
  exact ⟨hdotted, hplain, hagree.1, (hdomain _).2 (by decide +kernel), by decide +kernel,
    (hdomain _).2 (by decide +kernel), hroot, hpath _ _ hroot⟩

/-! ## Plans -/

/-- The directory that is built is the parent of the package file exactly if the file was named by
a path, or by a text that ends in its name. Any other text makes the package file its own directory,
where the path of the same file leads to the parent. -/
theorem plan_repoRoot_eq_parent_iff (c : Config) (files : Files) (file : PackageFile) :
    (∀ p, plan c files file = .ok p →
      (p.repoRoot = p.packageFile.parent ↔ file.EndsInName) ∧
        (¬ file.EndsInName → p.repoRoot = p.packageFile ∧ ∃ s, file = .text s)) ∧
    ∀ dir dir', repoRoot file = .ok dir → repoRoot (.path file.toPath) = .ok dir' →
      (dir = dir' ↔ file.EndsInName) := by
  constructor
  · intro p hplan
    have hfits := plan_eq_ok_iff.1 hplan
    rw [hfits.packageFile]
    refine ⟨repoRoot_eq_parent_iff hfits.repoRoot, fun hname => ?_⟩
    refine ⟨repoRoot_eq_self hfits.repoRoot hname, ?_⟩
    cases file with
    | text s => exact ⟨s, rfl⟩
    | path q =>
      have hnames := (repoRoot_eq_ok_iff.1 hfits.repoRoot).1.2
      exact absurd (PackageFile.endsInName_path hnames) hname
  · intro dir dir' hdir hpath
    rw [repoRoot_path_eq_parent hpath]
    exact repoRoot_eq_parent_iff hdir

def nestedFiles : Files := fun path =>
  if path = "a/Cargo.toml" then some (.ofText "[package]\nname = \"outer\"\n")
  else if path = "a/b/Cargo.toml" then some (.ofText "[package]\nname = \"inner\"\n")
  else none

theorem plan_repoRoot_of_dot :
    (∃ p, plan { home := .ofString "/h" } nestedFiles (.text "a/b/.") = .ok p ∧
      p.packageName = "inner" ∧ p.repoRoot = p.packageFile ∧
      p.repoRoot ≠ p.packageFile.parent) ∧
    repoRoot (.text "a/b/.") = .ok (.ofString "a/b") ∧
      repoRoot (.path (PackageFile.text "a/b/.").toPath) = .ok (.ofString "a") ∧
      Path.ofString "a/b" ≠ .ofString "a" := by
  have hplan : (plan { home := .ofString "/h" } nestedFiles (.text "a/b/.")).map
      (fun p => p.packageName) = .ok "inner" := by decide +kernel
  obtain ⟨p, hp, hname⟩ := map_eq_ok.1 hplan
  have hends : ¬ (PackageFile.text "a/b/.").EndsInName := by decide +kernel
  have htext : repoRoot (.text "a/b/.") = .ok (.ofString "a/b") := by decide +kernel
  have hpath : repoRoot (.path (PackageFile.text "a/b/.").toPath) = .ok (.ofString "a") := by
    decide +kernel
  obtain ⟨hplans, htwo⟩ :=
    plan_repoRoot_eq_parent_iff { home := .ofString "/h" } nestedFiles (.text "a/b/.")
  obtain ⟨hparent, hself⟩ := hplans p hp
  exact ⟨⟨p, hp, hname, (hself hends).1, fun h => hends (hparent.1 h)⟩, htext, hpath,
    fun h => hends ((htwo _ _ htext hpath).1 h)⟩

/-- With a slash at its end one package file is built in two directories: named by a text in its
own, named by a path in its parent. -/
theorem plan_repoRoot_of_slash :
    let config : Config := { home := .ofString "/h" }
    let shown (p : Plan) := (p.packageFile, p.repoRoot, p.packageName)
    (plan config nestedFiles (.text "a/b/")).map shown =
        .ok (.ofString "a/b", .ofString "a/b", "inner") ∧
      (plan config nestedFiles (.path (.ofString "a/b/"))).map shown =
        .ok (.ofString "a/b", .ofString "a", "outer") ∧
      (Path.ofString "a/b").parent = .ofString "a" ∧ Path.ofString "a/b" ≠ .ofString "a" := by
  decide +kernel

end NuPlugin
