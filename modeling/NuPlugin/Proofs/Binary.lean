import NuPlugin.Proofs.Outcome
import NuPlugin.Proofs.Path
import NuPlugin.Proofs.Text.DoubleQuoted

/-!
# Where a binary is, and how the host is told of it

The name in a manifest is meant as the name of a file. One with a slash in it leads elsewhere, and
so does a single dot. Whatever path comes of it, the host reads that path and nothing more.
-/

namespace NuPlugin

/-! ## Names of binaries -/

theorem slash_notMem_binaryExtension (osName : String) :
    '/' ∉ (binaryExtension osName).toList := by
  rcases binaryExtension_cases osName with h | h <;> rw [h] <;> decide

theorem isPathName_binary_iff {name : String} (hblank : Text.isAllBlank name = false)
    (osName : String) :
    IsPathName (name ++ binaryExtension osName).toList ↔
      '/' ∉ name.toList ∧ name ++ binaryExtension osName ≠ "." := by
  have hname := toList_ne_nil_of_isAllBlank hblank
  have hdot : (name ++ binaryExtension osName).toList = ['.'] ↔
      name ++ binaryExtension osName = "." := by
    rw [← String.toList_inj]
    rfl
  rw [IsPathName, Ne, Ne, hdot]
  simp [hname, slash_notMem_binaryExtension osName, and_comm]

/-! ## Places -/

variable {c : Config} {files : Files} {file : PackageFile} {p : Plan}

/-- The binary is a file right below the directory for binaries, and it has the name of the
package and the ending for the operating system. Paths are taken as they are written: `..` is a
name like any other. -/
def Plan.KeepsBinary (p : Plan) (osName : String) : Prop :=
  p.binary.parent = p.installRoot.join "bin" ∧
    p.binary.names.getLast? = some (p.packageName ++ binaryExtension osName)

instance (p : Plan) (osName : String) : Decidable (p.KeepsBinary osName) :=
  inferInstanceAs (Decidable (_ ∧ _))

/-- A binary is kept where the build puts it unless the package is named by a text with a slash in
it or by a single dot. A name that begins with a slash is the place itself, and any other is
followed down from the directory for binaries, part by part. -/
theorem plan_keepsBinary_iff (h : plan c files file = .ok p) :
    (p.KeepsBinary c.osName ↔
        '/' ∉ p.packageName.toList ∧ p.packageName ++ binaryExtension c.osName ≠ ".") ∧
      (p.packageName.toList.head? = some '/' →
        p.binary = .ofString (p.packageName ++ binaryExtension c.osName)) ∧
      (p.packageName.toList.head? ≠ some '/' →
        p.binary.root = p.installRoot.root ∧
          p.binary.names = p.installRoot.names ++ "bin" ::
            (Path.ofString (p.packageName ++ binaryExtension c.osName)).names) := by
  have hfits := plan_eq_ok_iff.1 h
  obtain ⟨s, -, t, -, -, hblank⟩ := Manifest.packageName_eq_ok_iff.1 hfits.packageName
  have hbinary : p.binary =
      (p.installRoot.join "bin").join (p.packageName ++ binaryExtension c.osName) := by
    rw [hfits.binary, hfits.installRoot, binaryPath]
  have hhead : (p.packageName ++ binaryExtension c.osName).toList.head? =
      p.packageName.toList.head? := by
    rw [String.toList_append, List.head?_append_of_ne_nil _ (toList_ne_nil_of_isAllBlank hblank)]
  have hbin : "bin".toList.head? ≠ some '/' := by decide
  refine ⟨?_, fun hslash => ?_, fun hslash => ⟨?_, ?_⟩⟩
  · rw [Plan.KeepsBinary, hbinary, Path.join_isChild_iff, isPathName_binary_iff hblank]
  · rw [hbinary, Path.join_of_slash _ (hhead.trans hslash)]
  · rw [hbinary, Path.join_root _ (hhead ▸ hslash), Path.join_root _ hbin]
  · rw [hbinary, Path.join_names _ (hhead ▸ hslash), Path.join_names _ hbin,
      Path.ofString_names_of_isPathName (s := "bin") (by decide), List.append_assoc,
      List.singleton_append]

def filesNaming (name : String) : Files :=
  fun _ => some (.ofText ("[package]\nname = \"" ++ name ++ "\"\n"))

/-- A name that climbs: as written the path still passes through the directory. -/
theorem plan_climbing :
    ∃ p, plan { home := .ofString "/h" } (filesNaming "../../x") (.text "repo/p") = .ok p ∧
      ¬ p.KeepsBinary "Linux" ∧ p.binary.names = ["h", "plugins", "bin", "..", "..", "x"] := by
  have hplan : (plan { home := .ofString "/h" } (filesNaming "../../x") (.text "repo/p")).map
      (fun p => (p.packageName, p.installRoot)) = .ok ("../../x", .ofString "/h/plugins") := by
    decide +kernel
  obtain ⟨p, hp, he⟩ := map_eq_ok.1 hplan
  obtain ⟨hname, hroot⟩ := Prod.mk.inj he
  obtain ⟨hkeeps, -, hnames⟩ := plan_keepsBinary_iff hp
  rw [hname] at hkeeps hnames
  refine ⟨p, hp, by rw [hkeeps]; decide, ?_⟩
  rw [(hnames (by decide)).2, hroot]
  decide +kernel

/-- A name that is the path of another program. -/
theorem plan_elsewhere :
    ∃ p, plan { home := .ofString "/h" } (filesNaming "/usr/bin/x") (.text "repo/p") = .ok p ∧
      ¬ p.KeepsBinary "Linux" ∧ p.binary = .ofString "/usr/bin/x" ∧
      p.registerArgv = ["nu", "--commands", "register \"/usr/bin/x\""] := by
  have hplan : (plan { home := .ofString "/h" } (filesNaming "/usr/bin/x") (.text "repo/p")).map
      (fun p => (decide (p.KeepsBinary "Linux"), p.binary, p.registerArgv)) =
      .ok (false, .ofString "/usr/bin/x", ["nu", "--commands", "register \"/usr/bin/x\""]) := by
    decide +kernel
  obtain ⟨p, hp, he⟩ := map_eq_ok.1 hplan
  obtain ⟨hkeeps, he⟩ := Prod.mk.inj he
  obtain ⟨hbinary, hregister⟩ := Prod.mk.inj he
  exact ⟨p, hp, of_decide_eq_false hkeeps, hbinary, hregister⟩

/-! ## Telling the host -/

theorem registerCommand_inj {c c' : Config} {b b' : Path} :
    registerCommand c' b' = registerCommand c b ↔
      c'.host = c.host ∧ b'.toString = b.toString := by
  simp only [registerCommand, List.cons.injEq, String.append_right_inj, String.ofList_inj,
    Text.DoubleQuoted.writeText_inj, String.toList_inj, and_true, true_and]

open Text.DoubleQuoted in
/-- The host is given one literal that ends where its command ends. The literal is the path with
backslashes doubled first and quotes escaped then; the host finds no other escapes in it, and reads
the path. So commands tell hosts and paths apart. -/
theorem registerCommand_literal (c : Config) (binary : Path) :
    ∃ body ps,
      registerCommand c binary =
          [c.host, "--commands", "register " ++ String.ofList ('"' :: body)] ∧
        body =
          replaced '"' ['\\', '"'] (replaced '\\' ['\\', '\\'] binary.toString.toList) ++ ['"'] ∧
        pieces body = some (ps, []) ∧
        (∀ e, Piece.escape e ∈ ps → e = '"' ∨ e = '\\') ∧
        ps.mapM Piece.meaning? = some binary.toString.toList ∧
        readText ('"' :: body) = some (binary.toString.toList, []) ∧
        ∀ (c' : Config) (binary' : Path), registerCommand c' binary' = registerCommand c binary ↔
          c'.host = c.host ∧ binary'.toString = binary.toString := by
  refine ⟨escaped binary.toString.toList ++ ['"'], binary.toString.toList.map Piece.ofChar,
    rfl, ?_, ?_, ?_, ?_, ?_, ?_⟩
  · rw [replaced_replaced]
  · exact pieces_escaped _ []
  · exact fun e => Piece.of_escape_mem_map_ofChar
  · exact Piece.mapM_meaning?_ofChar _
  · exact readText_writeText _
  · exact fun c' binary' => registerCommand_inj

end NuPlugin
