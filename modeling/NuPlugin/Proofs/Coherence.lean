import NuPlugin.Proofs.Binary
import NuPlugin.Proofs.PackageFile

/-!
# Paths on command lines

A plan holds paths, and its command lines hold texts. Whoever reads a path from them again comes to
the place that the plan tells of.
-/

namespace NuPlugin

/-! ## Places -/

theorem Config.installRoot_isChild (c : Config) :
    c.installRoot.parent = c.home ∧ c.installRoot.names.getLast? = some "plugins" :=
  (Path.join_isChild_iff c.home "plugins").2 (by decide)

theorem Manifest.parent_join_fileName (root : Path) : (root.join fileName).parent = root :=
  root.parent_join (by decide)

/-! ## Words that are paths -/

theorem buildCommand_source (c : Config) (root : Path) :
    (buildCommand c root)[3]? = some root.toString := rfl

theorem buildCommand_target (c : Config) (root : Path) :
    (buildCommand c root)[5]? = some c.installRoot.toString := rfl

theorem registerCommand_binary (c : Config) (binary : Path) :
    ∃ literal text,
      (registerCommand c binary)[2]? = some ("register " ++ String.ofList literal) ∧
        Text.DoubleQuoted.readText literal = some (text, []) ∧
        Path.ofString (String.ofList text) = binary := by
  refine ⟨_, _, rfl, Text.DoubleQuoted.readText_writeText _, ?_⟩
  rw [String.ofList_toList, Path.ofString_toString]

/-! ## Plans -/

section

variable {c : Config} {files : Files} {file : PackageFile} {p : Plan}

/-- The texts of a plan lead to its paths, and these stand to each other as they should. -/
structure Plan.IsCoherent (p : Plan) (c : Config) (files : Files) (file : PackageFile) :
    Prop where
  packageFile : p.packageFile = file.toPath
  packageFile_text : Path.ofString file.toString = p.packageFile
  source : p.buildArgv[3]?.map Path.ofString = some p.repoRoot
  manifest : p.manifest = p.repoRoot.join Manifest.fileName
  manifest_parent : p.manifest.parent = p.repoRoot
  /-- The name was read in the directory that the build tool is sent to. -/
  packageName : ∀ source, p.buildArgv[3]? = some source →
    Manifest.packageName files ((Path.ofString source).join Manifest.fileName) =
      .ok p.packageName
  target : p.buildArgv[5]?.map Path.ofString = some p.installRoot
  installRoot_name : p.installRoot.names.getLast? = some "plugins"
  installRoot_parent : p.installRoot.parent = c.home
  binary : ∃ literal text,
    p.registerArgv[2]? = some ("register " ++ String.ofList literal) ∧
      Text.DoubleQuoted.readText literal = some (text, []) ∧
      Path.ofString (String.ofList text) = p.binary

/-- No path of a plan is lost on a command line, since no path is lost in its text. -/
theorem plan_isCoherent (h : plan c files file = .ok p) :
    p.IsCoherent c files file ∧ ∀ q : Path, Path.ofString q.toString = q := by
  have hfits := plan_eq_ok_iff.1 h
  have hsource : p.buildArgv[3]? = some p.repoRoot.toString := by
    rw [hfits.buildArgv, buildCommand_source]
  have htarget : p.buildArgv[5]? = some p.installRoot.toString := by
    rw [hfits.buildArgv, buildCommand_target, hfits.installRoot]
  refine ⟨?_, Path.ofString_toString⟩
  constructor
  case packageFile => exact hfits.packageFile
  case packageFile_text => rw [file.ofString_toString, hfits.packageFile]
  case source => rw [hsource, Option.map_some, Path.ofString_toString]
  case manifest => exact hfits.manifest
  case manifest_parent => rw [hfits.manifest, Manifest.parent_join_fileName]
  case packageName =>
    intro source hword
    rw [hsource] at hword
    rw [← Option.some.inj hword, Path.ofString_toString, ← hfits.manifest]
    exact hfits.packageName
  case target => rw [htarget, Option.map_some, Path.ofString_toString]
  case installRoot_name => rw [hfits.installRoot, c.installRoot_isChild.2]
  case installRoot_parent => rw [hfits.installRoot, c.installRoot_isChild.1]
  case binary =>
    rw [hfits.registerArgv]
    exact registerCommand_binary c p.binary

end

/-- Paths that are hard to write: a directory without a name, a home below two slashes and with
quotes in it. -/
theorem plan_isCoherent_quoted :
    let c : Config := { home := .ofString "//the \"home\"/." }
    let files := filesNaming "x"
    ∃ p, plan c files (.text ".//p") = .ok p ∧
      p.buildArgv = ["cargo", "install", "--path", ".", "--root", "//the \"home\"/plugins"] ∧
      p.registerArgv = ["nu", "--commands", "register \"//the \\\"home\\\"/plugins/bin/x\""] ∧
      Path.ofString "." = p.repoRoot ∧ p.IsCoherent c files (.text ".//p") := by
  intro c files
  have hplan : (plan c files (.text ".//p")).map (fun p => (p.buildArgv, p.registerArgv)) =
      .ok (["cargo", "install", "--path", ".", "--root", "//the \"home\"/plugins"],
        ["nu", "--commands", "register \"//the \\\"home\\\"/plugins/bin/x\""]) := by
    decide +kernel
  obtain ⟨p, hp, he⟩ := map_eq_ok.1 hplan
  obtain ⟨hbuild, hregister⟩ := Prod.mk.inj he
  have hcoherent : p.IsCoherent c files (.text ".//p") := (plan_isCoherent hp).1
  have hsource := hcoherent.source
  rw [hbuild] at hsource
  exact ⟨p, hp, hbuild, hregister, Option.some.inj hsource, hcoherent⟩

end NuPlugin
