import NuPlugin.Proofs.CommandLine.Flag
import NuPlugin.Proofs.PackageFile
import NuPlugin.Proofs.Precedence

/-!
# The home directory

An option in front of all arguments names the home directory as the environment would. Neither the
arguments behind it nor what is done with them tell the two apart.
-/

namespace NuPlugin.CommandLine

/-! ## Reading the option -/

theorem Reading.advances_home (given : Given) :
    Advances (fun r => { r with home := some given }) (·.home = none) where
  packageFile r := rfl
  refuse r s h := ⟨h, rfl⟩
  name r s h := ⟨h, rfl⟩
  give r o given' h := by
    cases o with
    | home => cases h
    | _ => exact ⟨h, rfl⟩
  flag r o r' hflag h := by
    obtain ⟨hallows, rfl⟩ := flag_eq_ok_iff.1 hflag
    have hhome : r.home = none := by rw [← h]; exact (flag_values hflag).1.symm
    refine ⟨hhome, flag_eq_ok_iff.2 ⟨?_, ?_⟩⟩
    · cases o <;> exact hallows
    · cases o <;> rfl

namespace Request

variable {r : Request} {arguments : List String}

theorem ofArguments_home (hr : ofArguments arguments = .ok r) (hhome : r.home = none)
    (H : String) :
    ofArguments (("--home=" ++ H) :: arguments) =
      .ok { r with home := some (.ofExplicit H) } := by
  have hfirst (rest : List Argument) : Reading.start.readAll (.option .home (some H) :: rest) =
      { Reading.start with home := some (.ofExplicit H) }.readAll rest := by
    rw [Reading.readAll, if_pos (show OptionName.home.takesValue = true from rfl)]
    rfl
  obtain ⟨reading, hfinish, hfront⟩ := ofArguments_front (Reading.advances_home (.ofExplicit H))
    (Argument.classifyAll_valued .home H arguments) (fun rest _ => hfirst rest) hr
  obtain ⟨hfile, hall, hrequest⟩ := finish_eq_ok_iff.1 hfinish
  rw [hrequest] at hhome
  refine (hfront hhome).trans (finish_eq_ok_iff.2 ⟨hfile, hall, ?_⟩)
  rw [hrequest]

/-! ## Settings -/

theorem config_home {E : Environment} (F : Environment) {H : String} (hhome : r.home = none)
    (hH : H ≠ "") (htrim : Text.trim H.toList = H.toList) (hE : E Config.homeVariable = some H) :
    { r with home := some (.value H) }.config F = r.config E := by
  rw [config_of_home F rfl hH, config_of_home_none E hhome,
    Config.homeFrom_of_trim_eq hE hH htrim]
  rfl

theorem config_home_empty (env : Environment) (hhome : r.home = none) :
    { r with home := some (.value "") }.config env = r.config env := by
  rw [config, config, hhome]
  rfl

/-! ## Answers -/

variable {files : Files} {queue : List Reply}

/-- What a request does depends on its home directory by its settings alone. -/
theorem answer_home {E F : Environment} {home : Option Given}
    (h : { r with home }.config F = r.config E) :
    { r with home }.answer ⟨F, files, queue⟩ = r.answer ⟨E, files, queue⟩ := by
  have hexecute : { r with home }.execute ⟨F, files, queue⟩ = r.execute ⟨E, files, queue⟩ := by
    unfold execute
    rw [h]
  unfold answer
  rw [hexecute]
  rfl

def errorWithoutHome (r : Request) : InstallError :=
  if (PackageFile.text r.packageFile).HasDirectory then .missingVariable Config.homeVariable
  else .invalidPath (.text r.packageFile)

/-- Without a home directory a request does nothing, and says which check stopped it. -/
theorem answer_of_homeMissing {env : Environment} (hhome : r.home = none)
    (henv : Config.HomeMissing env) :
    r.answer ⟨env, files, queue⟩ = .ok ⟨1, "", errorText r.errorWithoutHome, []⟩ := by
  have hconfig : r.config env = .error (.missingVariable Config.homeVariable) := by
    rw [config_of_home_none env hhome, Config.homeFrom_of_missing henv, map_error]
  have hexecute := execute_of_config_error (w := ⟨env, files, queue⟩) hconfig
  by_cases hfile : (PackageFile.text r.packageFile).HasDirectory
  · rw [repoRoot_eq_ok_iff.2 ⟨hfile, rfl⟩] at hexecute
    rw [errorWithoutHome, if_pos hfile, answer, hexecute]
    rfl
  · rw [repoRoot_of_not_hasDirectory hfile] at hexecute
    rw [errorWithoutHome, if_neg hfile, answer, hexecute]
    rfl

end Request

/-- Arguments that give no home directory do the same with the option in front as with the variable
set. An empty option is as good as none, and without a home directory nothing is run. -/
theorem run_home {arguments : List String} {r : Request}
    (hr : Request.ofArguments arguments = .ok r) (hhome : r.home = none) (files : Files)
    (queue : List Reply) :
    (∀ (H : String) (E F : Environment), H ≠ "" → Text.trim H.toList = H.toList → H ≠ "--" →
      E Config.homeVariable = some H →
        run ⟨F, files, queue⟩ (("--home=" ++ H) :: arguments) =
          run ⟨E, files, queue⟩ arguments) ∧
    (∀ env : Environment,
      run ⟨env, files, queue⟩ ("--home=" :: arguments) = run ⟨env, files, queue⟩ arguments) ∧
    ∀ env : Environment, Config.HomeMissing env →
      run ⟨env, files, queue⟩ arguments = .ok ⟨1, "", errorText r.errorWithoutHome, []⟩ := by
  have hrun (w : World) : run w arguments = r.answer w := by rw [run, hr]
  refine ⟨fun H E F hH htrim hdashes hE => ?_, fun env => ?_, fun env henv => ?_⟩
  · have hgiven : Given.ofExplicit H = .value H := if_neg hdashes
    rw [hrun, run, Request.ofArguments_home hr hhome H, hgiven]
    exact Request.answer_home (Request.config_home F hhome hH htrim hE)
  · rw [hrun, run, ← String.append_empty (s := "--home="), Request.ofArguments_home hr hhome ""]
    exact Request.answer_home (Request.config_home_empty env hhome)
  · rw [hrun]
    exact Request.answer_of_homeMissing hhome henv

theorem run_home_dryRun :
    let files : Files := fun path =>
      if path = "a/Cargo.toml" then some (.ofText "package.name = 'n'\n") else none
    let named : Environment := fun name => if name = "NUPM_HOME" then some "/h" else none
    let bare : Environment := fun _ => none
    run ⟨bare, files, []⟩ ["--home=/h", "--dry-run", "a/p"] =
        run ⟨named, files, []⟩ ["--dry-run", "a/p"] ∧
      run ⟨named, files, []⟩ ["--home=", "--dry-run", "a/p"] =
        run ⟨named, files, []⟩ ["--dry-run", "a/p"] ∧
      run ⟨bare, files, []⟩ ["--dry-run", "a/p"] =
        .ok ⟨1, "", "Error: Environment variable NUPM_HOME is not set\n", []⟩ := by
  intro files named bare
  let r : Request := ⟨"a/p", none, none, none, true, false, false⟩
  have hr : Request.ofArguments ["--dry-run", "a/p"] = .ok r := by decide +kernel
  obtain ⟨hset, hempty, hmissing⟩ := run_home hr rfl files []
  refine ⟨hset "/h" named bare (by decide) (by decide) (by decide) rfl, hempty named, ?_⟩
  have htext : errorText r.errorWithoutHome =
      "Error: Environment variable NUPM_HOME is not set\n" := by decide +kernel
  have hanswer := hmissing bare nofun
  rw [htext] at hanswer
  exact hanswer

end NuPlugin.CommandLine
