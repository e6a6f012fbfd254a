import NuPlugin.Proofs.CommandLine.Flag
import NuPlugin.Proofs.CommandLine.Planning
import NuPlugin.Proofs.Text.ShellWords

/-!
# Dry runs

A dry run shows the plan that the same arguments carry out without it, and fails when that plan
cannot be made.
-/

namespace NuPlugin.CommandLine

namespace Request

variable {r : Request} {w : World}

theorem planned_dry (hcargo : r.cargo ≠ some .nothing) (hhost : r.host ≠ some .nothing) :
    r.dry.planned w = r.planned w := by
  have hname : ∀ given : Option Given, given ≠ some .nothing →
      given.map r.dry.programName = given.map r.programName := by
    intro given hgiven
    match given with
    | none => rfl
    | some .nothing => exact absurd rfl hgiven
    | some (.value s) => simp only [Option.map_some, programName_value]
  have hconfig : r.dry.config w.env = r.config w.env :=
    config_congr w.env rfl (hname r.cargo hcargo) (hname r.host hhost)
  rw [planned, hconfig]
  rfl

end Request

/-- A dry run starts nothing. It shows the plan that the same arguments carry out without the
flag, with the very commands that are started then, and fails with the same words. -/
theorem dryRun_shows_plan (w : World) {arguments : List String} {r : Request}
    (hr : Request.ofArguments arguments = .ok r) (hdry : r.dryRun = false)
    (hvalues : Request.GivesValues arguments)
    (hplan : ∀ f, r.planned w = .error f → ¬ f.IsOfValue) :
    let full := finalAnswer w arguments
    (run w arguments = .ok full ∨ ∃ f, run w arguments = .error f ∧ f.IsOfValue) ∧
      ∃ dry : Answer, run w ("--dry-run" :: arguments) = .ok dry ∧ dry.calls = [] ∧
      (dry.exitCode = 0 ↔ full.calls ≠ []) ∧
      (∀ p, r.planned w = .ok p → dry.exitCode = 0 ∧ ∃ build register,
        dry.stdout =
          "Package:  " ++ p.packageName ++ "\n" ++
          ("Build:    " ++ Text.ShellWords.join build ++ "\n") ++
          ("Register: " ++ Text.ShellWords.join register ++ "\n") ++
          ("Binary:   " ++ p.binary.toString ++ "\n") ∧
        full.calls.head?.map Call.argv = some build ∧
        (∀ second, full.calls[1]? = some second → second.argv = register) ∧
        ((∀ reply ∈ w.queue, ∃ stdout stderr, reply = .exited 0 stdout stderr) →
          full.calls.length = 2)) ∧
      (∀ f, r.planned w = .error f → run w arguments = .ok full ∧
        full.exitCode = 1 ∧ dry.exitCode = 1 ∧ full.stdout = "" ∧ dry.stdout = "" ∧
        full.stderr = dry.stderr) := by
  intro full
  obtain ⟨-, hcargo, hhost⟩ := Request.values_of_givesValues hr hvalues
  have hplanned : r.dry.planned w = r.planned w := Request.planned_dry hcargo hhost
  have hrd := Request.ofArguments_dryRun hr
  have hcalls : full.calls = (r.execute w).calls := finalAnswer_calls hr
  refine ⟨run_eq_finalAnswer_or hr hcargo hhost, ?_⟩
  rw [run_eq_answer hrd]
  cases h : r.planned w with
  | error f =>
    rcases Request.planned_error_cases h with ⟨e, rfl⟩ | hmanifest
    · have hanswer := Request.answer_of_planned_error hcargo hhost h
      have hrun : run w arguments = .ok ⟨1, "", errorText e, []⟩ := (run_eq_answer hr).trans hanswer
      have hfull : full = ⟨1, "", errorText e, []⟩ := finalAnswer_of_ok hrun
      refine ⟨_, Request.answer_of_planned_error (r := r.dry) hcargo hhost (hplanned.trans h), ?_⟩
      simp [hfull, hrun]
    · exact absurd hmanifest.isOfValue (hplan f h)
  | ok p =>
    rw [Request.execute_calls h hdry] at hcalls
    refine ⟨_, Request.answer_dry_of_planned_ok (r := r.dry) rfl (hplanned.trans h), rfl, ?_, ?_,
      nofun⟩
    · rw [hcalls]
      split <;> simp
    · rintro p' hp'
      obtain rfl := Except.ok.inj hp'
      refine ⟨rfl, p.buildArgv, p.registerArgv, rfl, ?_, ?_, ?_⟩
      · rw [hcalls]
        split <;> simp
      · intro second hsecond
        rw [hcalls] at hsecond
        split at hsecond
        · rw [← Option.some.inj hsecond, Runner.call_argv]
        · cases hsecond
      · intro hqueue
        have hbuilt : (replyAt w.queue 0).EndsWell := by
          cases hq : w.queue with
          | nil => rfl
          | cons reply rest =>
            obtain ⟨stdout, stderr, rfl⟩ := hqueue reply (by simp [hq])
            rfl
        rw [hcalls, if_pos hbuilt]
        rfl

def spacedWorld : World where
  env name := if name = "NUPM_HOME" then some "/h" else none
  files path := if path = "a b/Cargo.toml" then some (.ofText "package.name = 'n'\n") else none
  queue := [.exited 0 none none, .exited 7 none none]

theorem dryRun_spacedWorld :
    ∃ full dry : Answer, run spacedWorld ["-q", "--host=x y", "a b/p"] = .ok full ∧
      run spacedWorld ["--dry-run", "-q", "--host=x y", "a b/p"] = .ok dry ∧
      dry.calls = [] ∧ dry.exitCode = 0 ∧ full.calls ≠ [] ∧ ∃ build register,
        full.calls.head?.map Call.argv = some build ∧
        (∀ second, full.calls[1]? = some second → second.argv = register) ∧
        dry.stdout =
          "Package:  n\n" ++ ("Build:    " ++ Text.ShellWords.join build ++ "\n") ++
          ("Register: " ++ Text.ShellWords.join register ++ "\n") ++
          "Binary:   /h/plugins/bin/n\n" := by
  have hr : Request.ofArguments ["-q", "--host=x y", "a b/p"] =
      .ok ⟨"a b/p", none, none, some (.value "x y"), false, true, false⟩ := by decide +kernel
  have hclass : Argument.classifyAll ["-q", "--host=x y", "a b/p"] =
      .ok [.option .quiet none, .option .host (some "x y"), .positional "a b/p"] := by
    decide +kernel
  have hvalues : Request.GivesValues ["-q", "--host=x y", "a b/p"] :=
    Request.givesValues_of_classifyAll hclass (by simp)
  have hplanned : (Request.planned ⟨"a b/p", none, none, some (.value "x y"), false, true, false⟩
      spacedWorld).map (fun p => (p.packageName, p.binary.toString)) =
        .ok ("n", "/h/plugins/bin/n") := by
    decide +kernel
  obtain ⟨p, hp, hnames⟩ := map_eq_ok.1 hplanned
  obtain ⟨hname, hbinary⟩ := Prod.mk.inj hnames
  have hanswered : (run spacedWorld ["-q", "--host=x y", "a b/p"]).map (·.exitCode) = .ok 1 := by
    decide +kernel
  obtain ⟨full, hfull, -⟩ := map_eq_ok.1 hanswered
  obtain ⟨-, dry, hrun, hcalls, hexit, hshown, -⟩ :=
    dryRun_shows_plan spacedWorld hr rfl hvalues (by rw [hp]; exact nofun)
  rw [finalAnswer_of_ok hfull] at hexit hshown
  obtain ⟨hzero, build, register, hout, hbuild, hregister, -⟩ := hshown p hp
  refine ⟨full, dry, hfull, hrun, hcalls, hzero, hexit.1 hzero, build, register, hbuild,
    hregister, ?_⟩
  rw [hout, hname, hbinary]
  rfl

/-! ## The commands on show -/

open Text.ShellWords in
/-- A shell takes the line that is shown for a command for the words of that command and for no
other words, so no two commands are shown alike. A dry run shows the commands of its plan on such
lines. -/
theorem shown_commands_read_back :
    (∀ argv : List String,
      Line (join argv).toList (argv.map String.toList) ∧
        (∀ words, Line (join argv).toList words → words = argv.map String.toList) ∧
        split (join argv) = some argv) ∧
      (∀ argv argv', join argv = join argv' → argv = argv') ∧
      ∀ p : Plan, ∃ build register,
        dryRunText p =
          "Package:  " ++ p.packageName ++ "\n" ++
          ("Build:    " ++ build ++ "\n") ++
          ("Register: " ++ register ++ "\n") ++
          ("Binary:   " ++ p.binary.toString ++ "\n") ∧
        split build = some p.buildArgv ∧ split register = some p.registerArgv := by
  refine ⟨fun argv => ⟨join_isLine argv, ?_, split_join argv⟩, fun _ _ => join_inj.1, fun p => ?_⟩
  · intro words hwords
    have hread := splitFrom_line (join_isLine argv)
    rw [splitFrom_line hwords] at hread
    exact Option.some.inj hread
  · exact ⟨_, _, rfl, split_join p.buildArgv, split_join p.registerArgv⟩

end NuPlugin.CommandLine
