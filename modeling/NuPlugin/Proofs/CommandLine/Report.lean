import NuPlugin.Proofs.CommandLine.Deed
import NuPlugin.Proofs.CommandLine.Flag

/-!
# Reports of failed commands

A quiet run that a command breaks off ends with the error and with what the command wrote. Only a
command whose program was given no name is not reported at all.
-/

namespace NuPlugin.CommandLine

/-! ## Quiet requests -/

namespace Reading

def OneVolume (r : Reading) : Prop := r.quiet = false ∨ r.verbose = false

theorem keeps_oneVolume (classified : List Argument) : Keeps OneVolume classified where
  refuse _ _ h := h
  name _ _ h := h
  explicit _ o _ _ h := by cases o <;> exact h
  next _ o _ h := by cases o <;> exact h
  flag r o r' h hflag := by
    obtain ⟨hallows, rfl⟩ := flag_eq_ok_iff.1 hflag
    cases o with
    | quiet => exact .inr hallows
    | verbose => exact .inl hallows
    | _ => exact h

end Reading

theorem Request.threshold_of_quiet {arguments : List String} {r : Request}
    (h : ofArguments arguments = .ok r) (hquiet : r.quiet = true) :
    r.threshold = .warning := by
  obtain ⟨classified, reading, -, hread, hfinish⟩ := readAll_of_ofArguments h
  have hvolume := (Reading.keeps_oneVolume classified).readAll (.inl rfl) hread
  obtain ⟨-, -, hr⟩ := finish_eq_ok hfinish
  have hloud : reading.quiet ≠ false := by
    rw [hr] at hquiet
    exact ne_false_of_eq_true hquiet
  have hverbose : r.verbose = false := hr ▸ hvolume.resolve_left hloud
  rw [threshold, hverbose, hquiet]
  rfl

/-! ## Warnings -/

def startWarning (argv : List String) : Reply → String
  | .exited .. => ""
  | .notStarted e => "Could not start '" ++ argv.headD "" ++ "': " ++ e.message ++ "\n"
  | .refused _ => ""

theorem shownEvents_append (threshold : Level) (events more : List Event) :
    shownEvents threshold (events ++ more) =
      shownEvents threshold events ++ shownEvents threshold more := by
  simp only [shownEvents, List.filter_append, List.map_append, String.join_append]

theorem shownEvents_buildEvents (p : Plan) (capture : Bool) (queue : List Reply) :
    shownEvents .warning (p.buildEvents (.subprocess capture) queue) =
      startWarning p.buildArgv (replyAt queue 0) := by
  unfold Plan.buildEvents
  cases replyAt queue 0 <;> rfl

theorem shownEvents_registrationEvents (p : Plan) (capture : Bool) (queue : List Reply) :
    shownEvents .warning (p.registrationEvents (.subprocess capture) queue) =
      startWarning p.registerArgv (replyAt queue 1) := by
  unfold Plan.registrationEvents
  cases replyAt queue 1 <;> rfl

theorem startWarning_of_endsWell {reply : Reply} (h : reply.EndsWell) (argv : List String) :
    startWarning argv reply = "" := by
  cases reply with
  | exited code stdout stderr => rfl
  | notStarted e => exact h.elim
  | refused reason => exact h.elim

/-! ## The command that failed -/

namespace Request

variable {r : Request} {w : World}

def Breaks (r : Request) (w : World) : Prop :=
  ∃ i < (r.execute w).calls.length, ¬ (replyAt w.queue i).EndsWell

/-- The command that breaks off a request, with what it was started for and what became of it. It
is the last command that is started. -/
inductive BrokenBy (r : Request) (w : World) : Purpose → List String → Reply → Prop
  | build {argv : List String} (hcalls : (r.execute w).calls = [⟨argv, some r.quiet⟩])
      (hbuild : ¬ (replyAt w.queue 0).EndsWell) :
    BrokenBy r w .build argv (replyAt w.queue 0)
  | registration {build argv : List String}
      (hcalls : (r.execute w).calls = [⟨build, some r.quiet⟩, ⟨argv, some r.quiet⟩])
      (hbuild : (replyAt w.queue 0).EndsWell) (hregister : ¬ (replyAt w.queue 1).EndsWell) :
    BrokenBy r w .registration argv (replyAt w.queue 1)

/-- One command that does not end well breaks off the request, and nothing but a command that could
not be started is warned of. -/
theorem Breaks.exists_brokenBy (h : r.Breaks w) :
    ∃ purpose argv reply, r.BrokenBy w purpose argv reply ∧
      (r.execute w).outcome = .error ((Runner.subprocess r.quiet).failure purpose argv reply) ∧
      shownEvents .warning (r.execute w).events = startWarning argv reply := by
  obtain ⟨i, hi, hfailed⟩ := h
  cases hplan : r.planned w with
  | error f =>
    rw [execute_of_planned_error hplan] at hi
    exact absurd hi (Nat.not_lt_zero i)
  | ok p =>
    cases hdry : r.dryRun with
    | true =>
      rw [execute_of_dry hplan hdry] at hi
      exact absurd hi (Nat.not_lt_zero i)
    | false =>
      by_cases hbuild : (replyAt w.queue 0).EndsWell
      · by_cases hregister : (replyAt w.queue 1).EndsWell
        · -- Two commands are started, and both end well.
          obtain ⟨c, hc, -, -, -⟩ := execute_of_not_dry hplan hdry
          rw [execute_of_installed hplan hdry hc hbuild hregister] at hi
          obtain rfl | rfl : i = 0 ∨ i = 1 := by
            have hi' : i < 2 := hi
            omega
          · exact absurd hbuild hfailed
          · exact absurd hregister hfailed
        · have hexecute := execute_of_registration_failed hplan hdry hbuild hregister
          refine ⟨.registration, p.registerArgv, _,
            .registration (by rw [hexecute]; rfl) hbuild hregister, by rw [hexecute], ?_⟩
          rw [hexecute, shownEvents_append, shownEvents_buildEvents,
            shownEvents_registrationEvents, startWarning_of_endsWell hbuild, String.empty_append]
      · have hexecute := execute_of_build_failed hplan hdry hbuild
        refine ⟨.build, p.buildArgv, _, .build (by rw [hexecute]; rfl) hbuild, by rw [hexecute], ?_⟩
        rw [hexecute, shownEvents_buildEvents]

/-! ## The report -/

def nameGiven (r : Request) : Purpose → Option Given
  | .build => r.cargo
  | .registration => r.host
  | .command => none

theorem canTell_commandFailed_iff {purpose : Purpose} {argv : List String}
    {result : CommandResult} :
    r.canTell (.commandFailed purpose argv result) = true ↔
      r.nameGiven purpose ≠ some .nothing := by
  cases purpose <;> simp [canTell, nameGiven]

theorem answer_of_not_canTell {e : InstallError}
    (h : (r.execute w).outcome = .error (.install e)) (htell : r.canTell e = false) :
    r.answer w = .error .namelessProgram := by
  simp [answer, h, htell]

end Request

/-- What a quiet run tells of a command that broke it off and left `result`. -/
def report (purpose : Purpose) (argv : List String) (reply : Reply) (result : CommandResult) :
    String :=
  startWarning argv reply ++
    ("Error: " ++ (InstallError.commandFailed purpose argv result).message ++ "\n") ++
    if Text.isAllBlank result.stdout = true ∧ Text.isAllBlank result.stderr = true then ""
    else result.output ++ "\n"

/-- The output of a command leaves out nothing but blank streams and newlines at the end of a
stream, and it is told behind the error of every command that breaks off a quiet run, unless it is
empty. A run ends without an answer if the program of that command was given nothing as its name,
or if the command leaves no error to tell. -/
theorem quiet_run_reports (result : CommandResult) (w : World) (arguments : List String) :
    result.ShowsAll ∧
      ∀ r, Request.ofArguments arguments = .ok r → r.quiet = true → r.Breaks w →
        ∃ purpose argv reply, r.BrokenBy w purpose argv reply ∧
          (reply.breakdown? = none →
            ∃ left, (Runner.subprocess true).result argv reply = .ok left ∧
              (r.nameGiven purpose ≠ some .nothing →
                run w arguments =
                  .ok ⟨1, "", report purpose argv reply left, (r.execute w).calls⟩) ∧
              (r.nameGiven purpose = some .nothing →
                run w arguments = .error .namelessProgram)) ∧
          ∀ f, reply.breakdown? = some f → run w arguments = .error f := by
  refine ⟨result.showsAll, ?_⟩
  intro r hr hquiet hbreaks
  obtain ⟨purpose, argv, reply, hbroken, houtcome, hlog⟩ := hbreaks.exists_brokenBy
  rw [hquiet] at houtcome
  rw [run_eq_answer hr]
  refine ⟨purpose, argv, reply, hbroken, fun htold => ?_, fun f hf => ?_⟩
  · obtain ⟨left, hleft, -, hfailure⟩ :=
      (Runner.subprocess true).exists_failure_eq purpose argv htold
    rw [hfailure] at houtcome
    refine ⟨left, hleft, fun hname => ?_, fun hname => ?_⟩
    · rw [Request.answer_of_error houtcome (Request.canTell_commandFailed_iff.2 hname),
        Request.threshold_of_quiet hr hquiet, hlog, errorText_eq_shown, CommandResult.shown_eq,
        ← String.append_assoc]
      rfl
    · refine Request.answer_of_not_canTell houtcome (Bool.eq_false_iff.2 ?_)
      exact mt Request.canTell_commandFailed_iff.1 (not_not_intro hname)
  · rw [Runner.failure_of_breakdown? _ purpose argv hf] at houtcome
    exact Request.answer_of_failure houtcome (Reply.isOfValue_of_breakdown? hf).ne_install

/-- A build that fails with blanks on one stream, and with several newlines at the end of the
other. -/
def blankWorld : World where
  env _ := none
  files path := if path = "a/Cargo.toml" then some (.ofText "package.name = 'n'\n") else none
  queue := [.exited 3 (some "\u2003\r\n") (some "\n boom\r\n\n")]

theorem quiet_run_reports_blankWorld :
    run blankWorld ["-q", "--home=/h", "a/p"] =
      .ok ⟨1, "",
        "Error: Build failed with exit code 3: cargo install --path a --root /h/plugins\n" ++
        "\n boom\r\n",
        [⟨["cargo", "install", "--path", "a", "--root", "/h/plugins"], some true⟩]⟩ := by
  have hr : Request.ofArguments ["-q", "--home=/h", "a/p"] =
      .ok ⟨"a/p", some (.value "/h"), none, none, false, true, false⟩ := by decide +kernel
  have hcalls : (Request.execute ⟨"a/p", some (.value "/h"), none, none, false, true, false⟩
      blankWorld).calls =
        [⟨["cargo", "install", "--path", "a", "--root", "/h/plugins"], some true⟩] := by
    decide +kernel
  have hfailed : ¬ (replyAt blankWorld.queue 0).EndsWell := show ¬ (3 : Int) = 0 by decide
  obtain ⟨purpose, argv, reply, hbroken, htold, -⟩ :=
    (quiet_run_reports ⟨3, "", ""⟩ blankWorld _).2 _ hr rfl
      ⟨0, by rw [hcalls]; decide, hfailed⟩
  cases hbroken with
  | build hcalls' hbuild =>
    rw [hcalls] at hcalls' htold
    obtain rfl : _ = argv := congrArg Call.argv (List.singleton_inj.1 hcalls')
    obtain ⟨left, hleft, hnamed, -⟩ := htold (by decide)
    obtain rfl : _ = left := Except.ok.inj hleft
    rw [hnamed nofun]
    decide +kernel
  | registration hcalls' hbuild hregister => exact absurd hbuild hfailed

def namelessWorld : World where
  env _ := none
  files path :=
    if path = "repo/Cargo.toml" then some (.ofText "[package]\nname = \"x\"\n") else none
  queue := [.exited 1 (some "out\n\n") (some "boom\n")]

/-- A quiet run ends without a report where a build tool fails that was given the separator as its
name. -/
theorem quiet_run_namelessWorld :
    (∃ r, Request.ofArguments ["-q", "--home=/h", "--cargo=--", "repo/p"] = .ok r ∧
        r.quiet = true ∧ r.Breaks namelessWorld) ∧
      run namelessWorld ["-q", "--home=/h", "--cargo=--", "repo/p"] = .error .namelessProgram ∧
      ¬ ∃ a, run namelessWorld ["-q", "--home=/h", "--cargo=--", "repo/p"] = .ok a := by
  have hr : Request.ofArguments ["-q", "--home=/h", "--cargo=--", "repo/p"] =
      .ok ⟨"repo/p", some (.value "/h"), some .nothing, none, false, true, false⟩ := by
    decide +kernel
  have hcalls : (Request.execute
      ⟨"repo/p", some (.value "/h"), some .nothing, none, false, true, false⟩
      namelessWorld).calls.length = 1 := by
    decide +kernel
  have hfailed : ¬ (replyAt namelessWorld.queue 0).EndsWell := show ¬ (1 : Int) = 0 by decide
  have hrun : run namelessWorld ["-q", "--home=/h", "--cargo=--", "repo/p"] =
      .error .namelessProgram := by
    decide +kernel
  refine ⟨⟨_, hr, rfl, 0, by rw [hcalls]; decide, hfailed⟩, hrun, ?_⟩
  rw [hrun]
  rintro ⟨a, ha⟩
  cases ha

end NuPlugin.CommandLine
