import NuPlugin.Proofs.CommandLine.Planning
import NuPlugin.Proofs.Output

/-!
# What a request does

The plan and the replies to the commands decide what a request does. How much the user asked to be
told decides only how it is told.
-/

namespace NuPlugin.CommandLine

/-! ## Captured streams -/

theorem errorText_eq_shown (purpose : Purpose) (argv : List String) (result : CommandResult) :
    errorText (.commandFailed purpose argv result) =
      "Error: " ++ (InstallError.commandFailed purpose argv result).message ++ "\n" ++
        result.shown := rfl

def complaintOf : Failure → String
  | .install e => errorText e
  | _ => ""

/-- Captured streams are shown behind the error of their command, and in no other place. -/
theorem complaintOf_capture (purpose : Purpose) (argv : List String) (capture : Bool)
    {reply : Reply} (htold : reply.breakdown? = none) :
    complaintOf ((Runner.subprocess capture).failure purpose argv reply) =
      complaintOf ((Runner.subprocess false).failure purpose argv reply) ++
        if capture then reply.captured else "" := by
  cases capture with
  | false => simp
  | true =>
    cases reply with
    | notStarted e => simp [Reply.captured, Runner.failure, Runner.result]
    | refused reason => cases htold
    | exited code stdout stderr =>
      have hcode := Reply.breakdown?_exited_eq_none.1 htold
      simp only [Runner.failure, Runner.result, Runner.stream, CommandResult.failure, if_pos hcode,
        complaintOf, errorText_eq_shown]
      rw [CommandResult.shown_nothing, String.append_empty]
      rfl

/-! ## Deeds -/

/-- What is done: the exit code, what is printed, the commands, what is said of it in the log and
behind the log, and what is added to that where streams are captured. -/
structure Deed where
  exitCode : Nat
  stdout : String
  argvs : List (List String)
  log : List Event
  complaint : String
  captured : String

def Deed.answer (d : Deed) (r : Request) : Answer where
  exitCode := d.exitCode
  stdout := d.stdout
  stderr := shownEvents r.threshold d.log ++ (d.complaint ++ if r.quiet then d.captured else "")
  calls := d.argvs.map (Runner.subprocess r.quiet).call

/-- The deed of a plan whose commands were started up to `argv`, which failed. -/
def Deed.broken (purpose : Purpose) (argvs : List (List String)) (argv : List String)
    (log : List Event) (reply : Reply) : Deed where
  exitCode := 1
  stdout := ""
  argvs := argvs ++ [argv]
  log := log
  complaint := complaintOf ((Runner.subprocess false).failure purpose argv reply)
  captured := reply.captured

namespace Request

inductive Does (r : Request) (w : World) : Deed → Prop
  | refused {e : InstallError} (hplan : r.planned w = .error (.install e)) :
    Does r w ⟨1, "", [], [], errorText e, ""⟩
  | shown {p : Plan} (hplan : r.planned w = .ok p) (hdry : r.dryRun = true) :
    Does r w ⟨0, dryRunText p, [], [], "", ""⟩
  | buildFailed {p : Plan} (hplan : r.planned w = .ok p) (hdry : r.dryRun = false)
      (hbuild : ¬ (replyAt w.queue 0).EndsWell) (htold : (replyAt w.queue 0).breakdown? = none) :
    Does r w (.broken .build [] p.buildArgv (p.buildEvents (.subprocess false) w.queue)
      (replyAt w.queue 0))
  | registrationFailed {p : Plan} (hplan : r.planned w = .ok p) (hdry : r.dryRun = false)
      (hbuild : (replyAt w.queue 0).EndsWell) (hregister : ¬ (replyAt w.queue 1).EndsWell)
      (htold : (replyAt w.queue 1).breakdown? = none) :
    Does r w (.broken .registration [p.buildArgv] p.registerArgv
      (p.buildEvents (.subprocess false) w.queue ++
        p.registrationEvents (.subprocess false) w.queue)
      (replyAt w.queue 1))
  | installed {p : Plan} {c : Config} (hplan : r.planned w = .ok p) (hdry : r.dryRun = false)
      (hc : r.config w.env = .ok c) (hbuild : (replyAt w.queue 0).EndsWell)
      (hregister : (replyAt w.queue 1).EndsWell) :
    Does r w ⟨0, installedText p, [p.buildArgv, p.registerArgv],
      p.buildEvents (.subprocess false) w.queue ++
        p.registrationEvents (.subprocess false) w.queue ++ [.restart c.host p.packageName],
      "", ""⟩

variable {r : Request} {w : World} {d : Deed}

theorem exists_does (h : ∀ f, (r.execute w).outcome = .error f → ¬ f.IsOfValue) :
    ∃ d, r.Does w d := by
  cases hplan : r.planned w with
  | error f =>
    have hf := h f (by rw [execute_of_planned_error hplan]; rfl)
    rcases planned_error_cases hplan with ⟨e, rfl⟩ | hmanifest
    · exact ⟨_, .refused hplan⟩
    · exact absurd hmanifest.isOfValue hf
  | ok p =>
    cases hdry : r.dryRun with
    | true => exact ⟨_, .shown hplan hdry⟩
    | false =>
      obtain ⟨c, hc, -⟩ := execute_of_planned_ok hplan
      by_cases hbuild : (replyAt w.queue 0).EndsWell
      · by_cases hregister : (replyAt w.queue 1).EndsWell
        · exact ⟨_, .installed hplan hdry hc hbuild hregister⟩
        · rw [execute_of_registration_failed hplan hdry hbuild hregister] at h
          exact ⟨_, .registrationFailed hplan hdry hbuild hregister
            (Runner.breakdown?_eq_none (h _ rfl))⟩
      · rw [execute_of_build_failed hplan hdry hbuild] at h
        exact ⟨_, .buildFailed hplan hdry hbuild (Runner.breakdown?_eq_none (h _ rfl))⟩

theorem buildEvents_capture (p : Plan) (capture : Bool) (queue : List Reply) :
    p.buildEvents (.subprocess capture) queue = p.buildEvents (.subprocess false) queue := by
  unfold Plan.buildEvents
  cases replyAt queue 0 <;> rfl

theorem registrationEvents_capture (p : Plan) (capture : Bool) (queue : List Reply) :
    p.registrationEvents (.subprocess capture) queue =
      p.registrationEvents (.subprocess false) queue := by
  unfold Plan.registrationEvents
  cases replyAt queue 1 <;> rfl

theorem answer_of_command {purpose : Purpose} {argv : List String} {reply : Reply}
    {calls : List Call} {events : List Event} {queue : List Reply}
    (htell : ∀ e, r.canTell e = true) (htold : reply.breakdown? = none)
    (hexecute : r.execute w =
      ⟨.error ((Runner.subprocess r.quiet).failure purpose argv reply), calls, events, queue⟩) :
    r.answer w =
      .ok ⟨1, "", shownEvents r.threshold events ++
        (complaintOf ((Runner.subprocess false).failure purpose argv reply) ++
          if r.quiet then reply.captured else ""), calls⟩ := by
  obtain ⟨result, -, -, hfailure⟩ :=
    (Runner.subprocess r.quiet).exists_failure_eq purpose argv htold
  rw [answer_of_error (by rw [hexecute, hfailure]) (htell _), hexecute,
    ← complaintOf_capture purpose argv r.quiet htold, hfailure]
  rfl

/-- The answer to a request is its deed, told as it asks. -/
theorem Does.answer_eq (hcargo : r.cargo ≠ some .nothing) (hhost : r.host ≠ some .nothing)
    (h : r.Does w d) : r.answer w = .ok (d.answer r) ∧ (r.execute w).events = d.log := by
  have htell := canTell_of_values hcargo hhost
  cases h with
  | refused hplan =>
    rw [answer_of_planned_error hcargo hhost hplan, execute_of_planned_error hplan]
    simp [Deed.answer, shownEvents, Execution.done]
  | shown hplan hdry =>
    rw [answer_dry_of_planned_ok hdry hplan, execute_of_dry hplan hdry]
    simp [Deed.answer, shownEvents, Execution.done]
  | buildFailed hplan hdry hbuild htold =>
    have hexecute := execute_of_build_failed hplan hdry hbuild
    rw [buildEvents_capture] at hexecute
    rw [answer_of_command htell htold hexecute, hexecute]
    exact ⟨rfl, rfl⟩
  | registrationFailed hplan hdry hbuild hregister htold =>
    have hexecute := execute_of_registration_failed hplan hdry hbuild hregister
    rw [buildEvents_capture, registrationEvents_capture] at hexecute
    rw [answer_of_command htell htold hexecute, hexecute]
    exact ⟨rfl, rfl⟩
  | installed hplan hdry hc hbuild hregister =>
    have hexecute := execute_of_installed hplan hdry hc hbuild hregister
    rw [buildEvents_capture, registrationEvents_capture] at hexecute
    rw [answer_of_ok (by rw [hexecute]), hexecute, hdry]
    simp [Deed.answer]

/-- Every command that is started is announced in the log, in the same order. -/
theorem Does.log_announces (h : r.Does w d) :
    d.log.filter (fun e => e.level = .debug) = d.argvs.map .running := by
  have hrecords : ∀ argv reply, ((Runner.subprocess false).records argv reply).filter
      (fun e => e.level = .debug) = [.running argv] := by
    intro argv reply
    cases reply <;> rfl
  have hbuild : ∀ p : Plan, (p.buildEvents (.subprocess false) w.queue).filter
      (fun e => e.level = .debug) = [.running p.buildArgv] := fun p => hrecords _ _
  have hregister : ∀ p : Plan, (p.registrationEvents (.subprocess false) w.queue).filter
      (fun e => e.level = .debug) = [.running p.registerArgv] := fun p => hrecords _ _
  cases h with
  | refused => rfl
  | shown => rfl
  | buildFailed => exact hbuild _
  | registrationFailed =>
    rw [Deed.broken, List.filter_append, hbuild, hregister]
    rfl
  | installed =>
    rw [List.filter_append, List.filter_append, hbuild, hregister]
    rfl

end Request

theorem exists_does_of_run {w : World} {arguments : List String} {r : Request}
    (hr : Request.ofArguments arguments = .ok r)
    (h : ∀ f, run w arguments = .error f → ¬ f.IsOfValue) : ∃ d, r.Does w d := by
  apply Request.exists_does
  intro f houtcome hf
  refine h f ?_ hf
  rw [run_eq_answer hr]
  exact Request.answer_of_failure houtcome hf.ne_install

theorem run_eq_deed {w : World} {arguments : List String} {r : Request} {d : Deed}
    (hr : Request.ofArguments arguments = .ok r) (hcargo : r.cargo ≠ some .nothing)
    (hhost : r.host ≠ some .nothing) (hd : r.Does w d) : run w arguments = .ok (d.answer r) := by
  rw [run_eq_answer hr]
  exact (hd.answer_eq hcargo hhost).1

end NuPlugin.CommandLine
