import NuPlugin.Proofs.Install
import NuPlugin.Proofs.Session
import Mathlib.Control.Monad.Basic

/-!
# The log

What an installation leaves in the log, record by record. The runner speaks for each command that it
starts, and the installer between the commands, so the log tells how far an installation got.
-/

namespace NuPlugin

structure LogRecord where
  level : Level
  speaker : Speaker
  message : String
  deriving DecidableEq

def Event.record (e : Event) : LogRecord := ⟨e.level, e.speaker, e.message⟩

def Execution.log {α : Type} (e : Execution α) : List LogRecord := e.events.map Event.record

/-! ## Records of the runner -/

namespace Runner

def announcementRecord (argv : List String) : LogRecord :=
  ⟨.debug, .runner, "Running: " ++ " ".intercalate argv⟩

/-- What the log holds of a command that meets the reply. -/
def log (runner : Runner) (argv : List String) (reply : Reply) : List LogRecord :=
  match runner with
  | .recording => []
  | .subprocess _ =>
    announcementRecord argv ::
      match reply with
      | .exited .. => []
      | .notStarted e =>
        [⟨.warning, .runner, "Could not start '" ++ argv.headD "" ++ "': " ++ e.message⟩]
      | .refused _ => []

theorem map_record_records (runner : Runner) (argv : List String) (reply : Reply) :
    (runner.records argv reply).map Event.record = runner.log argv reply := by
  cases runner <;> cases reply <;> rfl

end Runner

/-! ## Announcements -/

/-- The announcements are those of the commands that were run, in their order. -/
def Execution.Announces (runner : Runner) {α : Type} (e : Execution α) (_queue : List Reply) :
    Prop :=
  e.events.filter (·.level = .debug) = e.calls.flatMap fun call => runner.announcement call.argv

theorem Runner.announcement_filter (runner : Runner) (argv : List String) :
    (runner.announcement argv).filter (·.level = .debug) = runner.announcement argv := by
  cases runner <;> rfl

theorem Runner.complaint_filter (runner : Runner) (program : String) (e : OsError) :
    (runner.complaint program e).filter (·.level = .debug) = [] := by
  cases runner <;> rfl

theorem Runner.run_announces (runner : Runner) (argv : List String) (queue : List Reply) :
    (runner.run argv queue).Announces runner queue := by
  unfold run
  dsimp only
  split
  · simp [Execution.Announces, runner.announcement_filter]
  · split <;> simp [Execution.Announces, runner.announcement_filter, runner.complaint_filter]
  · simp [Execution.Announces, runner.announcement_filter]

theorem announces_kept (runner : Runner) : Execution.Kept runner (Execution.Announces runner) where
  done _ _ := rfl
  say event queue h := by
    cases event <;> first | rfl | cases h
  run := runner.run_announces
  andThen := by
    rintro α β ⟨outcome, calls, events, left⟩ next queue he hnext
    cases outcome with
    | error f => exact he
    | ok a =>
      have hevents : events.filter (·.level = .debug) =
          calls.flatMap fun call => runner.announcement call.argv := he
      rw [Execution.ok_andThen, Execution.Announces, List.filter_append, List.flatMap_append,
        hevents, hnext a left]

theorem Execution.Announces.log {α : Type} {e : Execution α} {queue : List Reply} {capture : Bool}
    (h : e.Announces (.subprocess capture) queue) :
    e.log.filter (·.level = .debug) =
      e.calls.map fun call => Runner.announcementRecord call.argv := by
  have hrecords : e.log.filter (·.level = .debug) =
      (e.events.filter (·.level = .debug)).map Event.record := List.filter_map
  rw [hrecords, h, List.map_flatMap]
  exact List.map_eq_flatMap.symm

def Execution.OfInstaller {α : Type} (e : Execution α) (_queue : List Reply) : Prop :=
  ∀ event ∈ e.events, event.speaker = .installer

theorem ofInstaller_kept : Execution.Kept .recording Execution.OfInstaller where
  done _ _ := fun _ h => absurd h List.not_mem_nil
  say event queue h := by
    intro other hother
    rwa [List.mem_singleton.1 hother]
  run argv queue := by
    unfold Runner.run
    dsimp only
    split
    · exact fun _ h => absurd h List.not_mem_nil
    · split <;> exact fun _ h => absurd h List.not_mem_nil
    · exact fun _ h => absurd h List.not_mem_nil
  andThen := by
    rintro α β ⟨outcome, calls, events, left⟩ next queue he hnext
    cases outcome with
    | error f => exact he
    | ok a =>
      intro event h
      rcases List.mem_append.1 h with h | h
      · exact he event h
      · exact hnext a left event h

theorem Execution.OfInstaller.log {α : Type} {e : Execution α} {queue : List Reply}
    (h : e.OfInstaller queue) : ∀ r ∈ e.log, r.speaker = .installer := by
  intro r hr
  obtain ⟨event, hevent, rfl⟩ := List.mem_map.1 hr
  exact h event hevent

/-! ## Carrying out a plan -/

namespace Plan

variable (p : Plan) (host : String) (runner : Runner) (queue : List Reply)

def buildLog : List LogRecord :=
  ⟨.info, .installer, "Building '" ++ p.packageName ++ "' from " ++ p.repoRoot.toString ++
      " into " ++ p.installRoot.toString⟩ ::
    runner.log p.buildArgv (replyAt queue 0)

def registrationLog : List LogRecord :=
  ⟨.info, .installer, "Registering " ++ p.binary.toString⟩ ::
    runner.log p.registerArgv (replyAt queue 1)

def restartRecord : LogRecord :=
  ⟨.info, .installer, "Restart " ++ host ++ " to start using plugin '" ++ p.packageName ++ "'"⟩

theorem map_record_buildEvents :
    (p.buildEvents runner queue).map Event.record = p.buildLog runner queue := by
  rw [buildEvents, List.map_cons, runner.map_record_records]
  rfl

theorem map_record_registrationEvents :
    (p.registrationEvents runner queue).map Event.record = p.registrationLog runner queue := by
  rw [registrationEvents, List.map_cons, runner.map_record_records]
  rfl

theorem carryOut_log (hbuild : p.buildArgv ≠ []) (hregister : p.registerArgv ≠ []) :
    (p.carryOut host runner queue).log = p.buildLog runner queue ++
      (if (replyAt queue 0).EndsWell then p.registrationLog runner queue else []) ++
      match (p.carryOut host runner queue).outcome with
      | .ok _ => [p.restartRecord host]
      | .error _ => [] := by
  by_cases hb : (replyAt queue 0).EndsWell
  · rw [if_pos hb]
    by_cases hr : (replyAt queue 1).EndsWell
    · rw [carryOut_of_installed hbuild hregister hb hr, Execution.log, List.map_append,
        List.map_append, map_record_buildEvents, map_record_registrationEvents]
      rfl
    · rw [carryOut_of_registration_failed hbuild hregister hb hr, Execution.log, List.map_append,
        map_record_buildEvents, map_record_registrationEvents, List.append_nil]
  · rw [if_neg hb, carryOut_of_build_failed hbuild hb, Execution.log, map_record_buildEvents,
      List.append_nil, List.append_nil]

theorem carryOut_returns {p' : Plan} (hbuild : p.buildArgv ≠ []) (hregister : p.registerArgv ≠ [])
    (h : (p.carryOut host runner queue).outcome = .ok p') : p' = p := by
  by_cases hb : (replyAt queue 0).EndsWell
  · by_cases hr : (replyAt queue 1).EndsWell
    · rw [carryOut_of_installed hbuild hregister hb hr] at h
      exact (Except.ok.inj h).symm
    · rw [carryOut_of_registration_failed hbuild hregister hb hr] at h
      cases h
  · rw [carryOut_of_build_failed hbuild hb] at h
    cases h

end Plan

/-! ## Steps and sessions -/

namespace Session

theorem carry_log (s : Session) (e : Execution Plan) : (s.carry e).2.log = e.log := by
  obtain ⟨outcome, calls, events, queue⟩ := e
  cases outcome with
  | error f => rfl
  | ok p => exact congrArg (List.map Event.record) (List.append_nil events)

/-- In all of a session every command that is started is announced in the log of its step, and a
runner that starts none says nothing. -/
theorem run_log (s : Session) (steps : List Step) :
    ∀ e ∈ s.run steps,
      match s.runner with
      | .recording => ∀ r ∈ e.log, r.speaker = .installer
      | .subprocess _ =>
        e.log.filter (·.level = .debug) =
          e.calls.map fun call => Runner.announcementRecord call.argv := by
  intro e he
  cases hrunner : s.runner with
  | recording =>
    obtain ⟨queue, hkept⟩ := run_kept (hrunner ▸ ofInstaller_kept) e he
    exact hkept.log
  | subprocess capture =>
    obtain ⟨queue, hkept⟩ := run_kept (announces_kept s.runner) e he
    rw [hrunner] at hkept
    exact hkept.log

/-- The log tells of the plan `p` how far it got, and nothing else. -/
structure Tells (s : Session) (p : Plan) (e : Execution Result) : Prop where
  returned : ∀ r, e.outcome = .ok r → r = .planned p
  log_eq : e.log = p.buildLog s.runner s.queue ++
    (if (s.buildResult p).map (·.exitCode) = .ok 0 then p.registrationLog s.runner s.queue
      else []) ++
    match e.outcome with
    | .ok _ => [p.restartRecord s.config.host]
    | .error _ => []
  announced : ∀ capture, s.runner = .subprocess capture →
    e.log.filter (·.level = .debug) =
      e.calls.map fun call => Runner.announcementRecord call.argv
  announced_length : ∀ capture, s.runner = .subprocess capture →
    (e.log.filter (·.level = .debug)).length = e.calls.length
  silent : s.runner = .recording → ∀ r ∈ e.log, r.speaker = .installer

/-- The log tells exactly what happened. Where there is no plan nothing happened. -/
theorem step_install_log (s : Session) (file : PackageFile) :
    match plan s.config s.files file with
    | .error _ => (s.step (.install file)).2.log = []
    | .ok p => s.Tells p (s.step (.install file)).2 := by
  have hannounces := step_kept_attempt (announces_kept s.runner) (.install file)
  cases hp : plan s.config s.files file with
  | error f =>
    dsimp only
    rw [step, install_of_plan_error hp, carry_log]
    rfl
  | ok p =>
    dsimp only
    have hbuild := buildArgv_ne_nil hp
    have hregister := registerArgv_ne_nil hp
    have hstep : (s.step (.install file)).2 =
        (s.carry (p.carryOut s.config.host s.runner s.queue)).2 := by
      rw [step, install_of_plan_ok hp]
    have hlog : (s.step (.install file)).2.log = p.buildLog s.runner s.queue ++
        (if (s.buildResult p).map (·.exitCode) = .ok 0 then p.registrationLog s.runner s.queue
          else []) ++
        match (s.step (.install file)).2.outcome with
        | .ok _ => [p.restartRecord s.config.host]
        | .error _ => [] := by
      have hbuilt : (s.buildResult p).map (·.exitCode) = .ok 0 ↔ (replyAt s.queue 0).EndsWell :=
        s.runner.exitCode_eq_zero_iff _ _
      rw [hstep, carry_log, carry_outcome, p.carryOut_log _ _ _ hbuild hregister]
      simp only [hbuilt]
      cases (p.carryOut s.config.host s.runner s.queue).outcome <;> rfl
    have hannounced : ∀ capture, s.runner = .subprocess capture →
        (s.step (.install file)).2.log.filter (·.level = .debug) =
          (s.step (.install file)).2.calls.map
            fun call => Runner.announcementRecord call.argv := by
      intro capture hrunner
      rw [hrunner] at hannounces
      exact hannounces.log
    -- Announcements are counted by what every execution keeps, so `hlog` is not taken apart.
    refine ⟨?_, hlog, hannounced, ?_, ?_⟩
    · intro r hr
      rw [hstep, carry_outcome] at hr
      obtain ⟨p', hp', rfl⟩ := map_eq_ok.1 hr
      rw [p.carryOut_returns _ _ _ hbuild hregister hp']
    · intro capture hrunner
      rw [hannounced capture hrunner, List.length_map]
    · intro hrunner
      have hkept : Execution.Kept s.runner Execution.OfInstaller := hrunner ▸ ofInstaller_kept
      exact Execution.OfInstaller.log (step_kept_attempt hkept (.install file))

/-- The build ends well, and the host cannot be started. -/
example :
    let s : Session :=
      { config := { home := .ofString "/h" }
        env := fun _ => none
        files := fun _ => some (.ofText "[package]\nname = 'n'\n")
        queue := [.default, .notStarted .noSuchFile]
        runner := .subprocess true }
    (s.step (.install (.text "a/p"))).2.log =
      [⟨.info, .installer, "Building 'n' from a into /h/plugins"⟩,
        ⟨.debug, .runner, "Running: cargo install --path a --root /h/plugins"⟩,
        ⟨.info, .installer, "Registering /h/plugins/bin/n"⟩,
        ⟨.debug, .runner, "Running: nu --commands register \"/h/plugins/bin/n\""⟩,
        ⟨.warning, .runner, "Could not start 'nu': [Errno 2] No such file or directory"⟩] := by
  decide +kernel

end Session

end NuPlugin
