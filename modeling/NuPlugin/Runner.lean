import NuPlugin.Failure

/-!
# Running commands

The outside world is a queue of replies. Each command takes the first one; a command that finds
none ends well and writes nothing. What is said while commands run goes into events.
-/

namespace NuPlugin

/-! ## Events -/

inductive Event where
  | building (packageName : String) (repoRoot installRoot : Path)
  | registering (binary : Path)
  | restart (host packageName : String)
  | running (argv : List String)
  | couldNotStart (program : String) (e : OsError)
  deriving DecidableEq

inductive Level where
  | debug
  | info
  | warning
  deriving DecidableEq

def Level.rank : Level → Nat
  | .debug => 0
  | .info => 1
  | .warning => 2

inductive Speaker where
  | installer
  | runner
  deriving DecidableEq

namespace Event

def level : Event → Level
  | .running .. => .debug
  | .couldNotStart .. => .warning
  | _ => .info

def speaker : Event → Speaker
  | .running .. => .runner
  | .couldNotStart .. => .runner
  | _ => .installer

def message : Event → String
  | .building name source target =>
    s!"Building '{name}' from {source.toString} into {target.toString}"
  | .registering binary => s!"Registering {binary.toString}"
  | .restart host name => s!"Restart {host} to start using plugin '{name}'"
  | .running argv => "Running: " ++ " ".intercalate argv
  | .couldNotStart program e => s!"Could not start '{program}': {e.message}"

end Event

/-! ## Replies -/

/-- What the outside world answers to a command: how it ended, why it could not be started, or why
its words could not even be handed over or its output not be taken. Words are refused so that hold
a null character. A stream may be missing. -/
inductive Reply where
  | exited (code : Int) (stdout stderr : Option String)
  | notStarted (e : OsError)
  | refused (reason : String)
  deriving DecidableEq

def Reply.default : Reply := .exited 0 none none

/-- How commands are run. One runner only notes them down. The other starts them, and either
captures what they write or lets them write to the terminal. -/
inductive Runner where
  | recording
  | subprocess (capture : Bool)
  deriving DecidableEq

/-- A command that was handed to a runner, whatever became of it; `capture` is known where commands
are started. -/
structure Call where
  argv : List String
  capture : Option Bool
  deriving DecidableEq

/-! ## Executions -/

/-- What carrying something out gave, with the commands run, the events in order, and the replies
that are left. -/
structure Execution (α : Type) where
  outcome : Except Failure α
  calls : List Call
  events : List Event
  queue : List Reply

namespace Execution

variable {α β : Type}

def done (outcome : Except Failure α) (queue : List Reply) : Execution α :=
  ⟨outcome, [], [], queue⟩

def say (event : Event) (queue : List Reply) : Execution Unit := ⟨.ok (), [], [event], queue⟩

def andThen (e : Execution α) (next : α → List Reply → Execution β) : Execution β :=
  match e.outcome with
  | .error f => ⟨.error f, e.calls, e.events, e.queue⟩
  | .ok a =>
    let r := next a e.queue
    ⟨r.outcome, e.calls ++ r.calls, e.events ++ r.events, r.queue⟩

end Execution

/-! ## Commands -/

namespace Runner

def notStartedCode : Int := 127

/-- A stream as the runner hands it on: one that is missing or was not captured is empty. -/
def stream (runner : Runner) (s : Option String) : String :=
  match runner with
  | .subprocess false => ""
  | _ => s.getD ""

def call (runner : Runner) (argv : List String) : Call :=
  match runner with
  | .recording => ⟨argv, none⟩
  | .subprocess capture => ⟨argv, some capture⟩

def announcement (runner : Runner) (argv : List String) : List Event :=
  match runner with
  | .recording => []
  | .subprocess _ => [.running argv]

def complaint (runner : Runner) (program : String) (e : OsError) : List Event :=
  match runner with
  | .recording => []
  | .subprocess _ => [.couldNotStart program e]

/-- Runs one command. One that cannot be started counts as failed, with the reason as what it
wrote; without a program there is nothing to name in that reason. One that is refused breaks off
whatever it was run for. -/
def run (runner : Runner) (argv : List String) (queue : List Reply) : Execution CommandResult :=
  let calls := [runner.call argv]
  let said := runner.announcement argv
  match queue.head?.getD .default with
  | .exited code stdout stderr =>
    ⟨.ok ⟨code, runner.stream stdout, runner.stream stderr⟩, calls, said, queue.tail⟩
  | .notStarted e =>
    match argv with
    | [] => ⟨.error .noProgram, calls, said, queue.tail⟩
    | program :: _ =>
      ⟨.ok ⟨notStartedCode, "", s!"{program}: {e.message}"⟩, calls,
        said ++ runner.complaint program e, queue.tail⟩
  | .refused reason => ⟨.error (.refused reason), calls, said, queue.tail⟩

def require (runner : Runner) (purpose : Purpose) (argv : List String) (queue : List Reply) :
    Execution Unit :=
  (runner.run argv queue).andThen fun result queue =>
    .done (if result.exitCode = 0 then .ok () else .error (result.failure purpose argv)) queue

end Runner

end NuPlugin
