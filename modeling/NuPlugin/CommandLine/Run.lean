import NuPlugin.CommandLine.Request
import NuPlugin.Install

/-!
# The command line

One run of the program: its exit code, what it writes, and the commands that it starts.
-/

namespace NuPlugin.CommandLine

structure World where
  env : Environment
  files : Files
  queue : List Reply

structure Answer where
  exitCode : Nat
  stdout : String
  stderr : String
  calls : List Call
  deriving DecidableEq

/-! ## What is written -/

def Request.threshold (r : Request) : Level :=
  if r.verbose then .debug else if r.quiet then .warning else .info

def shownEvents (threshold : Level) (events : List Event) : String :=
  let shown := events.filter fun e => threshold.rank ≤ e.level.rank
  String.join (shown.map fun e => e.message ++ "\n")

def errorText (e : InstallError) : String :=
  s!"Error: {e.message}\n" ++
  match e with
  | .commandFailed _ _ result => if result.output = "" then "" else result.output ++ "\n"
  | _ => ""

def dryRunText (p : Plan) : String :=
  s!"Package:  {p.packageName}\n" ++
  s!"Build:    {Text.ShellWords.join p.buildArgv}\n" ++
  s!"Register: {Text.ShellWords.join p.registerArgv}\n" ++
  s!"Binary:   {p.binary.toString}\n"

def installedText (p : Plan) : String :=
  s!"Installed plugin '{p.packageName}' at {p.binary.toString}\n"

/-! ## What is done -/

def Request.manifest? (r : Request) : Option Path :=
  (PackageFile.text r.packageFile).directory?.map (·.join Manifest.fileName)

/-- The name of a program in the commands of a request: a dry run prints it, any other starts it. -/
def Request.programName (r : Request) (given : Given) : String :=
  if r.dryRun then given.word else given.programName

/-- The settings of a request. An empty home directory is as good as none. -/
def Request.config (r : Request) (env : Environment) : Except InstallError Config := do
  let home ←
    match (r.home.map Given.word).getD "" with
    | "" => Config.homeFrom env
    | home => .ok (.ofString home)
  return {
    home
    cargo := (r.cargo.map r.programName).getD "cargo"
    host := (r.host.map r.programName).getD "nu" }

/-- The package file is looked at first, then the settings. -/
def Request.execute (r : Request) (w : World) : Execution Plan :=
  let file := PackageFile.text r.packageFile
  let settings := do
    let _ ← repoRoot file
    r.config w.env
  (Execution.done (settings.mapError .install) w.queue).andThen fun c queue =>
  if r.dryRun then .done (plan c w.files file) queue
  else install c w.files (.subprocess r.quiet) file queue

/-- Whether an error can be told: that a command failed is told by the name of its program. -/
def Request.canTell (r : Request) : InstallError → Bool
  | .commandFailed .build _ _ => r.cargo ≠ some .nothing
  | .commandFailed .registration _ _ => r.host ≠ some .nothing
  | _ => true

def Request.answer (r : Request) (w : World) : Except Failure Answer :=
  let e := r.execute w
  let log := shownEvents r.threshold e.events
  match e.outcome with
  | .ok p => .ok ⟨0, if r.dryRun then dryRunText p else installedText p, log, e.calls⟩
  | .error (.install error) =>
    if r.canTell error then .ok ⟨1, "", log ++ errorText error, e.calls⟩
    else .error .namelessProgram
  | .error f => .error f

def Stop.answer : Stop → Answer
  | .help => ⟨0, helpText, "", []⟩
  | .version => ⟨0, versionLine, "", []⟩
  | .misuse m => ⟨2, "", usageText ++ s!"{program}: error: {m.message}\n", []⟩

def run (w : World) (arguments : List String) : Except Failure Answer :=
  match Request.ofArguments arguments with
  | .error stop => .ok stop.answer
  | .ok r => r.answer w

/-- What a run leaves that ends without an answer: the log, and behind it the failure. -/
def Request.breakdown (r : Request) (w : World) (f : Failure) : Answer :=
  let e := r.execute w
  ⟨1, "", shownEvents r.threshold e.events ++ f.message ++ "\n", e.calls⟩

/-- How a run ends for whoever started it. -/
def finalAnswer (w : World) (arguments : List String) : Answer :=
  match Request.ofArguments arguments with
  | .error stop => stop.answer
  | .ok r =>
    match r.answer w with
    | .ok a => a
    | .error f => r.breakdown w f

end NuPlugin.CommandLine
