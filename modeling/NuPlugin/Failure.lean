import NuPlugin.Path
import NuPlugin.Text.Quoted

/-!
# Failures

Why an installation stopped. Most causes are errors that the user is told about; the others break
off whatever was going on.
-/

namespace NuPlugin

/-! ## Errors of the operating system -/

/-- What the operating system says when it refuses: a number, perhaps with words and with the file
it is about, or words alone. -/
inductive OsError where
  | numbered (number : Int) (reason file : Option String)
  | text (message : String)
  deriving DecidableEq

namespace OsError

def noSuchFile : OsError := .numbered 2 (some "No such file or directory") none

def message : OsError → String
  | .text s => s
  | .numbered number reason file =>
    let words := s!"[Errno {number}] " ++ reason.getD "None"
    match file with
    | none => words
    | some file => words ++ ": " ++ Text.quoted file

def reason (e : OsError) : String :=
  match e with
  | .numbered _ (some reason) _ => if reason = "" then e.message else reason
  | _ => e.message

end OsError

/-! ## Errors of an installation -/

structure CommandResult where
  exitCode : Int
  stdout : String
  stderr : String
  deriving DecidableEq

inductive Purpose where
  | command
  | build
  | registration
  deriving DecidableEq

def Purpose.name : Purpose → String
  | .command => "Command"
  | .build => "Build"
  | .registration => "Registration"

inductive InstallError where
  | other (message : String)
  | invalidPath (file : PackageFile)
  | missingVariable (name : String)
  | unreadableManifest (manifest : Path) (reason : String)
  | invalidManifest (manifest : Path) (reason : String)
  | commandFailed (purpose : Purpose) (argv : List String) (result : CommandResult)
  deriving DecidableEq

def InstallError.message : InstallError → String
  | .other message => message
  | .invalidPath file => s!"Package file has no parent directory: '{file.toString}'"
  | .missingVariable name => s!"Environment variable {name} is not set"
  | .unreadableManifest manifest reason => s!"Cannot read {manifest.toString}: {reason}"
  | .invalidManifest manifest reason => s!"Cannot parse {manifest.toString}: {reason}"
  | .commandFailed purpose argv result =>
    s!"{purpose.name} failed with exit code {result.exitCode}: " ++ " ".intercalate argv

/-- What a command wrote: its streams one after the other, without blank ones and without the
newlines at their ends. -/
def CommandResult.output (r : CommandResult) : String :=
  let shown := [r.stdout, r.stderr].filter fun stream => !Text.isAllBlank stream
  "\n".intercalate (shown.map fun stream =>
    String.ofList (Text.dropEndWhile (· = '\n') stream.toList))

/-! ## Failures -/

inductive Failure where
  | install (e : InstallError)
  /-- A manifest holds an integer of too many digits. -/
  | integerTooLong (digits : Nat)
  | exitCodeTooLong
  /-- A path or the words of a command could not be handed over, or their outcome not be taken. -/
  | refused (reason : String)
  | noProgram
  /-- A command failed whose program was given no name to tell it by. -/
  | namelessProgram
  deriving DecidableEq

def embeddedNull : String := "embedded null byte"

def Failure.message : Failure → String
  | .install e => e.message
  | .integerTooLong digits =>
    s!"Exceeds the limit ({Text.maxDigits} digits) for integer string conversion: "
      ++ s!"value has {digits} digits; use sys.set_int_max_str_digits() to increase the limit"
  | .exitCodeTooLong =>
    s!"Exceeds the limit ({Text.maxDigits} digits) for integer string conversion; "
      ++ "use sys.set_int_max_str_digits() to increase the limit"
  | .refused reason => reason
  | .noProgram => "list index out of range"
  | .namelessProgram => "sequence item 0: expected str instance, list found"

/-- What a failed command ends an installation with. The error tells its exit code, if that can be
written at all. -/
def CommandResult.failure (r : CommandResult) (purpose : Purpose) (argv : List String) : Failure :=
  if Text.IsWritable r.exitCode then .install (.commandFailed purpose argv r) else .exitCodeTooLong

end NuPlugin
