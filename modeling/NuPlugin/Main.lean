import NuPlugin.CommandLine.Run

/-!
# The program

Reads the environment and one manifest, and writes what a run answers. It starts no commands of
its own: every command is answered with a refusal, so that all but a dry run ends at the build.
-/

namespace NuPlugin

/-- The answer to every command. -/
def refusal : Reply := .notStarted (.text "Function not implemented")

def readContent (p : Path) : IO FileContent := do
  if p.toString.toList.contains '\u0000' then return .refused embeddedNull
  try
    let content ← IO.FS.readBinFile p.toString
    return .bytes content.toList
  catch
    | .noFileOrDirectory .. => return .unreadable .noSuchFile
    | e => return .unreadable (.text (toString e))

/-- The files that a run with these arguments looks at. -/
def readFiles (arguments : List String) : IO Files := do
  match CommandLine.Request.ofArguments arguments with
  | .error _ => return fun _ => none
  | .ok r =>
    match r.manifest? with
    | none => return fun _ => none
    | some manifest =>
      let content ← readContent manifest
      return fun path => if path = manifest.toString then some content else none

end NuPlugin

open NuPlugin in
def main (arguments : List String) : IO UInt32 := do
  let home ← IO.getEnv Config.homeVariable
  let files ← readFiles arguments
  let env : Environment := fun name => if name = Config.homeVariable then home else none
  let answer := CommandLine.finalAnswer ⟨env, files, [refusal]⟩ arguments
  IO.print answer.stdout
  IO.eprint answer.stderr
  return UInt32.ofNat answer.exitCode
