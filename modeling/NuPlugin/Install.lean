import NuPlugin.Manifest
import NuPlugin.Runner

/-!
# Installing

A plan holds all that is decided before a command runs: the directory that is built, the name of
the package, the place of its binary, and the two command lines. Building and registering carry it
out. The first failure ends an installation, and a plan that cannot be made keeps all commands from
running.
-/

namespace NuPlugin

/-! ## Settings -/

abbrev Environment := String → Option String

/-- The plugin manager's home directory, the build tool, the host that a plugin is registered
with, and the operating system, which decides what a binary is called. -/
structure Config where
  home : Path
  cargo : String := "cargo"
  host : String := "nu"
  osName : String := "Linux"
  deriving DecidableEq

namespace Config

def homeVariable : String := "NUPM_HOME"

def installRoot (c : Config) : Path := c.home.join "plugins"

def homeFrom (env : Environment) : Except InstallError Path :=
  match Text.trim ((env homeVariable).getD "").toList with
  | [] => .error (.missingVariable homeVariable)
  | home => .ok (.ofString (String.ofList home))

end Config

/-! ## Binaries -/

/-- Windows, under any of its names, puts an ending behind the names of programs. -/
def binaryExtension (osName : String) : String :=
  let name := (Text.trim osName.toList).map Char.toLower
  if "win".toList.isPrefixOf name || name = "nt".toList then ".exe" else ""

def binaryPath (installRoot : Path) (packageName osName : String) : Path :=
  (installRoot.join "bin").join (packageName ++ binaryExtension osName)

/-! ## Command lines -/

def buildCommand (c : Config) (repoRoot : Path) : List String :=
  [c.cargo, "install", "--path", repoRoot.toString, "--root", c.installRoot.toString]

def registerCommand (c : Config) (binary : Path) : List String :=
  [c.host, "--commands",
    "register " ++ String.ofList (Text.DoubleQuoted.writeText binary.toString.toList)]

/-! ## Plans -/

structure Plan where
  packageFile : Path
  repoRoot : Path
  installRoot : Path
  manifest : Path
  packageName : String
  binary : Path
  buildArgv : List String
  registerArgv : List String
  deriving DecidableEq

/-- The directory that is built: the one that holds the package file. -/
def repoRoot (file : PackageFile) : Except InstallError Path :=
  match file.directory? with
  | none => .error (.invalidPath file)
  | some directory => .ok directory

def plan (c : Config) (files : Files) (file : PackageFile) : Except Failure Plan := do
  let root ← (repoRoot file).mapError .install
  let manifest := root.join Manifest.fileName
  let name ← Manifest.packageName files manifest
  let binary := binaryPath c.installRoot name c.osName
  return {
    packageFile := file.toPath
    repoRoot := root
    installRoot := c.installRoot
    manifest
    packageName := name
    binary
    buildArgv := buildCommand c root
    registerArgv := registerCommand c binary }

/-! ## Installations -/

def Plan.carryOut (p : Plan) (host : String) (runner : Runner) (queue : List Reply) :
    Execution Plan :=
  (Execution.say (.building p.packageName p.repoRoot p.installRoot) queue).andThen fun _ queue =>
  (runner.require .build p.buildArgv queue).andThen fun _ queue =>
  (Execution.say (.registering p.binary) queue).andThen fun _ queue =>
  (runner.require .registration p.registerArgv queue).andThen fun _ queue =>
  (Execution.say (.restart host p.packageName) queue).andThen fun _ queue =>
  .done (.ok p) queue

def install (c : Config) (files : Files) (runner : Runner) (file : PackageFile)
    (queue : List Reply) : Execution Plan :=
  (Execution.done (plan c files file) queue).andThen fun p queue => p.carryOut c.host runner queue

/-- Installs with the given settings, or else with the home directory that the environment names.
The package file is looked at before the environment. -/
def installWith (c : Option Config) (env : Environment) (files : Files) (runner : Runner)
    (file : PackageFile) (queue : List Reply) : Execution Plan :=
  (Execution.done ((repoRoot file).mapError .install) queue).andThen fun _ queue =>
  let settings : Except InstallError Config :=
    match c with
    | some c => .ok c
    | none => (Config.homeFrom env).map fun home => { home }
  (Execution.done (settings.mapError .install) queue).andThen fun c queue =>
  install c files runner file queue

end NuPlugin
