import NuPlugin.Text.Quoted

/-!
# Usage

The options of the command line and the ways to spell them, the help, and the ways to get the
arguments wrong.
-/

namespace NuPlugin.CommandLine

/-! ## Options -/

inductive OptionName where
  | help
  | home
  | cargo
  | host
  | dryRun
  | quiet
  | verbose
  | version
  deriving DecidableEq

namespace OptionName

def all : List OptionName := [.help, .home, .cargo, .host, .dryRun, .quiet, .verbose, .version]

def long : OptionName → String
  | .help => "--help"
  | .home => "--home"
  | .cargo => "--cargo"
  | .host => "--host"
  | .dryRun => "--dry-run"
  | .quiet => "--quiet"
  | .verbose => "--verbose"
  | .version => "--version"

def letter? : OptionName → Option Char
  | .help => some 'h'
  | .quiet => some 'q'
  | .verbose => some 'v'
  | _ => none

def takesValue : OptionName → Bool
  | .home | .cargo | .host => true
  | _ => false

/-- The option as a message names it: by all its spellings. -/
def display (o : OptionName) : String :=
  match o.letter? with
  | some c => String.ofList ['-', c, '/'] ++ o.long
  | none => o.long

def ofLong? (s : List Char) : Option OptionName := all.find? fun o => o.long.toList = s

def ofLetter? (c : Char) : Option OptionName := all.find? fun o => o.letter? = some c

def abbreviatedBy (s : List Char) : List OptionName :=
  all.filter fun o => s.isPrefixOf o.long.toList

end OptionName

/-! ## Help -/

def program : String := "plugin-install"

def versionLine : String := program ++ " 0.1.0\n"

def usageText : String :=
  "usage: plugin-install [-h] [--home HOME] [--cargo CARGO] [--host HOST]\n" ++
  "                      [--dry-run] [-q | -v] [--version]\n" ++
  "                      package_file\n"

def helpText : String :=
  usageText ++
  "\n" ++
  "Build a nushell plugin into $NUPM_HOME/plugins and register it with nu\n" ++
  "\n" ++
  "positional arguments:\n" ++
  "  package_file   Package file in the plugin's repository (e.g.\n" ++
  "                 nu_plugin_dns/package.nuon)\n" ++
  "\n" ++
  "options:\n" ++
  "  -h, --help     show this help message and exit\n" ++
  "  --home HOME    Plugin manager home directory (default: $NUPM_HOME)\n" ++
  "  --cargo CARGO  Build tool executable\n" ++
  "  --host HOST    nu executable to register with\n" ++
  "  --dry-run      Print the build and register commands without running them\n" ++
  "  -q, --quiet    Capture command output and show it only on failure\n" ++
  "  -v, --verbose  Log commands as they run\n" ++
  "  --version      show program's version number and exit\n"

/-! ## Misuses -/

inductive Misuse where
  | ambiguous (argument : String) (options : List OptionName)
  | expectedValue (o : OptionName)
  | unexpectedValue (o : OptionName) (value : String)
  | conflict (o earlier : OptionName)
  | missingPackageFile
  | unrecognized (arguments : List String)
  deriving DecidableEq

def Misuse.message : Misuse → String
  | .ambiguous argument options =>
    s!"ambiguous option: {argument} could match " ++ ", ".intercalate (options.map (·.long))
  | .expectedValue o => s!"argument {o.display}: expected one argument"
  | .unexpectedValue o value =>
    s!"argument {o.display}: ignored explicit argument " ++ Text.quoted value
  | .conflict o earlier => s!"argument {o.display}: not allowed with argument {earlier.display}"
  | .missingPackageFile => "the following arguments are required: package_file"
  | .unrecognized arguments => "unrecognized arguments: " ++ " ".intercalate arguments

end NuPlugin.CommandLine
