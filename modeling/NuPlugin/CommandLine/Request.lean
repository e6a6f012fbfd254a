import NuPlugin.CommandLine.Argument

/-!
# Requests

What the arguments ask for. They take effect from left to right, and the first of them that asks
for help, for the version, or for something impossible ends the reading.
-/

namespace NuPlugin.CommandLine

/-! ## Values -/

/-- What an option was given. It was given nothing if its value was the separator, which is dropped
wherever it does its work. -/
inductive Given where
  | value (s : String)
  | nothing
  deriving DecidableEq

namespace Given

def ofExplicit (s : String) : Given := if s = "--" then .nothing else .value s

/-- How the value is printed as a word: nothing is an empty word. -/
def word : Given → String
  | .value s => s
  | .nothing => ""

/-- The name that a program is started by: nothing shows as a list that holds no word. -/
def programName : Given → String
  | .value s => s
  | .nothing => "[]"

end Given

/-! ## Requests and readings -/

structure Request where
  packageFile : String
  home : Option Given
  cargo : Option Given
  host : Option Given
  dryRun : Bool
  quiet : Bool
  verbose : Bool
  deriving DecidableEq

inductive Stop where
  | help
  | version
  | misuse (m : Misuse)
  deriving DecidableEq

structure Reading where
  packageFile : Option String
  home : Option Given
  cargo : Option Given
  host : Option Given
  dryRun : Bool
  quiet : Bool
  verbose : Bool
  unrecognized : List String
  deriving DecidableEq

namespace Reading

def start : Reading := ⟨none, none, none, none, false, false, false, []⟩

/-! ## One argument -/

def refuse (r : Reading) (s : String) : Reading :=
  { r with unrecognized := r.unrecognized ++ [s] }

/-- The last value given to an option counts. -/
def give (r : Reading) (o : OptionName) (given : Given) : Reading :=
  match o with
  | .home => { r with home := some given }
  | .cargo => { r with cargo := some given }
  | .host => { r with host := some given }
  | _ => r

def flag (r : Reading) : OptionName → Except Stop Reading
  | .help => .error .help
  | .version => .error .version
  | .dryRun => .ok { r with dryRun := true }
  | .quiet =>
    if r.verbose then .error (.misuse (.conflict .quiet .verbose)) else .ok { r with quiet := true }
  | .verbose =>
    if r.quiet then .error (.misuse (.conflict .verbose .quiet)) else .ok { r with verbose := true }
  | _ => .ok r

/-- The options of a cluster. All its letters must be known before any takes effect. -/
def lettersOf (first : OptionName) : List Char → Except Stop (List OptionName)
  | [] => .ok [first]
  | c :: more =>
    match OptionName.ofLetter? c with
    | some next => (lettersOf next more).map (first :: ·)
    | none => .error (.misuse (.unexpectedValue first (String.ofList (c :: more))))

/-! ## All arguments -/

/-- The first positional argument is the package file; a separator right before or behind it has
done its work. -/
def readAll (r : Reading) : List Argument → Except Stop Reading
  | [] => .ok r
  | .positional s :: rest =>
    match r.packageFile with
    | some _ => (r.refuse s).readAll rest
    | none =>
      let r := { r with packageFile := some s }
      match rest with
      | .separator :: rest => r.readAll rest
      | rest => r.readAll rest
  | .separator :: rest =>
    match r.packageFile with
    | some _ => (r.refuse "--").readAll rest
    | none => r.readAll rest
  | .unknown s :: rest => (r.refuse s).readAll rest
  | .cluster first more :: rest => do
    let options ← lettersOf first more
    let r ← options.foldlM flag r
    r.readAll rest
  | .option o (some value) :: rest =>
    if o.takesValue then (r.give o (.ofExplicit value)).readAll rest
    else .error (.misuse (.unexpectedValue o value))
  | .option o none :: rest =>
    if o.takesValue then
      match rest with
      | .positional value :: rest => (r.give o (.value value)).readAll rest
      | _ => .error (.misuse (.expectedValue o))
    else do
      let r ← r.flag o
      r.readAll rest

def finish (r : Reading) : Except Stop Request :=
  match r.packageFile with
  | none => .error (.misuse .missingPackageFile)
  | some packageFile =>
    if r.unrecognized = [] then
      .ok ⟨packageFile, r.home, r.cargo, r.host, r.dryRun, r.quiet, r.verbose⟩
    else .error (.misuse (.unrecognized r.unrecognized))

end Reading

def Request.ofArguments (arguments : List String) : Except Stop Request := do
  let classified ← (Argument.classifyAll arguments).mapError .misuse
  let r ← Reading.start.readAll classified
  r.finish

end NuPlugin.CommandLine
