import NuPlugin.Failure
import NuPlugin.Text.Utf8
import NuPlugin.Toml.Document

/-!
# Manifests

The package name in the manifest of a package: the text under `name` in the table `package`, which
must not be blank. A manifest that gives no name is refused for the first reason that applies.
-/

namespace NuPlugin

/-- What the file system answers to a reader: bytes, an error, or nothing since the path could not
be handed over. A path is refused so that holds a null character. -/
inductive FileContent where
  | bytes (content : List UInt8)
  | unreadable (e : OsError)
  | refused (reason : String)

def FileContent.ofText (s : String) : FileContent := .bytes (Text.Utf8.encode s.toList)

abbrev Files := String → Option FileContent

namespace Manifest

def fileName : String := "Cargo.toml"

inductive Refusal where
  | notUtf8 (fault : Text.Utf8.Fault)
  | malformed (cause : Toml.Cause) (location : Toml.Location)
  | integerTooLong (digits : Nat)
  | noPackageTable
  | noPackageName
  deriving DecidableEq

def Refusal.toFailure (path : Path) : Refusal → Failure
  | .notUtf8 fault => .install (.invalidManifest path fault.message)
  | .malformed cause location =>
    .install (.invalidManifest path s!"{cause.message} ({location.message})")
  | .integerTooLong digits => .integerTooLong digits
  | .noPackageTable => .install (.invalidManifest path "missing [package] table")
  | .noPackageName => .install (.invalidManifest path "missing package.name")

def nameInTable (t : Toml.Table) : Except Refusal String :=
  match t.find? "package" with
  | some (.table package) =>
    match Toml.Table.find? package "name" with
    | some (.text name) => if Text.isAllBlank name then .error .noPackageName else .ok name
    | _ => .error .noPackageName
  | _ => .error .noPackageTable

def nameInText (s : List Char) : Except Refusal String :=
  let text := Toml.joinNewlines s
  match Toml.readDocument text with
  | .error (.malformed cause rest) => .error (.malformed cause (.ofRest text rest))
  | .error (.integerTooLong digits) => .error (.integerTooLong digits)
  | .ok t => nameInTable t

def nameInBytes (bytes : List UInt8) : Except Refusal String :=
  match Text.Utf8.decode bytes with
  | .error fault => .error (.notUtf8 fault)
  | .ok s => nameInText s

def packageName (files : Files) (path : Path) : Except Failure String :=
  match (files path.toString).getD (.unreadable .noSuchFile) with
  | .unreadable e => .error (.install (.unreadableManifest path e.reason))
  | .refused reason => .error (.refused reason)
  | .bytes content => (nameInBytes content).mapError (Refusal.toFailure path)

end Manifest

end NuPlugin
