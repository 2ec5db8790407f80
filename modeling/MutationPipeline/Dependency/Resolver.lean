import MutationPipeline.Dependency.Specifier
import MutationPipeline.Disk
import MutationPipeline.Json.Codec
import MutationPipeline.Log

/-!
Which files a file requires directly: as a manifest says, or as the imports in its text say.
-/
namespace MutationPipeline.Dependency

inductive ResolveError where
  | unreadable (file : String) (cause : ReadError)
  | unknownFile (file : String)
  deriving DecidableEq, Repr

def ResolveError.message : ResolveError → String
  | .unreadable file cause => "cannot read " ++ file ++ ": " ++ cause.message
  | .unknownFile file => "no dependency information for " ++ file

structure Resolution where
  outcome : Except ResolveError (List String)
  notes : List Note := []

abbrev Resolver (m : Type → Type) := String → m Resolution

abbrev Manifest := Keyed (List String)

namespace Manifest

def codec : Json.Codec Manifest := Json.Codec.text.list.keyed

def resolve (manifest : Manifest) (file : String) : Resolution where
  outcome := match manifest.get? file with
    | some required => .ok required
    | none => .error (.unknownFile file)

end Manifest

/-- Files with these endings can be imported without their ending, the first one found is taken. -/
structure ImportSearch where
  extensions : List String := ["ts", "tsx", "mts", "cts", "js", "jsx", "mjs", "cjs"]

namespace ImportSearch

/-- Where a module may be: the file itself, the file with an ending, or the index of a directory. -/
def candidates (search : ImportSearch) (base : String) : List String :=
  base :: search.extensions.map (fun e => base ++ "." ++ e) ++
    search.extensions.map (fun e => Path.joined base ("index." ++ e))

def target (file specifier : String) : String :=
  ((Path.ofText file).parent.append (Path.ofText specifier).names).normal.text

variable {m : Type → Type} [Monad m]

def locate (search : ImportSearch) (disk : Disk m) (file specifier : String) :
    m (Option String) :=
  (search.candidates (target file specifier)).findM? disk.isFile

/-- The located modules of a list of specifiers, each once, and notes on those not located. -/
def locateAll (search : ImportSearch) (disk : Disk m) (file : String) :
    List String → List String → m (List String × List Note)
  | [], found => pure (found, [])
  | specifier :: rest, found => do
    match ← search.locate disk file specifier with
    | some path =>
      search.locateAll disk file rest (if path ∈ found then found else found ++ [path])
    | none =>
      let (found, notes) ← search.locateAll disk file rest found
      pure (found, .debug (file ++ ": cannot locate module '" ++ specifier ++ "'") :: notes)

def resolve (search : ImportSearch) (disk : Disk m) : Resolver m := fun file => do
  match ← disk.read file with
  | .error cause => pure { outcome := .error (.unreadable file cause) }
  | .ok source =>
    let (found, notes) ← search.locateAll disk file (relativeSpecifiers source) []
    pure { outcome := .ok found, notes }

end ImportSearch

end MutationPipeline.Dependency
