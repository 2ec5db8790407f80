import MutationPipeline.Path

/-!
Files that can be read, and a tree of files kept in memory.

The tree hangs below one directory, with the working directory `w` in it. What lies beyond that
directory is not known; nothing is found there.
-/
namespace MutationPipeline

inductive ReadError where
  | notFound
  | notDirectory
  | isDirectory
  | nameTooLong
  | nulInName
  | notText
  | other (text : String)
  deriving DecidableEq, Repr

def ReadError.message : ReadError → String
  | .notFound => "No such file or directory (os error 2)"
  | .notDirectory => "Not a directory (os error 20)"
  | .isDirectory => "Is a directory (os error 21)"
  | .nameTooLong => "File name too long (os error 36)"
  | .nulInName => "file name contained an unexpected NUL byte"
  | .notText => "stream did not contain valid UTF-8"
  | .other text => text

structure Disk (m : Type → Type) where
  isFile : String → m Bool
  read : String → m (Except ReadError String)

/-- Files and directories by the names that lead to them; a directory has no content. -/
structure FileTree where
  entries : List (List String × Option ByteArray)

namespace FileTree

def longestName : Nat := 255

def longestPath : Nat := 4095

def workingNames : List String := ["w"]

/-- Where a name leads from a place; none is a place beyond the tree. -/
inductive Place where
  | beyond
  | at (names : List String)
  deriving DecidableEq, Repr

inductive Kind where
  | file (content : ByteArray)
  | directory

def kind? (t : FileTree) : Place → Option Kind
  | .beyond => some .directory
  | .at names =>
    match t.entries.lookup names with
    | some (some content) => some (.file content)
    | some none => some .directory
    | none =>
      if names.isPrefixOf workingNames || t.entries.any fun e => names.isPrefixOf e.1 then
        some .directory
      else none

def enter (place : Place) (name : String) : Place :=
  match place with
  | .beyond => .beyond
  | .at names =>
    if name = ".." then if names = [] then .beyond else .at names.dropLast
    else .at (names ++ [name])

def walk (t : FileTree) : Place → List String → Except ReadError (Place × Kind)
  | place, [] =>
    match t.kind? place with
    | some k => .ok (place, k)
    | none => .error .notFound
  | place, name :: rest =>
    match t.kind? place with
    | none => .error .notFound
    | some (.file _) => .error .notDirectory
    | some .directory =>
      if name = "" ∨ name = "." then t.walk place rest
      else if longestName < name.utf8ByteSize then .error .nameTooLong
      else if place = .beyond ∧ name ≠ ".." then .error .notFound
      else t.walk (enter place name) rest

def look (t : FileTree) (path : String) : Except ReadError Kind :=
  if path.contains '\x00' then .error .nulInName
  else if path.isEmpty then .error .notFound
  else if longestPath < path.utf8ByteSize then .error .nameTooLong
  else
  let start := if Path.isAbsolute path then .beyond else Place.at workingNames
  (t.walk start ((Path.segments path.toList).map String.ofList)).map (·.2)

def isFile (t : FileTree) (path : String) : Bool :=
  match t.look path with
  | .ok (.file _) => true
  | _ => false

def readBytes (t : FileTree) (path : String) : Except ReadError ByteArray :=
  match t.look path with
  | .ok (.file content) => .ok content
  | .ok .directory => .error .isDirectory
  | .error e => .error e

def read (t : FileTree) (path : String) : Except ReadError String := do
  match String.fromUTF8? (← t.readBytes path) with
  | some text => .ok text
  | none => .error .notText

def disk (t : FileTree) : Disk Id where
  isFile := t.isFile
  read := t.read

def placeOf (path : String) : Place :=
  ((Path.segments path.toList).map String.ofList).foldl
    (fun place name => if name = "" ∨ name = "." then place else enter place name)
    (.at workingNames)

def put (t : FileTree) (path : String) (content : Option ByteArray) : FileTree :=
  match placeOf path with
  | .beyond => t
  | .at names => ⟨(names, content) :: t.entries.filter fun e => e.1 ≠ names⟩

def erase (t : FileTree) (path : String) : FileTree :=
  match placeOf path with
  | .beyond => t
  | .at names =>
    ⟨(names.dropLast, none) :: t.entries.filter fun e =>
      !names.isPrefixOf e.1 && e.1 ≠ names.dropLast⟩

def names (t : FileTree) (path : String) : List String :=
  match placeOf path with
  | .beyond => []
  | .at place =>
    let paths := workingNames :: t.entries.map (·.1)
    (paths.filterMap fun p =>
      if place.isPrefixOf p then (p.drop place.length).head? else none).eraseDups

end FileTree

end MutationPipeline
