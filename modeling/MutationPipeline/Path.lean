/-!
Paths of files. A path is a list of names, read from the root or from the working directory; as a
text it has `/` between its names. Empty names and the name `.` lead nowhere and are not kept.
-/
namespace MutationPipeline

structure Path where
  absolute : Bool
  names : List String
  deriving DecidableEq, Repr

namespace Path

def segments : List Char → List (List Char)
  | [] => [[]]
  | c :: rest =>
    if c = '/' then [] :: segments rest
    else match segments rest with
      | [] => [[c]]
      | first :: more => (c :: first) :: more

def isAbsolute (text : String) : Bool := text.startsWith "/"

def ofText (text : String) : Path where
  absolute := isAbsolute text
  names := ((segments text.toList).map String.ofList).filter fun s => s ≠ "" ∧ s ≠ "."

def text (p : Path) : String := (if p.absolute then "/" else "") ++ "/".intercalate p.names

def parent (p : Path) : Path := { p with names := p.names.dropLast }

def append (p : Path) (names : List String) : Path := { p with names := p.names ++ names }

/-- One name further. The name `..` takes the last name away, whatever it is, and stays only where
there is none. -/
def follow (names : List String) (name : String) : List String :=
  if name = ".." then
    if names = [] then [".."] else names.dropLast
  else names ++ [name]

def normal (p : Path) : Path := { p with names := p.names.foldl follow [] }

def joined (dir path : String) : String :=
  if isAbsolute path || dir.isEmpty then path
  else if dir.endsWith "/" then dir ++ path
  else dir ++ "/" ++ path

end Path

end MutationPipeline
