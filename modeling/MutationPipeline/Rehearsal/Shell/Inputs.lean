import MutationPipeline.Rehearsal.Shell.Options

/-!
What programs read: the files they are given, or else their input, line by line or as a whole. A
program that needs more input than there is waits for it.
-/
namespace MutationPipeline.Rehearsal.Shell.Execution

abbrev Line := Octets × Bool

def linesOf (text : Octets) : List Line :=
  (Text.lines (Octets.toBytes text)).map fun l => (Octets.ofBytes l.bytes, l.ended)

def joinLines (lines : List Line) : Octets :=
  lines.flatMap fun l => if l.2 then l.1 ++ ['\n'] else l.1

def nextLine? : Execution (Option Line) := do
  let (line, ended) ← takeLine
  return if line = [] ∧ !ended then none else some (line, ended)

def eachLine (act : Line → Execution Bool) : Execution Unit := do
  go ((← inputOf 0).rest.length + 1)
where
  go : Nat → Execution Unit
    | 0 => return
    | fuel + 1 => do
      match ← nextLine? with
      | none => return
      | some line => if ← act line then go fuel else return

def wholeInput : Execution Octets := do
  let (text, closed) ← takeAll
  if closed then return text else throw .blocked

def fromText (text : Octets) (act : Execution α) : Execution α :=
  restoring withInputs do
    openInput 0 { rest := text, spring := .file }
    act

def ownInput : Octets := ['-']

def isOwnInput (path : Octets) : Bool := path = ownInput || path = "/dev/stdin".toList

def noFile : String := "No such file or directory"

def aDirectory : String := "Is a directory"

def causeOf (e : ReadError) : String :=
  if e = .notDirectory then "Not a directory" else noFile

def onInput (complaint : Octets → String → Octets) (path : Octets) (act : Execution Unit) :
    Execution Bool := do
  if isOwnInput path then
    act
    return true
  match ← look path.text with
  | .ok (.file content) =>
    fromText (Octets.ofBytes content.toList) act
    return true
  | .ok .directory =>
    writeLine 2 (complaint path aDirectory)
    return false
  | .error e =>
    writeLine 2 (complaint path (causeOf e))
    return false

def onInputs (complaint : Octets → String → Octets) (paths : List Octets)
    (act : Octets → Execution Unit) : Execution Bool := do
  let each ← (if paths.isEmpty then [ownInput] else paths).mapM fun path =>
    onInput complaint path (act path)
  return each.all id

def textOf (complaint : Octets → String → Octets) (paths : List Octets) :
    Execution (Octets × Bool) := do
  let each ← (if paths.isEmpty then [ownInput] else paths).mapM fun path => do
    if isOwnInput path then return (← wholeInput, true)
    match ← look path.text with
    | .ok (.file content) => return (Octets.ofBytes content.toList, true)
    | .ok .directory =>
      writeLine 2 (complaint path aDirectory)
      return ([], false)
    | .error e =>
      writeLine 2 (complaint path (causeOf e))
      return ([], false)
  return (each.flatMap (·.1), each.all (·.2))

def told (path : Octets) : Octets :=
  let isPlain (c : Char) : Bool := c.isAlphanum || c ∈ "%+,-./:@_]{}".toList || 127 < c.toNat
  if path ≠ [] && path.all isPlain then path
  else if '\'' ∈ path && path.all fun c => c ∉ ['"', '$', '\\', '\x60'] then
    ['"'] ++ path ++ ['"']
  else ['\''] ++ path ++ ['\'']

def naming (program : String) (path : Octets) (cause : String) : Octets :=
  (program ++ ": ").toList ++ told path ++ (": " ++ cause).toList

def namingPlainly (program : String) (path : Octets) (cause : String) : Octets :=
  (program ++ ": ").toList ++ path ++ (": " ++ cause).toList

def unopened (program : String) (path : Octets) (cause : String) : Octets :=
  if cause = aDirectory then
    (program ++ ": error reading '").toList ++ path ++ ("': " ++ cause).toList
  else (program ++ ": cannot open '").toList ++ path ++ ("' for reading: " ++ cause).toList

def statusOf (all : Bool) : Nat := if all then 0 else 1

end MutationPipeline.Rehearsal.Shell.Execution
