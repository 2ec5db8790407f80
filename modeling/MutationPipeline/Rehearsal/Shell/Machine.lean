import MutationPipeline.Rehearsal.Shell.Conditions
import MutationPipeline.Rehearsal.Shell.Editing
import MutationPipeline.Rehearsal.Shell.Exchange
import MutationPipeline.Rehearsal.Shell.Files
import MutationPipeline.Rehearsal.Shell.Filters
import MutationPipeline.Rehearsal.Shell.Numbers
import MutationPipeline.Rehearsal.Shell.Printing
import MutationPipeline.Rehearsal.Shell.Search
import MutationPipeline.Rehearsal.Shell.Sorting

/-!
The programs of the machine that call no others, and where programs are found.
-/
namespace MutationPipeline.Rehearsal.Shell.Machine

open Execution

def usualPath : Octets := "/usr/local/bin:/usr/bin:/bin".toList

def directories : Execution (List Octets) := do
  let path := ((← get).bindings.lookup "PATH".toList).getD usualPath
  return path.splitOn ':'

def candidates (name : Octets) : Execution (List Octets) := do
  if '/' ∈ name then return [name]
  return (← directories).map fun d => (if d = [] then ['.'] else d) ++ ['/'] ++ name

def found (name : Octets) : Execution (List Octets) := do
  if name = [] then return []
  (← candidates name).filterM fun path => isExecutable path.text

def environment : Execution (List (Octets × Octets)) := do
  let r : Room ← get
  return r.bindings.filter fun v => v.1 ∈ r.exported

def printenv : Program := fun names => do
  let settings ← environment
  if names.isEmpty then
    for (name, value) in settings do writeLine 1 (name ++ ['='] ++ value)
    return 0
  let mut status := 0
  for name in names do
    match settings.lookup name with
    | some value => writeLine 1 value
    | none => status := 1
  return status

def which : Program := fun names => do
  let (options, names) := names.partition fun n => n.head? = some '-'
  let mut status := 0
  for name in names do
    let paths ← found name
    for path in if options.isEmpty then paths.take 1 else paths do writeLine 1 path
    if paths.isEmpty then status := 1
  return status

def uname : Program := Program.withOptions "uname" { plain := "asnrvmpio".toList } 1 fun g => do
  let shown (c : Char) : Octets := (match c with
    | 'm' | 'p' | 'i' => "x86_64"
    | 'o' => "GNU/Linux"
    | _ => "Linux").toList
  let letters := if g.options.isEmpty then ['s'] else g.options.map (·.1)
  writeLine 1 (Octets.join " " (letters.map shown))
  return 0

def id : Program := fun arguments => do
  let letters := arguments.flatMap fun a => if a.head? = some '-' then a.drop 1 else []
  writeLine 1 (if letters = [] then "uid=0(root) gid=0(root) groups=0(root)".toList
    else if 'n' ∈ letters then "root".toList else ['0'])
  return 0

def table : List (String × Program) :=
  [("[", Conditions.bracket), ("basename", Files.basename), ("cat", Files.cat),
    ("chmod", Files.chmod), ("cmp", Files.cmp), ("cp", Files.cp), ("cut", Columns.cut),
    ("dirname", Files.dirname), ("echo", Printing.echo .program),
    ("egrep", Search.grep ["-E".toList]), ("expr", Numbers.expr), ("false", fun _ => return 1),
    ("fgrep", Search.grep ["-F".toList]), ("find", Files.find), ("fold", Filter.fold),
    ("grep", Search.grep []), ("head", Filter.head), ("id", id), ("kill", Signal.kill),
    ("ls", Files.ls), ("mkdir", Files.mkdir), ("mv", Files.mv), ("nl", Filter.nl),
    ("paste", Filter.paste), ("printenv", printenv), ("printf", Printing.printf .program),
    ("pwd", fun _ => do writeLine 1 (← workingDirectory); return 0), ("rev", Filter.rev),
    ("rm", Files.rm), ("rmdir", Files.rmdir), ("sed", Editing.sed), ("seq", Numbers.seq),
    ("sleep", Numbers.sleep), ("sort", Sorting.sort), ("sync", fun _ => return 0),
    ("tac", Filter.tac), ("tail", Filter.tail), ("tee", Files.tee),
    ("test", Conditions.test "test".toList), ("touch", Files.touch), ("tr", Exchange.tr),
    ("true", fun _ => return 0), ("tty", fun _ => do writeLine 1 "not a tty".toList; return 1),
    ("uname", uname), ("uniq", Sorting.uniq), ("wc", Filter.wc), ("which", which),
    ("whoami", fun _ => do writeLine 1 "root".toList; return 0), ("yes", Printing.yes)]

def program? (name : String) : Option Program := table.lookup name

end MutationPipeline.Rehearsal.Shell.Machine
