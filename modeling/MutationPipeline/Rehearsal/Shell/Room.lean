import MutationPipeline.Checker.Death
import MutationPipeline.Disk
import MutationPipeline.Rehearsal.Shell.Syntax

/-!
What a running script works with: variables, files, its input, and where its output goes. A script
that needs input which is not there yet is blocked; all it has done until then stays.
-/
namespace MutationPipeline.Rehearsal.Shell

inductive Sink where
  | output
  | errors
  | held (n : Nat)
  | file (path : String)
  | nowhere
  deriving DecidableEq, Repr

inductive Spring where
  | sent
  | piped
  | file
  deriving DecidableEq, Repr

structure Stream where
  rest : Octets
  closed : Bool := true
  spring : Spring := .piped

structure Elements where
  byName : Bool := false
  items : List (Octets × Octets) := []
  latest : Option Octets := none

namespace Elements

def get? (e : Elements) (place : Octets) : Option Octets := e.items.lookup place

def number (place : Octets) : Nat := (String.ofList place).toNat?.getD 0

def set (place value : Octets) (e : Elements) : Elements :=
  if (e.get? place).isSome then
    { e with items := e.items.map fun i => if i.1 = place then (place, value) else i }
  else if e.byName then { e with items := e.items ++ [(place, value)] }
  else
    let (before, after) := e.items.span fun i => number i.1 < number place
    { e with items := before ++ (place, value) :: after }

def erase (place : Octets) (e : Elements) : Elements :=
  { e with items := e.items.filter fun i => i.1 ≠ place }

def next (e : Elements) : Nat := ((e.items.map fun i => number i.1 + 1).max?).getD 0

def add (values : List Octets) (e : Elements) : Elements :=
  values.foldl (fun e v => e.set (Octets.ofNat e.next) v) e

end Elements

inductive Deed where
  | write (s : Sink) (text : Octets)
  | strike (pid signal : Nat)

structure Event where
  time : Nat
  job : Nat
  deed : Deed

structure Ancestor where
  pid : Nat
  traps : List (Nat × Octets)

structure Job where
  pid : Nat
  status : Nat
  ends : Nat
  killed : Option Nat := none
  told : Bool := false

structure Room where
  name : Octets
  dialect : Dialect := .sh
  origin : Octets := []
  context : Octets := []
  line : Nat := 0
  calls : Nat := 0
  sourced : Nat := 0
  loops : Nat := 0
  pid : Nat := 4242
  nextPid : Nat := 4243
  ancestors : List Ancestor := []
  arguments : List Octets := []
  bindings : List (Octets × Octets) := []
  elements : List (Octets × Elements) := []
  constant : List Octets := []
  natures : List (Octets × Char) := []
  functions : List (Octets × Command) := []
  shadowed : List (Octets × Option Octets × Option Elements) := []
  exported : List Octets := []
  options : List Char := []
  settings : List String := []
  tested : Bool := false
  traps : List (Nat × Octets) := []
  caught : List (Nat × Nat) := []
  doomed : List (Nat × Nat) := []
  status : Nat := 0
  jobs : List Job := []
  lastJob : Option Nat := none
  clock : Nat := 0
  deadline : Option Nat := none
  died : Option Nat := none
  beside : Option (Nat × Nat) := none
  events : List Event := []
  depth : Nat := 0
  executables : List String := []
  aliases : List (Octets × Octets) := []
  mask : Nat := 18
  callers : List Octets := []
  optionsSeen : Nat × Nat := (1, 0)
  pipeStatuses : List Nat := []
  substituted : Option Nat := none
  directory : String := ""
  files : FileTree
  sources : List (String × Octets) := []
  streams : List (Nat × Stream)
  newStream : Nat := 1
  inputs : List (Nat × Nat) := [(0, 0)]
  sinks : List (Nat × Sink) := [(1, .output), (2, .errors)]
  output : Octets := []
  errors : Octets := []
  held : List (Nat × List Octets) := []

inductive Stop where
  | blocked
  | ended (status : ExitStatus)
  | leaving (loops : Nat) (again : Bool)
  | returning
  | abandoned
  | expired
  | endless
  deriving DecidableEq, Repr

abbrev Execution := ExceptT Stop (StateM Room)

namespace Execution

def valueOf? (name : Octets) : Execution (Option Octets) := do
  let room ← get
  match room.bindings.lookup name with
  | some value => return some value
  | none => return (room.elements.lookup name).bind fun e => e.get? ['0']

def elementsOf (name : Octets) : Execution Elements := do
  let room ← get
  match room.elements.lookup name, room.bindings.lookup name with
  | some e, _ => return e
  | none, some value => return { items := [(['0'], value)] }
  | none, none => return {}

def setElements (name : Octets) (e : Elements) : Execution Unit := modify fun r =>
  { r with
    elements := (name, e) :: r.elements.filter fun v => v.1 ≠ name
    bindings := r.bindings.filter fun v => v.1 ≠ name }

def setStatus (n : Nat) : Execution Unit := modify fun r => { r with status := n }

def restoring (back : (before after : Room) → Room) (act : Execution α) : Execution α :=
  ExceptT.mk fun before =>
    let (result, after) := act.run.run before
    (result, back before after)

def asTest (act : Execution α) : Execution α :=
  restoring (fun before after => { after with tested := before.tested }) do
    modify fun r => { r with tested := true }
    act

def strictly : Execution Unit := do
  let r ← get
  if 'e' ∈ r.options && !r.tested && r.status ≠ 0 then
    throw (.ended (.exited (UInt8.ofNat r.status)))

def Room.outlived (before after : Room) : Room :=
  { before with
    nextPid := after.nextPid
    caught := after.caught
    doomed := after.doomed
    jobs := before.jobs.map fun j => (after.jobs.find? fun k => k.pid = j.pid).getD j
    clock := after.clock
    events := after.events
    died := after.died
    executables := after.executables
    status := after.status
    substituted := after.substituted
    files := after.files
    sources := after.sources
    streams := after.streams
    newStream := after.newStream
    output := after.output
    errors := after.errors
    held := after.held }

/-- Runs something in a process of its own: what it changes in itself does not last. The shell that
waits for it may be ended meanwhile. -/
def apart (act : Execution Unit) : Execution Unit := do
  restoring Room.outlived do
    modify fun r =>
      { r with
        ancestors := ⟨r.pid, r.traps⟩ :: r.ancestors
        traps := r.traps.filter fun t => t.2 = [] }
    tryCatch act fun
      | .ended (.exited code) => setStatus code.toNat
      | .leaving .. | .returning => return
      | .abandoned => setStatus 1
      | stop => throw stop
  let r : Room ← get
  let isInner := r.ancestors.any fun a => a.pid = r.pid
  if let some n := (r.doomed.lookup r.pid).filter fun _ => !isInner then
    throw (.ended (.signalled n))

/-! ### Files -/

def base : String := "/tmp/work"

def resolved (path : String) : Execution String := do
  let start := base.toList
  if path = base then return "."
  if (start ++ ['/']).isPrefixOf path.toList then
    return String.ofList (path.toList.drop (start.length + 1))
  return Path.joined (← get).directory path

def workingDirectory : Execution Octets := do
  let directory := (← get).directory
  let path := if Path.isAbsolute directory then directory else base ++ "/" ++ directory
  return Octets.ofText (Path.ofText path).normal.text

def devices : List String := ["/dev/null", "/dev/stdin", "/dev/stdout", "/dev/stderr"]

def places : List String :=
  ["/", "/bin", "/dev", "/etc", "/home", "/lib", "/proc", "/root", "/sbin", "/sys", "/tmp", "/usr",
    "/usr/bin", "/usr/lib", "/usr/local", "/usr/local/bin", "/usr/sbin", "/var", "/var/tmp"]

def programs : List String :=
  ["[", "awk", "basename", "bash", "cat", "chmod", "cmp", "cp", "cut", "dash", "dirname", "echo",
    "egrep", "env", "expr", "false", "fgrep", "find", "fold", "grep", "head", "id", "kill", "ls",
    "mawk", "mkdir", "mv", "nice", "nl", "nohup", "paste", "printenv", "printf", "pwd", "rev", "rm",
    "rmdir", "sed", "seq", "setsid", "sh", "sleep", "sort", "stdbuf", "sync", "tac", "tail", "tee",
    "test", "timeout", "touch", "tr", "true", "tty", "uname", "uniq", "wc", "which", "whoami",
    "xargs", "yes"]

def programAt? (path : String) : Option String :=
  let p := (Path.ofText path).normal
  if p.absolute && p.names.dropLast ∈ [["bin"], ["usr", "bin"]] then
    p.names.getLast?.filter fun n => decide (n ∈ programs)
  else none

def look (path : String) : Execution (Except ReadError FileTree.Kind) := do
  match (← get).sources.lookup path with
  | some text => return .ok (.file ⟨(Octets.toBytes text).toArray⟩)
  | none =>
    if path ∈ devices || (programAt? path).isSome then return .ok (.file ⟨#[]⟩)
    if (Path.ofText path).text ∈ places then return .ok .directory
    let path ← resolved path
    return (← get).files.look path

def fileText? (path : String) : Execution (Option Octets) := do
  match ← look path with
  | .ok (.file content) => return some (Octets.ofBytes content.toList)
  | _ => return none

def putFile (path : String) (text : Octets) : Execution Unit := do
  let path ← resolved path
  if Path.isAbsolute path then
    modify fun r => { r with sources := (path, text) :: r.sources.filter fun f => f.1 ≠ path }
  else
    modify fun r => { r with files := r.files.put path (some ⟨(Octets.toBytes text).toArray⟩) }

def eraseFile (path : String) : Execution Unit := do
  let path ← resolved path
  modify fun r =>
    { r with
      files := if Path.isAbsolute path then r.files else r.files.erase path
      sources := r.sources.filter fun f => f.1 ≠ path
      executables := r.executables.filter (· ≠ path) }

def isExecutable (path : String) : Execution Bool := do
  let path ← resolved path
  let r : Room ← get
  return (programAt? path).isSome || decide ((Path.ofText path).normal.text ∈ r.executables)

def setExecutable (path : String) (may : Bool) : Execution Unit := do
  let path ← resolved path
  let path := (Path.ofText path).normal.text
  modify fun r =>
    let others := r.executables.filter (· ≠ path)
    { r with executables := if may then path :: others else others }

/-! ### Output and input -/

def sink? (descriptor : Nat) : Execution (Option Sink) := return (← get).sinks.lookup descriptor

def setSink (descriptor : Nat) (s : Option Sink) : Execution Unit := modify fun r =>
  let others := r.sinks.filter fun e => e.1 ≠ descriptor
  { r with sinks := match s with
    | some s => (descriptor, s) :: others
    | none => others }

def deliver (text : Octets) : Sink → Execution Unit
  | .output => modify fun r => { r with output := r.output ++ text }
  | .errors => modify fun r => { r with errors := r.errors ++ text }
  | .held n => modify fun r =>
    { r with held := r.held.map fun h => if h.1 = n then (n, text :: h.2) else h }
  | .file path => do putFile path ((← fileText? path).getD [] ++ text)
  | .nowhere => return

def schedule (job : Nat) (deed : Deed) : Execution Unit := modify fun r =>
  { r with events := r.events ++ [⟨r.clock, job, deed⟩] }

def write (descriptor : Nat) (text : Octets) : Execution Unit := do
  let r : Room ← get
  match r.sinks.lookup descriptor, r.beside with
  | none, _ => return
  | some (.held n), some (job, own) =>
    if own ≤ n then deliver text (.held n) else schedule job (.write (.held n) text)
  | some s, some (job, _) => schedule job (.write s text)
  | some s, none => deliver text s

def writeLine (descriptor : Nat) (text : Octets) : Execution Unit :=
  write descriptor (text ++ ['\n'])

def prologue (line : Nat) : Execution Octets := do
  let r ← get
  let number := Octets.ofNat line
  return match r.dialect with
    | .sh => r.name ++ ": ".toList ++ number ++ ": ".toList
    | .bash =>
      let name := if r.origin ≠ [] then r.origin else if r.calls ≠ 0 then "environment".toList
        else r.name
      name ++ ": line ".toList ++ number ++ ": ".toList

def complain (text : Octets) : Execution Unit := do
  writeLine 2 ((← prologue (← get).line) ++ text)

def complainAs (sh bash : Octets) : Execution Unit := do
  complain (if (← get).dialect = .sh then sh else bash)

def object (text : Octets) : Execution Unit := do
  let r : Room ← get
  complain ((if r.context = [] then [] else r.context ++ ": ".toList) ++ text)

def objectAs (sh bash : Octets) : Execution Unit := do
  object (if (← get).dialect = .sh then sh else bash)

def deliverHeld (n : Nat) : Execution Unit := do
  let r : Room ← get
  let isDue (e : Event) : Bool := match e.deed with
    | .write (.held m) _ => m = n
    | _ => false
  let (due, later) := r.events.partition isDue
  set { r with events := later }
  for e in due.mergeSort fun a b => a.time ≤ b.time do
    if let .write s text := e.deed then deliver text s

def holding (act : Execution α) : Execution (α × Octets) := do
  let r : Room ← get
  let n := ((r.held.map fun h => h.1 + 1).max?).getD 0
  set { r with held := (n, []) :: r.held }
  let x ← restoring (fun before after => { after with sinks := before.sinks }) do
    setSink 1 (some (.held n))
    act
  deliverHeld n
  let pieces := ((← get).held.lookup n).getD []
  modify fun r => { r with held := r.held.filter fun h => h.1 ≠ n }
  return (x, pieces.reverse.flatten)

/-- Gives a variable a value, which takes the first place of one with elements. A constant keeps
its value; the attempt ends a script, or the commands at hand. -/
def assign (name value : Octets) : Execution Unit := do
  let r ← get
  if name ∈ r.constant then
    objectAs (name ++ ": is read only".toList) (name ++ ": readonly variable".toList)
    throw (if r.dialect = .sh then .ended (.exited 2) else .abandoned)
  match r.elements.lookup name with
  | some e => setElements name (e.set ['0'] value)
  | none =>
    set { r with bindings := (name, value) :: r.bindings.filter fun v => v.1 ≠ name }

def giveUp : Execution α := do
  throw (if (← get).dialect = .sh then .ended (.exited 2) else .abandoned)

def inputOf (descriptor : Nat) : Execution Stream := do
  let r ← get
  return ((r.inputs.lookup descriptor).bind fun n => r.streams.lookup n).getD { rest := [] }

def setInput (descriptor : Nat) (rest : Octets) : Execution Unit := modify fun r =>
  match r.inputs.lookup descriptor with
  | some n =>
    { r with streams := r.streams.map fun s => if s.1 = n then (n, { s.2 with rest }) else s }
  | none => r

def openInput (descriptor : Nat) (s : Stream) : Execution Unit := modify fun r =>
  { r with
    streams := (r.newStream, s) :: r.streams
    newStream := r.newStream + 1
    inputs := (descriptor, r.newStream) :: r.inputs.filter fun i => i.1 ≠ descriptor }

def copyInput (descriptor : Nat) (other : Option Nat) : Execution Unit := modify fun r =>
  let others := r.inputs.filter fun i => i.1 ≠ descriptor
  { r with inputs := match other.bind fun o => r.inputs.lookup o with
    | some n => (descriptor, n) :: others
    | none => others }

def withInputs (before after : Room) : Room :=
  { after with
    inputs := before.inputs
    streams := after.streams.filter fun s => s.1 < before.newStream
    newStream := before.newStream }

def takeUntil (descriptor : Nat) (ending : Char) : Execution (Octets × Bool) := do
  let input ← inputOf descriptor
  match input.rest.span (· ≠ ending) with
  | (line, _ :: rest) =>
    setInput descriptor rest
    return (line, true)
  | (line, []) =>
    if input.closed then
      setInput descriptor []
      return (line, false)
    else throw .blocked

def takeLine : Execution (Octets × Bool) := takeUntil 0 '\n'

def takeAll : Execution (Octets × Bool) := do
  let input ← inputOf 0
  setInput 0 []
  return (input.rest, input.closed)

def leaveInput : Execution Unit := do
  if (← inputOf 0).spring = .piped then setInput 0 []

/-! ### Redirections -/

def openFile (path : String) (append : Bool) : Execution (Except String Sink) := do
  if path = "/dev/null" then return .ok .nowhere
  if path = "/dev/stdout" then return .ok ((← sink? 1).getD .nowhere)
  if path = "/dev/stderr" then return .ok ((← sink? 2).getD .nowhere)
  if path = "" then return .error "Directory nonexistent"
  match ← look path with
  | .ok .directory => return .error "Is a directory"
  | .ok (.file _) =>
    if !append then putFile path []
    return .ok (.file path)
  | .error _ =>
    let parent := (Path.ofText path).parent.text
    match ← look (if parent = "" then "." else parent) with
    | .ok .directory =>
      putFile path []
      return .ok (.file path)
    | .ok (.file _) => return .error "Not a directory"
    | .error _ => return .error "Directory nonexistent"

def redirect (descriptor : Nat) (kind : RedirectKind) (target : Octets) :
    Execution (Except Octets Unit) := do
  let path := target.text
  let dialect := (← get).dialect
  let failed (start cause plain : String) : Except Octets Unit :=
    .error (match dialect with
      | .sh => start.toList ++ target ++ (": " ++ cause).toList
      | .bash => target ++ (": " ++ plain).toList)
  match kind with
  | .write | .append =>
    match ← openFile path (kind = .append) with
    | .ok s =>
      setSink descriptor (some s)
      return .ok ()
    | .error cause =>
      let plain := if cause = "Directory nonexistent" then "No such file or directory" else cause
      return failed "cannot create " cause plain
  | .read =>
    if path = "/dev/stdin" then return .ok ()
    let text? ← if path = "/dev/null" then pure (some []) else fileText? path
    match text? with
    | some text =>
      openInput descriptor { rest := text, spring := .file }
      return .ok ()
    | none =>
      if dialect = .bash ∧ path = "" then return failed "" "" "No such file or directory"
      return failed "cannot open " "No such file" "No such file or directory"
  | .document =>
    openInput descriptor { rest := target }
    return .ok ()
  | .copy =>
    if target = ['-'] then
      copyInput descriptor none
      setSink descriptor none
      return .ok ()
    let isSingle := decide (target.length = 1)
    match path.toNat?.filter fun _ => dialect = .bash || isSingle with
    | none =>
      if dialect = .bash then return .error (target ++ ": ambiguous redirect".toList)
      complain "Syntax error: Bad fd number".toList
      throw (.ended (.exited 2))
    | some other =>
      let r ← get
      if (r.inputs.lookup other).isNone && (r.sinks.lookup other).isNone then
        return .error (target ++ ": Bad file descriptor".toList)
      copyInput descriptor (some other)
      setSink descriptor (← sink? other)
      return .ok ()

end Execution

end MutationPipeline.Rehearsal.Shell
