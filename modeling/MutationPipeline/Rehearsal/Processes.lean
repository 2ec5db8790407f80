import MutationPipeline.Checker.Service
import MutationPipeline.Rehearsal.Checkers
import MutationPipeline.Rehearsal.Shell.Evaluator

/-!
Processes of a rehearsal: shell scripts that run on files in memory, and servers with scripted
plugins.

A script has no memory of where it waits. Each time something is asked of its process it runs from
the start, on the files that it found there and with all input sent so far, up to where it waits
for more.

Nothing is said about scripts. What is said about processes is said for every `Child`, and a script
is only one way to have one.
-/
namespace MutationPipeline.Rehearsal

open Shell Execution

structure CommandSpec where
  program : String
  arguments : List String := []
  environment : List (String × String) := []
  directory : Option String := none

/-! ### Scripts -/

def scriptFuel : Nat := 20000

def grace : Nat := 5000000

structure Process where
  act : Execution Unit
  start : Room
  input : Octets := []
  taken : Nat := 0

namespace Process

def progress (p : Process) : Progress :=
  let input : Stream := { rest := p.input, closed := false, spring := .sent }
  .ofExecution p.act { p.start with streams := [(0, input)] }

def last (p : Process) : Progress :=
  let input : Stream := { rest := p.input, spring := .sent }
  let deadline := p.progress.room.clock + grace
  .ofExecution p.act { p.start with streams := [(0, input)], deadline := some deadline }

end Process

structure Computer where
  files : FileTree
  executables : List String := []
  sources : List (String × Octets) := []
  processes : List Process := []

namespace Computer

def usualEnvironment : List (Octets × Octets) :=
  [("PATH".toList, Machine.usualPath), ("HOME".toList, "/root".toList)]

def room (c : Computer) (spec : CommandSpec) : Room :=
  let given := spec.environment.map fun v =>
    let (first, others) := (Octets.ofText v.1).splitAt 1
    let text := others ++ ['='] ++ Octets.ofText v.2
    (first ++ text.takeWhile (· ≠ '='), (text.dropWhile (· ≠ '=')).drop 1)
  let bindings := given.reverse ++ usualEnvironment
  { name := Octets.ofText spec.program
    bindings
    exported := bindings.map (·.1)
    directory := spec.directory.getD ""
    files := c.files
    executables := c.executables
    sources := c.sources
    streams := [] }

def prepare (c : Computer) (spec : CommandSpec) : Except String (Execution Unit) := do
  let texts := spec.program :: spec.arguments ++ spec.directory.toList ++
    spec.environment.flatMap fun v => [v.1, v.2]
  if texts.any fun s => s.contains '\x00' then throw "nul byte found in provided data"
  if let some directory := spec.directory then
    match c.files.look directory with
    | .ok .directory => pure ()
    | .ok (.file _) => throw ReadError.notDirectory.message
    | .error e => throw e.message
  let name := Octets.ofText spec.program
  match ((program? name).run.run (c.room spec)).1 with
  | .ok (.ok path) => return execute scriptFuel path name (spec.arguments.map Octets.ofText)
  | .ok (.error cause) => throw cause
  | .error _ => throw ReadError.notFound.message

def process (n : Nat) : Acting Computer Process := do
  match (← get).processes[n]? with
  | some p => return p
  | none => failure

def setProcess (n : Nat) (p : Process) : Acting Computer Unit := modify fun c =>
  { c with processes := c.processes.set n p }

def advance (progress : Progress) : Acting Computer Unit := modify fun c =>
  let r := progress.room
  { c with files := r.files, executables := r.executables, sources := r.sources }

/-- Sends a line. A process that has ended takes none; one that was just started takes the first
line in any case, as it has had no time to end. -/
def send (n : Nat) (line : String) : Acting Computer Bool := do
  let p ← process n
  if !p.input.isEmpty && p.progress.status.isSome then return false
  let p := { p with input := p.input ++ Octets.ofText line ++ ['\n'] }
  setProcess n p
  advance p.progress
  return true

def receive (n : Nat) : Acting Computer (Option Text.Line) := do
  let p ← process n
  let progress := p.progress
  advance progress
  match (Text.lines (Octets.toBytes progress.room.output))[p.taken]? with
  | some line =>
    if line.ended || progress.outputEnded then
      setProcess n { p with taken := p.taken + 1 }
      return some line
    else failure
  | none => if progress.outputEnded then return none else failure

def finish (n : Nat) : Acting Computer Passing := do
  let progress := (← process n).last
  advance progress
  return { waiting := progress.status.elim .overdue .ended
           complaints := Text.lines (Octets.toBytes progress.room.errors) }

def child (n : Nat) : Child (Acting Computer) where
  pid := n + 1
  send := send n
  receive := receive n
  finish := finish n

def start (spec : CommandSpec) : Acting Computer (Except String (Child (Acting Computer))) := do
  let c ← get
  match c.prepare spec with
  | .error cause => return .error cause
  | .ok act =>
    let p : Process := { act, start := c.room spec }
    set { c with processes := c.processes ++ [p] }
    return .ok (child c.processes.length)

def launch (spec : CommandSpec) : Launch (Acting Computer) := ⟨spec.program, start spec⟩

end Computer

/-! ### Servers -/

abbrev Servers := List (HostCast × Service)

namespace Servers

def act (n : Nat) (call : StateT Service (Acting HostCast) α) : Acting Servers α := fun servers =>
  match servers[n]? with
  | none => (none, servers)
  | some (cast, service) =>
    match (call service).run cast with
    | (some (x, service), cast) => (some x, servers.set n (cast, service))
    | (none, cast) => (none, servers.set n (cast, service))

def child (plugins : PluginCast) (hosted : List String) (n : Nat) : Child (Acting Servers) :=
  let c := Service.child (n + 1) (HostCast.worker plugins.registry hosted 0)
  { pid := c.pid
    send := fun line => act n (c.send line)
    receive := act n c.receive
    finish := act n c.finish }

def start (plugins : PluginCast) (hosted : List String) :
    Acting Servers (Except String (Child (Acting Servers))) := do
  let servers ← get
  set (servers ++ [({ plugins := plugins }, { output := [] })])
  return .ok (child plugins hosted servers.length)

def launch (program : String) (plugins : PluginCast) (hosted : List String) :
    Launch (Acting Servers) := ⟨program, start plugins hosted⟩

end Servers

/-! ### Workers -/

structure ProcessCast (E : Type) where
  machine : E
  connections : Nat → Option (Child (Acting E)) := fun _ => none

namespace ProcessCast

def act (n : Nat) (call : Launch.Connected (Acting E) α) : Acting (ProcessCast E) α := fun cast =>
  match (call (cast.connections n)).run cast.machine with
  | (some (x, connection), machine) =>
    (some x, { machine, connections := fun k => if k = n then connection else cast.connections k })
  | (none, machine) => (none, { cast with machine })

def worker (launch : Launch (Acting E)) (n : Nat) : CheckWorker (Acting (ProcessCast E)) :=
  let w := launch.worker
  { init := act n w.init
    dispose := act n w.dispose
    setActive := fun name => act n (w.setActive name)
    check := fun mutants => act n (w.check mutants)
    createGroups := fun mutants => act n (w.createGroups mutants) }

end ProcessCast

end MutationPipeline.Rehearsal
