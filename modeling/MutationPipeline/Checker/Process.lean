import MutationPipeline.Checker.Death
import MutationPipeline.Checker.Inspection
import MutationPipeline.Checker.Plugin

/-!
A worker whose checkers live in a process of their own.

The process is started when it is first needed. Each call sends one line and waits for one line. A
process that takes no line or gives none has died: the call ends with its death, and the next call
starts a fresh process. A reply that cannot be understood is the caller's failure and leaves the
process as it is.
-/
namespace MutationPipeline

structure Child (m : Type → Type) where
  pid : Nat
  send : String → m Bool
  /-- Reads the next line of its output; there is none once the output has ended. -/
  receive : m (Option Text.Line)
  finish : m Passing

structure Launch (m : Type → Type) where
  program : String
  start : m (Except String (Child m))

namespace Launch

variable {m : Type → Type} [Monad m]

abbrev Connected (m : Type → Type) := StateT (Option (Child m)) m

def startError (program cause : String) : WorkerError :=
  .rejected ("cannot start checker process " ++ program ++ ": " ++ cause)

def malformed (c : Complaint) : WorkerError :=
  .rejected ("malformed response from checker process: " ++ c.text)

def unexpected (r : Reply) : WorkerError :=
  .rejected ("unexpected response from checker process: " ++ r.inspect)

def understand (line : String) : Except WorkerError Reply :=
  match Reply.codec.parse line with
  | .ok reply => reply.result
  | .error c => .error (malformed c)

/-- Sends a line and reads one; none when the process is not there any more. -/
def exchange (child : Child m) (line : String) : m (Option String) := do
  if ← child.send line then return (← child.receive).bind Text.Line.text?
  else return none

def connect (launch : Launch m) : Connected m (Except WorkerError (Child m)) := fun connection =>
  match connection with
  | some child => pure (.ok child, connection)
  | none => do
    match ← launch.start with
    | .ok child => pure (.ok child, some child)
    | .error cause => pure (.error (startError launch.program cause), none)

def request (launch : Launch m) (r : Request) : Connected m (Except WorkerError Reply) := do
  match ← launch.connect with
  | .error e => return .error e
  | .ok child =>
    match ← exchange (m := m) child (Request.codec.print r) with
    | some line => return understand line
    | none =>
      set (none : Option (Child m))
      return .error ((← child.finish).error child.pid)

def ask (launch : Launch m) (r : Request) (answer? : Reply → Option α) :
    Connected m (Except WorkerError α) := do
  match ← launch.request r with
  | .error e => return .error e
  | .ok reply =>
    match answer? reply with
    | some x => return .ok x
    | none => return .error (unexpected reply)

def dispose : Connected m (Except WorkerError Unit) := do
  let connection : Option (Child m) ← get
  set (none : Option (Child m))
  match connection with
  | some child => return (← monadLift child.finish).farewell child.pid
  | none => return .ok ()

def done? : Reply → Option Unit
  | .done => some ()
  | _ => none

def verdicts? : Reply → Option Verdicts
  | .checked verdicts => some verdicts
  | _ => none

def groups? : Reply → Option (Option (List (List Mutant)))
  | .groups gs => some gs
  | _ => none

def worker (launch : Launch m) : CheckWorker (Connected m) where
  init := launch.ask .init done?
  dispose := dispose
  setActive name := launch.ask (.setActive name) done?
  check mutants := launch.ask (.check mutants) verdicts?
  createGroups mutants := launch.ask (.createGroups mutants) groups?

end Launch

end MutationPipeline
