import MutationPipeline.Checker.Process
import MutationPipeline.Checker.Server

/-!
A process that serves a worker, as the user of the process sees it.

What the user writes is cut into lines and answered line by line, and the replies wait as octets
until they are read. The process ends when its input is closed.
-/
namespace MutationPipeline

structure Service where
  output : List UInt8 := []
  ending : Option ServiceEnd := none

namespace Service

variable {m : Type → Type} [Monad m]

def lineBytes (text : String) : List UInt8 := text.toUTF8.toList ++ [Text.lineFeed]

def writeReply (reply : Reply) : StateT Service m Bool := do
  modify fun s => { s with output := s.output ++ lineBytes (Reply.codec.print reply) }
  return true

def takeIn (w : CheckWorker m) : List Text.Line → StateT Service m Unit
  | [] => return
  | line :: rest => do
    match ← Server.handle w.lift writeReply line with
    | none => takeIn w rest
    | some ending => modify fun s => { s with ending := some ending }

def send (w : CheckWorker m) (line : String) : StateT Service m Bool := do
  if (← get).ending.isSome then return false
  takeIn w (Text.lines (lineBytes line))
  return true

def receive : StateT Service m (Option Text.Line) := do
  match Text.nextLine (← get).output with
  | some (line, output) =>
    modify fun s => { s with output }
    return some line
  | none => return none

def finish (w : CheckWorker m) : StateT Service m Passing := do
  match (← get).ending with
  | some ending =>
    return { waiting := .ended (.exited (if ending = .ended then 0 else 1)) }
  | none =>
    discard (Server.close w.lift)
    modify fun s => { s with ending := some .ended }
    return { waiting := .ended (.exited 0) }

def child (pid : Nat) (w : CheckWorker m) : Child (StateT Service m) where
  pid := pid
  send := send w
  receive := receive
  finish := finish w

end Service

end MutationPipeline
