import MutationPipeline.Checker.Plugin
import MutationPipeline.Text.Word
import MutationPipeline.Text.Lines

/-!
Serving a worker that checks over a stream of lines: one request a line, and one line as the reply
to each. A line that holds no request is answered too; a blank line is skipped. The worker is
disposed when the stream ends, but not when it breaks off.
-/
namespace MutationPipeline

inductive ServiceEnd where
  | ended
  | unreadable
  | unwritable
  deriving DecidableEq, Repr

namespace Server

variable {m : Type → Type} [Monad m]

def replyTo (reply : α → Reply) : Except WorkerError α → Reply
  | .ok x => reply x
  | .error e => .ofError e

def answer (w : CheckWorker m) : Request → m Reply
  | .init => replyTo (fun _ => .done) <$> w.init
  | .setActive name => replyTo (fun _ => .done) <$> w.setActive name
  | .check mutants => replyTo .checked <$> w.check mutants
  | .createGroups mutants => replyTo .groups <$> w.createGroups mutants

def malformed (c : Complaint) : Reply := .failed ("malformed checker request: " ++ c.text)

def reply (w : CheckWorker m) (line : String) : m Reply :=
  match Request.codec.parse line with
  | .ok request => answer w request
  | .error c => pure (malformed c)

def disposalNote (e : WorkerError) : Note :=
  .debug ("checker could not be disposed: " ++ e.message)

def close (w : CheckWorker m) : m (ServiceEnd × List Note) := do
  match ← w.dispose with
  | .ok _ => return (.ended, [])
  | .error e => return (.ended, [disposalNote e])

/-- Answers a line. `write` writes a reply and says whether it could. Returns why serving ends, if
it does. -/
def handle (w : CheckWorker m) (write : Reply → m Bool) (line : Text.Line) :
    m (Option ServiceEnd) :=
  match line.text? with
  | none => pure (some .unreadable)
  | some text =>
    if Text.isBlankText text then pure none
    else do
      if ← write (← reply w text) then return none
      else return some .unwritable

def serve (w : CheckWorker m) (write : Reply → m Bool) :
    List Text.Line → m (ServiceEnd × List Note)
  | [] => close w
  | line :: rest => do
    match ← handle w write line with
    | none => serve w write rest
    | some ending => return (ending, [])

def serveReads (w : CheckWorker m) (write : Reply → m Bool) :
    List (Option String) → m (ServiceEnd × List Note)
  | [] => close w
  | none :: _ => return (.unreadable, [])
  | some text :: rest =>
    if Text.isBlankText text then serveReads w write rest
    else do
      if ← write (← reply w text) then serveReads w write rest
      else return (.unwritable, [])

def serveStream (w : CheckWorker m) (write : Reply → m Bool) (bytes : List UInt8) (broken : Bool) :
    m (ServiceEnd × List Note) :=
  serveReads w write (Text.reads bytes broken)

end Server

end MutationPipeline
