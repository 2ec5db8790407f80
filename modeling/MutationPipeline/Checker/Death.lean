import MutationPipeline.Text.Word
import MutationPipeline.Text.Lines
import MutationPipeline.Worker.Error

/-!
How a process ended, and what its user is told about it.

A process that complained about memory at the end of its error output, or that was found killed,
counts as out of memory; any other end is a crash. The reason of a crash is the end of the error
output, or else the way in which the process ended. The user waits neither for the end of the process
nor for that of its error output any longer than a while: a process that has not ended by then is
killed, and nothing is known of how it ended; an error output that has not ended by then is not looked
at.
-/
namespace MutationPipeline

inductive ExitStatus where
  | exited (code : UInt8)
  | signalled (signal : Nat)
  deriving DecidableEq, Repr

namespace ExitStatus

/-- The signal that cannot be handled. It also ends processes when memory runs out. -/
def killSignal : Nat := 9

def signalNames : List String :=
  ["HUP", "INT", "QUIT", "ILL", "TRAP", "ABRT", "BUS", "FPE", "KILL", "USR1", "SEGV", "USR2",
    "PIPE", "ALRM", "TERM", "STKFLT", "CHLD", "CONT", "STOP", "TSTP", "TTIN", "TTOU", "URG", "XCPU",
    "XFSZ", "VTALRM", "PROF", "WINCH", "IO", "PWR", "SYS"]

def signalName? : Nat → Option String
  | 0 => none
  | n + 1 => signalNames[n]?

def text : ExitStatus → String
  | .exited code => "exit status: " ++ toString code
  | .signalled n =>
    "signal: " ++ toString n ++ match signalName? n with
      | some name => " (SIG" ++ name ++ ")"
      | none => ""

def code? : ExitStatus → Option Int
  | .exited code => some code.toNat
  | .signalled _ => none

end ExitStatus

inductive Waiting where
  | ended (status : ExitStatus)
  | failed (cause : String)
  | overdue
  deriving DecidableEq, Repr

structure Passing where
  waiting : Waiting
  spared : Option String := none
  complaints : List Text.Line := []
  heardOut : Bool := true

namespace Passing

def status (p : Passing) : Option ExitStatus :=
  match p.waiting with
  | .ended status => some status
  | .failed _ | .overdue => none

def tailLength : Nat := 20

def readable : List Text.Line → List String
  | [] => []
  | line :: rest =>
    match line.text? with
    | some s => s :: readable rest
    | none => []

def lastWords (p : Passing) : String :=
  let lines := if p.heardOut then readable p.complaints else []
  "\n".intercalate (lines.drop (lines.length - tailLength))

def lowered (s : String) : List Char := s.toList.map Char.toLower

def memoryWords : List Char := "out of memory".toList

def contains (words : List Char) : List Char → Bool
  | [] => words.isEmpty
  | c :: rest => words.isPrefixOf (c :: rest) || contains words rest

def isOutOfMemory (p : Passing) : Bool :=
  contains memoryWords (lowered p.lastWords) ||
    p.status = some (.signalled ExitStatus.killSignal)

def reason (p : Passing) : String :=
  match Text.trimBlanks p.lastWords.toList, p.status with
  | [], some status => "process exited unexpectedly (" ++ status.text ++ ")"
  | [], none => "process stopped answering"
  | words, _ => String.ofList words

def error (pid : Nat) (p : Passing) : WorkerError :=
  let code := p.status.bind ExitStatus.code?
  if p.isOutOfMemory then .outOfMemory pid code else .crashed pid code p.reason

def farewell (pid : Nat) (p : Passing) : Except WorkerError Unit :=
  let complaint (what cause : String) : WorkerError :=
    .rejected ("checker process [" ++ toString pid ++ "] could not be " ++ what ++ ": " ++ cause)
  match p.waiting, p.spared with
  | .ended _, _ => .ok ()
  | .failed cause, _ => .error (complaint "awaited" cause)
  | .overdue, none => .ok ()
  | .overdue, some cause => .error (complaint "killed" cause)

end Passing

end MutationPipeline
