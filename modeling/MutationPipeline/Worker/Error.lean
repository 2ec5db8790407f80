/-!
Why a call to a worker failed. Only the end of a worker's process is a crash, which another worker
may recover from.
-/
namespace MutationPipeline

inductive WorkerError where
  | crashed (pid : Nat) (exitCode : Option Int) (reason : String)
  | outOfMemory (pid : Nat) (exitCode : Option Int)
  | rejected (message : String)
  | init (checker reason : String)
  | unknownChecker (name : String)
  | noActiveChecker
  deriving DecidableEq, Repr

/-- The text of an exit code; a process that was ended by a signal has none. -/
def exitCodeText : Option Int → String
  | some code => toString code
  | none => "unknown"

namespace WorkerError

def message : WorkerError → String
  | .crashed pid code reason =>
    "worker process [" ++ toString pid ++ "] crashed with exit code " ++ exitCodeText code ++
      ": " ++ reason
  | .outOfMemory pid _ => "worker process [" ++ toString pid ++ "] ran out of memory"
  | .rejected message => message
  | .init checker reason =>
    "an error occurred during initialization of the \"" ++ checker ++ "\" checker: " ++ reason
  | .unknownChecker name => "no checker registered under the name \"" ++ name ++ "\""
  | .noActiveChecker => "no active checker set on this worker"

def isCrash : WorkerError → Bool
  | .crashed .. | .outOfMemory .. => true
  | _ => false

def pid? : WorkerError → Option Nat
  | .crashed pid .. | .outOfMemory pid _ => some pid
  | _ => none

end WorkerError

inductive PoolError where
  | disposed
  | worker (cause : WorkerError)
  deriving DecidableEq, Repr

def PoolError.message : PoolError → String
  | .disposed => "the pool has been disposed"
  | .worker cause => cause.message

end MutationPipeline
