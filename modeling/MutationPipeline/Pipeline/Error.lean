import MutationPipeline.Worker.Error

/-!
Why a run as a whole failed.
-/
namespace MutationPipeline

inductive RunError where
  | pool (cause : PoolError)
  | worker (cause : WorkerError)
  | checker (checker : String) (cause : WorkerError)
  | missingVerdict (checker mutantId : String)
  | unknownMember (checker mutantId : String)
  | incomplete (expected actual : Nat)
  | channelClosed (stage : String)
  | stage (message : String)
  | setup (message : String)
  deriving DecidableEq, Repr

namespace RunError

def message : RunError → String
  | .pool cause => "worker pool failure: " ++ cause.message
  | .worker cause => "worker failure: " ++ cause.message
  | .checker name cause => "checker \"" ++ name ++ "\" failed: " ++ cause.message
  | .missingVerdict name id => "checker \"" ++ name ++ "\" returned no result for mutant " ++ id
  | .unknownMember name id => "checker \"" ++ name ++ "\" grouped unknown mutant " ++ id
  | .incomplete expected actual =>
    "expected " ++ toString expected ++ " mutant results, collected " ++ toString actual
  | .channelClosed name => "pipeline stage \"" ++ name ++ "\" closed early"
  | .stage message => "pipeline stage failed: " ++ message
  | .setup message => "invalid executor setup: " ++ message

def causes : RunError → List String
  | .pool cause => [cause.message]
  | .worker cause => [cause.message]
  | .checker _ cause => [cause.message]
  | _ => []

end RunError

end MutationPipeline
