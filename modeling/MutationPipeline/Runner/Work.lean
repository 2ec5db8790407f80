import MutationPipeline.Mutant.Result
import MutationPipeline.Pool.Basic
import MutationPipeline.RunPlan
import MutationPipeline.Worker.Recovery

/-!
Workers that run the tests against a mutant.

A run that does not end in time has the result that it took too long, and the worker that hangs is
replaced. A run that ends with the death of its worker is repeated once; a second death is the
result of the run, not a failure.
-/
namespace MutationPipeline

/-- What a test runner is asked to do is a plan. It answers with how the tests ended, or with none
when the time that the plan allows was over before. -/
abbrev RunAnswer := Option TestRun

abbrev RunCrew := Crew RunPlan RunAnswer

abbrev RunSite := Site RunPlan RunAnswer

inductive Running where
  | handling (h : Handling RunPlan)
  | replacing (r : Renewal RunPlan)

namespace Running

def label : String := "Test runner"

def start : Running := .handling .starting

def timeoutNote (plan : RunPlan) : Note :=
  .debug ("Mutant " ++ plan.mutant.id ++ " timed out after " ++
    (Duration.ofMillis plan.timeoutMs.toNat).text ++ "; replacing the test runner.")

def exceeded (plan : RunPlan) : TestRun :=
  .timeout (some ("test run exceeded " ++ toString plan.timeoutMs.toNat ++ " ms"))

def moves (plan : RunPlan) (seat : Nat) :
    Machine RunCrew Running (Except WorkerError TestRun)
  | .handling h, c =>
    (Handling.moves ⟨label, true⟩ seat plan).within .handling
      (fun r c => match r with
        | .ok (some run) => (c, .done (.ok run))
        | .ok none => (c.note (timeoutNote plan), .go (.replacing .replacing))
        | .error e =>
          (c, .done (if e.isCrash then .ok (.error e.message) else .error e))) h c
  | .replacing r, c =>
    (Renewal.moves label seat).within .replacing
      (fun r c => (c, .done (r.map fun _ => exceeded plan))) r c

def tokens : Running → List Nat
  | .handling h => h.tokens
  | .replacing r => r.tokens

def sleeps : Running → Bool
  | .handling h => h.sleeps
  | .replacing r => r.sleeps

end Running

end MutationPipeline
