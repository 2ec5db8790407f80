import MutationPipeline.Checker.Host
import MutationPipeline.Pipeline.Run

/-!
A run whose checking workers host their checkers in their own process.

Beside the run there is the host that each of the workers is. A worker answers a call as its host
does, with checkers that may do anything; `ω` is what they work on, and it may have changed in any
way since the last call. A worker may also die or break down over a call.
-/
namespace MutationPipeline

variable {ω : Type}

namespace Host

def activeName? {m : Type → Type} (h : Host m) : Option String := do
  let hosted ← h.hosted
  let i ← h.active
  return (← hosted[i]?).name

def perform (registry : Registry (StateM ω)) (names : List String) (call : Call CheckWork)
    (h : Host (StateM ω)) (world : ω) : Except WorkerError CheckAnswer × Host (StateM ω) :=
  ((((worker registry names).perform call).run h).run world).1

end Host

def Outcome.ofResult {V : Type} : Except WorkerError V → Outcome V
  | .ok v => .ok v
  | .error e => .failed e

structure Hosting (ω : Type) where
  run : Run
  /-- The workers by their numbers. A worker that was just made hosts nothing. -/
  hosts : Nat → Host (StateM ω) := fun _ => {}

namespace Hosting

def start (o : Orders) (mutants : List CoveredMutant) : Hosting ω := { run := Run.start o mutants }

def answered (x : Order CheckWork) (outcome : Outcome CheckAnswer) (host : Host (StateM ω))
    (h : Hosting ω) : Hosting ω where
  run := h.run.answered Floor.onCheckers x.token outcome
  hosts worker := if worker = x.worker then host else h.hosts worker

/-- The steps of a run with its workers. `names` are the checkers that every worker hosts. -/
inductive Step (registry : Registry (StateM ω)) (names : List String) :
    Hosting ω → Hosting ω → Prop where
  | own {h next} (move : next ∈ h.run.ownMoves) : Step registry names h { h with run := next }
  | task {h next} (place : Nat) (move : next ∈ h.run.taskMoves place) :
      Step registry names h { h with run := next }
  | runner {h} (x : Order RunPlan) (outcome : Outcome RunAnswer)
      (waits : x ∈ h.run.floor.runners.crew.orders) :
      Step registry names h { h with run := h.run.answered Floor.onRunners x.token outcome }
  | checker {h result host} (x : Order CheckWork) (world : ω)
      (waits : x ∈ h.run.floor.checkers.crew.orders)
      (performed : (h.hosts x.worker).perform registry names x.call world = (result, host)) :
      Step registry names h (h.answered x (.ofResult result) host)
  | death {h} (x : Order CheckWork) (cause : WorkerError)
      (waits : x ∈ h.run.floor.checkers.crew.orders) :
      Step registry names h (h.answered x (.failed cause) (h.hosts x.worker))
  | breakdown {h} (x : Order CheckWork) (waits : x ∈ h.run.floor.checkers.crew.orders) :
      Step registry names h (h.answered x .panicked (h.hosts x.worker))

inductive Steps (registry : Registry (StateM ω)) (names : List String) :
    Hosting ω → Hosting ω → Prop where
  | refl (h) : Steps registry names h h
  | tail {h i j} (steps : Steps registry names h i) (step : Step registry names i j) :
      Steps registry names h j

end Hosting

end MutationPipeline
