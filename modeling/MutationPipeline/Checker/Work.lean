import MutationPipeline.Checker.Message
import MutationPipeline.Pool.Schedule
import MutationPipeline.Worker.Recovery

/-!
Workers that check mutants. Which of its checkers a worker uses is set beforehand. When workers are
replaced after a death, the seat remembers which checker was set last, and the fresh worker is told
before the check is repeated. Asking for groups is not repeated.
-/
namespace MutationPipeline

inductive CheckWork where
  | setActive (name : String)
  | check (mutants : List Mutant)
  | createGroups (mutants : List Mutant)
  deriving DecidableEq

inductive CheckAnswer where
  | done
  | verdicts (verdicts : Verdicts)
  | groups (gs : Option (List (List Mutant)))

namespace CheckAnswer

def verdictsOf : CheckAnswer → Verdicts
  | .verdicts vs => vs
  | _ => .empty

def groupsOf : CheckAnswer → Option (List (List Mutant))
  | .groups gs => gs
  | _ => none

end CheckAnswer

abbrev CheckCrew := Crew CheckWork CheckAnswer

abbrev CheckSite := Site CheckWork CheckAnswer

inductive Activation where
  | remembering
  | calling (c : Calling CheckWork)

namespace Activation

def moves (staffing : Staffing) (name : String) (seat : Nat) :
    Machine CheckCrew Activation (Except WorkerError Unit)
  | .remembering, c =>
    let c := if staffing.recovers then c.remember seat (.setActive name) else c
    step c (.calling (.ready (c.occupant seat) (.work (.setActive name))))
  | .calling call, c =>
    Calling.moves.within .calling (fun r c => (c, .done (r.map fun _ => ()))) call c

def tokens : Activation → List Nat
  | .remembering => []
  | .calling c => c.tokens

def sleeps : Activation → Bool
  | .remembering => false
  | .calling c => c.sleeps

end Activation

def checkMoves (staffing : Staffing) (mutants : List Mutant) (seat : Nat) :
    Machine CheckCrew (Handling CheckWork) (Except WorkerError Verdicts) :=
  (Handling.moves staffing seat (.check mutants)).within id
    (fun r c => (c, .done (r.map CheckAnswer.verdictsOf)))

end MutationPipeline
