import MutationPipeline.Config
import MutationPipeline.Pipeline.Role

/-!
Setting a run up: what it needs, and what is wrong when something is missing.
-/
namespace MutationPipeline

structure Equipment where
  hasRunners : Bool := true
  hasReporter : Bool := true
  hasCheckWorkers : Bool := false
  registered : Option (List String) := none

namespace Equipment

def checkersComplaint? (e : Equipment) (checkers : List String) : Option String :=
  if checkers.isEmpty || e.hasCheckWorkers then none
  else match e.registered with
    | none => some "checkers are configured but no checker registry or workers were provided"
    | some names => (checkers.find? fun c => c ∉ names).map fun unknown =>
        "no checker registered under the name \"" ++ unknown ++ "\""

/-- What is wrong with the equipment; of several things the first. -/
def complaint? (e : Equipment) (c : Config) : Option RunError :=
  (if !e.hasRunners then some "no test runner factory configured"
    else if !e.hasReporter then some "no reporter configured"
    else e.checkersComplaint? c.checkers).map RunError.setup

end Equipment

structure Orders where
  config : Config
  overhead : Duration := ⟨0⟩
  byFiles : Option (List Mutant → List (List Mutant) × List Note) := none
  budget : Budget

namespace Orders

def staffing : Staffing := ⟨"Checker", true⟩

def hasCheckers (o : Orders) : Bool := !o.config.checkers.isEmpty

def planOf (o : Orders) (m : CoveredMutant) : RunPlan := RunPlan.ofMutant o.config o.overhead m

def roles (o : Orders) (mutants : List CoveredMutant) : List Role :=
  [.ignoring mutants] ++
    o.config.checkers.map (fun checker =>
      .checking ⟨checker, staffing, o.byFiles⟩ (.draining [])) ++
    (if o.hasCheckers then [.releasing o.budget.checkers (.forwarding none)] else []) ++
    [.covering none, .testing o.planOf (.running { feed := .open [] })]

def capacity (o : Orders) : Nat := max o.config.channelCapacity.toNat 1

def floor (o : Orders) (roles : List Role) : Floor where
  results := { capacity := o.capacity, senders := (roles.filter Role.reports).length }
  links := Floor.noLink :: List.replicate (roles.length - 1) { capacity := o.capacity }
  checkers := { pool := .ofCapacity o.budget.checkers }
  runners := { pool := .ofCapacity o.budget.testRunners }

end Orders

end MutationPipeline
