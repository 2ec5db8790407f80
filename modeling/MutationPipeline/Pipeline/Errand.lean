import MutationPipeline.Pipeline.Record

/-!
What workers are asked for in the course of a run. An errand is taken down when the call with a
group or with a mutant begins, with the checker for whose stage it is; and again when the call is
repeated because the first worker died.
-/
namespace MutationPipeline

/-- A call for the check of a group, or for a run of the tests against a mutant. Checkers count from
zero. -/
inductive Errand where
  | check (checker : Nat) (group : Group) (again : Bool)
  | test (m : CoveredMutant) (again : Bool)

def Calling.isReady {W : Type} : Calling W → Bool
  | .ready .. => true
  | .waiting _ => false

def Handling.attempt? {W : Type} : Handling W → Option (Calling W × Bool)
  | .direct c | .recovering _ (.first c) => some (c, false)
  | .recovering _ (.second c) => some (c, true)
  | _ => none

def Handling.begun? {W : Type} (h next : Handling W) : Option Bool :=
  match h.attempt?, next.attempt? with
  | some (.ready .., again), some (.waiting _, _) => some again
  | _, _ => none

def Running.begun? : Running → Running → Option Bool
  | .handling h, .handling next => h.begun? next
  | _, _ => none

section Asked
variable {W α φ ρ : Type} (begun? : φ → φ → Option Bool)

def Flight.asked : Flight φ α ρ × Flight φ α ρ → Option (α × Bool)
  | (.working item _ _ p, .working _ _ _ q) => (begun? p q).map (item, ·)
  | _ => none

def Schedule.asked (f g : Schedule W α φ ρ) : List (α × Bool) :=
  (f.flights.zip g.flights).filterMap (Flight.asked begun?)

end Asked

def Stage.asked (checker : Nat) : Stage → Stage → List Errand
  | .checking f, .checking g =>
    (f.asked Handling.begun? g).map fun (group, again) => .check checker group again
  | _, _ => []

def Testing.asked : Testing → Testing → List Errand
  | .running f, .running g => (f.asked Running.begun? g).map fun (m, again) => .test m again
  | _, _ => []

def Role.asked (place : Nat) : Role → Role → List Errand
  | .checking _ s, .checking _ t => s.asked (place - 1) t
  | .testing _ s, .testing _ t => s.asked t
  | _, _ => []

def Task.asked (place : Nat) : Task → Task → List Errand
  | .working role, .working next => role.asked place next
  | _, _ => []

namespace Run

def asked (r next : Run) : List Errand :=
  (r.tasks.zip next.tasks).zipIdx.flatMap fun ((t, u), place) => t.asked place u

/-- The answers that came in and the errands that were made on the way from one state to another. -/
inductive Recorded (r : Run) : Run → List Answer → List Errand → Prop where
  | refl : Recorded r r [] []
  | tail {s t log errands} (recorded : Recorded r s log errands) (step : Step s t) :
      Recorded r t (log ++ s.told t) (errands ++ s.asked t)

end Run

namespace Errand

def checkOf? (checker : Nat) (again : Bool) : Errand → Option Group
  | .check k group b => if k = checker ∧ b = again then some group else none
  | .test .. => none

def testOf? (again : Bool) : Errand → Option CoveredMutant
  | .check .. => none
  | .test m b => if b = again then some m else none

def checked? : Errand → Option (List Mutant)
  | .check _ group _ => some (Stage.plain group)
  | .test .. => none

def planned? (o : Orders) : Errand → Option RunPlan
  | .check .. => none
  | .test m _ => some (o.planOf m)

end Errand

def checksOf (errands : List Errand) (checker : Nat) (again : Bool) : List Group :=
  errands.filterMap (Errand.checkOf? checker again)

def testsOf (errands : List Errand) (again : Bool) : List CoveredMutant :=
  errands.filterMap (Errand.testOf? again)

/-- The mutants of the input that are not to be ignored and that the first checkers have passed. -/
def Due (mutants : List CoveredMutant) (log : List Answer) (checkers : Nat) (m : CoveredMutant) :
    Prop :=
  m ∈ mutants ∧ m.status ≠ some .ignored ∧
    ∀ i < checkers, ∃ v, (v, i) ∈ stamps log m.id ∧ v.standing = .passed

section History
variable {W V β : Type} (of : W → Option β)

def Event.asked : Event W → Option β
  | .called _ (.work w) => of w
  | _ => none

def Crew.asked (c : Crew W V) : List β := c.history.filterMap (Event.asked of)

end History

def CheckWork.checked? : CheckWork → Option (List Mutant)
  | .check mutants => some mutants
  | _ => none

end MutationPipeline
