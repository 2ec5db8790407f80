import MutationPipeline.Pipeline.Run

/-!
What is said about mutants in the course of a run, and the result that each of them has to have
in the end. An answer is taken down when a worker's work on a group or on a mutant has ended, not
when the worker spoke, so that what a worker that died has said before does not count.
-/
namespace MutationPipeline

inductive Answer where
  | verdicts (checker : Nat) (group : Group) (vs : Verdicts)
  | outcome (m : CoveredMutant) (run : TestRun)

def Flight.told {φ α ρ : Type} : Flight φ α ρ × Flight φ α ρ → Option (α × ρ)
  | (.working .., .returning item _ r _) => some (item, r)
  | _ => none

def Schedule.told {W α φ ρ : Type} (f g : Schedule W α φ ρ) : List (α × ρ) :=
  (f.flights.zip g.flights).filterMap Flight.told

def Stage.told (checker : Nat) : Stage → Stage → List Answer
  | .checking f, .checking g => (f.told g).filterMap fun
    | (group, .ok vs) => some (.verdicts checker group vs)
    | (_, .error _) => none
  | _, _ => []

def Testing.told : Testing → Testing → List Answer
  | .running f, .running g => (f.told g).filterMap fun
    | (m, .ok run) => some (.outcome m run)
    | (_, .error _) => none
  | _, _ => []

/-- The answers that came in for the task at a place. The first checker is at the place one. -/
def Role.told (place : Nat) : Role → Role → List Answer
  | .checking _ s, .checking _ t => s.told (place - 1) t
  | .testing _ s, .testing _ t => s.told t
  | _, _ => []

def Task.told (place : Nat) : Task → Task → List Answer
  | .working role, .working next => role.told place next
  | _, _ => []

namespace Run

def told (r next : Run) : List Answer :=
  (r.tasks.zip next.tasks).zipIdx.flatMap fun ((t, u), place) => t.told place u

inductive Traced (r : Run) : Run → List Answer → Prop where
  | refl : Traced r r []
  | tail {s t log} (traced : Traced r s log) (step : Step s t) : Traced r t (log ++ s.told t)

end Run

namespace Answer

def stamps (id : String) : Answer → List (Verdict × Nat)
  | .verdicts checker group vs =>
    group.filterMap fun m => if m.id = id then (vs.get? id).map (·, checker) else none
  | .outcome .. => []

def runs (id : String) : Answer → List TestRun
  | .verdicts .. => []
  | .outcome m run => if m.id = id then [run] else []

end Answer

def stamps (log : List Answer) (id : String) : List (Verdict × Nat) :=
  log.flatMap (Answer.stamps id)

def runs (log : List Answer) (id : String) : List TestRun := log.flatMap (Answer.runs id)

def Cleared (log : List Answer) (m : CoveredMutant) (checkers : Nat) : Prop :=
  ∃ vs : List Verdict, vs.length = checkers ∧ (∀ v ∈ vs, v.standing = .passed) ∧
    stamps log m.id = vs.zipIdx

/-- A result is about a mutant, and nothing of the mutant is lost in it. -/
structure Carries (m : CoveredMutant) (x : MutantResult) : Prop where
  id : x.id = m.id
  fileName : x.fileName = m.fileName
  location : x.location = m.location
  mutator : x.mutator = m.mutator
  replacement : x.replacement = m.replacement
  coveredBy : x.coveredBy = m.coveredBy
  isStatic : x.isStatic = m.isStatic

structure MutantResult.Tells (x : MutantResult) (status : Status) (reason : Option String)
    (killers : List String) (tests : Option UInt32) : Prop where
  status : x.status = status
  statusReason : x.statusReason = reason
  killedBy : x.killedBy = killers
  testsCompleted : x.testsCompleted = tests

def TestRun.Shown (x : MutantResult) : TestRun → Prop
  | .killed killers message tests => x.Tells .killed (some message) killers (some tests)
  | .survived tests => x.Tells .survived none [] (some tests)
  | .timeout reason => x.Tells .timeout reason [] none
  | .error message => x.Tells .runtimeError (some message) [] none

/-- What the result of a mutant has to tell, when there are some checkers and after all that was
said. -/
inductive Deserved (checkers : Nat) (log : List Answer) (m : CoveredMutant) (x : MutantResult) : Prop
  | ignored (aside : m.status = some .ignored) (unseen : stamps log m.id = [])
      (idle : runs log m.id = []) (tells : x.Tells .ignored m.statusReason [] none)
  | refused {passed : List Verdict} {v : Verdict} (taken : m.status ≠ some .ignored)
      (some : passed.length < checkers) (before : ∀ w ∈ passed, w.standing = .passed)
      (refusal : v.standing ≠ .passed) (seen : stamps log m.id = (passed ++ [v]).zipIdx)
      (idle : runs log m.id = []) (tells : x.Tells .compileError v.reason [] none)
  | unreached (taken : m.status ≠ some .ignored) (cleared : Cleared log m checkers)
      (untested : ¬m.Testable) (idle : runs log m.id = []) (tells : x.Tells .noCoverage none [] none)
  | tested {run : TestRun} (taken : m.status ≠ some .ignored) (cleared : Cleared log m checkers)
      (testable : m.Testable) (once : runs log m.id = [run]) (shown : run.Shown x)

end MutationPipeline
