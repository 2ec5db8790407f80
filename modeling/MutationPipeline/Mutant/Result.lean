import MutationPipeline.Mutant.Basic

/-!
What checkers and test runs say about a mutant, and the result that comes of it.
-/
namespace MutationPipeline

inductive Standing where
  | passed
  | compileError
  | timeout
  deriving DecidableEq, Repr

def Standing.name : Standing → String
  | .passed => "passed"
  | .compileError => "compile_error"
  | .timeout => "timeout"

structure Verdict where
  standing : Standing
  reason : Option String := none
  deriving DecidableEq, Repr

def Verdict.passed : Verdict := ⟨.passed, none⟩

def Verdict.isPassed (v : Verdict) : Bool := v.standing = .passed

theorem Verdict.isPassedIff {v : Verdict} : v.isPassed = true ↔ v.standing = .passed :=
  decide_eq_true_iff

inductive TestRun where
  | killed (killers : List String) (message : String) (tests : UInt32)
  | survived (tests : UInt32)
  | timeout (reason : Option String)
  | error (message : String)
  deriving DecidableEq, Repr

structure MutantResult where
  id : String
  fileName : String
  location : Location
  mutator : String
  replacement : String
  status : Status
  statusReason : Option String := none
  coveredBy : List String := []
  killedBy : List String := []
  testsCompleted : Option UInt32 := none
  isStatic : Bool := false
  deriving DecidableEq, Repr

namespace CoveredMutant

/-- The result of a mutant that took part in nothing but has a status. -/
def resultWith (m : CoveredMutant) (status : Status) (reason : Option String) : MutantResult where
  id := m.id
  fileName := m.fileName
  location := m.location
  mutator := m.mutator
  replacement := m.replacement
  status := status
  statusReason := reason
  coveredBy := m.coveredBy
  isStatic := m.isStatic

/-- The result of a mutant that no worker was needed for. Only a mutant that was set aside keeps
the reason it came with. -/
def resultAs (m : CoveredMutant) (status : Status) : MutantResult :=
  m.resultWith status (if status = .ignored then m.statusReason else none)

/-- The result of a mutant that a checker refused. It never reached the tests, so it counts as a
compile error also when the checker ran out of time. -/
def resultOfVerdict (m : CoveredMutant) (v : Verdict) : MutantResult :=
  m.resultWith .compileError v.reason

def resultOfRun (m : CoveredMutant) : TestRun → MutantResult
  | .killed killers message tests =>
    { m.resultWith .killed (some message) with killedBy := killers, testsCompleted := some tests }
  | .survived tests => { m.resultWith .survived none with testsCompleted := some tests }
  | .timeout reason => m.resultWith .timeout reason
  | .error message => m.resultWith .runtimeError (some message)

end CoveredMutant

end MutationPipeline
