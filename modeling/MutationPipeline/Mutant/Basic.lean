/-!
Mutants: variants of a program under test, each with one small change.
-/
namespace MutationPipeline

structure Position where
  line : UInt32
  column : UInt32
  deriving DecidableEq, Repr

structure Location where
  start : Position
  stop : Position
  deriving DecidableEq, Repr

def Location.nowhere : Location := ⟨⟨0, 0⟩, ⟨0, 0⟩⟩

/-- What became of a mutant: a test failed, all tests passed, no test reaches it, a checker refused
it, its test run failed, it took too long, or it was set aside beforehand. -/
inductive Status where
  | killed
  | survived
  | noCoverage
  | compileError
  | runtimeError
  | timeout
  | ignored
  deriving DecidableEq, Repr

def Status.name : Status → String
  | .killed => "killed"
  | .survived => "survived"
  | .noCoverage => "no_coverage"
  | .compileError => "compile_error"
  | .runtimeError => "runtime_error"
  | .timeout => "timeout"
  | .ignored => "ignored"

structure Mutant where
  id : String
  fileName : String
  location : Location := .nowhere
  mutator : String := ""
  replacement : String := ""
  status : Option Status := none
  statusReason : Option String := none
  deriving DecidableEq, Repr

structure CoveredMutant extends Mutant where
  coveredBy : List String := []
  isStatic : Bool := false
  netTime : Float := 0
  hits : Option UInt64 := none

def CoveredMutant.isUncovered (m : CoveredMutant) : Bool := !m.isStatic && m.coveredBy.isEmpty

def CoveredMutant.Testable (m : CoveredMutant) : Prop := m.isStatic = true ∨ m.coveredBy ≠ []

theorem CoveredMutant.uncoveredIff {m : CoveredMutant} : m.isUncovered = true ↔ ¬m.Testable := by
  cases reached : m.isStatic <;> simp [isUncovered, Testable, reached]

end MutationPipeline
