import MutationPipeline.Config
import MutationPipeline.Duration
import MutationPipeline.Mutant.Basic

/-!
What a test runner is told about the run of one mutant.
-/
namespace MutationPipeline

structure RunPlan where
  mutant : CoveredMutant
  timeoutMs : UInt64
  testFilter : Option (List String)
  hitLimit : Option UInt64
  sandboxFile : String
  disableBail : Bool

namespace RunPlan

def boundedProduct (a b : UInt64) : UInt64 :=
  UInt64.ofNat (min (a.toNat * b.toNat) (Nat.pow 2 64 - 1))

/-- How long the run of a mutant may take: its own time by a factor, an allowance, and what every
run costs. The nearest whole number of milliseconds is taken, a half goes up; what is no positive
time counts as none. -/
def allowedMs (c : Config) (overhead : Duration) (netTime : Float) : UInt64 :=
  (c.timeoutFactor * netTime + c.timeoutMs.toFloat + overhead.seconds * 1000).round.toUInt64

/-- The plan for a mutant. A mutant that is reached while the program is loaded concerns all
tests. -/
def ofMutant (c : Config) (overhead : Duration) (m : CoveredMutant) : RunPlan where
  mutant := m
  timeoutMs := allowedMs c overhead m.netTime
  testFilter := if m.isStatic then none else some m.coveredBy
  hitLimit := m.hits.map (boundedProduct · c.hitLimitFactor)
  sandboxFile := c.sandboxFile m.fileName
  disableBail := c.disableBail

end RunPlan

end MutationPipeline
