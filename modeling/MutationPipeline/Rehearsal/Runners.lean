import MutationPipeline.Rehearsal.Clock
import MutationPipeline.Runner.Work

/-!
Test runners of a rehearsal. What they do is scripted; a run that does not end within the time that
its plan allows has no answer.
-/
namespace MutationPipeline.Rehearsal

def Reaction.within (r : Reaction TestRun) (ms : Nat) : Reaction RunAnswer :=
  let late : Reaction RunAnswer := ⟨some ms, .ok none⟩
  match r.delay with
  | none => late
  | some n =>
    if n ≤ ms then
      ⟨some n, match r.outcome with
        | .ok run => .ok (some run)
        | .failed e => .failed e
        | .panicked => .panicked⟩
    else late

/-- Plays test runners with scripts of their own. A runner whose script is used up lets all
mutants survive, and its number stands for the number of tests. -/
def Script.playRuns : Play (Cast (Script TestRun)) RunPlan RunAnswer := fun _ worker call =>
  match call with
  | .init => return { outcome := outcomeOf none (← Cast.take worker Script.takeInit) }
  | .dispose => return { outcome := outcomeOf none (← Cast.take worker Script.takeDispose) }
  | .work plan => do
    let reaction ← Cast.take worker (Script.takeCall (.survived (UInt32.ofNat worker)))
    return reaction.within plan.timeoutMs.toNat

structure RunCast where
  init : List (Option WorkerError) := []
  dispose : List (Option WorkerError) := []
  runs : List (String × List (Reaction TestRun)) := []
  made : List RunPlan := []

namespace RunCast

def otherwise (plan : RunPlan) : TestRun :=
  .survived (UInt32.ofNat plan.mutant.coveredBy.length)

def takeRun (plan : RunPlan) : StateM RunCast (Reaction TestRun) := fun cast =>
  let id := plan.mutant.id
  let (reaction, rest) := takeNext ((cast.runs.lookup id).getD [])
  (reaction.getD { outcome := .ok (otherwise plan) },
    { cast with
      runs := (id, rest) :: cast.runs.filter fun r => r.1 ≠ id
      made := cast.made ++ [plan] })

def play : Play RunCast RunPlan RunAnswer := fun _ _ call =>
  match call with
  | .init => fun cast =>
    let (failure, init) := takeNext cast.init
    ({ outcome := outcomeOf none failure.join }, { cast with init })
  | .dispose => fun cast =>
    let (failure, dispose) := takeNext cast.dispose
    ({ outcome := outcomeOf none failure.join }, { cast with dispose })
  | .work plan => return (← takeRun plan).within plan.timeoutMs.toNat

end RunCast

end MutationPipeline.Rehearsal
