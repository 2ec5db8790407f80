import MutationPipeline.Pipeline.Record

/-!
The course of one stage, with an account of what went into it and what came out.

Around a stage everything may change at any moment: mutants are offered to it until all who could
do so are gone, others take away what it passed on or send to the same places, a receiver goes
away, and the pool and its workers do as they like. So the groups that the workers make and the
verdicts that they give are any at all.
-/
namespace MutationPipeline

/-- What a checker says about a mutant in its answer on the group of the mutant, if anything. -/
abbrev Judgement := CoveredMutant × Option Verdict

namespace Judgement

def ofGroup (group : Group) (vs : Verdicts) : List Judgement :=
  group.map fun m => (m, vs.get? m.id)

def passed? : Judgement → Option CoveredMutant
  | (m, some v) => if v.standing = .passed then some m else none
  | (_, none) => none

def refused? : Judgement → Option (CoveredMutant × Verdict)
  | (m, some v) => if v.standing = .passed then none else some (m, v)
  | (_, none) => none

/-- What comes of a mutant that was refused: it is a compile error whatever the verdict was, for
the reason that the verdict gives. -/
structure Refusal (refused : CoveredMutant × Verdict) (x : MutantResult) : Prop where
  carries : Carries refused.1 x
  tells : x.Tells .compileError refused.2.reason [] none

end Judgement

/-- What a stage was offered, what its groups were answered with, and what it sent to each side. -/
structure Account where
  offered : List CoveredMutant := []
  answers : List (Group × Verdicts) := []
  passed : List CoveredMutant := []
  failed : List MutantResult := []

namespace Account

def judgements (a : Account) : List Judgement :=
  a.answers.flatMap fun x => Judgement.ofGroup x.1 x.2

end Account

namespace Stage

def answer? : Group × Except WorkerError Verdicts → Option (Group × Verdicts)
  | (group, .ok vs) => some (group, vs)
  | (_, .error _) => none

def answered : Stage → Next Stage (Except RunError Unit) → List (Group × Verdicts)
  | .checking f, .go (.checking g) => (f.told g).filterMap answer?
  | _, _ => []

end Stage

/-- The account after a move. What was sent is what stands behind the items that were there. -/
def Account.after (a : Account) (stage : Stage) (next : Next Stage (Except RunError Unit))
    (v v' : StageView) : Account where
  offered := a.offered
  answers := a.answers ++ stage.answered next
  passed := a.passed ++ v'.passed.items.drop v.passed.items.length
  failed := a.failed ++ v'.failed.items.drop v.failed.items.length

namespace StageView

/-- What others can do around a stage, and the mutants that they offer it. -/
inductive Stirred (v : StageView) : StageView → List CoveredMutant → Prop where
  | offered {m input} (some : 0 < v.input.senders) (sent : (input, true) ∈ v.input.send m) :
      Stirred v { v with input } [m]
  | gone : Stirred v { v with input := v.input.dropSender } []
  | passed (passed : Channel CoveredMutant) : Stirred v { v with passed } []
  | failed (failed : Channel MutantResult) : Stirred v { v with failed } []
  | site (site : CheckSite) : Stirred v { v with site } []

end StageView

/-- How far a stage can have come, from its start to any of its ends. -/
inductive Stage.Course (plan : StagePlan) :
    Next Stage (Except RunError Unit) → StageView → Account → Prop where
  | start (v) : Course plan (.go (.draining [])) v { offered := v.input.items }
  | move {stage v a next v'} (course : Course plan (.go stage) v a)
      (move : (v', next) ∈ stage.moves plan v) : Course plan next v' (a.after stage next v v')
  | stir {stage v a v' more} (course : Course plan (.go stage) v a)
      (stirred : v.Stirred v' more) :
      Course plan (.go stage) v' { a with offered := a.offered ++ more }

end MutationPipeline
