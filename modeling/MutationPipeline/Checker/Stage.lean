import MutationPipeline.Channel
import MutationPipeline.Checker.Assembly
import MutationPipeline.Checker.Work
import MutationPipeline.Mutant.Result

/-!
The stage of one checker.

It waits for all mutants, because groups can only be made of all. Then it fills its pool up and
makes its checker the active one of all workers, asks one of them for groups, and checks the groups
beside each other. A mutant that passed goes on, any other one has its result.
-/
namespace MutationPipeline

open Schedule (Plan)

structure StagePlan where
  checker : String
  staffing : Staffing
  byFiles : Option (List Mutant → List (List Mutant) × List Note) := none

structure StageView where
  input : Channel CoveredMutant
  passed : Channel CoveredMutant
  failed : Channel MutantResult
  site : CheckSite

namespace StageView

def onSite : Part StageView CheckSite := ⟨(·.site), fun site v => { v with site }⟩

def note (v : StageView) (n : Note) : StageView := { v with site := v.site.note n }

end StageView

abbrev Group := List CoveredMutant

abbrev GroupSchedule :=
  Schedule CheckWork Group (Handling CheckWork) (Except WorkerError Verdicts)

inductive Stage where
  | draining (batch : List CoveredMutant)
  | filling (batch : List CoveredMutant) (f : Filling CheckWork)
  | activating (batch : List CoveredMutant) (b : Broadcast Activation)
  | borrowing (batch : List CoveredMutant) (a : Acquisition CheckWork)
  | asking (batch : List CoveredMutant) (ticket : Nat) (c : Calling CheckWork)
  | returning (batch : List CoveredMutant) (ticket : Nat)
      (answer : Except WorkerError (Option (List (List Mutant)))) (r : Release)
  | grouping (batch : List CoveredMutant) (own : Option (List (List Mutant)))
  | checking (f : GroupSchedule)
  | routing (group : Group) (verdicts : Verdicts) (f : GroupSchedule)

namespace Stage

def emptyNote (checker : String) : Note := .debug (checker ++ " has nothing to check.")

def groupsNote (checker : String) (n : Nat) : Note :=
  .debug (checker ++ " created " ++ toString n ++ " groups.")

def plain (batch : List CoveredMutant) : List Mutant := batch.map (·.toMutant)

/-- The groups of a batch: those of the checker itself, else those by dependencies, else every
mutant on its own. -/
def groupsOf (plan : StagePlan) (batch : List CoveredMutant) (own : Option (List (List Mutant))) :
    Except RunError (List Group) × List Note :=
  match own, plan.byFiles with
  | some groups, _ => Assembly.assemble plan.checker batch groups
  | none, some byFiles =>
    let (groups, notes) := byFiles (plain batch)
    let (assembled, more) := Assembly.assemble plan.checker batch groups
    (assembled, notes ++ more)
  | none, none => (.ok (batch.map fun m => [m]), [])

def schedulePlan (plan : StagePlan) :
    Plan CheckWork CheckAnswer StageView Group (Handling CheckWork)
      (Except WorkerError Verdicts) where
  site := StageView.onSite
  more v := [(v, none)]
  start := .starting
  work group := checkMoves plan.staffing (plain group)

def onSite (m : Machine CheckSite φ ρ) : Machine StageView φ ρ := m.on StageView.onSite

def route (v : StageView) (m : CoveredMutant) (verdict : Verdict) :
    List (StageView × Except RunError Unit) :=
  if verdict.isPassed then
    (v.passed.send m).map fun (passed, taken) =>
      ({ v with passed }, if taken then .ok () else .error (.channelClosed "checker"))
  else
    (v.failed.send (m.resultOfVerdict verdict)).map fun (failed, taken) =>
      ({ v with failed }, if taken then .ok () else .error (.channelClosed "results"))

def moves (plan : StagePlan) : Machine StageView Stage (Except RunError Unit)
  | .draining batch, v =>
    v.input.receive.map fun
      | (input, some m) => ({ v with input }, .go (.draining (batch ++ [m])))
      | (input, none) =>
        let v := { v with input }
        if batch.isEmpty then (v.note (emptyNote plan.checker), .done (.ok ()))
        else (v, .go (.filling batch .counting))
  | .filling batch f, v =>
    (onSite Filling.moves).within (.filling batch)
      (fun r v => match r with
        | .ok _ => (v, .go (.activating batch .listing))
        | .error e => (v, .done (.error (.pool e)))) f v
  | .activating batch b, v =>
    (onSite (Broadcast.moves .remembering fun seat =>
        (Activation.moves plan.staffing plan.checker seat).on Site.onCrew)).within
      (.activating batch)
      (fun r v => match r with
        | .ok _ => (v, .go (.borrowing batch .asking))
        | .error e => (v, .done (.error (.checker plan.checker e)))) b v
  | .borrowing batch a, v =>
    (onSite Acquisition.moves).within (.borrowing batch)
      (fun r v => match r with
        | .ok (ticket, seat) =>
          let worker := v.site.crew.occupant seat
          (v, .go (.asking batch ticket (.ready worker (.work (.createGroups (plain batch))))))
        | .error e => (v, .done (.error (.pool e)))) a v
  | .asking batch ticket c, v =>
    (onSite callMoves).within (.asking batch ticket)
      (fun r v => (v, .go (.returning batch ticket (r.map CheckAnswer.groupsOf) .puttingBack))) c v
  | .returning batch ticket answer r, v =>
    (onSite (Release.moves ticket)).within (.returning batch ticket answer)
      (fun _ v => match answer with
        | .ok own => (v, .go (.grouping batch own))
        | .error e => (v, .done (.error (.checker plan.checker e)))) r v
  | .grouping batch own, v =>
    let (groups, notes) := groupsOf plan batch own
    let v := notes.foldl StageView.note v
    match groups with
    | .ok gs => step (v.note (groupsNote plan.checker gs.length)) (.checking (.ofList gs))
    | .error e => finish v (.error e)
  | .checking f, v =>
    (Schedule.moves (schedulePlan plan)).within .checking
      (fun (y, f) v => match y with
        | none => (v, .done (.ok ()))
        | some ⟨_, .error e⟩ => (v, .done (.error (.pool e)))
        | some ⟨_, .ok (.error e)⟩ => (v, .done (.error (.checker plan.checker e)))
        | some ⟨group, .ok (.ok verdicts)⟩ => (v, .go (.routing group verdicts f))) f v
  | .routing [] _ f, v => step v (.checking f)
  | .routing (m :: rest) verdicts f, v =>
    match verdicts.get? m.id with
    | none => finish v (.error (.missingVerdict plan.checker m.id))
    | some verdict =>
      (route v m verdict).map fun
        | (v, .ok _) => (v, .go (.routing rest (verdicts.erase m.id) f))
        | (v, .error e) => (v, .done (.error e))

def tickets : Stage → List Nat
  | .borrowing _ a => a.tickets
  | .asking _ ticket _ | .returning _ ticket _ _ => [ticket]
  | .checking f | .routing _ _ f => f.tickets
  | _ => []

def tokens : Stage → List Nat
  | .filling _ f => f.tokens
  | .activating _ b => b.phases.flatMap Activation.tokens
  | .borrowing _ a => a.tokens
  | .asking _ _ c => c.tokens
  | .checking f | .routing _ _ f => f.tokens Handling.tokens
  | _ => []

/-- A stage sleeps while it waits for its input, for workers, for its groups, or for room behind
it. -/
def sleeps : Stage → Bool
  | .draining _ | .grouping .. => true
  | .filling _ f => f.sleeps
  | .activating _ b => b.sleeps Activation.sleeps
  | .borrowing _ a => a.sleeps
  | .asking _ _ c => c.sleeps
  | .returning .. => false
  | .checking f => f.sleeps Handling.sleeps
  | .routing group _ _ => !group.isEmpty

end Stage

end MutationPipeline
