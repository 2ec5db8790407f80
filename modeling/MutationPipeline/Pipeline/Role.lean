import MutationPipeline.Pipeline.Floor

/-!
The roles of the tasks in a run.

The first task sets mutants aside that are to be ignored. Then each checker has a stage. The next
task waits until all checkers are done and hands their share of the workers over to the test
runners. The following one sets mutants aside that no test reaches, and the last one runs the tests.
Every mutant leaves through one of them as a result.
-/
namespace MutationPipeline

/-- Handing over: mutants that passed all checkers are forwarded, then the checkers are disposed
and the test runners become more. -/
inductive Handover where
  | forwarding (held : Option CoveredMutant)
  | disposing (d : Disposal CheckWork)
  | growing

abbrev TestSchedule := Schedule RunPlan CoveredMutant Running (Except WorkerError TestRun)

inductive Testing where
  | running (f : TestSchedule)
  | reporting (result : MutantResult) (f : TestSchedule)

inductive Role where
  | ignoring (rest : List CoveredMutant)
  | checking (plan : StagePlan) (stage : Stage)
  | releasing (share : Nat) (h : Handover)
  | covering (held : Option CoveredMutant)
  | testing (planOf : CoveredMutant → RunPlan) (t : Testing)

namespace Role

def releaseNote : Note := .debug "Checker(s) finished."

/-- How runs are scheduled for the mutants that come in. -/
def testPlan (planOf : CoveredMutant → RunPlan) (place : Nat) :
    Schedule.Plan RunPlan RunAnswer Floor CoveredMutant Running (Except WorkerError TestRun) where
  site := Floor.onRunners
  more f := f.receive (Floor.input place)
  start := Running.start
  work m seat := Running.moves (planOf m) seat

def afterSend (next : Role) (moves : List (Floor × Except RunError Unit)) :
    List (Floor × Next Role (Except RunError Unit)) :=
  moves.map fun
    | (f, .ok _) => (f, .go next)
    | (f, .error e) => (f, .done (.error e))

def ignore (place : Nat) (m : CoveredMutant) (rest : List CoveredMutant) (f : Floor) :
    List (Floor × Next Role (Except RunError Unit)) :=
  afterSend (.ignoring rest) (
    if m.status = some .ignored then f.send Floor.onResults "results" (m.resultAs .ignored)
    else f.send (Floor.output place) "ignore filter" m)

def cover (place : Nat) (m : CoveredMutant) (f : Floor) :
    List (Floor × Next Role (Except RunError Unit)) :=
  afterSend (.covering none) (
    if m.isUncovered then f.send Floor.onResults "results" (m.resultAs .noCoverage)
    else f.send (Floor.output place) "coverage filter" m)

def handover (share place : Nat) : Machine Floor Handover (Except RunError Unit)
  | .forwarding none, f =>
    (f.receive (Floor.input place)).map fun
      | (f, some m) => (f, .go (.forwarding (some m)))
      | (f, none) => (f.note releaseNote, .go (.disposing .asking))
  | .forwarding (some m), f =>
    (f.send (Floor.output place) "checkers" m).map fun
      | (f, .ok _) => (f, .go (.forwarding none))
      | (f, .error e) => (f, .done (.error e))
  | .disposing d, f =>
    (Disposal.moves.on Floor.onCheckers).within .disposing
      (fun r f => match r with
        | .ok _ => (f, .go .growing)
        | .error e => (f, .done (.error (.worker e)))) d f
  | .growing, f =>
    finish { f with runners := f.runners.withPool fun p => p.grow share } (.ok ())

def runTests (planOf : CoveredMutant → RunPlan) (place : Nat) :
    Machine Floor Testing (Except RunError Unit)
  | .running g, f =>
    (Schedule.moves (testPlan planOf place)).within .running
      (fun (y, g) f => match y with
        | none => (f, .done (.ok ()))
        | some ⟨_, .error e⟩ => (f, .done (.error (.pool e)))
        | some ⟨_, .ok (.error e)⟩ => (f, .done (.error (.worker e)))
        | some ⟨m, .ok (.ok run)⟩ => (f, .go (.reporting (m.resultOfRun run) g))) g f
  | .reporting r g, f =>
    (f.send Floor.onResults "results" r).map fun
      | (f, .ok _) => (f, .go (.running g))
      | (f, .error e) => (f, .done (.error e))

def moves (place : Nat) : Machine Floor Role (Except RunError Unit)
  | .ignoring [], f => finish f (.ok ())
  | .ignoring (m :: rest), f => ignore place m rest f
  | .checking plan stage, f =>
    ((Stage.moves plan).on (Floor.onStage place)).within (.checking plan)
      (fun r f => (f, .done r)) stage f
  | .releasing share h, f =>
    (handover share place).within (.releasing share) (fun r f => (f, .done r)) h f
  | .covering none, f =>
    (f.receive (Floor.input place)).map fun
      | (f, some m) => (f, .go (.covering (some m)))
      | (f, none) => (f, .done (.ok ()))
  | .covering (some m), f => cover place m f
  | .testing planOf t, f =>
    (runTests planOf place).within (.testing planOf) (fun r f => (f, .done r)) t f

def checkTickets : Role → List Nat
  | .checking _ stage => stage.tickets
  | .releasing _ (.disposing d) => d.tickets
  | _ => []

def runTickets : Role → List Nat
  | .testing _ (.running g) | .testing _ (.reporting _ g) => g.tickets
  | _ => []

/-- What a task leaves behind in the pools when it goes away. -/
def vacate : Role → Floor → Floor
  | .checking _ stage, f =>
    { f with checkers := f.checkers.vacate stage.tickets stage.tokens }
  | .releasing _ (.disposing d), f => { f with checkers := f.checkers.vacate d.tickets d.tokens }
  | .testing _ (.running g), f | .testing _ (.reporting _ g), f =>
    { f with runners := f.runners.vacate g.tickets (g.tokens Running.tokens) }
  | _, f => f

def reports : Role → Bool
  | .releasing .. => false
  | _ => true

def close (place : Nat) (role : Role) (f : Floor) : Floor :=
  let f := (Floor.input place).update Channel.dropReceiver f
  let f := (Floor.output place).update Channel.dropSender f
  if role.reports then Floor.onResults.update Channel.dropSender f else f

def sleeps : Role → Bool
  | .ignoring rest => !rest.isEmpty
  | .checking _ stage => stage.sleeps
  | .releasing _ (.forwarding _) => true
  | .releasing _ (.disposing d) => d.sleeps
  | .releasing _ .growing => false
  | .covering _ => true
  | .testing _ (.running g) => g.sleeps Running.sleeps
  | .testing _ (.reporting ..) => true

end Role

end MutationPipeline
