import MutationPipeline.Pipeline.Setup

/-!
A run of the whole pipeline.

Its tasks go on beside each other, and the run itself collects results and joins tasks that have
left. When a task fails, the cause is looked for among all that have left by then, and the others
are cut off. In the end both pools are disposed, whether the run succeeded or not, and the results
are reported.
-/
namespace MutationPipeline

/-- How far a task is: it works, it has come to its end and lets go of workers, it closes its ends
of the channels, they are closed but nobody can see yet that it is over, it has left and can be
joined, or it was joined. -/
inductive Task where
  | working (role : Role)
  | leaving (role : Role) (outcome : Except RunError Unit)
  | closing (role : Role) (outcome : Except RunError Unit)
  | closed (outcome : Except RunError Unit)
  | left (outcome : Except RunError Unit)
  | joined

inductive Conduct where
  | collecting
  | searching (cause : RunError)
  | aborting (cause : RunError)
  | disposingCheckers (d : Disposal CheckWork) (outcome : Except RunError (List MutantResult))
  | disposingRunners (d : Disposal RunPlan) (outcome : Except RunError (List MutantResult))
  | reporting (outcome : Except RunError (List MutantResult))
  | finished (outcome : Except RunError (List MutantResult))

structure Run where
  orders : Orders
  mutants : List CoveredMutant
  floor : Floor
  tasks : List Task
  conduct : Conduct := .collecting
  collected : List MutantResult := []
  reports : List (List MutantResult) := []

namespace Task

def isJoined : Task → Bool
  | .joined => true
  | _ => false

def hasLeft : Task → Bool
  | .left _ => true
  | _ => false

def breakdown : RunError := .stage "a task panicked"

def moves (place : Nat) (t : Task) (f : Floor) : List (Floor × Task) :=
  match t with
  | .working role =>
    (role.moves place f).map fun
      | (f, .go role) => (f, .working role)
      | (f, .done outcome) => (f, .leaving role outcome)
      | (f, .panicked) => (f, .leaving role (.error breakdown))
  | .leaving role outcome => [(role.vacate f, .closing role outcome)]
  | .closing role outcome => [(role.close place f, .closed outcome)]
  | .closed outcome => [(f, .left outcome)]
  | .left _ | .joined => []

def cut (t : Task) (f : Floor) : List (Floor × Task) :=
  match t with
  | .working role => if role.sleeps then [(f, .leaving role (.ok ()))] else []
  | _ => []

end Task

namespace Run

def start (o : Orders) (mutants : List CoveredMutant) : Run where
  orders := o
  mutants := mutants
  floor := o.floor (o.roles mutants)
  tasks := (o.roles mutants).map .working

/-- The place of the last mutant with an id; unknown ids come after all others. -/
def placeOf (mutants : List CoveredMutant) (id : String) : Nat :=
  match mutants.reverse.findIdx? fun m => m.id = id with
  | some i => mutants.length - 1 - i
  | none => mutants.length

/-- Results in the order of their mutants; results with one id stay as they came. -/
def inOrder (mutants : List CoveredMutant) (results : List MutantResult) : List MutantResult :=
  results.mergeSort fun a b => placeOf mutants a.id ≤ placeOf mutants b.id

def verdict (r : Run) : Except RunError (List MutantResult) :=
  if r.collected.length = r.mutants.length then .ok (inOrder r.mutants r.collected)
  else .error (.incomplete r.mutants.length r.collected.length)

def conclude (outcome : Except RunError (List MutantResult)) (r : Run) : Run :=
  { r with
    floor := Floor.onResults.update Channel.dropReceiver r.floor
    conduct :=
      if r.orders.hasCheckers then .disposingCheckers .asking outcome
      else .disposingRunners .asking outcome }

/-- A failure whose cause is that a channel was closed is only a symptom of another one. -/
def isSymptom : RunError → Bool
  | .channelClosed _ => true
  | _ => false

def preferred (cause other : RunError) : RunError :=
  if isSymptom cause && !isSymptom other then other else cause

def joins (r : Run) (next : Except RunError Unit → Conduct) : List Run :=
  r.tasks.zipIdx.filterMap fun (t, place) =>
    match t with
    | .left outcome =>
      some { r with tasks := r.tasks.set place .joined, conduct := next outcome }
    | _ => none

def checkerNote (e : WorkerError) : Note :=
  .warn ("Failed to dispose checker workers: " ++ e.message)

def runnerNote (e : WorkerError) : Note :=
  .warn ("Failed to dispose test runners: " ++ e.message)

def collect (r : Run) : List Run :=
  (r.floor.receive Floor.onResults).filterMap fun
    | (floor, some x) => some { r with floor, collected := r.collected ++ [x] }
    | (_, none) =>
      if r.tasks.all Task.isJoined then some (r.conclude r.verdict) else none

def dispose (site : Part Floor (Site W V)) (note : WorkerError → Note) (goOn : Disposal W → Conduct)
    (after : Conduct) (d : Disposal W) (r : Run) : List Run :=
  (((Disposal.moves.on site) d r.floor : List (Floor × Next _ _))).filterMap fun
    | (floor, .go d) => some { r with floor, conduct := goOn d }
    | (floor, .done (.ok _)) => some { r with floor, conduct := after }
    | (floor, .done (.error e)) => some { r with floor := floor.note (note e), conduct := after }
    | (_, .panicked) => none

def report (outcome : Except RunError (List MutantResult)) (r : Run) : Run :=
  { r with
    conduct := .finished outcome
    reports := match outcome with
      | .ok results => r.reports ++ [results]
      | .error _ => r.reports }

def ownMoves (r : Run) : List Run :=
  match r.conduct with
  | .collecting =>
    r.collect ++ r.joins fun
      | .ok _ => .collecting
      | .error e => .searching e
  | .searching cause =>
    if r.tasks.any Task.hasLeft then
      r.joins fun
        | .ok _ => .searching cause
        | .error e => .searching (preferred cause e)
    else [{ r with conduct := .aborting cause }]
  | .aborting cause =>
    if r.tasks.all Task.isJoined then [r.conclude (.error cause)]
    else
      (r.tasks.zipIdx.flatMap fun (t, place) =>
        (t.cut r.floor).map fun (floor, t) => { r with floor, tasks := r.tasks.set place t }) ++
        r.joins fun _ => .aborting cause
  | .disposingCheckers d outcome =>
    dispose Floor.onCheckers checkerNote (.disposingCheckers · outcome)
      (.disposingRunners .asking outcome) d r
  | .disposingRunners d outcome =>
    dispose Floor.onRunners runnerNote (.disposingRunners · outcome) (.reporting outcome) d r
  | .reporting outcome => [r.report outcome]
  | .finished _ => []

def taskMoves (r : Run) (place : Nat) : List Run :=
  match r.tasks[place]? with
  | none => []
  | some t =>
    (t.moves place r.floor).map fun (floor, t) =>
      { r with floor, tasks := r.tasks.set place t }

def answered (site : Part Floor (Site W V)) (token : Nat) (outcome : Outcome V) (r : Run) : Run :=
  { r with
    floor := site.update (fun s => { s with crew := s.crew.answer token outcome }) r.floor }

/-- The steps of a run. Which task goes on, and when a worker answers and what, is left open. -/
inductive Step : Run → Run → Prop where
  | own {r next : Run} (move : next ∈ r.ownMoves) : Step r next
  | task {r next : Run} (place : Nat) (move : next ∈ r.taskMoves place) : Step r next
  | checker {r : Run} (o : Order CheckWork) (outcome : Outcome CheckAnswer)
      (waits : o ∈ r.floor.checkers.crew.orders) :
      Step r (r.answered Floor.onCheckers o.token outcome)
  | runner {r : Run} (o : Order RunPlan) (outcome : Outcome RunAnswer)
      (waits : o ∈ r.floor.runners.crew.orders) :
      Step r (r.answered Floor.onRunners o.token outcome)

inductive Steps : Run → Run → Prop where
  | refl (r : Run) : Steps r r
  | tail {r s t : Run} (steps : Steps r s) (step : Step s t) : Steps r t

end Run

end MutationPipeline
