import MutationPipeline.Pipeline.Errand
import MutationPipeline.Proofs.Moves

/-! What a run itself can do next, by what it was doing, and what its tasks can do. Whether a task failed is seen when the task is
joined; until the pools are disposed nothing but the tasks and the channel of the results is touched. Runs can
be played by saying who goes on next. -/
namespace MutationPipeline

def Conduct.joined (outcome : Except RunError Unit) : Conduct → Conduct
  | .collecting => match outcome with
    | .ok _ => .collecting
    | .error e => .searching e
  | .searching cause => match outcome with
    | .ok _ => .searching cause
    | .error e => .searching (Run.preferred cause e)
  | c => c

def Conduct.Early : Conduct → Prop
  | .collecting | .searching _ | .aborting _ => True
  | _ => False

theorem Conduct.joinedEarly {c : Conduct} (early : c.Early) (outcome : Except RunError Unit) :
    (c.joined outcome).Early := by
  cases c with
  | collecting => cases outcome <;> trivial
  | searching cause => cases outcome <;> trivial
  | aborting cause => trivial
  | _ => exact early.elim

inductive Run.Concludes (r : Run) : Except RunError (List MutantResult) → Prop where
  | results (collecting : r.conduct = .collecting) : Concludes r r.verdict
  | failure {cause} (aborting : r.conduct = .aborting cause) : Concludes r (.error cause)

theorem Run.Concludes.early {r : Run} {outcome : Except RunError (List MutantResult)}
    (concludes : r.Concludes outcome) : r.conduct.Early := by
  cases concludes with
  | results collecting => rw [collecting]; trivial
  | failure aborting => rw [aborting]; trivial

def Floor.disposed (note : WorkerError → Note) (result : Except WorkerError Unit) (f : Floor) : Floor :=
  match result with
  | .ok _ => f
  | .error e => f.note (note e)

theorem Floor.disposedSites (note : WorkerError → Note) (result : Except WorkerError Unit)
    (f : Floor) : (f.disposed note result).checkers = f.checkers ∧
      (f.disposed note result).runners = f.runners ∧ (f.disposed note result).links = f.links := by
  cases result <;> exact ⟨rfl, rfl, rfl⟩

namespace Run
variable {r next : Run}

inductive Acted (r : Run) : Run → Prop where
  | received {floor x} (collecting : r.conduct = .collecting)
      (taken : (floor, some x) ∈ r.floor.receive Floor.onResults) :
      Acted r { r with floor, collected := r.collected ++ [x] }
  | joined {place outcome} (early : r.conduct.Early)
      (found : r.tasks[place]? = some (.left outcome)) :
      Acted r { r with tasks := r.tasks.set place .joined, conduct := r.conduct.joined outcome }
  | aborted {cause} (searching : r.conduct = .searching cause)
      (none : r.tasks.any Task.hasLeft = false) :
      Acted r { r with conduct := .aborting cause }
  | cut {cause place t floor u} (aborting : r.conduct = .aborting cause)
      (found : r.tasks[place]? = some t) (cut : (floor, u) ∈ t.cut r.floor) :
      Acted r { r with floor, tasks := r.tasks.set place u }
  | concluded {outcome} (ended : r.Concludes outcome) (all : r.tasks.all Task.isJoined = true) :
      Acted r (r.conclude outcome)
  | onCheckers {d e outcome s} (disposing : r.conduct = .disposingCheckers d outcome)
      (move : (s, .go e) ∈ Disposal.moves d r.floor.checkers) :
      Acted r { r with
        floor := { r.floor with checkers := s }, conduct := .disposingCheckers e outcome }
  | checkersDone {d result outcome s} (disposing : r.conduct = .disposingCheckers d outcome)
      (move : (s, .done result) ∈ Disposal.moves d r.floor.checkers) :
      Acted r { r with
        floor := { r.floor with checkers := s }.disposed checkerNote result
        conduct := .disposingRunners .asking outcome }
  | onRunners {d e outcome s} (disposing : r.conduct = .disposingRunners d outcome)
      (move : (s, .go e) ∈ Disposal.moves d r.floor.runners) :
      Acted r { r with
        floor := { r.floor with runners := s }, conduct := .disposingRunners e outcome }
  | runnersDone {d result outcome s} (disposing : r.conduct = .disposingRunners d outcome)
      (move : (s, .done result) ∈ Disposal.moves d r.floor.runners) :
      Acted r { r with
        floor := { r.floor with runners := s }.disposed runnerNote result
        conduct := .reporting outcome }
  | reported {outcome} (reporting : r.conduct = .reporting outcome) : Acted r (r.report outcome)

theorem joinsActed (early : r.conduct.Early) {after : Except RunError Unit → Conduct}
    (same : ∀ outcome, after outcome = r.conduct.joined outcome) (move : next ∈ r.joins after) :
    Acted r next := by
  obtain ⟨⟨t, place⟩, member, joined⟩ := List.mem_filterMap.mp move
  have found : r.tasks[place]? = some t := List.mem_zipIdx_iff_getElem?.mp member
  cases t with
  | left outcome =>
    cases joined
    rw [same]
    exact .joined early found
  | _ => cases joined

theorem collectActed (collecting : r.conduct = .collecting) (move : next ∈ r.collect) :
    Acted r next := by
  obtain ⟨⟨f, found⟩, received, collected⟩ := List.mem_filterMap.mp move
  cases found with
  | some x =>
    cases collected
    exact .received collecting received
  | none =>
    dsimp only at collected
    split at collected
    · next all =>
      cases collected
      exact .concluded (.results collecting) all
    · cases collected

theorem ownActed (move : next ∈ r.ownMoves) : Acted r next := by
  unfold ownMoves at move
  split at move
  · next collecting =>
    rcases List.mem_append.mp move with collected | joined
    · exact collectActed collecting collected
    · refine joinsActed (by rw [collecting]; trivial) (fun outcome => ?_) joined
      rw [collecting]
      cases outcome <;> rfl
  · next cause searching =>
    split at move
    · refine joinsActed (by rw [searching]; trivial) (fun outcome => ?_) move
      rw [searching]
      cases outcome <;> rfl
    · next none =>
      cases List.mem_singleton.mp move
      exact .aborted searching (Bool.eq_false_iff.mpr none)
  · next cause aborting =>
    split at move
    · next all =>
      cases List.mem_singleton.mp move
      exact .concluded (.failure aborting) all
    · rcases List.mem_append.mp move with severed | joined
      · obtain ⟨⟨t, place⟩, member, moves⟩ := List.mem_flatMap.mp severed
        obtain ⟨⟨f, u⟩, cut, rfl⟩ := List.mem_map.mp moves
        exact .cut aborting (List.mem_zipIdx_iff_getElem?.mp member) cut
      · exact joinsActed (by rw [aborting]; trivial) (fun outcome => by rw [aborting]; rfl) joined
  · next d outcome disposing =>
    obtain ⟨⟨f, n⟩, inner, same⟩ := List.mem_filterMap.mp move
    obtain ⟨s, moved, rfl⟩ := Machine.onCases inner
    cases n with
    | go e => cases same; exact .onCheckers disposing moved
    | done result => cases result <;> cases same <;> exact .checkersDone disposing moved
    | panicked => cases same
  · next d outcome disposing =>
    obtain ⟨⟨f, n⟩, inner, same⟩ := List.mem_filterMap.mp move
    obtain ⟨s, moved, rfl⟩ := Machine.onCases inner
    cases n with
    | go e => cases same; exact .onRunners disposing moved
    | done result => cases result <;> cases same <;> exact .runnersDone disposing moved
    | panicked => cases same
  · next outcome reporting =>
    cases List.mem_singleton.mp move
    exact .reported reporting
  · cases move

theorem taskActed {place : Nat} (move : next ∈ r.taskMoves place) :
    ∃ t u f, r.tasks[place]? = some t ∧ (f, u) ∈ t.moves place r.floor ∧
      next = { r with floor := f, tasks := r.tasks.set place u } := by
  unfold taskMoves at move
  split at move
  · cases move
  · next t found =>
    obtain ⟨⟨f, u⟩, moved, rfl⟩ := List.mem_map.mp move
    exact ⟨t, u, f, found, moved, rfl⟩

inductive Cue where
  | own
  | task (place : Nat)
  | checker (outcome : Outcome CheckAnswer)
  | runner (outcome : Outcome RunAnswer)

def cued (r : Run) : Cue → Option Run
  | .own => r.ownMoves.head?
  | .task place => (r.taskMoves place).head?
  | .checker outcome => r.floor.checkers.crew.orders.head?.map fun x =>
    r.answered Floor.onCheckers x.token outcome
  | .runner outcome => r.floor.runners.crew.orders.head?.map fun x =>
    r.answered Floor.onRunners x.token outcome

theorem cuedStep {cue : Cue} (went : r.cued cue = some next) : Step r next := by
  cases cue with
  | own => exact .own (List.mem_of_head? went)
  | task place => exact .task place (List.mem_of_head? went)
  | checker outcome =>
    obtain ⟨x, first, rfl⟩ := Option.map_eq_some_iff.mp went
    exact .checker x outcome (List.mem_of_head? first)
  | runner outcome =>
    obtain ⟨x, first, rfl⟩ := Option.map_eq_some_iff.mp went
    exact .runner x outcome (List.mem_of_head? first)

def played : List Cue → Run → Option Run
  | [], r => some r
  | cue :: later, r => (r.cued cue).bind (played later)

theorem playedSteps {cues : List Cue} {first : Run} (steps : Steps first r)
    (went : played cues r = some next) : Steps first next := by
  induction cues generalizing r with
  | nil =>
    cases went
    exact steps
  | cons cue later ih =>
    obtain ⟨s, step, rest⟩ := Option.bind_eq_some_iff.mp went
    exact ih (steps.tail (cuedStep step)) rest

theorem Recorded.traced {log : List Answer} {errands : List Errand}
    (recorded : Recorded r next log errands) : Traced r next log := by
  induction recorded with
  | refl => exact .refl
  | tail _ step before => exact before.tail step

def noted : List Cue → Run → Option (Run × List Answer × List Errand)
  | [], r => some (r, [], [])
  | cue :: later, r => (r.cued cue).bind fun next => (noted later next).map
      fun (t, log, errands) => (t, r.told next ++ log, r.asked next ++ errands)

theorem notedRecorded {cues : List Cue} {s t : Run} {before log : List Answer}
    {first errands : List Errand} (recorded : Recorded r s before first)
    (went : noted cues s = some (t, log, errands)) :
    Recorded r t (before ++ log) (first ++ errands) := by
  induction cues generalizing s before first log errands with
  | nil =>
    cases went
    rwa [List.append_nil, List.append_nil]
  | cons cue later ih =>
    obtain ⟨next, step, going⟩ := Option.bind_eq_some_iff.mp went
    obtain ⟨⟨u, more, others⟩, rest, same⟩ := Option.map_eq_some_iff.mp going
    cases same
    rw [← List.append_assoc, ← List.append_assoc]
    exact ih (recorded.tail (cuedStep step)) rest

def oneEach : Orders := { config := { checkers := ["lint"], concurrency := some 1 }, budget := ⟨1, 1⟩ }

def reached (id : String) : CoveredMutant := { id, fileName := "a", coveredBy := ["t"] }

end Run

end MutationPipeline
