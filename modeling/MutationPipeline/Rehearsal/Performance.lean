import MutationPipeline.Pipeline.Run
import MutationPipeline.Rehearsal.Checkers
import MutationPipeline.Rehearsal.Runners
import MutationPipeline.Rehearsal.Turns

/-!
A whole run with played workers. The tasks and the run itself take turns.
-/
namespace MutationPipeline

namespace Rehearsal

structure Performance where
  run : Run
  hosts : HostCast
  runners : RunCast
  checkMail : Mail CheckAnswer := {}
  runMail : Mail RunAnswer := {}
  now : Nat := 0
  departed : List Nat := []

namespace Performance

def attendOn (site : Part Floor (Site W V)) (play : Play E W V) (now : Nat) (players : E)
    (mail : Mail V) (r : Run) : Run × E × Mail V :=
  let s := site.get r.floor
  let (players, crew, mail) := Mail.attend play now (players, s.crew, mail)
  ({ r with floor := site.set { s with crew } r.floor }, players, mail)

def deliverOn (site : Part Floor (Site W V)) (now : Nat) (mail : Mail V) (r : Run) :
    Run × Mail V :=
  let s := site.get r.floor
  let (crew, mail) := mail.deliver now s.crew
  ({ r with floor := site.set { s with crew } r.floor }, mail)

def surroundings (checkers : Play HostCast CheckWork CheckAnswer) : Surroundings Performance where
  attend p :=
    let (run, hosts, checkMail) :=
      attendOn Floor.onCheckers checkers p.now p.hosts p.checkMail p.run
    let (run, runners, runMail) :=
      attendOn Floor.onRunners RunCast.play p.now p.runners p.runMail run
    { p with run, hosts, checkMail, runners, runMail }
  next? p :=
    ((p.checkMail.next? p.run.floor.checkers.crew).toList ++
      (p.runMail.next? p.run.floor.runners.crew).toList).min?
  jump moment p :=
    let (run, checkMail) := deliverOn Floor.onCheckers moment p.checkMail p.run
    let (run, runMail) := deliverOn Floor.onRunners moment p.runMail run
    { p with run, checkMail, runMail, now := moment }

def role? (p : Performance) (a : Actor) : Option Role :=
  match a with
  | .self => none
  | .task place =>
    match p.run.tasks[place]? with
    | some (.working role) => some role
    | _ => none

def hasLeft (r : Run) (place : Nat) : Bool :=
  match r.tasks[place]? with
  | some t => t.hasLeft
  | none => false

def follow (p : Performance) (run : Run) : Performance :=
  let left := (List.range run.tasks.length).filter (hasLeft run)
  let departed := p.departed.filter (hasLeft run)
  { p with run, departed := departed ++ left.filter (· ∉ departed) }

/-- The moves of the run itself: results are collected first, and tasks are joined in the order in
which they have left. -/
def ownMoves (p : Performance) : List Run :=
  let joins := match p.departed.head? with
    | some first => ((List.range first).filter (hasLeft p.run)).length
    | none => 0
  match p.run.conduct with
  | .collecting => if p.run.collect.isEmpty then p.run.ownMoves.drop joins else p.run.collect
  | .searching _ => p.run.ownMoves.drop joins
  | _ => p.run.ownMoves

def moves (a : Actor) (lane : Option Nat) (p : Performance) : List Performance :=
  match a with
  | .self => p.ownMoves.map p.follow
  | .task place =>
    let all := (p.run.taskMoves place).map p.follow
    match p.role? a with
    | some role => role.movesOf place p.run.floor lane all
    | none => if lane.isNone then all else []

def dealing (a : Actor) (lane : Option Nat) (p : Performance) : Dealing :=
  match a, p.role? a with
  | .task place, some role =>
    role.dealing (· ∈ p.checkMail.arrived) (· ∈ p.runMail.arrived) place lane
  | .task _, none => .nothing
  | .self, _ =>
    match p.run.conduct with
    | .collecting => if p.run.collect.isEmpty then .share else .receipt 0
    | _ => .nothing

def room (channel : Nat) (p : Performance) : Option Nat :=
  let free {α : Type} (c : Channel α) : Option Nat :=
    if c.receiving then some (c.capacity - c.items.length) else none
  if channel = 0 then free p.run.floor.results else free (p.run.floor.link channel)

def channelSigns {α : Type} (number : Nat) (before after : Channel α) : List Sign :=
  (if before.items.length < after.items.length || (after.senders = 0 && before.senders ≠ 0) then
    [.arrival number] else []) ++
  (if after.receiving && after.items.length < before.items.length then [.room number] else [])

def ticketSigns (r : Run) (ticketsOf : Role → List Nat) (served : List Nat) : List Sign :=
  served.map fun ticket =>
    match r.tasks.findIdx? fun t => match t with
      | .working role => ticket ∈ ticketsOf role
      | _ => false with
    | some place => .call (.task place)
    | none => .call .self

def signs (p q : Performance) : List Sign :=
  let before := p.run.floor
  let after := q.run.floor
  let links := ((before.links.zip after.links).zipIdx)
  ticketSigns q.run Role.checkTickets
      (before.checkers.pool.permits.served after.checkers.pool.permits) ++
    ticketSigns q.run Role.runTickets
      (before.runners.pool.permits.served after.runners.pool.permits) ++
    links.flatMap (fun ((b, a), number) => channelSigns number b a) ++
    channelSigns 0 before.results after.results ++
    links.filterMap (fun ((b, a), number) =>
      if b.receiving && !a.receiving then some (.shut number) else none) ++
    (if p.departed.length < q.departed.length then [.call .self] else []) ++
    match q.run.conduct with
    | .aborting _ => ((List.range q.run.tasks.length).map Actor.task ++ [Actor.self]).map Sign.call
    | _ => []

def troupe (w : Surroundings Performance) : Troupe Performance where
  surroundings := w
  isOver a p :=
    match a with
    | .self => false
    | .task place => match p.run.tasks[place]? with
      | some t => t.hasLeft || t.isJoined
      | none => true
  awaits a p := (p.role? a).any Role.awaits
  flightTokens a p := ((p.role? a).map Role.flightTokens).getD []
  dealing := dealing
  moves := moves
  room := room
  signs := signs
  arrived p := p.runMail.arrived

def play (w : Surroundings Performance) (p : Performance) : Performance :=
  (troupe w).play p.run.tasks.length p

def notes (p : Performance) : List Note :=
  p.run.floor.notes ++ p.run.floor.checkers.crew.notes ++ p.run.floor.runners.crew.notes

end Performance

end Rehearsal

end MutationPipeline
