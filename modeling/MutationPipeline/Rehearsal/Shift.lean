import MutationPipeline.Rehearsal.Clock
import MutationPipeline.Rehearsal.Turns

/-!
A shift: items are worked on with one pool, and at set times the pool grows or is disposed.
-/
namespace MutationPipeline.Rehearsal

structure Errand where
  delay : Nat := 0
  failure : Option WorkerError := none

structure Errand.Trace where
  worker : Nat
  start : Nat

abbrev ErrandSite := Site Errand Errand.Trace

def Errand.play : Play (Cast (Script Unit)) Errand Errand.Trace := fun now worker call =>
  match call with
  | .init => return { outcome := outcomeOf ⟨worker, now⟩ (← Cast.take worker Script.takeInit) }
  | .dispose =>
    return { outcome := outcomeOf ⟨worker, now⟩ (← Cast.take worker Script.takeDispose) }
  | .work e => return { delay := some e.delay, outcome := outcomeOf ⟨worker, now⟩ e.failure }

abbrev Item := Nat × Errand

structure Shift where
  site : ErrandSite
  yields : List (Nat × Yield Item (Except WorkerError Errand.Trace)) := []
  disposed : Option (Nat × Except WorkerError Unit) := none

abbrev ShiftScene := Scene (Cast (Script Unit)) Shift Errand.Trace

inductive ShiftTask where
  | growing (n : Nat)
  | disposing (d : Disposal Errand)
  | ended

abbrev ErrandSchedule :=
  Schedule Errand Item (Handling Errand) (Except WorkerError Errand.Trace)

structure ShiftRun where
  scene : ShiftScene
  work : Option ErrandSchedule
  tasks : List (Nat × ShiftTask)

namespace Shift

def onSite : Part Shift ErrandSite := ⟨(·.site), fun site s => { s with site }⟩

def plan : Schedule.Plan Errand Errand.Trace Shift Item (Handling Errand)
    (Except WorkerError Errand.Trace) where
  site := onSite
  more s := [(s, none)]
  start := .starting
  work item seat := Handling.moves ⟨"", false⟩ seat item.2

def withShift (s : ShiftScene) (f : Shift → Shift) : ShiftScene := { s with state := f s.state }

def taskMoves : Machine ShiftScene ShiftTask Unit
  | .growing n, s =>
    step (withShift s fun x => { x with site := x.site.withPool (·.grow n) }) .ended
  | .disposing d, s =>
    (Disposal.moves.on (onSite.inside Scene.onState)).within .disposing
      (fun r s => (withShift s fun x => { x with disposed := some (s.now, r) }, .go .ended)) d s
  | .ended, _ => []

def surroundings : Surroundings ShiftScene :=
  Scene.surroundings (Site.onCrew.inside onSite) Errand.play

def fill (s : ShiftScene) : Ending (Filling Errand) (Except PoolError Unit) × ShiftScene :=
  surroundings.play (Filling.moves.on (onSite.inside Scene.onState)) patience .counting s

end Shift

namespace ShiftRun

open Shift

def workMoves (f : ErrandSchedule) (r : ShiftRun) : List ShiftRun :=
  (((Schedule.moves plan).on Scene.onState) f r.scene).map fun
    | (scene, .done (some y, f)) =>
      let scene := withShift scene fun x => { x with yields := x.yields ++ [(scene.now, y)] }
      { r with scene, work := some f }
    | (scene, .go f) => { r with scene, work := some f }
    | (scene, _) => { r with scene, work := none }

def moves (a : Actor) (lane : Option Nat) (r : ShiftRun) : List ShiftRun :=
  match a with
  | .self =>
    match r.work with
    | some f => f.movesOf plan r.scene.state lane (workMoves f r)
    | none => []
  | .task place =>
    match r.tasks[place]? with
    | some (moment, task) =>
      if r.scene.now < moment then []
      else (taskMoves task r.scene).filterMap fun
        | (scene, .go task) => some { r with scene, tasks := r.tasks.set place (moment, task) }
        | _ => none
    | none => []

def dealing (a : Actor) (lane : Option Nat) (r : ShiftRun) : Dealing :=
  let slow (token : Nat) : Bool := token ∈ r.scene.mail.arrived
  match a with
  | .self =>
    (r.work.map fun f =>
      f.dealing slow false .nothing (Handling.dealing slow false) lane).getD .nothing
  | .task place =>
    match r.tasks[place]? with
    | some (_, .disposing d) => d.dealing slow false
    | _ => .nothing

def signs (before after : ShiftRun) : List Sign :=
  let owner (ticket : Nat) : Actor :=
    match after.tasks.findIdx? fun t => match t.2 with
      | .disposing d => ticket ∈ d.tickets
      | _ => false with
    | some place => .task place
    | none => .self
  let served :=
    before.scene.state.site.pool.permits.served after.scene.state.site.pool.permits
  let begun := after.tasks.zipIdx.filter fun ((moment, _), _) =>
    before.scene.now < moment && moment ≤ after.scene.now
  served.map (fun ticket => .call (owner ticket)) ++ begun.map fun (_, place) => .call (.task place)

def surroundings : Surroundings ShiftRun where
  attend r := { r with scene := Shift.surroundings.attend r.scene }
  next? r :=
    ((Shift.surroundings.next? r.scene).toList ++
      (r.tasks.map (·.1)).filter (r.scene.now < ·)).min?
  jump moment r := { r with scene := Shift.surroundings.jump moment r.scene }

def troupe : Troupe ShiftRun where
  surroundings := surroundings
  isOver a r :=
    match a with
    | .self => r.work.isNone
    | .task place => match r.tasks[place]? with
      | some (_, .ended) | none => true
      | _ => false
  awaits a r := a = .self && r.work.isSome
  flightTokens a r :=
    match a, r.work with
    | .self, some f => f.flightTokens Handling.tokens
    | _, _ => []
  dealing := dealing
  moves := moves
  room _ _ := none
  signs := signs
  arrived r := r.scene.mail.arrived

end ShiftRun

def Shift.work (errands : List Errand) (tasks : List (Nat × ShiftTask)) (scene : ShiftScene) :
    ShiftScene :=
  let items := errands.zipIdx.map fun (e, i) => (i, e)
  (ShiftRun.troupe.play tasks.length ⟨scene, some (.ofList items), tasks⟩).scene

end MutationPipeline.Rehearsal
