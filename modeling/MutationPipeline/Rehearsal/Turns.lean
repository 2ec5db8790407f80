import MutationPipeline.Rehearsal.Clock
import MutationPipeline.Rehearsal.Dealing

/-!
Turns: how activities that go on beside each other share one thread.

Tasks that can go on stand in a queue, and the one who has begun them goes on when the queue is
empty, or when enough tasks had their turn. In a turn an activity goes on until it has to wait, or
until its ration is used up. Who waits is called by name when there is something for it: an item, a
place in a channel, a permit, an answer. Only when nobody can go on, the clock jumps.
-/
namespace MutationPipeline.Rehearsal

inductive Actor where
  | task (place : Nat)
  | self
  deriving DecidableEq, Repr

inductive Sign where
  | arrival (channel : Nat)
  | room (channel : Nat)
  | shut (channel : Nat)
  | call (a : Actor)

/-- Activities that take turns. An activity that waits for the next result of a schedule goes on
in lanes: the stream of the schedule, which has no number, and the items in flight. -/
structure Troupe (σ : Type) where
  surroundings : Surroundings σ
  isOver : Actor → σ → Bool
  awaits : Actor → σ → Bool
  flightTokens : Actor → σ → List (List Nat)
  dealing : Actor → Option Nat → σ → Dealing
  moves : Actor → Option Nat → σ → List σ
  room : Nat → σ → Option Nat
  signs : σ → σ → List Sign
  arrived : σ → List Nat

inductive Study where
  | unbegun
  | begun
  | done
  deriving DecidableEq, Repr

/-- What is remembered about an activity between its moves. Items in flight have keys, in the
order in which they took off. -/
structure Pace where
  keys : List Nat := []
  launched : Nat := 0
  ready : List Nat := []
  attentive : Bool := false
  listens : Bool := false
  study : Study := .unbegun

structure Gate where
  line : List Actor := []
  admitted : List Actor := []

structure Rota (σ : Type) where
  world : σ
  paces : List (Actor × Pace) := []
  gates : List (Nat × Gate) := []
  queue : List Actor := []
  called : Bool := true
  putOff : List (Actor × Option Nat) := []
  acting : Option Actor := none
  again : Bool := false
  ration : Nat := 0

namespace Rota

variable {σ : Type}

def fullRation : Nat := 128

def longestGo : Nat := 61

def pace (r : Rota σ) (a : Actor) : Pace := (r.paces.lookup a).getD {}

def setPace (a : Actor) (p : Pace) (r : Rota σ) : Rota σ :=
  { r with paces := (a, p) :: r.paces.filter fun q => q.1 ≠ a }

def gate (r : Rota σ) (channel : Nat) : Gate := (r.gates.lookup channel).getD {}

def setGate (channel : Nat) (g : Gate) (r : Rota σ) : Rota σ :=
  { r with gates := (channel, g) :: r.gates.filter fun h => h.1 ≠ channel }

/-! ### Calling -/

/-- Calls an activity. A task that stands in the queue keeps its place, and one that acts goes to
the end of the queue after its turn. -/
def call (t : Troupe σ) (r : Rota σ) (a : Actor) : Rota σ :=
  if t.isOver a r.world then r
  else if a = .self then { r with called := true }
  else if r.acting = some a then { r with again := true }
  else if a ∈ r.queue then r
  else { r with queue := r.queue ++ [a] }

def callFlight (t : Troupe σ) (a : Actor) (key : Nat) (r : Rota σ) : Rota σ :=
  let p := r.pace a
  if key ∉ p.keys || key ∈ p.ready then r
  else
    let r := setPace a { p with ready := p.ready ++ [key], attentive := false } r
    if p.attentive then r.call t a else r

def callLane (t : Troupe σ) (r : Rota σ) : Actor × Option Nat → Rota σ
  | (a, none) => r.call t a
  | (a, some key) => callFlight t a key r

def receiver (channel : Nat) : Actor := if channel = 0 then .self else .task channel

def heed (t : Troupe σ) (r : Rota σ) : Sign → Rota σ
  | .call a => r.call t a
  | .arrival channel =>
    let a := receiver channel
    if a = .self || (r.pace a).listens then
      (setPace a { r.pace a with listens := false } r).call t a
    else r
  | .room channel =>
    match r.gate channel with
    | { line := [], .. } => r
    | { line := a :: line, admitted } =>
      (setGate channel { line, admitted := admitted ++ [a] } r).call t a
  | .shut channel =>
    let g := r.gate channel
    g.line.foldl (call t) (setGate channel { g with line := [] } r)

/-- Calls who waits for the answer to a call: an item in flight, or else everyone, as far as it is
`among` some activities. -/
def callCaller (t : Troupe σ) (among : List Actor) (r : Rota σ) (token : Nat) : Rota σ :=
  let lanes := among.flatMap fun a =>
    ((t.flightTokens a r.world).zip (r.pace a).keys).filterMap fun (tokens, key) =>
      if token ∈ tokens then some (a, key) else none
  match lanes with
  | (a, key) :: _ => callFlight t a key r
  | [] => among.foldl (call t) r

/-! ### Moving -/

def move (t : Troupe σ) (a : Actor) (lane : Option Nat) (r : Rota σ) : Option (Rota σ) :=
  match t.moves a lane r.world with
  | [] => none
  | world :: _ =>
    let signs := t.signs r.world world
    let cost := (t.dealing a lane r.world).cost
    some (signs.foldl (heed t)
      { r with world := t.surroundings.attend world, ration := r.ration - cost })

def attempt (t : Troupe σ) (a : Actor) (lane : Option Nat) (r : Rota σ) : Rota σ × Bool :=
  let dealing := t.dealing a lane r.world
  let settled (r : Rota σ) (otherwise : Rota σ) : Rota σ × Bool :=
    match r.move t a lane with
    | some r => (r, true)
    | none => (otherwise, false)
  if dealing.isRationed && r.ration = 0 then
    let who := (a, lane.bind fun i => (r.pace a).keys[i]?)
    (if r.putOff.head? = some who then r else { r with putOff := who :: r.putOff }, false)
  else
    match dealing with
    | .study =>
      match (r.pace a).study with
      | .unbegun => (setPace a { r.pace a with study := .begun } r, false)
      | .begun => (r, false)
      | .done => settled r r
    | .receipt _ => settled r (setPace a { r.pace a with listens := true } r)
    | .sending channel =>
      let g := r.gate channel
      if a ∈ g.admitted then
        settled (setGate channel { g with admitted := g.admitted.erase a } r) r
      else if (t.room channel r.world).all fun places => g.admitted.length < places then
        settled r r
      else if a ∈ g.line then (r, false)
      else (setGate channel { g with line := g.line ++ [a] } r, false)
    | _ => settled r r

def launch (t : Troupe σ) (a : Actor) (r : Rota σ) : Rota σ :=
  let p := r.pace a
  if p.keys.length < (t.flightTokens a r.world).length then
    setPace a
      { p with
        keys := p.keys ++ [p.launched]
        ready := p.ready ++ [p.launched]
        launched := p.launched + 1 } r
  else r

def feed (t : Troupe σ) (a : Actor) : Nat → Rota σ → Rota σ
  | 0, r => r
  | n + 1, r =>
    if t.awaits a r.world then
      match r.attempt t a none with
      | (r, true) => feed t a n (launch t a r)
      | (r, false) => r
    else r

def fly (t : Troupe σ) (a : Actor) (i : Nat) : Nat → Rota σ → Rota σ × Bool
  | 0, r => (r, false)
  | n + 1, r =>
    let flying := (t.flightTokens a r.world).length
    match r.attempt t a (some i) with
    | (r, true) =>
      if (t.flightTokens a r.world).length < flying then
        let p := r.pace a
        (setPace a { p with keys := p.keys.eraseIdx i } r, true)
      else fly t a i n r
    | (r, false) => (r, false)

/-- The items in flight that are ready go on, until one lands or as many as are in flight have
tried; in the latter case the activity calls itself. -/
def flyAll (t : Troupe σ) (a : Actor) : Nat → Rota σ → Rota σ × Bool
  | 0, r => (r, false)
  | n + 1, r =>
    let p := r.pace a
    match p.ready with
    | [] => (r, false)
    | key :: ready =>
      match fly t a (p.keys.idxOf key) patience (setPace a { p with ready } r) with
      | (r, true) => (r, true)
      | (r, false) => if n = 0 then (r.call t a, false) else flyAll t a n r

def await (t : Troupe σ) (a : Actor) (r : Rota σ) : Rota σ × Bool :=
  let r := feed t a patience r
  if t.awaits a r.world then
    let p := r.pace a
    flyAll t a p.keys.length (setPace a { p with attentive := true } r)
  else (r, true)

def act (t : Troupe σ) (a : Actor) : Nat → Rota σ → Rota σ
  | 0, r => r
  | n + 1, r =>
    if t.isOver a r.world then r
    else
      match if t.awaits a r.world then await t a r else r.attempt t a none with
      | (r, true) => act t a n r
      | (r, false) => r

def turn (t : Troupe σ) (a : Actor) (r : Rota σ) : Rota σ :=
  let r := act t a patience { r with acting := some a, again := false, ration := fullRation }
  let again := r.again
  let r := { r with acting := none, again := false }
  if again then r.call t a else r

def goes (t : Troupe σ) : Nat → Rota σ → Rota σ × Bool
  | 0, r => (r, false)
  | n + 1, r =>
    match r.queue with
    | [] => (r, true)
    | a :: queue => goes t n (turn t a { r with queue })

def resume (t : Troupe σ) (r : Rota σ) : Rota σ :=
  r.putOff.foldl (callLane t) { r with putOff := [] }

def endStudies (t : Troupe σ) (r : Rota σ) : Option (Rota σ) :=
  match r.paces.filter fun p => p.2.study = .begun with
  | [] => none
  | begun =>
    some (begun.foldl (fun r (a, p) => (setPace a { p with study := .done } r).call t a) r)

def jump (t : Troupe σ) (among : List Actor) (r : Rota σ) : Option (Rota σ) :=
  (t.surroundings.next? r.world).map fun moment =>
    let before := r.world
    let world := t.surroundings.jump moment before
    let tokens := (t.arrived world).drop (t.arrived before).length
    let r := (t.signs before world).foldl (heed t) { r with world }
    tokens.foldl (callCaller t among) r

def play (t : Troupe σ) (among : List Actor) : Nat → Rota σ → σ
  | 0, r => r.world
  | n + 1, r =>
    let r := if r.called then turn t .self { r with called := false } else r
    match goes t longestGo r with
    | (r, false) => play t among n (resume t r)
    | (r, true) =>
      if !r.putOff.isEmpty then play t among n (resume t r)
      else if r.called then play t among n r
      else
        match (endStudies t r).or (jump t among r) with
        | some r => play t among n r
        | none => r.world

end Rota

def Troupe.play {σ : Type} (t : Troupe σ) (tasks : Nat) (world : σ) : σ :=
  let queue := (List.range tasks).map Actor.task
  Rota.play t (queue ++ [.self]) patience { world, queue }

end MutationPipeline.Rehearsal
