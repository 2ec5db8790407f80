import MutationPipeline.Worker.Crew

/-!
Rehearsing activities: workers are played, and time is made up.

A call comes to an outcome after some time, at once or never. As long as an activity can go on, no
time passes; when it waits, the clock jumps to the moment at which the next answer arrives.

A rehearsal is one of the runs that a machine allows. The results about machines are about all of
them, so nothing here is used there.
-/
namespace MutationPipeline.Rehearsal

structure Reaction (V : Type) where
  delay : Option Nat := some 0
  outcome : Outcome V

abbrev Play (E W V : Type) := (now worker : Nat) → Call W → StateM E (Reaction V)

structure Parcel (V : Type) where
  due : Nat
  token : Nat
  outcome : Outcome V

structure Mail (V : Type) where
  parcels : List (Parcel V) := []
  heard : Nat := 0
  arrived : List Nat := []

namespace Mail

variable {E W V : Type}

def hear (play : Play E W V) (now : Nat) (o : Order W) (state : E × Crew W V × Mail V) :
    E × Crew W V × Mail V :=
  let (e, c, m) := state
  let (reaction, e) := play now o.worker o.call e
  let m := { m with heard := o.token + 1 }
  match reaction.delay with
  | some 0 => (e, c.answer o.token reaction.outcome, m)
  | some n =>
    (e, c, { m with parcels := m.parcels ++ [⟨now + n, o.token, reaction.outcome⟩] })
  | none => (e, c, m)

def attend (play : Play E W V) (now : Nat) (state : E × Crew W V × Mail V) :
    E × Crew W V × Mail V :=
  let fresh := state.2.1.orders.filter fun o => state.2.2.heard ≤ o.token
  fresh.foldl (fun state o => hear play now o state) state

def wanted (c : Crew W V) (m : Mail V) : List (Parcel V) :=
  m.parcels.filter fun p => c.orders.any fun o => o.token = p.token

def next? (c : Crew W V) (m : Mail V) : Option Nat := ((m.wanted c).map (·.due)).min?

def deliver (now : Nat) (c : Crew W V) (m : Mail V) : Crew W V × Mail V :=
  let (due, rest) := (m.wanted c).partition fun p => p.due ≤ now
  (due.foldl (fun c p => c.answer p.token p.outcome) c,
    { m with parcels := rest, arrived := m.arrived ++ due.map (·.token) })

end Mail

structure Surroundings (σ : Type) where
  attend : σ → σ
  next? : σ → Option Nat
  jump : Nat → σ → σ

inductive Ending (φ ρ : Type) where
  | done (result : ρ)
  | panicked
  | waiting (phase : φ)

def patience : Nat := Nat.pow 10 12

namespace Surroundings

variable {σ φ ρ : Type}

def poll (w : Surroundings σ) (m : Machine σ φ ρ) : Nat → φ → σ → Ending φ ρ × σ
  | 0, p, s => (.waiting p, s)
  | n + 1, p, s =>
    match m p s with
    | [] => (.waiting p, s)
    | (s, .go p) :: _ => poll w m n p (w.attend s)
    | (s, .done r) :: _ => (.done r, w.attend s)
    | (s, .panicked) :: _ => (.panicked, w.attend s)

def play (w : Surroundings σ) (m : Machine σ φ ρ) : Nat → φ → σ → Ending φ ρ × σ
  | 0, p, s => (.waiting p, s)
  | n + 1, p, s =>
    match w.poll m patience p s with
    | (.waiting p, s) =>
      match w.next? s with
      | some moment => play w m n p (w.attend (w.jump moment s))
      | none => (.waiting p, s)
    | ended => ended

end Surroundings

structure Scene (E σ V : Type) where
  state : σ
  players : E
  mail : Mail V := {}
  now : Nat := 0

namespace Scene

variable {E σ W V : Type}

def onState : Part (Scene E σ V) σ := ⟨(·.state), fun state s => { s with state }⟩

def surroundings (crew : Part σ (Crew W V)) (play : Play E W V) : Surroundings (Scene E σ V) where
  attend s :=
    let (players, c, mail) := Mail.attend play s.now (s.players, crew.get s.state, s.mail)
    { s with players, mail, state := crew.set c s.state }
  next? s := s.mail.next? (crew.get s.state)
  jump moment s :=
    let (c, mail) := s.mail.deliver moment (crew.get s.state)
    { s with mail, now := moment, state := crew.set c s.state }

end Scene

end MutationPipeline.Rehearsal

/-!
Scripted workers. A script holds lists of outcomes, and each call takes the next outcome of its
list. A list that is used up stands for success.
-/
namespace MutationPipeline.Rehearsal

def takeNext (queue : List α) : Option α × List α :=
  match queue with
  | [] => (none, [])
  | x :: rest => (some x, rest)

def outcomeOf (value : V) : Option WorkerError → Outcome V
  | none => .ok value
  | some e => .failed e

structure Script (V : Type) where
  init : List (Option WorkerError) := []
  dispose : List (Option WorkerError) := []
  calls : List (Reaction V) := []

instance : Inhabited (Script V) := ⟨{}⟩

namespace Script

def takeInit (s : Script V) : Option WorkerError × Script V :=
  let (failure, init) := takeNext s.init
  (failure.join, { s with init })

def takeDispose (s : Script V) : Option WorkerError × Script V :=
  let (failure, dispose) := takeNext s.dispose
  (failure.join, { s with dispose })

def takeCall (otherwise : V) (s : Script V) : Reaction V × Script V :=
  let (reaction, calls) := takeNext s.calls
  (reaction.getD { outcome := .ok otherwise }, { s with calls })

end Script

abbrev Cast (S : Type) := Nat → S

namespace Cast

def ofList [Inhabited S] (scripts : List S) : Cast S := fun n => scripts.getD n default

def take (worker : Nat) (f : S → α × S) : StateM (Cast S) α := fun cast =>
  let (x, s) := f (cast worker)
  (x, fun n => if n = worker then s else cast n)

end Cast

inductive Trial where
  | call
  | restore (failure : Option WorkerError)
  deriving DecidableEq

def Script.play (value : Nat → V) : Play (Cast (Script V)) Trial V := fun _ worker call =>
  match call with
  | .init => return { outcome := outcomeOf (value worker) (← Cast.take worker Script.takeInit) }
  | .dispose =>
    return { outcome := outcomeOf (value worker) (← Cast.take worker Script.takeDispose) }
  | .work .call => Cast.take worker (Script.takeCall (value worker))
  | .work (.restore failure) => return { outcome := outcomeOf (value worker) failure }

end MutationPipeline.Rehearsal
