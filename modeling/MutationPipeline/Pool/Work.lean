import MutationPipeline.Pool.Basic

/-!
What is done with a pool: making a worker, acquiring and releasing one, filling the pool up, giving
all workers a piece of work, and disposing the pool.
-/
namespace MutationPipeline

variable {W V : Type}

def callMoves : Machine (Site W V) (Calling W) (Except WorkerError V) :=
  Calling.moves.on Site.onCrew

/-- Making a worker: it is started and then joins the pool. A worker that does not start is
disposed. `holder` is the ticket of the one who gets it. -/
inductive Creation (W : Type) where
  | hiring
  | starting (seat : Nat) (c : Calling W)
  | clearing (cause : WorkerError) (c : Calling W)
  | enrolling (seat : Nat)

namespace Creation

def clearNote (e : WorkerError) : Note :=
  .debug ("failed to dispose worker after init failure: " ++ e.message)

def moves (holder : Option Nat) : Machine (Site W V) (Creation W) (Except PoolError Nat)
  | .hiring, s =>
    let (crew, seat) := s.crew.hire
    step { s with crew } (.starting seat (.ready (crew.occupant seat) .init))
  | .starting seat call, s =>
    callMoves.within (.starting seat)
      (fun r s => match r with
        | .ok _ => (s, .go (.enrolling seat))
        | .error e => (s, .go (.clearing e (.ready (s.crew.occupant seat) .dispose)))) call s
  | .clearing cause call, s =>
    callMoves.within (.clearing cause)
      (fun r s => match r with
        | .ok _ => (s, .done (.error (.worker cause)))
        | .error e => (s.note (clearNote e), .done (.error (.worker cause)))) call s
  | .enrolling seat, s =>
    let s := s.withPool (·.enroll seat)
    finish (match holder with
      | some ticket => s.withPool (·.seat ticket seat)
      | none => s) (.ok seat)

def tokens : Creation W → List Nat
  | .starting _ c => c.tokens
  | .clearing _ c => c.tokens
  | _ => []

def sleeps : Creation W → Bool
  | .starting _ c => c.sleeps
  | .clearing _ c => c.sleeps
  | _ => false

end Creation

inductive Acquisition (W : Type) where
  | asking
  | waiting (ticket : Nat)
  | choosing (ticket : Nat)
  | creating (ticket : Nat) (c : Creation W)
  | failing (ticket : Nat) (cause : PoolError)

namespace Acquisition

def moves : Machine (Site W V) (Acquisition W) (Except PoolError (Nat × Nat))
  | .asking, s =>
    let (pool, ticket) := s.pool.claim 1
    step { s with pool } (.waiting ticket)
  | .waiting ticket, s =>
    if s.pool.isDisposed then finish (s.withPool (·.forget ticket)) (.error .disposed)
    else if s.pool.permits.isComplete ticket then
      step (s.withPool (·.lease ticket 1)) (.choosing ticket)
    else []
  | .choosing ticket, s =>
    match s.pool.seatIdle ticket with
    | some (pool, seat) => finish { s with pool } (.ok (ticket, seat))
    | none => step s (.creating ticket .hiring)
  | .creating ticket c, s =>
    (Creation.moves (some ticket)).within (.creating ticket)
      (fun r s => match r with
        | .ok seat => (s, .done (.ok (ticket, seat)))
        | .error e => (s, .go (.failing ticket e))) c s
  | .failing ticket cause, s => finish (s.withPool (·.free ticket)) (.error cause)

def tickets : Acquisition W → List Nat
  | .asking => []
  | .waiting ticket | .choosing ticket | .creating ticket _ | .failing ticket _ => [ticket]

def tokens : Acquisition W → List Nat
  | .creating _ c => c.tokens
  | _ => []

def sleeps : Acquisition W → Bool
  | .waiting _ => true
  | .creating _ c => c.sleeps
  | _ => false

end Acquisition

inductive Release where
  | puttingBack
  | freeing

def Release.moves (ticket : Nat) : Machine (Site W V) Release Unit
  | .puttingBack, s => step (s.withPool (·.putBack ticket)) .freeing
  | .freeing, s => finish (s.withPool (·.free ticket)) ()

/-- Filling a pool up to its capacity, all missing workers at once. -/
inductive Filling (W : Type) where
  | counting
  | creating (members : List (Member (Creation W) Nat))

namespace Filling

def moves : Machine (Site W V) (Filling W) (Except PoolError Unit)
  | .counting, s =>
    if s.pool.isDisposed then finish s (.error .disposed)
    else step s (.creating (List.replicate s.pool.missing (.running .hiring)))
  | .creating members, s =>
    Machine.within (Member.moves (Creation.moves none)) .creating
      (fun r s => match r with
        | .ok seats => (s.withPool (·.stock seats), .done (.ok ()))
        | .error e => (s, .done (.error e))) members s

def tokens : Filling W → List Nat
  | .counting => []
  | .creating members => (Member.phases members).flatMap Creation.tokens

def sleeps : Filling W → Bool
  | .counting => false
  | .creating members => (Member.phases members).all Creation.sleeps

end Filling

/-- Something done with every worker of a pool, all at once. -/
inductive Broadcast (φ : Type) where
  | listing
  | running (members : List (Member (Nat × φ) Unit))

namespace Broadcast

def moves {φ : Type} (start : φ) (m : Nat → Machine (Site W V) φ (Except WorkerError Unit)) :
    Machine (Site W V) (Broadcast φ) (Except WorkerError Unit)
  | .listing, s => step s (.running (s.pool.members.map fun seat => .running (seat, start)))
  | .running members, s =>
    Machine.within
      (Member.moves fun (p : Nat × φ) s =>
        (m p.1).within (fun phase => (p.1, phase)) (fun r s => (s, .done r)) p.2 s)
      .running (fun r s => (s, .done (r.map fun _ => ()))) members s

def phases {φ : Type} : Broadcast φ → List φ
  | .listing => []
  | .running members => (Member.phases members).map (·.2)

def sleeps {φ : Type} (asleep : φ → Bool) : Broadcast φ → Bool
  | .listing => false
  | .running members => (Member.phases members).all fun p => asleep p.2

end Broadcast

def mostAwaited : Nat := Nat.pow 2 32 - 1

/-- Disposing a pool: all permits are waited for, as far as they can be counted, so that calls in
flight can finish; then no more are handed out, and the workers are disposed one after the other.
Failures are noted and the first one is the result. -/
inductive Disposal (W : Type) where
  | asking
  | waiting (ticket wanted : Nat)
  | closing (ticket : Nat)
  | freeing (ticket : Nat)
  | clearing
  | disposing (c : Option (Calling W)) (rest : List Nat) (first : Option WorkerError)

namespace Disposal

def failureNote (e : WorkerError) : Note := .warn ("failed to dispose worker: " ++ e.message)

def moves : Machine (Site W V) (Disposal W) (Except WorkerError Unit)
  | .asking, s =>
    if s.pool.isDisposed then finish s (.ok ())
    else
      let wanted := min s.pool.capacity mostAwaited
      let (pool, ticket) := s.pool.claim wanted
      step { s with pool } (.waiting ticket wanted)
  | .waiting ticket wanted, s =>
    if s.pool.isDisposed then step s (.closing ticket)
    else if s.pool.permits.isComplete ticket then
      step (s.withPool (·.lease ticket wanted)) (.closing ticket)
    else []
  | .closing ticket, s => step (s.withPool (·.close)) (.freeing ticket)
  | .freeing ticket, s => step (s.withPool (·.free ticket)) .clearing
  | .clearing, s => step (s.withPool (·.clear)) (.disposing none s.pool.members none)
  | .disposing none [] first, s =>
    finish s (match first with
      | some e => .error e
      | none => .ok ())
  | .disposing none (seat :: rest) first, s =>
    step s (.disposing (some (.ready (s.crew.occupant seat) .dispose)) rest first)
  | .disposing (some call) rest first, s =>
    callMoves.within (fun call => .disposing (some call) rest first)
      (fun r s => match r with
        | .ok _ => (s, .go (.disposing none rest first))
        | .error e =>
          (s.note (failureNote e), .go (.disposing none rest (some (first.getD e))))) call s

def tickets : Disposal W → List Nat
  | .waiting ticket _ | .closing ticket | .freeing ticket => [ticket]
  | _ => []

def tokens : Disposal W → List Nat
  | .disposing (some c) _ _ => c.tokens
  | _ => []

def sleeps : Disposal W → Bool
  | .waiting .. => true
  | .disposing (some c) _ _ => c.sleeps
  | _ => false

end Disposal

end MutationPipeline
