import MutationPipeline.Pool.Permits
import MutationPipeline.Worker.Crew

/-!
A pool of workers that serve one call at a time.

Whoever needs a worker takes a ticket and claims a permit; there are as many permits as workers may
be at work at once. With the permit comes an idle worker, or a new one if none is idle. The worker
is put back before the permit is freed, so that who gets the permit finds it idle.
-/
namespace MutationPipeline

structure Lease where
  ticket : Nat
  permits : Nat
  seat : Option Nat := none
  deriving DecidableEq, Repr

structure Pool where
  capacity : Nat
  permits : Permits
  /-- The seats of idle workers, in the order in which they are taken. -/
  idle : List Nat := []
  /-- The seats of all workers, in the order in which they joined. -/
  members : List Nat := []
  leases : List Lease := []
  tickets : Nat := 0
  deriving DecidableEq, Repr

namespace Pool

def ofCapacity (capacity : Nat) : Pool := { capacity, permits := { free := capacity } }

def isDisposed (p : Pool) : Bool := p.permits.closed

def grow (p : Pool) (n : Nat) : Pool :=
  if n = 0 || p.isDisposed then p
  else { p with capacity := p.capacity + n, permits := p.permits.giveBack n }

def missing (p : Pool) : Nat := p.capacity - p.members.length

def claim (p : Pool) (wanted : Nat) : Pool × Nat :=
  ({ p with
      tickets := p.tickets + 1
      permits := if p.permits.closed then p.permits else p.permits.claim p.tickets wanted },
    p.tickets)

def lease (p : Pool) (ticket permits : Nat) : Pool :=
  { p with
    permits := p.permits.collect ticket
    leases := p.leases ++ [{ ticket, permits }] }

def seat (p : Pool) (ticket seat : Nat) : Pool :=
  { p with
    leases := p.leases.map fun l => if l.ticket = ticket then { l with seat := some seat } else l }

def seatIdle (p : Pool) (ticket : Nat) : Option (Pool × Nat) :=
  match p.idle with
  | [] => none
  | s :: idle => some ({ p with idle }.seat ticket s, s)

def enroll (p : Pool) (s : Nat) : Pool := { p with members := p.members ++ [s] }

def stock (p : Pool) (seats : List Nat) : Pool := { p with idle := p.idle ++ seats }

def leaseOf (p : Pool) (ticket : Nat) : Option Lease := p.leases.find? fun l => l.ticket = ticket

def putBack (p : Pool) (ticket : Nat) : Pool :=
  match p.leaseOf ticket with
  | some { seat := some s, .. } =>
    { p with
      idle := p.idle ++ [s]
      leases := p.leases.map fun l => if l.ticket = ticket then { l with seat := none } else l }
  | _ => p

def free (p : Pool) (ticket : Nat) : Pool :=
  match p.leaseOf ticket with
  | some l =>
    { p with
      permits := p.permits.giveBack l.permits
      leases := p.leases.filter fun l => l.ticket ≠ ticket }
  | none => p

/-- The owner of a ticket goes away, whatever it holds or waits for. -/
def forget (p : Pool) (ticket : Nat) : Pool :=
  let p := (p.putBack ticket).free ticket
  { p with permits := p.permits.withdraw ticket }

def close (p : Pool) : Pool := { p with permits := p.permits.close }

def clear (p : Pool) : Pool := { p with idle := [], members := [] }

end Pool

structure Site (W V : Type) where
  pool : Pool
  crew : Crew W V := {}

namespace Site

variable {W V : Type}

def onCrew : Part (Site W V) (Crew W V) := ⟨(·.crew), fun crew s => { s with crew }⟩

def withPool (s : Site W V) (f : Pool → Pool) : Site W V := { s with pool := f s.pool }

def note (s : Site W V) (n : Note) : Site W V := { s with crew := s.crew.note n }

def vacate (tickets tokens : List Nat) (s : Site W V) : Site W V where
  pool := tickets.foldl Pool.forget s.pool
  crew := tokens.foldl Crew.abandon s.crew

end Site

end MutationPipeline
