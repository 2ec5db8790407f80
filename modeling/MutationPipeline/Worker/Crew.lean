import MutationPipeline.Machine
import MutationPipeline.Log
import MutationPipeline.Worker.Error

/-!
A crew: workers, the seats they sit in, and the calls to them.

Whoever needs a worker knows it by its seat. When a worker's process has died, a fresh worker takes
its seat. A call to a worker is begun in one step and ends in another one, once the worker has
answered; what the answer is, and when it comes, is up to the worker. All that happens to workers
is kept in the history.

The type `W` says what workers are asked to do beside starting and ending, `V` what they answer.
-/
namespace MutationPipeline

inductive Call (W : Type) where
  | init
  | dispose
  | work (w : W)
  deriving DecidableEq

inductive Outcome (V : Type) where
  | ok (value : V)
  | failed (cause : WorkerError)
  | panicked

structure Order (W : Type) where
  token : Nat
  worker : Nat
  call : Call W

inductive Event (W : Type) where
  | made (worker : Nat)
  | called (worker : Nat) (call : Call W)

def Event.isLifecycle {W : Type} : Event W → Bool
  | .called _ (.work _) => false
  | _ => true

structure Seat (W : Type) where
  occupant : Nat
  remembered : Option W := none

structure Crew (W V : Type) where
  seats : Array (Seat W) := #[]
  made : Nat := 0
  orders : List (Order W) := []
  answers : List (Nat × Outcome V) := []
  tokens : Nat := 0
  history : List (Event W) := []
  notes : List Note := []

namespace Crew

variable {W V : Type}

def note (c : Crew W V) (n : Note) : Crew W V := { c with notes := c.notes ++ [n] }

def make (c : Crew W V) : Crew W V × Nat :=
  ({ c with made := c.made + 1, history := c.history ++ [.made c.made] }, c.made)

def hire (c : Crew W V) : Crew W V × Nat :=
  let (c, worker) := c.make
  ({ c with seats := c.seats.push { occupant := worker } }, c.seats.size)

def occupant (c : Crew W V) (seat : Nat) : Nat :=
  match c.seats[seat]? with
  | some s => s.occupant
  | none => seat

def remembered (c : Crew W V) (seat : Nat) : Option W := c.seats[seat]?.bind (·.remembered)

def remember (c : Crew W V) (seat : Nat) (w : W) : Crew W V :=
  { c with seats := c.seats.modify seat fun s => { s with remembered := some w } }

/-- Makes a worker that takes a seat. Returns the worker that leaves it and the fresh one. -/
def replace (c : Crew W V) (seat : Nat) : Crew W V × Nat × Nat :=
  let stale := c.occupant seat
  let (c, fresh) := c.make
  ({ c with seats := c.seats.modify seat fun s => { s with occupant := fresh } }, stale, fresh)

def start (c : Crew W V) (worker : Nat) (call : Call W) : Crew W V × Nat :=
  ({ c with
      orders := c.orders ++ [⟨c.tokens, worker, call⟩]
      tokens := c.tokens + 1
      history := c.history ++ [.called worker call] }, c.tokens)

def answer (c : Crew W V) (token : Nat) (outcome : Outcome V) : Crew W V :=
  { c with
    orders := c.orders.filter fun o => o.token ≠ token
    answers := c.answers ++ [(token, outcome)] }

def abandon (c : Crew W V) (token : Nat) : Crew W V :=
  { c with
    orders := c.orders.filter fun o => o.token ≠ token
    answers := c.answers.filter fun a => a.1 ≠ token }

end Crew

inductive Calling (W : Type) where
  | ready (worker : Nat) (call : Call W)
  | waiting (token : Nat)

namespace Calling

variable {W V : Type}

def moves : Machine (Crew W V) (Calling W) (Except WorkerError V)
  | .ready worker call, c =>
    let (c, token) := c.start worker call
    step c (.waiting token)
  | .waiting token, c =>
    match c.answers.lookup token with
    | none => []
    | some (.ok v) => finish (c.abandon token) (.ok v)
    | some (.failed e) => finish (c.abandon token) (.error e)
    | some .panicked => [(c.abandon token, .panicked)]

def tokens : Calling W → List Nat
  | .ready .. => []
  | .waiting token => [token]

def sleeps : Calling W → Bool
  | .ready .. => false
  | .waiting _ => true

end Calling

end MutationPipeline
