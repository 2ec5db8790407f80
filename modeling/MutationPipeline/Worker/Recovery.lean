import MutationPipeline.Worker.Crew

/-!
Going on after a worker has died.

A call that ends with the death of its worker is repeated once, on a fresh worker that takes the
seat, was started, and was told what has to be restored. The worker that died is disposed; whether
that succeeds does not matter. A second death, and any other failure, is the caller's.
-/
namespace MutationPipeline

variable {W V : Type}

inductive Renewal (W : Type) where
  | replacing
  | disposing (fresh : Nat) (c : Calling W)
  | starting (c : Calling W)

namespace Renewal

def staleNote (label : String) (e : WorkerError) : Note :=
  .debug (label ++ " worker could not be disposed after a crash: " ++ e.message)

def moves (label : String) (seat : Nat) :
    Machine (Crew W V) (Renewal W) (Except WorkerError Unit)
  | .replacing, c =>
    let (c, stale, fresh) := c.replace seat
    step c (.disposing fresh (.ready stale .dispose))
  | .disposing fresh call, c =>
    Calling.moves.within (.disposing fresh)
      (fun r c => match r with
        | .ok _ => (c, .go (.starting (.ready fresh .init)))
        | .error e => (c.note (staleNote label e), .go (.starting (.ready fresh .init)))) call c
  | .starting call, c =>
    Calling.moves.within .starting (fun r c => (c, .done (r.map fun _ => ()))) call c

def tokens : Renewal W → List Nat
  | .replacing => []
  | .disposing _ c => c.tokens
  | .starting c => c.tokens

def sleeps : Renewal W → Bool
  | .replacing => false
  | .disposing _ c => c.sleeps
  | .starting c => c.sleeps

end Renewal

def crashNote? (label : String) : WorkerError → Option Note
  | .outOfMemory pid _ =>
    some (.warn (label ++ " process [" ++ toString pid ++
      "] ran out of memory. Retrying in a new process."))
  | .crashed pid code reason =>
    some (.warn (label ++ " process [" ++ toString pid ++ "] crashed with exit code " ++
      exitCodeText code ++ ". Retrying in a new process. (" ++ reason ++ ")"))
  | _ => none

/-- A piece of work for the worker in a seat, with what a fresh worker has to be told first. -/
structure Job (W : Type) where
  label : String
  seat : Nat
  work : W
  restore : Option W := none

inductive Recovery (W : Type) where
  | first (c : Calling W)
  | renewing (r : Renewal W)
  | restoring (fresh : Nat) (c : Calling W)
  | second (c : Calling W)

namespace Recovery

def moves (job : Job W) : Machine (Crew W V) (Recovery W) (Except WorkerError V)
  | .first call, c =>
    Calling.moves.within .first
      (fun r c => match r with
        | .ok v => (c, .done (.ok v))
        | .error e =>
          match crashNote? job.label e with
          | some n => (c.note n, .go (.renewing .replacing))
          | none => (c, .done (.error e))) call c
  | .renewing r, c =>
    (Renewal.moves job.label job.seat).within .renewing
      (fun r c => match r with
        | .ok _ =>
          let fresh := c.occupant job.seat
          match job.restore with
          | some w => (c, .go (.restoring fresh (.ready fresh (.work w))))
          | none => (c, .go (.second (.ready fresh (.work job.work))))
        | .error e => (c, .done (.error e))) r c
  | .restoring fresh call, c =>
    Calling.moves.within (.restoring fresh)
      (fun r c => match r with
        | .ok _ => (c, .go (.second (.ready fresh (.work job.work))))
        | .error e => (c, .done (.error e))) call c
  | .second call, c =>
    Calling.moves.within .second (fun r c => (c, .done r)) call c

def tokens : Recovery W → List Nat
  | .first c => c.tokens
  | .renewing r => r.tokens
  | .restoring _ c => c.tokens
  | .second c => c.tokens

def sleeps : Recovery W → Bool
  | .first c => c.sleeps
  | .renewing r => r.sleeps
  | .restoring _ c => c.sleeps
  | .second c => c.sleeps

end Recovery

/-- How the workers of a crew are called in notes, and whether their work is repeated after a
death. -/
structure Staffing where
  label : String
  recovers : Bool
  deriving DecidableEq, Repr

/-- A piece of work for a seat, from the moment on when it is looked who sits there. -/
inductive Handling (W : Type) where
  | starting
  | direct (c : Calling W)
  | recovering (restore : Option W) (r : Recovery W)

namespace Handling

def moves (staffing : Staffing) (seat : Nat) (work : W) :
    Machine (Crew W V) (Handling W) (Except WorkerError V)
  | .starting, c =>
    let call := Calling.ready (c.occupant seat) (.work work)
    if staffing.recovers then step c (.recovering (c.remembered seat) (.first call))
    else step c (.direct call)
  | .direct call, c => Calling.moves.within .direct (fun r c => (c, .done r)) call c
  | .recovering restore r, c =>
    (Recovery.moves ⟨staffing.label, seat, work, restore⟩).within (.recovering restore)
      (fun r c => (c, .done r)) r c

def tokens : Handling W → List Nat
  | .starting => []
  | .direct c => c.tokens
  | .recovering _ r => r.tokens

def sleeps : Handling W → Bool
  | .starting => false
  | .direct c => c.sleeps
  | .recovering _ r => r.sleeps

end Handling

end MutationPipeline
