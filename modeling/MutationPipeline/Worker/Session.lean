import MutationPipeline.Worker.Recovery

/-!
One worker and whoever keeps it: requests are passed on to the worker in the first seat, one after
the other.

A request is to start the worker, to dispose it, or for work. It may lead to several calls; when a
worker answers a call and what it answers is left open. A request ends with a reply, or it breaks
down over a worker that breaks down.
-/
namespace MutationPipeline

structure Exchange (W V : Type) where
  worker : Nat
  call : Call W
  outcome : Outcome V

structure Keeper (W V φ ρ : Type) where
  start : W → Crew W V → φ
  moves : W → Machine (Crew W V) φ (Except WorkerError ρ)

/-- Treatment with a request: by a single call, or by what the keeper does about work. -/
inductive Treatment (W φ : Type) where
  | calling (c : Calling W)
  | working (w : W) (phase : φ)

structure Attempt (W V φ : Type) where
  request : Call W
  phase : Treatment W φ
  exchanges : List (Exchange W V) := []

/-- A request that has ended. It has no reply if it broke down; only work is replied to with more
than that it is done. -/
structure Deed (W V ρ : Type) where
  request : Call W
  exchanges : List (Exchange W V)
  reply : Option (Except WorkerError (Option ρ))

structure Session (W V φ ρ : Type) where
  crew : Crew W V := (Crew.hire {}).1
  deeds : List (Deed W V ρ) := []
  attempt : Option (Attempt W V φ) := none

namespace Keeper
variable {W V φ ρ : Type}

def begin (k : Keeper W V φ ρ) (c : Crew W V) : Call W → Treatment W φ
  | .work w => .working w (k.start w c)
  | call => .calling (.ready (c.occupant 0) call)

def deal (k : Keeper W V φ ρ) :
    Machine (Crew W V) (Treatment W φ) (Except WorkerError (Option ρ))
  | .calling call, c =>
    Calling.moves.within .calling (fun r c => (c, .done (r.map fun _ => none))) call c
  | .working w phase, c =>
    (k.moves w).within (.working w) (fun r c => (c, .done (r.map some))) phase c

end Keeper

namespace Session
variable {W V φ ρ : Type}

def past (s : Session W V φ ρ) : List (Exchange W V) := s.deeds.flatMap (·.exchanges)

def log (s : Session W V φ ρ) : List (Exchange W V) :=
  s.past ++ (s.attempt.map (·.exchanges)).getD []

def ask (k : Keeper W V φ ρ) (request : Call W) (s : Session W V φ ρ) : Session W V φ ρ :=
  { s with attempt := some { request, phase := k.begin s.crew request } }

def moved (a : Attempt W V φ) (c : Crew W V) (s : Session W V φ ρ) :
    Next (Treatment W φ) (Except WorkerError (Option ρ)) → Session W V φ ρ
  | .go phase => { s with crew := c, attempt := some { a with phase } }
  | .done r =>
    { crew := c, deeds := s.deeds ++ [⟨a.request, a.exchanges, some r⟩], attempt := none }
  | .panicked => { crew := c, deeds := s.deeds ++ [⟨a.request, a.exchanges, none⟩], attempt := none }

def answered (a : Attempt W V φ) (o : Order W) (outcome : Outcome V) (s : Session W V φ ρ) :
    Session W V φ ρ :=
  { s with
    crew := s.crew.answer o.token outcome
    attempt := some { a with exchanges := a.exchanges ++ [⟨o.worker, o.call, outcome⟩] } }

inductive Step (k : Keeper W V φ ρ) : Session W V φ ρ → Session W V φ ρ → Prop where
  | ask {s} (request : Call W) (free : s.attempt = none) : Step k s (s.ask k request)
  | move {s a c n} (busy : s.attempt = some a) (move : (c, n) ∈ k.deal a.phase s.crew) :
      Step k s (s.moved a c n)
  | answer {s a} (o : Order W) (outcome : Outcome V) (busy : s.attempt = some a)
      (waits : o ∈ s.crew.orders) : Step k s (s.answered a o outcome)

inductive Reached (k : Keeper W V φ ρ) : Session W V φ ρ → Prop where
  | start : Reached k {}
  | step {s t} (reached : Reached k s) (step : Step k s t) : Reached k t

end Session

end MutationPipeline
