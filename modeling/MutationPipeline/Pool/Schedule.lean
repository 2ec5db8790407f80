import MutationPipeline.Pool.Work

/-!
Work on a stream of items, each on a worker of its own.

The next item is taken from the stream, then a worker is acquired for it, and only then the item
after that is taken. Items with a worker are in flight beside each other; their results come in the
order in which they are ready. Once the work on an item is over, its worker is given back and its
result is there before anything else goes on in the schedule. An item for which no worker could be
acquired has the failure of the pool as its result.
-/
namespace MutationPipeline

variable {W V : Type}

/-- The stream of items: those known beforehand, then what the source yields, then the end. -/
inductive Feed (W α : Type) where
  | open (known : List α)
  | acquiring (item : α) (a : Acquisition W) (known : List α)
  | ended

inductive Flight (φ α ρ : Type) where
  | working (item : α) (ticket seat : Nat) (phase : φ)
  | returning (item : α) (ticket : Nat) (result : ρ) (r : Release)
  | refused (item : α) (cause : PoolError)

structure Schedule (W α φ ρ : Type) where
  feed : Feed W α
  flights : List (Flight φ α ρ) := []

structure Yield (α ρ : Type) where
  item : α
  result : Except PoolError ρ

namespace Schedule

variable {σ α φ ρ : Type}

/-- How items are worked on: where the site is in the state, where further items come from, and
what is done with an item. `more` has no move as long as it is not known whether there is another
item, and none as its result when there is none. -/
structure Plan (W V σ α φ ρ : Type) where
  site : Part σ (Site W V)
  more : σ → List (σ × Option α)
  start : φ
  work : α → Nat → Machine (Crew W V) φ ρ

def ofList (items : List α) : Schedule W α φ ρ := { feed := .open items }

def feedMoves (plan : Plan W V σ α φ ρ) (f : Schedule W α φ ρ) (s : σ) :
    List (σ × Next (Schedule W α φ ρ) (Option (Yield α ρ) × Schedule W α φ ρ)) :=
  match f.feed with
  | .ended => []
  | .open (item :: known) => step s { f with feed := .acquiring item .asking known }
  | .open [] => (plan.more s).map fun
      | (s, some item) => (s, .go { f with feed := .acquiring item .asking [] })
      | (s, none) => (s, .go { f with feed := .ended })
  | .acquiring item a known =>
    (Acquisition.moves.on plan.site).within
      (fun a => { f with feed := .acquiring item a known })
      (fun r s =>
        let flight := match r with
          | .ok (ticket, seat) => Flight.working item ticket seat plan.start
          | .error e => .refused item e
        (s, .go { feed := .open known, flights := f.flights ++ [flight] })) a s

def flightMoves (plan : Plan W V σ α φ ρ) (f : Schedule W α φ ρ) (i : Nat) (s : σ) :
    List (σ × Next (Schedule W α φ ρ) (Option (Yield α ρ) × Schedule W α φ ρ)) :=
  let go (x : Flight φ α ρ) : Schedule W α φ ρ := { f with flights := f.flights.set i x }
  let landed : Schedule W α φ ρ := { f with flights := f.flights.eraseIdx i }
  match f.flights[i]? with
  | none => []
  | some (.refused item e) => finish s (some ⟨item, .error e⟩, landed)
  | some (.working item ticket seat p) =>
    ((plan.work item seat).on (Site.onCrew.inside plan.site)).within
      (fun p => go (.working item ticket seat p))
      (fun r s => (s, .go (go (.returning item ticket r .puttingBack)))) p s
  | some (.returning item ticket result r) =>
    ((Release.moves ticket).on plan.site).within
      (fun r => go (.returning item ticket result r))
      (fun _ s => (s, .done (some ⟨item, .ok result⟩, landed))) r s

def landing? (f : Schedule W α φ ρ) : Option Nat := f.flights.findIdx? fun
  | .returning .. => true
  | _ => false

def moves (plan : Plan W V σ α φ ρ) :
    Machine σ (Schedule W α φ ρ) (Option (Yield α ρ) × Schedule W α φ ρ) := fun f s =>
  match f.feed, f.flights with
  | .ended, [] => finish s (none, f)
  | _, _ =>
    match f.landing? with
    | some i => flightMoves plan f i s
    | none =>
      feedMoves plan f s ++
        (List.range f.flights.length).flatMap fun i => flightMoves plan f i s

def tickets (f : Schedule W α φ ρ) : List Nat :=
  (match f.feed with
    | .acquiring _ a _ => a.tickets
    | _ => []) ++
  f.flights.filterMap fun
    | .working _ ticket _ _ => some ticket
    | .returning _ ticket _ _ => some ticket
    | .refused .. => none

def tokens (of : φ → List Nat) (f : Schedule W α φ ρ) : List Nat :=
  (match f.feed with
    | .acquiring _ a _ => a.tokens
    | _ => []) ++
  f.flights.flatMap fun
    | .working _ _ _ p => of p
    | _ => []

/-- Everything that goes on sleeps: the stream waits for an item or a worker, and all items in
flight wait for their workers. -/
def sleeps (asleep : φ → Bool) (f : Schedule W α φ ρ) : Bool :=
  (match f.feed with
    | .open known => known.isEmpty
    | .acquiring _ a _ => a.sleeps
    | .ended => !f.flights.isEmpty) &&
  f.flights.all fun
    | .working _ _ _ p => asleep p
    | _ => false

end Schedule

end MutationPipeline
