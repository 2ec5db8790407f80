import MutationPipeline.Pool.Traffic

/-!
What a stream of items has done. The journal says which items it took, for which of them no worker was to
be had, whose work was begun and has ended in which seat, which workers have become idle again, and
what it yielded. Around the stream anybody may come to the pool, to acquire workers, to fill it up or to
dispose it.
-/
namespace MutationPipeline

structure Stint (α : Type) where
  item : α
  ticket : Nat
  seat : Nat

structure Journal (α ρ : Type) where
  pulled : List α := []
  taken : List α := []
  refused : List (α × PoolError) := []
  begun : List (Stint α) := []
  ended : List (Stint α × ρ) := []
  returned : List (Stint α × ρ) := []
  yielded : List (Yield α ρ) := []

variable {W V σ α β φ ψ ρ υ : Type}

namespace Feed

def known : Feed W α → List α
  | .open known | .acquiring _ _ known => known
  | .ended => []

def current : Feed W α → List α
  | .acquiring item _ _ => [item]
  | _ => []

def taken : Feed W α → Feed W α → List α
  | .open _, .acquiring item _ _ => [item]
  | _, _ => []

def pulled : Feed W α → Feed W α → List α
  | .open [], .acquiring item _ _ => [item]
  | _, _ => []

end Feed

namespace Flight

def refused? : Flight φ α ρ → Option (α × PoolError)
  | .refused item cause => some (item, cause)
  | _ => none

def begun? : Flight φ α ρ → Option (Stint α)
  | .working item ticket seat _ => some ⟨item, ticket, seat⟩
  | _ => none

def leaving? : Flight φ α ρ → Option (α × Nat × ρ)
  | .returning item ticket result .puttingBack => some (item, ticket, result)
  | _ => none

def freeing? : Flight φ α ρ → Option (α × Nat × ρ)
  | .returning item ticket result .freeing => some (item, ticket, result)
  | _ => none

def ended? : Flight φ α ρ × Flight φ α ρ → Option (Stint α × ρ)
  | (.working item ticket seat _, .returning _ _ result _) => some (⟨item, ticket, seat⟩, result)
  | _ => none

/-- The worker has been put back; `seat` is the seat that was added to the idle ones. -/
def returned? (seat : Option Nat) : Flight φ α ρ × Flight φ α ρ → Option (Stint α × ρ)
  | (.returning item ticket result .puttingBack, .returning _ _ _ .freeing) =>
    seat.map fun seat => (⟨item, ticket, seat⟩, result)
  | _ => none

end Flight

namespace Yield

def success? : Yield α ρ → Option (α × ρ)
  | ⟨item, .ok result⟩ => some (item, result)
  | ⟨_, .error _⟩ => none

def failure? : Yield α ρ → Option (α × PoolError)
  | ⟨_, .ok _⟩ => none
  | ⟨item, .error cause⟩ => some (item, cause)

end Yield

def Pool.regained? (p q : Pool) : Option Nat := (q.idle.drop p.idle.length).head?

def Journal.after (j : Journal α ρ) (f g : Schedule W α φ ρ) (p q : Pool) : Journal α ρ where
  pulled := j.pulled ++ f.feed.pulled g.feed
  taken := j.taken ++ f.feed.taken g.feed
  refused := j.refused ++ (g.flights.drop f.flights.length).filterMap Flight.refused?
  begun := j.begun ++ (g.flights.drop f.flights.length).filterMap Flight.begun?
  ended := j.ended ++ (f.flights.zip g.flights).filterMap Flight.ended?
  returned := j.returned ++
    (f.flights.zip g.flights).filterMap (Flight.returned? (p.regained? q))
  yielded := j.yielded

def Schedule.workingSeats (f : Schedule W α φ ρ) : List Nat :=
  (f.flights.filterMap Flight.begun?).map (·.seat)

namespace Traffic

def Anyone (site : Part σ (Site W V)) (_ : Traffic W V σ α φ ρ) (v : Visitor W V σ α φ ρ) : Prop :=
  v = .acquiring .asking ∨ v = .filling .counting ∨ v = .disposing .asking ∨
    ∃ plan items, plan.Proper site ∧ v = .scheduling plan (.ofList items)

/-- How far a stream can have come beside all others at the pool, and its journal. -/
inductive Course (site : Part σ (Site W V)) (of : φ → List Nat) (plan : Schedule.Plan W V σ β ψ υ)
    (items : List β) (first : Traffic W V σ α φ ρ) :
    Traffic W V σ α φ ρ → Schedule W β ψ υ → Journal β υ → Prop where
  | start : Course site of plan items first first (.ofList items) {}
  | go {t f j s g} (course : Course site of plan items first t f j)
      (move : (s, .go g) ∈ Schedule.moves plan f t.state) :
      Course site of plan items first ⟨s, t.visitors⟩ g
        (j.after f g (site.get t.state).pool (site.get s).pool)
  | yield {t f j s y g} (course : Course site of plan items first t f j)
      (move : (s, .done (some y, g)) ∈ Schedule.moves plan f t.state) :
      Course site of plan items first ⟨s, t.visitors⟩ g { j with yielded := j.yielded ++ [y] }
  | others {t f j u} (course : Course site of plan items first t f j)
      (step : Step site of (Anyone site) t u) : Course site of plan items first u f j

end Traffic

end MutationPipeline
