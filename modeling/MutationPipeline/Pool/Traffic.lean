import MutationPipeline.Pool.Schedule

/-!
All that goes on at one pool. Visitors come at any moment, and the step of any of them may be the
next one. A visitor that breaks down or goes away early leaves behind what it held. The pool may be
raised at any moment, and its workers go on with their calls as they like.
-/
namespace MutationPipeline

variable {W V σ α φ ρ : Type}

/-- Somebody at a pool. Who has acquired a worker holds it for a while and then gives it back; a
stream of items goes on until its last result was taken. -/
inductive Visitor (W V σ α φ ρ : Type) where
  | acquiring (a : Acquisition W)
  | holding (ticket seat : Nat)
  | releasing (ticket : Nat) (r : Release)
  | scheduling (plan : Schedule.Plan W V σ α φ ρ) (f : Schedule W α φ ρ)
  | filling (f : Filling W)
  | filled (result : Except PoolError Unit)
  | disposing (d : Disposal W)
  | disposed (result : Except WorkerError Unit)
  | ended

namespace Visitor

def tickets : Visitor W V σ α φ ρ → List Nat
  | .acquiring a => a.tickets
  | .holding ticket _ | .releasing ticket _ => [ticket]
  | .scheduling _ f => f.tickets
  | .disposing d => d.tickets
  | _ => []

def tokens (of : φ → List Nat) : Visitor W V σ α φ ρ → List Nat
  | .acquiring a => a.tokens
  | .scheduling _ f => f.tokens of
  | .filling f => f.tokens
  | .disposing d => d.tokens
  | _ => []

def seats : Visitor W V σ α φ ρ → List Nat
  | .holding _ seat => [seat]
  | .scheduling _ f => f.flights.filterMap fun
    | .working _ _ seat _ => some seat
    | _ => none
  | _ => []

def moves (site : Part σ (Site W V)) : Machine σ (Visitor W V σ α φ ρ) Empty
  | .acquiring a, s =>
    (Acquisition.moves.on site).within .acquiring
      (fun r s => match r with
        | .ok (ticket, seat) => (s, .go (.holding ticket seat))
        | .error _ => (s, .go .ended)) a s
  | .holding ticket _, s => step s (.releasing ticket .puttingBack)
  | .releasing ticket r, s =>
    ((Release.moves ticket).on site).within (.releasing ticket) (fun _ s => (s, .go .ended)) r s
  | .scheduling plan f, s =>
    (Schedule.moves plan).within (.scheduling plan)
      (fun (y, f) s => match y with
        | some _ => (s, .go (.scheduling plan f))
        | none => (s, .go .ended)) f s
  | .filling f, s =>
    (Filling.moves.on site).within .filling
      (fun r s => (site.update (Site.vacate [] f.tokens) s, .go (.filled r))) f s
  | .disposing d, s =>
    (Disposal.moves.on site).within .disposing (fun r s => (s, .go (.disposed r))) d s
  | .filled _, _ | .disposed _, _ | .ended, _ => []

end Visitor

structure Traffic (W V σ α φ ρ : Type) where
  state : σ
  visitors : List (Visitor W V σ α φ ρ) := []

namespace Traffic

inductive Step (site : Part σ (Site W V)) (of : φ → List Nat)
    (welcome : Traffic W V σ α φ ρ → Visitor W V σ α φ ρ → Prop) :
    Traffic W V σ α φ ρ → Traffic W V σ α φ ρ → Prop where
  | enter {t v} (come : welcome t v) : Step site of welcome t ⟨t.state, t.visitors ++ [v]⟩
  | go {t before v after s w} (here : t.visitors = before ++ v :: after)
      (move : (s, .go w) ∈ v.moves site t.state) :
      Step site of welcome t ⟨s, before ++ w :: after⟩
  | breakDown {t before v after s} (here : t.visitors = before ++ v :: after)
      (move : (s, .panicked) ∈ v.moves site t.state) :
      Step site of welcome t
        ⟨site.update (Site.vacate v.tickets (v.tokens of)) s, before ++ .ended :: after⟩
  | leave {t before v after} (here : t.visitors = before ++ v :: after) :
      Step site of welcome t
        ⟨site.update (Site.vacate v.tickets (v.tokens of)) t.state, before ++ .ended :: after⟩
  | grow {t} (n : Nat) :
      Step site of welcome t ⟨site.update (·.withPool (·.grow n)) t.state, t.visitors⟩
  | work {t} (crew : Crew W V) (stays : (site.get t.state).crew.seats.size ≤ crew.seats.size) :
      Step site of welcome t ⟨site.update (fun s => { s with crew }) t.state, t.visitors⟩

inductive Steps (site : Part σ (Site W V)) (of : φ → List Nat)
    (welcome : Traffic W V σ α φ ρ → Visitor W V σ α φ ρ → Prop) :
    Traffic W V σ α φ ρ → Traffic W V σ α φ ρ → Prop where
  | refl (t) : Steps site of welcome t t
  | tail {t u w} (steps : Steps site of welcome t u) (step : Step site of welcome u w) :
      Steps site of welcome t w

def Founding (t : Traffic W V σ α φ ρ) (v : Visitor W V σ α φ ρ) : Prop :=
  v = .filling .counting ∧ ∀ u ∈ t.visitors, ∃ r, u = .filled r

end Traffic

structure Schedule.Plan.Proper (plan : Schedule.Plan W V σ α φ ρ) (site : Part σ (Site W V)) :
    Prop where
  home : plan.site = site
  aloof : ∀ s u item, (u, item) ∈ plan.more s → site.get u = site.get s
  stays : ∀ item seat p c u n, (u, n) ∈ plan.work item seat p c → c.seats.size ≤ u.seats.size

def Traffic.Serving (site : Part σ (Site W V)) (_ : Traffic W V σ α φ ρ)
    (v : Visitor W V σ α φ ρ) : Prop :=
  v = .acquiring .asking ∨ ∃ plan items, plan.Proper site ∧ v = .scheduling plan (.ofList items)

namespace Pool

def checkedOut (p : Pool) : List Nat := p.leases.filterMap (·.seat)

end Pool

end MutationPipeline
