/-!
Machines: activities that go on step by step beside others.

A machine is in a phase, which holds all that it knows by itself, and works on a state that it
shares with other machines. Its moves are the steps it can take next; without a move it has to
wait until others have changed the state. A larger machine is put together from smaller ones by
keeping their phases in its own.
-/
namespace MutationPipeline

inductive Next (φ ρ : Type) where
  | go (phase : φ)
  | done (result : ρ)
  | panicked

/-- The moves of an activity in each of its phases, the one to prefer first. -/
abbrev Machine (σ φ ρ : Type) := φ → σ → List (σ × Next φ ρ)

/-- A part of a state that can be looked at and replaced. -/
structure Part (τ σ : Type) where
  get : τ → σ
  set : σ → τ → τ

namespace Part

def Lawful (p : Part τ σ) : Prop := ∀ s t, p.get (p.set s t) = s

def whole : Part σ σ := ⟨id, fun s _ => s⟩

def update (p : Part τ σ) (f : σ → σ) (t : τ) : τ := p.set (f (p.get t)) t

def inside (p : Part τ σ) (q : Part υ τ) : Part υ σ where
  get u := p.get (q.get u)
  set s u := q.set (p.set s (q.get u)) u

end Part

namespace Machine

/-- The moves of a machine as moves of a larger one. `embed` says which phase of the larger one
it is in as long as it goes on, `after` what comes of its result. -/
def within (m : Machine σ φ ρ) (embed : φ → φ') (after : ρ → σ → σ × Next φ' ρ') (p : φ) (s : σ) :
    List (σ × Next φ' ρ') :=
  (m p s).map fun
    | (s, .go p) => (s, .go (embed p))
    | (s, .done r) => after r s
    | (s, .panicked) => (s, .panicked)

def on (part : Part τ σ) (m : Machine σ φ ρ) : Machine τ φ ρ := fun p t =>
  (m p (part.get t)).map fun (s, n) => (part.set s t, n)

end Machine

def step (s : σ) (p : φ) : List (σ × Next φ ρ) := [(s, .go p)]

def finish (s : σ) (r : ρ) : List (σ × Next φ ρ) := [(s, .done r)]

/-- One of several activities that are waited for together. -/
inductive Member (φ α : Type) where
  | running (phase : φ)
  | ended (result : α)

namespace Member

def results? : List (Member φ α) → Option (List α)
  | [] => some []
  | .ended x :: rest => (results? rest).map (x :: ·)
  | .running _ :: _ => none

/-- The moves of several activities beside each other. The first failure ends them all, else they
end when all have ended, with their results in the order of the activities. -/
def moves (m : Machine σ φ (Except ε α)) (members : List (Member φ α)) (s : σ) :
    List (σ × Next (List (Member φ α)) (Except ε (List α))) :=
  match results? members with
  | some xs => finish s (.ok xs)
  | none => each [] members
where
  each (before : List (Member φ α)) :
      List (Member φ α) → List (σ × Next (List (Member φ α)) (Except ε (List α)))
    | [] => []
    | .ended x :: rest => each (before ++ [.ended x]) rest
    | .running p :: rest =>
      m.within (fun p => before ++ .running p :: rest)
        (fun r s => match r with
          | .ok x => (s, .go (before ++ .ended x :: rest))
          | .error e => (s, .done (.error e))) p s ++
        each (before ++ [.running p]) rest

def phases (members : List (Member φ α)) : List φ :=
  members.filterMap fun
    | .running p => some p
    | .ended _ => none

end Member

end MutationPipeline
