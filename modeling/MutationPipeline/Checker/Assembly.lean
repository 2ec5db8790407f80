import MutationPipeline.Mutant.Basic
import MutationPipeline.Log
import MutationPipeline.Pipeline.Error

/-!
Putting mutants together as a checker grouped them.

A checker names mutants in its groups by their ids. Each mutant of the batch goes to the first
place where it is named; a second mention is noted and ignored, a group that has no members left is
dropped, and mutants that are named nowhere follow in the order of the batch, each on its own. An
id that is not in the batch is an error.
-/
namespace MutationPipeline.Assembly

def repeatNote (checker id : String) : Note :=
  .warn (checker ++ " grouped mutant " ++ id ++ " more than once; checking it once.")

def leftNote (checker : String) (n : Nat) : Note :=
  .warn (checker ++ " left " ++ toString n ++
    " mutant(s) out of its groups; checking them on their own.")

def lastOfEach : List CoveredMutant → List CoveredMutant
  | [] => []
  | m :: rest => if rest.any fun n => n.id = m.id then lastOfEach rest else m :: lastOfEach rest

structure Progress where
  pending : List CoveredMutant
  assigned : List String := []
  notes : List Note := []

def placeGroup (checker : String) : List Mutant → Progress →
    Except RunError (List CoveredMutant) × Progress
  | [], p => (.ok [], p)
  | m :: rest, p =>
    match p.pending.find? fun n => n.id = m.id with
    | some full =>
      let (members, p) := placeGroup checker rest
        { p with
          pending := p.pending.filter fun n => n.id ≠ m.id
          assigned := m.id :: p.assigned }
      (members.map (full :: ·), p)
    | none =>
      if m.id ∈ p.assigned then
        placeGroup checker rest { p with notes := p.notes ++ [repeatNote checker m.id] }
      else (.error (.unknownMember checker m.id), p)

def placeGroups (checker : String) : List (List Mutant) → Progress →
    Except RunError (List (List CoveredMutant)) × Progress
  | [], p => (.ok [], p)
  | g :: rest, p =>
    match placeGroup checker g p with
    | (.error e, p) => (.error e, p)
    | (.ok members, p) =>
      let (groups, p) := placeGroups checker rest p
      (groups.map fun gs => if members.isEmpty then gs else members :: gs, p)

def leftOver (batch pending : List CoveredMutant) : List CoveredMutant :=
  match batch with
  | [] => []
  | m :: rest =>
    match pending.find? fun n => n.id = m.id with
    | some full => full :: leftOver rest (pending.filter fun n => n.id ≠ m.id)
    | none => leftOver rest pending

def assemble (checker : String) (batch : List CoveredMutant) (groups : List (List Mutant)) :
    Except RunError (List (List CoveredMutant)) × List Note :=
  match placeGroups checker groups { pending := lastOfEach batch } with
  | (.error e, p) => (.error e, p.notes)
  | (.ok placed, p) =>
    if p.pending.isEmpty then (.ok placed, p.notes)
    else
      (.ok (placed ++ (leftOver batch p.pending).map fun m => [m]),
        p.notes ++ [leftNote checker p.pending.length])

end MutationPipeline.Assembly
