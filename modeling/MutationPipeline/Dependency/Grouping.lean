import MutationPipeline.Dependency.Discovery
import MutationPipeline.Mutant.Basic

/-!
Groups of mutants that can be checked together: no two of one file, and none in a file that
requires another one's file, directly or through others.

The mutants are taken in layers: first the first mutant of every file, then the second of every
file that has one, and so on. Each layer is divided greedily: a group starts with the first mutant
left and takes every later one that goes with all its members. Mutants in files whose dependencies
are not known come last, each on its own.
-/
namespace MutationPipeline.Dependency

structure Placed where
  mutant : Mutant
  file : Nat
  requires : List Nat
  requiredBy : List Nat

namespace Grouping

/-- Goes through the mutants left and takes those that go with the group; `requires` and
`requiredBy` belong to all its members together. Returns the members and the mutants left. -/
def gather (requires requiredBy : List Nat) : List Placed → List Placed × List Placed
  | [] => ([], [])
  | p :: rest =>
    if p.file ∈ requires ∨ p.file ∈ requiredBy then
      let (members, left) := gather requires requiredBy rest
      (members, p :: left)
    else
      let (members, left) := gather (requires ++ p.requires) (requiredBy ++ p.requiredBy) rest
      (p :: members, left)

theorem gatherLeft (requires requiredBy : List Nat) (ps : List Placed) :
    (gather requires requiredBy ps).2.length ≤ ps.length := by
  induction ps generalizing requires requiredBy with
  | nil => simp [gather]
  | cons p rest ih =>
    simp only [gather]
    split
    · exact Nat.succ_le_succ (ih _ _)
    · exact Nat.le_succ_of_le (ih _ _)

def divide (layer : List Placed) : List (List Placed) :=
  match layer with
  | [] => []
  | seed :: rest =>
    have : (gather seed.requires seed.requiredBy rest).2.length ≤ rest.length := gatherLeft _ _ _
    (seed :: (gather seed.requires seed.requiredBy rest).1) ::
      divide (gather seed.requires seed.requiredBy rest).2
termination_by layer.length

def heads (queues : List (List α)) : List α := queues.filterMap List.head?

def tails (queues : List (List α)) : List (List α) := queues.map List.tail

def waiting : List (List α) → Nat
  | [] => 0
  | q :: rest => q.length + waiting rest

theorem waitingTails (queues : List (List α)) :
    waiting queues = waiting (tails queues) + (heads queues).length := by
  induction queues with
  | nil => rfl
  | cons q rest ih =>
    simp only [waiting, tails, heads, List.map_cons, List.filterMap_cons] at ih ⊢
    cases q with
    | nil => simp at ih ⊢; omega
    | cons x q => simp at ih ⊢; omega

/-- The layers of some queues: the first of each, then the second of each that has one, and so
on. -/
def layers (queues : List (List α)) : List (List α) :=
  match h : heads queues with
  | [] => []
  | first :: others =>
    have : waiting (tails queues) < waiting queues := by
      rw [waitingTails queues, h]; simp
    (first :: others) :: layers (tails queues)
termination_by waiting queues

def queues (d : Discovery) (mutants : List Mutant) : List (List Placed) :=
  (List.range d.graph.size).map fun i =>
    match d.graph.nodes[i]? with
    | none => []
    | some node =>
      let hosted := if node.file ∈ d.unresolved then [] else
        mutants.filter fun m => m.fileName = node.file
      if hosted.isEmpty then [] else
        let requires := d.graph.allDependencies i
        let requiredBy := d.graph.allImporters i
        hosted.map fun mutant => ⟨mutant, i, requires, requiredBy⟩

def unresolved (d : Discovery) (mutants : List Mutant) : List Mutant :=
  mutants.filter fun m =>
    (d.graph.indexOf? m.fileName).isNone || d.unresolved.contains m.fileName

def ofDiscovery (d : Discovery) (mutants : List Mutant) : List (List Mutant) :=
  ((layers (queues d mutants)).flatMap divide).map (·.map (·.mutant)) ++
    (unresolved d mutants).map fun m => [m]

def notes (d : Discovery) (mutants : List Mutant) : List Note :=
  match unresolved d mutants with
  | [] => []
  | alone => [.warn ("Could not resolve dependencies of " ++ toString alone.length ++
      " mutant(s); checking them on their own.")]

/-- The groups of some mutants, and what was noted, if no more than `limit` files are reached. -/
def build {m : Type → Type} [Monad m] (resolver : Resolver m) (limit : Nat)
    (mutants : List Mutant) : m (Option (List (List Mutant) × List Note)) := do
  match ← Discovery.ofRoots resolver limit (firsts (mutants.map (·.fileName))) with
  | some d => pure (some (ofDiscovery d mutants, d.notes ++ notes d mutants))
  | none => pure none

end Grouping

namespace Manifest

def fileLimit (manifest : Manifest) (roots : Nat) : Nat :=
  roots + manifest.size + (manifest.entries.map fun e => e.2.length).foldl (· + ·) 0

def groups (manifest : Manifest) (mutants : List Mutant) : List (List Mutant) × List Note :=
  ((Grouping.build (m := Id) manifest.resolve (manifest.fileLimit mutants.length) mutants).run).getD
    (mutants.map fun m => [m], [])

end Manifest

end MutationPipeline.Dependency
