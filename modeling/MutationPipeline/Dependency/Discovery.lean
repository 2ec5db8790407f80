import MutationPipeline.Dependency.Graph
import MutationPipeline.Dependency.Resolver

/-!
The graph of all files that some files require, directly or through others.

Each file is resolved once, depth first and in the order of its dependencies. A file whose
dependencies are not known stays in the graph without any.
-/
namespace MutationPipeline.Dependency

structure Discovery where
  graph : Graph := .empty
  unresolved : List String := []
  expanded : List Nat := []
  notes : List Note := []

namespace Discovery

/-- Adds the files that a file requires; returns their places in order. -/
def link (g : Graph) (source : Nat) : List String → Graph × List Nat
  | [] => (g, [])
  | file :: rest =>
    let (g, target) := g.insert file
    let (g, targets) := link (g.addEdge source target) source rest
    (g, target :: targets)

/-- Takes in what was found out about a file; returns the places to go on with. -/
def absorb (d : Discovery) (i : Nat) (file : String) (r : Resolution) : Discovery × List Nat :=
  let d := { d with expanded := i :: d.expanded, notes := d.notes ++ r.notes }
  match r.outcome with
  | .ok required =>
    let (graph, targets) := link d.graph i required
    ({ d with graph }, targets)
  | .error e =>
    ({ d with
        unresolved := d.unresolved ++ [file]
        notes := d.notes ++
          [.debug ("treating " ++ file ++ " as having no dependencies: " ++ e.message)] }, [])

variable {m : Type → Type} [Monad m]

/-- Resolves what is on the stack and all it leads to. `limit` bounds the number of files that are
resolved; there is no result if they are more. -/
def explore (resolver : Resolver m) (limit : Nat) (stack : List Nat) (d : Discovery) :
    m (Option Discovery) :=
  match stack with
  | [] => pure (some d)
  | i :: stack =>
    if i ∈ d.expanded then explore resolver limit stack d
    else match limit, d.graph.nodes[i]? with
      | limit + 1, some node => do
        let r ← resolver node.file
        let (d, next) := d.absorb i node.file r
        explore resolver limit (next ++ stack) d
      | _, _ => pure none
termination_by (limit, stack.length)
decreasing_by
  · exact .right _ (by simp)
  · exact .left _ _ (Nat.lt_succ_self _)

def exploreAll (resolver : Resolver m) (limit : Nat) : List String → Discovery →
    m (Option Discovery)
  | [], d => pure (some d)
  | root :: rest, d => do
    let (graph, i) := d.graph.insert root
    match ← explore resolver (limit - d.expanded.length) [i] { d with graph } with
    | some d => exploreAll resolver limit rest d
    | none => pure none

def ofRoots (resolver : Resolver m) (limit : Nat) (roots : List String) : m (Option Discovery) :=
  exploreAll resolver limit roots {}

end Discovery

end MutationPipeline.Dependency
