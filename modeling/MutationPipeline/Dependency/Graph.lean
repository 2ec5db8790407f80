/-!
Files and which of them require which. Every edge is kept on both sides. Cycles are allowed.
-/
namespace MutationPipeline.Dependency

structure Node where
  file : String
  dependencies : List Nat := []
  importers : List Nat := []
  deriving DecidableEq, Repr

/-- A graph; its files are known by their place in the order in which they came. -/
structure Graph where
  nodes : Array Node
  deriving DecidableEq, Repr

namespace Graph

def empty : Graph := ⟨#[]⟩

def size (g : Graph) : Nat := g.nodes.size

def indexOf? (g : Graph) (file : String) : Option Nat := g.nodes.findIdx? fun n => n.file = file

def insert (g : Graph) (file : String) : Graph × Nat :=
  match g.indexOf? file with
  | some i => (g, i)
  | none => (⟨g.nodes.push { file }⟩, g.size)

def dependencies (g : Graph) (i : Nat) : List Nat :=
  match g.nodes[i]? with
  | some n => n.dependencies
  | none => []

def importers (g : Graph) (i : Nat) : List Nat :=
  match g.nodes[i]? with
  | some n => n.importers
  | none => []

def addEdge (g : Graph) (source target : Nat) : Graph :=
  if target ∈ g.dependencies source then g
  else
    let nodes := g.nodes.modify source fun n =>
      { n with dependencies := n.dependencies ++ [target] }
    ⟨nodes.modify target fun n => { n with importers := n.importers ++ [source] }⟩

def addEdge? (g : Graph) (source target : Nat) : Option Graph :=
  if source < g.size ∧ target < g.size then some (g.addEdge source target) else none

/-- All that can be reached from a stack of places along edges, among those not yet seen. -/
def reach (edges : Nat → List Nat) (unseen stack : List Nat) : List Nat :=
  match stack with
  | [] => []
  | i :: stack =>
    if i ∈ unseen then i :: reach edges (unseen.erase i) (edges i ++ stack)
    else reach edges unseen stack
termination_by (unseen.length, stack.length)
decreasing_by
  · next h =>
    rw [List.length_erase_of_mem h]
    have := List.length_pos_of_mem h
    exact .left _ _ (by omega)
  · exact .right _ (by simp)

/-- All that a file requires, directly or through others: itself only if it is on a cycle. -/
def allDependencies (g : Graph) (i : Nat) : List Nat :=
  reach g.dependencies (List.range g.size) (g.dependencies i)

def allImporters (g : Graph) (i : Nat) : List Nat :=
  reach g.importers (List.range g.size) (g.importers i)

end Graph

end MutationPipeline.Dependency
