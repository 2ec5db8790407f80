import Mathlib.Data.List.Chain
import Mathlib.Data.List.Nodup
import Mathlib.Logic.Relation
import MutationPipeline.Dependency.Graph
import MutationPipeline.Dependency.Specifier
import MutationPipeline.Keyed

/-! Reaching along edges. A search with a stack finds exactly what one or more edges lead to,
on cycles too, because whatever it leaves out it has met before. What leads back to where it starts
does so on a way that meets no place twice. -/
namespace MutationPipeline.Dependency.Graph
open Relation

def Edge (edges : Nat → List Nat) (i j : Nat) : Prop := j ∈ edges i

theorem reachSound {edges unseen stack j} (found : j ∈ reach edges unseen stack) :
    ∃ i ∈ stack, ReflTransGen (Edge edges) i j := by
  fun_induction reach edges unseen stack with
  | case1 => simp at found
  | case2 unseen i stack member ih =>
    rcases List.mem_cons.mp found with rfl | rest
    · exact ⟨j, List.mem_cons_self, .refl⟩
    · obtain ⟨k, hk, path⟩ := ih rest
      rcases List.mem_append.mp hk with edge | later
      · exact ⟨i, List.mem_cons_self, .head edge path⟩
      · exact ⟨k, List.mem_cons_of_mem _ later, path⟩
  | case3 unseen i stack member ih =>
    obtain ⟨k, hk, path⟩ := ih found
    exact ⟨k, List.mem_cons_of_mem _ hk, path⟩

theorem reachStack {edges unseen stack j} (distinct : unseen.Nodup) (onStack : j ∈ stack)
    (fresh : j ∈ unseen) : j ∈ reach edges unseen stack := by
  fun_induction reach edges unseen stack with
  | case1 => simp at onStack
  | case2 unseen i stack member ih =>
    by_cases same : j = i
    · exact same ▸ List.mem_cons_self
    · have later : j ∈ stack := (List.mem_cons.mp onStack).resolve_left same
      exact List.mem_cons_of_mem _ (ih (distinct.erase i) (List.mem_append_right _ later)
        ((List.mem_erase_of_ne same).mpr fresh))
  | case3 unseen i stack member ih =>
    have different : j ≠ i := fun same => member (same ▸ fresh)
    exact ih distinct ((List.mem_cons.mp onStack).resolve_left different) fresh

/- What was seen before is closed under edges up to the stack; then the seen and the found
together are closed under edges. -/
theorem reachClosed {edges unseen stack i j} (distinct : unseen.Nodup)
    (closed : ∀ i, i ∉ unseen → ∀ j ∈ edges i, j ∈ unseen → j ∈ stack)
    (met : i ∉ unseen ∨ i ∈ reach edges unseen stack) (edge : j ∈ edges i) (fresh : j ∈ unseen) :
    j ∈ reach edges unseen stack := by
  fun_induction reach edges unseen stack with
  | case1 unseen =>
    rcases met with old | found
    · exact closed i old j edge fresh
    · simp at found
  | case2 unseen k stack member ih =>
    by_cases same : j = k
    · exact same ▸ List.mem_cons_self
    · refine List.mem_cons_of_mem _ (ih (distinct.erase k) ?_ ?_
        ((List.mem_erase_of_ne same).mpr fresh))
      · intro a old b edgeB freshB
        have still := List.mem_of_mem_erase freshB
        by_cases top : a = k
        · exact List.mem_append_left _ (top ▸ edgeB)
        · have seen : a ∉ unseen := fun new => old ((List.mem_erase_of_ne top).mpr new)
          rcases List.mem_cons.mp (closed a seen b edgeB still) with first | later
          · exact absurd (first ▸ freshB) distinct.not_mem_erase
          · exact List.mem_append_right _ later
      · rcases met with old | found
        · exact .inl fun new => old (List.mem_of_mem_erase new)
        · rcases List.mem_cons.mp found with rfl | rest
          · exact .inl distinct.not_mem_erase
          · exact .inr rest
  | case3 unseen k stack member ih =>
    refine ih distinct ?_ met fresh
    intro a old b edgeB freshB
    rcases List.mem_cons.mp (closed a old b edgeB freshB) with rfl | later
    · exact absurd freshB member
    · exact later

/- The whole search from the targets of one place, when no edge leads out of the first `n`. -/
theorem memReach {edges : Nat → List Nat} {n i j : Nat}
    (bounded : ∀ a, ∀ b ∈ edges a, a < n ∧ b < n) :
    j ∈ reach edges (List.range n) (edges i) ↔ TransGen (Edge edges) i j := by
  constructor
  · intro found
    obtain ⟨k, edge, path⟩ := reachSound found
    exact TransGen.head' edge path
  · intro path
    have outside : ∀ a, a ∉ List.range n → ∀ b ∈ edges a, b ∈ List.range n → b ∈ edges i :=
      fun a out b edge _ => absurd (List.mem_range.mpr (bounded a b edge).1) out
    induction path with
    | single edge =>
      exact reachStack List.nodup_range edge (List.mem_range.mpr (bounded _ _ edge).2)
    | tail _ edge ih =>
      exact reachClosed List.nodup_range outside (.inr ih) edge
        (List.mem_range.mpr (bounded _ _ edge).2)

theorem reachUnseen {edges unseen stack j} (found : j ∈ reach edges unseen stack) : j ∈ unseen := by
  fun_induction reach edges unseen stack with
  | case1 => simp at found
  | case2 unseen i stack member ih =>
    rcases List.mem_cons.mp found with rfl | rest
    · exact member
    · exact List.mem_of_mem_erase (ih rest)
  | case3 unseen i stack _ ih => exact ih found

theorem reachOnce {edges unseen stack} (distinct : unseen.Nodup) :
    (reach edges unseen stack).Nodup := by
  fun_induction reach edges unseen stack with
  | case1 => exact .nil
  | case2 unseen i stack _ ih =>
    exact List.nodup_cons.mpr
      ⟨fun again => distinct.not_mem_erase (reachUnseen again), ih (distinct.erase i)⟩
  | case3 unseen i stack _ ih => exact ih distinct

section Ways
variable {α : Type} {r : α → α → Prop} {a b : α}

/- By the first edge: a place that the rest of the way meets again is where the way can start. -/
theorem simpleWay (path : TransGen r a b) :
    ∃ between, (a :: between).Nodup ∧ b ∉ between ∧ (a :: (between ++ [b])).IsChain r := by
  induction path using TransGen.head_induction_on with
  | single edge => exact ⟨[], by simp, by simp, by simpa using edge⟩
  | @head a c edge _ ih =>
    obtain ⟨between, distinct, inner, chain⟩ := ih
    by_cases met : a ∈ c :: between
    · obtain ⟨front, back, split⟩ := List.append_of_mem met
      have later : back.Sublist between := by
        cases front with
        | nil => exact (List.cons.inj split).2 ▸ .refl _
        | cons d front =>
          rw [(List.cons.inj split).2]
          exact (List.sublist_cons_self a back).trans (List.sublist_append_right front _)
      rw [split] at distinct
      rw [← List.cons_append, split, List.append_assoc] at chain
      exact ⟨back, (List.nodup_append.mp distinct).2.1, fun last => inner (later.subset last),
        chain.right_of_append⟩
    · by_cases last : b = c
      · exact ⟨[], by simp, by simp, by simpa [last] using edge⟩
      · refine ⟨c :: between, List.nodup_cons.mpr ⟨met, distinct⟩, ?_, .cons_cons edge chain⟩
        simp [last, inner]

theorem chainPath {between : List α} (chain : (a :: (between ++ [b])).IsChain r) :
    TransGen r a b := by
  cases between with
  | nil => exact .single (by simpa using chain)
  | cons c rest =>
    obtain ⟨edge, chain⟩ := List.isChain_cons_cons.mp chain
    refine TransGen.head' edge (List.relationReflTransGen_of_exists_isChain_cons _ chain ?_)
    simp

end Ways

/-- A cycle through a place: edges lead from it over places that differ back to it. With no place
between, the edge is a loop. -/
def OnCycle (edges : Nat → List Nat) (i : Nat) : Prop :=
  ∃ between, (i :: between).Nodup ∧ (i :: (between ++ [i])).IsChain (Edge edges)

theorem onCycleIff {edges : Nat → List Nat} {i : Nat} :
    OnCycle edges i ↔ TransGen (Edge edges) i i := by
  constructor
  · rintro ⟨_, _, chain⟩
    exact chainPath chain
  · intro path
    obtain ⟨between, distinct, _, chain⟩ := simpleWay path
    exact ⟨between, distinct, chain⟩

end MutationPipeline.Dependency.Graph

/-! Graphs as they are built: each file has one place, edges lead to places that are there, and
every edge is kept on both sides. What a file requires and what requires it are then two views of
one relation. -/
namespace MutationPipeline.Dependency.Graph
open Relation

def file? (g : Graph) (i : Nat) : Option String := g.nodes[i]?.map (·.file)

structure Linked (g : Graph) : Prop where
  oneToOne : ∀ {i j f}, g.file? i = some f → g.file? j = some f → i = j
  target : ∀ {i j}, j ∈ g.dependencies i → j < g.size
  mirrored : ∀ {i j}, j ∈ g.dependencies i ↔ i ∈ g.importers j

structure Extends (g h : Graph) : Prop where
  size : g.size ≤ h.size
  files : ∀ {i f}, g.file? i = some f → h.file? i = some f

theorem Extends.refl (g : Graph) : g.Extends g := ⟨Nat.le_refl _, id⟩

theorem Extends.trans {g h k : Graph} (first : g.Extends h) (second : h.Extends k) :
    g.Extends k := ⟨Nat.le_trans first.size second.size, fun known => second.files (first.files known)⟩

theorem file?_lt {g : Graph} {i f} (known : g.file? i = some f) : i < g.size := by
  obtain ⟨n, found, _⟩ := Option.map_eq_some_iff.mp known
  exact (Array.getElem?_eq_some_iff.mp found).choose

theorem file?_of_lt {g : Graph} {i} (inside : i < g.size) : ∃ f, g.file? i = some f :=
  ⟨_, by rw [file?, Array.getElem?_eq_getElem inside]; rfl⟩

theorem Extends.same {g h : Graph} (extended : g.Extends h) {i} (inside : i < g.size) :
    h.file? i = g.file? i := by
  obtain ⟨f, known⟩ := file?_of_lt inside
  rw [known, extended.files known]

theorem sourceInside {g : Graph} {i j} (edge : j ∈ g.dependencies i) : i < g.size := by
  unfold dependencies at edge
  split at edge
  · next found => exact (Array.getElem?_eq_some_iff.mp found).choose
  · simp at edge

theorem emptyLinked : Linked .empty where
  oneToOne known := by simp [file?, empty] at known
  target edge := by simp [dependencies, empty] at edge
  mirrored := by simp [dependencies, importers, empty]

theorem indexOfFile {g : Graph} {file i} (found : g.indexOf? file = some i) :
    g.file? i = some file := by
  obtain ⟨inside, same, _⟩ := Array.findIdx?_eq_some_iff_getElem.mp found
  rw [file?, Array.getElem?_eq_getElem inside]
  simpa using same

theorem indexOfNone {g : Graph} {file} (absent : g.indexOf? file = none) (i : Nat) :
    g.file? i ≠ some file := by
  intro known
  obtain ⟨n, found, same⟩ := Option.map_eq_some_iff.mp known
  have different := Array.findIdx?_eq_none_iff.mp absent n (Array.mem_of_getElem? found)
  simp [same] at different

theorem indexOfKnown {g : Graph} (linked : g.Linked) {file i} (known : g.file? i = some file) :
    g.indexOf? file = some i := by
  cases found : g.indexOf? file with
  | none => exact absurd known (indexOfNone found i)
  | some j => rw [linked.oneToOne (indexOfFile found) known]

theorem indexOfIff {g : Graph} (linked : g.Linked) {file i} :
    g.indexOf? file = some i ↔ g.file? i = some file :=
  ⟨indexOfFile, indexOfKnown linked⟩

def files (g : Graph) : List String := g.nodes.toList.map (·.file)

theorem filesAt (g : Graph) (i : Nat) : g.files[i]? = g.file? i := by
  rw [files, List.getElem?_map, Array.getElem?_toList, file?]

theorem memFiles {g : Graph} {f : String} : f ∈ g.files ↔ ∃ i, g.file? i = some f := by
  simp only [List.mem_iff_getElem?, filesAt]

theorem Linked.filesOnce {g : Graph} (linked : g.Linked) : g.files.Nodup := by
  rw [List.nodup_iff_getElem?_ne_getElem?]
  intro i j before inside same
  obtain ⟨f, there⟩ : ∃ f, g.files[j]? = some f := ⟨_, List.getElem?_eq_getElem inside⟩
  rw [filesAt, filesAt] at same
  rw [filesAt] at there
  exact absurd (linked.oneToOne (same.trans there) there) (Nat.ne_of_lt before)

section Insert
variable {g : Graph} {file : String}

theorem insertFile : (g.insert file).1.file? (g.insert file).2 = some file := by
  unfold insert
  split
  · next found => exact indexOfFile found
  · simp [file?, size]

theorem insertExtends : g.Extends (g.insert file).1 := by
  unfold insert
  split
  · exact .refl g
  · refine ⟨by simp [size], fun {i f} known => ?_⟩
    have inside : i < g.nodes.size := file?_lt known
    simpa [file?, Array.getElem?_push, Nat.ne_of_lt inside] using known

theorem insertOld {i : Nat} (inside : i < (g.insert file).1.size) :
    i < g.size ∨ i = (g.insert file).2 := by
  unfold insert at inside ⊢
  split at inside
  · exact .inl inside
  · simp only [size, Array.size_push] at inside ⊢
    omega

theorem insertKnown (linked : g.Linked) {i : Nat} (known : g.file? i = some file) :
    g.insert file = (g, i) := by
  rw [insert, indexOfKnown linked known]

theorem insertFileIff {i : Nat} {f : String} : (g.insert file).1.file? i = some f ↔
    g.file? i = some f ∨ (i = (g.insert file).2 ∧ f = file) := by
  constructor
  · intro known
    rcases insertOld (file?_lt known) with old | rfl
    · exact .inl ((insertExtends.same old).symm.trans known)
    · exact .inr ⟨rfl, Option.some.inj (known.symm.trans insertFile)⟩
  · rintro (known | ⟨rfl, rfl⟩)
    · exact insertExtends.files known
    · exact insertFile

theorem insertFiles :
    (g.insert file).1.files = if file ∈ g.files then g.files else g.files ++ [file] := by
  unfold insert
  split
  · next i found => rw [if_pos (memFiles.mpr ⟨i, indexOfFile found⟩)]
  · next absent =>
    have new : file ∉ g.files := fun member =>
      (memFiles.mp member).elim (indexOfNone absent)
    rw [if_neg new]
    simp [files]

theorem insertDependencies (i : Nat) : (g.insert file).1.dependencies i = g.dependencies i := by
  unfold insert
  split
  · rfl
  · by_cases last : i = g.nodes.size
    · simp [dependencies, last]
    · simp [dependencies, Array.getElem?_push, last]

theorem insertImporters (i : Nat) : (g.insert file).1.importers i = g.importers i := by
  unfold insert
  split
  · rfl
  · by_cases last : i = g.nodes.size
    · simp [importers, last]
    · simp [importers, Array.getElem?_push, last]

theorem insertOneToOne (linked : g.Linked) {i j f} (first : (g.insert file).1.file? i = some f)
    (second : (g.insert file).1.file? j = some f) : i = j := by
  cases found : g.indexOf? file with
  | some k =>
    simp only [insert, found] at first second
    exact linked.oneToOne first second
  | none =>
    simp only [insert, found, file?, Array.getElem?_push] at first second
    split at first <;> split at second
    · omega
    · next last _ =>
      have same : file = f := by simpa using first
      exact absurd (same ▸ second) (indexOfNone found j)
    · next _ last =>
      have same : file = f := by simpa using second
      exact absurd (same ▸ first) (indexOfNone found i)
    · exact linked.oneToOne first second

theorem insertLinked (linked : g.Linked) : (g.insert file).1.Linked where
  oneToOne := insertOneToOne linked
  target {i j} edge := by
    rw [insertDependencies] at edge
    exact Nat.lt_of_lt_of_le (linked.target edge) insertExtends.size
  mirrored := by
    intro i j
    rw [insertDependencies, insertImporters]
    exact linked.mirrored

end Insert

section AddEdge
variable {g : Graph} {a b : Nat}

theorem addEdgeNode (fresh : b ∉ g.dependencies a) (i : Nat) :
    (g.addEdge a b).nodes[i]? = g.nodes[i]?.map fun n =>
      { n with
        dependencies := if i = a then n.dependencies ++ [b] else n.dependencies
        importers := if i = b then n.importers ++ [a] else n.importers } := by
  simp only [addEdge, if_neg fresh, Array.getElem?_modify, eq_comm (a := i)]
  split <;> split <;> cases g.nodes[i]? <;> rfl

theorem addEdgeFile (i : Nat) : (g.addEdge a b).file? i = g.file? i := by
  by_cases present : b ∈ g.dependencies a
  · rw [addEdge, if_pos present]
  · rw [file?, addEdgeNode present, Option.map_map]
    rfl

theorem addEdgeFiles : (g.addEdge a b).files = g.files :=
  List.ext_getElem? fun i => by rw [filesAt, filesAt, addEdgeFile]

theorem addEdgeSize : (g.addEdge a b).size = g.size := by
  unfold addEdge size
  split <;> simp

theorem addEdgeExtends : g.Extends (g.addEdge a b) :=
  ⟨Nat.le_of_eq addEdgeSize.symm, fun known => by rwa [addEdgeFile]⟩

theorem addEdgeTargets (inside : a < g.size) (i : Nat) : (g.addEdge a b).dependencies i =
    if a = i then
      if b ∈ g.dependencies i then g.dependencies i else g.dependencies i ++ [b]
    else g.dependencies i := by
  by_cases present : b ∈ g.dependencies a
  · rw [addEdge, if_pos present]
    split
    · next same => rw [if_pos (same ▸ present)]
    · rfl
  · split
    · next same =>
      subst same
      have there : g.nodes[a]? = some g.nodes[a] := Array.getElem?_eq_getElem inside
      rw [if_neg present]
      simp [dependencies, addEdgeNode present, there]
    · next other =>
      simp only [dependencies, addEdgeNode present]
      cases g.nodes[i]? <;> simp [Ne.symm other]

theorem addEdgeDependencies (inside : a < g.size) {i j : Nat} :
    j ∈ (g.addEdge a b).dependencies i ↔ j ∈ g.dependencies i ∨ (i = a ∧ j = b) := by
  rw [addEdgeTargets inside]
  split
  · next same =>
    subst same
    split
    · next present => exact ⟨.inl, fun edge => edge.elim id fun new => new.2 ▸ present⟩
    · simp
  · next other => simp [Ne.symm other]

theorem addEdgeSources (linked : g.Linked) (inside : b < g.size) (i : Nat) :
    (g.addEdge a b).importers i =
      if b = i then
        if a ∈ g.importers i then g.importers i else g.importers i ++ [a]
      else g.importers i := by
  by_cases present : b ∈ g.dependencies a
  · rw [addEdge, if_pos present]
    split
    · next same => rw [if_pos (same ▸ linked.mirrored.mp present)]
    · rfl
  · split
    · next same =>
      subst same
      have there : g.nodes[b]? = some g.nodes[b] := Array.getElem?_eq_getElem inside
      rw [if_neg (mt linked.mirrored.mpr present)]
      simp [importers, addEdgeNode present, there]
    · next other =>
      simp only [importers, addEdgeNode present]
      cases g.nodes[i]? <;> simp [Ne.symm other]

theorem addEdgeImporters (linked : g.Linked) (inside : b < g.size) {i j : Nat} :
    i ∈ (g.addEdge a b).importers j ↔ i ∈ g.importers j ∨ (i = a ∧ j = b) := by
  rw [addEdgeSources linked inside]
  split
  · next same =>
    subst same
    split
    · next present => exact ⟨.inl, fun edge => edge.elim id fun new => new.1 ▸ present⟩
    · simp
  · next other => simp [Ne.symm other]

theorem addEdgeLinked (linked : g.Linked) (source : a < g.size) (target : b < g.size) :
    (g.addEdge a b).Linked where
  oneToOne first second := by
    rw [addEdgeFile] at first second
    exact linked.oneToOne first second
  target edge := by
    rw [addEdgeSize]
    rcases (addEdgeDependencies source).mp edge with old | ⟨_, rfl⟩
    · exact linked.target old
    · exact target
  mirrored {i j} := by
    rw [addEdgeDependencies source, addEdgeImporters linked target, linked.mirrored]

end AddEdge

theorem memAllDependencies {g : Graph} (linked : g.Linked) {i j : Nat} :
    j ∈ g.allDependencies i ↔ TransGen (Edge g.dependencies) i j :=
  memReach fun _ _ edge => ⟨sourceInside edge, linked.target edge⟩

theorem memAllImporters {g : Graph} (linked : g.Linked) {i j : Nat} :
    j ∈ g.allImporters i ↔ TransGen (Edge g.dependencies) j i := by
  have reversed : Edge g.importers = Function.swap (Edge g.dependencies) := by
    funext a b
    exact propext linked.mirrored.symm
  unfold allImporters
  rw [memReach fun a b edge => ⟨linked.target (linked.mirrored.mpr edge),
    sourceInside (linked.mirrored.mpr edge)⟩, reversed, transGen_swap]

end MutationPipeline.Dependency.Graph

/-! Graphs that are built call by call. What a graph holds is told by the calls: its files are those
that were inserted, and both lists of a place hold the edges that were recorded, each once and in the
order in which they came. So names and places go together one to one, the lists mirror each other, and
the two closures are converses. -/
namespace MutationPipeline.Dependency.Graph
open Relation

inductive Call where
  | insert (file : String)
  | addEdge (source target : Nat)
  deriving DecidableEq, Repr

namespace Call

def file? : Call → Option String
  | .insert file => some file
  | .addEdge _ _ => none

def target? (i : Nat) : Call → Option Nat
  | .insert _ => none
  | .addEdge source target => if source = i then some target else none

def source? (i : Nat) : Call → Option Nat
  | .insert _ => none
  | .addEdge source target => if target = i then some source else none

variable {calls : List Call} {i j : Nat}

theorem memTargets : j ∈ calls.filterMap (target? i) ↔ .addEdge i j ∈ calls := by
  have only : ∀ c : Call, c.target? i = some j ↔ c = .addEdge i j := by
    intro c
    cases c <;> simp [target?]
  simp only [List.mem_filterMap, only, exists_eq_right]

end Call

/-- A graph and what its callers have learnt of it. -/
structure Building where
  graph : Graph := .empty
  places : List Nat := []
  index : Keyed Nat := .empty

namespace Building

def inserted (b : Building) (file : String) : Building where
  graph := (b.graph.insert file).1
  places := b.places ++ [(b.graph.insert file).2]
  index :=
    if b.index.contains file then b.index else b.index.insert file (b.graph.insert file).2

def call (b : Building) : Call → Option Building
  | .insert file => some (b.inserted file)
  | .addEdge source target => (b.graph.addEdge? source target).map fun graph => { b with graph }

def make (calls : List Call) : Option Building := calls.foldlM call {}

/- What the calls so far tell of a graph. -/
structure Recounted (calls : List Call) (b : Building) : Prop where
  linked : b.graph.Linked
  files : b.graph.files = firsts (calls.filterMap Call.file?)
  answers : b.places.map b.graph.file? = (calls.filterMap Call.file?).map some
  index : ∀ {f i}, b.index.get? f = some i ↔ b.graph.file? i = some f
  dependencies : ∀ i, b.graph.dependencies i = firsts (calls.filterMap (Call.target? i))
  importers : ∀ i, b.graph.importers i = firsts (calls.filterMap (Call.source? i))

theorem startRecounted : Recounted [] {} where
  linked := emptyLinked
  files := rfl
  answers := rfl
  index := by simp [Keyed.get?, Keyed.empty, file?, Graph.empty]
  dependencies i := by simp [Graph.dependencies, Graph.empty, firsts]
  importers i := by simp [Graph.importers, Graph.empty, firsts]

variable {calls : List Call} {b after : Building} {file : String}

theorem Recounted.answered (kept : Recounted calls b) {p : Nat} (member : p ∈ b.places) :
    ∃ f, b.graph.file? p = some f := by
  have named := List.mem_map_of_mem (f := b.graph.file?) member
  rw [kept.answers] at named
  obtain ⟨f, -, known⟩ := List.mem_map.mp named
  exact ⟨f, known.symm⟩

theorem Recounted.insertIndex (kept : Recounted calls b) {f : String} {i : Nat} :
    (b.inserted file).index.get? f = some i ↔ (b.inserted file).graph.file? i = some f := by
  simp only [inserted, insertFileIff]
  split
  · next noted =>
    obtain ⟨k, found⟩ := Option.isSome_iff_exists.mp noted
    have known := kept.index.mp found
    rw [kept.index, insertKnown kept.linked known]
    refine ⟨.inl, fun either => either.elim id ?_⟩
    rintro ⟨rfl, rfl⟩
    exact known
  · next new =>
    have absent : b.graph.file? i ≠ some file := fun known =>
      new (Option.isSome_iff_exists.mpr ⟨i, kept.index.mpr known⟩)
    rw [Keyed.getInsert]
    by_cases same : f = file
    · subst same
      simp [absent, eq_comm]
    · simp [same, kept.index]

theorem Recounted.insert (kept : Recounted calls b) :
    Recounted (calls ++ [.insert file]) (b.inserted file) := by
  refine ⟨insertLinked kept.linked, ?_, ?_, kept.insertIndex, fun i => ?_, fun i => ?_⟩
  · simp only [inserted, insertFiles, kept.files, List.filterMap_append]
    exact (firstsSnoc _ file).symm
  · have stay : b.places.map (b.graph.insert file).1.file? = b.places.map b.graph.file? := by
      refine List.map_congr_left fun p member => ?_
      obtain ⟨f, known⟩ := kept.answered member
      rw [known, insertExtends.files known]
    simp only [inserted, List.map_append, stay, kept.answers, List.filterMap_append]
    simp [insertFile, Call.file?]
  · rw [inserted, insertDependencies, kept.dependencies, List.filterMap_append,
      List.filterMap_cons_none rfl, List.filterMap_nil, List.append_nil]
  · rw [inserted, insertImporters, kept.importers, List.filterMap_append,
      List.filterMap_cons_none rfl, List.filterMap_nil, List.append_nil]

theorem Recounted.addEdge (kept : Recounted calls b) {source target : Nat} (first : source < b.graph.size)
    (second : target < b.graph.size) :
    Recounted (calls ++ [.addEdge source target])
      { b with graph := b.graph.addEdge source target } := by
  have named : (calls ++ [Call.addEdge source target]).filterMap Call.file? =
      calls.filterMap Call.file? := by simp [Call.file?]
  have stay : (b.graph.addEdge source target).file? = b.graph.file? := funext addEdgeFile
  refine ⟨addEdgeLinked kept.linked first second, ?_, ?_, ?_, fun i => ?_, fun i => ?_⟩
  · rw [named, addEdgeFiles, kept.files]
  · rw [named, stay, kept.answers]
  · rw [stay]
    exact kept.index
  · rw [addEdgeTargets first, kept.dependencies, List.filterMap_append]
    split
    · next here => simp [Call.target?, here, firstsSnoc]
    · next other => simp [Call.target?, other]
  · rw [addEdgeSources kept.linked second, kept.importers, List.filterMap_append]
    split
    · next here => simp [Call.source?, here, firstsSnoc]
    · next other => simp [Call.source?, other]

theorem Recounted.call (kept : Recounted calls b) {c : Call} (made : b.call c = some after) :
    Recounted (calls ++ [c]) after := by
  cases c with
  | insert file =>
    cases made
    exact kept.insert
  | addEdge source target =>
    obtain ⟨graph, recorded, rfl⟩ := Option.map_eq_some_iff.mp made
    rw [addEdge?] at recorded
    split at recorded
    · next inside =>
      cases recorded
      exact kept.addEdge inside.1 inside.2
    · cases recorded

theorem makeRecounted (made : make calls = some b) : Recounted calls b := by
  induction calls using List.reverseRecOn generalizing b with
  | nil =>
    cases made
    exact startRecounted
  | append_singleton calls c ih =>
    rw [make, List.foldlM_append] at made
    obtain ⟨before, first, last⟩ := Option.bind_eq_some_iff.mp made
    exact (ih first).call (by simpa using last)

theorem Recounted.memPlaces (kept : Recounted calls b) (p : Nat) : p ∈ b.places ↔ p < b.graph.size := by
  constructor
  · intro member
    obtain ⟨_, known⟩ := kept.answered member
    exact file?_lt known
  · intro inside
    obtain ⟨f, known⟩ := file?_of_lt inside
    have named : f ∈ calls.filterMap Call.file? :=
      memFirsts.mp (kept.files ▸ memFiles.mpr ⟨p, known⟩)
    have answer := List.mem_map_of_mem (f := some) named
    rw [← kept.answers] at answer
    obtain ⟨q, member, same⟩ := List.mem_map.mp answer
    exact kept.linked.oneToOne same known ▸ member

theorem Recounted.goesOn (kept : Recounted calls b) (c : Call) : (b.call c).isSome ↔
    ∀ source target, c = .addEdge source target → source ∈ b.places ∧ target ∈ b.places := by
  cases c with
  | insert file => simp [Building.call]
  | addEdge source target => simp [Building.call, addEdge?, kept.memPlaces]

/-- A graph that holds what the calls that built it say. -/
structure Faithful (calls : List Call) (b : Building) : Prop where
  goesOn : ∀ c, (b.call c).isSome ↔
    ∀ source target, c = .addEdge source target → source ∈ b.places ∧ target ∈ b.places
  places : ∀ i, i ∈ b.places ↔ i < b.graph.size
  answers : b.places.map b.graph.file? = (calls.filterMap Call.file?).map some
  files : b.graph.files = firsts (calls.filterMap Call.file?)
  filesOnce : b.graph.files.Nodup
  placed : ∀ f i, b.graph.indexOf? f = some i ↔ b.graph.file? i = some f
  index : ∀ f, b.index.get? f = b.graph.indexOf? f
  dependencies : ∀ i, b.graph.dependencies i = firsts (calls.filterMap (Call.target? i))
  importers : ∀ i, b.graph.importers i = firsts (calls.filterMap (Call.source? i))
  recorded : ∀ i j, j ∈ b.graph.dependencies i ↔ .addEdge i j ∈ calls
  dependenciesOnce : ∀ i, (b.graph.dependencies i).Nodup
  importersOnce : ∀ i, (b.graph.importers i).Nodup
  mirrored : ∀ i j, j ∈ b.graph.importers i ↔ i ∈ b.graph.dependencies j
  inside : ∀ i j, j ∈ b.graph.dependencies i → i < b.graph.size ∧ j < b.graph.size
  allDependencies : ∀ i j, j ∈ b.graph.allDependencies i ↔
    TransGen (Edge b.graph.dependencies) i j
  onCycle : ∀ i, i ∈ b.graph.allDependencies i ↔ OnCycle b.graph.dependencies i
  allImporters : ∀ i j, j ∈ b.graph.allImporters i ↔ i ∈ b.graph.allDependencies j
  closuresOnce : ∀ i, (b.graph.allDependencies i).Nodup ∧ (b.graph.allImporters i).Nodup

/-- Whatever is inserted and recorded, files and places go together one to one, and what is required
and what requires are two views of the recorded edges, directly and through others. -/
theorem builtFaithful (made : make calls = some b) : Faithful calls b := by
  have kept := makeRecounted made
  have linked := kept.linked
  exact
    { goesOn := kept.goesOn
      places := kept.memPlaces
      answers := kept.answers
      files := kept.files
      filesOnce := linked.filesOnce
      placed := fun _ _ => indexOfIff linked
      index := fun f => Option.ext fun i => kept.index.trans (indexOfIff linked).symm
      dependencies := kept.dependencies
      importers := kept.importers
      recorded := fun i j => by
        rw [kept.dependencies, memFirsts, Call.memTargets]
      dependenciesOnce := fun i => kept.dependencies i ▸ firstsOnce _
      importersOnce := fun i => kept.importers i ▸ firstsOnce _
      mirrored := fun _ _ => linked.mirrored.symm
      inside := fun _ _ edge => ⟨sourceInside edge, linked.target edge⟩
      allDependencies := fun _ _ => memAllDependencies linked
      onCycle := fun _ => (memAllDependencies linked).trans onCycleIff.symm
      allImporters := fun _ _ => (memAllImporters linked).trans (memAllDependencies linked).symm
      closuresOnce := fun _ => ⟨reachOnce List.nodup_range, reachOnce List.nodup_range⟩ }

/-- Two files that require each other, one that requires itself, and one that leads to the two;
a file and an edge come twice. -/
def knotCalls : List Call :=
  [.insert "a", .insert "b", .addEdge 0 1, .insert "a", .addEdge 1 0, .addEdge 0 1, .insert "c",
    .addEdge 2 2, .insert "d", .addEdge 3 1]

def knot : Graph :=
  ⟨#[{ file := "a", dependencies := [1], importers := [1] },
    { file := "b", dependencies := [0], importers := [0, 3] },
    { file := "c", dependencies := [2], importers := [2] },
    { file := "d", dependencies := [1] }]⟩

theorem builtFaithfulKnot : ∃ b, make knotCalls = some b ∧ b.graph = knot ∧
    Faithful knotCalls b := by
  have built : (make knotCalls).map (·.graph) = some knot := by decide +kernel
  obtain ⟨b, made, same⟩ := Option.map_eq_some_iff.mp built
  exact ⟨b, made, same, builtFaithful made⟩

example : (List.range 4).map knot.allDependencies = [[1, 0], [0, 1], [2], [1, 0]] := by cbv

end Building

end MutationPipeline.Dependency.Graph
