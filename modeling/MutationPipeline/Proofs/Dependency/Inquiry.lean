import MutationPipeline.Proofs.Dependency.Groups

/-! What a discovery asks its resolver. It asks about a place when it expands it, and it expands each
place once; so it asks about the files of the finished graph, which are those that the roots lead
to. -/
namespace MutationPipeline.Dependency
open Relation

def Resolver.recorded (resolver : Resolver Id) : Resolver (StateM (List String)) := fun file => do
  modify (· ++ [file])
  return (resolver file).run

namespace Discovery
open Dependency.Graph

def resolved (d : Discovery) : List String := d.expanded.reverse.filterMap d.graph.file?

variable {resolver : Resolver Id} {roots : List String} {i : Nat} {stack : List Nat}
  {d e : Discovery} {file : String} {limit : Nat}

theorem askRecorded (file : String) (asked : List String) :
    (resolver.recorded file).run asked = ((resolver file).run, asked ++ [file]) := rfl

theorem Explored.resolvedStay (inv : Explored resolver roots stack d)
    (larger : d.graph.Extends e.graph) :
    d.expanded.reverse.filterMap e.graph.file? = d.resolved := by
  refine List.filterMap_congr fun a among => larger.same (inv.inside (.inl ?_))
  exact List.mem_reverse.mp among

theorem Explored.absorbResolved (inv : Explored resolver roots (i :: stack) d)
    (known : d.graph.file? i = some file) :
    (d.absorb i file (resolver file).run).1.resolved = d.resolved ++ [file] := by
  have larger : d.graph.Extends (d.absorb i file (resolver file).run).1.graph :=
    absorbExtends inv _
  rw [resolved, absorbExpanded, List.reverse_cons, List.filterMap_append, inv.resolvedStay larger,
    List.filterMap_cons_some (larger.files known), List.filterMap_nil]

theorem exploreRecorded (stack : List Nat) (limit : Nat) (d : Discovery)
    (inv : Explored resolver roots stack d) (found : explore resolver limit stack d = some e) :
    (explore resolver.recorded limit stack d).run d.resolved = (some e, e.resolved) := by
  match stack, limit with
  | [], limit =>
    rw [exploreNil] at found ⊢
    cases found
    rfl
  | i :: stack, limit =>
    by_cases old : i ∈ d.expanded
    · rw [exploreOld old] at found ⊢
      exact exploreRecorded stack limit d (inv.skip old) found
    · obtain ⟨file, known⟩ := file?_of_lt (inv.inside (.inr List.mem_cons_self))
      cases limit with
      | zero =>
        rw [exploreNone old] at found
        cases found
      | succ limit =>
        rw [exploreNew old known] at found ⊢
        rw [StateT.run_bind, askRecorded, ← inv.absorbResolved known]
        exact exploreRecorded _ limit _ (absorbExplored inv old known) found
termination_by (limit, stack.length)

theorem Explored.enterResolved (inv : Explored resolver roots [] d) (root : String) :
    resolved { d with graph := (d.graph.insert root).1 } = d.resolved :=
  inv.resolvedStay (e := { d with graph := (d.graph.insert root).1 }) insertExtends

theorem exploreAllRecorded {files : Finset String} (bounded : Bounded resolver roots files)
    {rest : List String} (later : ∀ root ∈ rest, root ∈ roots) (inv : Explored resolver roots [] d)
    (enough : files.card ≤ limit) (found : exploreAll resolver limit rest d = some e) :
    (exploreAll resolver.recorded limit rest d).run d.resolved = (some e, e.resolved) := by
  induction rest generalizing d with
  | nil =>
    cases found
    rfl
  | cons root rest ih =>
    have entered := inv.enter (later root List.mem_cons_self)
    obtain ⟨next, done, -, result⟩ := exploreExplored bounded _ _ entered
    have first := result (limit - d.expanded.length) (by simp only; omega)
    have asked := exploreRecorded _ _ _ entered first
    rw [inv.enterResolved] at asked
    simp only [exploreAll, bind, first] at found
    simp only [exploreAll, StateT.run_bind, asked]
    exact ih (fun r member => later r (List.mem_cons_of_mem _ member)) done found

theorem Explored.resolvedOnce (done : Explored resolver roots [] d) : d.resolved.Nodup :=
  (List.nodup_reverse.mpr done.once).filterMap fun _ _ _ first second =>
    done.linked.oneToOne first second

theorem Explored.memResolved (done : Explored resolver roots [] d) {f : String} :
    f ∈ d.resolved ↔ f ∈ d.graph.files := by
  rw [memFiles, resolved, List.mem_filterMap]
  refine exists_congr fun i => and_iff_right_of_imp fun known => List.mem_reverse.mpr ?_
  exact (done.covered (file?_lt known)).resolve_right List.not_mem_nil

theorem Charted.memReached (c : Charted resolver roots d) {f : String}
    (reached : f ∈ resolver.reached roots) : f ∈ d.graph.files := by
  obtain ⟨root, member, path⟩ := reached
  induction path with
  | refl => exact memFiles.mpr (c.roots root member)
  | tail _ step ih =>
    obtain ⟨i, known⟩ := memFiles.mp ih
    obtain ⟨j, -, other⟩ := (c.edges known).mpr step
    exact memFiles.mpr ⟨j, other⟩

/-- The files that some roots lead to, each with one place in the graph and asked about once. -/
structure Complete (resolver : Resolver Id) (roots : List String) (d : Discovery)
    (asked : List String) : Prop where
  askedOnce : asked.Nodup
  asked : ∀ f, f ∈ asked ↔ f ∈ resolver.reached roots
  placedOnce : d.graph.files.Nodup
  placed : ∀ f, f ∈ d.graph.files ↔ f ∈ resolver.reached roots
  edges : ∀ i j, j ∈ d.graph.dependencies i ↔
    ∃ f g, d.graph.file? i = some f ∧ d.graph.file? j = some g ∧ resolver.Requires f g
  unresolved : ∀ f, f ∈ d.unresolved ↔ f ∈ resolver.reached roots ∧ ¬ resolver.Knows f

theorem Explored.complete (done : Explored resolver roots [] d)
    (there : ∀ root ∈ roots, ∃ i, d.graph.file? i = some root) :
    Complete resolver roots d d.resolved := by
  have charted := done.charted there
  have placed : ∀ f, f ∈ d.graph.files ↔ f ∈ resolver.reached roots := fun f =>
    ⟨fun member => (memFiles.mp member).elim fun _ known => done.origin known, charted.memReached⟩
  refine ⟨done.resolvedOnce, fun f => done.memResolved.trans (placed f), done.linked.filesOnce,
    placed, fun i j => ?_, fun f => ?_⟩
  · constructor
    · intro edge
      obtain ⟨f, known⟩ := file?_of_lt (sourceInside edge)
      obtain ⟨g, other⟩ := file?_of_lt (done.linked.target edge)
      exact ⟨f, g, known, other, (charted.edges known).mp ⟨j, edge, other⟩⟩
    · rintro ⟨f, g, known, other, step⟩
      obtain ⟨k, edge, same⟩ := (charted.edges known).mpr step
      exact done.linked.oneToOne same other ▸ edge
  · rw [charted.unresolved, ← placed, memFiles]

/-- Whatever requires what, and whatever is not known, a discovery that can end does end: it asks
about each file once and finds all there is to find. -/
theorem discoveredOnce (finite : (resolver.reached roots).Finite) :
    ∃ d asked, (∀ limit, (resolver.reached roots).ncard ≤ limit →
        (ofRoots resolver.recorded limit roots).run [] = (some d, asked)) ∧
      Complete resolver roots d asked := by
  have bounded : Bounded resolver roots finite.toFinset := fun root member f path =>
    finite.mem_toFinset.mpr ⟨root, member, path⟩
  have start := startExplored resolver roots
  obtain ⟨d, done, -, there, result⟩ := exploreAllExplored bounded (fun _ => id) start
  refine ⟨d, d.resolved, fun limit enough => ?_, done.complete there⟩
  rw [Set.ncard_eq_toFinset_card _ finite] at enough
  exact exploreAllRecorded bounded (fun _ => id) start enough (result limit enough)

end Discovery

namespace Grouping
open Discovery

theorem discoveredOnceRing : (ring.reached ["a", "x", "a"]).Finite ∧
    ∃ d asked, (∀ limit, (ring.reached ["a", "x", "a"]).ncard ≤ limit →
        (ofRoots ring.recorded limit ["a", "x", "a"]).run [] = (some d, asked)) ∧
      Complete ring ["a", "x", "a"] d asked := by
  have finite : (ring.reached ["a", "x", "a"]).Finite := by
    refine Resolver.reachedFinite {"a", "b", "c", "x"} (by decide) fun f _ g step => ?_
    rcases (ringStep step).2 with rfl | rfl | rfl <;> simp
  exact ⟨finite, discoveredOnce finite⟩

end Grouping

end MutationPipeline.Dependency
