import Mathlib.Data.Set.Card
import MutationPipeline.Dependency.Discovery
import MutationPipeline.Proofs.Dependency.Links

/-! What a discovery finds, for a resolver without effects. It charts exactly the files that its
roots lead to: each is one place of the graph, and the edges are what the resolver says. It comes
to an end when these files are finitely many, and no larger limit changes the outcome. -/
namespace MutationPipeline.Dependency
open Relation

def Resolver.Knows (resolver : Resolver Id) (file : String) : Prop :=
  ∃ required, (resolver file).run.outcome = .ok required

/-- One file requires another one directly. A file of which nothing is known requires none. -/
def Resolver.Requires (resolver : Resolver Id) (file other : String) : Prop :=
  ∃ required, (resolver file).run.outcome = .ok required ∧ other ∈ required

def Resolver.reached (resolver : Resolver Id) (roots : List String) : Set String :=
  {f | ∃ root ∈ roots, ReflTransGen resolver.Requires root f}

theorem Resolver.reachedFinite {resolver : Resolver Id} {roots : List String}
    (files : Finset String) (there : ∀ root ∈ roots, root ∈ files)
    (closed : ∀ f ∈ files, ∀ g, resolver.Requires f g → g ∈ files) :
    (resolver.reached roots).Finite := by
  refine files.finite_toSet.subset ?_
  rintro f ⟨root, member, path⟩
  induction path with
  | refl => exact there root member
  | tail _ step ih => exact closed _ ih _ step

namespace Discovery
open Dependency.Graph

structure Linking (g : Graph) (source : Nat) (files : List String) (h : Graph)
    (targets : List Nat) : Prop where
  linked : h.Linked
  larger : g.Extends h
  edges : ∀ {i j}, j ∈ h.dependencies i ↔ j ∈ g.dependencies i ∨ (i = source ∧ j ∈ targets)
  files : targets.map h.file? = files.map some
  places : ∀ {i}, i < h.size → i < g.size ∨ i ∈ targets

theorem linkCons (g : Graph) (source : Nat) (file : String) (rest : List String) :
    link g source (file :: rest) =
      ((link ((g.insert file).1.addEdge source (g.insert file).2) source rest).1,
        (g.insert file).2 :: (link ((g.insert file).1.addEdge source (g.insert file).2) source
          rest).2) := rfl

theorem linkLinks {g : Graph} {source : Nat} (files : List String) (linked : g.Linked)
    (inside : source < g.size) :
    Linking g source files (link g source files).1 (link g source files).2 := by
  induction files generalizing g with
  | nil => exact ⟨linked, .refl g, by simp [link], rfl, .inl⟩
  | cons file rest ih =>
    rw [linkCons]
    generalize place : (g.insert file).2 = target
    have known : (g.insert file).1.file? target = some file := place ▸ insertFile
    have room : source < (g.insert file).1.size := Nat.lt_of_lt_of_le inside insertExtends.size
    have next := ih (g := (g.insert file).1.addEdge source target)
      (addEdgeLinked (insertLinked linked) room (file?_lt known)) (by rwa [addEdgeSize])
    have larger : g.Extends ((g.insert file).1.addEdge source target) :=
      insertExtends.trans addEdgeExtends
    refine ⟨next.linked, larger.trans next.larger, ?_, ?_, ?_⟩
    · intro i j
      rw [next.edges, addEdgeDependencies room, insertDependencies, List.mem_cons]
      tauto
    · have first : _ = some file := next.larger.files (addEdgeExtends.files known)
      simp only [List.map_cons, next.files, first]
    · intro i below
      rcases next.places below with old | later
      · rw [addEdgeSize] at old
        rcases insertOld old with old | rfl
        · exact .inl old
        · exact .inr (place ▸ List.mem_cons_self)
      · exact .inr (List.mem_cons_of_mem _ later)

/- How far a discovery is while places wait on its stack. Places that were not resolved yet have
no edges to others. -/
structure Explored (resolver : Resolver Id) (roots : List String) (stack : List Nat)
    (d : Discovery) : Prop where
  linked : d.graph.Linked
  once : d.expanded.Nodup
  inside : ∀ {i}, i ∈ d.expanded ∨ i ∈ stack → i < d.graph.size
  covered : ∀ {i}, i < d.graph.size → i ∈ d.expanded ∨ i ∈ stack
  edges : ∀ {i f g}, i ∈ d.expanded → d.graph.file? i = some f →
    ((∃ j ∈ d.graph.dependencies i, d.graph.file? j = some g) ↔ resolver.Requires f g)
  pending : ∀ {i}, i ∉ d.expanded → d.graph.dependencies i = []
  unresolved : ∀ {f}, f ∈ d.unresolved ↔
    ∃ i ∈ d.expanded, d.graph.file? i = some f ∧ ¬ resolver.Knows f
  origin : ∀ {i f}, d.graph.file? i = some f →
    ∃ root ∈ roots, ReflTransGen resolver.Requires root f

variable {resolver : Resolver Id} {roots : List String} {i : Nat} {stack : List Nat}
  {d : Discovery} {file : String}

theorem Explored.skip (inv : Explored resolver roots (i :: stack) d) (old : i ∈ d.expanded) :
    Explored resolver roots stack d where
  linked := inv.linked
  once := inv.once
  inside h := inv.inside (h.imp id (List.mem_cons_of_mem _))
  covered h := (inv.covered h).elim .inl fun member =>
    (List.mem_cons.mp member).elim (fun same => .inl (same ▸ old)) .inr
  edges := inv.edges
  pending := inv.pending
  unresolved := inv.unresolved
  origin := inv.origin

/- A file that cannot be resolved stays without edges. -/
theorem Explored.absorbError (inv : Explored resolver roots (i :: stack) d) (fresh : i ∉ d.expanded)
    (known : d.graph.file? i = some file) {e} (failed : (resolver file).run.outcome = .error e)
    (notes : List Note) :
    Explored resolver roots stack
      { d with expanded := i :: d.expanded, unresolved := d.unresolved ++ [file], notes } where
  linked := inv.linked
  once := List.nodup_cons.mpr ⟨fresh, inv.once⟩
  inside h := inv.inside (by simp only [List.mem_cons] at h ⊢; tauto)
  covered h := by have := inv.covered h; simp only [List.mem_cons] at this ⊢; tauto
  edges {a f g} member same := by
    rcases List.mem_cons.mp member with rfl | old
    · have none := inv.pending fresh
      cases known.symm.trans same
      simp [none, Resolver.Requires, failed]
    · exact inv.edges old same
  pending {a} new := inv.pending fun old => new (List.mem_cons_of_mem _ old)
  unresolved {f} := by
    have unknown : ¬ resolver.Knows file := by simp [Resolver.Knows, failed]
    rw [List.mem_append, inv.unresolved, List.mem_singleton]
    constructor
    · rintro (⟨a, old, same⟩ | rfl)
      · exact ⟨a, List.mem_cons_of_mem _ old, same⟩
      · exact ⟨i, List.mem_cons_self, known, unknown⟩
    · rintro ⟨a, member, same, lost⟩
      rcases List.mem_cons.mp member with rfl | old
      · exact .inr (Option.some.inj (same.symm.trans known))
      · exact .inl ⟨a, old, same, lost⟩
  origin := inv.origin

theorem Linking.required {g h : Graph} {source files targets} (l : Linking g source files h targets)
    (f : String) : (∃ j ∈ targets, h.file? j = some f) ↔ f ∈ files := by
  have same : some f ∈ targets.map h.file? ↔ some f ∈ files.map some := by rw [l.files]
  simpa using same

theorem Explored.absorbOk (inv : Explored resolver roots (i :: stack) d) (fresh : i ∉ d.expanded)
    (known : d.graph.file? i = some file) {required}
    (found : (resolver file).run.outcome = .ok required) {graph targets}
    (l : Linking d.graph i required graph targets)
    (notes : List Note) :
    Explored resolver roots (targets ++ stack)
      { d with graph, expanded := i :: d.expanded, notes } where
  linked := l.linked
  once := List.nodup_cons.mpr ⟨fresh, inv.once⟩
  inside {a} h := by
    by_cases target : a ∈ targets
    · exact l.linked.target (l.edges.mpr (.inr ⟨rfl, target⟩))
    · refine Nat.lt_of_lt_of_le (inv.inside ?_) l.larger.size
      simp only [List.mem_cons, List.mem_append] at h ⊢
      tauto
  covered {a} h := by
    simp only [List.mem_cons, List.mem_append]
    rcases l.places h with old | target
    · have := inv.covered old
      simp only [List.mem_cons] at this
      tauto
    · exact .inr (.inl target)
  edges {a f g} member same := by
    by_cases here : a = i
    · subst here
      cases (l.larger.files known).symm.trans same
      have edges : ∀ j, j ∈ graph.dependencies a ↔ j ∈ targets := by
        simp [l.edges, inv.pending fresh]
      simp only [edges, l.required, Resolver.Requires, found, Except.ok.injEq, exists_eq_left']
    · have old : a ∈ d.expanded := (List.mem_cons.mp member).resolve_left here
      have edges : ∀ j, j ∈ graph.dependencies a ↔ j ∈ d.graph.dependencies a := by
        simp [l.edges, here]
      rw [l.larger.same (inv.inside (.inl old))] at same
      rw [← inv.edges old same]
      constructor <;> rintro ⟨j, edge, target⟩
      · have inside := inv.linked.target ((edges j).mp edge)
        exact ⟨j, (edges j).mp edge, (l.larger.same inside).symm.trans target⟩
      · exact ⟨j, (edges j).mpr edge, l.larger.files target⟩
  pending {a} new := by
    have none : ∀ j, j ∉ graph.dependencies a := by
      intro j edge
      rcases l.edges.mp edge with old | ⟨rfl, _⟩
      · rw [inv.pending fun old => new (List.mem_cons_of_mem _ old)] at old
        simp at old
      · exact new List.mem_cons_self
    exact List.eq_nil_iff_forall_not_mem.mpr none
  unresolved {f} := by
    rw [inv.unresolved]
    constructor
    · rintro ⟨a, old, same, lost⟩
      exact ⟨a, List.mem_cons_of_mem _ old, l.larger.files same, lost⟩
    · rintro ⟨a, member, same, lost⟩
      rcases List.mem_cons.mp member with rfl | old
      · cases (l.larger.files known).symm.trans same
        exact absurd ⟨required, found⟩ lost
      · exact ⟨a, old, (l.larger.same (inv.inside (.inl old))).symm.trans same, lost⟩
  origin {a f} same := by
    rcases l.places (file?_lt same) with old | target
    · exact inv.origin ((l.larger.same old).symm.trans same)
    · obtain ⟨root, member, path⟩ := inv.origin known
      exact ⟨root, member, path.tail ⟨required, found, (l.required f).mp ⟨a, target, same⟩⟩⟩

theorem absorbExplored (inv : Explored resolver roots (i :: stack) d) (fresh : i ∉ d.expanded)
    (known : d.graph.file? i = some file) :
    Explored resolver roots ((d.absorb i file (resolver file).run).2 ++ stack)
      (d.absorb i file (resolver file).run).1 := by
  unfold absorb
  cases found : (resolver file).run.outcome with
  | error e => exact inv.absorbError fresh known found _
  | ok required =>
    exact inv.absorbOk fresh known found
      (linkLinks required inv.linked (inv.inside (.inr List.mem_cons_self))) _

theorem absorbExpanded (d : Discovery) (i : Nat) (file : String) (r : Resolution) :
    (d.absorb i file r).1.expanded = i :: d.expanded := by
  unfold absorb
  split <;> rfl

theorem absorbExtends (inv : Explored resolver roots (i :: stack) d) (r : Resolution) :
    d.graph.Extends (d.absorb i file r).1.graph := by
  unfold absorb
  split
  · next required _ =>
    exact (linkLinks required inv.linked (inv.inside (.inr List.mem_cons_self))).larger
  · exact .refl _

section Explore
variable {m : Type → Type} [Monad m] {asking : Resolver m} {limit : Nat}

theorem exploreNil : explore asking limit [] d = pure (some d) := by
  rw [explore]

theorem exploreOld (old : i ∈ d.expanded) :
    explore asking limit (i :: stack) d = explore asking limit stack d := by
  rw [explore.eq_def]
  exact if_pos old

theorem exploreNew (fresh : i ∉ d.expanded) (known : d.graph.file? i = some file) :
    explore asking (limit + 1) (i :: stack) d = asking file >>= fun r =>
      explore asking limit ((d.absorb i file r).2 ++ stack) (d.absorb i file r).1 := by
  obtain ⟨node, found, rfl⟩ := Option.map_eq_some_iff.mp known
  rw [explore.eq_def]
  simp only [if_neg fresh, found]

theorem exploreNone (fresh : i ∉ d.expanded) : explore asking 0 (i :: stack) d = pure none := by
  rw [explore.eq_def]
  simp only [if_neg fresh]

end Explore

/- The files that some roots lead to are among these. -/
def Bounded (resolver : Resolver Id) (roots : List String) (files : Finset String) : Prop :=
  ∀ root ∈ roots, ∀ f, ReflTransGen resolver.Requires root f → f ∈ files

/- Resolved places are different files, so there is always room for one more. -/
theorem Explored.room (inv : Explored resolver roots (i :: stack) d) (fresh : i ∉ d.expanded)
    {files : Finset String} (bounded : Bounded resolver roots files) :
    d.expanded.length < files.card := by
  have places : ∀ a ∈ i :: d.expanded, ∃ f, d.graph.file? a = some f := by
    intro a member
    refine file?_of_lt (inv.inside ?_)
    simp only [List.mem_cons] at member ⊢
    tauto
  have charted : ((i :: d.expanded).map d.graph.file?).Nodup := by
    refine List.Nodup.map_on ?_ (List.nodup_cons.mpr ⟨fresh, inv.once⟩)
    intro a first b second same
    obtain ⟨f, known⟩ := places a first
    exact inv.linked.oneToOne known (same ▸ known)
  have among : ∀ x ∈ (i :: d.expanded).map d.graph.file?, x ∈ (files.image some).toList := by
    intro x member
    obtain ⟨a, first, rfl⟩ := List.mem_map.mp member
    obtain ⟨f, known⟩ := places a first
    obtain ⟨root, ofRoot, path⟩ := inv.origin known
    simpa [known] using bounded root ofRoot f path
  have fits := (charted.subperm among).length_le
  rw [List.length_map, Finset.length_toList] at fits
  exact Nat.lt_of_lt_of_le (Nat.lt_succ_self _) (fits.trans Finset.card_image_le)

theorem exploreExplored {files : Finset String} (bounded : Bounded resolver roots files)
    (stack : List Nat) (d : Discovery) (inv : Explored resolver roots stack d) :
    ∃ e, Explored resolver roots [] e ∧ d.graph.Extends e.graph ∧
      ∀ limit, files.card ≤ limit + d.expanded.length →
        explore resolver limit stack d = some e :=
  match stack with
  | [] => ⟨d, inv, .refl _, fun _ _ => exploreNil⟩
  | i :: stack => by
    by_cases old : i ∈ d.expanded
    · obtain ⟨e, done, larger, result⟩ := exploreExplored bounded stack d (inv.skip old)
      exact ⟨e, done, larger, fun limit enough => (exploreOld old).trans (result limit enough)⟩
    · obtain ⟨file, known⟩ := file?_of_lt (inv.inside (.inr List.mem_cons_self))
      have room := inv.room old bounded
      have expanded := absorbExpanded d i file (resolver file).run
      obtain ⟨e, done, larger, result⟩ :=
        exploreExplored bounded _ _ (absorbExplored inv old known)
      refine ⟨e, done, (absorbExtends inv _).trans larger, fun limit enough => ?_⟩
      obtain ⟨n, rfl⟩ : ∃ n, limit = n + 1 := Nat.exists_eq_succ_of_ne_zero (by omega)
      rw [exploreNew old known]
      exact result n (by rw [expanded, List.length_cons]; omega)
termination_by (files.card - d.expanded.length, stack.length)
decreasing_by
  · exact .right _ (Nat.lt_succ_self _)
  · exact .left _ _ (by rw [expanded, List.length_cons]; omega)

/- A root is a place of its own as soon as it is on the stack. -/
theorem Explored.enter (inv : Explored resolver roots [] d) {root} (member : root ∈ roots) :
    Explored resolver roots [(d.graph.insert root).2] { d with graph := (d.graph.insert root).1 } where
  linked := insertLinked inv.linked
  once := inv.once
  inside {a} h := by
    rcases h with old | new
    · exact Nat.lt_of_lt_of_le (inv.inside (.inl old)) insertExtends.size
    · exact List.mem_singleton.mp new ▸ file?_lt insertFile
  covered {a} below := by
    rcases insertOld below with old | rfl
    · exact .inl ((inv.covered old).resolve_right List.not_mem_nil)
    · exact .inr List.mem_cons_self
  edges {a f g} old same := by
    have inside := inv.inside (.inl old)
    rw [insertExtends.same inside] at same
    rw [← inv.edges old same]
    simp only [insertDependencies]
    refine exists_congr fun j => and_congr_right fun edge => ?_
    rw [insertExtends.same (inv.linked.target edge)]
  pending new := by
    rw [insertDependencies]
    exact inv.pending new
  unresolved {f} := by
    rw [inv.unresolved]
    refine exists_congr fun a => and_congr_right fun old => ?_
    rw [insertExtends.same (inv.inside (.inl old))]
  origin {a f} same := by
    rcases insertOld (file?_lt same) with old | rfl
    · exact inv.origin ((insertExtends.same old).symm.trans same)
    · exact ⟨root, member, by rw [Option.some.inj (insertFile.symm.trans same)]⟩

theorem exploreAllExplored {files : Finset String} (bounded : Bounded resolver roots files)
    {rest : List String} (later : ∀ root ∈ rest, root ∈ roots) {d : Discovery}
    (inv : Explored resolver roots [] d) :
    ∃ e, Explored resolver roots [] e ∧ d.graph.Extends e.graph ∧
      (∀ root ∈ rest, ∃ i, e.graph.file? i = some root) ∧
      ∀ limit, files.card ≤ limit → exploreAll resolver limit rest d = some e := by
  induction rest generalizing d with
  | nil => exact ⟨d, inv, .refl _, by simp, fun _ _ => rfl⟩
  | cons root rest ih =>
    obtain ⟨e, done, first, result⟩ :=
      exploreExplored bounded _ _ (inv.enter (later root List.mem_cons_self))
    obtain ⟨k, last, second, charted, results⟩ :=
      ih (fun r member => later r (List.mem_cons_of_mem _ member)) done
    refine ⟨k, last, (insertExtends.trans first).trans second, ?_, fun limit enough => ?_⟩
    · intro r member
      rcases List.mem_cons.mp member with rfl | old
      · exact ⟨_, second.files (first.files insertFile)⟩
      · exact charted r old
    · have found := result (limit - d.expanded.length) (by simp only; omega)
      simp only [exploreAll, bind, found]
      exact results limit enough

structure Charted (resolver : Resolver Id) (roots : List String) (d : Discovery) : Prop where
  linked : d.graph.Linked
  roots : ∀ root ∈ roots, ∃ i, d.graph.file? i = some root
  edges : ∀ {i f g}, d.graph.file? i = some f →
    ((∃ j ∈ d.graph.dependencies i, d.graph.file? j = some g) ↔ resolver.Requires f g)
  unresolved : ∀ {f}, f ∈ d.unresolved ↔ (∃ i, d.graph.file? i = some f) ∧ ¬ resolver.Knows f

theorem Explored.charted (inv : Explored resolver roots [] d)
    (there : ∀ root ∈ roots, ∃ i, d.graph.file? i = some root) : Charted resolver roots d := by
  have expanded : ∀ {i f}, d.graph.file? i = some f → i ∈ d.expanded := fun known =>
    (inv.covered (file?_lt known)).resolve_right List.not_mem_nil
  refine ⟨inv.linked, there, fun known => inv.edges (expanded known) known, ?_⟩
  intro f
  rw [inv.unresolved]
  constructor
  · rintro ⟨i, _, known, lost⟩
    exact ⟨⟨i, known⟩, lost⟩
  · rintro ⟨⟨i, known⟩, lost⟩
    exact ⟨i, expanded known, known, lost⟩

theorem startExplored (resolver : Resolver Id) (roots : List String) :
    Explored resolver roots [] {} where
  linked := emptyLinked
  once := .nil
  inside h := by simp at h
  covered h := by simp [Graph.size, Graph.empty] at h
  edges member := by simp at member
  pending _ := by simp [Graph.dependencies, Graph.empty]
  unresolved := by simp
  origin known := by simp [Graph.file?, Graph.empty] at known

theorem ofRootsCharted {files : Finset String} (bounded : Bounded resolver roots files) :
    ∃ d, Charted resolver roots d ∧
      ∀ limit, files.card ≤ limit → ofRoots resolver limit roots = some d := by
  obtain ⟨d, done, _, there, result⟩ :=
    exploreAllExplored bounded (fun _ => id) (startExplored resolver roots)
  exact ⟨d, done.charted there, result⟩

/- One or more edges of the chart are one or more steps of the resolver. -/
theorem Charted.steps (c : Charted resolver roots d) {i j f g} (known : d.graph.file? i = some f)
    (other : d.graph.file? j = some g) (path : TransGen (Edge d.graph.dependencies) i j) :
    TransGen resolver.Requires f g := by
  induction path generalizing g with
  | single edge => exact .single ((c.edges known).mp ⟨_, edge, other⟩)
  | tail _ edge ih =>
    obtain ⟨h, middle⟩ := file?_of_lt (sourceInside edge)
    exact (ih middle).tail ((c.edges middle).mp ⟨_, edge, other⟩)

theorem Charted.edgePath (c : Charted resolver roots d) {i f g} (known : d.graph.file? i = some f)
    (steps : TransGen resolver.Requires f g) :
    ∃ j, d.graph.file? j = some g ∧ TransGen (Edge d.graph.dependencies) i j := by
  induction steps with
  | single step =>
    obtain ⟨j, edge, same⟩ := (c.edges known).mpr step
    exact ⟨j, same, .single edge⟩
  | tail _ step ih =>
    obtain ⟨k, middle, path⟩ := ih
    obtain ⟨j, edge, same⟩ := (c.edges middle).mpr step
    exact ⟨j, same, path.tail edge⟩

theorem Charted.memDependencies (c : Charted resolver roots d) {i j f g}
    (known : d.graph.file? i = some f) (other : d.graph.file? j = some g) :
    j ∈ d.graph.allDependencies i ↔ TransGen resolver.Requires f g := by
  rw [memAllDependencies c.linked]
  refine ⟨c.steps known other, fun steps => ?_⟩
  obtain ⟨k, same, path⟩ := c.edgePath known steps
  exact c.linked.oneToOne same other ▸ path

theorem Charted.memImporters (c : Charted resolver roots d) {i j f g}
    (known : d.graph.file? i = some f) (other : d.graph.file? j = some g) :
    j ∈ d.graph.allImporters i ↔ TransGen resolver.Requires g f := by
  rw [memAllImporters c.linked, ← memAllDependencies c.linked]
  exact c.memDependencies other known

end Discovery

end MutationPipeline.Dependency
