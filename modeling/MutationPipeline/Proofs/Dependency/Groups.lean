import Mathlib.Data.List.Nodup
import Mathlib.Data.Set.Card
import MutationPipeline.Dependency.Grouping
import MutationPipeline.Proofs.Dependency.Chart

/-! How mutants move from the queues of their files through layers into groups. No step loses or
repeats one, and each keeps the order within a file. -/
namespace MutationPipeline.Dependency.Grouping

/-- The second one neither is required by the first one's file nor requires it. -/
def Apart (p q : Placed) : Prop := q.file ∉ p.requires ∧ q.file ∉ p.requiredBy

section Gather
variable {requires requiredBy : List Nat} {ps : List Placed}

theorem gatherPerm : ((gather requires requiredBy ps).1 ++ (gather requires requiredBy ps).2).Perm
    ps := by
  induction ps generalizing requires requiredBy with
  | nil => exact .nil
  | cons p rest ih =>
    simp only [gather]
    split
    · exact List.perm_middle.trans (ih.cons p)
    · exact ih.cons p

theorem gatherMembers : (gather requires requiredBy ps).1.Sublist ps := by
  induction ps generalizing requires requiredBy with
  | nil => exact .slnil
  | cons p rest ih =>
    simp only [gather]
    split
    · exact ih.cons p
    · exact ih.cons_cons p

theorem gatherLeftSublist : (gather requires requiredBy ps).2.Sublist ps := by
  induction ps generalizing requires requiredBy with
  | nil => exact .slnil
  | cons p rest ih =>
    simp only [gather]
    split
    · exact ih.cons_cons p
    · exact ih.cons p

theorem gatherOutside {p : Placed} (member : p ∈ (gather requires requiredBy ps).1) :
    p.file ∉ requires ∧ p.file ∉ requiredBy := by
  induction ps generalizing requires requiredBy with
  | nil => simp [gather] at member
  | cons first rest ih =>
    simp only [gather] at member
    split at member
    · exact ih member
    · next free =>
      rcases List.mem_cons.mp member with rfl | later
      · exact not_or.mp free
      · have outside := ih later
        simp only [List.mem_append, not_or] at outside
        exact ⟨outside.1.1, outside.2.1⟩

/- Both lists only grow, so whoever is taken later stands outside of what every member before
brought along. -/
theorem gatherApart : (gather requires requiredBy ps).1.Pairwise Apart := by
  induction ps generalizing requires requiredBy with
  | nil => exact .nil
  | cons p rest ih =>
    simp only [gather]
    split
    · exact ih
    · refine List.pairwise_cons.mpr ⟨fun q later => ?_, ih⟩
      have outside := gatherOutside later
      simp only [List.mem_append, not_or] at outside
      exact ⟨outside.1.2, outside.2.2⟩

end Gather

theorem dividePerm (layer : List Placed) : (divide layer).flatten.Perm layer := by
  fun_induction divide layer with
  | case1 => exact .nil
  | case2 seed rest _ ih =>
    rw [List.flatten_cons, List.cons_append]
    exact ((ih.append_left _).trans gatherPerm).cons seed

theorem divideGroup {layer group : List Placed} (member : group ∈ divide layer) :
    group ≠ [] ∧ group.Sublist layer ∧ group.Pairwise Apart := by
  fun_induction divide layer with
  | case1 => simp at member
  | case2 seed rest _ ih =>
    rcases List.mem_cons.mp member with rfl | later
    · refine ⟨List.cons_ne_nil _ _, gatherMembers.cons_cons seed, ?_⟩
      exact List.pairwise_cons.mpr ⟨fun _ => gatherOutside, gatherApart⟩
    · obtain ⟨inhabited, sub, apart⟩ := ih later
      exact ⟨inhabited, (sub.trans gatherLeftSublist).cons seed, apart⟩

/- A layer with at most one mutant of a file is divided without a change to that file's order. -/
theorem divideFilter {layer : List Placed} (single : layer.Pairwise (·.file ≠ ·.file)) (i : Nat) :
    (divide layer).flatten.filter (·.file = i) = layer.filter (·.file = i) := by
  have perm := (dividePerm layer).filter fun p => p.file = i
  have distinct := single.filter fun p => p.file = i
  have members : ∀ p ∈ layer.filter (fun p => p.file = i), p.file = i := fun p member => by
    simpa using (List.mem_filter.mp member).2
  generalize layer.filter (fun p => p.file = i) = few at perm distinct members ⊢
  match few with
  | [] => exact List.perm_nil.mp perm
  | [p] => exact List.perm_singleton.mp perm
  | a :: b :: rest =>
    have same : a.file = b.file := (members a (by simp)).trans (members b (by simp)).symm
    exact absurd same ((List.pairwise_cons.mp distinct).1 b List.mem_cons_self)

theorem layersMember {α : Type} {queues : List (List α)} {layer : List α} {x : α}
    (there : layer ∈ layers queues) (member : x ∈ layer) : ∃ q ∈ queues, x ∈ q := by
  fun_induction layers queues with
  | case1 => simp at there
  | case2 queues first others shape _ ih =>
    rcases List.mem_cons.mp there with rfl | later
    · rw [← shape] at member
      obtain ⟨q, inside, head⟩ := List.mem_filterMap.mp member
      exact ⟨q, inside, List.mem_of_head? head⟩
    · obtain ⟨t, inside, old⟩ := ih later
      obtain ⟨q, original, rfl⟩ := List.mem_map.mp inside
      exact ⟨q, original, List.mem_of_mem_tail old⟩

section Homed
variable {q : Nat → List Placed} {n : Nat}

def Homed (q : Nat → List Placed) : Prop := ∀ i, ∀ p ∈ q i, p.file = i

theorem Homed.tail (homed : Homed q) : Homed fun i => (q i).tail :=
  fun i p member => homed i p (List.mem_of_mem_tail member)

theorem tailsQueues : tails ((List.range n).map q) = (List.range n).map fun i => (q i).tail := by
  simp [tails]

theorem headsSingle (homed : Homed q) :
    (heads ((List.range n).map q)).Pairwise (·.file ≠ ·.file) := by
  rw [heads, List.filterMap_map, List.pairwise_filterMap]
  refine (List.pairwise_lt_range (n := n)).imp fun {i j} less p first r second => ?_
  rw [homed i p (List.mem_of_head? first), homed j r (List.mem_of_head? second)]
  exact Nat.ne_of_lt less

theorem headFilter (homed : Homed q) (i j : Nat) :
    (heads [q j]).filter (·.file = i) = if i = j then (q i).head?.toList else [] := by
  cases found : q j with
  | nil => split <;> simp_all [heads]
  | cons p rest =>
    have file : p.file = j := homed j p (found ▸ List.mem_cons_self)
    by_cases same : i = j
    · simp [heads, same, found, file]
    · simp [heads, same, file, Ne.symm same]

theorem headsFilter (homed : Homed q) (i : Nat) :
    (heads ((List.range n).map q)).filter (·.file = i) =
      if i < n then (q i).head?.toList else [] := by
  induction n with
  | zero => rfl
  | succ n ih =>
    rw [List.range_succ, List.map_append, heads, List.filterMap_append, List.filter_append]
    rw [← heads, ih, List.map_singleton, ← heads, headFilter homed]
    by_cases last : i = n
    · simp [last]
    · have before : i < n + 1 ↔ i < n := by omega
      simp [last, before]

theorem layersSingle (homed : Homed q) {layer : List Placed}
    (there : layer ∈ layers ((List.range n).map q)) : layer.Pairwise (·.file ≠ ·.file) := by
  generalize shape : (List.range n).map q = queues at there
  fun_induction layers queues generalizing q with
  | case1 => simp at there
  | case2 queues first others found _ ih =>
    rcases List.mem_cons.mp there with rfl | later
    · rw [← found, ← shape]
      exact headsSingle homed
    · exact ih homed.tail (shape ▸ tailsQueues.symm) later

theorem layersFilter (homed : Homed q) {i : Nat} (inside : i < n) :
    (layers ((List.range n).map q)).flatten.filter (·.file = i) = q i := by
  generalize shape : (List.range n).map q = queues
  fun_induction layers queues generalizing q with
  | case1 queues empty =>
    have none := headsFilter (n := n) homed i
    rw [shape, empty, if_pos inside] at none
    simpa using (show (q i).head?.toList = [] from none.symm)
  | case2 queues first others found _ ih =>
    rw [List.flatten_cons, List.filter_append, ← found, ← shape, headsFilter homed,
      if_pos inside, shape, ih homed.tail (shape ▸ tailsQueues.symm)]
    cases q i <;> rfl

theorem groupsFilter (homed : Homed q) {i : Nat} (inside : i < n) :
    ((layers ((List.range n).map q)).flatMap divide).flatten.filter (·.file = i) = q i := by
  rw [← layersFilter homed inside]
  have single : ∀ layer ∈ layers ((List.range n).map q), layer.Pairwise (·.file ≠ ·.file) :=
    fun _ there => layersSingle homed there
  generalize layers ((List.range n).map q) = ls at single ⊢
  induction ls with
  | nil => rfl
  | cons layer rest ih =>
    rw [List.flatMap_cons, List.flatten_append, List.flatten_cons, List.filter_append,
      List.filter_append, divideFilter (single layer List.mem_cons_self),
      ih fun l later => single l (List.mem_cons_of_mem _ later)]

end Homed

end MutationPipeline.Dependency.Grouping

/-! The groups of some mutants, for a resolver that reaches finitely many files from them. Groups
are independent, and the mutants are divided among them without loss: those of one file in their
order, those of unresolved files behind all others. -/
namespace MutationPipeline.Dependency
open Relation

instance (resolver : Resolver Id) (file : String) : Decidable (resolver.Knows file) :=
  match found : (resolver file).run.outcome with
  | .ok required => isTrue ⟨required, found⟩
  | .error _ => isFalse fun ⟨_, known⟩ => by simp [found] at known

namespace Grouping
open Dependency.Graph Discovery

def reached (resolver : Resolver Id) (mutants : List Mutant) : Set String :=
  {f | ∃ m ∈ mutants, ReflTransGen resolver.Requires m.fileName f}

/-- Mutants in different files of which neither leads to the other one. -/
def Independent (resolver : Resolver Id) (a b : Mutant) : Prop :=
  a.fileName ≠ b.fileName ∧ ¬ TransGen resolver.Requires a.fileName b.fileName ∧
    ¬ TransGen resolver.Requires b.fileName a.fileName

def queue (d : Discovery) (mutants : List Mutant) (i : Nat) : List Placed :=
  match d.graph.file? i with
  | none => []
  | some f => (if f ∈ d.unresolved then [] else mutants.filter (·.fileName = f)).map fun m =>
      ⟨m, i, d.graph.allDependencies i, d.graph.allImporters i⟩

theorem queuesQueue (d : Discovery) (mutants : List Mutant) :
    queues d mutants = (List.range d.graph.size).map (queue d mutants) := by
  refine List.map_congr_left fun i _ => ?_
  unfold queue file?
  cases d.graph.nodes[i]? with
  | none => rfl
  | some node =>
    simp only [Option.map_some]
    generalize (if node.file ∈ d.unresolved then [] else
      mutants.filter fun m => m.fileName = node.file) = hosted
    cases hosted <;> rfl

theorem queueHomed (d : Discovery) (mutants : List Mutant) : Homed (queue d mutants) := by
  intro i p member
  unfold queue at member
  split at member
  · simp at member
  · obtain ⟨m, _, rfl⟩ := List.mem_map.mp member
    rfl

section Charted
variable {resolver : Resolver Id} {mutants : List Mutant} {d : Discovery}

/- What a placed mutant carries along is about the file it is in. -/
theorem queueMember {i : Nat} {p : Placed} (member : p ∈ queue d mutants i) :
    d.graph.file? p.file = some p.mutant.fileName ∧ p.mutant.fileName ∉ d.unresolved ∧
      p.requires = d.graph.allDependencies p.file ∧
      p.requiredBy = d.graph.allImporters p.file := by
  unfold queue at member
  split at member
  · simp at member
  · next f known =>
    obtain ⟨m, hosted, rfl⟩ := List.mem_map.mp member
    split at hosted
    · simp at hosted
    · next resolved =>
      have same : m.fileName = f := by simpa using (List.mem_filter.mp hosted).2
      exact ⟨same ▸ known, same ▸ resolved, rfl, rfl⟩

theorem layerMember {layer : List Placed} (there : layer ∈ layers (queues d mutants)) {p : Placed}
    (member : p ∈ layer) : ∃ i, p ∈ queue d mutants i := by
  rw [queuesQueue] at there
  obtain ⟨_, inside, old⟩ := layersMember there member
  obtain ⟨i, _, rfl⟩ := List.mem_map.mp inside
  exact ⟨i, old⟩

theorem apartIndependent {roots : List String} (c : Charted resolver roots d) {i j : Nat}
    {p q : Placed} (first : p ∈ queue d mutants i) (second : q ∈ queue d mutants j)
    (different : p.file ≠ q.file) (apart : Apart p q) :
    Independent resolver p.mutant q.mutant := by
  obtain ⟨known, _, requires, requiredBy⟩ := queueMember first
  obtain ⟨other, -⟩ := queueMember second
  obtain ⟨notRequired, notRequiring⟩ := apart
  rw [requires, c.memDependencies known other] at notRequired
  rw [requiredBy, c.memImporters known other] at notRequiring
  refine ⟨fun same => different ?_, notRequired, notRequiring⟩
  exact c.linked.oneToOne known (same ▸ other)

theorem dividedIndependent {roots : List String} (c : Charted resolver roots d)
    {group : List Placed} (member : group ∈ (layers (queues d mutants)).flatMap divide) :
    (group.map (·.mutant)).Pairwise (Independent resolver) := by
  obtain ⟨layer, there, inside⟩ := List.mem_flatMap.mp member
  obtain ⟨_, sub, apart⟩ := divideGroup inside
  have single := (layersSingle (queueHomed d mutants) (queuesQueue d mutants ▸ there)).sublist sub
  rw [List.pairwise_map]
  refine (apart.and single).imp_of_mem fun {p q} first second both => ?_
  obtain ⟨i, fromI⟩ := layerMember there (sub.subset first)
  obtain ⟨j, fromJ⟩ := layerMember there (sub.subset second)
  exact apartIndependent c fromI fromJ both.2 both.1

theorem dividedMember {group : List Placed} {p : Placed}
    (member : group ∈ (layers (queues d mutants)).flatMap divide) (inside : p ∈ group) :
    ∃ i, p ∈ queue d mutants i := by
  obtain ⟨layer, there, divided⟩ := List.mem_flatMap.mp member
  exact layerMember there ((divideGroup divided).2.1.subset inside)

/- The mutants of a charted file are in one queue or all unresolved. -/
theorem unresolvedMutants {roots : List String} (c : Charted resolver roots d)
    (rooted : ∀ m ∈ mutants, m.fileName ∈ roots) :
    unresolved d mutants = mutants.filter fun m => ¬ resolver.Knows m.fileName := by
  refine List.filter_congr fun m member => ?_
  obtain ⟨i, known⟩ := c.roots _ (rooted m member)
  have lost : m.fileName ∈ d.unresolved ↔ ¬ resolver.Knows m.fileName :=
    c.unresolved.trans (and_iff_right ⟨i, known⟩)
  simp [indexOfKnown c.linked known, lost]

theorem dividedFilter {roots : List String} (c : Charted resolver roots d) {i : Nat} {f : String}
    (known : d.graph.file? i = some f) :
    (((layers (queues d mutants)).flatMap divide).map (·.map (·.mutant))).flatten.filter
      (·.fileName = f) = if resolver.Knows f then mutants.filter (·.fileName = f) else [] := by
  have all := groupsFilter (queueHomed d mutants) (file?_lt known)
  rw [← queuesQueue] at all
  rw [← List.map_flatten, List.filter_map]
  have sameFile : ∀ p ∈ ((layers (queues d mutants)).flatMap divide).flatten,
      decide (p.mutant.fileName = f) = decide (p.file = i) := by
    intro p member
    obtain ⟨group, grouped, inside⟩ := List.mem_flatten.mp member
    obtain ⟨j, queued⟩ := dividedMember grouped inside
    have own := (queueMember queued).1
    rw [decide_eq_decide]
    exact ⟨fun same => c.linked.oneToOne own (same ▸ known),
      fun same => Option.some.inj (own.symm.trans (same ▸ known))⟩
  rw [List.filter_congr (q := fun p => p.file = i) sameFile, all]
  have lost : f ∈ d.unresolved ↔ ¬ resolver.Knows f :=
    c.unresolved.trans (and_iff_right ⟨i, known⟩)
  by_cases knows : resolver.Knows f
  · simp only [queue, known, lost, knows, not_true_eq_false, if_false, if_true, List.map_map]
    exact List.map_id' _
  · simp [queue, known, lost, knows]

theorem ofDiscoveryFilter {roots : List String} (c : Charted resolver roots d)
    (rooted : ∀ m ∈ mutants, m.fileName ∈ roots) (f : String) :
    (ofDiscovery d mutants).flatten.filter (·.fileName = f) = mutants.filter (·.fileName = f) := by
  have alone : ((unresolved d mutants).map fun m => [m]).flatten = unresolved d mutants := by
    simp [← List.flatMap_def]
  rw [ofDiscovery, List.flatten_append, List.filter_append, alone,
    unresolvedMutants c rooted, List.filter_filter]
  by_cases charted : ∃ i, d.graph.file? i = some f
  · obtain ⟨i, known⟩ := charted
    rw [dividedFilter c known]
    split
    · next knows =>
      refine (congrArg _ (List.filter_eq_nil_iff.mpr fun a _ both => ?_)).trans (List.append_nil _)
      simp only [Bool.and_eq_true, decide_eq_true_eq] at both
      exact both.2 (both.1 ▸ knows)
    · next unknown =>
      refine List.filter_congr fun a _ => ?_
      by_cases same : a.fileName = f <;> simp [same, unknown]
  · have divided : (((layers (queues d mutants)).flatMap divide).map
        (·.map (·.mutant))).flatten.filter (·.fileName = f) = [] := by
      refine List.filter_eq_nil_iff.mpr fun m member same => charted ?_
      rw [← List.map_flatten] at member
      obtain ⟨p, placed, rfl⟩ := List.mem_map.mp member
      obtain ⟨group, grouped, inside⟩ := List.mem_flatten.mp placed
      obtain ⟨i, queued⟩ := dividedMember grouped inside
      exact ⟨p.file, (queueMember queued).1.trans (congrArg some (of_decide_eq_true same))⟩
    have none : ∀ m ∈ mutants, m.fileName ≠ f := fun m member same =>
      charted (same ▸ c.roots _ (rooted m member))
    rw [divided, List.nil_append]
    refine List.filter_congr fun m member => ?_
    simp [none m member]

/- Mutants of one file keep their order, so the groups hold all mutants. -/
theorem permOfFiles {xs ys : List Mutant}
    (same : ∀ f, xs.filter (·.fileName = f) = ys.filter (·.fileName = f)) : xs.Perm ys := by
  rw [List.perm_iff_count]
  intro m
  rw [← List.count_filter (p := fun a => a.fileName = m.fileName) (by simp), same,
    List.count_filter (by simp)]

end Charted

/- The whole way from mutants to groups, at every limit that is not too small. -/
theorem buildCharted {resolver : Resolver Id} {mutants : List Mutant}
    (finite : (reached resolver mutants).Finite) :
    ∃ d, Charted resolver (firsts (mutants.map (·.fileName))) d ∧
      ∀ limit, (reached resolver mutants).ncard ≤ limit →
        build resolver limit mutants =
          some (ofDiscovery d mutants, d.notes ++ notes d mutants) := by
  have bounded : Bounded resolver (firsts (mutants.map (·.fileName))) finite.toFinset := by
    intro root member f path
    obtain ⟨m, there, rfl⟩ := List.mem_map.mp (memFirsts.mp member)
    exact finite.mem_toFinset.mpr ⟨m, there, path⟩
  obtain ⟨d, charted, result⟩ := ofRootsCharted bounded
  refine ⟨d, charted, fun limit enough => ?_⟩
  rw [Set.ncard_eq_toFinset_card _ finite] at enough
  simp only [build, bind, result limit enough]
  rfl

theorem reachedFinite {resolver : Resolver Id} {mutants : List Mutant} (files : Finset String)
    (hosts : ∀ m ∈ mutants, m.fileName ∈ files)
    (closed : ∀ f ∈ files, ∀ g, resolver.Requires f g → g ∈ files) :
    (reached resolver mutants).Finite := by
  have rooted : ∀ root ∈ mutants.map (·.fileName), root ∈ files :=
    List.forall_mem_map.mpr hosts
  refine (Resolver.reachedFinite files rooted closed).subset ?_
  rintro f ⟨m, member, path⟩
  exact ⟨_, List.mem_map_of_mem member, path⟩

theorem ofDiscoveryIndependent {resolver : Resolver Id} {mutants : List Mutant} {d : Discovery}
    {roots : List String} (charted : Charted resolver roots d) {group : List Mutant}
    (member : group ∈ ofDiscovery d mutants) : group.Pairwise (Independent resolver) := by
  rcases List.mem_append.mp member with front | alone
  · obtain ⟨placed, divided, rfl⟩ := List.mem_map.mp front
    exact dividedIndependent charted divided
  · obtain ⟨m, _, rfl⟩ := List.mem_map.mp alone
    exact List.pairwise_singleton _ m

/- Whatever requires what, nothing in a group leads to anything else in it. -/
theorem groupsIndependent {resolver : Resolver Id} {mutants : List Mutant}
    (finite : (reached resolver mutants).Finite) :
    ∃ groups notes, (∀ limit, (reached resolver mutants).ncard ≤ limit →
        build resolver limit mutants = some (groups, notes)) ∧
      ∀ group ∈ groups, group.Pairwise (Independent resolver) := by
  obtain ⟨d, charted, result⟩ := buildCharted finite
  exact ⟨_, _, result, fun _ member => ofDiscoveryIndependent charted member⟩

def ring : Resolver Id := fun file => pure
  { outcome :=
      if file = "a" then .ok ["b"] else if file = "b" then .ok ["a", "c"]
      else .error (.unknownFile file) }

def ringMutants : List Mutant :=
  [{ id := "1", fileName := "a" }, { id := "2", fileName := "x" }, { id := "3", fileName := "b" },
    { id := "1", fileName := "a" }]

theorem ringStep {f g : String} (step : ring.Requires f g) :
    (f = "a" ∨ f = "b") ∧ (g = "a" ∨ g = "b" ∨ g = "c") := by
  obtain ⟨required, found, member⟩ := step
  simp only [ring, Id.run, pure] at found
  split at found
  · cases Except.ok.inj found
    simp_all
  · split at found
    · cases Except.ok.inj found
      simp at member
      tauto
    · simp at found

theorem ringFinite : (reached ring ringMutants).Finite := by
  refine reachedFinite {"a", "b", "c", "x"} (by decide) fun f _ g step => ?_
  rcases (ringStep step).2 with rfl | rfl | rfl <;> simp

theorem groupsIndependentRing : (reached ring ringMutants).Finite ∧
    ∃ groups notes, (∀ limit, (reached ring ringMutants).ncard ≤ limit →
        build ring limit ringMutants = some (groups, notes)) ∧
      ∀ group ∈ groups, group.Pairwise (Independent ring) :=
  ⟨ringFinite, groupsIndependent ringFinite⟩

/- All mutants are divided among the groups, whatever their ids. -/
theorem groupsPartition {resolver : Resolver Id} {mutants : List Mutant}
    (finite : (reached resolver mutants).Finite) :
    ∃ groups notes, (∀ limit, (reached resolver mutants).ncard ≤ limit →
        build resolver limit mutants = some (groups, notes)) ∧
      groups.flatten.Perm mutants ∧ (∀ group ∈ groups, group ≠ []) ∧
      (∃ front, groups = front ++
          (mutants.filter fun m => ¬ resolver.Knows m.fileName).map (fun m => [m]) ∧
        ∀ group ∈ front, ∀ m ∈ group, resolver.Knows m.fileName) ∧
      ∀ f, groups.flatten.filter (·.fileName = f) = mutants.filter (·.fileName = f) := by
  obtain ⟨d, charted, result⟩ := buildCharted finite
  have rooted : ∀ m ∈ mutants, m.fileName ∈ firsts (mutants.map (·.fileName)) :=
    fun m member => memFirsts.mpr (List.mem_map_of_mem member)
  have files := ofDiscoveryFilter charted rooted
  refine ⟨_, _, result, permOfFiles files, fun group member => ?_, ?_, files⟩
  · rcases List.mem_append.mp member with front | alone
    · obtain ⟨placed, divided, rfl⟩ := List.mem_map.mp front
      obtain ⟨layer, _, inside⟩ := List.mem_flatMap.mp divided
      exact fun empty => (divideGroup inside).1 (List.map_eq_nil_iff.mp empty)
    · obtain ⟨m, _, rfl⟩ := List.mem_map.mp alone
      exact List.cons_ne_nil _ _
  · refine ⟨_, by rw [ofDiscovery, unresolvedMutants charted rooted], fun group member m inside => ?_⟩
    obtain ⟨placed, divided, rfl⟩ := List.mem_map.mp member
    obtain ⟨p, there, rfl⟩ := List.mem_map.mp inside
    obtain ⟨i, queued⟩ := dividedMember divided there
    obtain ⟨known, resolved, -⟩ := queueMember queued
    by_contra unknown
    exact resolved (charted.unresolved.mpr ⟨⟨_, known⟩, unknown⟩)

theorem groupsPartitionRing : (reached ring ringMutants).Finite ∧
    ∃ groups notes, (∀ limit, (reached ring ringMutants).ncard ≤ limit →
        build ring limit ringMutants = some (groups, notes)) ∧
      groups.flatten.Perm ringMutants ∧ (∀ group ∈ groups, group ≠ []) ∧
      (∃ front, groups = front ++
          (ringMutants.filter fun m => ¬ ring.Knows m.fileName).map (fun m => [m]) ∧
        ∀ group ∈ front, ∀ m ∈ group, ring.Knows m.fileName) ∧
      ∀ f, groups.flatten.filter (·.fileName = f) = ringMutants.filter (·.fileName = f) :=
  ⟨ringFinite, groupsPartition ringFinite⟩

end Grouping

end MutationPipeline.Dependency
