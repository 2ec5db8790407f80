import Mathlib
import MutationPipeline.Proofs.Dependency.Groups

/-! Grouping is greedy. It goes in passes, one for each layer, and a pass takes the next mutant of
every file that has one left. A mutant that does not join a group is kept out by one of its members,
so files that do not lead to each other are never separated. Nothing is claimed about the least
number of groups. -/
namespace MutationPipeline.Dependency.Grouping
open Relation Dependency.Graph Discovery

section Divide
variable {requires requiredBy : List Nat} {ps : List Placed}

/- The lists are those of the members so far, so a mutant that they exclude is excluded by one of
the members or was so from the start. -/
theorem gatherOpposed {q : Placed} (left : q ∈ (gather requires requiredBy ps).2) :
    (q.file ∈ requires ∨ q.file ∈ requiredBy) ∨
      ∃ p ∈ (gather requires requiredBy ps).1, ¬ Apart p q := by
  induction ps generalizing requires requiredBy with
  | nil => simp [gather] at left
  | cons p rest ih =>
    simp only [gather] at left ⊢
    split at left
    · next excluded =>
      rw [if_pos excluded]
      rcases List.mem_cons.mp left with rfl | later
      · exact .inl excluded
      · exact ih later
    · next free =>
      rw [if_neg free]
      rcases ih left with before | ⟨a, member, opposed⟩
      · simp only [List.mem_append] at before
        by_cases own : Apart p q
        · exact .inl (before.imp (·.resolve_right own.1) (·.resolve_right own.2))
        · exact .inr ⟨p, List.mem_cons_self, own⟩
      · exact .inr ⟨a, List.mem_cons_of_mem _ member, opposed⟩

theorem divideOpposed (layer : List Placed) :
    (divide layer).Pairwise fun g h => ∀ q ∈ h, ∃ p ∈ g, ¬ Apart p q := by
  fun_induction divide layer with
  | case1 => exact .nil
  | case2 seed rest _ ih =>
    refine List.pairwise_cons.mpr ⟨fun h later q inside => ?_, ih⟩
    have left := (dividePerm _).subset (List.mem_flatten_of_mem later inside)
    rcases gatherOpposed left with bySeed | ⟨p, member, opposed⟩
    · exact ⟨seed, List.mem_cons_self, fun apart => bySeed.elim apart.1 apart.2⟩
    · exact ⟨p, List.mem_cons_of_mem _ member, opposed⟩

end Divide

section Layers
variable {q : Nat → List Placed} {n : Nat}

theorem layersInhabited {α : Type} {queues : List (List α)} {layer : List α}
    (there : layer ∈ layers queues) : layer ≠ [] := by
  fun_induction layers queues with
  | case1 => simp at there
  | case2 queues first others _ _ ih =>
    rcases List.mem_cons.mp there with rfl | later
    · exact List.cons_ne_nil _ _
    · exact ih later

/- A layer holds what stands at its number in each queue. -/
theorem layersAt (homed : Homed q) {i k : Nat} (inside : i < n) {layer : List Placed}
    (there : (layers ((List.range n).map q))[k]? = some layer) :
    layer.filter (·.file = i) = (q i)[k]?.toList := by
  generalize shape : (List.range n).map q = queues at there
  fun_induction layers queues generalizing q k with
  | case1 => simp at there
  | case2 queues first others found _ ih =>
    cases k with
    | zero =>
      cases Option.some.inj there
      rw [← found, ← shape, headsFilter homed, if_pos inside, List.head?_eq_getElem?]
    | succ k =>
      rw [ih homed.tail (shape ▸ tailsQueues.symm) there, List.getElem?_tail]

theorem layersEnough (homed : Homed q) {i : Nat} (inside : i < n) :
    (q i).length ≤ (layers ((List.range n).map q)).length := by
  generalize shape : (List.range n).map q = queues
  fun_induction layers queues generalizing q with
  | case1 queues empty =>
    have none := headsFilter (n := n) homed i
    rw [shape, empty, if_pos inside] at none
    rw [List.head?_eq_none_iff.mp (Option.toList_eq_nil_iff.mp none.symm)]
    exact Nat.zero_le _
  | case2 queues first others found _ ih =>
    have fewer := ih homed.tail (shape ▸ tailsQueues.symm)
    rw [List.length_tail] at fewer
    rw [List.length_cons]
    omega

end Layers

def Dependent (resolver : Resolver Id) (a b : Mutant) : Prop :=
  TransGen resolver.Requires a.fileName b.fileName ∨
    TransGen resolver.Requires b.fileName a.fileName

/-- The groups of the pass with a number. It takes the mutants that have this number in their files,
and everyone in a later group is kept out of each earlier one by somebody in it. -/
structure Pass (resolver : Resolver Id) (mutants : List Mutant) (n : Nat)
    (groups : List (List Mutant)) : Prop where
  inhabited : groups ≠ [] ∧ ∀ group ∈ groups, group ≠ []
  taken : ∀ f, groups.flatten.filter (·.fileName = f) =
    if resolver.Knows f then (mutants.filter (·.fileName = f))[n]?.toList else []
  opposed : groups.Pairwise fun g h => ∀ b ∈ h, ∃ a ∈ g, Dependent resolver a b

def resolvable (resolver : Resolver Id) (mutants : List Mutant) : List Mutant :=
  mutants.filter fun m => resolver.Knows m.fileName

def most (mutants : List Mutant) : Nat :=
  (mutants.map (·.fileName)).toFinset.sup fun f => (mutants.filter (·.fileName = f)).length

def passes (d : Discovery) (mutants : List Mutant) : List (List (List Mutant)) :=
  (layers (queues d mutants)).map fun layer => (divide layer).map (·.map (·.mutant))

theorem ofDiscoveryPasses (d : Discovery) (mutants : List Mutant) : ofDiscovery d mutants =
    (passes d mutants).flatten ++ (unresolved d mutants).map fun m => [m] := by
  rw [ofDiscovery, List.map_flatMap, List.flatMap_def]
  rfl

section Charted
variable {resolver : Resolver Id} {mutants : List Mutant} {roots : List String} {d : Discovery}

theorem queueMutants (c : Charted resolver roots d) {i : Nat} {f : String}
    (known : d.graph.file? i = some f) : (queue d mutants i).map (·.mutant) =
      if resolver.Knows f then mutants.filter (·.fileName = f) else [] := by
  have lost : f ∈ d.unresolved ↔ ¬ resolver.Knows f :=
    c.unresolved.trans (and_iff_right ⟨i, known⟩)
  by_cases knows : resolver.Knows f
  · simp only [queue, known, lost, knows, not_true_eq_false, if_false, if_true, List.map_map]
    exact List.map_id' _
  · simp [queue, known, lost, knows]

theorem placedFile (c : Charted resolver roots d) {i j : Nat} {f : String} {p : Placed}
    (known : d.graph.file? i = some f) (queued : p ∈ queue d mutants j) :
    p.mutant.fileName = f ↔ p.file = i := by
  have own := (queueMember queued).1
  exact ⟨fun same => c.linked.oneToOne own (same ▸ known),
    fun same => Option.some.inj (own.symm.trans (same ▸ known))⟩

theorem layerTaken (c : Charted resolver roots d) (rooted : ∀ m ∈ mutants, m.fileName ∈ roots)
    {n : Nat} {layer : List Placed} (there : (layers (queues d mutants))[n]? = some layer)
    (f : String) : ((divide layer).map (·.map (·.mutant))).flatten.filter (·.fileName = f) =
      if resolver.Knows f then (mutants.filter (·.fileName = f))[n]?.toList else [] := by
  have member := List.mem_of_getElem? there
  have queued : ∀ p ∈ (divide layer).flatten, ∃ i, p ∈ queue d mutants i := fun p inside =>
    layerMember member ((dividePerm layer).subset inside)
  rw [← List.map_flatten, List.filter_map]
  by_cases charted : ∃ i, d.graph.file? i = some f
  · obtain ⟨i, known⟩ := charted
    rw [queuesQueue] at there member
    have sameFile : ∀ p ∈ (divide layer).flatten,
        decide (p.mutant.fileName = f) = decide (p.file = i) := fun p inside => by
      obtain ⟨j, own⟩ := queued p inside
      rw [decide_eq_decide]
      exact placedFile c known own
    rw [List.filter_congr (q := fun p => p.file = i) sameFile,
      divideFilter (layersSingle (queueHomed d mutants) member),
      layersAt (queueHomed d mutants) (file?_lt known) there, ← Option.toList_map,
      ← List.getElem?_map, queueMutants c known]
    split <;> rfl
  · have nobody : mutants.filter (·.fileName = f) = [] := List.filter_eq_nil_iff.mpr
      fun m inside same => charted (of_decide_eq_true same ▸ c.roots _ (rooted m inside))
    have none : (divide layer).flatten.filter ((fun m => decide (m.fileName = f)) ∘ (·.mutant)) = [] :=
      List.filter_eq_nil_iff.mpr fun p inside same => by
        obtain ⟨i, own⟩ := queued p inside
        have known := (queueMember own).1
        rw [of_decide_eq_true same] at known
        exact charted ⟨_, known⟩
    rw [none, nobody]
    split <;> rfl

theorem opposedDependent (c : Charted resolver roots d) {i j : Nat} {p q : Placed}
    (first : p ∈ queue d mutants i) (second : q ∈ queue d mutants j) (opposed : ¬ Apart p q) :
    Dependent resolver p.mutant q.mutant := by
  obtain ⟨known, -, requires, requiredBy⟩ := queueMember first
  obtain ⟨other, -⟩ := queueMember second
  rw [Apart, requires, requiredBy, c.memDependencies known other, c.memImporters known other] at opposed
  exact (not_and_or.mp opposed).imp not_not.mp not_not.mp

theorem layerPass (c : Charted resolver roots d) (rooted : ∀ m ∈ mutants, m.fileName ∈ roots)
    {n : Nat} {layer : List Placed} (there : (layers (queues d mutants))[n]? = some layer) :
    Pass resolver mutants n ((divide layer).map (·.map (·.mutant))) where
  inhabited := by
    have member := List.mem_of_getElem? there
    refine ⟨fun empty => ?_, fun group inside empty => ?_⟩
    · have whole := dividePerm layer
      rw [List.map_eq_nil_iff.mp empty] at whole
      exact layersInhabited member (List.nil_perm.mp whole)
    · obtain ⟨placed, divided, rfl⟩ := List.mem_map.mp inside
      exact (divideGroup divided).1 (List.map_eq_nil_iff.mp empty)
  taken := layerTaken c rooted there
  opposed := by
    have queued : ∀ group ∈ divide layer, ∀ p ∈ group, ∃ i, p ∈ queue d mutants i :=
      fun group divided p inside =>
        layerMember (List.mem_of_getElem? there) ((divideGroup divided).2.1.subset inside)
    rw [List.pairwise_map]
    refine (divideOpposed layer).imp_of_mem fun {g h} first second opposed b inside => ?_
    obtain ⟨q, later, rfl⟩ := List.mem_map.mp inside
    obtain ⟨p, earlier, kept⟩ := opposed q later
    obtain ⟨i, fromI⟩ := queued g first p earlier
    obtain ⟨j, fromJ⟩ := queued h second q later
    exact ⟨p.mutant, List.mem_map_of_mem earlier, opposedDependent c fromI fromJ kept⟩

theorem passesEnough (c : Charted resolver roots d) (rooted : ∀ m ∈ mutants, m.fileName ∈ roots)
    {m : Mutant} (member : m ∈ mutants) (knows : resolver.Knows m.fileName) :
    (mutants.filter (·.fileName = m.fileName)).length ≤ (passes d mutants).length := by
  obtain ⟨i, known⟩ := c.roots _ (rooted m member)
  have enough := layersEnough (queueHomed d mutants) (file?_lt known)
  rw [← queuesQueue, ← List.length_map (·.mutant), queueMutants c known, if_pos knows] at enough
  rwa [passes, List.length_map]

end Charted

section Passes
variable {resolver : Resolver Id} {mutants : List Mutant} {n : Nat} {groups : List (List Mutant)}

theorem Pass.member (pass : Pass resolver mutants n groups) {m : Mutant}
    (inside : m ∈ groups.flatten) :
    resolver.Knows m.fileName ∧ (mutants.filter (·.fileName = m.fileName))[n]? = some m := by
  have own : m ∈ groups.flatten.filter (·.fileName = m.fileName) := by simpa using inside
  rw [pass.taken] at own
  split at own
  · next knows => exact ⟨knows, Option.mem_toList.mp own⟩
  · simp at own

/- A pass has one mutant of a file, so two of its groups have no file in common. -/
theorem Pass.single (pass : Pass resolver mutants n groups) (f : String) :
    (groups.flatten.filter (·.fileName = f)).length ≤ 1 := by
  rw [pass.taken]
  split
  · cases (mutants.filter (·.fileName = f))[n]? <;> simp
  · exact Nat.zero_le 1

theorem Pass.lone (pass : Pass resolver mutants n groups)
    (independent : ∀ a ∈ mutants, ∀ b ∈ mutants, a.fileName ≠ b.fileName →
      ¬ TransGen resolver.Requires a.fileName b.fileName) : groups.length = 1 := by
  match groups, pass with
  | [], pass => exact absurd rfl pass.inhabited.1
  | [_], _ => rfl
  | g :: h :: rest, pass =>
    obtain ⟨b, inB⟩ := List.exists_mem_of_ne_nil h (pass.inhabited.2 h (by simp))
    obtain ⟨a, inA, dependent⟩ := List.rel_of_pairwise_cons pass.opposed List.mem_cons_self b inB
    have there : ∀ m, m ∈ g ∨ m ∈ h → m ∈ mutants := fun m inside => by
      have taken := (pass.member (m := m) (by simp; tauto)).2
      exact List.mem_of_mem_filter (List.mem_of_getElem? taken)
    have different : a.fileName ≠ b.fileName := fun same => by
      have single := pass.single b.fileName
      have first : 0 < (g.filter (·.fileName = b.fileName)).length :=
        List.length_pos_of_mem (List.mem_filter.mpr ⟨inA, decide_eq_true same⟩)
      have second : 0 < (h.filter (·.fileName = b.fileName)).length :=
        List.length_pos_of_mem (List.mem_filter.mpr ⟨inB, decide_eq_true rfl⟩)
      simp only [List.flatten_cons, List.filter_append, List.length_append] at single
      omega
    rcases dependent with forth | back
    · exact absurd forth (independent a (there a (.inl inA)) b (there b (.inr inB)) different)
    · exact absurd back (independent b (there b (.inr inB)) a (there a (.inl inA)) different.symm)

/- In a file that is known no mutant is left out by looking at the known ones only. -/
theorem knownHosted {f : String} (knows : resolver.Knows f) :
    (resolvable resolver mutants).filter (·.fileName = f) =
      mutants.filter (·.fileName = f) := by
  rw [resolvable, List.filter_filter]
  refine List.filter_congr fun m _ => ?_
  by_cases same : m.fileName = f <;> simp [same, knows]

theorem mostEnough {m : Mutant} (member : m ∈ mutants) (knows : resolver.Knows m.fileName) :
    (mutants.filter (·.fileName = m.fileName)).length ≤
      most (resolvable resolver mutants) := by
  have there : m ∈ resolvable resolver mutants :=
    List.mem_filter.mpr ⟨member, decide_eq_true knows⟩
  rw [← knownHosted knows]
  exact Finset.le_sup (f := fun f => ((resolvable resolver mutants).filter (·.fileName = f)).length)
    (List.mem_toFinset.mpr (List.mem_map_of_mem there))

theorem mostLeast {k : Nat} (enough : ∀ m ∈ mutants, resolver.Knows m.fileName →
      (mutants.filter (·.fileName = m.fileName)).length ≤ k) :
    most (resolvable resolver mutants) ≤ k := by
  refine Finset.sup_le fun f member => ?_
  obtain ⟨m, inside, rfl⟩ := List.mem_map.mp (List.mem_toFinset.mp member)
  obtain ⟨there, knows⟩ := List.mem_filter.mp inside
  rw [knownHosted (of_decide_eq_true knows)]
  exact enough m there (of_decide_eq_true knows)

theorem Pass.below (pass : Pass resolver mutants n groups) :
    n < most (resolvable resolver mutants) := by
  obtain ⟨group, first⟩ := List.exists_mem_of_ne_nil groups pass.inhabited.1
  obtain ⟨m, inside⟩ := List.exists_mem_of_ne_nil group (pass.inhabited.2 group first)
  obtain ⟨knows, taken⟩ := pass.member (List.mem_flatten_of_mem first inside)
  have there := List.mem_of_mem_filter (List.mem_of_getElem? taken)
  exact Nat.lt_of_lt_of_le (List.getElem?_eq_some_iff.mp taken).1 (mostEnough there knows)

end Passes

theorem passesPass {resolver : Resolver Id} {mutants : List Mutant} {roots : List String}
    {d : Discovery} (c : Charted resolver roots d) (rooted : ∀ m ∈ mutants, m.fileName ∈ roots)
    {n : Nat} {groups : List (List Mutant)} (there : (passes d mutants)[n]? = some groups) :
    Pass resolver mutants n groups := by
  rw [passes, List.getElem?_map] at there
  obtain ⟨layer, found, rfl⟩ := Option.map_eq_some_iff.mp there
  exact layerPass c rooted found

theorem passesMost {resolver : Resolver Id} {mutants : List Mutant} {roots : List String}
    {d : Discovery} (c : Charted resolver roots d) (rooted : ∀ m ∈ mutants, m.fileName ∈ roots) :
    (passes d mutants).length = most (resolvable resolver mutants) := by
  refine Nat.le_antisymm ?_ (mostLeast fun m member knows => passesEnough c rooted member knows)
  rcases Nat.eq_zero_or_pos (passes d mutants).length with none | some
  · exact none ▸ Nat.zero_le _
  · have last := List.getElem?_eq_getElem (Nat.sub_one_lt_of_lt some)
    have below := (passesPass c rooted last).below
    omega

/- The groups of known files are those of the passes one after the other. Where no file leads to
another one each pass is a single group. -/
theorem groupsGreedy {resolver : Resolver Id} {mutants : List Mutant}
    (finite : (reached resolver mutants).Finite) :
    ∃ (passes : List (List (List Mutant))) (notes : List Note),
      (∀ limit, (reached resolver mutants).ncard ≤ limit →
        build resolver limit mutants = some (passes.flatten ++
          (mutants.filter fun m => ¬ resolver.Knows m.fileName).map (fun m => [m]), notes)) ∧
      (∀ n groups, passes[n]? = some groups → Pass resolver mutants n groups) ∧
      passes.length = most (resolvable resolver mutants) ∧
      ((∀ a ∈ mutants, ∀ b ∈ mutants, a.fileName ≠ b.fileName →
          ¬ TransGen resolver.Requires a.fileName b.fileName) →
        passes.flatten.length = most (resolvable resolver mutants)) := by
  obtain ⟨d, charted, result⟩ := buildCharted finite
  have rooted : ∀ m ∈ mutants, m.fileName ∈ firsts (mutants.map (·.fileName)) :=
    fun m member => memFirsts.mpr (List.mem_map_of_mem member)
  have length := passesMost charted rooted
  refine ⟨passes d mutants, d.notes ++ notes d mutants, fun limit enough => ?_,
    fun n groups => passesPass charted rooted, length, fun independent => ?_⟩
  · rw [result limit enough, ofDiscoveryPasses, unresolvedMutants charted rooted]
  · have lone : ∀ groups ∈ passes d mutants, groups.length = 1 := fun groups member => by
      obtain ⟨n, there⟩ := List.getElem?_of_mem member
      exact (passesPass charted rooted there).lone independent
    rw [← length, List.length_flatten, List.map_congr_left lone, List.map_const']
    simp

/- Files of the ring that are apart: `a` with two mutants, and one of which nothing is known. -/
def apartMutants : List Mutant :=
  [{ id := "1", fileName := "a" }, { id := "2", fileName := "x" }, { id := "3", fileName := "a" }]

theorem apartFinite : (reached ring apartMutants).Finite :=
  ringFinite.subset fun _ ⟨m, member, path⟩ => by
    simp only [apartMutants, List.mem_cons, List.not_mem_nil, or_false] at member
    rcases member with rfl | rfl | rfl
    · exact ⟨{ id := "1", fileName := "a" }, by simp [ringMutants], path⟩
    · exact ⟨{ id := "2", fileName := "x" }, by simp [ringMutants], path⟩
    · exact ⟨{ id := "1", fileName := "a" }, by simp [ringMutants], path⟩

theorem apartIndependence : ∀ a ∈ apartMutants, ∀ b ∈ apartMutants, a.fileName ≠ b.fileName →
    ¬ TransGen ring.Requires a.fileName b.fileName := by
  have files : ∀ m ∈ apartMutants, m.fileName = "a" ∨ m.fileName = "x" := by decide
  intro a inA b inB different path
  obtain ⟨_, first, -⟩ := TransGen.head'_iff.mp path
  obtain ⟨_, -, last⟩ := TransGen.tail'_iff.mp path
  have source := (ringStep first).1
  have target := (ringStep last).2
  rcases files a inA with fa | fa <;> rcases files b inB with fb | fb <;> simp_all

theorem groupsGreedyRing :
    (∃ (passes : List (List (List Mutant))) (notes : List Note),
      (∀ limit, (reached ring ringMutants).ncard ≤ limit →
        build ring limit ringMutants =
          some (passes.flatten ++ [[{ id := "2", fileName := "x" }]], notes)) ∧
      (∀ n groups, passes[n]? = some groups → Pass ring ringMutants n groups) ∧
      passes.length = 2) ∧
    ∃ (passes : List (List (List Mutant))) (notes : List Note),
      (∀ limit, (reached ring apartMutants).ncard ≤ limit →
        build ring limit apartMutants =
          some (passes.flatten ++ [[{ id := "2", fileName := "x" }]], notes)) ∧
      passes.flatten.length = 2 := by
  obtain ⟨passes, notes, built, each, length, -⟩ := groupsGreedy ringFinite
  obtain ⟨alone, more, builtAlone, -, -, single⟩ := groupsGreedy apartFinite
  exact ⟨⟨passes, notes, built, each, length⟩, alone, more, builtAlone, single apartIndependence⟩

end MutationPipeline.Dependency.Grouping
