import MutationPipeline.Proofs.Checker.Assembly

/-!
Where the mutants of a batch come to stand, whatever a checker proposes. Each one goes to the group
that names it first and there to the place where it is named first; those that no group names follow
in the order of the batch, each on its own. The first id that is not in the batch is the error.
-/
namespace MutationPipeline.Assembly

def isStranger (batch : List CoveredMutant) (m : Mutant) : Bool := m.id ∉ batch.map (·.id)

def firstNamed (before : List (List Mutant)) (group : List Mutant) : List String :=
  ((group.map (·.id)).filter fun id => id ∉ before.flatten.map (·.id)).eraseDups

def omitted (batch : List CoveredMutant) (groups : List (List Mutant)) : List CoveredMutant :=
  batch.filter fun m => m.id ∉ groups.flatten.map (·.id)

/-- The groups of a batch as they were proposed. -/
structure Arranged (batch : List CoveredMutant) (groups : List (List Mutant))
    (gs : List (List CoveredMutant)) : Prop where
  inhabited : ∀ g ∈ gs, g ≠ []
  whole : gs.flatten.Perm batch
  placed : ∃ rows : List (List CoveredMutant),
    rows.map (·.map (·.id)) = groups.mapIdx (fun i group => firstNamed (groups.take i) group) ∧
      gs = rows.filter (!·.isEmpty) ++ (omitted batch groups).map fun m => [m]

structure Reached (batch : List CoveredMutant) (named : List String) (p : Progress) : Prop where
  pending : p.pending = batch.filter fun m => m.id ∉ named
  assigned : ∀ id, id ∈ p.assigned ↔ id ∈ named
  known : named ⊆ batch.map (·.id)

section Groups
variable (checker : String) {batch : List CoveredMutant} {named others : List String} {p : Progress}
  {m : Mutant} {group : List Mutant} {front groups : List (List Mutant)}

theorem Reached.same (reached : Reached batch named p) (same : ∀ id, id ∈ named ↔ id ∈ others) :
    Reached batch others p where
  pending := by simp only [reached.pending, same]
  assigned := fun id => (reached.assigned id).trans (same id)
  known := fun id member => reached.known ((same id).mpr member)

theorem Reached.missing (reached : Reached batch named p)
    (none : m.id ∈ named ∨ isStranger batch m = true) :
    p.pending.find? (fun n => n.id = m.id) = Option.none := by
  refine List.find?_eq_none.mpr fun n member same => ?_
  rw [reached.pending] at member
  obtain ⟨inside, fresh⟩ := List.mem_filter.mp member
  have same : n.id = m.id := of_decide_eq_true same
  rcases none with old | stranger
  · exact of_decide_eq_true fresh (same ▸ old)
  · exact of_decide_eq_true stranger (same ▸ List.mem_map_of_mem inside)

theorem Reached.found (reached : Reached batch named p) (fresh : m.id ∉ named)
    (known : m.id ∈ batch.map (·.id)) :
    ∃ full, p.pending.find? (fun n => n.id = m.id) = some full ∧ full.id = m.id := by
  obtain ⟨n, member, same⟩ := List.mem_map.mp known
  have pending : n ∈ p.pending := by
    rw [reached.pending]
    exact List.mem_filter.mpr ⟨member, decide_eq_true (same ▸ fresh)⟩
  have some : (p.pending.find? fun n => n.id = m.id).isSome = true :=
    List.find?_isSome.mpr ⟨n, pending, decide_eq_true same⟩
  obtain ⟨full, found⟩ := Option.isSome_iff_exists.mp some
  exact ⟨full, found, by simpa using List.find?_some found⟩

theorem Reached.place (reached : Reached batch named p) (known : m.id ∈ batch.map (·.id)) :
    Reached batch (m.id :: named) { p with
      pending := p.pending.filter fun n => n.id ≠ m.id
      assigned := m.id :: p.assigned } where
  pending := by
    rw [reached.pending, List.filter_filter]
    exact List.filter_congr fun n _ => by simp
  assigned := fun id => by simp [reached.assigned id]
  known := List.cons_subset.mpr ⟨known, reached.known⟩

theorem placeGroupHead (rest : List Mutant) (reached : Reached batch named p)
    (known : m.id ∈ batch.map (·.id)) :
    (m.id ∈ named ∧ ∃ q, Reached batch named q ∧
      placeGroup checker (m :: rest) p = placeGroup checker rest q) ∨
    (m.id ∉ named ∧ ∃ full q, full.id = m.id ∧ Reached batch (m.id :: named) q ∧
      placeGroup checker (m :: rest) p =
        ((placeGroup checker rest q).1.map (full :: ·), (placeGroup checker rest q).2)) := by
  by_cases old : m.id ∈ named
  · refine .inl ⟨old, { p with notes := p.notes ++ [repeatNote checker m.id] }, ?_, ?_⟩
    · exact ⟨reached.pending, reached.assigned, reached.known⟩
    · rw [placeGroup, reached.missing (.inl old)]
      exact if_pos ((reached.assigned m.id).mpr old)
  · obtain ⟨full, found, own⟩ := reached.found old known
    refine .inr ⟨old, full, _, own, reached.place known, ?_⟩
    rw [placeGroup, found]

theorem firstNamedHead (id : String) (ids : List String) (fresh : id ∉ named) :
    ((id :: ids).filter fun i => i ∉ named).eraseDups =
      id :: (ids.filter fun i => i ∉ id :: named).eraseDups := by
  rw [List.filter_cons_of_pos (by simpa using fresh), List.eraseDups_cons, List.filter_filter]
  congr 2
  exact List.filter_congr fun i _ => by simp [beq_eq_decide]

theorem placeGroupKnown (reached : Reached batch named p)
    (known : ∀ m ∈ group, m.id ∈ batch.map (·.id)) :
    ∃ members q, placeGroup checker group p = (.ok members, q) ∧
      members.map (·.id) = ((group.map (·.id)).filter fun id => id ∉ named).eraseDups ∧
        Reached batch (named ++ group.map (·.id)) q := by
  induction group generalizing named p with
  | nil => exact ⟨[], p, rfl, rfl, reached.same (by simp)⟩
  | cons m rest ih =>
    have later : ∀ n ∈ rest, n.id ∈ batch.map (·.id) := fun n member =>
      known n (List.mem_cons_of_mem m member)
    rcases placeGroupHead checker rest reached (known m List.mem_cons_self) with
      ⟨old, q, still, same⟩ | ⟨fresh, full, q, own, next, same⟩
    · obtain ⟨members, r, placed, order, after⟩ := ih still later
      refine ⟨members, r, same.trans placed, ?_, after.same fun id => ?_⟩
      · rw [order, List.map_cons, List.filter_cons_of_neg (by simpa using old)]
      · simp only [List.mem_append, List.map_cons, List.mem_cons]
        grind
    · obtain ⟨members, r, placed, order, after⟩ := ih next later
      refine ⟨full :: members, r, ?_, ?_, after.same fun id => ?_⟩
      · rw [same, placed]
        rfl
      · rw [List.map_cons, List.map_cons, own, order, firstNamedHead m.id _ fresh]
      · simp only [List.mem_append, List.map_cons, List.mem_cons]
        grind

theorem placeGroupStranger (reached : Reached batch named p)
    (found : group.find? (isStranger batch) = some m) :
    (placeGroup checker group p).1 = .error (.unknownMember checker m.id) := by
  induction group generalizing named p with
  | nil => cases found
  | cons n rest ih =>
    by_cases stranger : isStranger batch n = true
    · rw [List.find?_cons_of_pos stranger] at found
      obtain rfl := Option.some.inj found
      have unassigned : n.id ∉ p.assigned := fun old =>
        of_decide_eq_true stranger (reached.known ((reached.assigned n.id).mp old))
      rw [placeGroup, reached.missing (.inr stranger)]
      exact congrArg Prod.fst (if_neg unassigned)
    · rw [List.find?_cons_of_neg stranger] at found
      have known : n.id ∈ batch.map (·.id) := by simpa [isStranger] using stranger
      rcases placeGroupHead checker rest reached known with
        ⟨-, q, still, same⟩ | ⟨-, full, q, -, next, same⟩
      · rw [same, ih still found]
      · rw [same, ih next found]
        rfl

theorem placeGroupsKnown (reached : Reached batch (front.flatten.map (·.id)) p)
    (known : ∀ g ∈ groups, ∀ m ∈ g, m.id ∈ batch.map (·.id)) :
    ∃ (rows : List (List CoveredMutant)) (q : Progress),
      placeGroups checker groups p = (.ok (rows.filter (!·.isEmpty)), q) ∧
        rows.map (·.map (·.id)) =
          groups.mapIdx (fun i group => firstNamed (front ++ groups.take i) group) ∧
        Reached batch ((front ++ groups).flatten.map (·.id)) q := by
  induction groups generalizing front p with
  | nil => exact ⟨[], p, rfl, rfl, reached.same (by simp)⟩
  | cons g rest ih =>
    obtain ⟨members, q, first, order, next⟩ :=
      placeGroupKnown checker reached (known g List.mem_cons_self)
    have front' : front.flatten.map (·.id) ++ g.map (·.id) = (front ++ [g]).flatten.map (·.id) := by
      simp
    rw [front'] at next
    obtain ⟨rows, r, placed, orders, after⟩ :=
      ih next fun g' member => known g' (List.mem_cons_of_mem g member)
    refine ⟨members :: rows, r, ?_, ?_, ?_⟩
    · rw [placeGroups, first]
      dsimp only
      rw [placed]
      cases members <;> rfl
    · rw [List.map_cons, List.mapIdx_cons, orders, order]
      simp only [List.append_assoc, List.singleton_append, List.take_succ_cons, List.take_zero,
        List.append_nil]
      rfl
    · rwa [List.append_assoc, List.singleton_append] at after

theorem placeGroupsStranger (reached : Reached batch named p)
    (found : groups.flatten.find? (isStranger batch) = some m) :
    (placeGroups checker groups p).1 = .error (.unknownMember checker m.id) := by
  induction groups generalizing named p with
  | nil => cases found
  | cons g rest ih =>
    rw [List.flatten_cons, List.find?_append] at found
    cases here : g.find? (isStranger batch) with
    | some n =>
      rw [here, Option.some_or] at found
      obtain rfl := Option.some.inj found
      have failed := placeGroupStranger checker reached here
      rw [placeGroups]
      split
      · next same =>
        rw [same] at failed
        exact congrArg Except.error (Except.error.inj failed)
      · next same =>
        rw [same] at failed
        cases failed
    | none =>
      rw [here, Option.none_or] at found
      have known : ∀ n ∈ g, n.id ∈ batch.map (·.id) := fun n member => by
        simpa [isStranger] using List.find?_eq_none.mp here n member
      obtain ⟨members, q, first, -, next⟩ := placeGroupKnown checker reached known
      have failed := ih next found
      rw [placeGroups, first]
      dsimp only
      rw [failed]
      rfl

end Groups

section Batch
variable (checker : String) {batch : List CoveredMutant} {groups : List (List Mutant)}

theorem startReached (batch : List CoveredMutant) : Reached batch [] { pending := batch } where
  pending := (List.filter_eq_self.mpr fun _ _ => rfl).symm
  assigned := fun _ => .rfl
  known := List.nil_subset _

theorem leftOverFilter (distinct : (batch.map (·.id)).Nodup) (keep : CoveredMutant → Bool) :
    leftOver batch (batch.filter keep) = batch.filter keep := by
  induction batch with
  | nil => rfl
  | cons m rest ih =>
    obtain ⟨fresh, later⟩ := List.nodup_cons.mp distinct
    have others : ∀ n ∈ rest, n.id ≠ m.id := fun n member same =>
      fresh (List.mem_map.mpr ⟨n, member, same⟩)
    have apart : ∀ n ∈ rest.filter keep, decide (n.id ≠ m.id) = true := fun n member =>
      decide_eq_true (others n (List.mem_of_mem_filter member))
    by_cases kept : keep m = true
    · rw [List.filter_cons_of_pos kept, leftOver, List.find?_cons_of_pos (by simp)]
      dsimp only
      rw [List.filter_cons_of_neg (by simp), List.filter_eq_self.mpr apart, ih later]
    · have none : (rest.filter keep).find? (fun n => n.id = m.id) = none :=
        List.find?_eq_none.mpr fun n member same =>
          of_decide_eq_true (apart n member) (of_decide_eq_true same)
      rw [List.filter_cons_of_neg kept, leftOver, none]
      exact ih later

theorem assembleKnown (distinct : (batch.map (·.id)).Nodup)
    (known : ∀ g ∈ groups, ∀ m ∈ g, m.id ∈ batch.map (·.id)) :
    ∃ gs, (assemble checker batch groups).1 = .ok gs ∧ Arranged batch groups gs := by
  have start : Reached batch ((List.flatten ([] : List (List Mutant))).map (·.id))
      { pending := batch } := startReached batch
  obtain ⟨rows, q, placed, orders, after⟩ := placeGroupsKnown checker start known
  simp only [List.nil_append] at orders after
  have left : q.pending = omitted batch groups := after.pending
  have result : (assemble checker batch groups).1 =
      .ok (rows.filter (!·.isEmpty) ++ (omitted batch groups).map fun m => [m]) := by
    rw [assemble, lastOfEachDistinct distinct, placed]
    dsimp only
    split
    · next none =>
      rw [← left, List.isEmpty_iff.mp none]
      exact congrArg Except.ok (List.append_nil _).symm
    · rw [left, omitted, leftOverFilter distinct]
  refine ⟨_, result, ?_, assemblePerm distinct result, rows, orders, rfl⟩
  intro g member
  rcases List.mem_append.mp member with row | single
  · simpa using (List.mem_filter.mp row).2
  · obtain ⟨m, -, rfl⟩ := List.mem_map.mp single
    exact List.cons_ne_nil m []

theorem assembleStranger {m : Mutant} (distinct : (batch.map (·.id)).Nodup)
    (found : groups.flatten.find? (isStranger batch) = some m) :
    (assemble checker batch groups).1 = .error (.unknownMember checker m.id) := by
  have failed := placeGroupsStranger checker (startReached batch) found
  rw [assemble, lastOfEachDistinct distinct]
  split
  · next same =>
    rw [same] at failed
    exact failed
  · next same =>
    rw [same] at failed
    cases failed

theorem noStranger (none : groups.flatten.find? (isStranger batch) = none) :
    ∀ g ∈ groups, ∀ m ∈ g, m.id ∈ batch.map (·.id) := by
  intro g among m member
  simpa [isStranger] using
    List.find?_eq_none.mp none m (List.mem_flatten.mpr ⟨g, among, member⟩)

end Batch
end MutationPipeline.Assembly

namespace MutationPipeline.Stage
open Assembly (isStranger Arranged)

def proposal (plan : StagePlan) (batch : List CoveredMutant) (own : Option (List (List Mutant))) :
    Option (List (List Mutant)) :=
  own <|> plan.byFiles.map fun byFiles => (byFiles (plain batch)).1

theorem groupsOfProposal {plan : StagePlan} {batch : List CoveredMutant}
    {own : Option (List (List Mutant))} : (groupsOf plan batch own).1 =
      match proposal plan batch own with
      | some groups => (Assembly.assemble plan.checker batch groups).1
      | none => .ok (batch.map fun m => [m]) := by
  unfold groupsOf proposal
  cases own <;> cases plan.byFiles <;> rfl

theorem groupsArranged (plan : StagePlan) {batch : List CoveredMutant}
    (own : Option (List (List Mutant))) (distinct : (batch.map (·.id)).Nodup) :
    match proposal plan batch own with
    | some groups =>
      (∀ e, (groupsOf plan batch own).1 = .error e ↔
        ∃ m, groups.flatten.find? (isStranger batch) = some m ∧
          e = .unknownMember plan.checker m.id) ∧
      ((∀ g ∈ groups, ∀ m ∈ g, m.id ∈ batch.map (·.id)) →
        ∃ gs, (groupsOf plan batch own).1 = .ok gs ∧ Arranged batch groups gs)
    | none => (groupsOf plan batch own).1 = .ok (batch.map fun m => [m]) := by
  rw [groupsOfProposal]
  cases proposal plan batch own with
  | none => rfl
  | some groups =>
    refine ⟨fun e => ⟨fun failed => ?_, ?_⟩, Assembly.assembleKnown plan.checker distinct⟩
    · cases found : groups.flatten.find? (isStranger batch) with
      | some m =>
        have same := (Assembly.assembleStranger plan.checker distinct found).symm.trans failed
        exact ⟨m, rfl, (Except.error.inj same).symm⟩
      | none =>
        obtain ⟨gs, made, -⟩ :=
          Assembly.assembleKnown plan.checker distinct (Assembly.noStranger found)
        cases made.symm.trans failed
    · rintro ⟨m, found, rfl⟩
      exact Assembly.assembleStranger plan.checker distinct found

def trio : List CoveredMutant :=
  [{ id := "1", fileName := "a.ts" }, { id := "2", fileName := "a.ts" },
    { id := "3", fileName := "b.ts", coveredBy := ["t"] }]

def doubled : List (List Mutant) :=
  [[{ id := "3", fileName := "c.ts" }, { id := "1", fileName := "a.ts" },
    { id := "3", fileName := "b.ts" }], [{ id := "1", fileName := "a.ts" }], []]

def unfiled : StagePlan where
  checker := "tsc"
  staffing := ⟨"Checker", true⟩

example : (groupsOf unfiled trio (some doubled)).1 =
    .ok [[{ id := "3", fileName := "b.ts", coveredBy := ["t"] }, { id := "1", fileName := "a.ts" }],
      [{ id := "2", fileName := "a.ts" }]] := by rfl

theorem groupsArrangedDoubled :
    (trio.map (·.id)).Nodup ∧
      (∃ gs, (groupsOf unfiled trio (some doubled)).1 = .ok gs ∧ Arranged trio doubled gs) ∧
      (groupsOf unfiled trio (some (doubled ++ [[{ id := "9", fileName := "a.ts" }]]))).1 =
        .error (.unknownMember "tsc" "9") := by
  have distinct : (trio.map (·.id)).Nodup := by decide
  have known := groupsArranged unfiled (some doubled) distinct
  have stranger := groupsArranged unfiled
    (some (doubled ++ [[{ id := "9", fileName := "a.ts" }]])) distinct
  exact ⟨distinct, known.2 (by decide), (stranger.1 _).mpr ⟨_, by rfl, rfl⟩⟩

end MutationPipeline.Stage
