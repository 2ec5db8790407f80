import Mathlib.Data.List.Perm.Subperm
import MutationPipeline.Checker.Stage
import MutationPipeline.Proofs.Lists

/-! Whatever groups a checker proposes, those that are checked are made of the mutants of the batch,
and of each at most once; the only failure is a mutant that is not in the batch. If no two mutants of the batch have the same id, none of them is left
out. -/
namespace MutationPipeline.Assembly

theorem takeOut {pending : List CoveredMutant} {id : String} {full : CoveredMutant}
    (found : pending.find? (fun n => n.id = id) = some full) :
    (full :: pending.filter fun n => n.id ≠ id).Subperm pending := by
  have own : full.id = id := by simpa using List.find?_some found
  obtain ⟨before, after, rfl⟩ := List.append_of_mem (List.mem_of_find?_eq_some found)
  rw [List.filter_append, List.filter_cons_of_neg (by simp [own]), ← List.filter_append]
  exact ((List.subperm_cons full).mpr List.filter_sublist.subperm).trans
    List.perm_middle.symm.subperm

theorem lastOfEachSublist (batch : List CoveredMutant) : (lastOfEach batch).Sublist batch := by
  induction batch with
  | nil => exact .slnil
  | cons m rest ih =>
    unfold lastOfEach
    split
    · exact ih.cons m
    · exact ih.cons_cons m

theorem placeGroupSubperm {checker : String} {group : List Mutant} {p q : Progress}
    {members : List CoveredMutant} (placed : placeGroup checker group p = (.ok members, q)) :
    (members ++ q.pending).Subperm p.pending := by
  induction group generalizing p members with
  | nil =>
    cases placed
    exact .refl _
  | cons m rest ih =>
    unfold placeGroup at placed
    split at placed
    · next full found =>
      rcases inner : placeGroup checker rest _ with ⟨result, later⟩
      rw [inner] at placed
      cases result with
      | error e => cases placed
      | ok others =>
        cases placed
        exact ((List.subperm_cons full).mpr (ih inner)).trans (takeOut found)
    · split at placed
      · have later := ih placed
        exact later
      · cases placed

theorem placeGroupsSubperm {checker : String} {groups : List (List Mutant)} {p q : Progress}
    {placed : List (List CoveredMutant)} (done : placeGroups checker groups p = (.ok placed, q)) :
    (placed.flatten ++ q.pending).Subperm p.pending := by
  induction groups generalizing p placed with
  | nil =>
    cases done
    exact .refl _
  | cons g rest ih =>
    unfold placeGroups at done
    split at done
    · cases done
    · next members between first =>
      rcases inner : placeGroups checker rest between with ⟨result, later⟩
      rw [inner] at done
      cases result with
      | error e => cases done
      | ok others =>
        cases done
        have whole := (List.subperm_append_left members).mpr (ih inner)
        rw [← List.append_assoc] at whole
        refine List.Subperm.trans ?_ (whole.trans (placeGroupSubperm first))
        split
        · next none =>
          rw [List.isEmpty_iff.mp none]
          exact .refl _
        · exact .refl _

theorem leftOverSubperm (batch pending : List CoveredMutant) :
    (leftOver batch pending).Subperm pending := by
  induction batch generalizing pending with
  | nil => exact List.nil_subperm
  | cons m rest ih =>
    unfold leftOver
    split
    · next full found => exact ((List.subperm_cons full).mpr (ih _)).trans (takeOut found)
    · exact ih pending

theorem assembleSubperm {checker : String} {batch : List CoveredMutant}
    {groups : List (List Mutant)} {gs : List (List CoveredMutant)}
    (assembled : (assemble checker batch groups).1 = .ok gs) : gs.flatten.Subperm batch := by
  unfold assemble at assembled
  split at assembled
  · cases assembled
  · next placed p done =>
    have inside : (placed.flatten ++ p.pending).Subperm batch :=
      (placeGroupsSubperm done).trans (lastOfEachSublist batch).subperm
    split at assembled
    · cases assembled
      exact (List.sublist_append_left _ _).subperm.trans inside
    · cases assembled
      rw [List.flatten_append, ← List.flatMap_def, List.flatMap_singleton']
      exact ((List.subperm_append_left _).mpr (leftOverSubperm batch p.pending)).trans inside

section Errors
variable {checker : String} {p q : Progress} {e : RunError}

theorem placeGroupError {group : List Mutant} (failed : placeGroup checker group p = (.error e, q)) :
    ∃ id, e = .unknownMember checker id := by
  induction group generalizing p with
  | nil => cases failed
  | cons m rest ih =>
    unfold placeGroup at failed
    split at failed
    · rcases inner : placeGroup checker rest _ with ⟨result, later⟩
      rw [inner] at failed
      cases result with
      | error e => cases failed; exact ih inner
      | ok others => cases failed
    · split at failed
      · exact ih failed
      · cases failed
        exact ⟨m.id, rfl⟩

theorem placeGroupsError {groups : List (List Mutant)}
    (failed : placeGroups checker groups p = (.error e, q)) :
    ∃ id, e = .unknownMember checker id := by
  induction groups generalizing p with
  | nil => cases failed
  | cons g rest ih =>
    unfold placeGroups at failed
    split at failed
    · next inner =>
      cases failed
      exact placeGroupError inner
    · next members between first =>
      rcases inner : placeGroups checker rest between with ⟨result, later⟩
      rw [inner] at failed
      cases result with
      | error e => cases failed; exact ih inner
      | ok others => cases failed

theorem assembleError {batch : List CoveredMutant} {groups : List (List Mutant)}
    (failed : (assemble checker batch groups).1 = .error e) :
    ∃ id, e = .unknownMember checker id := by
  unfold assemble at failed
  split at failed
  · next inner =>
    cases failed
    exact placeGroupsError inner
  · split at failed <;> cases failed

end Errors

section Distinct
variable {checker id : String} {pending batch : List CoveredMutant}

theorem takeOutPerm {full : CoveredMutant} (distinct : (pending.map (·.id)).Nodup)
    (found : pending.find? (fun n => n.id = id) = some full) :
    (full :: pending.filter fun n => n.id ≠ id).Perm pending := by
  have own : full.id = id := by simpa using List.find?_some found
  obtain ⟨before, after, rfl, others⟩ := splitUnique distinct (List.mem_of_find?_eq_some found)
  have kept : (before ++ after).filter (fun n => n.id ≠ id) = before ++ after :=
    List.filter_eq_self.mpr fun n other => decide_eq_true (own ▸ others n other)
  rw [List.filter_append, List.filter_cons_of_neg (by simp [own]), ← List.filter_append, kept]
  exact List.perm_middle.symm

theorem filterDistinct (distinct : (pending.map (·.id)).Nodup) (keep : CoveredMutant → Bool) :
    ((pending.filter keep).map (·.id)).Nodup :=
  (List.filter_sublist.map _).nodup distinct

theorem lastOfEachDistinct (distinct : (batch.map (·.id)).Nodup) : lastOfEach batch = batch := by
  induction batch with
  | nil => rfl
  | cons m rest ih =>
    obtain ⟨fresh, later⟩ := List.nodup_cons.mp distinct
    have alone : rest.any (fun n => n.id = m.id) = false :=
      List.any_eq_false.mpr fun n member same =>
        fresh (List.mem_map.mpr ⟨n, member, of_decide_eq_true same⟩)
    rw [lastOfEach, alone, if_neg Bool.false_ne_true, ih later]

theorem placeGroupPerm {group : List Mutant} {p q : Progress} {members : List CoveredMutant}
    (distinct : (p.pending.map (·.id)).Nodup)
    (placed : placeGroup checker group p = (.ok members, q)) :
    (members ++ q.pending).Perm p.pending := by
  induction group generalizing p members with
  | nil =>
    cases placed
    exact .refl _
  | cons m rest ih =>
    unfold placeGroup at placed
    split at placed
    · next full found =>
      rcases inner : placeGroup checker rest _ with ⟨result, later⟩
      rw [inner] at placed
      cases result with
      | error e => cases placed
      | ok others =>
        cases placed
        exact ((ih (filterDistinct distinct _) inner).cons full).trans (takeOutPerm distinct found)
    · split at placed
      · have later := fun single => ih single placed
        exact later distinct
      · cases placed

theorem placeGroupsPerm {groups : List (List Mutant)} {p q : Progress}
    {placed : List (List CoveredMutant)} (distinct : (p.pending.map (·.id)).Nodup)
    (done : placeGroups checker groups p = (.ok placed, q)) :
    (placed.flatten ++ q.pending).Perm p.pending := by
  induction groups generalizing p placed with
  | nil =>
    cases done
    exact .refl _
  | cons g rest ih =>
    unfold placeGroups at done
    split at done
    · cases done
    · next members between first =>
      rcases inner : placeGroups checker rest between with ⟨result, later⟩
      rw [inner] at done
      cases result with
      | error e => cases done
      | ok others =>
        cases done
        have here := placeGroupPerm distinct first
        have remaining : (between.pending.map (·.id)).Nodup := by
          have all := (here.map (·.id)).nodup_iff.mpr distinct
          rw [List.map_append] at all
          exact (List.nodup_append.mp all).2.1
        have whole := (ih remaining inner).append_left members
        rw [← List.append_assoc] at whole
        refine List.Perm.trans ?_ (whole.trans here)
        split
        · next none =>
          rw [List.isEmpty_iff.mp none]
          exact .refl _
        · exact .refl _

theorem leftOverPerm (distinct : (pending.map (·.id)).Nodup)
    (known : pending.map (·.id) ⊆ batch.map (·.id)) : (leftOver batch pending).Perm pending := by
  induction batch generalizing pending with
  | nil =>
    rw [List.map_eq_nil_iff.mp (List.subset_nil.mp known)]
    exact .refl _
  | cons m rest ih =>
    unfold leftOver
    split
    · next full found =>
      refine ((ih (filterDistinct distinct _) fun id member => ?_).cons full).trans
        (takeOutPerm distinct found)
      obtain ⟨n, inside, rfl⟩ := List.mem_map.mp member
      obtain ⟨here, other⟩ := List.mem_filter.mp inside
      exact (List.mem_cons.mp (known (List.mem_map_of_mem here))).resolve_left
        (of_decide_eq_true other)
    · next missing =>
      refine ih distinct fun id member => ?_
      obtain ⟨n, inside, rfl⟩ := List.mem_map.mp member
      have other : n.id ≠ m.id := by simpa using List.find?_eq_none.mp missing n inside
      exact (List.mem_cons.mp (known (List.mem_map_of_mem inside))).resolve_left other

theorem assemblePerm {groups : List (List Mutant)} {gs : List (List CoveredMutant)}
    (distinct : (batch.map (·.id)).Nodup)
    (assembled : (assemble checker batch groups).1 = .ok gs) : gs.flatten.Perm batch := by
  unfold assemble at assembled
  rw [lastOfEachDistinct distinct] at assembled
  split at assembled
  · cases assembled
  · next placed p done =>
    have whole : (placed.flatten ++ p.pending).Perm batch := placeGroupsPerm distinct done
    have ids := whole.map (·.id)
    rw [List.map_append] at ids
    split at assembled
    · next none =>
      cases assembled
      rwa [List.isEmpty_iff.mp none, List.append_nil] at whole
    · cases assembled
      rw [List.flatten_append, ← List.flatMap_def, List.flatMap_singleton']
      refine ((leftOverPerm ?_ fun id member => ?_).append_left _).trans whole
      · exact (List.nodup_append.mp (ids.nodup_iff.mpr distinct)).2.1
      · exact ids.subset (List.mem_append_right _ member)

end Distinct

end MutationPipeline.Assembly

namespace MutationPipeline.Stage

theorem groupsOfSubperm {plan : StagePlan} {batch : List CoveredMutant}
    {own : Option (List (List Mutant))} {gs : List Group}
    (made : (groupsOf plan batch own).1 = .ok gs) : gs.flatten.Subperm batch := by
  unfold groupsOf at made
  split at made
  · exact Assembly.assembleSubperm made
  · exact Assembly.assembleSubperm made
  · cases made
    rw [← List.flatMap_def, List.flatMap_singleton']

theorem groupsOfError {plan : StagePlan} {batch : List CoveredMutant}
    {own : Option (List (List Mutant))} {e : RunError}
    (failed : (groupsOf plan batch own).1 = .error e) :
    ∃ id, e = .unknownMember plan.checker id := by
  unfold groupsOf at failed
  split at failed
  · exact Assembly.assembleError failed
  · exact Assembly.assembleError failed
  · cases failed

theorem groupsOfPerm {plan : StagePlan} {batch : List CoveredMutant}
    {own : Option (List (List Mutant))} {gs : List Group} (distinct : (batch.map (·.id)).Nodup)
    (made : (groupsOf plan batch own).1 = .ok gs) : gs.flatten.Perm batch := by
  unfold groupsOf at made
  split at made
  · exact Assembly.assemblePerm distinct made
  · exact Assembly.assemblePerm distinct made
  · cases made
    rw [← List.flatMap_def, List.flatMap_singleton']

end MutationPipeline.Stage
