import Mathlib.Data.List.Flatten
import Mathlib.Data.List.Forall2
import Mathlib.Data.List.Nodup
import Mathlib.Data.List.Perm.Subperm

/-! Taking one element out of a list: the one at a place, or the only one with its key. -/
namespace MutationPipeline

theorem splitAt {α : Type} {l : List α} {i : Nat} {x : α} (found : l[i]? = some x) :
    l = l.take i ++ x :: l.drop (i + 1) ∧ (∀ y, l.set i y = l.take i ++ y :: l.drop (i + 1)) ∧
      l.eraseIdx i = l.take i ++ l.drop (i + 1) := by
  obtain ⟨bound, rfl⟩ := List.getElem?_eq_some_iff.mp found
  refine ⟨by simp, fun y => ?_, List.eraseIdx_eq_take_drop_succ l i⟩
  rw [List.set_eq_take_append_cons_drop, if_pos bound]

theorem zipIdxSplit {α β : Type} {l : List α} {i : Nat} {x : α} (g : α × Nat → List β)
    (found : l[i]? = some x) :
    ∃ rest, ∀ y, ((l.set i y).zipIdx.flatMap g).Perm (g (y, i) ++ rest) := by
  obtain ⟨-, replaced, -⟩ := splitAt found
  obtain ⟨bound, -⟩ := List.getElem?_eq_some_iff.mp found
  have count : (l.take i).length = i := List.length_take_of_le (Nat.le_of_lt bound)
  refine ⟨(l.take i).zipIdx.flatMap g ++ ((l.drop (i + 1)).zipIdx (i + 1)).flatMap g, fun y => ?_⟩
  rw [replaced y, List.zipIdx_append, List.zipIdx_cons, List.flatMap_append, List.flatMap_cons,
    count, Nat.zero_add]
  exact List.perm_append_comm_assoc _ _ _

theorem flatMapSplit {α β : Type} {l : List α} {i : Nat} {x : α} (g : α → List β)
    (found : l[i]? = some x) :
    ∃ rest, (l.flatMap g).Perm (g x ++ rest) ∧ ∀ y, ((l.set i y).flatMap g).Perm (g y ++ rest) := by
  obtain ⟨whole, replaced, -⟩ := splitAt found
  refine ⟨(l.take i ++ l.drop (i + 1)).flatMap g, ?_, fun y => ?_⟩
  · rw [congrArg (List.flatMap g) whole]
    exact List.perm_middle.flatMap_right g
  · rw [replaced y]
    exact List.perm_middle.flatMap_right g

section Count
variable {α β : Type} {g : α → List β} {e : α} (idle : g e = [])
include idle

theorem flatMapLess (l : List α) (i : Nat) :
    (l.flatMap g).length ≤ (g (l.getD i e)).length + ((l.set i e).flatMap g).length := by
  rw [List.getD_eq_getElem?_getD]
  cases found : l[i]? with
  | none =>
    rw [List.set_eq_of_length_le (List.getElem?_eq_none_iff.mp found)]
    exact Nat.le_add_left _ _
  | some x =>
    obtain ⟨rest, whole, replaced⟩ := flatMapSplit g found
    rw [whole.length_eq, (replaced e).length_eq, idle, List.length_append]
    exact Nat.le_refl _

omit idle in
theorem flatMapNone {l : List α} (e : α) (none : ∀ p, g (l.getD p e) = []) : l.flatMap g = [] := by
  refine List.flatMap_eq_nil_iff.mpr fun x member => ?_
  obtain ⟨p, found⟩ := List.mem_iff_getElem?.mp member
  have here := none p
  rwa [List.getD_eq_getElem?_getD, found] at here

omit idle in
theorem getDSet (l : List α) (i p : Nat) :
    (l.set i e).getD p e = if p = i then e else l.getD p e := by
  rw [List.getD_eq_getElem?_getD, List.getD_eq_getElem?_getD]
  split
  · next same =>
    subst same
    by_cases inside : p < l.length
    · rw [List.getElem?_set_self inside]
      rfl
    · rw [List.getElem?_eq_none_iff.mpr (by rw [List.length_set]; omega)]
      rfl
  · next other => rw [List.getElem?_set_ne (Ne.symm other)]

theorem flatMapTwo {l : List α} {i j : Nat} (others : ∀ p, p ≠ i → p ≠ j → g (l.getD p e) = []) :
    (l.flatMap g).length ≤ (g (l.getD i e)).length + (g (l.getD j e)).length := by
  have none : ((l.set i e).set j e).flatMap g = [] := by
    refine flatMapNone e fun p => ?_
    rw [getDSet]
    split
    · exact idle
    · rw [getDSet]
      split
      · exact idle
      · exact others p ‹_› ‹_›
  have second : (g ((l.set i e).getD j e)).length ≤ (g (l.getD j e)).length := by
    rw [getDSet]
    split
    · rw [idle]
      exact Nat.zero_le _
    · exact Nat.le_refl _
  have first := flatMapLess idle l i
  have later := flatMapLess idle (l.set i e) j
  rw [none] at later
  simp only [List.length_nil] at later
  omega

theorem flatMapOne {l : List α} {i : Nat} (others : ∀ p, p ≠ i → g (l.getD p e) = []) :
    (l.flatMap g).length ≤ (g (l.getD i e)).length := by
  have none : (l.set i e).flatMap g = [] := by
    refine flatMapNone e fun p => ?_
    rw [getDSet]
    split
    · exact idle
    · exact others p ‹_›
  have first := flatMapLess idle l i
  rw [none] at first
  exact first

end Count

theorem splitUnique {α β : Type} {f : α → β} {l : List α} {a : α} (unique : (l.map f).Nodup)
    (member : a ∈ l) : ∃ before after, l = before ++ a :: after ∧
      ∀ x ∈ before ++ after, f x ≠ f a := by
  obtain ⟨before, after, rfl⟩ := List.append_of_mem member
  refine ⟨before, after, rfl, fun x other same => ?_⟩
  rw [List.map_append, List.map_cons] at unique
  have fresh := (List.nodup_cons.mp (List.perm_middle.nodup_iff.mp unique)).1
  exact fresh (same ▸ List.map_append ▸ List.mem_map_of_mem other)

theorem forall₂Split {α β : Type} {R : α → β → Prop} {l : List α} {before rest : List β} {x : β}
    (all : List.Forall₂ R l (before ++ x :: rest)) :
    ∃ front a back, l = front ++ a :: back ∧ List.Forall₂ R front before ∧ R a x ∧
      List.Forall₂ R back rest := by
  have first := List.forall₂_take_append l before (x :: rest) all
  have second := List.forall₂_drop_append l before (x :: rest) all
  obtain ⟨a, back, here, later, whole⟩ := List.forall₂_cons_right_iff.mp second
  refine ⟨l.take before.length, a, back, ?_, first, here, later⟩
  rw [← whole, List.take_append_drop]

theorem forall₂Left {α β : Type} {R : α → β → Prop} {P : α → Prop} {l : List α} {k : List β}
    (all : List.Forall₂ R l k) (each : ∀ a b, R a b → P a) : ∀ a ∈ l, P a := by
  induction all with
  | nil => simp
  | cons here later ih =>
    intro a member
    rcases List.mem_cons.mp member with rfl | other
    · exact each _ _ here
    · exact ih a other

theorem subpermMap {α β : Type} {f : α → β} {l k : List α} (fewer : l.Subperm k) :
    (l.map f).Subperm (k.map f) := by
  obtain ⟨part, same, inside⟩ := fewer
  exact ⟨part.map f, same.map f, inside.map f⟩

theorem subpermFilterMap {α β : Type} {f : α → Option β} {l k : List α}
    (fewer : l.Subperm k) :
    (l.filterMap f).Subperm (k.filterMap f) := by
  obtain ⟨part, same, inside⟩ := fewer
  exact ⟨part.filterMap f, same.filterMap f, inside.filterMap f⟩

theorem subpermFlatten {α : Type} {l k : List (List α)} (fewer : l.Subperm k) :
    l.flatten.Subperm k.flatten := by
  obtain ⟨part, same, inside⟩ := fewer
  exact ⟨part.flatten, same.flatten, inside.flatten⟩

theorem filterMapSplit {α β : Type} (f : α → Option β) (x : α) (l : List α) :
    (x :: l).filterMap f = (f x).toList ++ l.filterMap f := by
  cases found : f x <;> simp [found]

theorem subpermNodup {α : Type} {l k : List α} (fewer : l.Subperm k) (single : k.Nodup) :
    l.Nodup := by
  obtain ⟨part, same, inside⟩ := fewer
  exact same.nodup_iff.mp (inside.nodup single)

theorem permLast {α : Type} (l k : List α) (x : α) : (l ++ k ++ [x]).Perm (l ++ x :: k) :=
  (List.Perm.of_eq (List.append_assoc ..)).trans ((List.perm_append_singleton x k).append_left l)

section Zip
variable {α β : Type} {k : α × α → Option β} (idle : ∀ x, k (x, x) = none)
include idle

theorem zipSelf (l : List α) : (l.zip l).filterMap k = [] := by
  induction l with
  | nil => rfl
  | cons x rest ih =>
    rw [List.zip_cons_cons, List.filterMap_cons_none (idle x)]
    exact ih

theorem zipMore (l : List α) (x : α) : (l.zip (l ++ [x])).filterMap k = [] := by
  have short : l.zip (l ++ [x]) = l.zip l :=
    calc l.zip (l ++ [x])
      _ = (l ++ []).zip (l ++ [x]) := by rw [List.append_nil]
      _ = l.zip l ++ [].zip [x] := List.zip_append rfl
      _ = l.zip l := List.append_nil _
  rw [short, zipSelf idle]

theorem zipAt (before rest : List α) (x y : α) :
    ((before ++ x :: rest).zip (before ++ y :: rest)).filterMap k = (k (x, y)).toList := by
  rw [List.zip_append rfl, List.zip_cons_cons, List.filterMap_append, zipSelf idle, List.nil_append]
  cases found : k (x, y) with
  | none => rw [List.filterMap_cons_none found, zipSelf idle]; rfl
  | some told => rw [List.filterMap_cons_some found, zipSelf idle]; rfl

end Zip

section ZipIdx
variable {α β : Type} (g : α → α → Nat → List β) (idle : ∀ x place, g x x place = [])
include idle

theorem zipIdxSelf (l : List α) (first : Nat) :
    (((l.zip l).zipIdx first).flatMap fun ((x, y), place) => g x y place) = [] := by
  rw [List.flatMap_eq_nil_iff]
  rintro ⟨⟨x, y⟩, place⟩ member
  have twice : (x, y) ∈ l.zip l := List.fst_mem_of_mem_zipIdx member
  rw [List.zip_eq_zipWith, List.zipWith_self] at twice
  obtain ⟨z, -, same⟩ := List.mem_map.mp twice
  cases same
  exact idle x place

theorem zipIdxSet {l : List α} {i : Nat} {x : α} (found : l[i]? = some x) (y : α) :
    ((l.zip (l.set i y)).zipIdx.flatMap fun ((x, y), place) => g x y place) = g x y i := by
  obtain ⟨old, replaced, -⟩ := splitAt found
  obtain ⟨bound, -⟩ := List.getElem?_eq_some_iff.mp found
  have count : (l.take i).length = i := List.length_take_of_le (Nat.le_of_lt bound)
  rw [replaced y]
  nth_rewrite 1 [old]
  rw [List.zip_append rfl, List.zip_cons_cons, List.zipIdx_append, List.zipIdx_cons,
    List.flatMap_append, List.flatMap_cons, zipIdxSelf g idle, zipIdxSelf g idle, List.length_zip, count]
  simp

end ZipIdx

end MutationPipeline
