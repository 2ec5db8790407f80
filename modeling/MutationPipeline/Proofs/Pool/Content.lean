import MutationPipeline.Pipeline.Record
import MutationPipeline.Proofs.Moves

/-! What becomes of the items of a stream. Each of them is somewhere, worked on or not, and a move
only takes one in, notes the result of one, or yields one. -/
namespace MutationPipeline
variable {W V σ α β φ ρ : Type}

section Content
variable (raw : α → List β) (worked : α → ρ → List β)

def Flight.content : Flight φ α ρ → List β
  | .working item .. => raw item
  | .returning item _ r _ => worked item r
  | .refused item _ => raw item

def Feed.content : Feed W α → List β
  | .open known => known.flatMap raw
  | .acquiring item _ known => raw item ++ known.flatMap raw
  | .ended => []

def Schedule.content (f : Schedule W α φ ρ) : List β :=
  f.feed.content raw ++ f.flights.flatMap (Flight.content raw worked)

def Yield.content (y : Yield α ρ) : List β :=
  match y.result with
  | .ok r => worked y.item r
  | .error _ => raw y.item

def Schedule.left : Option (Yield α ρ) × Schedule W α φ ρ → List β
  | (some y, f) => y.content raw worked ++ f.content raw worked
  | (none, _) => []

end Content

theorem Flight.toldSame (x : Flight φ α ρ) : Flight.told (x, x) = none := by
  cases x <;> rfl

namespace Schedule
variable {f g : Schedule W α φ ρ} {before rest : List (Flight φ α ρ)} {x y : Flight φ α ρ}

theorem toldSame (same : g.flights = f.flights) : f.told g = [] := by
  rw [told, same]
  exact zipSelf Flight.toldSame f.flights

theorem toldMore (more : g.flights = f.flights ++ [x]) : f.told g = [] := by
  rw [told, more]
  exact zipMore Flight.toldSame f.flights x

theorem toldAt (here : f.flights = before ++ x :: rest) (y : Flight φ α ρ) :
    f.told { f with flights := before ++ y :: rest } = (Flight.told (x, y)).toList := by
  rw [told, here]
  exact zipAt Flight.toldSame before rest x y

inductive Turned (raw : α → List β) (worked : α → ρ → List β) (look : σ → List β)
    (f : Schedule W α φ ρ) (s : σ) :
    σ → Next (Schedule W α φ ρ) (Option (Yield α ρ) × Schedule W α φ ρ) → Prop where
  | on {g s'} (quiet : f.told g = [])
      (same : (g.content raw worked ++ look s').Perm (f.content raw worked ++ look s)) :
      Turned raw worked look f s s' (.go g)
  | answer {g s' item r} {rest : List β} (told : f.told g = [(item, r)])
      (before : (f.content raw worked ++ look s).Perm (raw item ++ rest))
      (after : (g.content raw worked ++ look s').Perm (worked item r ++ rest)) :
      Turned raw worked look f s s' (.go g)
  | yield {g s' y} (same : (y.content raw worked ++ g.content raw worked ++ look s').Perm
        (f.content raw worked ++ look s)) : Turned raw worked look f s s' (.done (some y, g))
  | ended {g s'} (same : look s' = look s) : Turned raw worked look f s s' (.done (none, g))
  | panicked {s'} (same : look s' = look s) : Turned raw worked look f s s' .panicked

variable {raw : α → List β} {worked : α → ρ → List β} {look : σ → List β}
  {plan : Plan W V σ α φ ρ} {s s' : σ}
  {n : Next (Schedule W α φ ρ) (Option (Yield α ρ) × Schedule W α φ ρ)}

theorem contentFront (here : f.flights = before ++ x :: rest) :
    (f.content raw worked).Perm (x.content raw worked ++
      ({ f with flights := before ++ rest } : Schedule ..).content raw worked) := by
  have moved : (f.flights.flatMap (Flight.content raw worked)).Perm
      (x.content raw worked ++ (before ++ rest).flatMap (Flight.content raw worked)) := by
    rw [here]
    exact List.perm_middle.flatMap_right _
  refine (moved.append_left _).trans ?_
  simp only [content, ← List.append_assoc]
  exact List.perm_append_comm.append_right _

theorem contentBack (f : Schedule W α φ ρ) (before rest : List (Flight φ α ρ))
    (x : Flight φ α ρ) :
    ({ f with flights := before ++ x :: rest } : Schedule ..).content raw worked |>.Perm
      (x.content raw worked ++
        ({ f with flights := before ++ rest } : Schedule ..).content raw worked) :=
  contentFront rfl

theorem movedTurned (home : ∀ u t, look (plan.site.set u t) = look t)
    (pulled : ∀ t u item, (u, some item) ∈ plan.more t → (raw item ++ look u).Perm (look t))
    (dry : ∀ t u, (u, none) ∈ plan.more t → look u = look t) (move : Moved plan f s s' n) :
    Turned raw worked look f s s' n := by
  cases move with
  | ended feed empty => exact .ended rfl
  | offer feed =>
    refine .on (toldSame rfl) ?_
    rw [content, content, feed]
    exact .refl _
  | pull feed more =>
    refine .on (toldSame rfl) ?_
    simp only [content, feed, Feed.content, List.flatMap_nil, List.append_nil, List.nil_append]
    refine List.Perm.trans ?_ ((pulled _ _ _ more).append_left _)
    rw [← List.append_assoc]
    exact List.perm_append_comm.append_right _
  | dry feed more =>
    refine .on (toldSame rfl) ?_
    rw [content, content, feed, dry _ _ more]
    exact .refl _
  | acquire feed move =>
    refine .on (toldSame rfl) ?_
    rw [content, content, feed, home]
    exact .refl _
  | send feed move =>
    refine .on (toldMore rfl) ?_
    rw [home]
    simp only [content, feed, Feed.content, List.flatMap_append, List.flatMap_cons,
      Flight.content, List.flatMap_nil, List.append_nil]
    rw [← List.append_assoc, List.append_assoc (raw _)]
    exact List.perm_append_comm.append_right _
  | refuse feed move =>
    refine .on (toldMore rfl) ?_
    rw [home]
    simp only [content, feed, Feed.content, List.flatMap_append, List.flatMap_cons,
      Flight.content, List.flatMap_nil, List.append_nil]
    rw [← List.append_assoc, List.append_assoc (raw _)]
    exact List.perm_append_comm.append_right _
  | feedBreaks feed move => exact .panicked (home _ _)
  | reject flights =>
    refine .yield ?_
    exact (contentFront flights).symm.append_right _
  | @work item ticket seat p u q before rest flights move =>
    have front : (f.content raw worked).Perm (raw item ++ _) := contentFront flights
    refine .on (toldAt flights (.working item ticket seat q)) ?_
    rw [home]
    refine List.Perm.append_right _ (List.Perm.trans ?_ front.symm)
    exact contentBack f before rest _
  | @answer item ticket seat p u r before rest flights move =>
    have front : (f.content raw worked ++ look s).Perm _ :=
      (contentFront flights).append_right (look s)
    rw [List.append_assoc] at front
    refine .answer (toldAt flights (.returning item ticket r .puttingBack)) front ?_
    rw [home, ← List.append_assoc]
    exact (contentBack f before rest _).append_right _
  | workBreaks flights move => exact .panicked (home _ _)
  | @release item ticket r b u c before rest flights move =>
    have front : (f.content raw worked).Perm (worked item r ++ _) := contentFront flights
    refine .on (toldAt flights (.returning item ticket r c)) ?_
    rw [home]
    refine List.Perm.append_right _ (List.Perm.trans ?_ front.symm)
    exact contentBack f before rest _
  | land flights move =>
    refine .yield ?_
    rw [home]
    exact (contentFront flights).symm.append_right _

end Schedule

end MutationPipeline
