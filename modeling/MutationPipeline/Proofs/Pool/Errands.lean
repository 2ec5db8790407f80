import MutationPipeline.Proofs.Pool.Content
import MutationPipeline.Proofs.Pool.Founding
import MutationPipeline.Proofs.Worker.Errands

/-! What workers are asked for by all that goes on at a pool. Making workers, and disposing them, asks for
no work; a stream of items asks for the work on each item once, and perhaps once more. -/
namespace MutationPipeline
variable {W V β : Type} {of : W → Option β} {s s' : Site W V}

theorem callSilent {call : Calling W} {n : Next (Calling W) (Except WorkerError V)}
    (begins : call.Begins (Unseen of)) (move : (s', n) ∈ callMoves call s) :
    Crew.Spoke of [] s.crew s'.crew := by
  obtain ⟨u, inner, rfl⟩ := Machine.onCases move
  exact Calling.movesSilent begins inner

theorem Creation.movesSilent {holder : Option Nat} {c : Creation W}
    {n : Next (Creation W) (Except PoolError Nat)} (begins : c.Begins (Unseen of))
    (move : (s', n) ∈ Creation.moves holder c s) : Crew.Spoke of [] s.crew s'.crew := by
  cases c with
  | hiring =>
    obtain ⟨rfl, -⟩ := memStep.mp move
    exact s.crew.hireSpoke
  | starting seat call =>
    refine Machine.withinSpoke Site.crew move (fun _ _ => callSilent begins) fun r u => ?_
    cases r <;> exact ⟨rfl, rfl⟩
  | clearing cause call =>
    refine Machine.withinSpoke Site.crew move (fun _ _ => callSilent begins) fun r u => ?_
    cases r <;> exact ⟨rfl, rfl⟩
  | enrolling seat =>
    obtain ⟨rfl, -⟩ := memFinish.mp move
    cases holder
    all_goals exact Crew.Hushed.spoke ⟨rfl, rfl⟩

namespace Acquisition
variable {a : Acquisition W} {n : Next (Acquisition W) (Except PoolError (Nat × Nat))}

def Begins (P : Nat → W → Prop) : Acquisition W → Prop
  | .creating _ c => c.Begins P
  | _ => True

theorem movesSilent (begins : a.Begins (Unseen of)) (move : (s', n) ∈ Acquisition.moves a s) :
    Crew.Spoke of [] s.crew s'.crew := by
  have still (same : s'.crew = s.crew) : Crew.Spoke of [] s.crew s'.crew :=
    Crew.Hushed.spoke ⟨by rw [same], by rw [same]⟩
  cases a with
  | asking =>
    obtain ⟨rfl, -⟩ := memStep.mp move
    exact still rfl
  | waiting ticket =>
    simp only [Acquisition.moves] at move
    split at move
    · obtain ⟨rfl, -⟩ := memFinish.mp move
      exact still rfl
    · split at move
      · obtain ⟨rfl, -⟩ := memStep.mp move
        exact still rfl
      · cases move
  | choosing ticket =>
    simp only [Acquisition.moves] at move
    split at move
    · obtain ⟨rfl, -⟩ := memFinish.mp move
      exact still rfl
    · obtain ⟨rfl, -⟩ := memStep.mp move
      exact still rfl
  | creating ticket c =>
    refine Machine.withinSpoke Site.crew move (fun _ _ => Creation.movesSilent begins) fun r u => ?_
    cases r <;> exact ⟨rfl, rfl⟩
  | failing ticket cause =>
    obtain ⟨rfl, -⟩ := memFinish.mp move
    exact still rfl

theorem movesBegins {P : Nat → W → Prop} (move : (s', n) ∈ Acquisition.moves a s) :
    ∀ next, n = .go next → next.Begins P := by
  rintro next rfl
  cases a with
  | creating ticket c =>
    rcases Machine.withinCases move with ⟨q, inner, same⟩ | ⟨v, r, inner, same⟩ | ⟨inner, same⟩
    · cases same
      exact Creation.movesBegins inner q rfl
    · cases r with
      | ok seat => cases same
      | error e =>
        cases same
        trivial
    · cases same
  | choosing ticket =>
    simp only [Acquisition.moves] at move
    split at move
    · cases (memFinish.mp move).2
    · cases (memStep.mp move).2
      trivial
  | waiting ticket =>
    simp only [Acquisition.moves] at move
    split at move
    · cases (memFinish.mp move).2
    · split at move
      · cases (memStep.mp move).2
        trivial
      · cases move
  | asking =>
    cases (memStep.mp move).2
    trivial
  | failing ticket cause => cases (memFinish.mp move).2

end Acquisition

theorem Release.movesSilent {ticket : Nat} {r : Release} {n : Next Release Unit}
    (move : (s', n) ∈ Release.moves ticket r s) : Crew.Spoke of [] s.crew s'.crew := by
  cases r with
  | puttingBack =>
    obtain ⟨rfl, -⟩ := memStep.mp move
    exact Crew.Hushed.spoke ⟨rfl, rfl⟩
  | freeing =>
    obtain ⟨rfl, -⟩ := memFinish.mp move
    exact Crew.Hushed.spoke ⟨rfl, rfl⟩

namespace Filling
variable {f : Filling W} {n : Next (Filling W) (Except PoolError Unit)}

def Begins (P : Nat → W → Prop) : Filling W → Prop
  | .counting => True
  | .creating members => ∀ c ∈ Member.phases members, c.Begins P

theorem movesSilent (begins : f.Begins (Unseen of)) (move : (s', n) ∈ Filling.moves f s) :
    Crew.Spoke of [] s.crew s'.crew := by
  rcases movesCases move with ⟨-, rfl, -⟩ | ⟨-, -, rfl, -⟩ | ⟨seats, -, rfl, -⟩ |
    ⟨before, c, rest, o, rfl, moved, -⟩
  · exact Crew.Hushed.spoke ⟨rfl, rfl⟩
  · exact Crew.Hushed.spoke ⟨rfl, rfl⟩
  · exact Crew.Hushed.spoke ⟨rfl, rfl⟩
  · exact Creation.movesSilent (begins c ((phasesRunning before rest c).symm.subset (by simp))) moved

theorem movesBegins {P : Nat → W → Prop} (begins : f.Begins P) (move : (s', n) ∈ Filling.moves f s) :
    ∀ next, n = .go next → next.Begins P := by
  rintro next same
  rcases movesCases move with ⟨-, -, rfl⟩ | ⟨-, -, -, rfl⟩ | ⟨seats, -, -, rfl⟩ |
    ⟨before, c, rest, o, rfl, moved, rfl⟩
  · cases same
  · cases same
    intro c member
    rw [phasesFresh] at member
    rw [List.eq_of_mem_replicate member]
    trivial
  · cases same
  · have later : ∀ d ∈ Member.phases (before ++ rest), d.Begins P := fun d member =>
      begins d ((phasesRunning before rest c).symm.subset (List.mem_cons_of_mem c member))
    cases o with
    | go d =>
      cases same
      intro e member
      rcases List.mem_cons.mp ((phasesRunning before rest d).subset member) with rfl | other
      · exact Creation.movesBegins moved _ rfl
      · exact later e other
    | done r =>
      cases r with
      | ok seat =>
        cases same
        exact fun e member => later e ((phasesEnded before rest seat).subset member)
      | error e => cases same
    | panicked => cases same

end Filling

theorem Disposal.movesSilent {d : Disposal W} {n : Next (Disposal W) (Except WorkerError Unit)}
    (begins : d.Begins (Unseen of)) (move : (s', n) ∈ Disposal.moves d s) :
    Crew.Spoke of [] s.crew s'.crew := by
  have still (same : s'.crew = s.crew) : Crew.Spoke of [] s.crew s'.crew :=
    Crew.Hushed.spoke ⟨by rw [same], by rw [same]⟩
  cases d with
  | asking =>
    simp only [Disposal.moves] at move
    split at move
    · obtain ⟨rfl, -⟩ := memFinish.mp move
      exact still rfl
    · obtain ⟨rfl, -⟩ := memStep.mp move
      exact still rfl
  | waiting ticket wanted =>
    simp only [Disposal.moves] at move
    split at move
    · obtain ⟨rfl, -⟩ := memStep.mp move
      exact still rfl
    · split at move
      · obtain ⟨rfl, -⟩ := memStep.mp move
        exact still rfl
      · cases move
  | disposing call rest first =>
    cases call with
    | none =>
      cases rest with
      | nil =>
        obtain ⟨rfl, -⟩ := memFinish.mp move
        exact still rfl
      | cons seat rest =>
        obtain ⟨rfl, -⟩ := memStep.mp move
        exact still rfl
    | some call =>
      refine Machine.withinSpoke Site.crew move (fun _ _ => callSilent begins) fun r u => ?_
      cases r <;> exact ⟨rfl, rfl⟩
  | _ =>
    obtain ⟨rfl, -⟩ := memStep.mp move
    exact still rfl

section Items
variable {α φ ρ : Type} (may : φ → Bool)

def Flight.waiting : Flight φ α ρ → List α
  | .working item _ _ p => if may p then [item] else []
  | _ => []

def Flight.given : Flight φ α ρ → List α
  | .working item _ _ p => if may p then [] else [item]
  | .returning item .. => [item]
  | .refused .. => []

namespace Schedule

def waiting (f : Schedule W α φ ρ) : List α :=
  f.feed.content (fun item => [item]) ++ f.flights.flatMap (Flight.waiting may)

def given (f : Schedule W α φ ρ) : List α := f.flights.flatMap (Flight.given may)

def calls (again : Bool) (asked : List (α × Bool)) : List α :=
  asked.filterMap fun x => if x.2 = again then some x.1 else none

end Schedule

end Items

namespace Schedule
variable {σ α φ ρ : Type} {may : Bool → φ → Bool} {begun? : φ → φ → Option Bool}
  {fits : α → φ → Prop} {said : α → β} {look : σ → List α} {f g : Schedule W α φ ρ}
  {before rest : List (Flight φ α ρ)} {x y : Flight φ α ρ} {t t' : σ}

structure Plan.Speaks (plan : Plan W V σ α φ ρ) (of : W → Option β) (may : Bool → φ → Bool)
    (begun? : φ → φ → Option Bool) (fits : α → φ → Prop) (said : α → β) : Prop where
  works : ∀ item seat p c u n, fits item p → c.Discreet of → (u, n) ∈ plan.work item seat p c →
    Works of may begun? (fits item) (said item) p c u n
  idle : ∀ p, begun? p p = none
  starts : ∀ item, fits item plan.start
  fresh : ∀ again, may again plan.start = true
  lawful : plan.site.Lawful
  aloof : ∀ s u item, (u, item) ∈ plan.more s → (plan.site.get u).crew = (plan.site.get s).crew

/-- Only what is done with items asks for work. -/
structure Fits (of : W → Option β) (fits : α → φ → Prop) (f : Schedule W α φ ρ) : Prop where
  feed : ∀ item a known, f.feed = .acquiring item a known → a.Begins (Unseen of)
  flights : ∀ item ticket seat p, .working item ticket seat p ∈ f.flights → fits item p

theorem Fits.onward (suits : f.Fits of fits)
    (feed : ∀ item a known, g.feed = .acquiring item a known →
      f.feed = .acquiring item a known ∨ a.Begins (Unseen of))
    (flights : ∀ x ∈ g.flights, x ∈ f.flights ∨
      ∀ item ticket seat p, x = .working item ticket seat p → fits item p) : g.Fits of fits where
  feed := fun item a known same => (feed item a known same).elim (suits.feed item a known) id
  flights := fun item ticket seat p member =>
    (flights _ member).elim (suits.flights item ticket seat p) fun fresh => fresh _ _ _ _ rfl

theorem waitingFront (may : φ → Bool) (here : f.flights = before ++ x :: rest) :
    (f.waiting may).Perm (x.waiting may ++
      ({ f with flights := before ++ rest } : Schedule ..).waiting may) := by
  have moved : (f.flights.flatMap (Flight.waiting may)).Perm
      (x.waiting may ++ (before ++ rest).flatMap (Flight.waiting may)) := by
    rw [here]
    exact List.perm_middle.flatMap_right _
  refine (moved.append_left _).trans ?_
  simp only [waiting, ← List.append_assoc]
  exact List.perm_append_comm.append_right _

theorem givenFront (may : φ → Bool) (here : f.flights = before ++ x :: rest) :
    (f.given may).Perm (x.given may ++ (before ++ rest).flatMap (Flight.given may)) := by
  rw [given, here]
  exact List.perm_middle.flatMap_right _

theorem waitingGiven (may : φ → Bool) (f : Schedule W α φ ρ) :
    (f.waiting may ++ f.given may).Subperm
      (f.content (fun item => [item]) fun item _ => [item]) := by
  rw [waiting, given, content, List.append_assoc]
  refine (List.subperm_append_left _).mpr ((List.flatMap_append_perm _ _ _).subperm.trans ?_)
  refine (List.Sublist.flatMap_right _ fun x _ => ?_).subperm
  cases x with
  | working item ticket seat p =>
    simp only [Flight.waiting, Flight.given, Flight.content]
    split <;> exact List.Sublist.refl _
  | returning item ticket r b => exact List.Sublist.refl _
  | refused item e => exact List.nil_sublist _

theorem waitingContent (raw : α → List β) (worked : α → ρ → List β) (may : φ → Bool) {item : α}
    (member : item ∈ f.waiting may) : raw item ⊆ f.content raw worked := by
  intro z inside
  rcases List.mem_append.mp member with ahead | flying
  · refine List.mem_append_left _ ?_
    cases feed : f.feed with
    | «open» known =>
      rw [feed] at ahead
      simp only [Feed.content, List.flatMap_singleton', List.mem_flatMap] at ahead ⊢
      exact ⟨item, ahead, inside⟩
    | acquiring other a known =>
      rw [feed] at ahead
      simp only [Feed.content, List.flatMap_singleton', List.singleton_append, List.mem_cons,
        List.mem_append, List.mem_flatMap] at ahead ⊢
      rcases ahead with rfl | later
      · exact .inl inside
      · exact .inr ⟨item, later, inside⟩
    | ended =>
      rw [feed] at ahead
      cases ahead
  · obtain ⟨x, among, own⟩ := List.mem_flatMap.mp flying
    refine List.mem_append_right _ (List.mem_flatMap.mpr ⟨x, among, ?_⟩)
    cases x with
    | working other ticket seat p =>
      simp only [Flight.waiting] at own
      split at own
      · rwa [List.mem_singleton.mp own] at inside
      · cases own
    | returning other ticket r b => cases own
    | refused other e => cases own

/-- Some items are `asked` for and some are `told`: what becomes of those `w` for which a call is still to
be made, the first one or the repeated one, and of those `d` for which it was made. -/
structure Advances (asked : List (α × Bool)) (told : List α) (w w' d d' : Bool → List α) : Prop where
  waiting : ∀ again, (calls again asked ++ w' again).Subperm (w again)
  called : ∀ again, calls again asked ⊆ d' again
  kept : ∀ again, d again ⊆ d' again
  given : d' false ⊆ d false ++ calls false asked
  repeats : calls true asked ⊆ d false
  told : told ⊆ d false

namespace Advances
variable {asked : List (α × Bool)} {told : List α} {w w' d d' : Bool → List α}

theorem none (fewer : ∀ again, (w' again).Subperm (w again)) (same : ∀ again, (d' again).Perm (d again)) :
    Advances [] [] w w' d d' where
  waiting := fewer
  called := fun _ => List.nil_subset _
  kept := fun again => (same again).symm.subset
  given := fun _ member => List.mem_append_left _ ((same false).subset member)
  repeats := List.nil_subset _
  told := List.nil_subset _

theorem frame (advances : Advances asked told w w' d d') (others rest : Bool → List α) :
    Advances asked told (fun again => w again ++ others again) (fun again => w' again ++ others again)
      (fun again => d again ++ rest again) (fun again => d' again ++ rest again) where
  waiting := fun again => by
    rw [← List.append_assoc]
    exact (advances.waiting again).append (.refl _)
  called := fun again => List.Subset.trans (advances.called again) (List.subset_append_left _ _)
  kept := fun again => List.append_subset.mpr
    ⟨List.Subset.trans (advances.kept again) (List.subset_append_left _ _),
      List.subset_append_right _ _⟩
  given := by
    intro x member
    simp only [List.mem_append] at member ⊢
    rcases member with here | other
    · rcases List.mem_append.mp (advances.given here) with before | now
      · exact .inl (.inl before)
      · exact .inr now
    · exact .inl (.inr other)
  repeats := List.Subset.trans advances.repeats (List.subset_append_left _ _)
  told := List.Subset.trans advances.told (List.subset_append_left _ _)

theorem perm {v v' e e' : Bool → List α} (advances : Advances asked told w w' d d')
    (before : ∀ again, (v again).Perm (w again)) (after : ∀ again, (v' again).Perm (w' again))
    (given : ∀ again, (e again).Perm (d again)) (given' : ∀ again, (e' again).Perm (d' again)) :
    Advances asked told v v' e e' where
  waiting := fun again => (((after again).append_left _).subperm.trans (advances.waiting again)).trans
    (before again).symm.subperm
  called := fun again => List.Subset.trans (advances.called again) (given' again).symm.subset
  kept := fun again => List.Subset.trans
    (List.Subset.trans (given again).subset (advances.kept again)) (given' again).symm.subset
  given := fun x member => by
    rcases List.mem_append.mp (advances.given ((given' false).subset member)) with before | now
    · exact List.mem_append_left _ ((given false).symm.subset before)
    · exact List.mem_append_right _ now
  repeats := List.Subset.trans advances.repeats (given false).symm.subset
  told := List.Subset.trans advances.told (given false).symm.subset

end Advances

def Flight.Advances (may : Bool → φ → Bool) (begun? : φ → φ → Option Bool) (x y : Flight φ α ρ) : Prop :=
  Schedule.Advances (Flight.asked begun? (x, y)).toList ((Flight.told (x, y)).toList.map (·.1))
    (fun again => x.waiting (may again)) (fun again => y.waiting (may again))
    (fun again => x.given (may again)) (fun again => y.given (may again))

theorem callsBegun (again : Bool) (begun : Option Bool) (item : α) :
    calls again (begun.map (item, ·)).toList = if begun = some again then [item] else [] := by
  cases begun with
  | none => rfl
  | some first => by_cases same : first = again <;> simp [calls, same]

theorem workAdvances {p q : φ} {item : α} {ticket seat : Nat}
    (attempts : Attempts may begun? p (.go q : Next φ ρ)) :
    Flight.Advances (ρ := ρ) may begun? (.working item ticket seat p) (.working item ticket seat q) := by
  have called (again : Bool) (now : begun? p q = some again) :
      may again p = true ∧ may again q = false := attempts.begins q again rfl now
  have fewer (again : Bool) : may again q = true → may again p = true := attempts.fewer q again rfl
  simp only [Flight.Advances, Flight.asked, Flight.told, Flight.waiting, Flight.given]
  refine ⟨fun again => ?_, fun again => ?_, fun again => ?_, ?_, ?_, List.nil_subset _⟩
  · rw [callsBegun]
    by_cases now : begun? p q = some again
    · simp [now, called again now]
    · cases still : may again q with
      | true => simp [now, fewer again still]
      | false => simp [now, List.nil_subperm]
  · rw [callsBegun]
    by_cases now : begun? p q = some again
    · simp [now, called again now]
    · simp [now]
  · cases still : may again q with
    | true => simp [fewer again still]
    | false => split <;> simp
  · rw [callsBegun]
    cases still : may false q with
    | true => simp
    | false =>
      rcases attempts.known q rfl still with before | now
      · simp [before]
      · simp [now]
  · rw [callsBegun]
    by_cases now : begun? p q = some true
    · simp [now, attempts.repeats q rfl now]
    · simp [now]

theorem answerAdvances {p : φ} {item : α} {ticket seat : Nat} {r : ρ}
    (attempts : Attempts may begun? p (.done r)) :
    Flight.Advances may begun? (.working item ticket seat p)
      (.returning item ticket r .puttingBack) := by
  have known : may false p = false := attempts.done r rfl
  simp only [Flight.Advances, Flight.asked, Flight.told, Flight.waiting, Flight.given]
  refine ⟨fun _ => List.nil_subperm, fun _ => List.nil_subset _, fun again => ?_, ?_,
    List.nil_subset _, ?_⟩
  · split <;> simp
  · simp [known]
  · simp [known]

theorem releaseAdvances (item : α) (ticket : Nat) (r : ρ) (b c : Release) :
    Flight.Advances may begun? (.returning item ticket r b) (.returning item ticket r c) :=
  .none (fun _ => .refl _) fun _ => .refl _

theorem Flight.askedSelf (idle : ∀ p, begun? p p = none) (x : Flight φ α ρ) :
    Flight.asked begun? (x, x) = none := by
  cases x with
  | working item ticket seat p => simp [Flight.asked, idle]
  | _ => rfl

section Asked
variable (idle : ∀ p, begun? p p = none)
include idle

theorem askedSame (same : g.flights = f.flights) : f.asked begun? g = [] := by
  rw [asked, same]
  exact zipSelf (Flight.askedSelf idle) f.flights

theorem askedMore (more : g.flights = f.flights ++ [x]) : f.asked begun? g = [] := by
  rw [asked, more]
  exact zipMore (Flight.askedSelf idle) f.flights x

theorem askedAt (here : f.flights = before ++ x :: rest) (y : Flight φ α ρ) :
    f.asked begun? { f with flights := before ++ y :: rest } =
      (Flight.asked begun? (x, y)).toList := by
  rw [asked, here]
  exact zipAt (Flight.askedSelf idle) before rest x y

theorem flightAdvances (here : f.flights = before ++ x :: rest)
    (advances : Flight.Advances may begun? x y) (same : look t' = look t) :
    Advances (f.asked begun? { f with flights := before ++ y :: rest })
      ((f.told { f with flights := before ++ y :: rest }).map (·.1)) (fun again => f.waiting (may again) ++ look t)
      (fun again => ({ f with flights := before ++ y :: rest } : Schedule ..).waiting (may again) ++ look t')
      (fun again => f.given (may again)) fun again =>
        ({ f with flights := before ++ y :: rest } : Schedule ..).given (may again) := by
  let others : Schedule W α φ ρ := { f with flights := before ++ rest }
  rw [askedAt idle here, toldAt here, same]
  refine (advances.frame (fun again => others.waiting (may again) ++ look t)
    fun again => others.given (may again)).perm (fun again => ?_) (fun again => ?_)
    (fun again => givenFront _ here) fun again => givenFront _ rfl
  · rw [← List.append_assoc]
    exact (waitingFront _ here).append_right _
  · rw [← List.append_assoc]
    exact (waitingFront _ rfl).append_right _

end Asked

section Moved
variable {plan : Plan W V σ α φ ρ} {n : Next (Schedule W α φ ρ) (Option (Yield α ρ) × Schedule W α φ ρ)}
  (speaks : plan.Speaks of may begun? fits said) (suits : f.Fits of fits)
  (discreet : (plan.site.get t).crew.Discreet of)
include speaks

theorem Plan.Speaks.setCrew (s : Site W V) (t : σ) : plan.site.get (plan.site.set s t) = s :=
  speaks.lawful s t

include suits discreet

theorem Fits.works {item : α} {ticket seat : Nat} {p : φ} {u : Crew W V} {o : Next φ ρ}
    (flights : f.flights = before ++ .working item ticket seat p :: rest)
    (move : (u, o) ∈ plan.work item seat p (plan.site.get t).crew) :
    Works of may begun? (fits item) (said item) p (plan.site.get t).crew u o :=
  speaks.works item seat p _ u o (suits.flights item ticket seat p (by simp [flights])) discreet move

theorem movedSpoke (move : Moved plan f t t' n) :
    Crew.Spoke of ((n.elim (f.asked begun?) (fun _ => []) []).map fun x => said x.1)
      (plan.site.get t).crew (plan.site.get t').crew := by
  have quiet (asked : n.elim (f.asked begun?) (fun _ => []) [] = [])
      (spoke : Crew.Spoke of [] (plan.site.get t).crew (plan.site.get t').crew) :
      Crew.Spoke of ((n.elim (f.asked begun?) (fun _ => []) []).map fun x => said x.1)
        (plan.site.get t).crew (plan.site.get t').crew := by
    rw [asked]
    exact spoke
  have still (same : (plan.site.get t').crew = (plan.site.get t).crew) :
      Crew.Spoke of [] (plan.site.get t).crew (plan.site.get t').crew :=
    Crew.Hushed.spoke ⟨by rw [same], by rw [same]⟩
  cases move with
  | ended dry empty => exact quiet rfl (still rfl)
  | offer feed => exact quiet (askedSame speaks.idle rfl) (still rfl)
  | pull feed more => exact quiet (askedSame speaks.idle rfl) (still (speaks.aloof _ _ _ more))
  | dry feed more => exact quiet (askedSame speaks.idle rfl) (still (speaks.aloof _ _ _ more))
  | acquire feed move =>
    refine quiet (askedSame speaks.idle rfl) ?_
    rw [speaks.setCrew]
    exact Acquisition.movesSilent (suits.feed _ _ _ feed) move
  | send feed move calm =>
    refine quiet (askedMore speaks.idle rfl) ?_
    rw [speaks.setCrew]
    exact Acquisition.movesSilent (suits.feed _ _ _ feed) move
  | refuse feed move =>
    refine quiet (askedMore speaks.idle rfl) ?_
    rw [speaks.setCrew]
    exact Acquisition.movesSilent (suits.feed _ _ _ feed) move
  | feedBreaks feed move =>
    refine quiet rfl ?_
    rw [speaks.setCrew]
    exact Acquisition.movesSilent (suits.feed _ _ _ feed) move
  | reject flights => exact quiet rfl (still rfl)
  | @work item ticket seat p u q before rest flights move =>
    have works := suits.works speaks discreet flights move
    rw [speaks.setCrew, Next.elim, askedAt speaks.idle flights]
    have said := works.spoke
    rw [Next.speech, Next.elim] at said
    cases now : begun? p q with
    | none => simpa [now, Flight.asked] using said
    | some again => simpa [now, Flight.asked] using said
  | answer flights move =>
    refine quiet ((askedAt speaks.idle flights _).trans rfl) ?_
    rw [speaks.setCrew]
    exact (suits.works speaks discreet flights move).spoke
  | workBreaks flights move =>
    refine quiet rfl ?_
    rw [speaks.setCrew]
    exact (suits.works speaks discreet flights move).spoke
  | release flights move =>
    refine quiet ((askedAt speaks.idle flights _).trans rfl) ?_
    rw [speaks.setCrew]
    exact Release.movesSilent move
  | land flights move =>
    refine quiet rfl ?_
    rw [speaks.setCrew]
    exact Release.movesSilent move

def after : Next (Schedule W α φ ρ) (Option (Yield α ρ) × Schedule W α φ ρ) → Option (Schedule W α φ ρ)
  | .go g => some g
  | .done (_, g) => some g
  | .panicked => none

theorem movedFits (move : Moved plan f t t' n) : ∀ g, after n = some g → g.Fits of fits := by
  rintro g same
  have flight {x y : Flight φ α ρ} {before rest : List (Flight φ α ρ)}
      (flights : f.flights = before ++ x :: rest)
      (fresh : ∀ item ticket seat p, y = .working item ticket seat p → fits item p) :
      ({ f with flights := before ++ y :: rest } : Schedule ..).Fits of fits := by
    refine suits.onward (fun _ _ _ => .inl) fun z member => ?_
    rcases List.mem_append.mp member with ahead | later
    · exact .inl (by simp [flights, ahead])
    · rcases List.mem_cons.mp later with rfl | behind
      · exact .inr fresh
      · exact .inl (by simp [flights, behind])
  have more {x : Flight φ α ρ} {known : List α}
      (fresh : ∀ item ticket seat p, x = .working item ticket seat p → fits item p) :
      ({ feed := .open known, flights := f.flights ++ [x] } : Schedule ..).Fits of fits := by
    refine suits.onward (fun _ _ _ same => by cases same) fun z member => ?_
    rcases List.mem_append.mp member with among | last
    · exact .inl among
    · exact .inr (List.mem_singleton.mp last ▸ fresh)
  have fewer {x : Flight φ α ρ} {before rest : List (Flight φ α ρ)}
      (flights : f.flights = before ++ x :: rest) :
      ({ f with flights := before ++ rest } : Schedule ..).Fits of fits := by
    refine suits.onward (fun _ _ _ => .inl) fun z member => .inl ?_
    rcases List.mem_append.mp member with ahead | behind
    · simp [flights, ahead]
    · simp [flights, behind]
  cases move with
  | ended feed empty =>
    cases same
    exact suits
  | offer feed =>
    cases same
    exact suits.onward (fun _ _ _ same => by cases same; exact .inr trivial) fun _ => .inl
  | pull feed more =>
    cases same
    exact suits.onward (fun _ _ _ same => by cases same; exact .inr trivial) fun _ => .inl
  | dry feed more =>
    cases same
    exact suits.onward (fun _ _ _ same => by cases same) fun _ => .inl
  | acquire feed move =>
    cases same
    refine suits.onward (fun _ _ _ same => ?_) fun _ => .inl
    cases same
    exact .inr (Acquisition.movesBegins move _ rfl)
  | @send item _ _ _ _ _ feed move calm =>
    cases same
    exact more fun _ _ _ _ same => by cases same; exact speaks.starts item
  | refuse feed move =>
    cases same
    exact more fun _ _ _ _ same => by cases same
  | feedBreaks feed move => cases same
  | reject flights =>
    cases same
    exact fewer flights
  | work flights move =>
    cases same
    refine flight flights fun _ _ _ _ same => ?_
    cases same
    exact (suits.works speaks discreet flights move).fits _ rfl
  | answer flights move =>
    cases same
    exact flight flights fun _ _ _ _ same => by cases same
  | workBreaks flights move => cases same
  | release flights move =>
    cases same
    exact flight flights fun _ _ _ _ same => by cases same
  | land flights move =>
    cases same
    exact fewer flights

variable (look) in
theorem movedAdvances (home : ∀ u s, look (plan.site.set u s) = look s)
    (pulled : ∀ s u item, (u, some item) ∈ plan.more s → (item :: look u).Subperm (look s))
    (dry : ∀ s u, (u, none) ∈ plan.more s → look u = look s) (move : Moved plan f t t' (.go g)) :
    Advances (f.asked begun? g) ((f.told g).map (·.1)) (fun again => f.waiting (may again) ++ look t)
      (fun again => g.waiting (may again) ++ look t') (fun again => f.given (may again))
      fun again => g.given (may again) := by
  have feeding (flights : g.flights = f.flights)
      (fewer : ∀ again, (g.waiting (may again) ++ look t').Subperm (f.waiting (may again) ++ look t)) :
      Advances (f.asked begun? g) ((f.told g).map (·.1)) (fun again => f.waiting (may again) ++ look t)
        (fun again => g.waiting (may again) ++ look t') (fun again => f.given (may again))
        fun again => g.given (may again) := by
    rw [askedSame speaks.idle flights, toldSame flights]
    exact .none fewer fun again => by rw [given, given, flights]
  cases move with
  | offer feed =>
    refine feeding rfl fun again => ?_
    rw [waiting, waiting, feed]
    exact .refl _
  | @pull _ item feed more =>
    refine feeding rfl fun again => ?_
    have front : (item :: (f.flights.flatMap (Flight.waiting (may again)) ++ look t')).Subperm
        (f.flights.flatMap (Flight.waiting (may again)) ++ look t) :=
      List.perm_middle.symm.subperm.trans ((List.subperm_append_left _).mpr (pulled _ _ _ more))
    simpa [waiting, feed, Feed.content] using front
  | dry feed more =>
    refine feeding rfl fun again => ?_
    rw [waiting, waiting, feed, dry _ _ more]
    exact .refl _
  | acquire feed move =>
    refine feeding rfl fun again => ?_
    rw [waiting, waiting, feed, home]
    exact .refl _
  | @send item a known u ticket seat feed move calm =>
    rw [askedMore speaks.idle rfl, toldMore rfl]
    refine .none (fun again => ?_) fun again => ?_
    · rw [home, waiting, waiting, feed]
      have last : Flight.waiting (may again)
          (.working item ticket seat plan.start : Flight φ α ρ) = [item] := by
        rw [Flight.waiting, if_pos (speaks.fresh again)]
      simp only [Feed.content, List.flatMap_append, List.flatMap_cons, List.flatMap_nil,
        List.append_nil, last]
      refine (List.Perm.append_right _ ?_).subperm
      rw [← List.append_assoc, List.append_assoc [item]]
      exact List.perm_append_comm
    · simp [given, Flight.given, speaks.fresh again]
  | @refuse item a known u e feed move =>
    rw [askedMore speaks.idle rfl, toldMore rfl]
    refine .none (fun again => ?_) fun again => ?_
    · rw [home, waiting, waiting, feed]
      refine (List.subperm_append_right _).mpr ?_
      simp only [Feed.content, List.flatMap_append, List.flatMap_cons, List.flatMap_nil,
        Flight.waiting, List.append_nil, List.append_assoc]
      exact (List.sublist_append_right _ _).subperm
    · simp [given, Flight.given]
  | work flights move =>
    exact flightAdvances speaks.idle flights
      (workAdvances (suits.works speaks discreet flights move).attempts) (home _ _)
  | answer flights move =>
    exact flightAdvances speaks.idle flights
      (answerAdvances (suits.works speaks discreet flights move).attempts) (home _ _)
  | release flights move =>
    exact flightAdvances speaks.idle flights (releaseAdvances _ _ _ _ _) (home _ _)

variable (may) in
omit speaks suits discreet in
theorem movedYields {z : Yield α ρ} (move : Moved plan f t t' (.done (some z, g))) (again : Bool) :
    (g.waiting (may again)).Subperm (f.waiting (may again)) ∧
      g.given (may again) ⊆ f.given (may again) ∧
      ∀ r, z.result = .ok r → (∃ ticket b, .returning z.item ticket r b ∈ f.flights) ∧
        f.given (may again) ⊆ z.item :: g.given (may again) := by
  have fewer {x : Flight φ α ρ} {before rest : List (Flight φ α ρ)}
      (flights : f.flights = before ++ x :: rest) :
      (({ f with flights := before ++ rest } : Schedule ..).waiting (may again)).Subperm
          (f.waiting (may again)) ∧
        ({ f with flights := before ++ rest } : Schedule ..).given (may again) ⊆
          f.given (may again) := by
    refine ⟨?_, ?_⟩
    · exact ((List.sublist_append_right _ _).subperm.trans (waitingFront _ flights).symm.subperm)
    · exact List.Subset.trans (List.subset_append_right _ _) (givenFront _ flights).symm.subset
  cases move with
  | reject flights => exact ⟨(fewer flights).1, (fewer flights).2, fun r same => by cases same⟩
  | @land item ticket r b u before rest flights move =>
    refine ⟨(fewer flights).1, (fewer flights).2, fun r same => ?_⟩
    cases same
    exact ⟨⟨ticket, b, by simp [flights]⟩, (givenFront _ flights).subset⟩

end Moved

end Schedule

end MutationPipeline
