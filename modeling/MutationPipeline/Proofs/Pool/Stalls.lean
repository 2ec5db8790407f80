import Mathlib.Algebra.GroupWithZero.Nat
import MutationPipeline.Pool.Journal
import MutationPipeline.Proofs.Moves

/-! When something at a pool has no move, it sleeps: it waits for the answer of a worker, for permits, or
for an item. A stream of items has only so many moves beside those of the work on its items. -/
namespace MutationPipeline
variable {W V σ τ φ φ' ρ ρ' ε α : Type}

namespace Member
variable {m : Machine σ φ (Except ε α)} {s : σ}

theorem eachNone {before members : List (Member φ α)} (none : moves.each m s before members = []) :
    ∀ p ∈ phases members, m p s = [] := by
  induction members generalizing before with
  | nil => exact fun _ member => by cases member
  | cons first later ih =>
    cases first with
    | ended x => exact ih none
    | running q =>
      obtain ⟨here, there⟩ := List.append_eq_nil_iff.mp none
      intro p member
      rcases List.mem_cons.mp member with rfl | other
      · exact Machine.withinNone here
      · exact ih there p other

theorem resultsNone {members : List (Member φ α)} (none : results? members = none) :
    ∃ p, p ∈ phases members := by
  induction members with
  | nil => cases none
  | cons first later ih =>
    cases first with
    | ended x =>
      obtain ⟨p, member⟩ := ih (Option.map_eq_none_iff.mp none)
      exact ⟨p, member⟩
    | running q => exact ⟨q, List.mem_cons_self⟩

theorem movesAllNone {members : List (Member φ α)} (none : moves m members s = []) :
    (∃ p, p ∈ phases members) ∧ ∀ p ∈ phases members, m p s = [] := by
  unfold moves at none
  split at none
  · cases none
  · next running => exact ⟨resultsNone running, eachNone none⟩

theorem movesNone {members : List (Member φ α)} (none : moves m members s = []) :
    ∃ p ∈ phases members, m p s = [] := by
  obtain ⟨⟨p, member⟩, all⟩ := movesAllNone none
  exact ⟨p, member, all p member⟩

end Member

def Crew.Owes (c : Crew W V) (tokens : List Nat) : Prop :=
  ∃ token ∈ tokens, c.answers.lookup token = none

theorem Crew.Owes.more {c : Crew W V} {tokens others : List Nat} (owes : c.Owes tokens)
    (more : tokens ⊆ others) : c.Owes others :=
  owes.imp fun _ ⟨member, missing⟩ => ⟨more member, missing⟩

theorem Calling.movesNone {call : Calling W} {c : Crew W V} (none : Calling.moves call c = []) :
    c.Owes call.tokens := by
  cases call with
  | ready worker call => cases none
  | waiting token =>
    refine ⟨token, List.mem_cons_self, ?_⟩
    simp only [Calling.moves] at none
    split at none
    · assumption
    all_goals cases none

section Site
variable {s : Site W V}

theorem callMovesNone {call : Calling W} (none : callMoves call s = []) : s.crew.Owes call.tokens :=
  Calling.movesNone (Machine.onNone none)

theorem Creation.movesNone {holder : Option Nat} {c : Creation W}
    (none : Creation.moves holder c s = []) : s.crew.Owes c.tokens := by
  cases c with
  | hiring => cases none
  | starting seat call => exact callMovesNone (Machine.withinNone none)
  | clearing cause call => exact callMovesNone (Machine.withinNone none)
  | enrolling seat => cases none

def Pool.Unserved (p : Pool) (ticket : Nat) : Prop :=
  p.isDisposed = false ∧ p.permits.isComplete ticket = false

theorem Acquisition.movesNone {a : Acquisition W} (none : Acquisition.moves a s = []) :
    s.crew.Owes a.tokens ∨ ∃ ticket, a = .waiting ticket ∧ s.pool.Unserved ticket := by
  cases a with
  | asking => cases none
  | waiting ticket =>
    simp only [Acquisition.moves] at none
    split at none
    · cases none
    · next «open» =>
      split at none
      · cases none
      · next waits => exact .inr ⟨ticket, rfl, Bool.eq_false_iff.mpr «open», Bool.eq_false_iff.mpr waits⟩
  | choosing ticket =>
    simp only [Acquisition.moves] at none
    split at none <;> cases none
  | creating ticket c => exact .inl (Creation.movesNone (Machine.withinNone none))
  | failing ticket cause => cases none

theorem Release.movesSome (ticket : Nat) (r : Release) : Release.moves ticket r s ≠ [] := by
  cases r <;> exact List.cons_ne_nil _ _

theorem Filling.movesNone {f : Filling W} (none : Filling.moves f s = []) : s.crew.Owes f.tokens := by
  cases f with
  | counting =>
    simp only [Filling.moves] at none
    split at none <;> cases none
  | creating members =>
    obtain ⟨c, member, stuck⟩ := Member.movesNone (Machine.withinNone none)
    exact (Creation.movesNone stuck).more fun _ token => List.mem_flatMap.mpr ⟨c, member, token⟩

theorem Broadcast.movesNone {start : φ} {m : Nat → Machine (Site W V) φ (Except WorkerError Unit)}
    {b : Broadcast φ} (none : Broadcast.moves start m b s = []) :
    ∃ seat, ∃ p ∈ b.phases, m seat p s = [] := by
  cases b with
  | listing => cases none
  | running members =>
    obtain ⟨p, member, stuck⟩ := Member.movesNone (Machine.withinNone none)
    exact ⟨p.1, p.2, List.mem_map_of_mem member, Machine.withinNone stuck⟩

theorem Disposal.movesNone {d : Disposal W} (none : Disposal.moves d s = []) :
    s.crew.Owes d.tokens ∨ ∃ ticket wanted, d = .waiting ticket wanted ∧ s.pool.Unserved ticket := by
  rcases d with _ | ⟨ticket, wanted⟩ | ticket | ticket | _ | ⟨_ | call, rest, first⟩
  · simp only [Disposal.moves] at none
    split at none <;> cases none
  · simp only [Disposal.moves] at none
    split at none
    · cases none
    · next «open» =>
      split at none
      · cases none
      · next waits =>
        exact .inr ⟨ticket, wanted, rfl, Bool.eq_false_iff.mpr «open», Bool.eq_false_iff.mpr waits⟩
  · cases none
  · cases none
  · cases none
  · cases rest <;> cases none
  · exact .inl (callMovesNone (Machine.withinNone none))

end Site

namespace Schedule
variable {plan : Plan W V σ α φ ρ} {f : Schedule W α φ ρ} {s : σ}

theorem movesNone (none : moves plan f s = []) :
    ((f.feed = .open [] ∧ plan.more s = []) ∨
      (∃ item a known, f.feed = .acquiring item a known ∧
        Acquisition.moves a (plan.site.get s) = []) ∨
      (f.feed = .ended ∧ f.flights ≠ [])) ∧
    ∀ x ∈ f.flights, ∃ item ticket seat p, x = .working item ticket seat p ∧
      plan.work item seat p (plan.site.get s).crew = [] := by
  unfold moves at none
  split at none
  · cases none
  · next going =>
    split at none
    · next i landing =>
      obtain ⟨bound, returns, -⟩ := List.findIdx?_eq_some_iff_getElem.mp landing
      have here : f.flights[i]? = some f.flights[i] := List.getElem?_eq_getElem bound
      cases found : f.flights[i] with
      | returning item ticket result r =>
        rw [found] at here
        simp only [flightMoves, here] at none
        exact absurd (Machine.onNone (Machine.withinNone none)) (Release.movesSome ticket r)
      | _ =>
        rw [found] at returns
        cases returns
    · next calm =>
      obtain ⟨feed, flights⟩ := List.append_eq_nil_iff.mp none
      refine ⟨?_, fun x member => ?_⟩
      · simp only [feedMoves] at feed
        split at feed
        · next dry => exact .inr (.inr ⟨dry, going dry⟩)
        · cases feed
        · next shape => exact .inl ⟨shape, List.map_eq_nil_iff.mp feed⟩
        · next item a known shape =>
          exact .inr (.inl ⟨item, a, known, shape, Machine.onNone (Machine.withinNone feed)⟩)
      · obtain ⟨i, found⟩ := List.mem_iff_getElem?.mp member
        obtain ⟨bound, -⟩ := List.getElem?_eq_some_iff.mp found
        have stuck := List.flatMap_eq_nil_iff.mp flights i (List.mem_range.mpr bound)
        simp only [flightMoves, found] at stuck
        cases x with
        | refused item cause => cases stuck
        | working item ticket seat p =>
          exact ⟨item, ticket, seat, p, rfl, Machine.onNone (Machine.withinNone stuck)⟩
        | returning item ticket result r =>
          exact absurd (Machine.onNone (Machine.withinNone stuck)) (Release.movesSome ticket r)

end Schedule

section Sleep
variable {s : Site W V}

theorem Calling.asleep {call : Calling W} {c : Crew W V} (none : Calling.moves call c = []) :
    call.sleeps = true := by
  cases call with
  | ready worker call => cases none
  | waiting token => rfl

theorem callAsleep {call : Calling W} (none : callMoves call s = []) : call.sleeps = true :=
  Calling.asleep (Machine.onNone none)

theorem Creation.asleep {holder : Option Nat} {c : Creation W}
    (none : Creation.moves holder c s = []) : c.sleeps = true := by
  cases c with
  | hiring => cases none
  | starting seat call => exact callAsleep (Machine.withinNone none)
  | clearing cause call => exact callAsleep (Machine.withinNone none)
  | enrolling seat => cases none

theorem Acquisition.asleep {a : Acquisition W} (none : Acquisition.moves a s = []) :
    a.sleeps = true := by
  cases a with
  | asking => cases none
  | waiting ticket => rfl
  | choosing ticket =>
    simp only [Acquisition.moves] at none
    split at none <;> cases none
  | creating ticket c => exact Creation.asleep (Machine.withinNone none)
  | failing ticket cause => cases none

theorem Filling.asleep {f : Filling W} (none : Filling.moves f s = []) : f.sleeps = true := by
  cases f with
  | counting =>
    simp only [Filling.moves] at none
    split at none <;> cases none
  | creating members =>
    obtain ⟨-, all⟩ := Member.movesAllNone (Machine.withinNone none)
    exact List.all_eq_true.mpr fun c member => Creation.asleep (all c member)

theorem Broadcast.asleep {start : φ} {m : Nat → Machine (Site W V) φ (Except WorkerError Unit)}
    {b : Broadcast φ} {sleeps : φ → Bool} (asleep : ∀ seat p, m seat p s = [] → sleeps p = true)
    (none : Broadcast.moves start m b s = []) : b.sleeps sleeps = true := by
  cases b with
  | listing => cases none
  | running members =>
    obtain ⟨-, all⟩ := Member.movesAllNone (Machine.withinNone none)
    exact List.all_eq_true.mpr fun p member => asleep p.1 p.2 (Machine.withinNone (all p member))

theorem Disposal.asleep {d : Disposal W} (none : Disposal.moves d s = []) : d.sleeps = true := by
  rcases d with _ | ⟨ticket, wanted⟩ | ticket | ticket | _ | ⟨_ | call, rest, first⟩
  · simp only [Disposal.moves] at none
    split at none <;> cases none
  · rfl
  · cases none
  · cases none
  · cases none
  · cases rest <;> cases none
  · exact callAsleep (Machine.withinNone none)

theorem Schedule.asleep {plan : Plan W V σ α φ ρ} {f : Schedule W α φ ρ} {s : σ}
    {sleeps : φ → Bool} (asleep : ∀ item seat p c, plan.work item seat p c = [] → sleeps p = true)
    (none : Schedule.moves plan f s = []) : f.sleeps sleeps = true := by
  obtain ⟨feed, flights⟩ := movesNone none
  refine Bool.and_eq_true_iff.mpr ⟨?_, List.all_eq_true.mpr fun x member => ?_⟩
  · rcases feed with ⟨shape, -⟩ | ⟨item, a, known, shape, stuck⟩ | ⟨shape, some⟩ <;> rw [shape]
    · rfl
    · exact Acquisition.asleep stuck
    · cases flights : f.flights with
      | nil => exact absurd flights some
      | cons x rest => rfl
  · obtain ⟨item, ticket, seat, p, rfl, stuck⟩ := flights x member
    exact asleep item seat p _ stuck

end Sleep

section Remaining

def Calling.remaining : Calling W → Nat
  | .ready .. => 2
  | .waiting _ => 1

def Creation.remaining : Creation W → Nat
  | .hiring => 5
  | .starting _ c => c.remaining + 2
  | .clearing _ c => c.remaining
  | .enrolling _ => 1

def Acquisition.remaining : Acquisition W → Nat
  | .asking => 9
  | .waiting _ => 8
  | .choosing _ => 7
  | .creating _ c => c.remaining + 1
  | .failing .. => 1

def Flight.remaining : Flight φ α ρ → Nat
  | .working .. => 3
  | .returning _ _ _ .puttingBack => 2
  | .returning _ _ _ .freeing | .refused .. => 1

def Feed.remaining : Feed W α → Nat
  | .open known => 13 * known.length + 1
  | .acquiring _ a known => a.remaining + 3 + 13 * known.length + 1
  | .ended => 0

def Schedule.remaining (f : Schedule W α φ ρ) : Nat :=
  f.feed.remaining + (f.flights.map Flight.remaining).sum

theorem Acquisition.remainingSome (a : Acquisition W) : 0 < a.remaining := by
  cases a <;> exact Nat.succ_pos _

variable {s s' : Site W V}

theorem Calling.movesNearer {call call' : Calling W} {c c' : Crew W V}
    (move : (c', .go call') ∈ Calling.moves call c) : call'.remaining < call.remaining := by
  cases call with
  | ready worker call =>
    obtain ⟨-, same⟩ := memStep.mp move
    cases same
    exact Nat.lt_succ_self 1
  | waiting token =>
    simp only [Calling.moves] at move
    split at move <;> simp [finish] at move

theorem Creation.movesNearer {holder : Option Nat} {c d : Creation W}
    (move : (s', .go d) ∈ Creation.moves holder c s) : d.remaining < c.remaining := by
  cases c with
  | hiring =>
    obtain ⟨-, same⟩ := memStep.mp move
    cases same
    exact Nat.lt_succ_self 4
  | starting seat call =>
    rcases Machine.withinCases move with ⟨call', inner, same⟩ | ⟨u, r, inner, same⟩ | ⟨inner, same⟩
    · cases same
      obtain ⟨u, moved, -⟩ := Machine.onCases inner
      exact Nat.add_lt_add_right (Calling.movesNearer moved) 2
    · have last : 0 < call.remaining := by cases call <;> exact Nat.succ_pos _
      cases r <;> cases same
      · exact Nat.lt_add_of_pos_left last
      · exact Nat.lt_add_left call.remaining (Nat.lt_succ_self 1)
    · cases same
  | clearing cause call =>
    rcases Machine.withinCases move with ⟨call', inner, same⟩ | ⟨u, r, inner, same⟩ | ⟨inner, same⟩
    · cases same
      obtain ⟨u, moved, -⟩ := Machine.onCases inner
      exact Calling.movesNearer moved
    · cases r <;> cases same
    · cases same
  | enrolling seat =>
    obtain ⟨-, same⟩ := memFinish.mp move
    cases same

theorem Acquisition.movesNearer {a b : Acquisition W} (move : (s', .go b) ∈ Acquisition.moves a s) :
    b.remaining < a.remaining := by
  cases a with
  | asking =>
    obtain ⟨-, same⟩ := memStep.mp move
    cases same
    exact Nat.lt_succ_self 8
  | waiting ticket =>
    simp only [Acquisition.moves] at move
    split at move
    · obtain ⟨-, same⟩ := memFinish.mp move
      cases same
    · split at move
      · obtain ⟨-, same⟩ := memStep.mp move
        cases same
        exact Nat.lt_succ_self 7
      · cases move
  | choosing ticket =>
    simp only [Acquisition.moves] at move
    split at move
    · obtain ⟨-, same⟩ := memFinish.mp move
      cases same
    · obtain ⟨-, same⟩ := memStep.mp move
      cases same
      exact Nat.lt_succ_self 6
  | creating ticket c =>
    rcases Machine.withinCases move with ⟨d, inner, same⟩ | ⟨u, r, inner, same⟩ | ⟨inner, same⟩
    · cases same
      exact Nat.succ_lt_succ (Creation.movesNearer inner)
    · have last : 0 < c.remaining := by
        rcases c with _ | ⟨_, _ | _⟩ | ⟨_, _ | _⟩ | _ <;> exact Nat.succ_pos _
      cases r <;> cases same
      exact Nat.succ_lt_succ last
    · cases same
  | failing ticket cause =>
    obtain ⟨-, same⟩ := memFinish.mp move
    cases same

namespace Schedule
variable {plan : Plan W V σ α φ ρ} {f g : Schedule W α φ ρ} {t t' : σ}

theorem remainingFront (f : Schedule W α φ ρ) {before rest : List (Flight φ α ρ)} {x : Flight φ α ρ} :
    ({ f with flights := before ++ x :: rest } : Schedule ..).remaining =
      x.remaining + ({ f with flights := before ++ rest } : Schedule ..).remaining := by
  simp only [remaining, List.map_append, List.map_cons, List.sum_append, List.sum_cons]
  omega

theorem remainingFlights {flights : List (Flight φ α ρ)} (here : f.flights = flights) :
    f.remaining = ({ f with flights } : Schedule ..).remaining := by
  rw [remaining, here]
  rfl

theorem goNearer (move : Moved plan f t t' (.go g)) :
    g.remaining < f.remaining ∨
      (∃ item, f.feed.pulled g.feed = [item] ∧ g.remaining ≤ f.remaining + 12) ∨
      (g.remaining = f.remaining ∧ ∃ item ticket seat p c q, .working item ticket seat p ∈ f.flights ∧
        (c, .go q) ∈ plan.work item seat p (plan.site.get t).crew) := by
  cases move with
  | offer feed =>
    refine .inl ?_
    simp only [remaining, feed, Feed.remaining, Acquisition.remaining, List.length_cons]
    omega
  | @pull u item feed more =>
    refine .inr (.inl ⟨item, by rw [feed]; rfl, ?_⟩)
    simp only [remaining, feed, Feed.remaining, Acquisition.remaining, List.length_nil]
    omega
  | dry feed more =>
    refine .inl ?_
    simp only [remaining, feed, Feed.remaining, List.length_nil]
    omega
  | acquire feed move =>
    have nearer := Acquisition.movesNearer move
    refine .inl ?_
    simp only [remaining, feed, Feed.remaining]
    omega
  | @send item a known u ticket seat feed move calm =>
    have last := a.remainingSome
    refine .inl ?_
    simp only [remaining, feed, Feed.remaining, List.map_append, List.sum_append, List.map_singleton,
      List.sum_singleton, Flight.remaining]
    omega
  | @refuse item a known u e feed move =>
    refine .inl ?_
    simp only [remaining, feed, Feed.remaining, List.map_append, List.sum_append, List.map_singleton,
      List.sum_singleton, Flight.remaining]
    omega
  | @work item ticket seat p u q before rest here move =>
    have among : .working item ticket seat p ∈ f.flights :=
      here ▸ List.mem_append_right _ List.mem_cons_self
    refine .inr (.inr ⟨?_, item, ticket, seat, p, u, q, among, move⟩)
    rw [remainingFront, remainingFlights here, remainingFront]
    rfl
  | answer here move =>
    refine .inl ?_
    rw [remainingFront, remainingFlights here, remainingFront]
    exact Nat.add_lt_add_right (Nat.lt_succ_self 2) _
  | @release item ticket r b u c before rest here move =>
    refine .inl ?_
    rw [remainingFront, remainingFlights here, remainingFront]
    cases b with
    | puttingBack =>
      obtain ⟨-, same⟩ := memStep.mp move
      cases same
      exact Nat.add_lt_add_right (Nat.lt_succ_self 1) _
    | freeing =>
      obtain ⟨-, same⟩ := memFinish.mp move
      cases same

theorem yieldNearer {y : Yield α ρ} (move : Moved plan f t t' (.done (some y, g))) :
    g.remaining < f.remaining := by
  cases move with
  | reject here =>
    rw [remainingFlights here, remainingFront]
    exact Nat.lt_add_of_pos_left (Nat.succ_pos _)
  | @land item ticket r b u before rest here move =>
    rw [remainingFlights here, remainingFront]
    cases b <;> exact Nat.lt_add_of_pos_left (Nat.succ_pos _)

end Schedule

end Remaining

end MutationPipeline
