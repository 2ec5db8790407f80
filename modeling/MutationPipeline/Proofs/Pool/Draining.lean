import MutationPipeline.Proofs.Pool.Closing

/-! A closed pool of which nobody has anything any more. It hands out nothing, whoever comes to it. -/
namespace MutationPipeline
variable {W V σ α φ ρ : Type}

namespace Pool
variable {p q : Pool} {ticket : Nat}

def Unseated (p : Pool) : Prop := ∀ l ∈ p.leases, l.seat = none

theorem Unseated.checkedOut (unseated : p.Unseated) : p.checkedOut = [] :=
  List.filterMap_eq_nil_iff.mpr unseated

theorem Unseated.free (unseated : p.Unseated) (ticket : Nat) : (p.free ticket).Unseated := by
  unfold Pool.free
  split
  · exact fun l member => unseated l (List.mem_of_mem_filter member)
  · exact unseated

theorem Unseated.putBack (unseated : p.Unseated) (ticket : Nat) : (p.putBack ticket).Unseated := by
  unfold Pool.putBack
  split
  · intro l member
    obtain ⟨k, old, rfl⟩ := List.mem_map.mp member
    split
    · rfl
    · exact unseated k old
  · exact unseated

theorem Unseated.forgetAll (unseated : p.Unseated) (tickets : List Nat) :
    (tickets.foldl forget p).Unseated := by
  induction tickets generalizing p with
  | nil => exact unseated
  | cons ticket rest ih =>
    have left : (p.forget ticket).Unseated := (unseated.putBack ticket).free ticket
    exact ih left

theorem Kept.unseated {n : Nat} {xs : List Stance}
    (kept : p.Kept n (.empty ticket p.capacity :: xs)) : p.Unseated := by
  intro l member
  have held : l.terms ∈ (Stance.empty ticket p.capacity :: xs).flatMap Stance.leases :=
    kept.counted.leases.mem_iff.mp (List.mem_map_of_mem member)
  obtain ⟨x, among, terms⟩ := List.mem_flatMap.mp held
  have nothing : x = .empty ticket p.capacity ∨ l.permits = 0 := by
    refine (List.mem_cons.mp among).imp_right fun other => ?_
    have vacant := List.sum_eq_zero_iff_forall_eq_nat.mp kept.vacant
    exact vacant _ (List.mem_map_of_mem (List.mem_flatMap.mpr ⟨x, other, terms⟩))
  have suits := kept.staffed.seating x among l member
  cases x with
  | empty t permits =>
    obtain rfl := congrArg Prod.fst (List.mem_singleton.mp terms)
    exact suits (List.mem_singleton_self _)
  | making holder seat =>
    cases holder with
    | none => cases terms
    | some t =>
      obtain rfl := congrArg Prod.fst (List.mem_singleton.mp terms)
      exact suits (List.mem_singleton_self _)
  | seated t seat =>
    have one : l.permits = 1 := congrArg Prod.snd (List.mem_singleton.mp terms)
    rcases nothing with same | none
    · cases same
    · omega
  | leaving t =>
    have one : l.permits = 1 := congrArg Prod.snd (List.mem_singleton.mp terms)
    rcases nothing with same | none
    · cases same
    · omega
  | _ => cases terms

structure Onward (p q : Pool) : Prop where
  capacity : q.capacity = p.capacity
  closed : p.permits.closed = true → q.permits.closed = true

theorem Level.onward (level : p.Level q) : p.Onward q :=
  ⟨level.capacity, fun closed => level.closed.trans closed⟩

end Pool

structure Site.Drained (s : Site W V) (xs : List Stance) : Prop where
  closed : s.pool.permits.closed = true
  vacant : Vacant xs
  unseated : s.pool.Unseated

theorem Vacant.seats {xs : List Stance} (vacant : Vacant xs) : xs.flatMap Stance.seats = [] := by
  refine List.flatMap_eq_nil_iff.mpr fun x member => ?_
  cases x with
  | seated ticket seat =>
    have none := List.sum_eq_zero_iff_forall_eq_nat.mp vacant 1 <|
      List.mem_map.mpr ⟨(ticket, 1), List.mem_flatMap.mpr ⟨_, member, List.mem_singleton_self _⟩, rfl⟩
    cases none
  | _ => rfl

section Moves
variable {s s' : Site W V} {ticket : Nat} {xs ys : List Stance}

theorem Site.Drained.perm (drained : s.Drained xs) (same : xs.Perm ys) : s.Drained ys :=
  { drained with vacant := drained.vacant.perm same }

theorem Site.Drained.absurd {x : Stance} (drained : s.Drained (x :: xs))
    (holds : x.leases = [(ticket, 1)]) : False := by
  have vacant := drained.vacant
  simp [Vacant, holds] at vacant

theorem Site.Drained.vacate (drained : s.Drained (ys ++ xs)) (tickets tokens : List Nat) :
    (s.vacate tickets tokens).Drained xs where
  closed := (s.pool.forgetAllAlike tickets).closed.trans drained.closed
  vacant := (Vacant.append.mp drained.vacant).2
  unseated := drained.unseated.forgetAll tickets

namespace Creation
variable {holder : Option Nat} {c : Creation W} {n : Next (Creation W) (Except PoolError Nat)}

theorem movesLevel (move : (s', n) ∈ Creation.moves holder c s) : s.pool.Level s'.pool := by
  have called {call : Calling W} {u o} (inner : (u, o) ∈ (callMoves : Machine (Site W V) _ _) call s) :
      s.pool.Level u.pool := by
    obtain ⟨crew, -, rfl⟩ := Machine.onCases inner
    exact .refl _
  cases c with
  | hiring =>
    obtain ⟨rfl, -⟩ := memStep.mp move
    exact .refl _
  | starting seat call =>
    refine Machine.withinState (s.pool.Level ·.pool) move (fun _ _ => called) fun r u level => ?_
    cases r <;> exact level
  | clearing cause call =>
    refine Machine.withinState (s.pool.Level ·.pool) move (fun _ _ => called) fun r u level => ?_
    cases r <;> exact level
  | enrolling seat =>
    obtain ⟨rfl, -⟩ := memFinish.mp move
    cases holder <;> exact ⟨rfl, rfl⟩

end Creation

namespace Acquisition
variable {a : Acquisition W} {n : Next (Acquisition W) (Except PoolError (Nat × Nat))}

theorem movesLevel (move : (s', n) ∈ Acquisition.moves a s) : s.pool.Level s'.pool := by
  by_cases creating : ∃ ticket c, a = .creating ticket c
  · obtain ⟨ticket, c, rfl⟩ := creating
    refine Machine.withinState (s.pool.Level ·.pool) move (fun _ _ => Creation.movesLevel)
      fun r u level => ?_
    cases r <;> exact level
  · have settled (ticket : Nat) (c : Creation W) : a ≠ .creating ticket c :=
      fun same => creating ⟨ticket, c, same⟩
    exact (movesAlike settled move).1.level

theorem movesDrained (drained : s.Drained (a.stances ++ xs))
    (move : (s', n) ∈ Acquisition.moves a s) :
    s'.Drained (n.elim stances got a.stances ++ xs) := by
  cases a with
  | asking =>
    obtain ⟨rfl, rfl⟩ := memStep.mp move
    exact ⟨(s.pool.claimAlike 1).closed.trans drained.closed, drained.vacant, drained.unseated⟩
  | waiting ticket =>
    simp only [Acquisition.moves, Pool.isDisposed, drained.closed, if_true] at move
    obtain ⟨rfl, rfl⟩ := memFinish.mp move
    exact drained.vacate [ticket] []
  | choosing ticket => exact (drained.absurd rfl).elim
  | creating ticket c => cases c <;> exact (drained.absurd rfl).elim
  | failing ticket cause => exact (drained.absurd rfl).elim

end Acquisition

namespace Disposal
variable {d : Disposal W} {n : Next (Disposal W) (Except WorkerError Unit)}

theorem movesOnward (move : (s', n) ∈ Disposal.moves d s) :
    s.pool.Onward s'.pool ∧ s'.pool.members.length ≤ s.pool.members.length := by
  have same (alike : s.pool.Alike s'.pool) :
      s.pool.Onward s'.pool ∧ s'.pool.members.length ≤ s.pool.members.length :=
    ⟨alike.level.onward, Nat.le_of_eq (congrArg List.length alike.members)⟩
  cases d with
  | asking =>
    simp only [Disposal.moves] at move
    split at move
    · obtain ⟨rfl, -⟩ := memFinish.mp move
      exact same (.refl _)
    · obtain ⟨rfl, -⟩ := memStep.mp move
      exact same (s.pool.claimAlike _)
  | waiting ticket wanted =>
    simp only [Disposal.moves] at move
    split at move
    · obtain ⟨rfl, -⟩ := memStep.mp move
      exact same (.refl _)
    · split at move
      · obtain ⟨rfl, -⟩ := memStep.mp move
        exact same ⟨rfl, rfl, rfl⟩
      · cases move
  | closing ticket =>
    obtain ⟨rfl, -⟩ := memStep.mp move
    exact ⟨⟨rfl, fun _ => rfl⟩, Nat.le_refl _⟩
  | freeing ticket =>
    obtain ⟨rfl, -⟩ := memStep.mp move
    exact same (s.pool.freeAlike ticket)
  | clearing =>
    obtain ⟨rfl, -⟩ := memStep.mp move
    exact ⟨⟨rfl, id⟩, Nat.zero_le _⟩
  | disposing call rest first =>
    obtain ⟨pool, -, -⟩ := disposingCases move
    exact same (pool ▸ .refl _)

theorem movesDrained (drained : s.Drained xs) (fits : d.Fits s.pool)
    (move : (s', n) ∈ Disposal.moves d s) : s'.Drained xs := by
  refine ⟨(movesOnward move).1.closed drained.closed, drained.vacant, ?_⟩
  cases d with
  | asking =>
    simp only [Disposal.moves, Pool.isDisposed, drained.closed, if_true] at move
    obtain ⟨rfl, -⟩ := memFinish.mp move
    exact drained.unseated
  | waiting ticket wanted =>
    simp only [Disposal.moves, Pool.isDisposed, drained.closed, if_true] at move
    obtain ⟨rfl, -⟩ := memStep.mp move
    exact drained.unseated
  | closing ticket =>
    obtain ⟨rfl, -⟩ := memStep.mp move
    exact drained.unseated
  | freeing ticket =>
    obtain ⟨rfl, -⟩ := memStep.mp move
    exact drained.unseated.free ticket
  | clearing =>
    obtain ⟨rfl, -⟩ := memStep.mp move
    exact drained.unseated
  | disposing call rest first =>
    rw [(disposingCases move).1]
    exact drained.unseated

theorem movesClosing (fits : d.Fits s.pool) (opened : s.pool.permits.closed = false)
    (closed : s'.pool.permits.closed = true) (move : (s', n) ∈ Disposal.moves d s) :
    ∃ ticket, d = .closing ticket := by
  have still (same : s'.pool.permits.closed = s.pool.permits.closed) : False := by
    rw [same, opened] at closed
    cases closed
  cases d with
  | closing ticket => exact ⟨ticket, rfl⟩
  | asking =>
    simp only [Disposal.moves, Pool.isDisposed, opened, Bool.false_eq_true, if_false] at move
    obtain ⟨rfl, -⟩ := memStep.mp move
    exact (still (s.pool.claimAlike _).closed).elim
  | waiting ticket wanted =>
    simp only [Disposal.moves, Pool.isDisposed, opened, Bool.false_eq_true, if_false] at move
    split at move
    · obtain ⟨rfl, -⟩ := memStep.mp move
      exact (still rfl).elim
    · cases move
  | _ =>
    have before : s.pool.permits.closed = true := fits
    rw [opened] at before
    cases before

theorem movesAccounts (fits : d.Fits s.pool) (few : s.pool.capacity ≤ mostAwaited)
    (kept : s.Kept (d.stances s.pool.capacity ++ xs)) (move : (s', n) ∈ Disposal.moves d s) :
    s'.Kept (n.elim (stances s.pool.capacity) (fun _ => []) (d.stances s.pool.capacity) ++ xs) ∨
      s'.Drained xs := by
  have booked : s.Booked xs (d.stances s.pool.capacity) := .inr (kept.perm List.perm_append_comm)
  rcases movesBooked fits rfl (.inr (.inl few)) booked move with ⟨closed, vacant⟩ | after
  · obtain ⟨ticket, rfl⟩ := movesClosing fits kept.counted.opened closed move
    obtain ⟨rfl, -⟩ := memStep.mp move
    have all : min s.pool.capacity mostAwaited = s.pool.capacity := Nat.min_eq_left few
    rw [stances, all] at kept
    have unseated : s.pool.Unseated := Pool.Kept.unseated kept
    exact .inr ⟨closed, vacant, unseated⟩
  · refine .inl (after.perm ?_)
    cases n with
    | go next => exact List.perm_append_comm
    | done r =>
      rw [Next.elim, movesOver move]
      exact List.perm_append_comm
    | panicked => exact List.perm_append_comm

end Disposal

end Moves

namespace Schedule
variable {plan : Plan W V σ α φ ρ} {site : Part σ (Site W V)} {t t' : σ} {xs : List Stance}
  {f : Schedule W α φ ρ} {n : Next (Schedule W α φ ρ) (Option (Yield α ρ) × Schedule W α φ ρ)}

theorem movedLevel (lawful : site.Lawful) (proper : plan.Proper site) (move : Moved plan f t t' n) :
    (site.get t).pool.Level (site.get t').pool := by
  obtain ⟨rfl, aloof, -⟩ := proper
  cases move with
  | pull feed more => rw [aloof _ _ _ more]; exact .refl _
  | dry feed more => rw [aloof _ _ _ more]; exact .refl _
  | acquire feed move => rw [lawful]; exact Acquisition.movesLevel move
  | send feed move => rw [lawful]; exact Acquisition.movesLevel move
  | refuse feed move => rw [lawful]; exact Acquisition.movesLevel move
  | feedBreaks feed move => rw [lawful]; exact Acquisition.movesLevel move
  | work flights move => rw [lawful]; exact .refl _
  | answer flights move => rw [lawful]; exact .refl _
  | workBreaks flights move => rw [lawful]; exact .refl _
  | release flights move => rw [lawful]; exact (Release.movesAlike move).1.level
  | land flights move => rw [lawful]; exact (Release.movesAlike move).1.level
  | _ => exact .refl _

theorem movedDrained (lawful : site.Lawful) (proper : plan.Proper site)
    (drained : (site.get t).Drained (f.stances ++ xs)) (move : Moved plan f t t' n) :
    (site.get t').Drained (n.elim stances (fun r => r.2.stances) f.stances ++ xs) := by
  obtain ⟨rfl, aloof, -⟩ := proper
  have landed {x : Flight φ α ρ} {before rest} (flights : f.flights = before ++ x :: rest) :
      (plan.site.get t).Drained
        (x.stances ++ (({ f with flights := before ++ rest } : Schedule ..).stances ++ xs)) := by
    rw [← List.append_assoc]
    refine drained.perm (List.Perm.append_right _ ?_)
    have front := stancesFront f before rest x
    rwa [← flights] at front
  have fed {feed : Feed W α} (same : f.feed = feed) :
      (plan.site.get t).Drained (feed.stances ++ (f.flights.flatMap Flight.stances ++ xs)) := by
    rw [← List.append_assoc, ← same]
    exact drained
  cases move with
  | ended dry empty => exact drained
  | offer feed =>
    have rest := fed feed
    rw [Next.elim, Schedule.stances, List.append_assoc]
    exact rest
  | pull feed more =>
    have rest := fed feed
    rw [aloof _ _ _ more, Next.elim, Schedule.stances, List.append_assoc]
    exact rest
  | dry feed more =>
    have rest := fed feed
    rw [aloof _ _ _ more, Next.elim, Schedule.stances, List.append_assoc]
    exact rest
  | acquire feed move =>
    rw [lawful, Next.elim, Schedule.stances, List.append_assoc]
    exact Acquisition.movesDrained (fed feed) move
  | send feed move => exact ((Acquisition.movesDrained (fed feed) move).absurd rfl).elim
  | refuse feed move =>
    rw [lawful]
    have moved := Acquisition.movesDrained (fed feed) move
    simpa [Next.elim, Schedule.stances, Flight.stances, Feed.stances, Acquisition.got] using moved
  | feedBreaks feed move =>
    rw [lawful, Next.elim, Schedule.stances, feed, List.append_assoc]
    exact Acquisition.movesDrained (fed feed) move
  | reject flights => exact landed flights
  | work flights move => exact ((landed flights).absurd rfl).elim
  | answer flights move => exact ((landed flights).absurd rfl).elim
  | workBreaks flights move => exact ((landed flights).absurd rfl).elim
  | release flights move => exact ((landed flights).absurd (Release.leases _ _)).elim
  | land flights move => exact ((landed flights).absurd (Release.leases _ _)).elim

end Schedule

namespace Visitor
variable {site : Part σ (Site W V)} {t t' : σ} {v : Visitor W V σ α φ ρ} {xs : List Stance}
  {n : Next (Visitor W V σ α φ ρ) Empty}

theorem movesLevel (lawful : site.Lawful) (serves : v.Serves site)
    (move : (t', n) ∈ v.moves site t) : (site.get t).pool.Level (site.get t').pool := by
  have inside {s : Site W V} (level : (site.get t).pool.Level s.pool) :
      (site.get t).pool.Level (site.get (site.set s t)).pool := by rwa [lawful]
  cases v with
  | acquiring a =>
    refine Machine.withinState (fun u => (site.get t).pool.Level (site.get u).pool) move
      (fun u o inner => ?_) fun r u level => ?_
    · obtain ⟨s, moved, rfl⟩ := Machine.onCases inner
      exact inside (Acquisition.movesLevel moved)
    · cases r <;> exact level
  | holding ticket seat =>
    obtain ⟨rfl, -⟩ := memStep.mp move
    exact .refl _
  | releasing ticket r =>
    refine Machine.withinState (fun u => (site.get t).pool.Level (site.get u).pool) move
      (fun u o inner => ?_) fun r u level => level
    obtain ⟨s, moved, rfl⟩ := Machine.onCases inner
    exact inside (Release.movesAlike moved).1.level
  | scheduling plan f =>
    refine Machine.withinState (fun u => (site.get t).pool.Level (site.get u).pool) move
      (fun u o inner => Schedule.movedLevel lawful serves (Schedule.movesMoved inner))
      fun r u level => ?_
    obtain ⟨y, g⟩ := r
    cases y <;> exact level
  | filling f => exact serves.elim
  | disposing d => exact serves.elim
  | _ => cases move

theorem movesDrained (lawful : site.Lawful) (serves : v.Serves site)
    (drained : (site.get t).Drained (v.stances ++ xs)) (move : (t', n) ∈ v.moves site t) :
    (site.get t').Drained (n.elim stances (fun r => nomatch r) v.stances ++ xs) := by
  cases v with
  | acquiring a =>
    rcases Machine.withinCases move with ⟨b, inner, rfl⟩ | ⟨u, r, inner, same⟩ | ⟨inner, rfl⟩
    · obtain ⟨u, moved, rfl⟩ := Machine.onCases inner
      rw [lawful]
      exact Acquisition.movesDrained drained moved
    · obtain ⟨s, moved, rfl⟩ := Machine.onCases inner
      have after := Acquisition.movesDrained drained moved
      rw [← lawful s t] at after
      cases r <;> cases same <;> exact after
    · obtain ⟨u, moved, rfl⟩ := Machine.onCases inner
      rw [lawful]
      exact Acquisition.movesDrained drained moved
  | holding ticket seat => exact (drained.absurd rfl).elim
  | releasing ticket r => exact (drained.absurd (r.leases ticket)).elim
  | scheduling plan f =>
    rcases Machine.withinCases move with ⟨g, inner, rfl⟩ | ⟨u, r, inner, same⟩ | ⟨inner, rfl⟩
    · exact Schedule.movedDrained lawful serves drained (Schedule.movesMoved inner)
    · have moved := Schedule.movesMoved inner
      have after := Schedule.movedDrained lawful serves drained moved
      obtain ⟨y, g⟩ := r
      cases y with
      | some y => cases same; exact after
      | none =>
        cases same
        exact { after with vacant := (Vacant.append.mp after.vacant).2 }
    · exact Schedule.movedDrained lawful serves drained (Schedule.movesMoved inner)
  | filling f => exact serves.elim
  | disposing d => exact serves.elim
  | _ => cases move

end Visitor

end MutationPipeline
