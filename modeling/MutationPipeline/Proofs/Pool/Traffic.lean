import MutationPipeline.Proofs.Pool.Stances
import MutationPipeline.Proofs.Worker.Orders

/-! The books of a pool stay right whatever goes on at it. Each phase of a visitor stands for its
part in them, and each of its moves changes the pool as it changes that part. -/
namespace MutationPipeline
variable {W V σ α φ ρ : Type}

def Creation.stance (holder : Option Nat) : Creation W → Stance
  | .starting seat _ | .enrolling seat => .making holder (some seat)
  | _ => .making holder none

def Acquisition.stances : Acquisition W → List Stance
  | .asking => []
  | .waiting ticket => [.waiting ticket 1]
  | .choosing ticket | .failing ticket _ => [.empty ticket 1]
  | .creating ticket c => [c.stance (some ticket)]

def Release.stance (ticket : Nat) : Release → Stance
  | .puttingBack => .leaving ticket
  | .freeing => .empty ticket 1

def Flight.stances : Flight φ α ρ → List Stance
  | .working _ ticket seat _ => [.seated ticket seat]
  | .returning _ ticket _ r => [r.stance ticket]
  | .refused .. => []

def Feed.stances : Feed W α → List Stance
  | .acquiring _ a _ => a.stances
  | _ => []

def Schedule.stances (f : Schedule W α φ ρ) : List Stance :=
  f.feed.stances ++ f.flights.flatMap Flight.stances

def Member.stance : Member (Creation W) Nat → Stance
  | .running c => c.stance none
  | .ended seat => .carrying seat

def Filling.stances : Filling W → List Stance
  | .counting => []
  | .creating members => members.map Member.stance

def Visitor.stances : Visitor W V σ α φ ρ → List Stance
  | .acquiring a => a.stances
  | .holding ticket seat => [.seated ticket seat]
  | .releasing ticket r => [r.stance ticket]
  | .scheduling _ f => f.stances
  | .filling f => f.stances
  | _ => []

def Site.Kept (s : Site W V) (xs : List Stance) : Prop := s.pool.Kept s.crew.seats.size xs

variable {s s' : Site W V} {ticket seat : Nat} {xs ys : List Stance}

theorem Site.Kept.more (kept : s.Kept xs) (pool : s'.pool = s.pool)
    (seats : s.crew.seats.size ≤ s'.crew.seats.size) : s'.Kept xs := by
  rw [Site.Kept, pool]
  exact Pool.Kept.more kept seats

theorem callMovesKept {call : Calling W} {n : Next (Calling W) (Except WorkerError V)}
    (kept : s.Kept xs) (move : (s', n) ∈ callMoves call s) : s'.Kept xs := by
  obtain ⟨u, inner, rfl⟩ := Machine.onCases move
  exact kept.more rfl (Nat.le_of_eq (congrArg Array.size (Calling.movesSeats inner).symm))

def Creation.made (holder : Option Nat) : Except PoolError Nat → List Stance
  | .ok seat => [match holder with
    | some ticket => .seated ticket seat
    | none => .carrying seat]
  | .error _ => [.making holder none]

theorem Creation.movesKept {holder : Option Nat} {c : Creation W}
    {n : Next (Creation W) (Except PoolError Nat)} (kept : s.Kept (c.stance holder :: xs))
    (move : (s', n) ∈ Creation.moves holder c s) :
    s'.Kept (n.elim (fun c => [c.stance holder]) (made holder) [c.stance holder] ++ xs) := by
  cases c with
  | hiring =>
    obtain ⟨rfl, rfl⟩ := memStep.mp move
    have size : (s.crew.hire).1.seats.size = s.crew.seats.size + 1 := Array.size_push _
    have hired := Pool.Kept.hire kept
    rw [← size] at hired
    exact hired
  | starting seat call =>
    rcases Machine.withinCases move with ⟨call, inner, rfl⟩ | ⟨u, r, inner, same⟩ | ⟨inner, rfl⟩
    · exact callMovesKept kept inner
    · have called := callMovesKept kept inner
      cases r with
      | ok v => cases same; exact called
      | error e => cases same; exact Pool.Kept.dismiss called
    · exact callMovesKept kept inner
  | clearing cause call =>
    rcases Machine.withinCases move with ⟨call, inner, rfl⟩ | ⟨u, r, inner, same⟩ | ⟨inner, rfl⟩
    · exact callMovesKept kept inner
    · have called := callMovesKept kept inner
      cases r with
      | ok v => cases same; exact called
      | error e => cases same; exact called
    · exact callMovesKept kept inner
  | enrolling seat =>
    obtain ⟨rfl, rfl⟩ := memFinish.mp move
    cases holder with
    | none => exact Pool.Kept.enroll kept
    | some ticket => exact Pool.Kept.enrollFor kept

def Served (xs : List Stance) : Prop := ∀ x ∈ xs, x.founds = false

def Acquisition.got : Except PoolError (Nat × Nat) → List Stance
  | .ok (ticket, seat) => [.seated ticket seat]
  | .error _ => []

theorem Acquisition.movesKept {a : Acquisition W}
    {n : Next (Acquisition W) (Except PoolError (Nat × Nat))} (served : Served xs)
    (kept : s.Kept (a.stances ++ xs)) (move : (s', n) ∈ Acquisition.moves a s) :
    s'.Kept (n.elim stances got a.stances ++ xs) := by
  cases a with
  | asking =>
    obtain ⟨rfl, rfl⟩ := memStep.mp move
    exact Pool.Kept.claim kept 1
  | waiting ticket =>
    simp only [Acquisition.moves] at move
    split at move
    · next disposed =>
      rw [Pool.isDisposed, kept.counted.opened] at disposed
      cases disposed
    · split at move
      · next complete =>
        obtain ⟨rfl, rfl⟩ := memStep.mp move
        exact Pool.Kept.lease kept complete
      · cases move
  | choosing ticket =>
    simp only [Acquisition.moves] at move
    split at move
    · next pool seat found =>
      obtain ⟨rfl, rfl⟩ := memFinish.mp move
      exact Pool.Kept.seatIdle kept found
    · next idle =>
      obtain ⟨rfl, rfl⟩ := memStep.mp move
      exact Pool.Kept.begin kept idle served
  | creating ticket c =>
    rcases Machine.withinCases move with ⟨c, inner, rfl⟩ | ⟨u, r, inner, same⟩ | ⟨inner, rfl⟩
    · exact Creation.movesKept kept inner
    · have created := Creation.movesKept kept inner
      cases r with
      | ok seat => cases same; exact created
      | error e => cases same; exact Pool.Kept.giveUp created
    · exact Creation.movesKept kept inner
  | failing ticket cause =>
    obtain ⟨rfl, rfl⟩ := memFinish.mp move
    exact Pool.Kept.free kept

theorem Release.movesKept {r : Release} {n : Next Release Unit}
    (kept : s.Kept (r.stance ticket :: xs)) (move : (s', n) ∈ Release.moves ticket r s) :
    s'.Kept (n.elim (fun r => [r.stance ticket]) (fun _ => []) [] ++ xs) := by
  cases r with
  | puttingBack =>
    obtain ⟨rfl, rfl⟩ := memStep.mp move
    exact Pool.Kept.putBack kept
  | freeing =>
    obtain ⟨rfl, rfl⟩ := memFinish.mp move
    exact Pool.Kept.free kept

theorem Site.Kept.perm (kept : s.Kept xs) (same : xs.Perm ys) : s.Kept ys :=
  Pool.Kept.perm kept same

theorem Served.append (first : Served xs) (second : Served ys) : Served (xs ++ ys) := by
  intro x member
  rcases List.mem_append.mp member with left | right
  · exact first x left
  · exact second x right

theorem Acquisition.served (a : Acquisition W) : Served a.stances := by
  intro x member
  cases a with
  | asking => cases member
  | waiting ticket => rw [List.mem_singleton.mp member]; rfl
  | choosing ticket => rw [List.mem_singleton.mp member]; rfl
  | creating ticket c => rw [List.mem_singleton.mp member]; cases c <;> rfl
  | failing ticket cause => rw [List.mem_singleton.mp member]; rfl

theorem Release.served (ticket : Nat) (r : Release) : (r.stance ticket).founds = false := by
  cases r <;> rfl

theorem Schedule.served (f : Schedule W α φ ρ) : Served f.stances := by
  refine Served.append ?_ fun x member => ?_
  · cases f.feed with
    | acquiring item a known => exact a.served
    | _ => exact fun _ member => by cases member
  · obtain ⟨flight, -, own⟩ := List.mem_flatMap.mp member
    cases flight with
    | working item ticket seat p => rw [List.mem_singleton.mp own]; rfl
    | returning item ticket result r => rw [List.mem_singleton.mp own]; exact r.served ticket
    | refused item cause => cases own

/-- What is said of a site and of the parts that all play in its books stays true when workers are
acquired and given back. `beside` says what parts the others may play. -/
structure Bookkeeping (beside : Stance → Prop) (holds : Site W V → List Stance → Prop) : Prop where
  own : ∀ x, x.founds = false → beside x
  perm : ∀ {s xs ys}, holds s xs → xs.Perm ys → holds s ys
  more : ∀ {s s' xs}, holds s xs → s'.pool = s.pool → s.crew.seats.size ≤ s'.crew.seats.size →
    holds s' xs
  acquires : ∀ {a s s' n xs}, (∀ x ∈ xs, beside x) → holds s (Acquisition.stances a ++ xs) →
    (s', n) ∈ Acquisition.moves a s → holds s' (n.elim Acquisition.stances Acquisition.got a.stances ++ xs)
  leaves : ∀ {s ticket seat xs}, holds s (.seated ticket seat :: xs) → holds s (.leaving ticket :: xs)
  releases : ∀ {ticket r s s' n xs}, holds s (Release.stance ticket r :: xs) →
    (s', n) ∈ Release.moves ticket r s →
      holds s' (n.elim (fun r => [Release.stance ticket r]) (fun _ => []) [] ++ xs)

theorem keptBooks : Bookkeeping (fun x => x.founds = false) (Site.Kept : Site W V → List Stance → Prop) where
  own := fun _ => id
  perm := Site.Kept.perm
  more := Site.Kept.more
  acquires := Acquisition.movesKept
  leaves := Pool.Kept.leave
  releases := Release.movesKept

namespace Schedule
variable {f : Schedule W α φ ρ} {before rest : List (Flight φ α ρ)} {x : Flight φ α ρ}
  {beside : Stance → Prop} {holds : Site W V → List Stance → Prop}

theorem stancesFront (f : Schedule W α φ ρ) (before rest : List (Flight φ α ρ))
    (x : Flight φ α ρ) : ({ f with flights := before ++ x :: rest } : Schedule ..).stances.Perm
      (x.stances ++ ({ f with flights := before ++ rest } : Schedule ..).stances) := by
  have moved : ((before ++ x :: rest).flatMap Flight.stances).Perm
      (x.stances ++ (before ++ rest).flatMap Flight.stances) :=
    List.perm_middle.flatMap_right _
  refine (moved.append_left _).trans ?_
  simp only [Schedule.stances, ← List.append_assoc]
  exact List.perm_append_comm.append_right _

theorem booksFront (books : Bookkeeping beside holds) (flights : f.flights = before ++ x :: rest)
    (kept : holds s (f.stances ++ xs)) : holds s (x.stances ++
      (({ f with flights := before ++ rest } : Schedule ..).stances ++ xs)) := by
  rw [← List.append_assoc]
  refine books.perm kept (List.Perm.append_right _ ?_)
  have front := stancesFront f before rest x
  rwa [← flights] at front

theorem booksBack (books : Bookkeeping beside holds) (kept : holds s (x.stances ++
      (({ f with flights := before ++ rest } : Schedule ..).stances ++ xs))) :
    holds s (({ f with flights := before ++ x :: rest } : Schedule ..).stances ++ xs) := by
  rw [← List.append_assoc] at kept
  exact books.perm kept ((stancesFront f before rest x).symm.append_right _)

variable {plan : Plan W V σ α φ ρ} {site : Part σ (Site W V)} {t t' : σ}
  {n : Next (Schedule W α φ ρ) (Option (Yield α ρ) × Schedule W α φ ρ)}

theorem movedBooks (books : Bookkeeping beside holds) (lawful : site.Lawful) (proper : plan.Proper site)
    (others : ∀ x ∈ xs, beside x) (kept : holds (site.get t) (f.stances ++ xs))
    (move : Moved plan f t t' n) :
    holds (site.get t') (n.elim stances (fun r => r.2.stances) f.stances ++ xs) := by
  obtain ⟨rfl, aloof, stays⟩ := proper
  have others : ∀ x ∈ f.flights.flatMap Flight.stances ++ xs, beside x := by
    intro x member
    refine (List.mem_append.mp member).elim (fun own => books.own x ?_) (others x)
    exact Schedule.served { f with feed := .ended : Schedule W α φ ρ } x own
  cases move with
  | ended dry empty => exact kept
  | offer feed =>
    rw [Schedule.stances, feed] at kept
    exact kept
  | pull feed more =>
    rw [Schedule.stances, feed] at kept
    rw [aloof _ _ _ more]
    exact kept
  | dry feed more =>
    rw [Schedule.stances, feed] at kept
    rw [aloof _ _ _ more]
    exact kept
  | acquire feed move =>
    rw [Schedule.stances, feed, List.append_assoc] at kept
    have moved := books.acquires others kept move
    rw [lawful, Next.elim, Schedule.stances, List.append_assoc]
    exact moved
  | send feed move =>
    rw [Schedule.stances, feed, List.append_assoc] at kept
    have moved := books.acquires others kept move
    rw [lawful]
    refine books.perm moved ?_
    rw [← List.append_assoc]
    refine List.Perm.append_right _ ?_
    simp only [Next.elim, Schedule.stances, List.flatMap_append]
    exact List.perm_append_comm
  | refuse feed move =>
    rw [Schedule.stances, feed, List.append_assoc] at kept
    have moved := books.acquires others kept move
    rw [lawful]
    simpa [Next.elim, Schedule.stances, Flight.stances, Feed.stances, Acquisition.got] using moved
  | feedBreaks feed move =>
    rw [Schedule.stances, feed, List.append_assoc] at kept
    have moved := books.acquires others kept move
    rw [lawful, Next.elim, Schedule.stances, feed, List.append_assoc]
    exact moved
  | reject flights => exact booksFront books flights kept
  | work flights move =>
    have alone := booksFront books flights kept
    rw [lawful]
    exact booksBack books (books.more alone rfl (stays _ _ _ _ _ _ move))
  | @answer item ticket seat p u r before rest flights move =>
    have alone : holds { plan.site.get t with crew := u } _ :=
      books.more (booksFront books flights kept) rfl (stays _ _ _ _ _ _ move)
    rw [lawful]
    exact booksBack books (books.leaves alone)
  | workBreaks flights move =>
    rw [lawful]
    exact books.more kept rfl (stays _ _ _ _ _ _ move)
  | release flights move =>
    have moved := books.releases (booksFront books flights kept) move
    rw [lawful]
    exact booksBack books moved
  | land flights move =>
    have moved := books.releases (booksFront books flights kept) move
    rw [lawful]
    exact moved

theorem movedKept (lawful : site.Lawful) (proper : plan.Proper site) (served : Served xs)
    (kept : (site.get t).Kept (f.stances ++ xs)) (move : Moved plan f t t' n) :
    (site.get t').Kept (n.elim stances (fun r => r.2.stances) f.stances ++ xs) :=
  movedBooks keptBooks lawful proper served kept move

end Schedule

theorem Acquisition.ticketsStances (a : Acquisition W) :
    a.tickets = a.stances.flatMap Stance.tickets := by
  cases a with
  | creating ticket c => cases c <;> rfl
  | _ => rfl

theorem Schedule.ticketsStances (f : Schedule W α φ ρ) :
    f.tickets = f.stances.flatMap Stance.tickets := by
  rw [Schedule.tickets, Schedule.stances, List.flatMap_append]
  congr 1
  · cases f.feed with
    | acquiring item a known => exact a.ticketsStances
    | _ => rfl
  · induction f.flights with
    | nil => rfl
    | cons x rest ih =>
      cases x with
      | working item ticket seat p => exact congrArg (ticket :: ·) ih
      | returning item ticket result r => cases r <;> exact congrArg (ticket :: ·) ih
      | refused item cause => exact ih

theorem Acquisition.seatsStances (a : Acquisition W) : a.stances.flatMap Stance.seats = [] := by
  cases a with
  | creating ticket c => cases c <;> rfl
  | _ => rfl

theorem Schedule.seatsStances (f : Schedule W α φ ρ) :
    f.stances.flatMap Stance.seats = f.flights.filterMap fun
      | .working _ _ seat _ => some seat
      | _ => none := by
  have feed : f.feed.stances.flatMap Stance.seats = [] := by
    cases f.feed with
    | acquiring item a known => exact a.seatsStances
    | _ => rfl
  rw [Schedule.stances, List.flatMap_append, feed, List.nil_append]
  induction f.flights with
  | nil => rfl
  | cons x rest ih =>
    cases x with
    | working item ticket seat p => exact congrArg (seat :: ·) ih
    | returning item ticket result r => cases r <;> exact ih
    | refused item cause => exact ih

namespace Visitor
variable {site : Part σ (Site W V)} {t t' : σ} {v : Visitor W V σ α φ ρ}
  {n : Next (Visitor W V σ α φ ρ) Empty}

def Serves (site : Part σ (Site W V)) : Visitor W V σ α φ ρ → Prop
  | .scheduling plan _ => plan.Proper site
  | .filling _ | .disposing _ | .disposed _ => False
  | _ => True

theorem served (serves : v.Serves site) : Served v.stances := by
  cases v with
  | acquiring a => exact a.served
  | scheduling plan f => exact f.served
  | holding ticket seat => exact fun x member => List.mem_singleton.mp member ▸ rfl
  | releasing ticket r =>
    exact fun x member => List.mem_singleton.mp member ▸ r.served ticket
  | filling f => exact serves.elim
  | _ => exact fun _ member => by cases member

theorem ticketsStances (serves : v.Serves site) :
    v.tickets = v.stances.flatMap Stance.tickets := by
  cases v with
  | acquiring a => exact a.ticketsStances
  | scheduling plan f => exact f.ticketsStances
  | releasing ticket r => cases r <;> rfl
  | filling f => exact serves.elim
  | disposing d => exact serves.elim
  | _ => rfl

theorem seatsStances (serves : v.Serves site) : v.stances.flatMap Stance.seats = v.seats := by
  cases v with
  | acquiring a => exact a.seatsStances
  | scheduling plan f => exact f.seatsStances
  | releasing ticket r => cases r <;> rfl
  | filling f => exact serves.elim
  | _ => rfl

theorem movesBooks {beside : Stance → Prop} {holds : Site W V → List Stance → Prop}
    (books : Bookkeeping beside holds) (lawful : site.Lawful) (serves : v.Serves site)
    (others : ∀ x ∈ xs, beside x) (kept : holds (site.get t) (v.stances ++ xs))
    (move : (t', n) ∈ v.moves site t) :
    holds (site.get t') (n.elim stances (fun r => nomatch r) v.stances ++ xs) ∧
      ∀ w, n = .go w → w.Serves site := by
  cases v with
  | acquiring a =>
    rcases Machine.withinCases move with ⟨b, inner, rfl⟩ | ⟨u, r, inner, same⟩ | ⟨inner, rfl⟩
    · obtain ⟨u, moved, rfl⟩ := Machine.onCases inner
      rw [lawful]
      exact ⟨books.acquires others kept moved, fun w go => by cases go; trivial⟩
    · obtain ⟨s, moved, rfl⟩ := Machine.onCases inner
      have after := books.acquires others kept moved
      rw [← lawful s t] at after
      cases r with
      | ok r => cases same; exact ⟨after, fun w go => by cases go; trivial⟩
      | error e => cases same; exact ⟨after, fun w go => by cases go; trivial⟩
    · obtain ⟨u, moved, rfl⟩ := Machine.onCases inner
      rw [lawful]
      exact ⟨books.acquires others kept moved, fun w go => by cases go⟩
  | holding ticket seat =>
    obtain ⟨rfl, rfl⟩ := memStep.mp move
    exact ⟨books.leaves kept, fun w go => by cases go; trivial⟩
  | releasing ticket r =>
    rcases Machine.withinCases move with ⟨b, inner, rfl⟩ | ⟨u, r, inner, same⟩ | ⟨inner, rfl⟩
    · obtain ⟨u, moved, rfl⟩ := Machine.onCases inner
      rw [lawful]
      exact ⟨books.releases kept moved, fun w go => by cases go; trivial⟩
    · obtain ⟨s, moved, rfl⟩ := Machine.onCases inner
      have after := books.releases kept moved
      rw [← lawful s t] at after
      cases same
      exact ⟨after, fun w go => by cases go; trivial⟩
    · obtain ⟨u, moved, rfl⟩ := Machine.onCases inner
      cases r <;> simp [Release.moves, step, finish] at moved
  | scheduling plan f =>
    rcases Machine.withinCases move with ⟨g, inner, rfl⟩ | ⟨u, r, inner, same⟩ | ⟨inner, rfl⟩
    · exact ⟨Schedule.movedBooks books lawful serves others kept (Schedule.movesMoved inner),
        fun w go => by cases go; exact serves⟩
    · have moved := Schedule.movesMoved inner
      have after := Schedule.movedBooks books lawful serves others kept moved
      obtain ⟨y, g⟩ := r
      cases y with
      | some y => cases same; exact ⟨after, fun w go => by cases go; exact serves⟩
      | none =>
        cases same
        cases moved with
        | ended dry empty =>
          have none : f.stances = [] := by
            rw [Schedule.stances, dry, empty]
            rfl
          change holds _ (f.stances ++ xs) at kept
          rw [none] at kept
          exact ⟨kept, fun w go => by cases go; trivial⟩
    · exact ⟨Schedule.movedBooks books lawful serves others kept (Schedule.movesMoved inner),
        fun w go => by cases go⟩
  | filling f => exact serves.elim
  | disposing d => exact serves.elim
  | filled r => cases move
  | disposed r => cases move
  | ended => cases move

theorem movesKept (lawful : site.Lawful) (serves : v.Serves site) (served : Served xs)
    (kept : (site.get t).Kept (v.stances ++ xs)) (move : (t', n) ∈ v.moves site t) :
    (site.get t').Kept (n.elim stances (fun r => nomatch r) v.stances ++ xs) ∧
      ∀ w, n = .go w → w.Serves site :=
  movesBooks keptBooks lawful serves served kept move

end Visitor

namespace Traffic
variable {site : Part σ (Site W V)} {of : φ → List Nat} {t u : Traffic W V σ α φ ρ}

def stances (visitors : List (Visitor W V σ α φ ρ)) : List Stance :=
  visitors.flatMap Visitor.stances

theorem stancesFront (before after : List (Visitor W V σ α φ ρ)) (v : Visitor W V σ α φ ρ) :
    (stances (before ++ v :: after)).Perm (v.stances ++ stances (before ++ after)) :=
  List.perm_middle.flatMap_right _

structure Used (site : Part σ (Site W V)) (t : Traffic W V σ α φ ρ) : Prop where
  serve : ∀ v ∈ t.visitors, v.Serves site
  kept : (site.get t.state).Kept (stances t.visitors)

theorem Used.served (used : t.Used site) : Served (stances t.visitors) := by
  intro x member
  obtain ⟨v, visits, own⟩ := List.mem_flatMap.mp member
  exact Visitor.served (used.serve v visits) x own

theorem vacateKept {s : Site W V} {v : Visitor W V σ α φ ρ} (serves : v.Serves site)
    (kept : s.Kept (v.stances ++ xs)) (tokens : List Nat) :
    (s.vacate v.tickets tokens).Kept xs := by
  rw [Site.Kept, Site.vacate, Visitor.ticketsStances serves, Crew.abandonAllSeats]
  exact Pool.Kept.forgetAll kept (Visitor.served serves) (.refl _)

section Step
variable {before after : List (Visitor W V σ α φ ρ)} {v : Visitor W V σ α φ ρ}

theorem Used.others (used : t.Used site) (here : t.visitors = before ++ v :: after) :
    v.Serves site ∧ (∀ w ∈ before ++ after, w.Serves site) ∧
      (site.get t.state).Kept (v.stances ++ stances (before ++ after)) ∧
        Served (stances (before ++ after)) := by
  obtain ⟨serve, kept⟩ := used
  rw [here] at serve kept
  have rest : ∀ w ∈ before ++ after, w.Serves site :=
    fun w member => serve w (List.perm_middle.mem_iff.mpr (List.mem_cons_of_mem v member))
  refine ⟨serve v (by simp), rest, kept.perm (stancesFront before after v), ?_⟩
  intro x member
  obtain ⟨w, visits, own⟩ := List.mem_flatMap.mp member
  exact Visitor.served (rest w visits) x own

theorem usedAgain {s : σ} (rest : ∀ w ∈ before ++ after, w.Serves site) (serves : v.Serves site)
    (kept : (site.get s).Kept (v.stances ++ stances (before ++ after))) :
    Used site ⟨s, before ++ v :: after⟩ where
  serve := by
    intro w member
    rcases List.mem_cons.mp (List.perm_middle.mem_iff.mp member) with rfl | other
    · exact serves
    · exact rest w other
  kept := kept.perm (stancesFront before after v).symm

end Step

theorem Used.step (lawful : site.Lawful) (used : t.Used site)
    (step : Step site of (Serving site) t u) : u.Used site := by
  cases step with
  | @enter v come =>
    have serves : v.Serves site ∧ v.stances = [] := by
      rcases come with rfl | ⟨plan, items, proper, rfl⟩
      · exact ⟨trivial, rfl⟩
      · exact ⟨proper, rfl⟩
    refine ⟨fun w member => ?_, ?_⟩
    · rcases List.mem_append.mp member with old | new
      · exact used.serve w old
      · rw [List.mem_singleton.mp new]
        exact serves.1
    · rw [stances, List.flatMap_append, List.flatMap_singleton, serves.2, List.append_nil]
      exact used.kept
  | go here move =>
    obtain ⟨serves, rest, kept, served⟩ := used.others here
    obtain ⟨moved, again⟩ := Visitor.movesKept lawful serves served kept move
    exact usedAgain rest (again _ rfl) moved
  | breakDown here move =>
    obtain ⟨serves, rest, kept, served⟩ := used.others here
    have moved := (Visitor.movesKept lawful serves served kept move).1
    refine usedAgain (v := .ended) rest trivial ?_
    rw [Part.update, lawful]
    exact vacateKept serves moved _
  | leave here =>
    obtain ⟨serves, rest, kept, -⟩ := used.others here
    refine usedAgain (v := .ended) rest trivial ?_
    rw [Part.update, lawful]
    exact vacateKept serves kept _
  | grow n =>
    refine ⟨used.serve, ?_⟩
    rw [Part.update, lawful]
    exact Pool.Kept.grow used.kept n
  | work crew stays =>
    refine ⟨used.serve, ?_⟩
    rw [Part.update, lawful]
    exact used.kept.more rfl stays

theorem Used.steps (lawful : site.Lawful) (used : t.Used site)
    (steps : Steps site of (Serving site) t u) : u.Used site := by
  induction steps with
  | refl => exact used
  | tail steps step ih => exact ih.step lawful step

end Traffic

theorem Filling.membersKept {members : List (Member (Creation W) Nat)}
    {o : Next (List (Member (Creation W) Nat)) (Except PoolError (List Nat))}
    (kept : s.Kept (members.map Member.stance ++ xs))
    (move : (s', o) ∈ Member.moves (Creation.moves none) members s) :
    (∀ later, o = .go later → s'.Kept (later.map Member.stance ++ xs)) ∧
      ∀ seats, o = .done (.ok seats) → s'.Kept (seats.map .carrying ++ xs) := by
  rcases Member.movesCases move with ⟨seats, rfl, rfl, rfl⟩ | ⟨before, c, rest, o, rfl, moved, rfl⟩
  · refine ⟨fun later go => by (cases go), fun same done => ?_⟩
    cases done
    rwa [List.map_map] at kept
  · have front (m : Member (Creation W) Nat) :
        ((before ++ m :: rest).map Member.stance ++ xs).Perm
          (m.stance :: ((before ++ rest).map Member.stance ++ xs)) :=
      (List.perm_middle.map _).append_right xs
    have after := Creation.movesKept (kept.perm (front (.running c))) moved
    refine ⟨fun later go => ?_, fun seats done => ?_⟩
    · cases o with
      | go d => cases go; exact after.perm (front (.running d)).symm
      | done r =>
        cases r with
        | ok seat => cases go; exact after.perm (front (.ended seat)).symm
        | error e => cases go
      | panicked => cases go
    · cases o with
      | go d => cases done
      | done r => cases r <;> cases done
      | panicked => cases done

theorem Filling.movesKept {f : Filling W} {n : Next (Filling W) (Except PoolError Unit)}
    (calm : xs.countP Stance.isMaking = 0) (kept : s.Kept (f.stances ++ xs))
    (move : (s', n) ∈ Filling.moves f s) :
    (∀ g, n = .go g → s'.Kept (g.stances ++ xs)) ∧ (n = .done (.ok ()) → s'.Kept xs) := by
  cases f with
  | counting =>
    simp only [Filling.moves] at move
    split at move
    · obtain ⟨rfl, rfl⟩ := memFinish.mp move
      exact ⟨fun g go => by (cases go), fun same => by cases same⟩
    · obtain ⟨rfl, rfl⟩ := memStep.mp move
      refine ⟨fun g go => ?_, fun same => by cases same⟩
      cases go
      rw [Filling.stances, List.map_replicate]
      exact Pool.Kept.found kept calm
  | creating members =>
    rcases Machine.withinCases move with ⟨later, inner, rfl⟩ | ⟨u, r, inner, same⟩ | ⟨inner, rfl⟩
    · refine ⟨fun g go => ?_, fun same => by cases same⟩
      cases go
      exact (membersKept kept inner).1 later rfl
    · cases r with
      | ok seats =>
        cases same
        refine ⟨fun g go => by (cases go), fun _ => ?_⟩
        exact Pool.Kept.stock ((membersKept kept inner).2 seats rfl)
      | error e =>
        cases same
        exact ⟨fun g go => by (cases go), fun same => by cases same⟩
    · exact ⟨fun g go => by (cases go), fun same => by cases same⟩

namespace Traffic
variable {site : Part σ (Site W V)} {of : φ → List Nat} {t u : Traffic W V σ α φ ρ}

def Failed (v : Visitor W V σ α φ ρ) : Prop := v = .ended ∨ ∃ e, v = .filled (.error e)

inductive Founded (site : Part σ (Site W V)) (t : Traffic W V σ α φ ρ) : Prop where
  | failed {v} (member : v ∈ t.visitors) (failed : Failed v)
  | going (count : Nat) (now : Option (Filling W))
      (all : t.visitors = List.replicate count (.filled (.ok ())) ++ (now.map .filling).toList)
      (kept : (site.get t.state).Kept (now.elim [] Filling.stances))

section Founding
variable {before after : List (Visitor W V σ α φ ρ)} {v w : Visitor W V σ α φ ρ}

theorem Failed.stuck {s s' : σ} {n : Next (Visitor W V σ α φ ρ) Empty} (failed : Failed v) :
    (s', n) ∉ v.moves site s := by
  rcases failed with rfl | ⟨e, rfl⟩ <;> exact List.not_mem_nil

theorem Failed.stays {s : σ} (member : v ∈ t.visitors) (failed : Failed v)
    (here : t.visitors = before ++ w :: after) (other : w ≠ v) (x : Visitor W V σ α φ ρ) :
    Founded site ⟨s, before ++ x :: after⟩ := by
  rw [here] at member
  rcases List.mem_cons.mp (List.perm_middle.mem_iff.mp member) with rfl | old
  · exact absurd rfl other
  · exact .failed (List.perm_middle.mem_iff.mpr (List.mem_cons_of_mem x old)) failed

theorem lastMoves {count : Nat} {now : Option (Filling W)} {s s' : σ}
    {n : Next (Visitor W V σ α φ ρ) Empty} (move : (s', n) ∈ w.moves site s)
    (all : before ++ w :: after =
      List.replicate count (.filled (.ok ())) ++ (now.map .filling).toList) :
    ∃ f, now = some f ∧ w = .filling f ∧ before = List.replicate count (.filled (.ok ())) ∧
      after = [] := by
  have moves : w ≠ .filled (.ok ()) := by
    rintro rfl
    cases move
  have outside : w ∉ List.replicate count (.filled (.ok ())) :=
    fun member => moves (List.eq_of_mem_replicate member)
  rcases List.append_eq_append_iff.mp all with ⟨front, whole, rest⟩ | ⟨back, whole, rest⟩
  · cases front with
    | nil =>
      cases now with
      | none => cases rest
      | some f =>
        obtain ⟨rfl, rfl⟩ := List.cons.inj rest
        exact ⟨f, rfl, rfl, by simpa using whole.symm, rfl⟩
    | cons x front =>
      obtain ⟨rfl, -⟩ := List.cons.inj rest
      exact absurd (by simp [whole]) outside
  · cases now with
    | none => simp at rest
    | some f =>
      cases back with
      | nil =>
        obtain ⟨rfl, rfl⟩ := List.cons.inj rest
        exact ⟨f, rfl, rfl, by simpa using whole, rfl⟩
      | cons x back => simp at rest

end Founding

theorem Founded.step (lawful : site.Lawful) (founded : t.Founded site)
    (step : Step site of Founding t u) : u.Founded site := by
  cases founded with
  | failed member failed =>
    cases step with
    | enter come => exact .failed (List.mem_append_left _ member) failed
    | go here move => exact failed.stays member here (fun same => (same ▸ failed).stuck move) _
    | breakDown here move => exact .failed (List.mem_append_right _ List.mem_cons_self) (.inl rfl)
    | leave here => exact .failed (List.mem_append_right _ List.mem_cons_self) (.inl rfl)
    | grow n => exact .failed member failed
    | work crew stays => exact .failed member failed
  | going count now all kept =>
    cases step with
    | @enter v come =>
      obtain ⟨rfl, settled⟩ := come
      cases now with
      | none => exact .going count (some .counting) (by rw [all]; simp) kept
      | some f =>
        obtain ⟨r, same⟩ := settled (.filling f) (by simp [all])
        cases same
    | go here move =>
      obtain ⟨f, rfl, rfl, rfl, rfl⟩ := lastMoves move (here ▸ all)
      have alone : (f.stances ++ []).Perm f.stances := .of_eq (List.append_nil _)
      rcases Machine.withinCases move with ⟨g, inner, same⟩ | ⟨s, r, inner, same⟩ | ⟨inner, same⟩
      · obtain ⟨s, moved, rfl⟩ := Machine.onCases inner
        cases same
        refine .going count (some g) rfl ?_
        rw [lawful]
        have going := (Filling.movesKept rfl (kept.perm alone.symm) moved).1 g rfl
        rwa [List.append_nil] at going
      · obtain ⟨s, moved, rfl⟩ := Machine.onCases inner
        cases same
        cases r with
        | ok r =>
          refine .going (count + 1) none ?_ ?_
          · rw [List.replicate_succ', Option.map_none, Option.toList_none, List.append_nil]
          · rw [Part.update, lawful, lawful]
            have full := (Filling.movesKept rfl (kept.perm alone.symm) moved).2 rfl
            refine full.more rfl (Nat.le_of_eq ?_)
            rw [Site.vacate, Crew.abandonAllSeats]
        | error e => exact .failed (List.mem_append_right _ List.mem_cons_self) (.inr ⟨e, rfl⟩)
      · cases same
    | breakDown here move => exact .failed (List.mem_append_right _ List.mem_cons_self) (.inl rfl)
    | leave here => exact .failed (List.mem_append_right _ List.mem_cons_self) (.inl rfl)
    | grow n =>
      refine .going count now all ?_
      rw [Part.update, lawful]
      exact Pool.Kept.grow kept n
    | work crew stays =>
      refine .going count now all ?_
      rw [Part.update, lawful]
      exact kept.more rfl stays

theorem Founded.steps (lawful : site.Lawful) (founded : t.Founded site)
    (steps : Steps site of Founding t u) : u.Founded site := by
  induction steps with
  | refl => exact founded
  | tail steps step ih => exact ih.step lawful step

theorem Founded.used (founded : t.Founded site)
    (settled : ∀ v ∈ t.visitors, v = .filled (.ok ())) : t.Used site := by
  cases founded with
  | failed member failed =>
    have same := settled _ member
    rcases failed with rfl | ⟨e, rfl⟩ <;> cases same
  | going count now all kept =>
    cases now with
    | some f =>
      have same := settled (.filling f) (by simp [all])
      cases same
    | none =>
      refine ⟨fun v member => settled v member ▸ trivial, ?_⟩
      have none : stances t.visitors = [] := by
        rw [stances, List.flatMap_eq_nil_iff]
        exact fun v member => settled v member ▸ rfl
      rw [none]
      exact kept

/-- A pool that was filled up successfully, or not at all, hands out workers one by one and for
streams of items while its capacity grows: no more workers are checked out, and no more are made,
than it may have, and each of them is idle or checked out, and only once. Whoever works with a
worker has it checked out for itself. -/
theorem checkedOutApart {start founded t : Traffic W V σ α φ ρ} (lawful : site.Lawful)
    (nobody : start.visitors = []) {capacity : Nat}
    (fresh : (site.get start.state).pool = .ofCapacity capacity)
    (founding : Steps site of Founding start founded)
    (filled : ∀ v ∈ founded.visitors, v = .filled (.ok ()))
    (serving : Steps site of (Serving site) founded t) :
    let pool := (site.get t.state).pool
    pool.checkedOut.length ≤ pool.capacity ∧ pool.members.length ≤ pool.capacity ∧
      (pool.idle ++ pool.checkedOut).Nodup ∧
        (∀ seat ∈ pool.members, seat ∈ pool.idle ∨ seat ∈ pool.checkedOut) ∧
          (t.visitors.flatMap Visitor.seats).Subperm pool.checkedOut := by
  have begun : start.Founded site := by
    refine .going 0 none nobody ?_
    rw [Site.Kept, fresh]
    exact Pool.freshKept capacity _
  have used := ((begun.steps lawful founding).used filled).steps lawful serving
  obtain ⟨few, roster⟩ := Pool.Kept.served used.kept used.served
  have counted := used.kept.counted
  have staffed := used.kept.staffed
  refine ⟨by omega, Nat.le_trans (Nat.le_add_right _ _) staffed.room, ?_, ?_, ?_⟩
  · exact roster.nodup_iff.mp (List.nodup_append.mp staffed.distinct).1
  · exact fun seat member => List.mem_append.mp (roster.mem_iff.mp member)
  · have working :
        (stances t.visitors).flatMap Stance.seats = t.visitors.flatMap Visitor.seats := by
      rw [stances, List.flatMap_assoc]
      exact List.flatMap_congr fun v member => Visitor.seatsStances (used.serve v member)
    rw [← working]
    exact (Pool.matched counted.leases counted.single staffed.seating).1

def untouched : Traffic Unit Unit (Site Unit Unit) Unit Unit Unit := ⟨{ pool := .ofCapacity 1 }, []⟩

def oneMade : Traffic Unit Unit (Site Unit Unit) Unit Unit Unit where
  state :=
    { pool := { capacity := 1, permits := { free := 1 }, idle := [0], members := [0] }
      crew :=
        { seats := #[{ occupant := 0 }], made := 1, tokens := 1
          history := [.made 0, .called 0 .init] } }
  visitors := [.filled (.ok ())]

def oneTaken : Traffic Unit Unit (Site Unit Unit) Unit Unit Unit where
  state :=
    { oneMade.state with
      pool :=
        { capacity := 1, permits := { free := 0 }, members := [0]
          leases := [{ ticket := 0, permits := 1, seat := some 0 }], tickets := 1 } }
  visitors := [.filled (.ok ()), .holding 0 0]

theorem Step.last {welcome : Traffic W V σ α φ ρ → Visitor W V σ α φ ρ → Prop} {s s' : σ}
    {before : List (Visitor W V σ α φ ρ)} {v w : Visitor W V σ α φ ρ}
    (move : (s', .go w) ∈ v.moves site s) :
    Step site of welcome ⟨s, before ++ [v]⟩ ⟨s', before ++ [w]⟩ := .go rfl move

theorem Step.first {welcome : Traffic W V σ α φ ρ → Visitor W V σ α φ ρ → Prop} {s s' : σ}
    {after : List (Visitor W V σ α φ ρ)} {v w : Visitor W V σ α φ ρ}
    (move : (s', .go w) ∈ v.moves site s) :
    Step site of welcome ⟨s, v :: after⟩ ⟨s', w :: after⟩ :=
  have go : Step site of welcome ⟨s, [] ++ v :: after⟩ ⟨s', [] ++ w :: after⟩ := .go rfl move
  go

theorem makeOne : Steps Part.whole (fun _ => []) Founding untouched oneMade := by
  have enter : Step Part.whole (fun _ => []) Founding untouched
      ⟨untouched.state, [] ++ [.filling .counting]⟩ := .enter ⟨rfl, fun _ member => by cases member⟩
  have called : Steps Part.whole (fun _ => []) Founding untouched
      { state :=
          { pool := .ofCapacity 1
            crew :=
              { seats := #[{ occupant := 0 }], made := 1, orders := [⟨0, 0, .init⟩], tokens := 1
                history := [.made 0, .called 0 .init] } }
        visitors := [] ++ [.filling (.creating [.running (.starting 0 (.waiting 0))])] } :=
    (((Steps.refl _).tail enter).tail (.last (.head _))).tail (.last (.head _))
      |>.tail (.last (.head _))
  have joined : Steps Part.whole (fun _ => []) Founding untouched
      { state := { oneMade.state with pool := { oneMade.state.pool with idle := [] } }
        visitors := [] ++ [.filling (.creating [.ended 0])] } :=
    ((called.tail (.work { oneMade.state.crew with answers := [(0, .ok ())] } (Nat.le_refl _))).tail
      (.last (.head _))).tail (.last (.head _))
  exact joined.tail (.last (.head _))

theorem takeOne : Steps Part.whole (fun _ => []) (Serving Part.whole) oneMade oneTaken := by
  have enter : Step Part.whole (fun _ => []) (Serving Part.whole) oneMade
      ⟨oneMade.state, [.filled (.ok ())] ++ [.acquiring .asking]⟩ := .enter (.inl rfl)
  exact ((((Steps.refl _).tail enter).tail (.last (.head _))).tail (.last (.head _))).tail
    (.last (.head _))

theorem checkedOutApartOne :
    let pool := oneTaken.state.pool
    pool.checkedOut.length ≤ pool.capacity ∧ pool.members.length ≤ pool.capacity ∧
      (pool.idle ++ pool.checkedOut).Nodup ∧
        (∀ seat ∈ pool.members, seat ∈ pool.idle ∨ seat ∈ pool.checkedOut) ∧
          (oneTaken.visitors.flatMap Visitor.seats).Subperm pool.checkedOut :=
  checkedOutApart (fun _ _ => rfl) rfl rfl makeOne (by simp [oneMade]) takeOne

end Traffic

end MutationPipeline
