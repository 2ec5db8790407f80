import MutationPipeline.Proofs.Pool.Stalls
import MutationPipeline.Proofs.Pool.Streams

/-! A stream of items at a pool that anybody uses yields one result for each item, and gives every
worker back. -/
namespace MutationPipeline
variable {W V σ α β φ ψ ρ υ : Type}

theorem Pool.regainedOne {p q : Pool} {seat : Nat} (more : q.idle = p.idle ++ [seat]) :
    p.regained? q = some seat := by
  rw [regained?, more, List.drop_left]
  rfl

def Landing.gone (l : Landing α ρ) : List Stance := l.paid.map fun x => .gone x.1.ticket

namespace Schedule
variable {f : Schedule W α φ ρ} {l : Landing α ρ}

def parts (f : Schedule W α φ ρ) (l : Landing α ρ) : List Stance :=
  f.feed.stances ++ ((f.flights.filterMap Flight.begun?).map Stint.stance ++
    (l.leaving.map (·.1.stance) ++ l.freeing.map fun x => .empty x.1.ticket 1))

theorem partsReorder {flights : List (Flight φ α ρ)} (same : f.flights.Perm flights) :
    (f.parts l).Perm (({ f with flights } : Schedule W α φ ρ).parts l) :=
  (((same.filterMap _).map _).append_right _).append_left _

theorem feedParts (f : Schedule W α φ ρ) (l : Landing α ρ) (xs : List Stance) : f.parts l ++ xs =
    f.feed.stances ++ (({ f with feed := .ended } : Schedule W α φ ρ).parts l ++ xs) := by
  simp [parts, Feed.stances]

section Front
variable {before rest flights : List (Flight φ α ρ)} {x y : Flight φ α ρ} {s : Site W V}
  {xs : List Stance}

theorem partsFront (orderly : s.Orderly (f.parts l ++ xs)) (here : f.flights = before ++ x :: rest) :
    s.Orderly (({ f with flights := x :: (before ++ rest) } : Schedule ..).parts l ++ xs) :=
  orderly.perm ((partsReorder (here ▸ List.perm_middle)).append_right xs)

theorem partsBack
    (orderly : s.Orderly (({ f with flights := y :: (before ++ rest) } : Schedule ..).parts l ++ xs)) :
    s.Orderly (({ f with flights := before ++ y :: rest } : Schedule ..).parts l ++ xs) :=
  orderly.perm ((partsReorder List.perm_middle.symm).append_right xs)

theorem begunFirst (f : Schedule W α φ ρ) (l : Landing α ρ) (item : α) (ticket seat : Nat) (phase : φ) :
    (({ f with flights := .working item ticket seat phase :: f.flights } : Schedule ..).parts l).Perm
      (.seated ticket seat :: f.parts l) :=
  List.perm_middle

theorem leavingFirst (f : Schedule W α φ ρ) (sooner later freeing paid : List (Stint α × ρ))
    (x : Stint α × ρ) : (f.parts ⟨sooner ++ x :: later, freeing, paid⟩).Perm
      (x.1.stance :: f.parts ⟨sooner ++ later, freeing, paid⟩) := by
  simp only [parts, List.map_append, List.map_cons]
  classical grind

theorem freeingFirst (f : Schedule W α φ ρ) (leaving sooner later paid : List (Stint α × ρ))
    (x : Stint α × ρ) : (f.parts ⟨leaving, sooner ++ x :: later, paid⟩).Perm
      (.empty x.1.ticket 1 :: f.parts ⟨leaving, sooner ++ later, paid⟩) := by
  simp only [parts, List.map_append, List.map_cons]
  classical grind

end Front

section Moved
variable {plan : Plan W V σ α φ ρ} {site : Part σ (Site W V)} {t t' : σ} {g : Schedule W α φ ρ}
  {j : Journal α ρ} {items : List α} {xs : List Stance}

theorem goBalanced (lawful : site.Lawful) (proper : plan.Proper site)
    (balanced : j.Balanced items f l) (orderly : (site.get t).Orderly (f.parts l ++ xs))
    (move : Moved plan f t t' (.go g)) :
    ∃ l', l'.paid = l.paid ∧ (j.after f g (site.get t).pool (site.get t').pool).Balanced items g l' ∧
      (site.get t').Orderly (g.parts l' ++ xs) := by
  obtain ⟨rfl, aloof, stays⟩ := proper
  cases move with
  | offer feed =>
    refine ⟨l, rfl, balanced.fed ?_ ?_, ?_⟩
    · simp [feed, Feed.known, Feed.pulled, Feed.taken]
    · simp [feed, Feed.current, Feed.taken]
    · rwa [parts, feed] at orderly
  | pull feed more =>
    refine ⟨l, rfl, balanced.fed ?_ ?_, ?_⟩
    · simp [feed, Feed.known, Feed.pulled, Feed.taken]
    · simp [feed, Feed.current, Feed.taken]
    · rw [aloof _ _ _ more]
      rwa [parts, feed] at orderly
  | dry feed more =>
    refine ⟨l, rfl, balanced.fed ?_ ?_, ?_⟩
    · simp [feed, Feed.known, Feed.pulled, Feed.taken]
    · simp [feed, Feed.current, Feed.taken]
    · rw [aloof _ _ _ more]
      rwa [parts, feed] at orderly
  | acquire feed move =>
    refine ⟨l, rfl, balanced.fed ?_ ?_, ?_⟩
    · simp [feed, Feed.known, Feed.pulled, Feed.taken]
    · simp [feed, Feed.current, Feed.taken]
    · rw [feedParts, feed] at orderly
      rw [lawful, feedParts]
      exact Acquisition.movesOrderly orderly move
  | @send item a known u ticket seat feed move calm =>
    refine ⟨l, rfl, balanced.sent feed _, ?_⟩
    rw [feedParts, feed] at orderly
    have moved := Acquisition.movesOrderly orderly move
    rw [lawful]
    refine moved.perm (List.Perm.append_right xs (partsReorder
      (f := { feed := .open known, flights := .working item ticket seat plan.start :: f.flights }) ?_))
    exact (List.perm_append_singleton _ _).symm
  | @refuse item a known u e feed move =>
    refine ⟨l, rfl, balanced.turnedAway feed _, ?_⟩
    rw [feedParts, feed] at orderly
    have moved := Acquisition.movesOrderly orderly move
    rw [lawful]
    refine moved.perm (List.Perm.append_right xs (partsReorder
      (f := { feed := .open known, flights := .refused item e :: f.flights }) ?_))
    exact (List.perm_append_singleton _ _).symm
  | @work item ticket seat p u q before rest here move =>
    refine ⟨l, rfl, balanced.worked here, partsBack ?_⟩
    rw [lawful]
    exact (partsFront orderly here).more rfl (stays _ _ _ _ _ _ move)
  | @answer item ticket seat p u r before rest here move =>
    refine ⟨{ l with leaving := (⟨item, ticket, seat⟩, r) :: l.leaving }, rfl, balanced.answered here,
      partsBack ?_⟩
    have begun := begunFirst { f with flights := before ++ rest } l item ticket seat p
    have left := leavingFirst { f with flights := before ++ rest } [] l.leaving l.freeing l.paid
      (⟨item, ticket, seat⟩, r)
    have after := (partsFront orderly here).perm ((begun.trans left.symm).append_right xs)
    rw [lawful]
    exact Pool.Orderly.more after (stays _ _ _ _ _ _ move)
  | @release item ticket r b u c before rest here move =>
    cases b with
    | freeing =>
      obtain ⟨-, stays⟩ := memFinish.mp move
      cases stays
    | puttingBack =>
      obtain ⟨rfl, same⟩ := memStep.mp move
      cases same
      obtain ⟨sooner, seat, later, shape, others⟩ := Stint.pick (balanced.front here).leaving
      obtain ⟨leaving, freeing, paid⟩ := l
      dsimp only at shape
      subst shape
      have left := leavingFirst { f with flights := before ++ rest } sooner later freeing paid
        (⟨item, ticket, seat⟩, r)
      have freed := freeingFirst { f with flights := before ++ rest } (sooner ++ later) [] freeing paid
        (⟨item, ticket, seat⟩, r)
      obtain ⟨emptied, _, rfl, idle, -⟩ :=
        Pool.Orderly.putBack ((partsFront orderly here).perm (left.append_right xs)) rfl rfl
      refine ⟨⟨sooner ++ later, (⟨item, ticket, seat⟩, r) :: freeing, paid⟩, rfl, ?_, partsBack ?_⟩
      · refine balanced.landing (l := ⟨[], freeing, paid⟩) here others ?_
        rw [lawful]
        exact Pool.regainedOne idle
      · rw [lawful]
        exact Site.Orderly.perm emptied (freed.symm.append_right xs)

theorem yieldBalanced {y : Yield α ρ} (lawful : site.Lawful) (home : plan.site = site)
    (balanced : j.Balanced items f l) (orderly : (site.get t).Orderly (f.parts l ++ (l.gone ++ xs)))
    (move : Moved plan f t t' (.done (some y, g))) :
    ∃ l', Journal.Balanced items g { j with yielded := j.yielded ++ [y] } l' ∧
      (site.get t').Orderly (g.parts l' ++ (l'.gone ++ xs)) ∧
      ∀ r, y.result = .ok r → ∃ x, (x, r) ∈ l'.paid ∧ x.item = y.item ∧
        (site.get t').pool.permits.stock = (site.get t).pool.permits.stock + 1 := by
  subst home
  cases move with
  | @reject item e before rest here =>
    exact ⟨l, balanced.rejected here, partsFront orderly here, fun r same => by cases same⟩
  | @land item ticket r b u before rest here move =>
    cases b with
    | puttingBack =>
      obtain ⟨-, stays⟩ := memStep.mp move
      cases stays
    | freeing =>
      obtain ⟨rfl, -⟩ := memFinish.mp move
      obtain ⟨sooner, seat, later, shape, others⟩ := Stint.pick (balanced.front here).freeing
      obtain ⟨leaving, freeing, paid⟩ := l
      dsimp only at shape
      subst shape
      have freed := freeingFirst { f with flights := before ++ rest } leaving sooner later paid
        (⟨item, ticket, seat⟩, r)
      obtain ⟨gone, -, permits⟩ :=
        Pool.Orderly.free ((partsFront orderly here).perm (freed.append_right _))
      refine ⟨⟨leaving, sooner ++ later, (⟨item, ticket, seat⟩, r) :: paid⟩,
        balanced.landed (l := ⟨leaving, [], paid⟩) here others, ?_, fun _ same => ?_⟩
      · rw [lawful]
        exact Site.Orderly.perm gone List.perm_middle.symm
      · cases same
        refine ⟨⟨item, ticket, seat⟩, List.mem_cons_self, rfl, ?_⟩
        rw [lawful]
        exact (congrArg Permits.stock permits).trans (Permits.giveBackStock _ 1)

theorem brokenOrderly (lawful : site.Lawful) (proper : plan.Proper site)
    (orderly : (site.get t).Orderly (f.parts l ++ xs)) (move : Moved plan f t t' .panicked) :
    (site.get t').Orderly (f.parts l ++ xs) := by
  obtain ⟨rfl, -, stays⟩ := proper
  cases move with
  | feedBreaks feed move =>
    rw [feedParts, feed] at orderly ⊢
    rw [lawful]
    exact Acquisition.movesOrderly orderly move
  | workBreaks here move =>
    rw [lawful]
    exact orderly.more rfl (stays _ _ _ _ _ _ move)

end Moved

theorem flightTickets (flights : List (Flight φ α ρ)) :
    ((flights.flatMap Flight.stances).flatMap Stance.tickets).Perm
      ((flights.filterMap Flight.begun?).map (·.ticket) ++
        ((flights.filterMap Flight.leaving?).map (·.2.1) ++
          (flights.filterMap Flight.freeing?).map (·.2.1))) := by
  induction flights with
  | nil => exact .nil
  | cons x rest ih =>
    rw [List.flatMap_cons, List.flatMap_append]
    rcases x with ⟨item, ticket, seat, phase⟩ | ⟨item, ticket, r, _ | _⟩ | ⟨item, cause⟩
    · exact ih.cons ticket
    · exact (ih.cons ticket).trans List.perm_middle.symm
    · refine (ih.cons ticket).trans ?_
      rw [← List.append_assoc, ← List.append_assoc]
      exact List.perm_middle.symm
    · exact ih

theorem partsTickets {j : Journal α ρ} {items : List α} (balanced : j.Balanced items f l) :
    ((f.parts l).flatMap Stance.tickets).Perm f.tickets := by
  rw [ticketsStances, stances, List.flatMap_append, parts, List.flatMap_append]
  refine .append_left _ (.trans ?_ (flightTickets f.flights).symm)
  have leaving := balanced.leaving.map (·.2.1)
  have freeing := balanced.freeing.map (·.2.1)
  rw [List.map_map] at leaving freeing
  rw [List.flatMap_append, List.flatMap_append, List.flatMap_map, List.flatMap_map, List.flatMap_map]
  refine .append (.of_eq ?_) (.append (.trans (.of_eq ?_) leaving) (.trans (.of_eq ?_) freeing))
  · exact List.map_eq_flatMap.symm
  · exact List.map_eq_flatMap.symm
  · exact List.map_eq_flatMap.symm

end Schedule

namespace Traffic
variable {site : Part σ (Site W V)} {of : φ → List Nat} {plan : Schedule.Plan W V σ β ψ υ}
  {items : List β} {start first t u : Traffic W V σ α φ ρ} {f g : Schedule W β ψ υ} {j : Journal β υ}
  {l : Landing β υ} {s : σ}

theorem Course.balanced (lawful : site.Lawful) (proper : plan.Proper site)
    (orderly : first.Guarded site []) (course : Course site of plan items first t f j) :
    ∃ l, j.Balanced items f l ∧ t.Guarded site (f.parts l ++ l.gone) := by
  induction course with
  | start =>
    refine ⟨{}, ⟨?_, .nil, .nil, .nil, .nil, .nil, .nil, .nil, .nil⟩, orderly⟩
    exact (List.append_nil items).symm
  | go course move ih =>
    obtain ⟨l, balanced, parts, stand, orderly⟩ := ih
    rw [List.append_assoc] at orderly
    obtain ⟨l', paid, after, held⟩ :=
      Schedule.goBalanced lawful proper balanced orderly (Schedule.movesMoved move)
    refine ⟨l', after, parts, stand, ?_⟩
    rwa [Landing.gone, paid, List.append_assoc]
  | yield course move ih =>
    obtain ⟨l, balanced, parts, stand, orderly⟩ := ih
    rw [List.append_assoc] at orderly
    obtain ⟨l', after, held, -⟩ :=
      Schedule.yieldBalanced lawful proper.home balanced orderly (Schedule.movesMoved move)
    refine ⟨l', after, parts, stand, ?_⟩
    rwa [List.append_assoc]
  | others course step ih =>
    obtain ⟨l, balanced, guarded⟩ := ih
    exact ⟨l, balanced, guarded.step lawful step⟩

structure Vacated (p q : Pool) (tickets seats : List Nat) : Prop where
  idle : q.idle.Perm (p.idle ++ seats)
  stock : q.permits.stock =
    p.permits.stock + ((p.leases.filter (·.ticket ∈ tickets)).map (·.permits)).sum
  leases : ∀ l ∈ q.leases, l.ticket ∉ tickets
  claims : ∀ c ∈ q.permits.terms, c.1 ∉ tickets

/-- What can be said about a stream of items, however far it has come. -/
structure Faithful (site : Part σ (Site W V)) (of : ψ → List Nat) (plan : Schedule.Plan W V σ β ψ υ)
    (items : List β) (t : Traffic W V σ α φ ρ) (f : Schedule W β ψ υ) (j : Journal β υ) : Prop where
  input : j.taken ++ f.feed.known = items ++ j.pulled
  taken : j.taken.Perm (j.refused.map (·.1) ++ j.begun.map (·.item) ++ f.feed.current)
  once : (j.begun.map (·.ticket)).Nodup
  begun : ∃ working, j.begun.Perm (j.ended.map (·.1) ++ working) ∧ working.map (·.seat) = f.workingSeats
  exclusive : (f.workingSeats ++ t.visitors.flatMap Visitor.seats ++ (site.get t.state).pool.idle).Nodup
  answered : ∀ s g, (s, .go g) ∈ Schedule.moves plan f t.state →
    ∀ x ∈ (f.flights.zip g.flights).filterMap Flight.ended?, ∃ p c,
      .working x.1.item x.1.ticket x.1.seat p ∈ f.flights ∧
        (c, .done x.2) ∈ plan.work x.1.item x.1.seat p (site.get t.state).crew
  returned : j.returned.Subperm j.ended
  succeeded : ∃ paid : List (Stint β × υ), paid.Subperm j.returned ∧
    (paid.map Stint.outcome).Perm (j.yielded.filterMap Yield.success?) ∧
      ∀ x ∈ paid, ∀ l ∈ (site.get t.state).pool.leases, l.ticket ≠ x.1.ticket
  failed : (j.yielded.filterMap Yield.failure?).Subperm j.refused
  yields : ∀ s y g r, (s, .done (some y, g)) ∈ Schedule.moves plan f t.state → y.result = .ok r →
    ∃ x, (x, r) ∈ j.returned ∧ x.item = y.item ∧
      (∀ l ∈ (site.get s).pool.leases, l.ticket ≠ x.ticket) ∧
        (site.get s).pool.permits.stock = (site.get t.state).pool.permits.stock + 1
  atEnd : ∀ s g, (s, .done (none, g)) ∈ Schedule.moves plan f t.state →
    (j.yielded.map (·.item)).Perm (items ++ j.pulled) ∧ j.begun.Perm (j.ended.map (·.1)) ∧
      (j.yielded.filterMap Yield.success?).Perm (j.ended.map Stint.outcome) ∧
        (j.yielded.filterMap Yield.failure?).Perm j.refused
  waits : Schedule.moves plan f t.state = [] →
    ((f.feed = .open [] ∧ plan.more t.state = []) ∨
      (∃ item a known, f.feed = .acquiring item a known ∧ ((site.get t.state).crew.Owes a.tokens ∨
        ∃ ticket, a = .waiting ticket ∧ (site.get t.state).pool.Unserved ticket)) ∨
      (f.feed = .ended ∧ f.flights ≠ [])) ∧
    ∀ x ∈ f.flights, ∃ item ticket seat p, x = .working item ticket seat p ∧
      plan.work item seat p (site.get t.state).crew = []
  nearer : ∀ s g, (s, .go g) ∈ Schedule.moves plan f t.state → g.remaining < f.remaining ∨
    (∃ item, f.feed.pulled g.feed = [item] ∧ g.remaining ≤ f.remaining + 12) ∨
      (g.remaining = f.remaining ∧ ∃ item ticket seat p c q, .working item ticket seat p ∈ f.flights ∧
        (c, .go q) ∈ plan.work item seat p (site.get t.state).crew)
  fewer : ∀ s y g, (s, .done (some y, g)) ∈ Schedule.moves plan f t.state → g.remaining < f.remaining
  dropped : ∀ s, s = t.state ∨ (s, .panicked) ∈ Schedule.moves plan f t.state →
    ∃ held : List (Stint β), j.begun.Perm (j.returned.map (·.1) ++ held) ∧
      ∀ q, q = (site.get (site.update (Site.vacate f.tickets (f.tokens of)) s)).pool →
        Vacated (site.get s).pool q f.tickets (held.map (·.seat)) ∧
          ∀ x ∈ j.begun, ∀ l ∈ q.leases, l.ticket ≠ x.ticket

section Faithful
variable {xs : List Stance}

theorem begunPlaces (balanced : j.Balanced items f l) :
    j.begun.Perm (l.paid.map (·.1) ++ l.freeing.map (·.1) ++
      (l.leaving.map (·.1) ++ f.flights.filterMap Flight.begun?)) := by
  refine balanced.begun.trans ?_
  rw [← List.append_assoc]
  refine .append_right _ ((balanced.ended.map _).trans ?_)
  rw [List.map_append]
  refine .append_right _ ((balanced.returned.map _).trans ?_)
  rw [List.map_append]

theorem begunTickets (balanced : j.Balanced items f l) :
    (j.begun.map (·.ticket)).Subperm ((f.parts l ++ l.gone).flatMap Stance.tickets) := by
  refine ((begunPlaces balanced).map _).subperm.trans ?_
  have own (x : List (Stint β)) : (x.map Stint.stance).flatMap Stance.tickets = x.map (·.ticket) := by
    rw [List.flatMap_map]
    exact List.map_eq_flatMap.symm
  have leaving : (l.leaving.map (·.1.stance)).flatMap Stance.tickets = l.leaving.map (·.1.ticket) := by
    rw [List.flatMap_map]
    exact List.map_eq_flatMap.symm
  have freeing : (l.freeing.map fun x => .empty x.1.ticket 1).flatMap Stance.tickets =
      l.freeing.map (·.1.ticket) := by
    rw [List.flatMap_map]
    exact List.map_eq_flatMap.symm
  have gone : l.gone.flatMap Stance.tickets = l.paid.map (·.1.ticket) := by
    rw [Landing.gone, List.flatMap_map]
    exact List.map_eq_flatMap.symm
  rw [Schedule.parts, List.flatMap_append, List.flatMap_append, List.flatMap_append,
    List.flatMap_append, own, leaving, freeing, gone]
  simp only [List.map_append, List.map_map, Function.comp_def]
  rw [List.append_assoc (f.feed.stances.flatMap Stance.tickets)]
  refine (List.Perm.subperm ?_).trans (List.sublist_append_right _ _).subperm
  grind

theorem seatsStand {visitors : List (Visitor W V σ α φ ρ)} {parts : List (List Stance)}
    (stand : List.Forall₂ (Visitor.Stands site) visitors parts) :
    (visitors.flatMap Visitor.seats).Subperm (parts.flatten.flatMap Stance.seats) := by
  induction stand with
  | nil => exact .refl _
  | cons here later ih =>
    rw [List.flatMap_cons, List.flatten_cons, List.flatMap_append]
    exact here.seats.append ih

theorem exclusiveSeats {p : Pool} {n : Nat} {seats : List Nat}
    (orderly : p.Orderly n ((f.parts l ++ l.gone) ++ xs))
    (more : seats.Subperm (xs.flatMap Stance.seats)) :
    (f.workingSeats ++ seats ++ p.idle).Nodup := by
  refine subpermNodup (.append (.append ?_ more) (.refl _))
    (List.flatMap_append ▸ orderly.exclusive)
  have own : ((f.flights.filterMap Flight.begun?).map Stint.stance).flatMap Stance.seats = f.workingSeats := by
    rw [List.flatMap_map]
    exact List.map_eq_flatMap.symm
  rw [List.flatMap_append, Schedule.parts, List.flatMap_append, List.flatMap_append, own]
  refine (List.Sublist.trans ?_ (List.sublist_append_left _ _)).subperm
  exact (List.sublist_append_left _ _).trans (List.sublist_append_right _ _)

theorem paidFree {p : Pool} {n : Nat} (orderly : p.Orderly n (l.gone ++ xs)) {x : Stint β × υ}
    (member : x ∈ l.paid) : ∀ h ∈ p.leases, h.ticket ≠ x.1.ticket := by
  obtain ⟨before, after, paid⟩ := List.append_of_mem member
  have first : (l.gone ++ xs).Perm
      (.gone x.1.ticket :: ((before ++ after).map (fun x => .gone x.1.ticket) ++ xs)) := by
    rw [Landing.gone, paid]
    exact (List.perm_middle.map _).append_right xs
  exact (orderly.perm first).noLease rfl rfl

theorem outcomes {ys : List (Yield β υ)} : (ys.map (·.item)).Perm
    ((ys.filterMap Yield.failure?).map (·.1) ++ (ys.filterMap Yield.success?).map (·.1)) := by
  induction ys with
  | nil => exact .nil
  | cons y rest ih =>
    obtain ⟨item, _ | _⟩ := y
    · exact ih.cons item
    · exact (ih.cons item).trans List.perm_middle.symm

theorem endFaithful (balanced : j.Balanced items f l) (dry : f.feed = .ended) (empty : f.flights = []) :
    (j.yielded.map (·.item)).Perm (items ++ j.pulled) ∧ j.begun.Perm (j.ended.map (·.1)) ∧
      (j.yielded.filterMap Yield.success?).Perm (j.ended.map Stint.outcome) ∧
        (j.yielded.filterMap Yield.failure?).Perm j.refused := by
  obtain ⟨input, taken, refused, begun, ended, returned, yielded, leaving, freeing⟩ := balanced
  rw [dry] at input taken
  rw [empty] at refused begun leaving freeing
  have left : l.leaving = [] := List.map_eq_nil_iff.mp leaving.eq_nil
  have freed : l.freeing = [] := List.map_eq_nil_iff.mp freeing.eq_nil
  rw [left, List.append_nil] at ended
  rw [freed, List.append_nil] at returned
  rw [List.filterMap_nil, List.append_nil] at refused begun
  have success := yielded.symm.trans ((ended.trans returned).symm.map Stint.outcome)
  refine ⟨outcomes.trans ?_, begun, success, refused.symm⟩
  refine .trans (.append (refused.symm.map _) (success.map _)) ?_
  rw [List.map_map]
  simp only [Feed.known, Feed.current, List.append_nil] at input taken
  rw [← input]
  refine .trans (.append_left _ ?_) taken.symm
  refine .trans (.of_eq ?_) (begun.map _).symm
  rw [List.map_map]
  rfl

theorem endedMoved {t t' : σ} (move : Schedule.Moved plan f t t' (.go g)) :
    ∀ x ∈ (f.flights.zip g.flights).filterMap Flight.ended?, ∃ p c,
      Flight.working x.1.item x.1.ticket x.1.seat p ∈ f.flights ∧
        (c, .done x.2) ∈ plan.work x.1.item x.1.seat p (plan.site.get t).crew := by
  have none {l : List (Stint β × υ)} (nothing : l = []) : ∀ x ∈ l, ∃ p c,
      Flight.working x.1.item x.1.ticket x.1.seat p ∈ f.flights ∧
        (c, .done x.2) ∈ plan.work x.1.item x.1.seat p (plan.site.get t).crew :=
    fun x member => absurd (nothing ▸ member) List.not_mem_nil
  cases move with
  | send feed move calm => exact none (zipMore Journal.endedSame _ _)
  | refuse feed move => exact none (zipMore Journal.endedSame _ _)
  | work here move =>
    rw [here, zipAt Journal.endedSame]
    exact fun _ member => by cases member
  | answer here move =>
    rw [here, zipAt Journal.endedSame]
    intro x member
    obtain rfl := List.mem_singleton.mp member
    exact ⟨_, _, List.mem_append_right _ List.mem_cons_self, move⟩
  | release here move =>
    rw [here, zipAt Journal.endedSame]
    exact fun _ member => by cases member
  | _ => exact none (zipSelf Journal.endedSame _)

theorem vacatedSite {a : Site W V} {n : Nat} {tickets : List Nat} {ys : List Stance}
    (orderly : a.pool.Orderly n (ys ++ xs)) (same : (ys.flatMap Stance.tickets).Perm tickets)
    (stays : ∀ y ∈ ys, ∀ t, y ≠ .leaving t) :
    (tickets.foldl Pool.forget a.pool).Orderly n xs ∧
      Vacated a.pool (tickets.foldl Pool.forget a.pool) tickets (ys.flatMap Stance.seats) := by
  obtain ⟨rest, stock, terms, idle⟩ := orderly.forgetAll same
  have single := orderly.single
  rw [List.flatMap_append] at single
  have apart : ∀ t ∈ xs.flatMap Stance.tickets, t ∉ tickets := fun t other own =>
    List.disjoint_of_nodup_append single (same.mem_iff.mpr own) other
  refine ⟨rest, idle stays, ?_, ?_, fun c member => (terms c member).1⟩
  · have own : (a.pool.leases.map Lease.terms).filter (·.1 ∈ tickets) =
        (a.pool.leases.filter (·.ticket ∈ tickets)).map Lease.terms := List.filter_map
    have mine : (ys.flatMap Stance.leases).filter (·.1 ∈ tickets) = ys.flatMap Stance.leases := by
      refine List.filter_eq_self.mpr fun t member => decide_eq_true (same.mem_iff.mp ?_)
      exact (Stance.leasesTickets ys).subset (List.mem_map_of_mem member)
    have others : (xs.flatMap Stance.leases).filter (·.1 ∈ tickets) = [] := by
      refine List.filter_eq_nil_iff.mpr fun t member used => ?_
      exact apart t.1 ((Stance.leasesTickets xs).subset (List.mem_map_of_mem member))
        (of_decide_eq_true used)
    have held := orderly.leases.filter (·.1 ∈ tickets)
    rw [own, List.flatMap_append, List.filter_append, mine, others, List.append_nil] at held
    have sum := (held.map Prod.snd).sum_nat
    rw [List.map_map] at sum
    rw [stock]
    exact congrArg _ sum.symm
  · intro h member
    refine apart h.ticket ((Stance.leasesTickets xs).subset ?_)
    have held := rest.leases.mem_iff.mp (List.mem_map_of_mem member)
    exact List.mem_map_of_mem (f := Prod.fst) held

theorem acquiringStays {a : Acquisition W} {ticket : Nat} : .leaving ticket ∉ a.stances := by
  intro member
  cases a with
  | asking => cases member
  | creating t c => cases c <;> cases List.mem_singleton.mp member
  | _ => cases List.mem_singleton.mp member

theorem partsStay (f : Schedule W β ψ υ) (l : Landing β υ) : ∀ y ∈ f.parts l, ∀ t, y ≠ .leaving t := by
  intro y member t same
  subst same
  simp only [Schedule.parts, List.mem_append, List.mem_map] at member
  rcases member with feed | ⟨_, -, other⟩ | ⟨_, -, other⟩ | ⟨_, -, other⟩
  · cases shape : f.feed with
    | acquiring item a known =>
      rw [shape] at feed
      exact acquiringStays feed
    | _ =>
      rw [shape] at feed
      cases feed
  all_goals cases other

theorem partsSeats (f : Schedule W β ψ υ) (l : Landing β υ) : (f.parts l).flatMap Stance.seats =
    f.workingSeats ++ l.leaving.map (·.1.seat) := by
  have feed : f.feed.stances.flatMap Stance.seats = [] := by
    cases f.feed with
    | acquiring item a known => exact a.seatsStances
    | _ => rfl
  have freeing : (l.freeing.map fun x => .empty x.1.ticket 1).flatMap Stance.seats = [] := by
    rw [List.flatMap_map]
    exact List.flatMap_eq_nil_iff.mpr fun _ _ => rfl
  rw [Schedule.parts, List.flatMap_append, List.flatMap_append, List.flatMap_append, feed, freeing,
    List.flatMap_map, List.flatMap_map, List.nil_append, List.append_nil, Schedule.workingSeats,
    List.map_eq_flatMap, List.map_eq_flatMap]
  rfl

end Faithful

/-- A stream of items at a pool that anybody uses keeps its promises. -/
theorem Course.faithful {capacity : Nat} {of' : ψ → List Nat} (lawful : site.Lawful)
    (proper : plan.Proper site) (fresh : (site.get start.state).pool = .ofCapacity capacity)
    (empty : start.visitors = [])
    (steps : Steps site of (Anyone site) start first)
    (course : Course site of plan items first t f j) : Faithful site of' plan items t f j := by
  have founded : start.Guarded site [] := by
    refine ⟨[], empty ▸ .nil, ?_⟩
    rw [Site.Orderly, fresh]
    exact Pool.Orderly.fresh capacity _
  obtain ⟨l, balanced, parts, stand, orderly⟩ :=
    course.balanced lawful proper (founded.steps lawful steps)
  have placed : (site.get t.state).Orderly (f.parts l ++ (l.gone ++ parts.flatten)) := by
    rwa [← List.append_assoc]
  constructor
  case input => exact balanced.input
  case taken => exact balanced.taken
  case once =>
    refine subpermNodup (begunTickets balanced) ?_
    have single := orderly.single
    rw [List.flatMap_append] at single
    exact (List.nodup_append.mp single).1
  case begun => exact ⟨_, balanced.begun, rfl⟩
  case exclusive => exact exclusiveSeats orderly (seatsStand stand)
  case answered =>
    intro s g move
    obtain rfl := proper.home
    exact endedMoved (Schedule.movesMoved move)
  case returned => exact (List.sublist_append_left _ _).subperm.trans balanced.ended.symm.subperm
  case succeeded =>
    refine ⟨l.paid, (List.sublist_append_left _ _).subperm.trans balanced.returned.symm.subperm,
      balanced.yielded, fun x member => ?_⟩
    exact paidFree (Site.Orderly.perm placed (List.perm_append_comm_assoc _ _ _)) member
  case failed => exact (List.sublist_append_left _ _).subperm.trans balanced.refused.symm.subperm
  case yields =>
    intro s y g r move result
    obtain ⟨l', after, orderly', yields⟩ :=
      Schedule.yieldBalanced lawful proper.home balanced placed (Schedule.movesMoved move)
    obtain ⟨x, member, item, stock⟩ := yields r result
    refine ⟨x, after.returned.mem_iff.mpr (List.mem_append_left _ member), item, ?_, stock⟩
    exact paidFree (Site.Orderly.perm orderly' (List.perm_append_comm_assoc _ _ _)) member
  case atEnd =>
    intro s g move
    cases Schedule.movesMoved move with
    | ended dry empty => exact endFaithful balanced dry empty
  case waits =>
    intro none
    obtain ⟨feed, flights⟩ := Schedule.movesNone none
    obtain rfl := proper.home
    refine ⟨?_, flights⟩
    rcases feed with waits | ⟨item, a, known, shape, stuck⟩ | dry
    · exact .inl waits
    · exact .inr (.inl ⟨item, a, known, shape, Acquisition.movesNone stuck⟩)
    · exact .inr (.inr dry)
  case fewer => exact fun s y g move => Schedule.yieldNearer (Schedule.movesMoved move)
  case nearer =>
    obtain rfl := proper.home
    exact fun s g move => Schedule.goNearer (Schedule.movesMoved move)
  case dropped =>
    intro s comes
    have there : (site.get s).Orderly (f.parts l ++ (l.gone ++ parts.flatten)) := by
      rcases comes with rfl | move
      · exact placed
      · exact Schedule.brokenOrderly lawful proper placed (Schedule.movesMoved move)
    obtain ⟨left, vacated⟩ := vacatedSite there (Schedule.partsTickets balanced) (partsStay f l)
    refine ⟨l.leaving.map (·.1) ++ f.flights.filterMap Flight.begun?, ?_, fun q same => ?_⟩
    · refine balanced.begun.trans ?_
      rw [← List.append_assoc, ← List.map_append]
      exact (balanced.ended.map _).append_right _
    rw [Part.update, lawful] at same
    subst same
    refine ⟨{ vacated with idle := ?_ }, fun x begun h member same => ?_⟩
    · refine vacated.idle.trans (.append_left _ ?_)
      rw [partsSeats, List.map_append, List.map_map]
      exact List.perm_append_comm
    · have known := (begunTickets balanced).subset (List.mem_map_of_mem begun)
      rw [List.flatMap_append] at known
      rcases List.mem_append.mp known with own | gone
      · exact vacated.leases h member
          (same ▸ (Schedule.partsTickets balanced).mem_iff.mp own)
      · rw [Landing.gone, List.flatMap_map] at gone
        obtain ⟨z, paid, ticket⟩ := List.mem_flatMap.mp gone
        exact paidFree left paid h member (same.trans (List.mem_singleton.mp ticket))

def numbersPlan :
    Schedule.Plan Unit Unit (Site Unit Unit) Nat (Handling Unit) (Except WorkerError Unit) where
  site := .whole
  more s := [(s, none)]
  start := .starting
  work _ seat := Handling.moves ⟨"Worker", false⟩ seat ()

theorem numbersPlanProper : numbersPlan.Proper Part.whole where
  home := rfl
  aloof := by
    intro s u item more
    cases List.mem_singleton.mp more
    rfl
  stays := fun item seat p c u n move => Nat.le_of_eq (Handling.movesSize move).symm

/-- The one worker has failed to work on the only number, and has been given back. -/
def oneServed : Traffic Unit Unit (Site Unit Unit) Unit Unit Unit where
  state :=
    { pool := { oneMade.state.pool with tickets := 1 }
      crew :=
        { oneMade.state.crew with
          tokens := 2
          history := [.made 0, .called 0 .init, .called 0 (.work ())] } }

def oneStint : Stint Nat × Except WorkerError Unit := (⟨7, 0, 0⟩, .error (.rejected "no"))

def oneJournal : Journal Nat (Except WorkerError Unit) where
  taken := [7]
  begun := [oneStint.1]
  ended := [oneStint]
  returned := [oneStint]
  yielded := [⟨7, .ok oneStint.2⟩]

theorem serveOne : Course Part.whole (fun _ => []) numbersPlan [7] untouched oneServed
    { feed := .ended } oneJournal := by
  have opened : Course Part.whole (fun _ => []) numbersPlan [7] untouched untouched (.ofList [7]) {} :=
    .start
  have called := (((((opened.go (.head _)).go (.head _)).go (.head _)).go (.head _)).go (.head _)).go
    (.head _)
  have started := called.others
    (.work { oneMade.state.crew with answers := [(0, .ok ())] } (Nat.le_refl _))
  have sent := ((started.go (.head _)).go (.head _)).go (.head _)
  have asked := (sent.go (.head _)).go (.head _)
  have failed := asked.others (.work
    { oneServed.state.crew with answers := [(1, .failed (.rejected "no"))] } (Nat.le_refl _))
  have returned := (failed.go (.head _)).go (.head _)
  exact returned.yield (.head _)

theorem faithfulOnce :
    Faithful Part.whole Handling.tokens numbersPlan [7] oneServed { feed := .ended } oneJournal :=
  Course.faithful (fun _ _ => rfl) numbersPlanProper rfl rfl (.refl _) serveOne

end Traffic

end MutationPipeline
