import MutationPipeline.Pool.Journal
import MutationPipeline.Proofs.Pool.Founding
import MutationPipeline.Proofs.Pool.Orderly

/-! Whoever is at a pool, with any visitor at any moment, nobody comes into possession of a worker that
somebody else has. -/
namespace MutationPipeline
variable {W V σ α φ ρ : Type}

theorem Pool.Orderly.found {p : Pool} {n : Nat} {xs : List Stance} (orderly : p.Orderly n xs)
    (missing : Nat) : p.Orderly n (List.replicate missing (.making none none) ++ xs) := by
  induction missing with
  | zero => exact orderly
  | succ missing ih =>
    refine ⟨ih.leases, ih.single, ih.issued, fun x member l among same => ?_, ih.apart, ih.known⟩
    rcases List.mem_cons.mp member with rfl | later
    · cases same
    · exact ih.seating x later l among same

section Moves
variable {s s' : Site W V} {ticket seat permits : Nat} {x : Stance} {xs ys : List Stance}

def Site.Orderly (s : Site W V) (xs : List Stance) : Prop := s.pool.Orderly s.crew.seats.size xs

theorem Site.Orderly.perm (orderly : s.Orderly xs) (same : xs.Perm ys) : s.Orderly ys :=
  Pool.Orderly.perm orderly same

theorem Site.Orderly.more (orderly : s.Orderly xs) (pool : s'.pool = s.pool)
    (seats : s.crew.seats.size ≤ s'.crew.seats.size) : s'.Orderly xs := by
  rw [Site.Orderly, pool]
  exact Pool.Orderly.more orderly seats

theorem callMovesOrderly {call : Calling W} {n : Next (Calling W) (Except WorkerError V)}
    (orderly : s.Orderly xs) (move : (s', n) ∈ callMoves call s) : s'.Orderly xs := by
  obtain ⟨u, inner, rfl⟩ := Machine.onCases move
  exact orderly.more rfl (Nat.le_of_eq (congrArg Array.size (Calling.movesSeats inner).symm))

theorem Creation.movesOrderly {holder : Option Nat} {c : Creation W}
    {n : Next (Creation W) (Except PoolError Nat)} (orderly : s.Orderly (c.stance holder :: xs))
    (move : (s', n) ∈ Creation.moves holder c s) :
    s'.Orderly (n.elim (fun c => [c.stance holder]) (made holder) [c.stance holder] ++ xs) := by
  cases c with
  | hiring =>
    obtain ⟨rfl, rfl⟩ := memStep.mp move
    have size : (s.crew.hire).1.seats.size = s.crew.seats.size + 1 := Array.size_push _
    have hired := Pool.Orderly.hire orderly
    rw [← size] at hired
    exact hired
  | starting seat call =>
    rcases Machine.withinCases move with ⟨call, inner, rfl⟩ | ⟨u, r, inner, same⟩ | ⟨inner, rfl⟩
    · exact callMovesOrderly orderly inner
    · have called := callMovesOrderly orderly inner
      cases r with
      | ok v => cases same; exact called
      | error e =>
        cases same
        refine Pool.Orderly.recast called ?_ ?_ (List.nil_sublist _) ?_ <;> cases holder <;>
          first | rfl | exact fun _ => id
    · exact callMovesOrderly orderly inner
  | clearing cause call =>
    rcases Machine.withinCases move with ⟨call, inner, rfl⟩ | ⟨u, r, inner, same⟩ | ⟨inner, rfl⟩
    · exact callMovesOrderly orderly inner
    · have called := callMovesOrderly orderly inner
      cases r with
      | ok v => cases same; exact called
      | error e => cases same; exact called
    · exact callMovesOrderly orderly inner
  | enrolling seat =>
    obtain ⟨rfl, rfl⟩ := memFinish.mp move
    cases holder with
    | none =>
      have carried := Pool.Orderly.recast (y := .carrying seat) orderly rfl rfl (List.Sublist.refl _)
        fun _ _ => trivial
      exact Pool.Orderly.like carried rfl (Nat.le_refl _) (List.Sublist.refl _)
    | some ticket => exact Pool.Orderly.enrollFor orderly

theorem Acquisition.movesOrderly {a : Acquisition W}
    {n : Next (Acquisition W) (Except PoolError (Nat × Nat))}
    (orderly : s.Orderly (a.stances ++ xs)) (move : (s', n) ∈ Acquisition.moves a s) :
    s'.Orderly (n.elim stances got a.stances ++ xs) := by
  cases a with
  | asking =>
    obtain ⟨rfl, rfl⟩ := memStep.mp move
    exact Pool.Orderly.claim orderly 1
  | waiting ticket =>
    simp only [Acquisition.moves] at move
    split at move
    · obtain ⟨rfl, rfl⟩ := memFinish.mp move
      exact (Pool.Orderly.forget orderly rfl).1
    · split at move
      · obtain ⟨rfl, rfl⟩ := memStep.mp move
        exact Pool.Orderly.lease orderly
      · cases move
  | choosing ticket =>
    simp only [Acquisition.moves] at move
    split at move
    · next pool seat found =>
      obtain ⟨rfl, rfl⟩ := memFinish.mp move
      exact Pool.Orderly.seatIdle orderly found
    · obtain ⟨rfl, rfl⟩ := memStep.mp move
      exact Pool.Orderly.recast orderly rfl rfl (List.Sublist.refl _) fun _ => id
  | creating ticket c =>
    rcases Machine.withinCases move with ⟨c, inner, rfl⟩ | ⟨u, r, inner, same⟩ | ⟨inner, rfl⟩
    · exact Creation.movesOrderly orderly inner
    · have created := Creation.movesOrderly orderly inner
      cases r with
      | ok seat => cases same; exact created
      | error e =>
        cases same
        exact Pool.Orderly.recast created rfl rfl (List.Sublist.refl _) fun _ => id
    · exact Creation.movesOrderly orderly inner
  | failing ticket cause =>
    obtain ⟨rfl, rfl⟩ := memFinish.mp move
    exact (Pool.Orderly.free orderly).1.drop rfl

theorem Release.movesOrderly {r : Release} {n : Next Release Unit}
    (orderly : s.Orderly (r.stance ticket :: xs)) (move : (s', n) ∈ Release.moves ticket r s) :
    s'.Orderly (n.elim (fun r => [r.stance ticket]) (fun _ => []) [] ++ xs) := by
  cases r with
  | puttingBack =>
    obtain ⟨rfl, rfl⟩ := memStep.mp move
    exact (Pool.Orderly.putBack orderly rfl rfl).1
  | freeing =>
    obtain ⟨rfl, rfl⟩ := memFinish.mp move
    exact (Pool.Orderly.free orderly).1.drop rfl

theorem orderlyBooks :
    Bookkeeping (fun _ => True) (Site.Orderly : Site W V → List Stance → Prop) where
  own := fun _ _ => trivial
  perm := Site.Orderly.perm
  more := Site.Orderly.more
  acquires := fun _ => Acquisition.movesOrderly
  leaves := fun orderly => orderly.recast rfl rfl (List.Sublist.refl _) fun _ _ => trivial
  releases := Release.movesOrderly

end Moves

namespace Filling
variable {s s' : Site W V} {f : Filling W} {n : Next (Filling W) (Except PoolError Unit)}
  {xs : List Stance}

theorem memberTickets (members : List (Member (Creation W) Nat)) :
    (members.map Member.stance).flatMap Stance.tickets = [] := by
  refine List.flatMap_eq_nil_iff.mpr fun x member => ?_
  obtain ⟨m, -, rfl⟩ := List.mem_map.mp member
  rcases m with c | seat
  · cases c <;> rfl
  · rfl

theorem ticketsNone (f : Filling W) : f.stances.flatMap Stance.tickets = [] := by
  cases f with
  | counting => rfl
  | creating members => exact memberTickets members

theorem movesOrderly (orderly : s.Orderly (f.stances ++ xs)) (move : (s', n) ∈ Filling.moves f s) :
    ∃ ys, ys.flatMap Stance.tickets = [] ∧ s'.Orderly (ys ++ xs) ∧ ∀ g, n = .go g → ys = g.stances := by
  rcases movesCases move with ⟨rfl, rfl, rfl⟩ | ⟨rfl, -, rfl, rfl⟩ | ⟨seats, rfl, rfl, rfl⟩ |
    ⟨before, c, rest, o, rfl, moved, rfl⟩
  · exact ⟨[], rfl, orderly, fun g go => by cases go⟩
  · refine ⟨_, memberTickets (List.replicate s'.pool.missing (.running .hiring)), ?_,
      fun g go => by cases go; rfl⟩
    rw [List.map_replicate]
    exact Pool.Orderly.found orderly _
  · refine ⟨[], rfl, Pool.Orderly.stock ?_, fun g go => by cases go⟩
    rwa [stances, List.map_map] at orderly
  · have front (m : Member (Creation W) Nat) :
        ((before ++ m :: rest).map Member.stance ++ xs).Perm
          (m.stance :: ((before ++ rest).map Member.stance ++ xs)) :=
      (List.perm_middle.map _).append_right xs
    have after := Creation.movesOrderly (orderly.perm (front (.running c))) moved
    have others := memberTickets (before ++ rest)
    cases o with
    | go d =>
      exact ⟨_, memberTickets _, after.perm (front (.running d)).symm, fun g go => by cases go; rfl⟩
    | done r =>
      cases r with
      | ok seat =>
        exact ⟨_, memberTickets _, after.perm (front (.ended seat)).symm,
          fun g go => by cases go; rfl⟩
      | error e => exact ⟨.making none none :: _, others, after, fun g go => by cases go⟩
    | panicked =>
      refine ⟨c.stance none :: _, ?_, after, fun g go => by cases go⟩
      rw [List.flatMap_cons, others]
      cases c <;> rfl

end Filling

namespace Disposal
variable {s s' : Site W V} {d : Disposal W} {n : Next (Disposal W) (Except WorkerError Unit)}
  {xs ys : List Stance}

def Stands : Disposal W → List Stance → Prop
  | .waiting ticket wanted, ys => ys = [.waiting ticket wanted]
  | .closing ticket, ys | .freeing ticket, ys => ys = [.gone ticket] ∨ ∃ wanted, ys = [.empty ticket wanted]
  | _, ys => ys = []

theorem Stands.tickets (stands : d.Stands ys) : ys.flatMap Stance.tickets = d.tickets := by
  cases d with
  | closing ticket => rcases stands with rfl | ⟨wanted, rfl⟩ <;> rfl
  | freeing ticket => rcases stands with rfl | ⟨wanted, rfl⟩ <;> rfl
  | _ => cases stands; rfl

theorem movesOrderly (stands : d.Stands ys) (orderly : s.Orderly (ys ++ xs))
    (move : (s', n) ∈ Disposal.moves d s) :
    n.elim (fun e => ∃ zs, e.Stands zs ∧ s'.Orderly (zs ++ xs)) (fun _ => s'.Orderly xs)
      (d.tickets = [] ∧ s'.Orderly xs) := by
  cases d with
  | asking =>
    cases stands
    simp only [Disposal.moves] at move
    split at move
    · obtain ⟨rfl, rfl⟩ := memFinish.mp move
      exact orderly
    · obtain ⟨rfl, rfl⟩ := memStep.mp move
      exact ⟨_, rfl, Pool.Orderly.claim orderly _⟩
  | waiting ticket wanted =>
    cases stands
    simp only [Disposal.moves] at move
    split at move
    · obtain ⟨rfl, rfl⟩ := memStep.mp move
      exact ⟨_, .inl rfl, Pool.Orderly.recast orderly rfl rfl (List.Sublist.refl _) fun _ _ => trivial⟩
    · split at move
      · obtain ⟨rfl, rfl⟩ := memStep.mp move
        exact ⟨_, .inr ⟨wanted, rfl⟩, Pool.Orderly.lease orderly⟩
      · cases move
  | closing ticket =>
    obtain ⟨rfl, rfl⟩ := memStep.mp move
    exact ⟨ys, stands, Pool.Orderly.like orderly rfl (Nat.le_refl _) (List.Sublist.refl _)⟩
  | freeing ticket =>
    obtain ⟨rfl, rfl⟩ := memStep.mp move
    refine ⟨[], rfl, ?_⟩
    rcases stands with rfl | ⟨wanted, rfl⟩
    · have none : s.pool.leaseOf ticket = none :=
        List.find?_eq_none.mpr fun l member => by simpa using Pool.Orderly.noLease orderly rfl rfl l member
      have same : s.pool.free ticket = s.pool := by simp only [Pool.free, none]
      rw [Site.Orderly, Site.withPool, same]
      exact Pool.Orderly.drop orderly rfl
    · exact (Pool.Orderly.free orderly).1.drop rfl
  | clearing =>
    cases stands
    obtain ⟨rfl, rfl⟩ := memStep.mp move
    exact ⟨[], rfl, Pool.Orderly.like orderly rfl (Nat.le_refl _) (List.nil_sublist _)⟩
  | disposing call rest first =>
    cases stands
    obtain ⟨pool, seats, goes⟩ := disposingCases move
    have after : s'.Orderly xs := orderly.more pool (Nat.le_of_eq (congrArg Array.size seats.symm))
    cases n with
    | go e =>
      obtain ⟨c, r, f, rfl⟩ := goes e rfl
      exact ⟨[], rfl, after⟩
    | done r => exact after
    | panicked => exact ⟨rfl, after⟩

end Disposal

namespace Visitor
variable {site : Part σ (Site W V)} {t t' : σ} {v w : Visitor W V σ α φ ρ} {xs ys : List Stance}
  {n : Next (Visitor W V σ α φ ρ) Empty}

def Stands (site : Part σ (Site W V)) : Visitor W V σ α φ ρ → List Stance → Prop
  | .disposing d, ys => d.Stands ys
  | .scheduling plan f, ys => plan.Proper site ∧ ys = f.stances
  | v, ys => ys = v.stances

theorem standsCases (stands : v.Stands site ys) :
    (v.Serves site ∧ ys = v.stances) ∨ (∃ f, v = .filling f ∧ ys = f.stances) ∨
      (∃ d, v = .disposing d ∧ d.Stands ys) ∨ ∃ r, v = .disposed r ∧ ys = [] := by
  cases v with
  | scheduling plan f => exact .inl stands
  | filling f => exact .inr (.inl ⟨f, rfl, stands⟩)
  | disposing d => exact .inr (.inr (.inl ⟨d, rfl, stands⟩))
  | disposed r => exact .inr (.inr (.inr ⟨r, rfl, stands⟩))
  | _ => exact .inl ⟨trivial, stands⟩

theorem Serves.stands (serves : v.Serves site) : v.Stands site v.stances := by
  cases v with
  | scheduling plan f => exact ⟨serves, rfl⟩
  | filling f => exact serves.elim
  | disposing d => exact serves.elim
  | disposed r => exact serves.elim
  | _ => rfl

theorem Stands.tickets (stands : v.Stands site ys) : ys.flatMap Stance.tickets = v.tickets := by
  rcases standsCases stands with ⟨serves, rfl⟩ | ⟨f, rfl, rfl⟩ | ⟨d, rfl, stands⟩ | ⟨r, rfl, rfl⟩
  · exact (ticketsStances serves).symm
  · exact f.ticketsNone
  · exact stands.tickets
  · rfl

theorem Stands.seats (stands : v.Stands site ys) : v.seats.Subperm (ys.flatMap Stance.seats) := by
  rcases standsCases stands with ⟨serves, rfl⟩ | ⟨f, rfl, rfl⟩ | ⟨d, rfl, stands⟩ | ⟨r, rfl, rfl⟩
  · rw [seatsStances serves]
  · exact List.nil_subperm
  · exact List.nil_subperm
  · exact List.nil_subperm

theorem movesOrderly (lawful : site.Lawful) (stands : v.Stands site ys)
    (orderly : (site.get t).Orderly (ys ++ xs)) (move : (t', n) ∈ v.moves site t) :
    (∀ w, n = .go w → ∃ zs, w.Stands site zs ∧ (site.get t').Orderly (zs ++ xs)) ∧
      (n = .panicked → ∃ zs, zs.flatMap Stance.tickets = v.tickets ∧
        (site.get t').Orderly (zs ++ xs)) := by
  rcases standsCases stands with ⟨serves, rfl⟩ | ⟨f, rfl, rfl⟩ | ⟨d, rfl, stands⟩ | ⟨r, rfl, rfl⟩
  · obtain ⟨after, again⟩ := movesBooks orderlyBooks lawful serves (fun _ _ => trivial) orderly move
    refine ⟨fun w go => ?_, fun broken => ?_⟩
    · cases go
      exact ⟨w.stances, (again w rfl).stands, after⟩
    · cases broken
      exact ⟨v.stances, (ticketsStances serves).symm, after⟩
  · rcases Machine.withinCases move with ⟨g, inner, rfl⟩ | ⟨u, r, inner, same⟩ | ⟨inner, rfl⟩
    · obtain ⟨u, moved, rfl⟩ := Machine.onCases inner
      obtain ⟨zs, -, after, same⟩ := Filling.movesOrderly orderly moved
      rw [lawful]
      exact ⟨fun w go => by cases go; exact ⟨zs, same g rfl, after⟩, fun broken => by cases broken⟩
    · obtain ⟨u, moved, rfl⟩ := Machine.onCases inner
      obtain ⟨zs, none, after, -⟩ := Filling.movesOrderly orderly moved
      cases same
      refine ⟨fun w go => ?_, fun broken => by cases broken⟩
      cases go
      refine ⟨[], rfl, ?_⟩
      have left : u.Orderly xs := (Pool.Orderly.dropAll after none).1
      rw [Part.update, lawful, lawful]
      exact left.more rfl (Nat.le_of_eq (by rw [Site.vacate, Crew.abandonAllSeats]))
    · obtain ⟨u, moved, rfl⟩ := Machine.onCases inner
      obtain ⟨zs, none, after, -⟩ := Filling.movesOrderly orderly moved
      rw [lawful]
      exact ⟨fun w go => by (cases go), fun _ => ⟨zs, none, after⟩⟩
  · rcases Machine.withinCases move with ⟨g, inner, rfl⟩ | ⟨u, r, inner, same⟩ | ⟨inner, rfl⟩
    · obtain ⟨u, moved, rfl⟩ := Machine.onCases inner
      rw [lawful]
      exact ⟨fun w go => by cases go; exact Disposal.movesOrderly stands orderly moved,
        fun broken => by cases broken⟩
    · obtain ⟨u, moved, rfl⟩ := Machine.onCases inner
      have after : u.Orderly xs := Disposal.movesOrderly stands orderly moved
      cases same
      rw [lawful]
      exact ⟨fun w go => by cases go; exact ⟨[], rfl, after⟩, fun broken => by cases broken⟩
    · obtain ⟨u, moved, rfl⟩ := Machine.onCases inner
      obtain ⟨none, after⟩ : d.tickets = [] ∧ u.Orderly xs :=
        Disposal.movesOrderly stands orderly moved
      rw [lawful]
      exact ⟨fun w go => by (cases go), fun _ => ⟨[], none.symm, after⟩⟩
  · cases move

end Visitor

namespace Traffic
variable {site : Part σ (Site W V)} {of : φ → List Nat} {t u : Traffic W V σ α φ ρ}
  {own : List Stance}

def Guarded (site : Part σ (Site W V)) (own : List Stance) (t : Traffic W V σ α φ ρ) : Prop :=
  ∃ parts, List.Forall₂ (Visitor.Stands site) t.visitors parts ∧
    (site.get t.state).Orderly (own ++ parts.flatten)

section Step
variable {before after : List (Visitor W V σ α φ ρ)} {v w : Visitor W V σ α φ ρ}

theorem Guarded.others (guarded : t.Guarded site own) (here : t.visitors = before ++ v :: after) :
    ∃ ys rest, v.Stands site ys ∧ (site.get t.state).Orderly (ys ++ rest) ∧
      ∀ w zs s, Visitor.Stands site w zs → (site.get s).Orderly (zs ++ rest) →
        Guarded site own ⟨s, before ++ w :: after⟩ := by
  obtain ⟨parts, stand, orderly⟩ := guarded
  rw [here] at stand
  obtain ⟨front, ys, back, rfl, first, mine, last⟩ := forall₂Split stand.flip
  have aside (zs : List Stance) : (own ++ (front ++ zs :: back).flatten).Perm
      (zs ++ (own ++ (front ++ back).flatten)) := by
    rw [List.flatten_append, List.flatten_cons, List.flatten_append]
    refine (List.Perm.append_left own (List.perm_append_comm_assoc front.flatten zs _)).trans ?_
    exact List.perm_append_comm_assoc own zs _
  refine ⟨ys, own ++ (front ++ back).flatten, mine, orderly.perm (aside ys), fun w zs s stands held => ?_⟩
  refine ⟨front ++ zs :: back, ?_, held.perm (aside zs).symm⟩
  exact List.rel_append first.flip (.cons stands last.flip)

theorem Guarded.leave (lawful : site.Lawful) {s : σ} {ys rest : List Stance}
    (tickets : ys.flatMap Stance.tickets = v.tickets) (orderly : (site.get s).Orderly (ys ++ rest))
    (tokens : List Nat) :
    (site.get (site.update (Site.vacate v.tickets tokens) s)).Orderly ([] ++ rest) := by
  rw [Part.update, lawful, Site.Orderly, Site.vacate, Crew.abandonAllSeats]
  exact (Pool.Orderly.forgetAll orderly (.of_eq tickets)).1

end Step

theorem Guarded.step (lawful : site.Lawful) (guarded : t.Guarded site own)
    (step : Step site of (Anyone site) t u) : u.Guarded site own := by
  cases step with
  | @enter v come =>
    obtain ⟨parts, stand, orderly⟩ := guarded
    have arrives : v.Stands site [] := by
      rcases come with rfl | rfl | rfl | ⟨plan, items, proper, rfl⟩
      · rfl
      · rfl
      · rfl
      · exact ⟨proper, rfl⟩
    refine ⟨parts ++ [[]], List.rel_append stand (.cons arrives .nil), ?_⟩
    rwa [List.flatten_append, List.flatten_singleton, List.append_nil]
  | go here move =>
    obtain ⟨ys, rest, stands, orderly, again⟩ := guarded.others here
    obtain ⟨zs, later, after⟩ := (Visitor.movesOrderly lawful stands orderly move).1 _ rfl
    exact again _ zs _ later after
  | breakDown here move =>
    obtain ⟨ys, rest, stands, orderly, again⟩ := guarded.others here
    obtain ⟨zs, tickets, after⟩ := (Visitor.movesOrderly lawful stands orderly move).2 rfl
    exact again .ended [] _ rfl (Guarded.leave lawful tickets after _)
  | leave here =>
    obtain ⟨ys, rest, stands, orderly, again⟩ := guarded.others here
    exact again .ended [] _ rfl (Guarded.leave lawful stands.tickets orderly _)
  | grow n =>
    obtain ⟨parts, stand, orderly⟩ := guarded
    refine ⟨parts, stand, ?_⟩
    rw [Part.update, lawful]
    have same : ((site.get t.state).pool.grow n).leases = (site.get t.state).pool.leases ∧
        ((site.get t.state).pool.grow n).tickets = (site.get t.state).pool.tickets ∧
          ((site.get t.state).pool.grow n).idle = (site.get t.state).pool.idle := by
      unfold Pool.grow
      split <;> exact ⟨rfl, rfl, rfl⟩
    exact Pool.Orderly.like orderly same.1 (Nat.le_of_eq same.2.1.symm) (same.2.2 ▸ List.Sublist.refl _)
  | work crew stays =>
    obtain ⟨parts, stand, orderly⟩ := guarded
    refine ⟨parts, stand, ?_⟩
    rw [Part.update, lawful]
    exact orderly.more rfl stays

theorem Guarded.steps (lawful : site.Lawful) (guarded : t.Guarded site own)
    (steps : Steps site of (Anyone site) t u) : u.Guarded site own := by
  induction steps with
  | refl => exact guarded
  | tail _ step before => exact before.step lawful step

end Traffic

end MutationPipeline
