import MutationPipeline.Proofs.Pool.Founding

/-! A pool that could not be filled up. The workers that had joined by then are never handed out, but
they count: the pool may come to have as many more workers than it should. Apart from that it is a
pool as any other, whose books are right when those workers are left out. -/
namespace MutationPipeline
variable {W V σ α φ ρ : Type}

namespace Pool
variable {p q : Pool} {n m ticket seat : Nat} {lost own : List Nat} {x : Stance} {xs ys : List Stance}

def only (own : List Nat) (p : Pool) : Pool := { p with members := own }

theorem onlyFree (own : List Nat) (p : Pool) (ticket : Nat) :
    (p.free ticket).only own = (p.only own).free ticket := by
  unfold free leaseOf
  dsimp only [only]
  split <;> rfl

theorem onlyPutBack (own : List Nat) (p : Pool) (ticket : Nat) :
    (p.putBack ticket).only own = (p.only own).putBack ticket := by
  unfold putBack leaseOf
  dsimp only [only]
  split <;> rfl

theorem onlyForgetAll (own : List Nat) (p : Pool) (tickets : List Nat) :
    (tickets.foldl forget p).only own = tickets.foldl forget (p.only own) := by
  induction tickets generalizing p with
  | nil => rfl
  | cons ticket rest ih =>
    have one : (p.forget ticket).only own = (p.only own).forget ticket := by
      have freed := onlyFree own (p.putBack ticket) ticket
      rw [onlyPutBack] at freed
      rw [forget, forget, ← freed]
      rfl
    rw [List.foldl_cons, List.foldl_cons, ih, one]

theorem growMembers (p : Pool) (n : Nat) : (p.grow n).members = p.members :=
  (apply_ite members _ _ _).trans (ite_self _)

theorem onlyGrow (own : List Nat) (p : Pool) (n : Nat) :
    (p.grow n).only own = (p.only own).grow n := apply_ite (only own) _ _ _

theorem onlySeatIdle (own : List Nat) (p : Pool) (ticket : Nat) :
    (p.only own).seatIdle ticket = (p.seatIdle ticket).map fun (q, seat) => (q.only own, seat) := by
  unfold seatIdle
  dsimp only [only]
  split <;> rfl

structure Astray (lost own : List Nat) (p : Pool) (n : Nat) (xs : List Stance) : Prop where
  split : p.members.Perm (own ++ lost)
  kept : (p.only own).Kept n xs
  apart : ∀ seat ∈ lost, seat < n ∧ seat ∉ own ++ xs.flatMap Stance.made

theorem Astray.perm (astray : p.Astray lost own n xs) (same : xs.Perm ys) :
    p.Astray lost own n ys where
  split := astray.split
  kept := astray.kept.perm same
  apart := by
    intro seat member
    obtain ⟨known, apart⟩ := astray.apart seat member
    exact ⟨known, fun among => apart (((same.flatMap_right _).append_left own).mem_iff.mpr among)⟩

theorem Astray.more (astray : p.Astray lost own n xs) (more : n ≤ m) : p.Astray lost own m xs where
  split := astray.split
  kept := astray.kept.more more
  apart := fun seat member =>
    ⟨Nat.lt_of_lt_of_le (astray.apart seat member).1 more, (astray.apart seat member).2⟩

theorem Astray.still (astray : p.Astray lost own n xs) (members : q.members = p.members)
    (kept : (q.only own).Kept n ys) (made : ys.flatMap Stance.made ⊆ xs.flatMap Stance.made) :
    q.Astray lost own n ys where
  split := members ▸ astray.split
  kept := kept
  apart := by
    intro seat member
    obtain ⟨known, apart⟩ := astray.apart seat member
    refine ⟨known, fun among => apart (List.mem_append.mpr ?_)⟩
    exact (List.mem_append.mp among).imp_right fun new => made new

theorem Astray.hire {holder : Option Nat} (astray : p.Astray lost own n (.making holder none :: xs)) :
    p.Astray lost own (n + 1) (.making holder (some n) :: xs) where
  split := astray.split
  kept := astray.kept.hire
  apart := by
    intro seat member
    obtain ⟨known, apart⟩ := astray.apart seat member
    refine ⟨Nat.lt_succ_of_lt known, fun among => ?_⟩
    rcases List.mem_cons.mp (List.perm_middle.mem_iff.mp among) with rfl | old
    · exact Nat.lt_irrefl _ known
    · exact apart old

theorem Astray.enrollFor
    (astray : p.Astray lost own n (.making (some ticket) (some seat) :: xs)) :
    ((p.enroll seat).seat ticket seat).Astray lost (own ++ [seat]) n (.seated ticket seat :: xs) where
  split := by
    have more : (p.members ++ [seat]).Perm ((own ++ lost) ++ [seat]) :=
      astray.split.append_right [seat]
    rw [List.append_assoc] at more ⊢
    exact more.trans (List.perm_append_comm.append_left own)
  kept := astray.kept.enrollFor
  apart := by
    intro other member
    obtain ⟨known, apart⟩ := astray.apart other member
    refine ⟨known, fun among => apart ?_⟩
    rw [List.append_assoc] at among
    exact among

end Pool

section Moves
variable {s s' : Site W V} {lost own : List Nat} {ticket : Nat} {xs : List Stance}

def Site.Astray (lost : List Nat) (s : Site W V) (xs : List Stance) : Prop :=
  ∃ own, s.pool.Astray lost own s.crew.seats.size xs

theorem Site.Astray.perm {ys : List Stance} (astray : s.Astray lost xs) (same : xs.Perm ys) :
    s.Astray lost ys :=
  Exists.imp (fun _ astray => Pool.Astray.perm astray same) astray

theorem Site.Astray.more (astray : s.Astray lost xs) (pool : s'.pool = s.pool)
    (seats : s.crew.seats.size ≤ s'.crew.seats.size) : s'.Astray lost xs := by
  obtain ⟨own, astray⟩ := astray
  exact ⟨own, pool ▸ astray.more seats⟩

theorem callMovesAstray {call : Calling W} {n : Next (Calling W) (Except WorkerError V)}
    (astray : s.Astray lost xs) (move : (s', n) ∈ callMoves call s) : s'.Astray lost xs := by
  obtain ⟨u, inner, rfl⟩ := Machine.onCases move
  exact astray.more rfl (Nat.le_of_eq (congrArg Array.size (Calling.movesSeats inner).symm))

theorem Creation.movesAstray {c : Creation W} {n : Next (Creation W) (Except PoolError Nat)}
    (astray : s.Astray lost (c.stance (some ticket) :: xs))
    (move : (s', n) ∈ Creation.moves (some ticket) c s) :
    s'.Astray lost (n.elim (fun c => [c.stance (some ticket)]) (made (some ticket))
      [c.stance (some ticket)] ++ xs) := by
  cases c with
  | hiring =>
    obtain ⟨rfl, rfl⟩ := memStep.mp move
    obtain ⟨own, astray⟩ := astray
    have size : (s.crew.hire).1.seats.size = s.crew.seats.size + 1 := Array.size_push _
    have hired := astray.hire
    rw [← size] at hired
    exact ⟨own, hired⟩
  | starting seat call =>
    rcases Machine.withinCases move with ⟨call, inner, rfl⟩ | ⟨u, r, inner, same⟩ | ⟨inner, rfl⟩
    · exact callMovesAstray astray inner
    · have called := callMovesAstray astray inner
      cases r with
      | ok v => cases same; exact called
      | error e =>
        cases same
        obtain ⟨own, called⟩ := called
        exact ⟨own, called.still rfl called.kept.dismiss (List.subset_append_right _ _)⟩
    · exact callMovesAstray astray inner
  | clearing cause call =>
    rcases Machine.withinCases move with ⟨call, inner, rfl⟩ | ⟨u, r, inner, same⟩ | ⟨inner, rfl⟩
    · exact callMovesAstray astray inner
    · have called := callMovesAstray astray inner
      cases r with
      | ok v => cases same; exact called
      | error e => cases same; exact called
    · exact callMovesAstray astray inner
  | enrolling seat =>
    obtain ⟨rfl, rfl⟩ := memFinish.mp move
    obtain ⟨own, astray⟩ := astray
    exact ⟨_, astray.enrollFor⟩

theorem Acquisition.movesAstray {a : Acquisition W}
    {n : Next (Acquisition W) (Except PoolError (Nat × Nat))} (served : Served xs)
    (astray : s.Astray lost (a.stances ++ xs)) (move : (s', n) ∈ Acquisition.moves a s) :
    s'.Astray lost (n.elim stances got a.stances ++ xs) := by
  obtain ⟨own, astray⟩ := astray
  cases a with
  | asking =>
    obtain ⟨rfl, rfl⟩ := memStep.mp move
    exact ⟨own, astray.still rfl (astray.kept.claim 1) (List.Subset.refl _)⟩
  | waiting ticket =>
    simp only [Acquisition.moves] at move
    split at move
    · next disposed =>
      have opened : s.pool.permits.closed = false := astray.kept.counted.opened
      rw [Pool.isDisposed, opened] at disposed
      cases disposed
    · split at move
      · next complete =>
        obtain ⟨rfl, rfl⟩ := memStep.mp move
        exact ⟨own, astray.still rfl (astray.kept.lease complete) (List.Subset.refl _)⟩
      · cases move
  | choosing ticket =>
    simp only [Acquisition.moves] at move
    have same := s.pool.onlySeatIdle own ticket
    split at move
    · next pool seat found =>
      obtain ⟨rfl, rfl⟩ := memFinish.mp move
      rw [found] at same
      exact ⟨own, astray.still (Pool.seatIdleAlike found).1.members (astray.kept.seatIdle same)
        (List.Subset.refl _)⟩
    · next idle =>
      obtain ⟨rfl, rfl⟩ := memStep.mp move
      rw [idle] at same
      exact ⟨own, astray.still rfl (astray.kept.begin same served) (List.Subset.refl _)⟩
  | creating ticket c =>
    have astray : s.Astray lost (c.stance (some ticket) :: xs) := ⟨own, astray⟩
    rcases Machine.withinCases move with ⟨c, inner, rfl⟩ | ⟨u, r, inner, same⟩ | ⟨inner, rfl⟩
    · exact Creation.movesAstray astray inner
    · have created := Creation.movesAstray astray inner
      cases r with
      | ok seat => cases same; exact created
      | error e =>
        cases same
        obtain ⟨own, created⟩ := created
        exact ⟨own, created.still rfl created.kept.giveUp (List.Subset.refl _)⟩
    · exact Creation.movesAstray astray inner
  | failing ticket cause =>
    obtain ⟨rfl, rfl⟩ := memFinish.mp move
    refine ⟨own, astray.still (s.pool.freeAlike ticket).members ?_ (List.Subset.refl _)⟩
    have freed := astray.kept.free
    rwa [← Pool.onlyFree] at freed

theorem Release.movesAstray {r : Release} {n : Next Release Unit}
    (astray : s.Astray lost (r.stance ticket :: xs)) (move : (s', n) ∈ Release.moves ticket r s) :
    s'.Astray lost (n.elim (fun r => [r.stance ticket]) (fun _ => []) [] ++ xs) := by
  obtain ⟨own, astray⟩ := astray
  cases r with
  | puttingBack =>
    obtain ⟨rfl, rfl⟩ := memStep.mp move
    refine ⟨own, astray.still (s.pool.putBackAlike ticket).members ?_ (List.Subset.refl _)⟩
    have back := astray.kept.putBack
    rwa [← Pool.onlyPutBack] at back
  | freeing =>
    obtain ⟨rfl, rfl⟩ := memFinish.mp move
    refine ⟨own, astray.still (s.pool.freeAlike ticket).members ?_ (List.Subset.refl _)⟩
    have freed := astray.kept.free
    rwa [← Pool.onlyFree] at freed

theorem astrayBooks (lost : List Nat) :
    Bookkeeping (fun x => x.founds = false) (Site.Astray lost : Site W V → List Stance → Prop) where
  own := fun _ => id
  perm := Site.Astray.perm
  more := Site.Astray.more
  acquires := Acquisition.movesAstray
  leaves := fun ⟨own, astray⟩ => ⟨own, astray.still rfl astray.kept.leave (List.Subset.refl _)⟩
  releases := Release.movesAstray

end Moves

namespace Visitor
variable {site : Part σ (Site W V)} {t t' : σ} {v w : Visitor W V σ α φ ρ} {lost : List Nat}
  {xs : List Stance} {n : Next (Visitor W V σ α φ ρ) Empty}

def Single : Visitor W V σ α φ ρ → Prop
  | .acquiring _ | .holding .. | .releasing .. | .filled _ | .ended => True
  | _ => False

theorem Single.serves (single : v.Single) (site : Part σ (Site W V)) : v.Serves site := by
  cases v <;> trivial

theorem movesSingle (single : v.Single) (move : (t', .go w) ∈ v.moves site t) : w.Single := by
  cases v with
  | acquiring a =>
    rcases Machine.withinCases move with ⟨b, -, same⟩ | ⟨u, r, -, same⟩ | ⟨-, same⟩
    · cases same; trivial
    · cases r <;> cases same <;> trivial
    · cases same
  | holding ticket seat => cases (memStep.mp move).2; trivial
  | releasing ticket r =>
    rcases Machine.withinCases move with ⟨b, -, same⟩ | ⟨u, r, -, same⟩ | ⟨-, same⟩ <;>
      cases same <;> trivial
  | scheduling plan f => exact single.elim
  | filling f => exact single.elim
  | disposing d => exact single.elim
  | _ => cases move

theorem movesAstray (lawful : site.Lawful) (single : v.Single) (served : Served xs)
    (astray : (site.get t).Astray lost (v.stances ++ xs)) (move : (t', n) ∈ v.moves site t) :
    (site.get t').Astray lost (n.elim stances (fun r => nomatch r) v.stances ++ xs) :=
  (movesBooks (astrayBooks lost) lawful (single.serves site) served astray move).1

end Visitor

theorem Site.Astray.vacate {s : Site W V} {lost : List Nat} {xs ys : List Stance}
    (astray : s.Astray lost (ys ++ xs)) (served : Served ys) (tokens : List Nat) :
    (s.vacate (ys.flatMap Stance.tickets) tokens).Astray lost xs := by
  obtain ⟨own, astray⟩ := astray
  refine ⟨own, ?_⟩
  rw [Site.vacate, Crew.abandonAllSeats]
  refine astray.still (s.pool.forgetAllAlike _).members ?_ ?_
  · rw [Pool.onlyForgetAll]
    exact astray.kept.forgetAll served (.refl _)
  · rw [List.flatMap_append]
    exact List.subset_append_right _ _

namespace Traffic
variable {site : Part σ (Site W V)} {of : φ → List Nat} {t u : Traffic W V σ α φ ρ}
  {lost : List Nat}

def Asking (_ : Traffic W V σ α φ ρ) (v : Visitor W V σ α φ ρ) : Prop := v = .acquiring .asking

structure Crippled (site : Part σ (Site W V)) (lost : List Nat) (t : Traffic W V σ α φ ρ) :
    Prop where
  single : ∀ v ∈ t.visitors, v.Single
  astray : (site.get t.state).Astray lost (stances t.visitors)

section Step
variable {before after : List (Visitor W V σ α φ ρ)} {v : Visitor W V σ α φ ρ}

theorem Crippled.others (crippled : t.Crippled site lost)
    (here : t.visitors = before ++ v :: after) :
    v.Single ∧ (∀ w ∈ before ++ after, w.Single) ∧
      (site.get t.state).Astray lost (v.stances ++ stances (before ++ after)) ∧
        Served (stances (before ++ after)) := by
  obtain ⟨single, astray⟩ := crippled
  rw [here] at single astray
  have rest : ∀ w ∈ before ++ after, w.Single :=
    fun w member => single w (List.perm_middle.mem_iff.mpr (List.mem_cons_of_mem v member))
  refine ⟨single v (by simp), rest, astray.perm (stancesFront before after v), ?_⟩
  intro x member
  obtain ⟨w, visits, own⟩ := List.mem_flatMap.mp member
  exact Visitor.served ((rest w visits).serves site) x own

theorem crippledAgain {s : σ} (rest : ∀ w ∈ before ++ after, w.Single) (single : v.Single)
    (astray : (site.get s).Astray lost (v.stances ++ stances (before ++ after))) :
    Crippled site lost ⟨s, before ++ v :: after⟩ where
  single := by
    intro w member
    rcases List.mem_cons.mp (List.perm_middle.mem_iff.mp member) with rfl | other
    · exact single
    · exact rest w other
  astray := astray.perm (stancesFront before after v).symm

end Step

theorem Crippled.step (lawful : site.Lawful) (crippled : t.Crippled site lost)
    (step : Step site of Asking t u) : u.Crippled site lost := by
  cases step with
  | enter come =>
    subst come
    refine ⟨fun w member => ?_, ?_⟩
    · rcases List.mem_append.mp member with old | new
      · exact crippled.single w old
      · rw [List.mem_singleton.mp new]
        trivial
    · rw [stances, List.flatMap_append, List.flatMap_singleton]
      exact crippled.astray.perm (.of_eq (List.append_nil _).symm)
  | go here move =>
    obtain ⟨single, rest, astray, served⟩ := crippled.others here
    have moved := Visitor.movesAstray lawful single served astray move
    exact crippledAgain rest (Visitor.movesSingle single move) moved
  | breakDown here move =>
    obtain ⟨single, rest, astray, served⟩ := crippled.others here
    have moved := Visitor.movesAstray lawful single served astray move
    refine crippledAgain (v := .ended) rest trivial ?_
    rw [Part.update, lawful, Visitor.ticketsStances (single.serves site)]
    exact moved.vacate (Visitor.served (single.serves site)) _
  | leave here =>
    obtain ⟨single, rest, astray, -⟩ := crippled.others here
    refine crippledAgain (v := .ended) rest trivial ?_
    rw [Part.update, lawful, Visitor.ticketsStances (single.serves site)]
    exact astray.vacate (Visitor.served (single.serves site)) _
  | grow n =>
    refine ⟨crippled.single, ?_⟩
    rw [Part.update, lawful]
    obtain ⟨own, astray⟩ := crippled.astray
    refine ⟨own, astray.still (Pool.growMembers _ n) ?_ (List.Subset.refl _)⟩
    rw [Site.withPool, Pool.onlyGrow]
    exact astray.kept.grow n
  | work crew stays =>
    refine ⟨crippled.single, ?_⟩
    rw [Part.update, lawful]
    exact crippled.astray.more rfl stays

theorem Crippled.steps (lawful : site.Lawful) (crippled : t.Crippled site lost)
    (steps : Steps site of Asking t u) : u.Crippled site lost := by
  induction steps with
  | refl => exact crippled
  | tail steps step ih => exact ih.step lawful step

end Traffic

namespace Pool
variable {p : Pool} {n : Nat} {seat : Option Nat} {lost : List Nat} {xs ys : List Stance}

theorem Kept.abandon (kept : p.Kept n (.making none seat :: xs)) : p.Kept n xs := by
  obtain ⟨counted, staffed⟩ := kept
  have fewer : (p.members ++ xs.flatMap Stance.made).Sublist
      (p.members ++ (Stance.making none seat :: xs).flatMap Stance.made) :=
    (List.sublist_append_right _ _).append_left _
  refine ⟨{ counted with }, { staffed with
    seating := staffed.seating.without
    distinct := fewer.nodup staffed.distinct
    known := fun s member => staffed.known s (fewer.subset member)
    room := ?_ }⟩
  have room := staffed.room
  rw [List.countP_cons_of_pos rfl] at room
  omega

theorem Kept.strand (kept : p.Kept n (ys ++ xs)) (founds : ∀ y ∈ ys, y.founds = true) :
    p.Kept n ((ys.flatMap Stance.carried).map .carrying ++ xs) := by
  induction ys generalizing xs with
  | nil => exact kept
  | cons y ys ih =>
    have own := founds y List.mem_cons_self
    have others := fun z member => founds z (List.mem_cons_of_mem y member)
    cases y with
    | making holder seat =>
      cases holder with
      | none => exact ih kept.abandon others
      | some ticket => cases own
    | carrying seat =>
      have moved : (Stance.carrying seat :: ys ++ xs).Perm (ys ++ .carrying seat :: xs) :=
        List.perm_middle.symm
      exact (ih (kept.perm moved) others).perm List.perm_middle
    | _ => cases own

theorem carryingNone {β : Type} {column : Stance → List β} (none : ∀ seat, column (.carrying seat) = [])
    (lost : List Nat) : (lost.map Stance.carrying).flatMap column = [] := by
  rw [List.flatMap_map, List.flatMap_eq_nil_iff]
  exact fun seat _ => none seat

theorem Kept.unleased (kept : p.Kept n (lost.map .carrying)) : p.leases = [] := by
  have leases := kept.counted.leases
  rw [carryingNone fun _ => rfl] at leases
  exact List.map_eq_nil_iff.mp leases.eq_nil

theorem Kept.idleOnly (kept : p.Kept n (lost.map .carrying)) :
    p.members.Perm (p.idle ++ lost) := by
  have roster := kept.staffed.roster
  have carried : (lost.map Stance.carrying).flatMap Stance.carried = lost := by
    rw [List.flatMap_map]
    exact List.flatMap_singleton' lost
  rwa [checkedOut, kept.unleased, List.filterMap_nil, List.append_nil, carried] at roster

theorem Kept.astray (kept : p.Kept n (lost.map .carrying)) : p.Astray lost p.idle n [] := by
  have roster := kept.idleOnly
  have unleased := kept.unleased
  obtain ⟨counted, staffed⟩ := kept
  have inside : p.idle ++ lost ⊆ p.members := roster.symm.subset
  have known (seat : Nat) (member : seat ∈ p.idle ++ lost) : seat < n :=
    staffed.known seat (List.mem_append_left _ (inside member))
  have distinct := roster.nodup_iff.mp (List.nodup_append.mp staffed.distinct).1
  have few : p.idle.length ≤ p.members.length := by
    rw [roster.length_eq]
    exact (List.sublist_append_left p.idle lost).length_le
  have terms := counted.terms
  have leases := counted.leases
  have balance := counted.balance
  rw [carryingNone fun _ => rfl] at terms leases balance
  constructor
  · exact roster
  · constructor
    · exact { counted with
        terms, leases, balance
        single := .nil
        issued := fun t member => nomatch member }
    · exact {
        seating := fun x member => nomatch member
        roster := by
          rw [only, checkedOut, unleased, List.filterMap_nil, List.append_nil]
          exact .of_eq (List.append_nil _).symm
        distinct := (List.append_nil p.idle).symm ▸ (List.nodup_append.mp distinct).1
        known := by
          intro seat member
          rw [List.flatMap_nil, List.append_nil] at member
          exact known seat (List.mem_append_left _ member)
        room := Nat.le_trans few (Nat.le_of_add_right_le staffed.room) }
  · intro seat member
    refine ⟨known seat (List.mem_append_right _ member), fun among => ?_⟩
    rw [List.flatMap_nil, List.append_nil] at among
    exact (List.nodup_append.mp distinct).2.2 seat among seat member rfl

end Pool

namespace Filling
variable {s s' : Site W V} {f : Filling W} {xs : List Stance}
  {n : Next (Filling W) (Except PoolError Unit)}

theorem membersFound (members : List (Member (Creation W) Nat)) :
    ∀ y ∈ members.map Member.stance, y.founds = true := by
  intro y member
  obtain ⟨m, -, rfl⟩ := List.mem_map.mp member
  cases m with
  | running c => cases c <;> rfl
  | ended seat => rfl

theorem founds (f : Filling W) : ∀ y ∈ f.stances, y.founds = true := by
  cases f with
  | counting => exact fun y member => nomatch member
  | creating members => exact membersFound members

theorem movesFounds (calm : xs.countP Stance.isMaking = 0) (kept : s.Kept (f.stances ++ xs))
    (move : (s', n) ∈ Filling.moves f s) :
    ∃ ys, (∀ y ∈ ys, y.founds = true) ∧ s'.Kept (ys ++ xs) ∧ ∀ g, n = .go g → ys = g.stances := by
  rcases movesCases move with ⟨rfl, rfl, rfl⟩ | ⟨rfl, -, rfl, rfl⟩ | ⟨seats, rfl, rfl, rfl⟩ |
    ⟨before, c, rest, o, rfl, moved, rfl⟩
  · exact ⟨[], fun y member => (nomatch member), kept, fun g go => by cases go⟩
  · refine ⟨_, membersFound (List.replicate s'.pool.missing (.running .hiring)), ?_,
      fun g go => by cases go; rfl⟩
    rw [List.map_replicate]
    exact Pool.Kept.found kept calm
  · refine ⟨[], fun y member => (nomatch member), Pool.Kept.stock ?_, fun g go => by cases go⟩
    rwa [stances, List.map_map] at kept
  · have front (m : Member (Creation W) Nat) :
        ((before ++ m :: rest).map Member.stance ++ xs).Perm
          (m.stance :: ((before ++ rest).map Member.stance ++ xs)) :=
      (List.perm_middle.map _).append_right xs
    have after := Creation.movesKept (kept.perm (front (.running c))) moved
    have others := membersFound (before ++ rest)
    cases o with
    | go d =>
      exact ⟨_, membersFound _, after.perm (front (.running d)).symm, fun g go => by cases go; rfl⟩
    | done r =>
      cases r with
      | ok seat =>
        exact ⟨_, membersFound _, after.perm (front (.ended seat)).symm,
          fun g go => by cases go; rfl⟩
      | error e =>
        exact ⟨_, List.forall_mem_cons.mpr ⟨rfl, others⟩, after, fun g go => by cases go⟩
    | panicked =>
      refine ⟨_, List.forall_mem_cons.mpr ⟨?_, others⟩, after, fun g go => by cases go⟩
      cases c <;> rfl

end Filling

namespace Traffic
variable {site : Part σ (Site W V)} {of : φ → List Nat} {t u : Traffic W V σ α φ ρ}
  {before after : List (Visitor W V σ α φ ρ)} {v w : Visitor W V σ α φ ρ}

/-- Filling the pool up is over for this visitor, whatever has come of it. -/
def Over (v : Visitor W V σ α φ ρ) : Prop := v = .ended ∨ ∃ r, v = .filled r

theorem Over.stuck {s s' : σ} {n : Next (Visitor W V σ α φ ρ) Empty} (past : Over v) :
    (s', n) ∉ v.moves site s := by
  rcases past with rfl | ⟨r, rfl⟩ <;> exact List.not_mem_nil

theorem Over.stances (past : Over v) : v.stances = [] := by
  rcases past with rfl | ⟨r, rfl⟩ <;> rfl

structure Tried (site : Part σ (Site W V)) (t : Traffic W V σ α φ ρ) : Prop where
  fill : ∀ v ∈ t.visitors, Over v ∨ ∃ f, v = .filling f
  apart : t.visitors.Pairwise fun v w => Over v ∨ Over w
  kept : ∃ lost : List Nat, (site.get t.state).Kept (stances t.visitors ++ lost.map .carrying)

theorem allOver {visitors : List (Visitor W V σ α φ ρ)} (past : ∀ v ∈ visitors, Over v) :
    stances visitors = [] :=
  List.flatMap_eq_nil_iff.mpr fun v member => (past v member).stances

section Step
variable {s : σ} {lost : List Nat} {f : Filling W}

theorem Tried.others (tried : t.Tried site) (here : t.visitors = before ++ .filling f :: after) :
    (∀ w ∈ before ++ after, Over w) ∧
      ∃ lost : List Nat, (site.get t.state).Kept (f.stances ++ lost.map .carrying) := by
  obtain ⟨fill, apart, lost, kept⟩ := tried
  rw [here] at apart kept
  have symmetric {v w : Visitor W V σ α φ ρ} : Over v ∨ Over w → Over w ∨ Over v := Or.symm
  have rest := (List.pairwise_cons.mp ((List.perm_middle.pairwise_iff symmetric).mp apart)).1
  have past : ∀ w ∈ before ++ after, Over w := by
    intro w member
    refine (rest w member).resolve_left ?_
    rintro (same | ⟨r, same⟩) <;> cases same
  refine ⟨past, lost, kept.perm ?_⟩
  have front := stancesFront before after (.filling f : Visitor W V σ α φ ρ)
  rw [allOver past, List.append_nil] at front
  exact front.append_right _

theorem triedAgain (past : ∀ w ∈ before ++ after, Over w) (now : Over v ∨ ∃ f, v = .filling f)
    (kept : (site.get s).Kept (v.stances ++ lost.map .carrying)) :
    Tried site ⟨s, before ++ v :: after⟩ where
  fill := by
    intro w member
    rcases List.mem_cons.mp (List.perm_middle.mem_iff.mp member) with rfl | other
    · exact now
    · exact .inl (past w other)
  apart := by
    refine (List.perm_middle.pairwise_iff Or.symm).mpr (List.pairwise_cons.mpr ⟨?_, ?_⟩)
    · exact fun w member => .inr (past w member)
    · exact List.pairwise_of_forall_mem_list fun w member _ _ => .inl (past w member)
  kept := by
    refine ⟨lost, kept.perm ?_⟩
    have front := stancesFront before after v
    rw [allOver past, List.append_nil] at front
    exact front.symm.append_right _

theorem triedInVain {ys : List Stance} (past : ∀ w ∈ before ++ after, Over w) (ended : Over v)
    (founds : ∀ y ∈ ys, y.founds = true)
    (kept : (site.get s).Kept (ys ++ lost.map .carrying)) :
    Tried site ⟨s, before ++ v :: after⟩ := by
  have stranded : (site.get s).Kept
      ((ys.flatMap Stance.carried).map .carrying ++ lost.map .carrying) :=
    Pool.Kept.strand kept founds
  rw [← List.map_append] at stranded
  have own : (site.get s).Kept
      (v.stances ++ (ys.flatMap Stance.carried ++ lost).map .carrying) := by
    rwa [ended.stances]
  exact triedAgain past (.inl ended) own

theorem Tried.leave (lawful : site.Lawful) (tried : t.Tried site)
    (here : t.visitors = before ++ v :: after) (tokens : List Nat) :
    Tried site ⟨site.update (Site.vacate v.tickets tokens) t.state, before ++ .ended :: after⟩ := by
  have still {xs : List Stance} (kept : (site.get t.state).Kept xs) :
      (site.get (site.update (Site.vacate [] tokens) t.state)).Kept xs := by
    rw [Part.update, lawful]
    refine kept.more rfl (Nat.le_of_eq ?_)
    rw [Site.vacate, Crew.abandonAllSeats]
  rcases tried.fill v (by simp [here]) with past | ⟨f, rfl⟩
  · have none : v.tickets = [] := by rcases past with rfl | ⟨r, rfl⟩ <;> rfl
    rw [none]
    obtain ⟨fill, apart, lost, kept⟩ := tried
    rw [here] at fill apart kept
    have ended : Over (.ended : Visitor W V σ α φ ρ) := .inl rfl
    refine ⟨fun w member => ?_, ?_, lost, ?_⟩
    · rcases List.mem_cons.mp (List.perm_middle.mem_iff.mp member) with rfl | other
      · exact .inl ended
      · exact fill w (List.perm_middle.mem_iff.mpr (List.mem_cons_of_mem v other))
    · have symmetric {v w : Visitor W V σ α φ ρ} : Over v ∨ Over w → Over w ∨ Over v := Or.symm
      have rest := (List.pairwise_cons.mp ((List.perm_middle.pairwise_iff symmetric).mp apart)).2
      refine (List.perm_middle.pairwise_iff symmetric).mpr (List.pairwise_cons.mpr ⟨?_, rest⟩)
      exact fun w _ => .inl ended
    · have same : stances (before ++ .ended :: after) = stances (before ++ v :: after) := by
        simp only [stances, List.flatMap_append, List.flatMap_cons, past.stances, ended.stances]
      exact same ▸ still kept
  · obtain ⟨past, lost, kept⟩ := tried.others here
    exact triedInVain past (.inl rfl) f.founds (still kept)

theorem Tried.go {s : σ} (lawful : site.Lawful) (tried : t.Tried site)
    (here : t.visitors = before ++ v :: after) {n : Next (Visitor W V σ α φ ρ) Empty}
    (move : (s, n) ∈ v.moves site t.state) :
    (∀ w, n = .go w → Tried site ⟨s, before ++ w :: after⟩) ∧
      (n = .panicked → Tried site ⟨s, before ++ .ended :: after⟩) := by
  rcases tried.fill v (by simp [here]) with past | ⟨f, rfl⟩
  · exact absurd move past.stuck
  · obtain ⟨past, lost, kept⟩ := tried.others here
    have calm : (lost.map Stance.carrying).countP Stance.isMaking = 0 := by
      rw [List.countP_map, List.countP_eq_zero]
      exact fun seat _ => Bool.false_ne_true
    rcases Machine.withinCases move with ⟨g, inner, rfl⟩ | ⟨u, r, inner, same⟩ | ⟨inner, rfl⟩
    · obtain ⟨u, moved, rfl⟩ := Machine.onCases inner
      obtain ⟨ys, -, after, same⟩ := Filling.movesFounds calm kept moved
      refine ⟨fun w go => ?_, fun broken => by cases broken⟩
      cases go
      rw [← lawful u t.state, same g rfl] at after
      exact triedAgain past (.inr ⟨g, rfl⟩) after
    · obtain ⟨u, moved, rfl⟩ := Machine.onCases inner
      obtain ⟨ys, founds, after, -⟩ := Filling.movesFounds calm kept moved
      cases same
      refine ⟨fun w go => ?_, fun broken => by cases broken⟩
      cases go
      have vacated : (u.vacate [] (Filling.tokens f)).Kept (ys ++ lost.map .carrying) := by
        refine after.more rfl (Nat.le_of_eq ?_)
        rw [Site.vacate, Crew.abandonAllSeats]
      rw [← lawful u t.state, ← lawful (Site.vacate _ _ _) (site.set u t.state)] at vacated
      exact triedInVain past (.inr ⟨r, rfl⟩) founds vacated
    · obtain ⟨u, moved, rfl⟩ := Machine.onCases inner
      obtain ⟨ys, founds, after, -⟩ := Filling.movesFounds calm kept moved
      refine ⟨fun w go => by (cases go), fun _ => ?_⟩
      rw [← lawful u t.state] at after
      exact triedInVain past (.inl rfl) founds after

end Step

theorem Tried.step (lawful : site.Lawful) (tried : t.Tried site)
    (step : Step site of Founding t u) : u.Tried site := by
  cases step with
  | enter come =>
    obtain ⟨rfl, past⟩ := come
    obtain ⟨fill, apart, lost, kept⟩ := tried
    refine ⟨fun w member => ?_, ?_, lost, ?_⟩
    · rcases List.mem_append.mp member with old | new
      · exact fill w old
      · exact .inr ⟨.counting, List.mem_singleton.mp new⟩
    · refine List.pairwise_append.mpr ⟨apart, List.pairwise_singleton _ _, fun w member x _ => ?_⟩
      exact .inl (.inr (past w member))
    · rw [stances, List.flatMap_append, List.flatMap_singleton]
      exact kept.perm (.of_eq (congrArg (· ++ _) (List.append_nil _).symm))
  | go here move => exact (tried.go lawful here move).1 _ rfl
  | @breakDown before v after s here move =>
    have broken := (tried.go lawful here move).2 rfl
    have tickets : v.tickets = [] := by
      rcases tried.fill v (by simp [here]) with past | ⟨f, rfl⟩
      · exact absurd move past.stuck
      · rfl
    rw [tickets]
    exact broken.leave lawful rfl (v.tokens of)
  | leave here => exact tried.leave lawful here _
  | grow n =>
    obtain ⟨fill, apart, lost, kept⟩ := tried
    refine ⟨fill, apart, lost, ?_⟩
    rw [Part.update, lawful]
    exact Pool.Kept.grow kept n
  | work crew stays =>
    obtain ⟨fill, apart, lost, kept⟩ := tried
    refine ⟨fill, apart, lost, ?_⟩
    rw [Part.update, lawful]
    exact kept.more rfl stays

theorem Tried.steps (lawful : site.Lawful) (tried : t.Tried site)
    (steps : Steps site of Founding t u) : u.Tried site := by
  induction steps with
  | refl => exact tried
  | tail steps step ih => exact ih.step lawful step

/-- After the pool was filled up, whatever has come of that, it has no more workers than it may have,
but some of them can be lost: they are not idle, and nobody can have them checked out. Later on all
other workers are idle or checked out, and only these are no more than the pool may have. -/
theorem strandedApart {start founded : Traffic W V σ α φ ρ} (lawful : site.Lawful)
    (nobody : start.visitors = []) {capacity : Nat}
    (fresh : (site.get start.state).pool = .ofCapacity capacity)
    (founding : Steps site of Founding start founded)
    (tried : ∀ v ∈ founded.visitors, ∃ r, v = .filled r) :
    ∃ lost : List Nat,
      let pool := (site.get founded.state).pool
      pool.members.length ≤ pool.capacity ∧ pool.members.Perm (pool.idle ++ lost) ∧
        ∀ t, Steps site of Asking founded t →
          let pool := (site.get t.state).pool
          pool.members.Perm (pool.idle ++ pool.checkedOut ++ lost) ∧ pool.members.Nodup ∧
            pool.idle.length + pool.checkedOut.length ≤ pool.capacity := by
  have begun : start.Tried site := by
    refine ⟨?_, ?_, [], ?_⟩
    · rw [nobody]
      exact fun v member => nomatch member
    · rw [nobody]
      exact .nil
    · rw [nobody, Site.Kept, fresh]
      exact Pool.freshKept capacity _
  obtain ⟨-, -, lost, kept⟩ := begun.steps lawful founding
  have past : ∀ v ∈ founded.visitors, Over v := fun v member => .inr (tried v member)
  rw [allOver past] at kept
  have crippled : founded.Crippled site lost := by
    refine ⟨fun v member => ?_, (site.get founded.state).pool.idle, ?_⟩
    · obtain ⟨r, rfl⟩ := tried v member
      trivial
    · rw [allOver past]
      exact Pool.Kept.astray kept
  have roster := Pool.Kept.idleOnly kept
  have single : lost.Nodup := by
    have distinct := (List.nodup_append.mp kept.staffed.distinct).1
    exact (List.nodup_append.mp (roster.nodup_iff.mp distinct)).2.1
  refine ⟨lost, Nat.le_trans (Nat.le_add_right _ _) kept.staffed.room, roster, fun t asking => ?_⟩
  obtain ⟨serve, own, split, kept, apart⟩ := crippled.steps lawful asking
  have served : Served (stances t.visitors) := by
    intro x member
    obtain ⟨v, visits, stance⟩ := List.mem_flatMap.mp member
    exact Visitor.served ((serve v visits).serves site) x stance
  have others : own.Perm ((site.get t.state).pool.idle ++ (site.get t.state).pool.checkedOut) :=
    (Pool.Kept.served kept served).2
  have room := Nat.le_trans (Nat.le_add_right _ _) kept.staffed.room
  refine ⟨split.trans (others.append_right lost), split.nodup_iff.mpr ?_, ?_⟩
  · refine List.nodup_append.mpr ⟨(List.nodup_append.mp kept.staffed.distinct).1, single, ?_⟩
    rintro seat member _ among rfl
    exact (apart seat among).2 (List.mem_append_left _ member)
  · rw [← List.length_append, ← others.length_eq]
    exact room

theorem Step.answer {welcome : Traffic W V σ α φ ρ → Visitor W V σ α φ ρ → Prop} (token : Nat)
    (outcome : Outcome V) : Step site of welcome t
      ⟨site.update (fun s => { s with crew := s.crew.answer token outcome }) t.state, t.visitors⟩ :=
  .work _ (Nat.le_refl _)

def unfilled : Traffic Unit Unit (Site Unit Unit) Unit Unit Unit := ⟨{ pool := .ofCapacity 2 }, []⟩

def halfFilled : Traffic Unit Unit (Site Unit Unit) Unit Unit Unit where
  state :=
    { pool := { capacity := 2, permits := { free := 2 }, members := [0] }
      crew :=
        { seats := #[{ occupant := 0 }, { occupant := 1 }], made := 2, tokens := 3
          history :=
            [.made 0, .called 0 .init, .made 1, .called 1 .init, .called 1 .dispose] } }
  visitors := [.filled (.error (.worker (.rejected "no")))]

theorem fillHalf : Steps Part.whole (fun _ => []) Founding unfilled halfFilled := by
  have enter : Step Part.whole (fun _ => []) Founding unfilled
      ⟨unfilled.state, [] ++ [.filling .counting]⟩ := .enter ⟨rfl, fun _ member => by cases member⟩
  have called : Steps Part.whole (fun _ => []) Founding unfilled
      { state :=
          { pool := .ofCapacity 2
            crew :=
              { seats := #[{ occupant := 0 }, { occupant := 1 }], made := 2
                orders := [⟨0, 0, .init⟩, ⟨1, 1, .init⟩], tokens := 2
                history := [.made 0, .called 0 .init, .made 1, .called 1 .init] } }
        visitors := [] ++ [.filling (.creating
          [.running (.starting 0 (.waiting 0)), .running (.starting 1 (.waiting 1))])] } :=
    ((((((Steps.refl _).tail enter).tail (.last (.head _))).tail (.last (.head _))).tail
      (.last (.head _))).tail (.last (.head _))).tail (.last (.head _))
  have joined : Steps Part.whole (fun _ => []) Founding unfilled
      { state :=
          { halfFilled.state with
            crew :=
              { seats := #[{ occupant := 0 }, { occupant := 1 }], made := 2
                orders := [⟨1, 1, .init⟩], tokens := 2
                history := [.made 0, .called 0 .init, .made 1, .called 1 .init] } }
        visitors := [] ++ [.filling (.creating
          [.ended 0, .running (.starting 1 (.waiting 1))])] } :=
    ((called.tail (.answer 0 (.ok ()))).tail (.last (.head _))).tail (.last (.head _))
  have cleared : Steps Part.whole (fun _ => []) Founding unfilled
      { state :=
          { halfFilled.state with
            crew := { halfFilled.state.crew with orders := [⟨2, 1, .dispose⟩] } }
        visitors := [] ++ [.filling (.creating
          [.ended 0, .running (.clearing (.rejected "no") (.waiting 2))])] } :=
    ((joined.tail (.answer 1 (.failed (.rejected "no")))).tail (.last (.head _))).tail
      (.last (.head _))
  exact (cleared.tail (.answer 2 (.ok ()))).tail (.last (.head _))

theorem strandedApartHalf :
    ∃ lost : List Nat,
      let pool := halfFilled.state.pool
      pool.members.length ≤ pool.capacity ∧ pool.members.Perm (pool.idle ++ lost) ∧
        ∀ t, Steps Part.whole (fun _ => []) Asking halfFilled t →
          let pool := t.state.pool
          pool.members.Perm (pool.idle ++ pool.checkedOut ++ lost) ∧ pool.members.Nodup ∧
            pool.idle.length + pool.checkedOut.length ≤ pool.capacity :=
  strandedApart (fun _ _ => rfl) rfl rfl fillHalf fun _ member =>
    ⟨_, List.mem_singleton.mp member⟩

def oneMore : Traffic Unit Unit (Site Unit Unit) Unit Unit Unit where
  state :=
    { pool :=
        { capacity := 2, permits := { free := 1 }, members := [0, 2]
          leases := [{ ticket := 0, permits := 1, seat := some 2 }], tickets := 1 }
      crew :=
        { seats := halfFilled.state.crew.seats.push { occupant := 2 }, made := 3, tokens := 4
          history := halfFilled.state.crew.history ++ [.made 2, .called 2 .init] } }
  visitors := halfFilled.visitors ++ [.holding 0 2]

def overfull : Traffic Unit Unit (Site Unit Unit) Unit Unit Unit where
  state :=
    { pool :=
        { capacity := 2, permits := { free := 0 }, members := [0, 2, 3]
          leases := oneMore.state.pool.leases ++ [{ ticket := 1, permits := 1, seat := some 3 }]
          tickets := 2 }
      crew :=
        { seats := oneMore.state.crew.seats.push { occupant := 3 }, made := 4, tokens := 5
          history := oneMore.state.crew.history ++ [.made 3, .called 3 .init] } }
  visitors := oneMore.visitors ++ [.holding 1 3]

theorem takeOneMore : Steps Part.whole (fun _ => []) Asking halfFilled oneMore := by
  have enter : Step Part.whole (fun _ => []) Asking halfFilled
      ⟨halfFilled.state, halfFilled.visitors ++ [.acquiring .asking]⟩ := .enter rfl
  have called : Steps Part.whole (fun _ => []) Asking halfFilled
      { state :=
          { pool :=
              { oneMore.state.pool with
                members := [0], leases := [{ ticket := 0, permits := 1 }] }
            crew := { oneMore.state.crew with orders := [⟨3, 2, .init⟩] } }
        visitors := halfFilled.visitors ++ [.acquiring (.creating 0 (.starting 2 (.waiting 3)))] } :=
    (((((Steps.refl _).tail enter).tail (.last (.head _))).tail (.last (.head _))).tail
      (.last (.head _))).tail (.last (.head _)) |>.tail (.last (.head _))
  exact ((called.tail (.answer 3 (.ok ()))).tail (.last (.head _))).tail (.last (.head _))

theorem overfill : Steps Part.whole (fun _ => []) Asking halfFilled overfull := by
  have enter : Step Part.whole (fun _ => []) Asking oneMore
      ⟨oneMore.state, oneMore.visitors ++ [.acquiring .asking]⟩ := .enter rfl
  have called : Steps Part.whole (fun _ => []) Asking halfFilled
      { state :=
          { pool :=
              { overfull.state.pool with
                members := [0, 2]
                leases := oneMore.state.pool.leases ++ [{ ticket := 1, permits := 1 }] }
            crew := { overfull.state.crew with orders := [⟨4, 3, .init⟩] } }
        visitors := oneMore.visitors ++ [.acquiring (.creating 1 (.starting 3 (.waiting 4)))] } :=
    ((((takeOneMore.tail enter).tail (.last (.head _))).tail (.last (.head _))).tail
      (.last (.head _))).tail (.last (.head _)) |>.tail (.last (.head _))
  exact ((called.tail (.answer 4 (.ok ()))).tail (.last (.head _))).tail (.last (.head _))

/-- After a filling that has come to nothing there can be more workers than the pool may have, and some
of them are neither idle nor checked out. -/
theorem strandedCounted :
    ¬∀ founded t, Steps Part.whole (fun _ => []) Founding unfilled founded →
      (∃ e, .filled (.error e) ∈ founded.visitors) →
        Steps Part.whole (fun _ => []) Asking founded t →
          t.state.pool.members.length ≤ t.state.pool.capacity ∧
            ∀ seat ∈ t.state.pool.members,
              seat ∈ t.state.pool.idle ∨ seat ∈ t.state.pool.checkedOut := by
  intro claimed
  have few := (claimed halfFilled overfull fillHalf ⟨_, List.mem_singleton_self _⟩ overfill).1
  exact absurd few (by decide)

end Traffic

end MutationPipeline
