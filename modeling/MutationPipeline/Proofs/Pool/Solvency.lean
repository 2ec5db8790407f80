import MutationPipeline.Proofs.Pool.Hands
import MutationPipeline.Proofs.Pool.Waiting

/-! No permit of an open pool is lost or held back. Those that nobody holds are free or set aside for
claims, and a claim waits only as long as too few are left for it; so whoever still waits when all
others are gone finds a pool that is too small, and no claim is for more than the pool has. -/
namespace MutationPipeline
variable {W V σ α φ ρ : Type}

namespace Permits
variable {p : Permits} {ticket wanted n : Nat}

/-- Claims are served as soon as they can be, one after the other: as long as one waits nothing is
free, and only the oldest has something, which is too little. -/
structure Prompt (p : Permits) : Prop where
  full : p.Full
  spent : p.waiting ≠ [] → p.free = 0
  short : ∀ c ∈ p.waiting, c.got < c.wanted
  later : ∀ c ∈ p.waiting.tail, c.got = 0

theorem sharePrompt (n : Nat) {claims : List Claim} (short : ∀ c ∈ claims, c.got < c.wanted)
    (later : ∀ c ∈ claims.tail, c.got = 0) :
    ((share n claims).2.1 ≠ [] → (share n claims).2.2 = 0) ∧
      (∀ c ∈ (share n claims).2.1, c.got < c.wanted) ∧
        ∀ c ∈ (share n claims).2.1.tail, c.got = 0 := by
  fun_induction share n claims with
  | case1 => exact ⟨fun some => absurd rfl some, short, later⟩
  | case2 n c rest enough complete waiting left same ih =>
    rw [same] at ih
    exact ih (fun d member => short d (List.mem_cons_of_mem c member))
      fun d member => later d (List.mem_of_mem_tail member)
  | case3 n c rest few =>
    refine ⟨fun _ => rfl, fun d member => ?_, later⟩
    rcases List.mem_cons.mp member with rfl | other
    · exact Nat.lt_of_not_le few
    · exact short d (List.mem_cons_of_mem c other)

theorem Prompt.giveBack (prompt : p.Prompt) (n : Nat) : (p.giveBack n).Prompt := by
  obtain ⟨left, short, later⟩ := sharePrompt n prompt.short prompt.later
  refine ⟨giveBackFull prompt.full n, fun some => ?_, short, later⟩
  have some : (share n p.waiting).2.1 ≠ [] := some
  have waits : p.waiting ≠ [] := by
    intro none
    rw [none] at some
    exact some rfl
  show p.free + (share n p.waiting).2.2 = 0
  rw [prompt.spent waits, left some]

theorem Prompt.claim (prompt : p.Prompt) (ticket wanted : Nat) : (p.claim ticket wanted).Prompt := by
  have full : (p.claim ticket wanted).Full := claimFull prompt.full
  unfold Permits.claim at full ⊢
  split at full
  · next enough =>
    rw [if_pos enough]
    refine ⟨full, fun some => ?_, prompt.short, prompt.later⟩
    show p.free - wanted = 0
    rw [prompt.spent some, Nat.zero_sub]
  · next few =>
    rw [if_neg few]
    refine ⟨full, fun _ => rfl, fun c member => ?_, fun c member => ?_⟩
    · rcases List.mem_append.mp member with old | new
      · exact prompt.short c old
      · rw [List.mem_singleton.mp new]
        exact Nat.lt_of_not_le few
    · by_cases none : p.waiting = []
      · simp [none] at member
      · have member : c ∈ (p.waiting ++ [(⟨ticket, wanted, p.free⟩ : Claim)]).tail := member
        rw [List.tail_append_of_ne_nil none] at member
        rcases List.mem_append.mp member with old | new
        · exact prompt.later c old
        · rw [List.mem_singleton.mp new]
          exact prompt.spent none

theorem Prompt.fewer (prompt : p.Prompt) {waiting complete : List Claim}
    (fewer : waiting.Sublist p.waiting) (less : complete ⊆ p.complete) :
    Prompt { p with waiting, complete } where
  full := fun c member => prompt.full c (less member)
  spent := by
    refine fun some => prompt.spent fun none => some ?_
    exact List.sublist_nil.mp (none ▸ fewer)
  short := fun c member => prompt.short c (fewer.subset member)
  later := fun c member => prompt.later c (fewer.tail.subset member)

theorem Prompt.withdraw (prompt : p.Prompt) (ticket : Nat) : (p.withdraw ticket).Prompt :=
  (prompt.fewer List.filter_sublist (List.filter_subset_self _)).giveBack _

theorem Prompt.collect (prompt : p.Prompt) (ticket : Nat) : (p.collect ticket).Prompt :=
  prompt.fewer (List.Sublist.refl _) (List.filter_subset_self _)

theorem closePrompt (p : Permits) : p.close.Prompt where
  full := fun c member => by cases member
  spent := fun some => absurd rfl some
  short := fun c member => by cases member
  later := fun c member => by cases member

theorem Prompt.served (prompt : p.Prompt) (complete : p.complete = [])
    (fits : ∀ t ∈ p.terms, t.2 ≤ p.stock) : p.waiting = [] := by
  cases waiting : p.waiting with
  | nil => rfl
  | cons first rest =>
    exfalso
    have free := prompt.spent (by rw [waiting]; exact List.cons_ne_nil _ _)
    have short := prompt.short first (by rw [waiting]; exact List.mem_cons_self)
    have none : (rest.map (·.got)).sum = 0 := by
      refine List.sum_eq_zero_iff_forall_eq_nat.mpr fun got member => ?_
      obtain ⟨c, later, rfl⟩ := List.mem_map.mp member
      exact prompt.later c (by rw [waiting]; exact later)
    have wanted : first.wanted ≤ p.stock := by
      refine fits first.terms (List.mem_map_of_mem (List.mem_append_left _ ?_))
      rw [waiting]
      exact List.mem_cons_self
    simp only [stock, waiting, complete, free, List.append_nil, List.map_cons, List.sum_cons,
      none] at wanted
    omega

end Permits

namespace Pool
variable {p q : Pool} {n ticket permits : Nat} {x : Stance} {xs ys : List Stance}

structure Backed (p : Pool) (xs : List Stance) : Prop where
  prompt : p.permits.Prompt
  books : p.permits.closed = false → p.permits.terms.Perm (xs.flatMap Stance.terms) ∧
    p.permits.stock + permitsOf xs = p.capacity ∧ ∀ t ∈ xs.flatMap Stance.terms, t.2 ≤ p.capacity

theorem Backed.perm (backed : p.Backed xs) (same : xs.Perm ys) : p.Backed ys where
  prompt := backed.prompt
  books := by
    intro opened
    obtain ⟨terms, balance, fits⟩ := backed.books opened
    refine ⟨terms.trans (same.flatMap_right _), ?_, fun t member => fits t ?_⟩
    · rw [permitsOf, ← ((same.flatMap_right _).map _).sum_nat]
      exact balance
    · exact (same.flatMap_right _).mem_iff.mpr member

theorem Backed.still (backed : p.Backed xs) (permits : q.permits = p.permits)
    (capacity : q.capacity = p.capacity) (terms : ys.flatMap Stance.terms = xs.flatMap Stance.terms)
    (held : permitsOf ys = permitsOf xs) : q.Backed ys where
  prompt := permits ▸ backed.prompt
  books := by
    rw [permits, capacity, terms, held]
    exact backed.books

theorem Backed.claim (backed : p.Backed xs) {wanted : Nat} (fits : wanted ≤ p.capacity) :
    (p.claim wanted).1.Backed (.waiting p.tickets wanted :: xs) := by
  cases closed : p.permits.closed with
  | true =>
    have same : (p.claim wanted).1.permits = p.permits := by simp [Pool.claim, closed]
    refine ⟨same ▸ backed.prompt, fun opened => ?_⟩
    rw [same, closed] at opened
    cases opened
  | false =>
    have same : (p.claim wanted).1.permits = p.permits.claim p.tickets wanted := by
      simp [Pool.claim, closed]
    obtain ⟨terms, balance, fit⟩ := backed.books closed
    refine ⟨same ▸ backed.prompt.claim _ _, fun _ => ⟨?_, ?_, fun t member => ?_⟩⟩
    · rw [same]
      exact (Permits.claimTerms ..).trans (terms.cons _)
    · rw [same, Permits.claimStock]
      exact balance
    · rcases List.mem_cons.mp member with rfl | old
      · exact fits
      · exact fit t old

theorem Backed.lease {wanted : Nat} (orderly : p.Orderly n (.waiting ticket wanted :: xs))
    (backed : p.Backed (.waiting ticket wanted :: xs))
    (complete : p.permits.isComplete ticket = true) :
    (p.lease ticket wanted).Backed (.empty ticket wanted :: xs) where
  prompt := backed.prompt.collect ticket
  books := by
    intro opened
    obtain ⟨terms, balance, fits⟩ := backed.books opened
    have single : (p.permits.terms.map Prod.fst).Nodup :=
      (terms.map _).nodup_iff.mpr ((Stance.termsTickets _).nodup orderly.single)
    have named : (ticket, wanted) ∈ p.permits.terms := terms.mem_iff.mpr List.mem_cons_self
    have stock := Permits.collectStock single named complete backed.prompt.full
    have left := (Permits.collectTerms single named complete).symm.trans terms
    refine ⟨left.cons_inv, ?_, fun t member => fits t (List.mem_cons_of_mem _ member)⟩
    rw [permitsOf] at balance ⊢
    simp only [Pool.lease, List.flatMap_cons, Stance.leases, List.nil_append, List.map_append,
      List.sum_append, List.map_cons, List.map_nil, List.sum_cons, List.sum_nil] at balance ⊢
    omega

theorem Backed.giveBack (backed : p.Backed xs) (held : permitsOf ys + permits = permitsOf xs)
    (terms : ys.flatMap Stance.terms = xs.flatMap Stance.terms)
    (back : q.permits = p.permits.giveBack permits) (capacity : q.capacity = p.capacity) :
    q.Backed ys where
  prompt := back ▸ backed.prompt.giveBack permits
  books := by
    rw [back, Permits.giveBackClosed, capacity, terms, Permits.giveBackStock]
    intro opened
    obtain ⟨same, balance, fits⟩ := backed.books opened
    exact ⟨(Permits.giveBackTerms ..).trans same, by omega, fits⟩

theorem Backed.grow (backed : p.Backed xs) (m : Nat) : (p.grow m).Backed xs := by
  unfold Pool.grow
  split
  · exact backed
  · refine ⟨backed.prompt.giveBack m, fun opened => ?_⟩
    obtain ⟨terms, balance, fits⟩ := backed.books ((Permits.giveBackClosed ..).symm.trans opened)
    refine ⟨(Permits.giveBackTerms ..).trans terms, ?_,
      fun t member => Nat.le_add_right_of_le (fits t member)⟩
    rw [Permits.giveBackStock]
    show p.permits.stock + m + permitsOf xs = p.capacity + m
    omega

theorem freeTickets (p : Pool) (ticket : Nat) :
    (p.free ticket).tickets = p.tickets ∧ (p.free ticket).capacity = p.capacity := by
  unfold free
  split <;> exact ⟨rfl, rfl⟩

theorem putBackTickets (p : Pool) (ticket : Nat) : (p.putBack ticket).permits = p.permits ∧
    (p.putBack ticket).tickets = p.tickets ∧ (p.putBack ticket).capacity = p.capacity := by
  unfold putBack
  split <;> exact ⟨rfl, rfl, rfl⟩

theorem forgetTickets (p : Pool) (ticket : Nat) :
    (p.forget ticket).tickets = p.tickets ∧ (p.forget ticket).capacity = p.capacity := by
  obtain ⟨-, tickets, capacity⟩ := p.putBackTickets ticket
  obtain ⟨tickets', capacity'⟩ := (p.putBack ticket).freeTickets ticket
  exact ⟨tickets'.trans tickets, capacity'.trans capacity⟩

theorem freePrompt (prompt : p.permits.Prompt) (ticket : Nat) : (p.free ticket).permits.Prompt := by
  unfold free
  split
  · exact prompt.giveBack _
  · exact prompt

theorem forgetPrompt (prompt : p.permits.Prompt) (ticket : Nat) :
    (p.forget ticket).permits.Prompt := by
  have put : (p.putBack ticket).permits.Prompt := (p.putBackTickets ticket).1 ▸ prompt
  exact (freePrompt put ticket).withdraw ticket

theorem Backed.forget (orderly : p.Orderly n (x :: xs)) (backed : p.Backed (x :: xs))
    (own : x.tickets = [ticket]) : (p.forget ticket).Backed xs where
  prompt := forgetPrompt backed.prompt ticket
  books := by
    intro opened
    rw [(p.forgetAlike ticket).closed] at opened
    obtain ⟨terms, balance, fits⟩ := backed.books opened
    obtain ⟨-, stock, left, -⟩ := orderly.forget own
    have others : ((x :: xs).flatMap Stance.terms).filter (fun t => t.1 ≠ ticket) =
        xs.flatMap Stance.terms := by
      have mine : x.terms.filter (fun t => t.1 ≠ ticket) = [] := by
        rcases x with _ | _ | ⟨_ | _⟩ | _ | _ | _ | _ <;> simp_all [Stance.terms, Stance.tickets]
      rw [List.flatMap_cons, List.filter_append, mine, List.nil_append]
      refine List.filter_eq_self.mpr fun t member => ?_
      have differs : t.1 ≠ ticket := fun same => orderly.stranger own
        (same ▸ (Stance.termsTickets xs).subset (List.mem_map_of_mem member))
      simpa using differs
    refine ⟨left.trans ((terms.filter _).trans (.of_eq others)), ?_, ?_⟩
    · rw [stock, (p.forgetTickets ticket).2, ← balance, permitsOf, permitsOf, List.flatMap_cons,
        List.map_append, List.sum_append, Nat.add_assoc]
    · rw [(p.forgetTickets ticket).2]
      exact fun t member => fits t (List.mem_append_right _ member)

theorem Orderly.retire (orderly : p.Orderly n xs) (fresh : ticket ∉ xs.flatMap Stance.tickets)
    (issued : ticket < p.tickets) : p.Orderly n (.gone ticket :: xs) where
  leases := orderly.leases
  single := List.nodup_cons.mpr ⟨fresh, orderly.single⟩
  issued := by
    intro t member
    rcases List.mem_cons.mp member with rfl | old
    · exact issued
    · exact orderly.issued t old
  seating := by
    intro y member l among same
    rcases List.mem_cons.mp member with rfl | old
    · trivial
    · exact orderly.seating y old l among same
  apart := orderly.apart
  known := orderly.known

end Pool

section Solvent
variable {s s' : Site W V} {issued ticket : Nat} {x : Stance} {xs ys zs : List Stance}

structure Site.Solvent (issued : Nat) (s : Site W V) (xs : List Stance) : Prop where
  orderly : s.Orderly xs
  backed : s.pool.Backed xs
  room : 0 < s.pool.capacity
  issued : issued ≤ s.pool.tickets

namespace Site.Solvent

theorem perm (solvent : s.Solvent issued xs) (same : xs.Perm ys) : s.Solvent issued ys :=
  { solvent with orderly := solvent.orderly.perm same, backed := solvent.backed.perm same }

theorem more (solvent : s.Solvent issued xs) (pool : s'.pool = s.pool)
    (seats : s.crew.seats.size ≤ s'.crew.seats.size) : s'.Solvent issued xs where
  orderly := solvent.orderly.more pool seats
  backed := pool ▸ solvent.backed
  room := pool ▸ solvent.room
  issued := pool ▸ solvent.issued

theorem still (solvent : s.Solvent issued xs) (orderly : s'.Orderly ys)
    (permits : s'.pool.permits = s.pool.permits) (capacity : s'.pool.capacity = s.pool.capacity)
    (tickets : s'.pool.tickets = s.pool.tickets)
    (terms : ys.flatMap Stance.terms = xs.flatMap Stance.terms) (held : permitsOf ys = permitsOf xs) :
    s'.Solvent issued ys where
  orderly := orderly
  backed := solvent.backed.still permits capacity terms held
  room := capacity ▸ solvent.room
  issued := tickets ▸ solvent.issued

theorem grow (solvent : s.Solvent issued xs) (m : Nat) :
    (s.withPool (·.grow m)).Solvent issued xs := by
  have same : (s.pool.grow m).leases = s.pool.leases ∧ (s.pool.grow m).tickets = s.pool.tickets ∧
      (s.pool.grow m).idle = s.pool.idle ∧ s.pool.capacity ≤ (s.pool.grow m).capacity := by
    unfold Pool.grow
    split
    · exact ⟨rfl, rfl, rfl, Nat.le_refl _⟩
    · exact ⟨rfl, rfl, rfl, Nat.le_add_right _ _⟩
  obtain ⟨leases, tickets, idle, capacity⟩ := same
  exact ⟨Pool.Orderly.like solvent.orderly leases (Nat.le_of_eq tickets.symm)
    (idle ▸ List.Sublist.refl _), solvent.backed.grow m, Nat.lt_of_lt_of_le solvent.room capacity,
    Nat.le_trans solvent.issued (Nat.le_of_eq tickets.symm)⟩

theorem drop (solvent : s.Solvent issued (ys ++ xs)) (none : ys.flatMap Stance.tickets = []) :
    s.Solvent issued xs := by
  obtain ⟨orderly, leases, -⟩ := Pool.Orderly.dropAll solvent.orderly none
  have terms : ys.flatMap Stance.terms = [] := by
    have fewer := Stance.termsTickets ys
    rw [none] at fewer
    exact List.map_eq_nil_iff.mp (List.sublist_nil.mp fewer)
  have held : permitsOf ys = 0 := by
    rw [permitsOf, leases]
    rfl
  refine solvent.still orderly rfl rfl rfl ?_ ?_
  · rw [List.flatMap_append, terms, List.nil_append]
  · rw [permitsAppend, held, Nat.zero_add]

theorem forget (solvent : s.Solvent issued (x :: xs)) (own : x.tickets = [ticket]) :
    (s.withPool (·.forget ticket)).Solvent issued xs where
  orderly := (Pool.Orderly.forget solvent.orderly own).1
  backed := solvent.backed.forget solvent.orderly own
  room := (s.pool.forgetTickets ticket).2.symm ▸ solvent.room
  issued := (s.pool.forgetTickets ticket).1.symm ▸ solvent.issued

theorem vacate {tickets : List Nat} (solvent : s.Solvent issued (ys ++ xs))
    (same : (ys.flatMap Stance.tickets).Perm tickets) (tokens : List Nat) :
    (s.vacate tickets tokens).Solvent issued xs := by
  suffices left : (s.withPool fun p => tickets.foldl Pool.forget p).Solvent issued xs from
    left.more rfl (Nat.le_of_eq (by rw [Site.vacate, Crew.abandonAllSeats]; rfl))
  induction tickets generalizing s ys with
  | nil => exact solvent.drop same.eq_nil
  | cons ticket rest ih =>
    obtain ⟨y, member, among⟩ := List.mem_flatMap.mp (same.mem_iff.mpr List.mem_cons_self)
    have own : y.tickets = [ticket] := by
      rcases y with _ | _ | ⟨_ | _⟩ | _ | _ | _ | _ <;> simp_all [Stance.tickets]
    obtain ⟨before, after, rfl⟩ := List.append_of_mem member
    have front : (before ++ y :: after).Perm (y :: (before ++ after)) := List.perm_middle
    have others := (front.flatMap_right Stance.tickets).symm.trans same
    rw [List.flatMap_cons, own] at others
    exact ih ((solvent.perm (front.append_right xs)).forget own) others.cons_inv

theorem retire (solvent : s.Solvent issued xs) (fresh : ticket ∉ xs.flatMap Stance.tickets)
    (old : ticket < issued) : s.Solvent issued (.gone ticket :: xs) :=
  solvent.still (Pool.Orderly.retire solvent.orderly fresh (Nat.lt_of_lt_of_le old solvent.issued))
    rfl rfl rfl rfl rfl

end Site.Solvent

def Site.Leaving (issued : Nat) (tickets : List Nat) (xs : List Stance) (s : Site W V) : Prop :=
  ∃ ys, (ys.flatMap Stance.tickets).Perm tickets ∧ s.Solvent issued (ys ++ xs)

theorem Site.Solvent.leaving (before : s.Orderly (ys ++ xs))
    (after : s'.Solvent s.pool.tickets (zs ++ xs))
    (fewer : (zs.flatMap Stance.tickets).Subperm (ys.flatMap Stance.tickets)) :
    s'.Leaving s.pool.tickets (ys.flatMap Stance.tickets) xs := by
  obtain ⟨kept, same, sublist⟩ := fewer
  obtain ⟨spent, all⟩ := sublist.exists_perm_append
  replace all := all.trans (same.append_right spent)
  have single := before.single
  rw [List.flatMap_append] at single
  have apart : ∀ t ∈ ys.flatMap Stance.tickets, t ∉ xs.flatMap Stance.tickets := fun t own other =>
    (List.disjoint_of_nodup_append single) own other
  have old : ∀ t ∈ ys.flatMap Stance.tickets, t < s.pool.tickets := fun t own =>
    before.issued t (by rw [List.flatMap_append]; exact List.mem_append_left _ own)
  have distinct := all.nodup_iff.mp (List.nodup_append.mp single).1
  suffices more : ∀ gone : List Nat, gone ⊆ spent → gone.Nodup →
      s'.Solvent s.pool.tickets (gone.map .gone ++ (zs ++ xs)) by
    have whole := more spent (List.Subset.refl _) (List.nodup_append.mp distinct).2.1
    refine ⟨spent.map .gone ++ zs, ?_, by rwa [List.append_assoc]⟩
    have tickets : (spent.map Stance.gone).flatMap Stance.tickets = spent := by
      rw [List.flatMap_map]
      exact List.flatMap_singleton' spent
    rw [List.flatMap_append, tickets]
    exact List.perm_append_comm.trans all.symm
  intro gone among single
  induction gone with
  | nil => exact after
  | cons t rest ih =>
    obtain ⟨absent, later⟩ := List.nodup_cons.mp single
    have here : t ∈ spent := among List.mem_cons_self
    have own : t ∈ ys.flatMap Stance.tickets := all.mem_iff.mpr (List.mem_append_right _ here)
    refine (ih (fun u member => among (List.mem_cons_of_mem t member)) later).retire ?_ (old t own)
    intro used
    rw [List.flatMap_append, List.flatMap_append, List.flatMap_map] at used
    rcases List.mem_append.mp used with dead | live
    · exact absent (by simpa [Stance.tickets] using dead)
    · rcases List.mem_append.mp live with kept | other
      · exact (List.disjoint_of_nodup_append distinct) kept here
      · exact apart t own other

end Solvent

section Moves
variable {s s' : Site W V} {issued ticket : Nat} {xs ys : List Stance}

theorem Creation.movesPermits {holder : Option Nat} {c : Creation W}
    {n : Next (Creation W) (Except PoolError Nat)} (move : (s', n) ∈ Creation.moves holder c s) :
    s'.pool.permits = s.pool.permits ∧ s'.pool.capacity = s.pool.capacity ∧
      s'.pool.tickets = s.pool.tickets := by
  let Steady (u : Site W V) : Prop := u.pool.permits = s.pool.permits ∧
    u.pool.capacity = s.pool.capacity ∧ u.pool.tickets = s.pool.tickets
  have called {call : Calling W} {u : Site W V} {o} (inner : (u, o) ∈ callMoves call s) :
      Steady u := by
    obtain ⟨v, -, rfl⟩ := Machine.onCases inner
    exact ⟨rfl, rfl, rfl⟩
  cases c with
  | hiring =>
    obtain ⟨rfl, rfl⟩ := memStep.mp move
    exact ⟨rfl, rfl, rfl⟩
  | starting seat call =>
    exact Machine.withinState Steady move (fun _ _ => called) fun r u same => by cases r <;> exact same
  | clearing cause call =>
    exact Machine.withinState Steady move (fun _ _ => called) fun r u same => by cases r <;> exact same
  | enrolling seat =>
    obtain ⟨rfl, rfl⟩ := memFinish.mp move
    cases holder <;> exact ⟨rfl, rfl, rfl⟩

theorem Acquisition.movesSolvent {a : Acquisition W}
    {n : Next (Acquisition W) (Except PoolError (Nat × Nat))}
    (solvent : s.Solvent issued (a.stances ++ xs)) (move : (s', n) ∈ Acquisition.moves a s) :
    s'.Solvent issued (n.elim stances got a.stances ++ xs) := by
  have orderly := Acquisition.movesOrderly solvent.orderly move
  cases a with
  | asking =>
    obtain ⟨rfl, rfl⟩ := memStep.mp move
    exact ⟨orderly, solvent.backed.claim solvent.room, solvent.room,
      Nat.le_succ_of_le solvent.issued⟩
  | waiting ticket =>
    simp only [Acquisition.moves] at move
    split at move
    · obtain ⟨rfl, rfl⟩ := memFinish.mp move
      exact solvent.forget rfl
    · split at move
      · next complete =>
        obtain ⟨rfl, rfl⟩ := memStep.mp move
        exact ⟨orderly, solvent.backed.lease solvent.orderly complete, solvent.room, solvent.issued⟩
      · cases move
  | choosing ticket =>
    simp only [Acquisition.moves] at move
    split at move
    · next pool seat found =>
      obtain ⟨rfl, rfl⟩ := memFinish.mp move
      unfold Pool.seatIdle at found
      split at found
      · cases found
      · cases found
        exact solvent.still orderly rfl rfl rfl rfl rfl
    · obtain ⟨rfl, rfl⟩ := memStep.mp move
      exact solvent.still orderly rfl rfl rfl rfl rfl
  | creating ticket c =>
    have making (c : Creation W) : (c.stance (some ticket)).terms = [] ∧
        permitsOf [c.stance (some ticket)] = 1 := by
      cases c <;> exact ⟨rfl, rfl⟩
    have parts {ys : List Stance} (terms : ys.flatMap Stance.terms = [])
        (held : permitsOf ys = 1) (permits : s'.pool.permits = s.pool.permits)
        (capacity : s'.pool.capacity = s.pool.capacity) (tickets : s'.pool.tickets = s.pool.tickets)
        (orderly : s'.Orderly (ys ++ xs)) : s'.Solvent issued (ys ++ xs) := by
      refine solvent.still orderly permits capacity tickets ?_ ?_
      · rw [List.flatMap_append, terms]
        exact (congrArg (· ++ _) (making c).1).symm
      · rw [permitsAppend, held]
        exact (congrArg (· + permitsOf xs) (making c).2).symm.trans (permitsAppend _ xs).symm
    have made (d : Creation W) : [d.stance (some ticket)].flatMap Stance.terms = [] :=
      (List.flatMap_singleton ..).trans (making d).1
    rcases Machine.withinCases move with ⟨d, inner, rfl⟩ | ⟨u, r, inner, same⟩ | ⟨inner, rfl⟩
    · obtain ⟨permits, capacity, tickets⟩ := Creation.movesPermits inner
      exact parts (made d) (making d).2 permits capacity tickets orderly
    · obtain ⟨permits, capacity, tickets⟩ := Creation.movesPermits inner
      cases r <;> cases same <;> exact parts rfl rfl permits capacity tickets orderly
    · obtain ⟨permits, capacity, tickets⟩ := Creation.movesPermits inner
      exact parts (made c) (making c).2 permits capacity tickets orderly
  | failing ticket cause =>
    obtain ⟨rfl, rfl⟩ := memFinish.mp move
    have freed := (Pool.Orderly.free solvent.orderly).2.2
    obtain ⟨tickets, capacity⟩ := s.pool.freeTickets ticket
    exact ⟨orderly, solvent.backed.giveBack (Nat.add_comm _ _) rfl freed capacity,
      capacity.symm ▸ solvent.room, tickets.symm ▸ solvent.issued⟩

theorem Release.movesSolvent {r : Release} {n : Next Release Unit}
    (solvent : s.Solvent issued (r.stance ticket :: xs)) (move : (s', n) ∈ Release.moves ticket r s) :
    s'.Solvent issued (n.elim (fun r => [r.stance ticket]) (fun _ => []) [] ++ xs) := by
  have orderly := Release.movesOrderly solvent.orderly move
  cases r with
  | puttingBack =>
    obtain ⟨rfl, rfl⟩ := memStep.mp move
    obtain ⟨permits, tickets, capacity⟩ := s.pool.putBackTickets ticket
    exact solvent.still orderly permits capacity tickets rfl rfl
  | freeing =>
    obtain ⟨rfl, rfl⟩ := memFinish.mp move
    have freed := (Pool.Orderly.free solvent.orderly).2.2
    obtain ⟨tickets, capacity⟩ := s.pool.freeTickets ticket
    exact ⟨orderly, solvent.backed.giveBack (Nat.add_comm _ _) rfl freed capacity,
      capacity.symm ▸ solvent.room, tickets.symm ▸ solvent.issued⟩

theorem solventBooks (issued : Nat) :
    Bookkeeping (fun _ => True) (Site.Solvent issued : Site W V → List Stance → Prop) where
  own := fun _ _ => trivial
  perm := Site.Solvent.perm
  more := Site.Solvent.more
  acquires := fun _ => Acquisition.movesSolvent
  leaves := fun solvent => solvent.still
    (solvent.orderly.recast rfl rfl (List.Sublist.refl _) fun _ _ => trivial) rfl rfl rfl rfl rfl
  releases := Release.movesSolvent

theorem Filling.movesSolvent {f : Filling W} {n : Next (Filling W) (Except PoolError Unit)}
    (solvent : s.Solvent issued (f.stances ++ xs)) (move : (s', n) ∈ Filling.moves f s) :
    ∃ ys, ys.flatMap Stance.tickets = [] ∧ s'.Solvent issued (ys ++ xs) ∧
      ∀ g, n = .go g → ys = g.stances := by
  obtain ⟨ys, none, orderly, same⟩ := Filling.movesOrderly solvent.orderly move
  have others := solvent.drop f.ticketsNone
  have permits : s'.pool.permits = s.pool.permits ∧ s'.pool.capacity = s.pool.capacity ∧
      s'.pool.tickets = s.pool.tickets := by
    rcases movesCases move with ⟨-, rfl, -⟩ | ⟨-, -, rfl, -⟩ | ⟨seats, -, rfl, -⟩ |
      ⟨before, c, rest, o, -, moved, -⟩
    · exact ⟨rfl, rfl, rfl⟩
    · exact ⟨rfl, rfl, rfl⟩
    · exact ⟨rfl, rfl, rfl⟩
    · exact Creation.movesPermits moved
  obtain ⟨-, leases, -⟩ := Pool.Orderly.dropAll orderly none
  have terms : ys.flatMap Stance.terms = [] := by
    have fewer := Stance.termsTickets ys
    rw [none] at fewer
    exact List.map_eq_nil_iff.mp (List.sublist_nil.mp fewer)
  refine ⟨ys, none, others.still orderly permits.1 permits.2.1 permits.2.2 ?_ ?_, same⟩
  · rw [List.flatMap_append, terms, List.nil_append]
  · rw [permitsAppend, permitsOf, leases]
    exact Nat.zero_add _

theorem Disposal.movesSolvent {d : Disposal W} {n : Next (Disposal W) (Except WorkerError Unit)}
    (stands : d.Stands ys) (solvent : s.Solvent issued (ys ++ xs))
    (move : (s', n) ∈ Disposal.moves d s) :
    n.elim (fun e => ∃ zs, e.Stands zs ∧ s'.Solvent issued (zs ++ xs))
      (fun _ => d.tickets = [] ∧ s'.Solvent issued xs) (d.tickets = [] ∧ s'.Solvent issued xs) := by
  cases d with
  | asking =>
    cases stands
    simp only [Disposal.moves] at move
    split at move
    · obtain ⟨rfl, rfl⟩ := memFinish.mp move
      exact ⟨rfl, solvent⟩
    · obtain ⟨rfl, rfl⟩ := memStep.mp move
      exact ⟨_, rfl, Pool.Orderly.claim solvent.orderly _,
        solvent.backed.claim (Nat.min_le_left _ _), solvent.room, Nat.le_succ_of_le solvent.issued⟩
  | waiting ticket wanted =>
    cases stands
    simp only [Disposal.moves] at move
    split at move
    · next closed =>
      obtain ⟨rfl, rfl⟩ := memStep.mp move
      refine ⟨_, .inl rfl, Pool.Orderly.recast solvent.orderly rfl rfl (List.Sublist.refl _)
        fun _ _ => trivial, ⟨solvent.backed.prompt, fun opened => ?_⟩, solvent.room, solvent.issued⟩
      rw [Pool.isDisposed, opened] at closed
      cases closed
    · split at move
      · next complete =>
        obtain ⟨rfl, rfl⟩ := memStep.mp move
        exact ⟨_, .inr ⟨wanted, rfl⟩, Pool.Orderly.lease solvent.orderly,
          solvent.backed.lease solvent.orderly complete, solvent.room, solvent.issued⟩
      · cases move
  | closing ticket =>
    obtain ⟨rfl, rfl⟩ := memStep.mp move
    exact ⟨ys, stands, Pool.Orderly.like solvent.orderly rfl (Nat.le_refl _) (List.Sublist.refl _),
      ⟨Permits.closePrompt _, fun opened => by cases opened⟩, solvent.room, solvent.issued⟩
  | freeing ticket =>
    obtain ⟨rfl, rfl⟩ := memStep.mp move
    refine ⟨[], rfl, ?_⟩
    rcases stands with rfl | ⟨wanted, rfl⟩
    · have none : s.pool.leaseOf ticket = none := List.find?_eq_none.mpr fun l member => by
        simpa using Pool.Orderly.noLease solvent.orderly rfl rfl l member
      have same : s.pool.free ticket = s.pool := by simp only [Pool.free, none]
      rw [Site.withPool, same]
      exact solvent.still (Pool.Orderly.drop solvent.orderly rfl) rfl rfl rfl rfl rfl
    · obtain ⟨orderly, -, freed⟩ := Pool.Orderly.free solvent.orderly
      obtain ⟨tickets, capacity⟩ := s.pool.freeTickets ticket
      exact ⟨orderly.drop rfl, solvent.backed.giveBack (Nat.add_comm _ _) rfl freed capacity,
        capacity.symm ▸ solvent.room, tickets.symm ▸ solvent.issued⟩
  | clearing =>
    cases stands
    obtain ⟨rfl, rfl⟩ := memStep.mp move
    exact ⟨[], rfl, solvent.still
      (Pool.Orderly.like solvent.orderly rfl (Nat.le_refl _) (List.nil_sublist _)) rfl rfl rfl rfl rfl⟩
  | disposing call rest first =>
    cases stands
    obtain ⟨pool, seats, goes⟩ := disposingCases move
    have after : s'.Solvent issued xs :=
      solvent.more pool (Nat.le_of_eq (congrArg Array.size seats.symm))
    cases n with
    | go e =>
      obtain ⟨c, r, f, rfl⟩ := goes e rfl
      exact ⟨[], rfl, after⟩
    | done r => exact ⟨rfl, after⟩
    | panicked => exact ⟨rfl, after⟩

theorem Site.Solvent.idle (solvent : s.Solvent issued xs) (opened : s.pool.isDisposed = false)
    (waits : ∀ x ∈ xs, ∃ ticket wanted, x = .waiting ticket wanted ∧
      s.pool.permits.isComplete ticket = false) : xs = [] := by
  obtain ⟨terms, balance, fits⟩ := solvent.backed.books opened
  have none : permitsOf xs = 0 := by
    have leases : xs.flatMap Stance.leases = [] := List.flatMap_eq_nil_iff.mpr fun x member => by
      obtain ⟨ticket, wanted, rfl, -⟩ := waits x member
      rfl
    rw [permitsOf, leases]
    rfl
  have complete : s.pool.permits.complete = [] := by
    refine List.eq_nil_iff_forall_not_mem.mpr fun c member => ?_
    have claimed : c.terms ∈ xs.flatMap Stance.terms :=
      terms.mem_iff.mp (List.mem_map_of_mem (List.mem_append_right _ member))
    obtain ⟨x, among, own⟩ := List.mem_flatMap.mp claimed
    obtain ⟨ticket, wanted, rfl, open'⟩ := waits x among
    have same : c.ticket = ticket := congrArg Prod.fst (List.mem_singleton.mp own)
    have done : s.pool.permits.isComplete ticket = true :=
      List.any_eq_true.mpr ⟨c, member, by simpa using same⟩
    rw [open'] at done
    cases done
  have waiting := solvent.backed.prompt.served complete fun t member => by
    have fit := fits t (terms.mem_iff.mp member)
    omega
  have none : xs.flatMap Stance.terms = [] := by
    rw [Permits.terms, waiting, complete] at terms
    exact terms.symm.eq_nil
  refine List.eq_nil_iff_forall_not_mem.mpr fun x member => ?_
  obtain ⟨ticket, wanted, rfl, -⟩ := waits x member
  have empty := List.flatMap_eq_nil_iff.mp none _ member
  cases empty

end Moves

end MutationPipeline
