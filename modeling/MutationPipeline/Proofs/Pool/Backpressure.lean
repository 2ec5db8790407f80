import Mathlib.Algebra.Order.BigOperators.Group.List
import Mathlib.Algebra.Order.Group.Nat
import MutationPipeline.Proofs.Pool.Courses
import MutationPipeline.Proofs.Pool.Waiting

/-!
How far a stream of items gets ahead of its results. An item is taken before there is a worker for
it, so beside those with a worker, of which there are no more than the pool has permits, one item may
wait for its own; and those that were refused a worker wait for nobody.
-/
namespace MutationPipeline
variable {W V σ α β φ ψ ρ υ : Type}

theorem sumWithout {γ : Type} {xs : List γ} {x : γ} {keep : γ → Bool} (f : γ → Nat)
    (member : x ∈ xs) (out : keep x = false) :
    ((xs.filter keep).map f).sum + f x ≤ (xs.map f).sum := by
  obtain ⟨before, after, rfl⟩ := List.append_of_mem member
  have fewer (part : List γ) : ((part.filter keep).map f).sum ≤ (part.map f).sum :=
    (List.filter_sublist.map f).sum_le_sum fun _ _ => Nat.zero_le _
  have front := fewer before
  have back := fewer after
  rw [List.filter_append, List.filter_cons_of_neg (by simp [out])]
  simp only [List.map_append, List.map_cons, List.sum_append, List.sum_cons]
  omega

namespace Pool
variable {p q r : Pool} {ticket n : Nat}

def held (p : Pool) : Nat := (p.leases.map (·.permits)).sum

structure Covered (p : Pool) : Prop where
  full : p.permits.Full
  issued : ∀ t ∈ p.permits.terms, t.1 < p.tickets
  within : p.permits.stock + p.held ≤ p.capacity

def Claimed (p : Pool) (t : Nat × Nat) : Prop :=
  t.1 < p.tickets ∧ ∀ other ∈ p.permits.terms, other.1 = t.1 → other.2 = t.2

structure Steady (p q : Pool) : Prop where
  covered : p.Covered → q.Covered
  claimed : ∀ t, p.Claimed t → q.Claimed t

theorem Steady.refl (p : Pool) : p.Steady p := ⟨id, fun _ => id⟩

theorem Steady.trans (first : p.Steady q) (second : q.Steady r) : p.Steady r :=
  ⟨second.covered ∘ first.covered, fun t => second.claimed t ∘ first.claimed t⟩

theorem steadyOf (full : p.permits.Full → q.permits.Full) (terms : q.permits.terms ⊆ p.permits.terms)
    (tickets : q.tickets = p.tickets)
    (within : p.permits.stock + p.held ≤ p.capacity → q.permits.stock + q.held ≤ q.capacity) :
    p.Steady q where
  covered covered :=
    ⟨full covered.full, fun t member => tickets ▸ covered.issued t (terms member),
      within covered.within⟩
  claimed := fun _ claimed =>
    ⟨tickets ▸ claimed.1, fun other member => claimed.2 other (terms member)⟩

theorem steadySame (permits : q.permits = p.permits) (tickets : q.tickets = p.tickets)
    (capacity : q.capacity = p.capacity) (held : q.held = p.held) : p.Steady q :=
  steadyOf (permits ▸ id) (permits ▸ List.Subset.refl _) tickets
    (by rw [permits, capacity, held]; exact id)

theorem seatSteady (p : Pool) (ticket seat : Nat) : p.Steady (p.seat ticket seat) := by
  refine steadySame rfl rfl rfl ?_
  rw [held, held, Pool.seat, List.map_map]
  refine congrArg List.sum (List.map_congr_left fun l _ => ?_)
  simp only [Function.comp_apply]
  split <;> rfl

theorem putBackSteady (p : Pool) (ticket : Nat) : p.Steady (p.putBack ticket) := by
  unfold putBack
  split
  · refine steadySame rfl rfl rfl ?_
    simp only [held, List.map_map]
    refine congrArg List.sum (List.map_congr_left fun l _ => ?_)
    simp only [Function.comp_apply]
    split <;> rfl
  · exact .refl p

theorem freeSteady (p : Pool) (ticket : Nat) : p.Steady (p.free ticket) := by
  unfold free
  split
  · next l found =>
    have own : l.ticket = ticket := by simpa using List.find?_some found
    have less : ((p.leases.filter fun l => l.ticket ≠ ticket).map (·.permits)).sum + l.permits ≤
        p.held := sumWithout _ (List.mem_of_find?_eq_some found) (by simp [own])
    refine steadyOf (fun full => Permits.giveBackFull full _) (Permits.giveBackTerms ..).subset rfl
      fun within => ?_
    rw [Permits.giveBackStock]
    simp only [held] at less within ⊢
    omega
  · exact .refl p

theorem forgetSteady (p : Pool) (ticket : Nat) : p.Steady (p.forget ticket) := by
  refine ((p.putBackSteady ticket).trans (freeSteady _ ticket)).trans ?_
  refine steadyOf (fun full => Permits.withdrawFull full ticket) ?_ rfl fun within => ?_
  · exact fun t member => (List.mem_filter.mp ((Permits.withdrawTerms ..).subset member)).1
  · have stock := Permits.withdrawStock ((p.putBack ticket).free ticket).permits ticket
    exact stock.symm ▸ within

theorem forgetAllSteady (p : Pool) (tickets : List Nat) : p.Steady (tickets.foldl forget p) := by
  induction tickets generalizing p with
  | nil => exact .refl p
  | cons ticket rest ih => exact (p.forgetSteady ticket).trans (ih _)

theorem closeSteady (p : Pool) : p.Steady p.close := by
  refine steadyOf (fun _ _ member => by cases member) (List.nil_subset _) rfl fun within => ?_
  refine Nat.le_trans (Nat.add_le_add_right ?_ _) within
  exact Nat.le_add_right _ _

theorem growSteady (p : Pool) (n : Nat) : p.Steady (p.grow n) := by
  unfold grow
  split
  · exact .refl p
  · refine steadyOf (fun full => Permits.giveBackFull full n) (Permits.giveBackTerms ..).subset rfl
      fun within => ?_
    rw [Permits.giveBackStock]
    show p.permits.stock + n + p.held ≤ p.capacity + n
    omega

theorem claimSteady (p : Pool) (wanted : Nat) : p.Steady (p.claim wanted).1 ∧
    (p.Covered → (p.claim wanted).1.Claimed (p.tickets, wanted)) := by
  have terms : (p.claim wanted).1.permits.terms ⊆ (p.tickets, wanted) :: p.permits.terms := by
    unfold claim
    split
    · exact List.subset_cons_self _ _
    · exact (Permits.claimTerms ..).subset
  refine ⟨⟨fun covered => ⟨?_, fun t member => ?_, ?_⟩, fun t claimed => ?_⟩, fun covered => ?_⟩
  · unfold claim
    split
    · exact covered.full
    · exact Permits.claimFull covered.full
  · rcases List.mem_cons.mp (terms member) with rfl | old
    · exact Nat.lt_succ_self _
    · exact Nat.lt_succ_of_lt (covered.issued t old)
  · have stock : (p.claim wanted).1.permits.stock = p.permits.stock := by
      unfold claim
      split
      · rfl
      · exact Permits.claimStock ..
    rw [stock]
    exact covered.within
  · refine ⟨Nat.lt_succ_of_lt claimed.1, fun other member same => ?_⟩
    rcases List.mem_cons.mp (terms member) with rfl | old
    · exact absurd same.symm (Nat.ne_of_lt claimed.1)
    · exact claimed.2 other old same
  · refine ⟨Nat.lt_succ_self _, fun other member same => ?_⟩
    rcases List.mem_cons.mp (terms member) with rfl | old
    · rfl
    · exact absurd same (Nat.ne_of_lt (covered.issued other old))

theorem leaseSteady (claimed : p.Claimed (ticket, n)) (complete : p.permits.isComplete ticket = true) :
    p.Steady (p.lease ticket n) := by
  obtain ⟨c, member, own⟩ := Permits.ticketComplete complete
  have terms : (p.lease ticket n).permits.terms ⊆ p.permits.terms :=
    (List.Sublist.map _ (List.filter_sublist.append_left _)).subset
  have wanted : c.wanted = n :=
    claimed.2 c.terms (List.mem_map_of_mem (List.mem_append_right _ member)) own
  refine ⟨fun covered => ⟨fun d among => covered.full d (List.mem_of_mem_filter among),
    fun t among => covered.issued t (terms among), ?_⟩,
    fun t known => ⟨known.1, fun other among => known.2 other (terms among)⟩⟩
  have less : ((p.permits.complete.filter fun c => c.ticket ≠ ticket).map (·.got)).sum + c.got ≤
      (p.permits.complete.map (·.got)).sum := sumWithout _ member (by simp [own])
  have within := covered.within
  rw [covered.full c member, wanted] at less
  simp only [Permits.stock, held, lease, Permits.collect, List.map_append, List.sum_append,
    List.map_cons, List.sum_cons, List.map_nil, List.sum_nil] at within ⊢
  omega

theorem freshCovered (capacity : Nat) : (ofCapacity capacity).Covered :=
  ⟨fun _ member => absurd member List.not_mem_nil, fun _ member => absurd member List.not_mem_nil,
    Nat.le_refl _⟩

end Pool

theorem Stance.noTerms {xs : List Stance} (none : xs.flatMap Stance.tickets = []) :
    xs.flatMap Stance.terms = [] := by
  have fewer := Stance.termsTickets xs
  rw [none] at fewer
  exact List.map_eq_nil_iff.mp (List.sublist_nil.mp fewer)

section Moves
variable {s s' : Site W V} {p : Pool} {ticket : Nat} {xs ys : List Stance}

structure Site.Covered (p : Pool) (s : Site W V) (xs : List Stance) : Prop where
  steady : p.Steady s.pool
  covered : s.pool.Covered
  claimed : ∀ t ∈ xs.flatMap Stance.terms, s.pool.Claimed t

namespace Site.Covered

theorem goes (covered : s.Covered p xs) (steady : s.pool.Steady s'.pool)
    (fewer : ys.flatMap Stance.terms ⊆ xs.flatMap Stance.terms) : s'.Covered p ys where
  steady := covered.steady.trans steady
  covered := steady.covered covered.covered
  claimed := fun t member => steady.claimed t (covered.claimed t (fewer member))

theorem fewer (covered : s.Covered p xs) (fewer : ys.flatMap Stance.terms ⊆ xs.flatMap Stance.terms) :
    s.Covered p ys :=
  covered.goes (.refl s.pool) fewer

theorem claim (covered : s.Covered p xs) (wanted : Nat) :
    ({ s with pool := (s.pool.claim wanted).1 } : Site W V).Covered p
      (.waiting s.pool.tickets wanted :: xs) := by
  obtain ⟨steady, own⟩ := s.pool.claimSteady wanted
  have after : Site.Covered p { s with pool := (s.pool.claim wanted).1 } xs :=
    covered.goes steady (List.Subset.refl _)
  refine { after with claimed := fun t member => ?_ }
  rcases List.mem_cons.mp member with rfl | other
  · exact own covered.covered
  · exact after.claimed t other

end Site.Covered

theorem callMovesPool {call : Calling W} {n : Next (Calling W) (Except WorkerError V)}
    (move : (s', n) ∈ callMoves call s) : s'.pool = s.pool := by
  obtain ⟨u, -, rfl⟩ := Machine.onCases move
  rfl

theorem Creation.movesSteady {holder : Option Nat} {c : Creation W}
    {n : Next (Creation W) (Except PoolError Nat)} (move : (s', n) ∈ Creation.moves holder c s) :
    s.pool.Steady s'.pool := by
  cases c with
  | hiring =>
    obtain ⟨rfl, -⟩ := memStep.mp move
    exact .refl s.pool
  | starting seat call =>
    refine Machine.withinState (fun u => s.pool.Steady u.pool) move
      (fun _ _ inner => callMovesPool inner ▸ .refl _) fun r u same => ?_
    cases r <;> exact same
  | clearing cause call =>
    refine Machine.withinState (fun u => s.pool.Steady u.pool) move
      (fun _ _ inner => callMovesPool inner ▸ .refl _) fun r u same => ?_
    cases r <;> exact same
  | enrolling seat =>
    obtain ⟨rfl, -⟩ := memFinish.mp move
    have enrolled : s.pool.Steady (s.pool.enroll seat) := Pool.steadySame rfl rfl rfl rfl
    cases holder with
    | none => exact enrolled
    | some ticket => exact enrolled.trans (Pool.seatSteady _ ticket seat)

theorem Acquisition.movesCovered {a : Acquisition W}
    {n : Next (Acquisition W) (Except PoolError (Nat × Nat))}
    (covered : s.Covered p (a.stances ++ xs)) (move : (s', n) ∈ Acquisition.moves a s) :
    s'.Covered p (n.elim stances got a.stances ++ xs) := by
  cases a with
  | asking =>
    obtain ⟨rfl, rfl⟩ := memStep.mp move
    exact covered.claim 1
  | waiting ticket =>
    simp only [Acquisition.moves] at move
    split at move
    · obtain ⟨rfl, rfl⟩ := memFinish.mp move
      exact covered.goes (s.pool.forgetSteady ticket) (List.subset_cons_self _ _)
    · split at move
      · next complete =>
        obtain ⟨rfl, rfl⟩ := memStep.mp move
        have own : s.pool.Claimed (ticket, 1) := covered.claimed _ List.mem_cons_self
        exact covered.goes (Pool.leaseSteady own complete) (List.subset_cons_self _ _)
      · cases move
  | choosing ticket =>
    simp only [Acquisition.moves] at move
    split at move
    · next pool seat found =>
      obtain ⟨rfl, rfl⟩ := memFinish.mp move
      unfold Pool.seatIdle at found
      split at found
      · cases found
      · next idle _ =>
        cases found
        have fewer : s.pool.Steady { s.pool with idle } := Pool.steadySame rfl rfl rfl rfl
        exact covered.goes (fewer.trans (Pool.seatSteady _ ticket seat)) (List.Subset.refl _)
    · obtain ⟨rfl, rfl⟩ := memStep.mp move
      exact covered.fewer (List.Subset.refl _)
  | creating ticket c =>
    have none (c : Creation W) : (c.stance (some ticket)).terms = [] := by cases c <;> rfl
    have others : s.Covered p xs := covered.fewer (List.subset_append_right _ _)
    have alone {ys : List Stance} (claims : ys.flatMap Stance.terms = []) (u : Site W V)
        (steady : s.pool.Steady u.pool) : u.Covered p (ys ++ xs) := by
      refine others.goes steady ?_
      rw [List.flatMap_append, claims]
      exact List.Subset.refl _
    rcases Machine.withinCases move with ⟨d, inner, rfl⟩ | ⟨u, r, inner, same⟩ | ⟨inner, rfl⟩
    · exact alone (by simp [Next.elim, stances, none]) _ (Creation.movesSteady inner)
    · cases r <;> cases same <;> exact alone rfl _ (Creation.movesSteady inner)
    · exact alone (by simp [Next.elim, stances, none]) _ (Creation.movesSteady inner)
  | failing ticket cause =>
    obtain ⟨rfl, rfl⟩ := memFinish.mp move
    exact covered.goes (s.pool.freeSteady ticket) (List.Subset.refl _)

theorem Release.movesCovered {r : Release} {n : Next Release Unit}
    (covered : s.Covered p (r.stance ticket :: xs)) (move : (s', n) ∈ Release.moves ticket r s) :
    s'.Covered p (n.elim (fun r => [r.stance ticket]) (fun _ => []) [] ++ xs) := by
  cases r with
  | puttingBack =>
    obtain ⟨rfl, rfl⟩ := memStep.mp move
    exact covered.goes (s.pool.putBackSteady ticket) (List.Subset.refl _)
  | freeing =>
    obtain ⟨rfl, rfl⟩ := memFinish.mp move
    exact covered.goes (s.pool.freeSteady ticket) (List.Subset.refl _)

theorem coveredBooks (p : Pool) :
    Bookkeeping (fun _ => True) (Site.Covered p : Site W V → List Stance → Prop) where
  own := fun _ _ => trivial
  perm := fun covered same => covered.fewer (same.symm.flatMap_right _).subset
  more := fun covered pool _ => covered.goes (pool ▸ .refl _) (List.Subset.refl _)
  acquires := fun _ => Acquisition.movesCovered
  leaves := fun covered => covered.fewer (List.Subset.refl _)
  releases := Release.movesCovered

theorem Filling.movesSteady {f : Filling W} {n : Next (Filling W) (Except PoolError Unit)}
    (move : (s', n) ∈ Filling.moves f s) : s.pool.Steady s'.pool := by
  rcases movesCases move with ⟨-, rfl, -⟩ | ⟨-, -, rfl, -⟩ | ⟨seats, -, rfl, -⟩ |
    ⟨before, c, rest, o, -, moved, -⟩
  · exact .refl s'.pool
  · exact .refl s'.pool
  · exact Pool.steadySame rfl rfl rfl rfl
  · exact Creation.movesSteady moved

theorem Disposal.movesCovered {d : Disposal W} {n : Next (Disposal W) (Except WorkerError Unit)}
    (stands : d.Stands ys) (covered : s.Covered p ys) (move : (s', n) ∈ Disposal.moves d s) :
    ∃ zs, s'.Covered p zs ∧ ∀ e, n = .go e → e.Stands zs := by
  cases d with
  | asking =>
    cases stands
    simp only [Disposal.moves] at move
    split at move
    · obtain ⟨rfl, rfl⟩ := memFinish.mp move
      exact ⟨[], covered, fun e go => by cases go⟩
    · obtain ⟨rfl, rfl⟩ := memStep.mp move
      exact ⟨_, covered.claim _, fun e go => by cases go; rfl⟩
  | waiting ticket wanted =>
    cases stands
    simp only [Disposal.moves] at move
    split at move
    · obtain ⟨rfl, rfl⟩ := memStep.mp move
      exact ⟨[.gone ticket], covered.fewer (List.nil_subset _),
        fun e go => by cases go; exact .inl rfl⟩
    · split at move
      · next complete =>
        obtain ⟨rfl, rfl⟩ := memStep.mp move
        have own : s.pool.Claimed (ticket, wanted) := covered.claimed _ List.mem_cons_self
        exact ⟨[.empty ticket wanted],
          covered.goes (Pool.leaseSteady own complete) (List.nil_subset _),
          fun e go => by cases go; exact .inr ⟨wanted, rfl⟩⟩
      · cases move
  | closing ticket =>
    obtain ⟨rfl, rfl⟩ := memStep.mp move
    exact ⟨ys, covered.goes s.pool.closeSteady (List.Subset.refl _),
      fun e go => by cases go; exact stands⟩
  | freeing ticket =>
    obtain ⟨rfl, rfl⟩ := memStep.mp move
    exact ⟨[], covered.goes (s.pool.freeSteady ticket) (List.nil_subset _),
      fun e go => by cases go; rfl⟩
  | clearing =>
    obtain ⟨rfl, rfl⟩ := memStep.mp move
    exact ⟨[], covered.goes (Pool.steadySame rfl rfl rfl rfl) (List.nil_subset _),
      fun e go => by cases go; rfl⟩
  | disposing call rest first =>
    obtain ⟨pool, -, goes⟩ := disposingCases move
    refine ⟨[], covered.goes (pool ▸ .refl _) (List.nil_subset _), fun e go => ?_⟩
    obtain ⟨c, r, f, rfl⟩ := goes e go
    rfl

theorem Visitor.movesCovered {site : Part σ (Site W V)} {t t' : σ} {v : Visitor W V σ α φ ρ}
    {n : Next (Visitor W V σ α φ ρ) Empty} (lawful : site.Lawful) (stands : v.Stands site ys)
    (covered : (site.get t).Covered p ys) (move : (t', n) ∈ v.moves site t) :
    ∃ zs, (site.get t').Covered p zs ∧ ∀ w, n = .go w → w.Stands site zs := by
  rcases standsCases stands with ⟨serves, rfl⟩ | ⟨f, rfl, rfl⟩ | ⟨d, rfl, stands⟩ | ⟨r, rfl, rfl⟩
  · rw [← List.append_nil v.stances] at covered
    obtain ⟨after, again⟩ :=
      movesBooks (coveredBooks p) lawful serves (fun _ _ => trivial) covered move
    exact ⟨_, after, fun w go => by cases go; simpa [Next.elim] using (again w rfl).stands⟩
  · have filled {u : Site W V} {o} (moved : (u, o) ∈ Filling.moves f (site.get t)) (zs : List Stance)
        (none : zs.flatMap Stance.tickets = []) : u.Covered p zs :=
      covered.goes (Filling.movesSteady moved) (Stance.noTerms none ▸ List.nil_subset _)
    rcases Machine.withinCases move with ⟨g, inner, rfl⟩ | ⟨u, r, inner, same⟩ | ⟨inner, rfl⟩
    · obtain ⟨u, moved, rfl⟩ := Machine.onCases inner
      rw [lawful]
      exact ⟨g.stances, filled moved _ g.ticketsNone, fun w go => by cases go; rfl⟩
    · obtain ⟨u, moved, rfl⟩ := Machine.onCases inner
      cases same
      rw [Part.update, lawful, lawful]
      exact ⟨[], (filled moved [] rfl).goes (.refl _) (List.nil_subset _),
        fun w go => by cases go; rfl⟩
    · obtain ⟨u, moved, rfl⟩ := Machine.onCases inner
      rw [lawful]
      exact ⟨[], filled moved [] rfl, fun w go => by cases go⟩
  · rcases Machine.withinCases move with ⟨g, inner, rfl⟩ | ⟨u, r, inner, same⟩ | ⟨inner, rfl⟩
    · obtain ⟨u, moved, rfl⟩ := Machine.onCases inner
      obtain ⟨zs, after, goes⟩ := Disposal.movesCovered stands covered moved
      rw [lawful]
      exact ⟨zs, after, fun w go => by cases go; exact goes g rfl⟩
    · obtain ⟨u, moved, rfl⟩ := Machine.onCases inner
      obtain ⟨zs, after, -⟩ := Disposal.movesCovered stands covered moved
      cases same
      rw [lawful]
      exact ⟨[], after.fewer (List.nil_subset _), fun w go => by cases go; rfl⟩
    · obtain ⟨u, moved, rfl⟩ := Machine.onCases inner
      obtain ⟨zs, after, -⟩ := Disposal.movesCovered stands covered moved
      rw [lawful]
      exact ⟨zs, after, fun w go => by cases go⟩
  · cases move

end Moves

def Flight.manned? : Flight φ α ρ → Option α
  | .working item _ _ _ | .returning item _ _ _ => some item
  | .refused .. => none

namespace Traffic
variable {site : Part σ (Site W V)} {of : φ → List Nat} {start first t u : Traffic W V σ α φ ρ}

structure Secured (site : Part σ (Site W V)) (t : Traffic W V σ α φ ρ) : Prop where
  covered : (site.get t.state).pool.Covered
  known : ∀ v ∈ t.visitors, ∃ ys, v.Stands site ys ∧
    ∀ c ∈ ys.flatMap Stance.terms, (site.get t.state).pool.Claimed c

theorem Secured.goes (secured : t.Secured site) {s : σ} {visitors : List (Visitor W V σ α φ ρ)}
    (steady : (site.get t.state).pool.Steady (site.get s).pool)
    (come : ∀ v ∈ visitors, v ∈ t.visitors ∨ ∃ ys, v.Stands site ys ∧
      ∀ c ∈ ys.flatMap Stance.terms, (site.get s).pool.Claimed c) :
    Secured site ⟨s, visitors⟩ where
  covered := steady.covered secured.covered
  known v member := by
    rcases come v member with old | new
    · obtain ⟨ys, stands, claimed⟩ := secured.known v old
      exact ⟨ys, stands, fun c among => steady.claimed c (claimed c among)⟩
    · exact new

section Step
variable {before after : List (Visitor W V σ α φ ρ)} {v w : Visitor W V σ α φ ρ} {s : σ}

theorem Secured.replace (secured : t.Secured site) (here : t.visitors = before ++ v :: after)
    (steady : (site.get t.state).pool.Steady (site.get s).pool) {ys : List Stance}
    (stands : w.Stands site ys)
    (claimed : ∀ c ∈ ys.flatMap Stance.terms, (site.get s).pool.Claimed c) :
    Secured site ⟨s, before ++ w :: after⟩ := by
  refine secured.goes steady fun x member => ?_
  rcases List.mem_cons.mp (List.perm_middle.mem_iff.mp member) with rfl | old
  · exact .inr ⟨ys, stands, claimed⟩
  · rw [here]
    exact .inl (List.perm_middle.mem_iff.mpr (List.mem_cons_of_mem v old))

theorem Secured.forsake (secured : t.Secured site) (here : t.visitors = before ++ v :: after)
    (steady : (site.get t.state).pool.Steady (site.get s).pool) (stands : w.Stands site []) :
    Secured site ⟨s, before ++ w :: after⟩ :=
  secured.replace here steady stands fun c none => by cases none

theorem vacateSteady (lawful : site.Lawful) (s : σ) (tickets tokens : List Nat) :
    (site.get s).pool.Steady (site.get (site.update (Site.vacate tickets tokens) s)).pool := by
  rw [Part.update, lawful]
  exact Pool.forgetAllSteady _ tickets

theorem Secured.step (lawful : site.Lawful) (secured : t.Secured site)
    (step : Step site of (Anyone site) t u) :
    u.Secured site ∧ (site.get t.state).pool.Steady (site.get u.state).pool := by
  have moved {before v after s} {n : Next (Visitor W V σ α φ ρ) Empty}
      (here : t.visitors = before ++ v :: after) (move : (s, n) ∈ v.moves site t.state) :
      ∃ zs, (site.get s).Covered (site.get t.state).pool zs ∧ ∀ w, n = .go w → w.Stands site zs := by
    obtain ⟨ys, stands, claimed⟩ := secured.known v (by rw [here]; simp)
    exact Visitor.movesCovered lawful stands ⟨.refl _, secured.covered, claimed⟩ move
  cases step with
  | @enter v come =>
    have arrives : v.Stands site [] := by
      rcases come with rfl | rfl | rfl | ⟨plan, items, proper, rfl⟩
      · rfl
      · rfl
      · rfl
      · exact ⟨proper, rfl⟩
    refine ⟨secured.goes (.refl _) fun x member => ?_, .refl _⟩
    rcases List.mem_append.mp member with old | new
    · exact .inl old
    · exact .inr ⟨[], List.mem_singleton.mp new ▸ arrives, fun c none => by cases none⟩
  | go here move =>
    obtain ⟨zs, after, goes⟩ := moved here move
    exact ⟨secured.replace here after.steady (goes _ rfl) after.claimed, after.steady⟩
  | @breakDown _ v _ s here move =>
    obtain ⟨zs, after, -⟩ := moved here move
    have steady := after.steady.trans (vacateSteady lawful s v.tickets (v.tokens of))
    exact ⟨secured.forsake here steady rfl, steady⟩
  | @leave _ v _ here =>
    have steady := vacateSteady lawful t.state v.tickets (v.tokens of)
    exact ⟨secured.forsake here steady rfl, steady⟩
  | grow n =>
    have steady : (site.get t.state).pool.Steady
        (site.get (site.update (·.withPool (·.grow n)) t.state)).pool := by
      rw [Part.update, lawful]
      exact Pool.growSteady _ n
    exact ⟨secured.goes steady fun x => .inl, steady⟩
  | work crew stays =>
    have steady : (site.get t.state).pool.Steady
        (site.get (site.update (fun s => { s with crew }) t.state)).pool := by
      rw [Part.update, lawful]
      exact .refl _
    exact ⟨secured.goes steady fun x => .inl, steady⟩

end Step

theorem Secured.steps (lawful : site.Lawful) (secured : t.Secured site)
    (steps : Steps site of (Anyone site) t u) : u.Secured site := by
  induction steps with
  | refl => exact secured
  | tail _ step before => exact (before.step lawful step).1

section Course
variable {plan : Schedule.Plan W V σ β ψ υ} {items : List β} {f : Schedule W β ψ υ} {j : Journal β υ}

theorem Course.secured (lawful : site.Lawful) (proper : plan.Proper site)
    (secured : first.Secured site) (course : Course site of plan items first t f j) :
    t.Secured site ∧ ∀ c ∈ f.stances.flatMap Stance.terms, (site.get t.state).pool.Claimed c := by
  have moved {t : Traffic W V σ α φ ρ} {f : Schedule W β ψ υ} {s}
      {n : Next (Schedule W β ψ υ) (Option (Yield β υ) × Schedule W β ψ υ)} (secured : t.Secured site)
      (claimed : ∀ c ∈ f.stances.flatMap Stance.terms, (site.get t.state).pool.Claimed c)
      (move : (s, n) ∈ Schedule.moves plan f t.state) :
      Site.Covered (site.get t.state).pool (site.get s)
        (n.elim Schedule.stances (fun r => r.2.stances) f.stances) := by
    have here : (site.get t.state).Covered (site.get t.state).pool (f.stances ++ []) :=
      ⟨.refl _, secured.covered, by rwa [List.append_nil]⟩
    have after := Schedule.movedBooks (coveredBooks _) lawful proper (fun _ _ => trivial) here
      (Schedule.movesMoved move)
    rwa [List.append_nil] at after
  induction course with
  | start => exact ⟨secured, fun c none => by cases none⟩
  | go course move ih =>
    obtain ⟨secured, claimed⟩ := ih
    have after := moved secured claimed move
    exact ⟨secured.goes after.steady fun x => .inl, after.claimed⟩
  | yield course move ih =>
    obtain ⟨secured, claimed⟩ := ih
    have after := moved secured claimed move
    exact ⟨secured.goes after.steady fun x => .inl, after.claimed⟩
  | others course step ih =>
    obtain ⟨secured, claimed⟩ := ih
    obtain ⟨after, steady⟩ := secured.step lawful step
    exact ⟨after, fun c member => steady.claimed c (claimed c member)⟩

theorem heldParts {p : Pool} {n : Nat} {xs : List Stance} (orderly : p.Orderly n xs) :
    p.held = permitsOf xs := by
  have sum := (orderly.leases.map Prod.snd).sum_nat
  rwa [List.map_map] at sum

theorem mannedItems (flights : List (Flight ψ β υ)) : (flights.filterMap Flight.manned?).Perm
    ((flights.filterMap Flight.begun?).map (·.item) ++
      ((flights.filterMap Flight.leaving?).map (·.1) ++
        (flights.filterMap Flight.freeing?).map (·.1))) := by
  induction flights with
  | nil => exact .nil
  | cons x rest ih =>
    rcases x with ⟨item, ticket, seat, phase⟩ | ⟨item, ticket, r, _ | _⟩ | ⟨item, cause⟩
    · exact ih.cons item
    · exact (ih.cons item).trans List.perm_middle.symm
    · refine (ih.cons item).trans ?_
      rw [← List.append_assoc, ← List.append_assoc]
      exact List.perm_middle.symm
    · exact ih

theorem permitsOne {γ : Type} (part : γ → Stance) (one : ∀ x, permitsOf [part x] = 1) (xs : List γ) :
    permitsOf (xs.map part) = xs.length := by
  induction xs with
  | nil => rfl
  | cons x rest ih =>
    have first := permitsAppend [part x] (rest.map part)
    rw [one, ih, Nat.add_comm] at first
    exact first

theorem mannedPermits {l : Landing β υ} (balanced : j.Balanced items f l) :
    (f.flights.filterMap Flight.manned?).length ≤ permitsOf (f.parts l) := by
  have manned := (mannedItems f.flights).length_eq
  have leaving := balanced.leaving.length_eq
  have freeing := balanced.freeing.length_eq
  simp only [List.length_append, List.length_map] at manned leaving freeing
  rw [Schedule.parts, permitsAppend, permitsAppend, permitsAppend, permitsOne _ fun _ => rfl,
    permitsOne _ fun _ => rfl, permitsOne _ fun _ => rfl]
  omega

theorem takenItems {l : Landing β υ} (balanced : j.Balanced items f l) :
    j.taken.Perm (j.yielded.map (·.item) ++ f.flights.filterMap Flight.manned? ++
      (f.flights.filterMap Flight.refused?).map (·.1) ++ f.feed.current) := by
  classical
  obtain ⟨-, taken, refused, begun, ended, returned, yielded, leaving, freeing⟩ := balanced
  refine List.perm_iff_count.mpr fun item => ?_
  have taken := taken.count_eq item
  have refused := (refused.map (·.1)).count_eq item
  have begun := (begun.map (·.item)).count_eq item
  have ended := (ended.map (·.1.item)).count_eq item
  have returned := (returned.map (·.1.item)).count_eq item
  have yielded := (yielded.map (·.1)).count_eq item
  have leaving := (leaving.map (·.1)).count_eq item
  have freeing := (freeing.map (·.1)).count_eq item
  have manned := (mannedItems f.flights).count_eq item
  have all := (@outcomes _ _ j.yielded).count_eq item
  simp only [List.map_append, List.count_append, List.map_map, Function.comp_def, Stint.label,
    Stint.outcome] at *
  omega

end Course

/-- An item that was taken has its result, or a worker, or was refused one, or is the one that waits
for a worker. So of those without a result, and not refused a worker, there is at most one more than
the pool has permits. -/
theorem Course.backpressure {capacity : Nat} {plan : Schedule.Plan W V σ β ψ υ} {items : List β}
    {f : Schedule W β ψ υ} {j : Journal β υ} (lawful : site.Lawful) (proper : plan.Proper site)
    (fresh : (site.get start.state).pool = .ofCapacity capacity) (empty : start.visitors = [])
    (steps : Steps site of (Anyone site) start first)
    (course : Course site of plan items first t f j) :
    j.taken.Perm (j.yielded.map (·.item) ++ f.flights.filterMap Flight.manned? ++
        (f.flights.filterMap Flight.refused?).map (·.1) ++ f.feed.current) ∧
      (f.flights.filterMap Flight.manned?).length ≤ (site.get t.state).pool.capacity ∧
      j.taken.length ≤ j.yielded.length + (f.flights.filterMap Flight.refused?).length +
        (site.get t.state).pool.capacity + 1 := by
  have founded : start.Guarded site [] := by
    refine ⟨[], empty ▸ .nil, ?_⟩
    rw [Site.Orderly, fresh]
    exact Pool.Orderly.fresh capacity _
  have funded : start.Secured site :=
    ⟨fresh ▸ Pool.freshCovered capacity, fun v member => by rw [empty] at member; cases member⟩
  obtain ⟨l, balanced, parts, -, orderly⟩ :=
    course.balanced lawful proper (founded.steps lawful steps)
  obtain ⟨secured, -⟩ := course.secured lawful proper (funded.steps lawful steps)
  have taken := takenItems balanced
  have manned : (f.flights.filterMap Flight.manned?).length ≤ (site.get t.state).pool.capacity := by
    have own := mannedPermits balanced
    have held := heldParts orderly
    have within := secured.covered.within
    rw [permitsAppend, permitsAppend] at held
    omega
  have current : f.feed.current.length ≤ 1 := by
    cases f.feed <;> simp [Feed.current]
  have length := taken.length_eq
  simp only [List.length_append, List.length_map] at length
  exact ⟨taken, manned, by omega⟩

theorem backpressureOnce : oneJournal.taken.Perm (oneJournal.yielded.map (·.item)) ∧
    oneJournal.taken.length ≤ oneJournal.yielded.length + 0 + oneServed.state.pool.capacity + 1 := by
  have fresh : (Part.whole.get untouched.state).pool = .ofCapacity 1 := rfl
  obtain ⟨taken, -, ahead⟩ :=
    serveOne.backpressure (fun _ _ => rfl) numbersPlanProper fresh rfl (.refl _)
  exact ⟨taken, ahead⟩

/-- The next item is taken while the only worker is at work. -/
theorem pulledAhead : ∃ t f j, Course Part.whole (fun _ => []) numbersPlan [7, 8] untouched t f j ∧
    untouched.state.pool = .ofCapacity 1 ∧ untouched.visitors = [] ∧
      f.flights.filterMap Flight.manned? = [7] ∧ f.feed.current = [8] ∧
        ¬ j.taken.length ≤ j.yielded.length + t.state.pool.capacity := by
  have opened : Course Part.whole (fun _ => []) numbersPlan [7, 8] untouched untouched
      (.ofList [7, 8]) {} := .start
  have called := (((((opened.go (.head _)).go (.head _)).go (.head _)).go (.head _)).go (.head _)).go
    (.head _)
  have started := called.others
    (.work { oneMade.state.crew with answers := [(0, .ok ())] } (Nat.le_refl _))
  have sent := ((started.go (.head _)).go (.head _)).go (.head _)
  exact ⟨_, _, _, sent.go (.head _), rfl, rfl, rfl, rfl, by decide⟩

end Traffic

end MutationPipeline
