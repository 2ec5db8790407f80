import MutationPipeline.Pool.Traffic
import MutationPipeline.Proofs.Pool.Permits

/-! What all those at a pool together must have for its books to be right: who waits for permits,
who holds a lease and whether it has a worker, and which workers are still being made. Each change
of the pool goes with the one stance that it changes. -/
namespace MutationPipeline

def Lease.terms (l : Lease) : Nat × Nat := (l.ticket, l.permits)

/-- The part that somebody at a pool plays in its books. A worker is made for the holder of a
ticket or for the pool; a worker that was made for the pool is carried until it is made idle. A
ticket that is of no use any more may still be known. -/
inductive Stance where
  | waiting (ticket wanted : Nat)
  | empty (ticket permits : Nat)
  | making (holder seat : Option Nat)
  | seated (ticket seat : Nat)
  | leaving (ticket : Nat)
  | carrying (seat : Nat)
  | gone (ticket : Nat)

namespace Stance

def tickets : Stance → List Nat
  | .waiting ticket _ | .empty ticket _ | .making (some ticket) _ | .seated ticket _
  | .leaving ticket | .gone ticket => [ticket]
  | _ => []

def terms : Stance → List (Nat × Nat)
  | .waiting ticket wanted => [(ticket, wanted)]
  | _ => []

def leases : Stance → List (Nat × Nat)
  | .empty ticket permits => [(ticket, permits)]
  | .making (some ticket) _ | .seated ticket _ | .leaving ticket => [(ticket, 1)]
  | _ => []

def Suits : Stance → Option Nat → Prop
  | .empty .., seat | .making .., seat => seat = none
  | .seated _ s, seat => seat = some s
  | _, _ => True

def seats : Stance → List Nat
  | .seated _ seat => [seat]
  | _ => []

def made : Stance → List Nat
  | .making _ (some seat) => [seat]
  | _ => []

def carried : Stance → List Nat
  | .carrying seat => [seat]
  | _ => []

def isMaking : Stance → Bool
  | .making .. => true
  | _ => false

def isBusy : Stance → Bool
  | .seated .. | .leaving _ => true
  | _ => false

def founds : Stance → Bool
  | .making none _ | .carrying _ => true
  | _ => false

theorem ofTickets {column : Stance → List (Nat × Nat)}
    (each : ∀ x, ((column x).map Prod.fst).Sublist x.tickets) (xs : List Stance) :
    ((xs.flatMap column).map Prod.fst).Sublist (xs.flatMap tickets) := by
  induction xs with
  | nil => exact .slnil
  | cons x xs ih =>
    rw [List.flatMap_cons, List.map_append, List.flatMap_cons]
    exact (each x).append ih

theorem termsTickets (xs : List Stance) :
    ((xs.flatMap terms).map Prod.fst).Sublist (xs.flatMap tickets) :=
  ofTickets (fun x => by cases x <;> simp [terms, tickets]) xs

theorem leasesTickets (xs : List Stance) :
    ((xs.flatMap leases).map Prod.fst).Sublist (xs.flatMap tickets) :=
  ofTickets (fun x => by rcases x with _ | _ | ⟨_ | _⟩ | _ | _ | _ | _ <;> simp [leases, tickets]) xs

theorem leasesCases (x : Stance) :
    (x.leases = [] ∧ x.seats = [] ∧ x.isBusy = false) ∨
      ∃ ticket permits, x.leases = [(ticket, permits)] ∧ x.tickets = [ticket] ∧
        ∀ seat, x.Suits seat →
          x.seats.Subperm seat.toList ∧
            seat.toList.length ≤ if x.isBusy = true then 1 else 0 := by
  cases x with
  | waiting ticket wanted => exact .inl ⟨rfl, rfl, rfl⟩
  | carrying seat => exact .inl ⟨rfl, rfl, rfl⟩
  | gone ticket => exact .inl ⟨rfl, rfl, rfl⟩
  | empty ticket permits =>
    refine .inr ⟨ticket, permits, rfl, rfl, ?_⟩
    rintro seat rfl
    exact ⟨.refl _, Nat.le_refl _⟩
  | making holder seat =>
    cases holder with
    | none => exact .inl ⟨rfl, rfl, rfl⟩
    | some ticket =>
      refine .inr ⟨ticket, 1, rfl, rfl, ?_⟩
      rintro seat rfl
      exact ⟨.refl _, Nat.le_refl _⟩
  | seated ticket seat =>
    refine .inr ⟨ticket, 1, rfl, rfl, ?_⟩
    rintro seat rfl
    exact ⟨.refl _, Nat.le_refl _⟩
  | leaving ticket =>
    refine .inr ⟨ticket, 1, rfl, rfl, fun seat _ => ⟨List.nil_subperm, ?_⟩⟩
    cases seat <;> simp [isBusy]

end Stance

namespace Pool

structure Counted (p : Pool) (xs : List Stance) : Prop where
  opened : p.permits.closed = false
  terms : p.permits.terms.Perm (xs.flatMap Stance.terms)
  full : p.permits.Full
  leases : (p.leases.map Lease.terms).Perm (xs.flatMap Stance.leases)
  single : (xs.flatMap Stance.tickets).Nodup
  issued : ∀ t ∈ xs.flatMap Stance.tickets, t < p.tickets
  balance : p.permits.stock + ((xs.flatMap Stance.leases).map Prod.snd).sum = p.capacity

def Seating (ls : List Lease) (xs : List Stance) : Prop :=
  ∀ x ∈ xs, ∀ l ∈ ls, l.ticket ∈ x.tickets → x.Suits l.seat

structure Staffed (p : Pool) (seats : Nat) (xs : List Stance) : Prop where
  seating : Seating p.leases xs
  roster : p.members.Perm (p.idle ++ p.checkedOut ++ xs.flatMap Stance.carried)
  distinct : (p.members ++ xs.flatMap Stance.made).Nodup
  known : ∀ s ∈ p.members ++ xs.flatMap Stance.made, s < seats
  room : p.members.length + xs.countP Stance.isMaking ≤ p.capacity

structure Kept (p : Pool) (seats : Nat) (xs : List Stance) : Prop where
  counted : p.Counted xs
  staffed : p.Staffed seats xs

variable {p : Pool} {n m ticket seat permits wanted : Nat} {x : Stance} {xs ys : List Stance}
  {ls : List Lease}

theorem Kept.perm (kept : p.Kept n xs) (same : xs.Perm ys) : p.Kept n ys := by
  obtain ⟨counted, staffed⟩ := kept
  constructor
  · exact {
      opened := counted.opened
      terms := counted.terms.trans (same.flatMap_right _)
      full := counted.full
      leases := counted.leases.trans (same.flatMap_right _)
      single := (same.flatMap_right _).nodup_iff.mp counted.single
      issued := fun t member => counted.issued t ((same.flatMap_right _).mem_iff.mpr member)
      balance := ((same.flatMap_right _).map _).sum_nat ▸ counted.balance }
  · exact {
      seating := fun x member => staffed.seating x (same.mem_iff.mpr member)
      roster := staffed.roster.trans ((same.flatMap_right _).append_left _)
      distinct := (((same.flatMap_right _).append_left _).nodup_iff).mp staffed.distinct
      known := fun s member => staffed.known s
        (((same.flatMap_right _).append_left _).mem_iff.mpr member)
      room := same.countP_eq _ ▸ staffed.room }

theorem Kept.more (kept : p.Kept n xs) (more : n ≤ m) : p.Kept m xs where
  counted := kept.counted
  staffed := { kept.staffed with
    known := fun s member => Nat.lt_of_lt_of_le (kept.staffed.known s member) more }

theorem freshKept (capacity n : Nat) : (ofCapacity capacity).Kept n [] where
  counted := by
    refine ⟨rfl, .nil, ?_, .nil, .nil, ?_, ?_⟩
    · intro c member
      cases member
    · intro t member
      cases member
    · simp [ofCapacity, Permits.stock]
  staffed := by
    refine ⟨?_, .nil, .nil, ?_, Nat.zero_le _⟩
    · intro x member
      cases member
    · intro s member
      cases member

theorem Counted.apart (counted : p.Counted (x :: xs)) (own : x.tickets = [ticket]) :
    ticket ∉ xs.flatMap Stance.tickets := by
  have single := counted.single
  rw [List.flatMap_cons, own] at single
  exact (List.nodup_cons.mp single).1

theorem Counted.noLease (counted : p.Counted (.waiting ticket wanted :: xs)) :
    ∀ l ∈ p.leases, l.ticket ≠ ticket := by
  rintro l member rfl
  have held : l.terms ∈ xs.flatMap Stance.leases :=
    counted.leases.mem_iff.mp (List.mem_map_of_mem member)
  exact counted.apart rfl ((Stance.leasesTickets xs).subset (List.mem_map_of_mem held))

theorem leaseSplit (leases : (ls.map Lease.terms).Perm ((x :: xs).flatMap Stance.leases))
    (single : ((x :: xs).flatMap Stance.tickets).Nodup) (own : x.leases = [(ticket, permits)]) :
    ∃ before l after, ls = before ++ l :: after ∧ l.ticket = ticket ∧ l.permits = permits ∧
      ∀ other ∈ before ++ after, other.ticket ≠ l.ticket := by
  have tickets : (ls.map (·.ticket)).Nodup := by
    have same := (leases.map Prod.fst).nodup_iff.mpr ((Stance.leasesTickets _).nodup single)
    rwa [List.map_map] at same
  have held : (ticket, permits) ∈ ls.map Lease.terms := leases.mem_iff.mpr (by simp [own])
  obtain ⟨l, member, terms⟩ := List.mem_map.mp held
  obtain ⟨before, after, whole, others⟩ := splitUnique tickets member
  exact ⟨before, l, after, whole, congrArg Prod.fst terms, congrArg Prod.snd terms, others⟩

section Split
variable {before after : List Lease} {l : Lease} (whole : p.leases = before ++ l :: after)
  (others : ∀ other ∈ before ++ after, other.ticket ≠ l.ticket)
include whole others

theorem updateSplit (f : Lease → Lease) :
    (p.leases.map fun k => if k.ticket = l.ticket then f k else k) = before ++ f l :: after := by
  have same (part : List Lease) (inside : part ⊆ before ++ after) :
      (part.map fun k => if k.ticket = l.ticket then f k else k) = part := by
    conv_rhs => rw [← List.map_id part]
    exact List.map_congr_left fun k member => if_neg (others k (inside member))
  rw [whole, List.map_append, List.map_cons, if_pos rfl, same before (by simp),
    same after (by simp)]

theorem removeSplit :
    (p.leases.filter fun k => k.ticket ≠ l.ticket) = before ++ after := by
  rw [whole, List.filter_append, List.filter_cons_of_neg (by simp), ← List.filter_append]
  exact List.filter_eq_self.mpr fun k member => by simpa using others k member

theorem leaseOfSplit : p.leaseOf l.ticket = some l := by
  have none : before.find? (fun k => k.ticket = l.ticket) = none :=
    List.find?_eq_none.mpr fun k member => by simpa using others k (by simp [member])
  rw [leaseOf, whole, List.find?_append, none]
  simp

theorem seatSplit (s : Nat) :
    p.seat l.ticket s = { p with leases := before ++ { l with seat := some s } :: after } := by
  rw [Pool.seat, updateSplit whole others]

theorem freeSplit : p.free l.ticket =
    { p with permits := p.permits.giveBack l.permits, leases := before ++ after } := by
  rw [free, leaseOfSplit whole others]
  simp only [removeSplit whole others]

theorem putBackSplit (taken : l.seat = some seat) : p.putBack l.ticket =
    { p with idle := p.idle ++ [seat], leases := before ++ { l with seat := none } :: after } := by
  have found := leaseOfSplit whole others
  have update := updateSplit whole others fun k => { k with seat := none }
  obtain ⟨ticket, permits, _⟩ := l
  cases taken
  rw [putBack, found]
  simp only [update]

theorem putBackEmpty (free : l.seat = none) : p.putBack l.ticket = p := by
  have found := leaseOfSplit whole others
  obtain ⟨ticket, permits, _⟩ := l
  cases free
  rw [putBack, found]

end Split

section Seating
variable {before after : List Lease} {l : Lease}

theorem Seating.without (seating : Seating ls (x :: xs)) : Seating ls xs :=
  fun y member => seating y (List.mem_cons_of_mem x member)

theorem Seating.fewer (seating : Seating (before ++ l :: after) xs) :
    Seating (before ++ after) xs :=
  fun y member k among => seating y member k (by grind)

theorem Seating.insert (seating : Seating (before ++ after) xs)
    (apart : l.ticket ∉ xs.flatMap Stance.tickets) : Seating (before ++ l :: after) xs := by
  intro y member k among same
  rcases List.mem_cons.mp (List.perm_middle.mem_iff.mp among) with rfl | other
  · exact absurd (List.mem_flatMap.mpr ⟨y, member, same⟩) apart
  · exact seating y member k other same

theorem Seating.cons (seating : Seating (before ++ l :: after) xs) (own : x.tickets = [l.ticket])
    (others : ∀ other ∈ before ++ after, other.ticket ≠ l.ticket) (suits : x.Suits l.seat) :
    Seating (before ++ l :: after) (x :: xs) := by
  intro y member k among same
  rcases List.mem_cons.mp member with rfl | later
  · rw [own, List.mem_singleton] at same
    rcases List.mem_cons.mp (List.perm_middle.mem_iff.mp among) with rfl | other
    · exact suits
    · exact absurd same (others k other)
  · exact seating y later k among same

theorem Seating.recast {y : Stance} (seating : Seating ls (x :: xs)) (own : y.tickets = x.tickets)
    (suits : ∀ seat, x.Suits seat → y.Suits seat) : Seating ls (y :: xs) := by
  intro z member k among same
  rcases List.mem_cons.mp member with rfl | later
  · exact suits _ (seating x List.mem_cons_self k among (own ▸ same))
  · exact seating z (List.mem_cons_of_mem x later) k among same

theorem Seating.reseat {y : Stance} {seat : Option Nat}
    (seating : Seating (before ++ l :: after) (x :: xs))
    (apart : l.ticket ∉ xs.flatMap Stance.tickets) (own : y.tickets = [l.ticket])
    (others : ∀ other ∈ before ++ after, other.ticket ≠ l.ticket) (suits : y.Suits seat) :
    Seating (before ++ { l with seat } :: after) (y :: xs) :=
  Seating.cons (l := { l with seat }) (seating.without.fewer.insert apart) own others suits

theorem reseatTerms (seat : Option Nat) :
    (before ++ { l with seat } :: after).map Lease.terms =
      (before ++ l :: after).map Lease.terms := by
  simp [Lease.terms]

end Seating

theorem Kept.claim (kept : p.Kept n xs) (wanted : Nat) :
    (p.claim wanted).1.Kept n (.waiting p.tickets wanted :: xs) := by
  obtain ⟨counted, staffed⟩ := kept
  have fresh : p.tickets ∉ xs.flatMap Stance.tickets :=
    fun used => Nat.lt_irrefl _ (counted.issued _ used)
  have stranger : ∀ l ∈ p.leases, l.ticket ≠ p.tickets := by
    intro l member same
    have held := counted.leases.mem_iff.mp (List.mem_map_of_mem member)
    exact fresh (same ▸ (Stance.leasesTickets xs).subset (List.mem_map_of_mem held))
  have claimed : (p.claim wanted).1 = { p with
      tickets := p.tickets + 1, permits := p.permits.claim p.tickets wanted } := by
    simp [Pool.claim, counted.opened]
  rw [claimed]
  refine ⟨⟨?_, ?_, Permits.claimFull counted.full, counted.leases,
    List.nodup_cons.mpr ⟨fresh, counted.single⟩, ?_, ?_⟩, { staffed with seating := ?_ }⟩
  · rw [Permits.claimClosed, counted.opened]
  · exact (Permits.claimTerms ..).trans (counted.terms.cons _)
  · intro t member
    rcases List.mem_cons.mp member with rfl | old
    · exact Nat.lt_succ_self _
    · exact Nat.lt_succ_of_lt (counted.issued t old)
  · rw [Permits.claimStock]
    exact counted.balance
  · intro x member l among same
    rcases List.mem_cons.mp member with rfl | old
    · exact trivial
    · exact staffed.seating x old l among same

theorem Kept.lease (kept : p.Kept n (.waiting ticket wanted :: xs))
    (complete : p.permits.isComplete ticket = true) :
    (p.lease ticket wanted).Kept n (.empty ticket wanted :: xs) := by
  obtain ⟨counted, staffed⟩ := kept
  have single : (p.permits.terms.map Prod.fst).Nodup :=
    (counted.terms.map _).nodup_iff.mpr ((Stance.termsTickets _).nodup counted.single)
  have named : (ticket, wanted) ∈ p.permits.terms :=
    counted.terms.mem_iff.mpr (by simp [Stance.terms])
  have terms := (Permits.collectTerms single named complete).symm.trans counted.terms
  have stock := Permits.collectStock single named complete counted.full
  constructor
  · refine ⟨counted.opened, terms.cons_inv, Permits.collectFull counted.full ticket, ?_,
      counted.single, counted.issued, ?_⟩
    · rw [Pool.lease, List.map_append]
      exact List.perm_append_comm.trans (counted.leases.cons _)
    · have balance := counted.balance
      simp only [Pool.lease, List.flatMap_cons, Stance.leases, List.map_append, List.sum_append,
        List.map_cons, List.sum_cons, List.map_nil, List.sum_nil] at balance ⊢
      omega
  · have others := staffed.seating.without
    rw [← List.append_nil p.leases] at others
    refine ⟨(others.insert (counted.apart rfl)).cons rfl ?_ rfl, ?_, staffed.distinct,
      staffed.known, staffed.room⟩
    · rw [List.append_nil]
      exact counted.noLease
    · simpa [checkedOut, Pool.lease, Stance.carried] using staffed.roster

theorem Kept.seatIdle {q : Pool} (kept : p.Kept n (.empty ticket 1 :: xs))
    (found : p.seatIdle ticket = some (q, seat)) : q.Kept n (.seated ticket seat :: xs) := by
  obtain ⟨counted, staffed⟩ := kept
  unfold Pool.seatIdle at found
  split at found
  · cases found
  · next s idle shape =>
    cases found
    obtain ⟨before, l, after, whole, rfl, -, others⟩ :=
      leaseSplit counted.leases counted.single rfl
    have free : l.seat = none :=
      staffed.seating _ List.mem_cons_self l (by simp [whole]) List.mem_cons_self
    rw [seatSplit (p := { p with idle }) whole others]
    have seating := staffed.seating
    have leases := counted.leases
    have roster := staffed.roster
    rw [whole] at seating leases
    constructor
    · exact { counted with leases := (reseatTerms _).symm ▸ leases }
    · refine ⟨seating.reseat (counted.apart rfl) rfl others rfl, ?_, staffed.distinct,
        staffed.known, staffed.room⟩
      simp only [checkedOut, whole, shape, List.filterMap_append, List.filterMap_cons, free,
        List.flatMap_cons, Stance.carried] at roster ⊢
      grind

theorem matched (leases : (ls.map Lease.terms).Perm (xs.flatMap Stance.leases))
    (single : (xs.flatMap Stance.tickets).Nodup) (seating : Seating ls xs) :
    (xs.flatMap Stance.seats).Subperm (ls.filterMap (·.seat)) ∧
      (ls.filterMap (·.seat)).length ≤ xs.countP Stance.isBusy := by
  induction xs generalizing ls with
  | nil =>
    rw [List.map_eq_nil_iff.mp leases.eq_nil]
    exact ⟨List.Subperm.refl _, Nat.le_refl _⟩
  | cons x xs ih =>
    have later : (xs.flatMap Stance.tickets).Nodup :=
      (List.nodup_append.mp (List.flatMap_cons ▸ single)).2.1
    rcases x.leasesCases with ⟨none, idle, busy⟩ | ⟨ticket, permits, own, named, possible⟩
    · rw [List.flatMap_cons, none] at leases
      rw [List.flatMap_cons, idle, List.countP_cons_of_neg (by simp [busy])]
      exact ih leases later seating.without
    · obtain ⟨before, l, after, rfl, rfl, rfl, others⟩ := leaseSplit leases single own
      have rest : ((before ++ after).map Lease.terms).Perm (xs.flatMap Stance.leases) := by
        rw [List.flatMap_cons, own, List.map_append, List.map_cons] at leases
        rw [List.map_append]
        exact (List.perm_middle.symm.trans leases).cons_inv
      obtain ⟨inside, few⟩ := ih rest later seating.without.fewer
      obtain ⟨worker, most⟩ := possible l.seat
        (seating x List.mem_cons_self l (by simp) (by simp [named]))
      have same : ((before ++ l :: after).filterMap (·.seat)).Perm
          (l.seat.toList ++ (before ++ after).filterMap (·.seat)) := by
        refine (List.perm_middle.filterMap _).trans (List.Perm.of_eq ?_)
        cases seat : l.seat <;> simp [seat]
      constructor
      · exact (worker.append inside).trans same.symm.subperm
      · rw [same.length_eq, List.length_append, List.countP_cons]
        omega

theorem permitsEnough (served : ∀ x ∈ xs, x.founds = false) :
    xs.countP Stance.isBusy + xs.countP Stance.isMaking ≤
      ((xs.flatMap Stance.leases).map Prod.snd).sum := by
  induction xs with
  | nil => exact Nat.le_refl _
  | cons x xs ih =>
    have later := ih fun y member => served y (List.mem_cons_of_mem x member)
    have own := served x List.mem_cons_self
    simp only [List.countP_cons, List.flatMap_cons, List.map_append, List.sum_append]
    rcases x with _ | _ | ⟨_ | _⟩ | _ | _ | _ | _ <;>
      simp [Stance.isBusy, Stance.isMaking, Stance.leases, Stance.founds] at own ⊢ <;> omega

theorem Kept.served (kept : p.Kept n xs) (served : ∀ x ∈ xs, x.founds = false) :
    p.checkedOut.length + xs.countP Stance.isMaking ≤ p.capacity ∧
      p.members.Perm (p.idle ++ p.checkedOut) := by
  obtain ⟨counted, staffed⟩ := kept
  have busy := (matched counted.leases counted.single staffed.seating).2
  have enough := permitsEnough served
  have balance := counted.balance
  have none : xs.flatMap Stance.carried = [] := by
    rw [List.flatMap_eq_nil_iff]
    intro x member
    have own := served x member
    cases x <;> simp [Stance.founds, Stance.carried] at own ⊢
  constructor
  · rw [checkedOut]
    omega
  · have roster := staffed.roster
    rwa [none, List.append_nil] at roster

theorem Kept.begin (kept : p.Kept n (.empty ticket 1 :: xs)) (idle : p.seatIdle ticket = none)
    (served : ∀ x ∈ xs, x.founds = false) : p.Kept n (.making (some ticket) none :: xs) := by
  have all : ∀ x ∈ Stance.empty ticket 1 :: xs, x.founds = false := by
    intro x member
    rcases List.mem_cons.mp member with rfl | later
    · rfl
    · exact served x later
  have nobody : p.idle = [] := by
    cases shape : p.idle with
    | nil => rfl
    | cons s rest => simp [Pool.seatIdle, shape] at idle
  have roster := (kept.served all).2
  obtain ⟨counted, staffed⟩ := kept
  have busy := (matched counted.leases counted.single staffed.seating).2
  have enough := permitsEnough served
  have balance := counted.balance
  refine ⟨{ counted with }, { staffed with seating := ?_, room := ?_ }⟩
  · exact staffed.seating.recast rfl fun seat suits => suits
  · rw [roster.length_eq, nobody, List.nil_append, checkedOut, List.countP_cons_of_pos rfl]
    rw [List.countP_cons_of_neg (by simp [Stance.isBusy])] at busy
    simp only [List.flatMap_cons, Stance.leases, List.map_append, List.sum_append, List.map_cons,
      List.sum_cons, List.map_nil, List.sum_nil] at balance
    omega

theorem Kept.hire {holder : Option Nat} (kept : p.Kept n (.making holder none :: xs)) :
    p.Kept (n + 1) (.making holder (some n) :: xs) := by
  obtain ⟨counted, staffed⟩ := kept
  have fresh : n ∉ p.members ++ xs.flatMap Stance.made :=
    fun used => Nat.lt_irrefl _ (staffed.known n used)
  constructor
  · cases holder <;> exact { counted with }
  · refine { staffed with seating := ?_, distinct := ?_, known := ?_ }
    · cases holder <;> exact staffed.seating.recast rfl fun seat suits => suits
    · exact List.perm_middle.nodup_iff.mpr (List.nodup_cons.mpr ⟨fresh, staffed.distinct⟩)
    · intro s member
      rcases List.mem_cons.mp (List.perm_middle.mem_iff.mp member) with rfl | old
      · exact Nat.lt_succ_self _
      · exact Nat.lt_succ_of_lt (staffed.known s old)

theorem Kept.dismiss {holder seat : Option Nat} (kept : p.Kept n (.making holder seat :: xs)) :
    p.Kept n (.making holder none :: xs) := by
  obtain ⟨counted, staffed⟩ := kept
  have fewer : (p.members ++ xs.flatMap Stance.made).Sublist
      (p.members ++ (Stance.making holder seat :: xs).flatMap Stance.made) :=
    (List.sublist_append_right _ _).append_left _
  constructor
  · cases holder <;> exact { counted with }
  · refine { staffed with seating := ?_, distinct := ?_, known := ?_ }
    · cases holder <;> exact staffed.seating.recast rfl fun seat suits => suits
    · exact fewer.nodup staffed.distinct
    · exact fun s member => staffed.known s (fewer.subset member)

theorem Kept.giveUp {seat : Option Nat} (kept : p.Kept n (.making (some ticket) seat :: xs)) :
    p.Kept n (.empty ticket 1 :: xs) := by
  obtain ⟨counted, staffed⟩ := kept.dismiss
  refine ⟨{ counted with }, { staffed with seating := ?_, room := ?_ }⟩
  · exact staffed.seating.recast rfl fun seat suits => suits
  · have room := staffed.room
    rw [List.countP_cons_of_pos rfl] at room
    rw [List.countP_cons_of_neg (by simp [Stance.isMaking])]
    omega

theorem Kept.enroll (kept : p.Kept n (.making none (some seat) :: xs)) :
    (p.enroll seat).Kept n (.carrying seat :: xs) := by
  obtain ⟨counted, staffed⟩ := kept
  have moved : ((p.members ++ [seat]) ++ xs.flatMap Stance.made).Perm
      (p.members ++ (Stance.making none (some seat) :: xs).flatMap Stance.made) := by
    rw [List.append_assoc]
    rfl
  refine ⟨{ counted with }, ?_, ?_, moved.nodup_iff.mpr staffed.distinct,
    fun s member => staffed.known s (moved.mem_iff.mp member), ?_⟩
  · exact staffed.seating.recast rfl fun seat suits => trivial
  · have roster := staffed.roster
    simp only [Pool.enroll, checkedOut, List.flatMap_cons, Stance.carried] at roster ⊢
    grind
  · have room := staffed.room
    rw [List.countP_cons_of_pos rfl] at room
    rw [List.countP_cons_of_neg (by simp [Stance.isMaking])]
    simp only [Pool.enroll, List.length_append, List.length_singleton]
    omega

theorem Kept.enrollFor (kept : p.Kept n (.making (some ticket) (some seat) :: xs)) :
    ((p.enroll seat).seat ticket seat).Kept n (.seated ticket seat :: xs) := by
  obtain ⟨counted, staffed⟩ := kept
  obtain ⟨before, l, after, whole, rfl, -, others⟩ := leaseSplit counted.leases counted.single rfl
  have free : l.seat = none :=
    staffed.seating _ List.mem_cons_self l (by simp [whole]) List.mem_cons_self
  have moved : ((p.members ++ [seat]) ++ xs.flatMap Stance.made).Perm
      (p.members ++ (Stance.making (some l.ticket) (some seat) :: xs).flatMap Stance.made) := by
    rw [List.append_assoc]
    rfl
  rw [seatSplit (p := p.enroll seat) whole others]
  have seating := staffed.seating
  have leases := counted.leases
  have roster := staffed.roster
  have room := staffed.room
  rw [whole] at seating leases
  constructor
  · exact { counted with leases := (reseatTerms _).symm ▸ leases }
  · refine ⟨seating.reseat (counted.apart rfl) rfl others rfl, ?_,
      moved.nodup_iff.mpr staffed.distinct,
      fun s member => staffed.known s (moved.mem_iff.mp member), ?_⟩
    · simp only [Pool.enroll, checkedOut, whole, List.filterMap_append, List.filterMap_cons, free,
        List.flatMap_cons, Stance.carried] at roster ⊢
      grind
    · rw [List.countP_cons_of_pos rfl] at room
      rw [List.countP_cons_of_neg (by simp [Stance.isMaking])]
      simp only [Pool.enroll, List.length_append, List.length_singleton]
      omega

theorem Kept.leave (kept : p.Kept n (.seated ticket seat :: xs)) :
    p.Kept n (.leaving ticket :: xs) := by
  obtain ⟨counted, staffed⟩ := kept
  exact ⟨{ counted with }, { staffed with
    seating := staffed.seating.recast rfl fun seat suits => trivial }⟩

theorem Kept.putBack (kept : p.Kept n (.leaving ticket :: xs)) :
    (p.putBack ticket).Kept n (.empty ticket 1 :: xs) := by
  obtain ⟨counted, staffed⟩ := kept
  obtain ⟨before, l, after, whole, rfl, -, others⟩ := leaseSplit counted.leases counted.single rfl
  have seating := staffed.seating
  have leases := counted.leases
  have roster := staffed.roster
  rw [whole] at seating leases
  cases taken : l.seat with
  | none =>
    rw [putBackEmpty whole others taken]
    refine ⟨{ counted with }, { staffed with seating := ?_ }⟩
    have same := seating.reseat (y := .empty l.ticket 1) (counted.apart rfl) rfl others rfl
    rwa [← taken, ← whole] at same
  | some seat =>
    rw [putBackSplit whole others taken]
    refine ⟨{ counted with leases := (reseatTerms _).symm ▸ leases }, { staffed with
      seating := seating.reseat (counted.apart rfl) rfl others rfl, roster := ?_ }⟩
    simp only [checkedOut, whole, List.filterMap_append, List.filterMap_cons, taken,
      List.flatMap_cons, Stance.carried] at roster ⊢
    grind

theorem Kept.free (kept : p.Kept n (.empty ticket permits :: xs)) :
    (p.free ticket).Kept n xs := by
  obtain ⟨counted, staffed⟩ := kept
  obtain ⟨before, l, after, whole, rfl, rfl, others⟩ :=
    leaseSplit counted.leases counted.single rfl
  have vacant : l.seat = none :=
    staffed.seating _ List.mem_cons_self l (by simp [whole]) List.mem_cons_self
  have seating := staffed.seating
  have leases := counted.leases
  have roster := staffed.roster
  have balance := counted.balance
  have single := counted.single
  have issued := counted.issued
  rw [freeSplit whole others]
  rw [whole] at seating leases
  constructor
  · refine ⟨counted.opened, (Permits.giveBackTerms ..).trans counted.terms,
      Permits.giveBackFull counted.full _, ?_, (List.nodup_cons.mp single).2,
      fun t member => issued t (List.mem_cons_of_mem _ member), ?_⟩
    · rw [List.map_append, List.map_cons] at leases
      rw [List.map_append]
      exact (List.perm_middle.symm.trans leases).cons_inv
    · rw [Permits.giveBackStock]
      simp only [List.flatMap_cons, Stance.leases, List.map_append, List.sum_append, List.map_cons,
        List.sum_cons, List.map_nil, List.sum_nil] at balance ⊢
      omega
  · refine { staffed with seating := seating.without.fewer, roster := ?_ }
    simpa only [checkedOut, whole, List.filterMap_append, List.filterMap_cons, vacant,
      List.flatMap_cons, Stance.carried, List.nil_append] using roster

theorem Kept.grow (kept : p.Kept n xs) (m : Nat) : (p.grow m).Kept n xs := by
  obtain ⟨counted, staffed⟩ := kept
  unfold Pool.grow
  split
  · exact ⟨counted, staffed⟩
  · refine ⟨{ counted with
      terms := (Permits.giveBackTerms ..).trans counted.terms
      full := Permits.giveBackFull counted.full _
      balance := ?_ }, { staffed with room := Nat.le_add_right_of_le staffed.room }⟩
    have balance := counted.balance
    rw [Permits.giveBackStock]
    simp only
    omega

theorem Kept.withdraw (kept : p.Kept n (.waiting ticket wanted :: xs)) :
    Kept { p with permits := p.permits.withdraw ticket } n xs := by
  obtain ⟨counted, staffed⟩ := kept
  have apart : ticket ∉ (xs.flatMap Stance.terms).map Prod.fst :=
    fun used => counted.apart rfl ((Stance.termsTickets xs).subset used)
  have others : ((xs.flatMap Stance.terms).filter fun t => t.1 ≠ ticket) =
      xs.flatMap Stance.terms :=
    List.filter_eq_self.mpr fun t member => by
      have differs : t.1 ≠ ticket := fun same => apart (same ▸ List.mem_map_of_mem member)
      simpa using differs
  refine ⟨{ counted with
    terms := ?_
    full := Permits.withdrawFull counted.full ticket
    single := (List.nodup_cons.mp counted.single).2
    issued := fun t member => counted.issued t (List.mem_cons_of_mem _ member)
    balance := ?_ }, { staffed with seating := staffed.seating.without }⟩
  · have kept := counted.terms.filter fun t => t.1 ≠ ticket
    rw [List.flatMap_cons, Stance.terms, List.filter_append, others] at kept
    exact (Permits.withdrawTerms ..).trans (by simpa using kept)
  · rw [Permits.withdrawStock]
    exact counted.balance

theorem Kept.withdrawNone (kept : p.Kept n xs) (absent : ticket ∉ xs.flatMap Stance.tickets) :
    Kept { p with permits := p.permits.withdraw ticket } n xs := by
  obtain ⟨counted, staffed⟩ := kept
  have others : (p.permits.terms.filter fun t => t.1 ≠ ticket) = p.permits.terms :=
    List.filter_eq_self.mpr fun t member => by
      have used := (Stance.termsTickets xs).subset
        (List.mem_map_of_mem (counted.terms.mem_iff.mp member))
      have differs : t.1 ≠ ticket := fun same => absent (same ▸ used)
      simpa using differs
  refine ⟨{ counted with
    terms := ?_
    full := Permits.withdrawFull counted.full ticket
    balance := ?_ }, { staffed with }⟩
  · exact ((Permits.withdrawTerms ..).trans (List.Perm.of_eq others)).trans counted.terms
  · rw [Permits.withdrawStock]
    exact counted.balance

theorem Kept.putBackNone (kept : p.Kept n (.empty ticket permits :: xs)) :
    p.putBack ticket = p := by
  obtain ⟨counted, staffed⟩ := kept
  obtain ⟨before, l, after, whole, rfl, -, others⟩ := leaseSplit counted.leases counted.single rfl
  exact putBackEmpty whole others
    (staffed.seating _ List.mem_cons_self l (by simp [whole]) List.mem_cons_self)

theorem Kept.forgetEmpty (kept : p.Kept n (.empty ticket permits :: xs)) :
    (p.forget ticket).Kept n xs := by
  have apart := kept.counted.apart rfl
  rw [Pool.forget, kept.putBackNone]
  exact kept.free.withdrawNone apart

theorem Kept.forgetLeaving (kept : p.Kept n (.leaving ticket :: xs)) :
    (p.forget ticket).Kept n xs :=
  kept.putBack.free.withdrawNone (kept.counted.apart rfl)

theorem Kept.forgetWaiting (kept : p.Kept n (.waiting ticket wanted :: xs)) :
    (p.forget ticket).Kept n xs := by
  have none : p.leaseOf ticket = none :=
    List.find?_eq_none.mpr fun l member => by simpa using kept.counted.noLease l member
  have same : (p.putBack ticket).free ticket = p := by
    simp only [Pool.putBack, Pool.free, none]
  rw [Pool.forget, same]
  exact kept.withdraw

theorem Kept.retire (kept : p.Kept n xs) (fresh : ticket ∉ xs.flatMap Stance.tickets)
    (issued : ticket < p.tickets) : p.Kept n (.gone ticket :: xs) := by
  obtain ⟨counted, staffed⟩ := kept
  refine ⟨{ counted with single := ?_, issued := ?_ }, { staffed with seating := ?_ }⟩
  · exact List.nodup_cons.mpr ⟨fresh, counted.single⟩
  · intro t member
    rcases List.mem_cons.mp member with rfl | old
    · exact issued
    · exact counted.issued t old
  · intro x member l among same
    rcases List.mem_cons.mp member with rfl | old
    · trivial
    · exact staffed.seating x old l among same

theorem Kept.freeGone (kept : p.Kept n (.empty ticket permits :: xs)) :
    (p.free ticket).Kept n (.gone ticket :: xs) := by
  refine kept.free.retire (kept.counted.apart rfl) ?_
  have issued : ticket < p.tickets := kept.counted.issued ticket List.mem_cons_self
  unfold Pool.free
  split <;> exact issued

theorem Kept.forgetGone (kept : p.Kept n (.gone ticket :: xs)) : (p.forget ticket).Kept n xs := by
  have apart := kept.counted.apart rfl
  obtain ⟨counted, staffed⟩ := kept
  have none : p.leaseOf ticket = none := by
    refine List.find?_eq_none.mpr fun l member => ?_
    have held : l.terms ∈ xs.flatMap Stance.leases :=
      counted.leases.mem_iff.mp (List.mem_map_of_mem member)
    have other : l.ticket ≠ ticket := fun same =>
      apart (same ▸ (Stance.leasesTickets xs).subset (List.mem_map_of_mem held))
    simpa using other
  have same : (p.putBack ticket).free ticket = p := by
    simp only [Pool.putBack, Pool.free, none]
  have others : p.Kept n xs := ⟨{ counted with
    single := (List.nodup_cons.mp counted.single).2
    issued := fun t member => counted.issued t (List.mem_cons_of_mem _ member) },
    { staffed with seating := staffed.seating.without }⟩
  rw [Pool.forget, same]
  exact others.withdrawNone apart

theorem Kept.forget (kept : p.Kept n (x :: xs)) (own : x.tickets = [ticket]) :
    (p.forget ticket).Kept n xs := by
  cases x with
  | waiting t wanted =>
    cases own
    exact kept.forgetWaiting
  | empty t permits =>
    cases own
    exact kept.forgetEmpty
  | making holder seat =>
    cases holder with
    | none => cases own
    | some t =>
      cases own
      exact kept.giveUp.forgetEmpty
  | seated t seat =>
    cases own
    exact kept.leave.forgetLeaving
  | leaving t =>
    cases own
    exact kept.forgetLeaving
  | carrying seat => cases own
  | gone t =>
    cases own
    exact kept.forgetGone

theorem Kept.forgetAll {tickets : List Nat} (kept : p.Kept n (ys ++ xs))
    (served : ∀ y ∈ ys, y.founds = false) (same : (ys.flatMap Stance.tickets).Perm tickets) :
    (tickets.foldl Pool.forget p).Kept n xs := by
  have ticketed (y : Stance) (member : y ∈ ys) : ∃ ticket, y.tickets = [ticket] := by
    have served := served y member
    rcases y with _ | _ | ⟨_ | _⟩ | _ | _ | _ | _ <;> simp_all [Stance.founds, Stance.tickets]
  induction tickets generalizing p ys with
  | nil =>
    cases ys with
    | nil => exact kept
    | cons y ys =>
      obtain ⟨ticket, own⟩ := ticketed y List.mem_cons_self
      simp [own] at same
  | cons ticket rest ih =>
    obtain ⟨y, member, among⟩ := List.mem_flatMap.mp (same.mem_iff.mpr List.mem_cons_self)
    obtain ⟨t, own⟩ := ticketed y member
    rw [own] at among
    obtain rfl := List.mem_singleton.mp among
    obtain ⟨before, after, rfl⟩ := List.append_of_mem member
    have front : (before ++ y :: after).Perm (y :: (before ++ after)) := List.perm_middle
    have fewer : before ++ after ⊆ before ++ y :: after := by simp
    have left : (p.forget ticket).Kept n ((before ++ after) ++ xs) :=
      (kept.perm (front.append_right xs)).forget own
    have others := (front.flatMap_right Stance.tickets).symm.trans same
    rw [List.flatMap_cons, own] at others
    exact ih left (fun z other => served z (fewer other)) others.cons_inv
      fun z other => ticketed z (fewer other)

theorem Kept.foundOne (kept : p.Kept n xs)
    (room : p.members.length + xs.countP Stance.isMaking < p.capacity) :
    p.Kept n (.making none none :: xs) := by
  obtain ⟨counted, staffed⟩ := kept
  refine ⟨{ counted with }, { staffed with seating := ?_, room := ?_ }⟩
  · intro x member l among same
    rcases List.mem_cons.mp member with rfl | later
    · cases same
    · exact staffed.seating x later l among same
  · rw [List.countP_cons_of_pos rfl]
    exact room

theorem Kept.found (kept : p.Kept n xs) (calm : xs.countP Stance.isMaking = 0) :
    p.Kept n (List.replicate p.missing (.making none none) ++ xs) := by
  have upTo (k : Nat) (few : p.members.length + k ≤ p.capacity) :
      p.Kept n (List.replicate k (.making none none) ++ xs) := by
    induction k with
    | zero => exact kept
    | succ k ih =>
      refine (ih (by omega)).foundOne ?_
      rw [List.countP_append, List.countP_replicate, calm]
      simp only [Stance.isMaking, if_true]
      omega
  refine upTo p.missing ?_
  have room := kept.staffed.room
  rw [Pool.missing]
  omega

theorem Kept.stock {seats : List Nat} (kept : p.Kept n (seats.map .carrying ++ xs)) :
    (p.stock seats).Kept n xs := by
  induction seats generalizing p with
  | nil => simpa [Pool.stock] using kept
  | cons s rest ih =>
    have one : (p.stock [s]).Kept n (rest.map .carrying ++ xs) := by
      obtain ⟨counted, staffed⟩ := kept
      refine ⟨{ counted with }, { staffed with seating := staffed.seating.without, roster := ?_ }⟩
      have roster := staffed.roster
      simp only [Pool.stock, checkedOut, List.map_cons, List.cons_append, List.flatMap_cons,
        Stance.carried] at roster ⊢
      grind
    have same : p.stock (s :: rest) = (p.stock [s]).stock rest := by
      simp [Pool.stock]
    rw [same]
    exact ih one

end Pool

end MutationPipeline
