import MutationPipeline.Proofs.Pool.Closing

/-! Who has which worker of a pool, whether the pool is open or closed and however many workers it may have.
A worker is idle, or somebody has it checked out, or it is on its way into the pool. -/
namespace MutationPipeline

def Stance.coming : Stance → List Nat
  | .making _ (some seat) | .carrying seat => [seat]
  | _ => []

namespace Pool
variable {p q : Pool} {n m ticket seat permits wanted : Nat} {x y : Stance} {xs ys : List Stance}

def everyone (p : Pool) (xs : List Stance) : List Nat :=
  p.idle ++ p.checkedOut ++ xs.flatMap Stance.coming

structure Orderly (p : Pool) (n : Nat) (xs : List Stance) : Prop where
  leases : (p.leases.map Lease.terms).Perm (xs.flatMap Stance.leases)
  single : (xs.flatMap Stance.tickets).Nodup
  issued : ∀ t ∈ xs.flatMap Stance.tickets, t < p.tickets
  seating : Seating p.leases xs
  apart : (p.everyone xs).Nodup
  known : ∀ s ∈ p.everyone xs, s < n

namespace Orderly

theorem perm (orderly : p.Orderly n xs) (same : xs.Perm ys) : p.Orderly n ys where
  leases := orderly.leases.trans (same.flatMap_right _)
  single := (same.flatMap_right _).nodup_iff.mp orderly.single
  issued := fun t member => orderly.issued t ((same.flatMap_right _).mem_iff.mpr member)
  seating := fun x member => orderly.seating x (same.mem_iff.mpr member)
  apart := ((same.flatMap_right _).append_left _).nodup_iff.mp orderly.apart
  known := fun s member => orderly.known s (((same.flatMap_right _).append_left _).mem_iff.mpr member)

theorem more (orderly : p.Orderly n xs) (more : n ≤ m) : p.Orderly m xs :=
  { orderly with known := fun s member => Nat.lt_of_lt_of_le (orderly.known s member) more }

theorem fresh (capacity n : Nat) : (ofCapacity capacity).Orderly n [] where
  leases := .nil
  single := .nil
  issued := fun _ member => absurd member List.not_mem_nil
  seating := fun _ member => absurd member List.not_mem_nil
  apart := .nil
  known := fun _ member => absurd member List.not_mem_nil

theorem stranger (orderly : p.Orderly n (x :: xs)) (own : x.tickets = [ticket]) :
    ticket ∉ xs.flatMap Stance.tickets := by
  have single := orderly.single
  rw [List.flatMap_cons, own] at single
  exact (List.nodup_cons.mp single).1

theorem noLease (orderly : p.Orderly n (x :: xs)) (own : x.tickets = [ticket]) (none : x.leases = []) :
    ∀ l ∈ p.leases, l.ticket ≠ ticket := by
  rintro l member rfl
  have held : l.terms ∈ xs.flatMap Stance.leases := by
    have held := orderly.leases.mem_iff.mp (List.mem_map_of_mem member)
    rwa [List.flatMap_cons, none] at held
  exact orderly.stranger own ((Stance.leasesTickets xs).subset (List.mem_map_of_mem held))

theorem like (orderly : p.Orderly n xs) (leases : q.leases = p.leases) (tickets : p.tickets ≤ q.tickets)
    (idle : q.idle.Sublist p.idle) : q.Orderly n xs where
  leases := leases ▸ orderly.leases
  single := orderly.single
  issued := fun t member => Nat.lt_of_lt_of_le (orderly.issued t member) tickets
  seating := leases ▸ orderly.seating
  apart := by
    refine List.Nodup.sublist ?_ orderly.apart
    rw [everyone, checkedOut, leases]
    exact (idle.append_right _).append_right _
  known := by
    intro s member
    refine orderly.known s ?_
    rw [everyone, checkedOut, leases] at member
    exact ((idle.append_right _).append_right _).subset member

theorem recast (orderly : p.Orderly n (x :: xs)) (tickets : y.tickets = x.tickets)
    (leases : y.leases = x.leases) (coming : y.coming.Sublist x.coming)
    (suits : ∀ seat, x.Suits seat → y.Suits seat) : p.Orderly n (y :: xs) where
  leases := by
    rw [List.flatMap_cons, leases]
    exact orderly.leases
  single := by
    rw [List.flatMap_cons, tickets]
    exact orderly.single
  issued := by
    rw [List.flatMap_cons, tickets]
    exact orderly.issued
  seating := orderly.seating.recast tickets suits
  apart := ((coming.append_right _).append_left _).nodup orderly.apart
  known := fun s member => orderly.known s (((coming.append_right _).append_left _).subset member)

theorem claim (orderly : p.Orderly n xs) (wanted : Nat) :
    (p.claim wanted).1.Orderly n (.waiting p.tickets wanted :: xs) where
  leases := orderly.leases
  single := List.nodup_cons.mpr
    ⟨fun used => Nat.lt_irrefl _ (orderly.issued _ used), orderly.single⟩
  issued := by
    intro t member
    rcases List.mem_cons.mp member with rfl | old
    · exact Nat.lt_succ_self _
    · exact Nat.lt_succ_of_lt (orderly.issued t old)
  seating := by
    intro y member l among same
    rcases List.mem_cons.mp member with rfl | old
    · trivial
    · exact orderly.seating y old l among same
  apart := orderly.apart
  known := orderly.known

theorem lease (orderly : p.Orderly n (.waiting ticket wanted :: xs)) :
    (p.lease ticket wanted).Orderly n (.empty ticket wanted :: xs) := by
  have stranger := orderly.stranger rfl
  have same : (p.lease ticket wanted).everyone (.empty ticket wanted :: xs) = p.everyone xs := by
    simp [everyone, Pool.lease, checkedOut, Stance.coming]
  refine ⟨?_, orderly.single, orderly.issued, ?_, ?_, ?_⟩
  · rw [Pool.lease, List.map_append]
    exact List.perm_append_comm.trans (orderly.leases.cons _)
  · have others := orderly.seating.without
    rw [← List.append_nil p.leases] at others
    refine (others.insert stranger).cons rfl ?_ rfl
    rw [List.append_nil]
    exact orderly.noLease rfl rfl
  · rw [same]
    exact orderly.apart
  · rw [same]
    exact orderly.known

theorem seatIdle (orderly : p.Orderly n (.empty ticket 1 :: xs))
    (found : p.seatIdle ticket = some (q, seat)) : q.Orderly n (.seated ticket seat :: xs) := by
  unfold Pool.seatIdle at found
  split at found
  · cases found
  · next s idle shape =>
    cases found
    obtain ⟨before, l, after, whole, rfl, -, others⟩ :=
      leaseSplit orderly.leases orderly.single rfl
    have free : l.seat = none :=
      orderly.seating _ List.mem_cons_self l (by simp [whole]) List.mem_cons_self
    rw [seatSplit (p := { p with idle }) whole others]
    have seating := orderly.seating
    have leases := orderly.leases
    rw [whole] at seating leases
    have same : (everyone { p with idle, leases := before ++ { l with seat := some seat } :: after }
        (.seated l.ticket seat :: xs)).Perm (p.everyone (.empty l.ticket 1 :: xs)) := by
      simp only [everyone, checkedOut, whole, shape, List.filterMap_append, List.filterMap_cons, free,
        List.flatMap_cons, Stance.coming]
      grind
    exact ⟨(reseatTerms _).symm ▸ leases, orderly.single, orderly.issued,
      seating.reseat (orderly.stranger rfl) rfl others rfl, same.nodup_iff.mpr orderly.apart,
      fun s member => orderly.known s (same.mem_iff.mp member)⟩

theorem hire {holder : Option Nat} (orderly : p.Orderly n (.making holder none :: xs)) :
    p.Orderly (n + 1) (.making holder (some n) :: xs) := by
  have more : (p.everyone (.making holder (some n) :: xs)).Perm
      (n :: p.everyone (.making holder none :: xs)) := List.perm_middle
  refine ⟨?_, ?_, ?_, orderly.seating.recast (by cases holder <;> rfl) fun _ => id, ?_, fun s member => ?_⟩
  · cases holder <;> exact orderly.leases
  · cases holder <;> exact orderly.single
  · cases holder <;> exact orderly.issued
  · exact more.nodup_iff.mpr (List.nodup_cons.mpr
      ⟨fun used => Nat.lt_irrefl _ (orderly.known _ used), orderly.apart⟩)
  · rcases List.mem_cons.mp (more.mem_iff.mp member) with rfl | old
    · exact Nat.lt_succ_self _
    · exact Nat.lt_succ_of_lt (orderly.known s old)

theorem enrollFor (orderly : p.Orderly n (.making (some ticket) (some seat) :: xs)) :
    ((p.enroll seat).seat ticket seat).Orderly n (.seated ticket seat :: xs) := by
  obtain ⟨before, l, after, whole, rfl, -, others⟩ := leaseSplit orderly.leases orderly.single rfl
  have free : l.seat = none :=
    orderly.seating _ List.mem_cons_self l (by simp [whole]) List.mem_cons_self
  rw [seatSplit (p := p.enroll seat) whole others]
  have seating := orderly.seating
  have leases := orderly.leases
  rw [whole] at seating leases
  have same : (everyone { p.enroll seat with leases := before ++ { l with seat := some seat } :: after }
      (.seated l.ticket seat :: xs)).Perm (p.everyone (.making (some l.ticket) (some seat) :: xs)) := by
    simp only [everyone, checkedOut, whole, enroll, List.filterMap_append, List.filterMap_cons, free,
      List.flatMap_cons, Stance.coming]
    grind
  exact ⟨(reseatTerms _).symm ▸ leases, orderly.single, orderly.issued,
    seating.reseat (orderly.stranger rfl) rfl others rfl, same.nodup_iff.mpr orderly.apart,
    fun s member => orderly.known s (same.mem_iff.mp member)⟩

theorem putBack (orderly : p.Orderly n (x :: xs)) (own : x.tickets = [ticket])
    (held : x.leases = [(ticket, permits)]) :
    (p.putBack ticket).Orderly n (.empty ticket permits :: xs) ∧
      ∃ seat : Option Nat, x.Suits seat ∧ (p.putBack ticket).idle = p.idle ++ seat.toList ∧
        (p.putBack ticket).permits = p.permits := by
  obtain ⟨before, l, after, whole, rfl, rfl, others⟩ := leaseSplit orderly.leases orderly.single held
  have suits : x.Suits l.seat := orderly.seating _ List.mem_cons_self l (by simp [whole]) (by simp [own])
  have seating := orderly.seating
  have leases := orderly.leases
  rw [whole] at seating leases
  rw [List.flatMap_cons, held] at leases
  have single := orderly.single
  have issued := orderly.issued
  rw [List.flatMap_cons, own] at single issued
  have seated := seating.reseat (y := .empty l.ticket l.permits) (orderly.stranger own) rfl others rfl
  cases taken : l.seat with
  | none =>
    rw [putBackEmpty whole others taken]
    have fewer : (p.everyone (.empty l.ticket l.permits :: xs)).Sublist (p.everyone (x :: xs)) :=
      (List.sublist_append_right _ _).append_left _
    refine ⟨⟨whole ▸ leases, single, issued, ?_, fewer.nodup orderly.apart,
      fun s member => orderly.known s (fewer.subset member)⟩, none, taken ▸ suits, ?_, rfl⟩
    · rwa [← taken, ← whole] at seated
    · exact (List.append_nil _).symm
  | some seat =>
    rw [putBackSplit whole others taken]
    have fewer : (everyone
        { p with idle := p.idle ++ [seat], leases := before ++ { l with seat := none } :: after }
        (.empty l.ticket l.permits :: xs)).Subperm (p.everyone (x :: xs)) := by
      refine List.Subperm.trans (List.Perm.subperm ?_)
        ((List.sublist_append_right x.coming (xs.flatMap Stance.coming)).append_left
          (p.idle ++ p.checkedOut)).subperm
      simp only [everyone, checkedOut, whole, List.filterMap_append, List.filterMap_cons, taken,
        List.flatMap_cons, Stance.coming]
      grind
    refine ⟨⟨(reseatTerms _).symm ▸ leases, single, issued, seated, subpermNodup fewer orderly.apart,
      fun s member => orderly.known s (fewer.subset member)⟩, some seat, taken ▸ suits, rfl, rfl⟩

theorem free (orderly : p.Orderly n (.empty ticket permits :: xs)) :
    (p.free ticket).Orderly n (.gone ticket :: xs) ∧ (p.free ticket).idle = p.idle ∧
      (p.free ticket).permits = p.permits.giveBack permits := by
  obtain ⟨before, l, after, whole, rfl, rfl, others⟩ :=
    leaseSplit orderly.leases orderly.single rfl
  have vacant : l.seat = none :=
    orderly.seating _ List.mem_cons_self l (by simp [whole]) List.mem_cons_self
  have seating := orderly.seating
  have leases := orderly.leases
  rw [whole] at seating leases
  rw [freeSplit whole others]
  have same : everyone { p with permits := p.permits.giveBack l.permits, leases := before ++ after }
      (.gone l.ticket :: xs) = p.everyone (.empty l.ticket l.permits :: xs) := by
    simp [everyone, checkedOut, whole, vacant, Stance.coming]
  refine ⟨⟨?_, orderly.single, orderly.issued, ?_, same ▸ orderly.apart, same ▸ orderly.known⟩, rfl,
    rfl⟩
  · rw [List.map_append, List.map_cons] at leases
    rw [List.map_append]
    exact (List.perm_middle.symm.trans leases).cons_inv
  · exact seating.fewer.recast rfl fun _ _ => trivial

theorem drop (orderly : p.Orderly n (x :: xs)) (none : x.leases = []) : p.Orderly n xs := by
  have fewer : (p.everyone xs).Sublist (p.everyone (x :: xs)) :=
    (List.sublist_append_right _ _).append_left _
  have leases := orderly.leases
  rw [List.flatMap_cons, none] at leases
  exact ⟨leases, (List.sublist_append_right _ _).nodup orderly.single,
    fun t member => orderly.issued t (List.mem_append_right _ member), orderly.seating.without,
    fewer.nodup orderly.apart, fun s member => orderly.known s (fewer.subset member)⟩

theorem stock {seats : List Nat} (orderly : p.Orderly n (seats.map .carrying ++ xs)) :
    (p.stock seats).Orderly n xs := by
  have same : ((p.stock seats).everyone xs).Perm (p.everyone (seats.map .carrying ++ xs)) := by
    have coming : (seats.map Stance.carrying).flatMap Stance.coming = seats := by
      rw [List.flatMap_map]
      exact List.flatMap_singleton' seats
    rw [everyone, everyone, List.flatMap_append, coming, Pool.stock, checkedOut, checkedOut]
    grind
  have none {β : Type} (column : Stance → List β) (idle : ∀ seat, column (.carrying seat) = []) :
      (seats.map Stance.carrying ++ xs).flatMap column = xs.flatMap column := by
    rw [List.flatMap_append, List.flatMap_map, List.flatMap_eq_nil_iff.mpr fun seat _ => idle seat,
      List.nil_append]
  have leases := orderly.leases
  have single := orderly.single
  have issued := orderly.issued
  rw [none _ fun _ => rfl] at leases single issued
  exact ⟨leases, single, issued, fun x member => orderly.seating x (List.mem_append_right _ member),
    same.nodup_iff.mpr orderly.apart, fun s member => orderly.known s (same.mem_iff.mp member)⟩

theorem dropAll (orderly : p.Orderly n (ys ++ xs)) (none : ys.flatMap Stance.tickets = []) :
    p.Orderly n xs ∧ ys.flatMap Stance.leases = [] ∧ ys.flatMap Stance.seats = [] := by
  induction ys with
  | nil => exact ⟨orderly, rfl, rfl⟩
  | cons y ys ih =>
    rw [List.flatMap_cons, List.append_eq_nil_iff] at none
    have idle : y.leases = [] ∧ y.seats = [] := by
      rcases y with _ | _ | ⟨_ | _⟩ | _ | _ | _ | _ <;> first | exact ⟨rfl, rfl⟩ | cases none.1
    obtain ⟨rest, leases, seats⟩ := ih (orderly.drop idle.1) none.2
    refine ⟨rest, ?_, ?_⟩
    · rw [List.flatMap_cons, idle.1, leases]
      rfl
    · rw [List.flatMap_cons, idle.2, seats]
      rfl

theorem forget (orderly : p.Orderly n (x :: xs)) (own : x.tickets = [ticket]) :
    (p.forget ticket).Orderly n xs ∧
      (p.forget ticket).permits.stock = p.permits.stock + (x.leases.map Prod.snd).sum ∧
        (p.forget ticket).permits.terms.Perm (p.permits.terms.filter fun t => t.1 ≠ ticket) ∧
          ((∀ t, x ≠ .leaving t) → (p.forget ticket).idle = p.idle ++ x.seats) := by
  rcases x.leasesCases with ⟨none, idle, -⟩ | ⟨t, permits, held, tickets, -⟩
  · have none' : p.leaseOf ticket = Option.none :=
      List.find?_eq_none.mpr fun l member => by simpa using orderly.noLease own none l member
    have same : (p.putBack ticket).free ticket = p := by
      simp only [Pool.putBack, Pool.free, none']
    rw [Pool.forget, same, none, idle, List.append_nil]
    exact ⟨(orderly.drop none).like rfl (Nat.le_refl _) (List.Sublist.refl _),
      Permits.withdrawStock .., Permits.withdrawTerms .., fun _ => rfl⟩
  · rw [own] at tickets
    obtain rfl := List.head_eq_of_cons_eq tickets
    obtain ⟨emptied, seat, suits, idle, still⟩ := orderly.putBack own held
    obtain ⟨freed, idle', permits'⟩ := emptied.free
    refine ⟨(freed.drop rfl).like rfl (Nat.le_refl _) (List.Sublist.refl _), ?_, ?_, fun stays => ?_⟩
    · rw [Pool.forget, Permits.withdrawStock, permits', Permits.giveBackStock, still, held]
      rfl
    · rw [Pool.forget]
      refine (Permits.withdrawTerms ..).trans (List.Perm.filter _ ?_)
      rw [permits', still]
      exact Permits.giveBackTerms ..
    · rw [Pool.forget]
      refine idle'.trans (idle.trans (congrArg (p.idle ++ ·) ?_))
      cases x with
      | seated t s => exact congrArg Option.toList suits
      | empty t k => exact congrArg Option.toList suits
      | making holder s => exact congrArg Option.toList suits
      | leaving t => exact absurd rfl (stays t)
      | _ => cases held

theorem forgetAll {tickets : List Nat} (orderly : p.Orderly n (ys ++ xs))
    (same : (ys.flatMap Stance.tickets).Perm tickets) :
    (tickets.foldl Pool.forget p).Orderly n xs ∧
      (tickets.foldl Pool.forget p).permits.stock =
          p.permits.stock + ((ys.flatMap Stance.leases).map Prod.snd).sum ∧
        (∀ t ∈ (tickets.foldl Pool.forget p).permits.terms, t.1 ∉ tickets ∧ t ∈ p.permits.terms) ∧
          ((∀ y ∈ ys, ∀ t, y ≠ .leaving t) → (tickets.foldl Pool.forget p).idle.Perm
            (p.idle ++ ys.flatMap Stance.seats)) := by
  induction tickets generalizing p ys with
  | nil =>
    obtain ⟨rest, leases, seats⟩ := orderly.dropAll same.eq_nil
    rw [leases, seats, List.append_nil]
    exact ⟨rest, rfl, fun t member => ⟨List.not_mem_nil, member⟩, fun _ => .refl _⟩
  | cons ticket rest ih =>
    obtain ⟨y, member, among⟩ := List.mem_flatMap.mp (same.mem_iff.mpr List.mem_cons_self)
    have own : y.tickets = [ticket] := by
      rcases y with _ | _ | ⟨_ | _⟩ | _ | _ | _ | _ <;> simp_all [Stance.tickets]
    obtain ⟨before, after, rfl⟩ := List.append_of_mem member
    have front : (before ++ y :: after).Perm (y :: (before ++ after)) := List.perm_middle
    have first : p.Orderly n (y :: ((before ++ after) ++ xs)) := orderly.perm (front.append_right xs)
    obtain ⟨left, stock, terms, idle⟩ := first.forget own
    have others := (front.flatMap_right Stance.tickets).symm.trans same
    rw [List.flatMap_cons, own] at others
    obtain ⟨last, stock', terms', idle'⟩ := ih left others.cons_inv
    refine ⟨last, ?_, fun t member => ?_, fun stays => ?_⟩
    · have sum := ((front.flatMap_right Stance.leases).map Prod.snd).sum_nat
      rw [List.flatMap_cons, List.map_append, List.sum_append] at sum
      rw [List.foldl_cons, stock', stock]
      omega
    · obtain ⟨other, old⟩ := terms' t member
      obtain ⟨old, differs⟩ := List.mem_filter.mp (terms.mem_iff.mp old)
      refine ⟨fun among => ?_, old⟩
      rcases List.mem_cons.mp among with same | later
      · exact absurd same (by simpa using differs)
      · exact other later
    · have fewer : before ++ after ⊆ before ++ y :: after := by simp
      have seats : ((before ++ y :: after).flatMap Stance.seats).Perm
          (y.seats ++ (before ++ after).flatMap Stance.seats) := front.flatMap_right _
      refine (idle' fun z other => stays z (fewer other)).trans ?_
      rw [idle (stays y member), List.append_assoc]
      exact seats.symm.append_left _

theorem exclusive (orderly : p.Orderly n xs) : (xs.flatMap Stance.seats ++ p.idle).Nodup := by
  have held := (matched orderly.leases orderly.single orderly.seating).1
  refine subpermNodup ((held.append (.refl p.idle)).trans ?_) orderly.apart
  refine List.perm_append_comm.subperm.trans ?_
  exact (List.sublist_append_left _ _).subperm

end Orderly

end Pool

end MutationPipeline
