import MutationPipeline.Proofs.Pool.Traffic

/-! A pool that is filled up, and a pool that is closed. The one makes no workers any more, the
other hands none out; and a pool is closed only when all its permits came back. -/
namespace MutationPipeline
variable {W V : Type}

namespace Permits

theorem giveBackClosed (p : Permits) (n : Nat) : (p.giveBack n).closed = p.closed := rfl

theorem withdrawClosed (p : Permits) (ticket : Nat) : (p.withdraw ticket).closed = p.closed := rfl

end Permits

namespace Pool
variable {p q : Pool} {ticket n : Nat} {xs ys : List Stance}

structure Alike (p q : Pool) : Prop where
  closed : q.permits.closed = p.permits.closed
  capacity : q.capacity = p.capacity
  members : q.members = p.members

theorem Alike.refl (p : Pool) : p.Alike p := ⟨rfl, rfl, rfl⟩

theorem Alike.trans {r : Pool} (first : p.Alike q) (second : q.Alike r) : p.Alike r where
  closed := second.closed.trans first.closed
  capacity := second.capacity.trans first.capacity
  members := second.members.trans first.members

/-- The pool may have as many workers as before, and is open if it was. -/
structure Level (p q : Pool) : Prop where
  closed : q.permits.closed = p.permits.closed
  capacity : q.capacity = p.capacity

theorem Level.refl (p : Pool) : p.Level p := ⟨rfl, rfl⟩

theorem Alike.level (alike : p.Alike q) : p.Level q := ⟨alike.closed, alike.capacity⟩

theorem claimAlike (p : Pool) (wanted : Nat) : p.Alike (p.claim wanted).1 := by
  refine ⟨?_, rfl, rfl⟩
  simp only [claim]
  split
  · rfl
  · exact Permits.claimClosed ..

theorem seatIdleAlike {seat : Nat} (found : p.seatIdle ticket = some (q, seat)) :
    p.Alike q ∧ seat ∈ p.idle := by
  unfold seatIdle at found
  split at found
  · cases found
  · next s idle shape =>
    cases found
    exact ⟨⟨rfl, rfl, rfl⟩, by simp [shape]⟩

theorem putBackAlike (p : Pool) (ticket : Nat) : p.Alike (p.putBack ticket) := by
  unfold putBack
  split <;> exact ⟨rfl, rfl, rfl⟩

theorem freeAlike (p : Pool) (ticket : Nat) : p.Alike (p.free ticket) := by
  unfold free
  split
  · exact ⟨Permits.giveBackClosed .., rfl, rfl⟩
  · exact .refl p

theorem forgetAlike (p : Pool) (ticket : Nat) : p.Alike (p.forget ticket) := by
  have freed := (p.putBackAlike ticket).trans ((p.putBack ticket).freeAlike ticket)
  exact freed.trans ⟨Permits.withdrawClosed .., rfl, rfl⟩

theorem forgetAllAlike (p : Pool) (tickets : List Nat) : p.Alike (tickets.foldl forget p) := by
  induction tickets generalizing p with
  | nil => exact .refl p
  | cons ticket rest ih => exact (p.forgetAlike ticket).trans (ih (p.forget ticket))

end Pool

def Vacant (xs : List Stance) : Prop := ((xs.flatMap Stance.leases).map Prod.snd).sum = 0

theorem Vacant.perm {xs ys : List Stance} (vacant : Vacant xs) (same : xs.Perm ys) : Vacant ys := by
  rw [Vacant, ← ((same.flatMap_right _).map _).sum_nat]
  exact vacant

theorem Vacant.append {xs ys : List Stance} : Vacant (xs ++ ys) ↔ Vacant xs ∧ Vacant ys := by
  simp only [Vacant, List.flatMap_append, List.map_append, List.sum_append]
  omega

theorem Pool.Kept.vacant {p : Pool} {n ticket : Nat} {xs : List Stance}
    (kept : p.Kept n (.empty ticket p.capacity :: xs)) : Vacant xs := by
  have balance := kept.counted.balance
  simp only [List.flatMap_cons, Stance.leases, List.map_append, List.sum_append, List.map_cons,
    List.map_nil, List.sum_cons, List.sum_nil] at balance
  rw [Vacant]
  omega

def Site.Booked (s : Site W V) (own others : List Stance) : Prop :=
  (s.pool.permits.closed = true ∧ Vacant own) ∨ s.Kept (own ++ others)

def Site.Full (s : Site W V) : Prop :=
  s.pool.permits.closed = false → s.pool.members.length = s.pool.capacity

variable {s s' : Site W V} {xs own others : List Stance}

theorem Site.Full.alike (full : s.Full) (alike : s.pool.Alike s'.pool) : s'.Full := by
  intro opened
  rw [alike.closed] at opened
  rw [alike.members, alike.capacity]
  exact full opened

def Site.Left (others : List Stance) (tickets : List Nat) (s : Site W V) : Prop :=
  s.pool.permits.closed = true ∨ ∃ own : List Stance,
    (own.flatMap Stance.tickets).Perm tickets ∧ Served own ∧ s.Kept (own ++ others)

theorem Site.Booked.left {own : List Stance} {tickets : List Nat} (booked : s.Booked own others)
    (served : Served own) (same : (own.flatMap Stance.tickets).Perm tickets) :
    s.Left others tickets :=
  booked.imp And.left fun kept => ⟨own, same, served, kept⟩

theorem Site.Booked.perm {ys : List Stance} (booked : s.Booked own others) (same : own.Perm ys) :
    s.Booked ys others := by
  rcases booked with ⟨closed, vacant⟩ | kept
  · exact .inl ⟨closed, vacant.perm same⟩
  · exact .inr (kept.perm (same.append_right others))

theorem Site.Booked.vacant (booked : s.Booked own others) (closed : s.pool.permits.closed = true) :
    Vacant own := by
  rcases booked with ⟨-, vacant⟩ | kept
  · exact vacant
  · rw [kept.counted.opened] at closed
    cases closed

theorem Site.Booked.split {ys : List Stance} (booked : s.Booked (own ++ ys) others) :
    s.Booked own (ys ++ others) ∧ (s.pool.permits.closed = true → Vacant ys) := by
  rcases booked with ⟨closed, vacant⟩ | kept
  · obtain ⟨first, second⟩ := Vacant.append.mp vacant
    exact ⟨.inl ⟨closed, first⟩, fun _ => second⟩
  · refine ⟨.inr (List.append_assoc own ys others ▸ kept), fun closed => ?_⟩
    rw [kept.counted.opened] at closed
    cases closed

theorem Site.Booked.join {ys : List Stance} (booked : s.Booked own (ys ++ others))
    (vacant : s.pool.permits.closed = true → Vacant ys) : s.Booked (own ++ ys) others := by
  rcases booked with ⟨closed, first⟩ | kept
  · exact .inl ⟨closed, Vacant.append.mpr ⟨first, vacant closed⟩⟩
  · exact .inr ((List.append_assoc own ys others).symm ▸ kept)

theorem Site.Booked.kept {x : Stance} {ticket permits : Nat} (booked : s.Booked (x :: own) others)
    (holds : x.leases = [(ticket, permits)]) (some : permits ≠ 0) :
    s.Kept (x :: (own ++ others)) := by
  rcases booked with ⟨closed, vacant⟩ | kept
  · simp only [Vacant, List.flatMap_cons, holds, List.map_append, List.sum_append, List.map_cons,
      List.map_nil, List.sum_cons, List.sum_nil] at vacant
    omega
  · exact kept

theorem Site.Booked.calm {holder seat : Option Nat} (full : s.Full)
    (booked : s.Booked [.making holder seat] others) : holder = none ∧ s.pool.permits.closed = true := by
  rcases booked with ⟨closed, vacant⟩ | kept
  · cases holder with
    | none => exact ⟨rfl, closed⟩
    | some ticket => simp [Vacant, Stance.leases] at vacant
  · have room := kept.staffed.room
    rw [List.singleton_append, List.countP_cons_of_pos rfl] at room
    have all := full kept.counted.opened
    omega

namespace Acquisition
variable {a : Acquisition W} {n : Next (Acquisition W) (Except PoolError (Nat × Nat))}

theorem settled (full : s.Full) (booked : s.Booked a.stances others) (ticket : Nat)
    (c : Creation W) : a ≠ .creating ticket c := by
  rintro rfl
  obtain ⟨seat, stance⟩ : ∃ seat, c.stance (some ticket) = .making (some ticket) seat := by
    cases c <;> exact ⟨_, rfl⟩
  have making : s.Booked [.making (some ticket) seat] others := stance ▸ booked
  cases (making.calm full).1

theorem movesAlike (settled : ∀ ticket c, a ≠ .creating ticket c)
    (move : (s', n) ∈ Acquisition.moves a s) : s.pool.Alike s'.pool ∧ s'.crew = s.crew := by
  cases a with
  | asking =>
    obtain ⟨rfl, -⟩ := memStep.mp move
    exact ⟨s.pool.claimAlike 1, rfl⟩
  | waiting ticket =>
    simp only [Acquisition.moves] at move
    split at move
    · obtain ⟨rfl, -⟩ := memFinish.mp move
      exact ⟨s.pool.forgetAlike ticket, rfl⟩
    · split at move
      · obtain ⟨rfl, -⟩ := memStep.mp move
        exact ⟨⟨rfl, rfl, rfl⟩, rfl⟩
      · cases move
  | choosing ticket =>
    simp only [Acquisition.moves] at move
    split at move
    · next pool seat found =>
      obtain ⟨rfl, -⟩ := memFinish.mp move
      exact ⟨(Pool.seatIdleAlike found).1, rfl⟩
    · obtain ⟨rfl, -⟩ := memStep.mp move
      exact ⟨.refl _, rfl⟩
  | creating ticket c => exact absurd rfl (settled ticket c)
  | failing ticket cause =>
    obtain ⟨rfl, -⟩ := memFinish.mp move
    exact ⟨s.pool.freeAlike ticket, rfl⟩

theorem movesIdle (settled : ∀ ticket c, a ≠ .creating ticket c) {ticket seat : Nat}
    (move : (s', .done (.ok (ticket, seat))) ∈ Acquisition.moves a s) :
    a = .choosing ticket ∧ seat ∈ s.pool.idle := by
  cases a with
  | asking => cases (memStep.mp move).2
  | waiting ticket =>
    simp only [Acquisition.moves] at move
    split at move
    · cases (memFinish.mp move).2
    · split at move
      · cases (memStep.mp move).2
      · cases move
  | choosing ticket =>
    simp only [Acquisition.moves] at move
    split at move
    · next pool seat found =>
      cases (memFinish.mp move).2
      exact ⟨rfl, (Pool.seatIdleAlike found).2⟩
    · cases (memStep.mp move).2
  | creating ticket c => exact absurd rfl (settled ticket c)
  | failing ticket cause => cases (memFinish.mp move).2

theorem movesWhole (settled : ∀ ticket c, a ≠ .creating ticket c) :
    (s', .panicked) ∉ Acquisition.moves a s := by
  intro move
  cases a with
  | asking => cases (memStep.mp move).2
  | waiting ticket =>
    simp only [Acquisition.moves] at move
    split at move
    · cases (memFinish.mp move).2
    · split at move
      · cases (memStep.mp move).2
      · cases move
  | choosing ticket =>
    simp only [Acquisition.moves] at move
    split at move
    · cases (memFinish.mp move).2
    · cases (memStep.mp move).2
  | creating ticket c => exact absurd rfl (settled ticket c)
  | failing ticket cause => cases (memFinish.mp move).2

theorem movesBooked (served : Served others) (full : s.Full) (booked : s.Booked a.stances others)
    (move : (s', n) ∈ Acquisition.moves a s) :
    s'.Booked (n.elim stances got a.stances) others := by
  have alike := (movesAlike (settled full booked) move).1
  rcases booked with ⟨closed, vacant⟩ | kept
  · refine .inl ⟨alike.closed.trans closed, ?_⟩
    cases a with
    | asking =>
      obtain ⟨-, rfl⟩ := memStep.mp move
      exact vacant
    | waiting ticket =>
      simp only [Acquisition.moves, Pool.isDisposed, closed, if_true] at move
      obtain ⟨-, rfl⟩ := memFinish.mp move
      rfl
    | creating ticket c => cases c <;> simp [Vacant, stances, Creation.stance, Stance.leases] at vacant
    | _ => simp [Vacant, stances, Stance.leases] at vacant
  · exact .inr (movesKept served kept move)

theorem movesLeft {cause : PoolError} (full : s.Full) (booked : s.Booked a.stances others)
    (move : (s', .done (.error cause)) ∈ Acquisition.moves a s) : s'.Left others a.tickets := by
  cases a with
  | asking => cases (memStep.mp move).2
  | waiting ticket =>
    simp only [Acquisition.moves] at move
    split at move
    · next closed =>
      obtain ⟨rfl, -⟩ := memFinish.mp move
      exact .inl ((s.pool.forgetAlike ticket).closed.trans closed)
    · split at move
      · cases (memStep.mp move).2
      · cases move
  | choosing ticket =>
    simp only [Acquisition.moves] at move
    split at move
    · cases (memFinish.mp move).2
    · cases (memStep.mp move).2
  | creating ticket c => exact absurd rfl (settled full booked ticket c)
  | failing ticket failure =>
    obtain ⟨rfl, -⟩ := memFinish.mp move
    have kept := booked.kept rfl Nat.one_ne_zero
    exact .inr ⟨[.gone ticket], .refl _, List.forall_mem_singleton.mpr rfl,
      Pool.Kept.freeGone kept⟩

end Acquisition

namespace Release
variable {ticket : Nat} {r : Release} {n : Next Release Unit}

theorem movesAlike (move : (s', n) ∈ Release.moves ticket r s) :
    s.pool.Alike s'.pool ∧ s'.crew = s.crew := by
  cases r with
  | puttingBack =>
    obtain ⟨rfl, -⟩ := memStep.mp move
    exact ⟨s.pool.putBackAlike ticket, rfl⟩
  | freeing =>
    obtain ⟨rfl, -⟩ := memFinish.mp move
    exact ⟨s.pool.freeAlike ticket, rfl⟩

theorem leases (ticket : Nat) (r : Release) : (r.stance ticket).leases = [(ticket, 1)] := by
  cases r <;> rfl

theorem movesLeft {u : Unit} (booked : s.Booked [r.stance ticket] others)
    (move : (s', .done u) ∈ Release.moves ticket r s) : s'.Left others [ticket] := by
  have kept := booked.kept (r.leases ticket) Nat.one_ne_zero
  cases r with
  | puttingBack => cases (memStep.mp move).2
  | freeing =>
    obtain ⟨rfl, -⟩ := memFinish.mp move
    exact .inr ⟨[.gone ticket], .refl _, List.forall_mem_singleton.mpr rfl,
      Pool.Kept.freeGone kept⟩

theorem movesWhole : (s', .panicked) ∉ Release.moves ticket r s := by
  intro move
  cases r with
  | puttingBack => cases (memStep.mp move).2
  | freeing => cases (memFinish.mp move).2

end Release

namespace Disposal
variable {d : Disposal W} {n : Next (Disposal W) (Except WorkerError Unit)}

def stances (capacity : Nat) : Disposal W → List Stance
  | .waiting ticket _ => [.waiting ticket (min capacity mostAwaited)]
  | .closing ticket => [.empty ticket (min capacity mostAwaited)]
  | _ => []

/-- It has waited for them before it closes the pool. -/
def Fits (p : Pool) : Disposal W → Prop
  | .asking => True
  | .waiting _ wanted => wanted = min p.capacity mostAwaited
  | .closing _ => True
  | _ => p.permits.closed = true

theorem served (capacity : Nat) (d : Disposal W) : Served (d.stances capacity) := by
  intro x member
  cases d with
  | waiting ticket wanted => rw [List.mem_singleton.mp member]; rfl
  | closing ticket => rw [List.mem_singleton.mp member]; rfl
  | _ => cases member

theorem calm (capacity : Nat) (d : Disposal W) :
    (d.stances capacity).countP Stance.isMaking = 0 := by
  cases d <;> rfl

variable {size : Nat}

theorem disposingCases {call : Option (Calling W)} {rest : List Nat} {first : Option WorkerError}
    (move : (s', n) ∈ Disposal.moves (.disposing call rest first) s) :
    s'.pool = s.pool ∧ s'.crew.seats = s.crew.seats ∧
      ∀ next, n = .go next → ∃ c r f, next = .disposing c r f := by
  cases call with
  | none =>
    cases rest with
    | nil =>
      obtain ⟨rfl, rfl⟩ := memFinish.mp move
      exact ⟨rfl, rfl, fun next go => by cases go⟩
    | cons seat rest =>
      obtain ⟨rfl, rfl⟩ := memStep.mp move
      refine ⟨rfl, rfl, fun next go => ?_⟩
      cases go
      exact ⟨_, _, _, rfl⟩
  | some call =>
    rcases Machine.withinCases move with ⟨q, inner, rfl⟩ | ⟨u, r, inner, same⟩ | ⟨inner, rfl⟩
    · obtain ⟨c, moved, rfl⟩ := Machine.onCases inner
      refine ⟨rfl, Calling.movesSeats moved, fun next go => ?_⟩
      cases go
      exact ⟨_, _, _, rfl⟩
    · obtain ⟨c, moved, rfl⟩ := Machine.onCases inner
      have seats := Calling.movesSeats moved
      cases r with
      | ok v =>
        cases same
        refine ⟨rfl, seats, fun next go => ?_⟩
        cases go
        exact ⟨_, _, _, rfl⟩
      | error e =>
        cases same
        refine ⟨rfl, seats, fun next go => ?_⟩
        cases go
        exact ⟨_, _, _, rfl⟩
    · obtain ⟨c, moved, rfl⟩ := Machine.onCases inner
      exact ⟨rfl, Calling.movesSeats moved, fun next go => by cases go⟩

theorem movesAlike (fits : d.Fits s.pool) (move : (s', n) ∈ Disposal.moves d s) :
    (s'.pool.permits.closed = false → s.pool.Alike s'.pool) ∧
      s'.pool.capacity = s.pool.capacity ∧ s'.crew.seats = s.crew.seats := by
  cases d with
  | asking =>
    simp only [Disposal.moves] at move
    split at move
    · obtain ⟨rfl, -⟩ := memFinish.mp move
      exact ⟨fun _ => .refl _, rfl, rfl⟩
    · obtain ⟨rfl, -⟩ := memStep.mp move
      exact ⟨fun _ => s.pool.claimAlike _, rfl, rfl⟩
  | waiting ticket wanted =>
    simp only [Disposal.moves] at move
    split at move
    · obtain ⟨rfl, -⟩ := memStep.mp move
      exact ⟨fun _ => .refl _, rfl, rfl⟩
    · split at move
      · obtain ⟨rfl, -⟩ := memStep.mp move
        exact ⟨fun _ => ⟨rfl, rfl, rfl⟩, rfl, rfl⟩
      · cases move
  | closing ticket =>
    obtain ⟨rfl, -⟩ := memStep.mp move
    exact ⟨fun opened => (by cases opened), rfl, rfl⟩
  | freeing ticket =>
    obtain ⟨rfl, -⟩ := memStep.mp move
    have alike := s.pool.freeAlike ticket
    exact ⟨fun _ => alike, alike.capacity, rfl⟩
  | clearing =>
    obtain ⟨rfl, -⟩ := memStep.mp move
    refine ⟨fun opened => ?_, rfl, rfl⟩
    have closed : s.pool.permits.closed = true := fits
    exact absurd (closed.symm.trans opened) (by decide)
  | disposing call rest first =>
    obtain ⟨pool, seats, -⟩ := disposingCases move
    exact ⟨fun _ => pool ▸ .refl _, pool ▸ rfl, seats⟩

theorem movesFits (fits : d.Fits s.pool) (move : (s', n) ∈ Disposal.moves d s) :
    n.elim (Fits s'.pool) (fun _ => d.Fits s'.pool) (d.Fits s'.pool) := by
  cases d with
  | asking =>
    simp only [Disposal.moves] at move
    split at move
    · obtain ⟨-, rfl⟩ := memFinish.mp move
      trivial
    · obtain ⟨rfl, rfl⟩ := memStep.mp move
      exact congrArg (min · mostAwaited) (s.pool.claimAlike _).capacity.symm
  | waiting ticket wanted =>
    simp only [Disposal.moves] at move
    split at move
    · obtain ⟨-, rfl⟩ := memStep.mp move
      trivial
    · split at move
      · obtain ⟨-, rfl⟩ := memStep.mp move
        trivial
      · cases move
  | closing ticket =>
    obtain ⟨rfl, rfl⟩ := memStep.mp move
    rfl
  | freeing ticket =>
    obtain ⟨rfl, rfl⟩ := memStep.mp move
    exact (s.pool.freeAlike ticket).closed.trans fits
  | clearing =>
    obtain ⟨rfl, rfl⟩ := memStep.mp move
    exact fits
  | disposing call rest first =>
    obtain ⟨pool, -, again⟩ := disposingCases move
    have closed : s'.pool.permits.closed = true := pool ▸ fits
    cases n with
    | go next =>
      obtain ⟨c, r, f, rfl⟩ := again next rfl
      exact closed
    | done r => exact closed
    | panicked => exact closed

/-- What disposing a pool leaves of its books, and of what somebody else has there. Who has waited for
fewer permits than there are must be alone when it closes the pool. -/
theorem movesBooked (fits : d.Fits s.pool) (whole : s.pool.capacity = size)
    (few : s'.pool.permits.closed = false ∨ size ≤ mostAwaited ∨ own = [])
    (booked : s.Booked own (d.stances size))
    (move : (s', n) ∈ Disposal.moves d s) :
    s'.Booked own (n.elim (stances size) (fun _ => d.stances size) (d.stances size)) := by
  subst whole
  cases d with
  | asking =>
    simp only [Disposal.moves] at move
    split at move
    · obtain ⟨rfl, rfl⟩ := memFinish.mp move
      exact booked
    · next opened =>
      obtain ⟨rfl, rfl⟩ := memStep.mp move
      refine .inr ?_
      rcases booked with ⟨closed, -⟩ | kept
      · exact absurd closed opened
      · have alone : s.Kept (own ++ []) := kept
        rw [List.append_nil] at alone
        exact Site.Kept.perm (Pool.Kept.claim alone _) (List.perm_append_singleton _ _).symm
  | waiting ticket wanted =>
    obtain rfl : wanted = min s.pool.capacity mostAwaited := fits
    simp only [Disposal.moves] at move
    split at move
    · next closed =>
      obtain ⟨rfl, rfl⟩ := memStep.mp move
      rcases booked with vacant | kept
      · exact .inl vacant
      · rw [Pool.isDisposed, kept.counted.opened] at closed
        cases closed
    · next opened =>
      split at move
      · next complete =>
        obtain ⟨rfl, rfl⟩ := memStep.mp move
        refine .inr ?_
        rcases booked with ⟨closed, -⟩ | kept
        · exact absurd closed opened
        · have front := Site.Kept.perm kept List.perm_append_comm
          exact Site.Kept.perm (Pool.Kept.lease front complete)
            (List.perm_append_singleton _ _).symm
      · cases move
  | closing ticket =>
    obtain ⟨rfl, rfl⟩ := memStep.mp move
    refine .inl ⟨rfl, ?_⟩
    rcases booked with ⟨-, vacant⟩ | kept
    · exact vacant
    · rcases few with opened | few | rfl
      · cases opened
      · have all : min s.pool.capacity mostAwaited = s.pool.capacity := Nat.min_eq_left few
        rw [stances, all] at kept
        exact Pool.Kept.vacant (Site.Kept.perm kept List.perm_append_comm)
      · rfl
  | freeing ticket =>
    obtain ⟨rfl, rfl⟩ := memStep.mp move
    exact .inl ⟨(s.pool.freeAlike ticket).closed.trans fits, booked.vacant fits⟩
  | clearing =>
    obtain ⟨rfl, rfl⟩ := memStep.mp move
    exact .inl ⟨fits, booked.vacant fits⟩
  | disposing call rest first =>
    obtain ⟨pool, -, again⟩ := disposingCases move
    have closed : s'.pool.permits.closed = true := pool ▸ fits
    cases n with
    | go next =>
      obtain ⟨c, r, f, rfl⟩ := again next rfl
      exact .inl ⟨closed, booked.vacant fits⟩
    | done r => exact .inl ⟨closed, booked.vacant fits⟩
    | panicked => exact .inl ⟨closed, booked.vacant fits⟩

theorem movesOver {r : Except WorkerError Unit} (move : (s', .done r) ∈ Disposal.moves d s) :
    d.stances size = [] := by
  cases d with
  | waiting ticket wanted =>
    simp only [Disposal.moves] at move
    split at move
    · cases (memStep.mp move).2
    · split at move
      · cases (memStep.mp move).2
      · cases move
  | closing ticket => cases (memStep.mp move).2
  | _ => rfl

theorem vacateBooked (fits : d.Fits s.pool) (booked : s.Booked own (d.stances size))
    (tokens : List Nat) : (s.vacate d.tickets tokens).Booked own [] := by
  rcases booked with ⟨closed, vacant⟩ | kept
  · exact .inl ⟨(s.pool.forgetAllAlike d.tickets).closed.trans closed, vacant⟩
  · have tickets : d.tickets = (d.stances size).flatMap Stance.tickets := by
      cases d with
      | freeing ticket =>
        have closed : s.pool.permits.closed = true := fits
        rw [kept.counted.opened] at closed
        cases closed
      | _ => rfl
    have left := Pool.Kept.forgetAll (Site.Kept.perm kept List.perm_append_comm) (d.served size)
      (.of_eq tickets.symm)
    refine .inr ?_
    rw [List.append_nil]
    refine left.more (Nat.le_of_eq ?_)
    rw [Site.vacate, Crew.abandonAllSeats]

end Disposal

end MutationPipeline
