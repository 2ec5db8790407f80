import MutationPipeline.Checker.Stage
import MutationPipeline.Proofs.Checker.Broadcasts

/-! Checking groups beside each other. The workers of all groups are ready, and so are those of the
pool that have none; only once a check has failed its worker may be left as it is, but then no group
gets a worker any more. -/
namespace MutationPipeline
variable {name : String} {active active' : Nat → Prop} {s s' : CheckSite} {others : List Stance}

theorem Stage.schedulePlanProper (plan : StagePlan) :
    (Stage.schedulePlan plan).Proper StageView.onSite where
  home := rfl
  aloof := by
    intro v u item more
    cases List.mem_singleton.mp more
    rfl
  stays := fun group seat p c u n move => Nat.le_of_eq (checkSize move).symm

theorem Pool.Kept.apart {p : Pool} {n : Nat} {xs : List Stance} (served : Served xs)
    (kept : p.Kept n xs) : (p.idle ++ xs.flatMap Stance.seats).Nodup ∧
      ∀ seat ∈ p.idle ++ xs.flatMap Stance.seats, seat ∈ p.members := by
  obtain ⟨-, roster⟩ := kept.served served
  have worked := (matched kept.counted.leases kept.counted.single kept.staffed.seating).1
  have inside : (p.idle ++ xs.flatMap Stance.seats).Subperm p.members :=
    ((List.subperm_append_left p.idle).mpr worked).trans roster.symm.subperm
  exact ⟨subpermNodup inside (List.nodup_append.mp kept.staffed.distinct).1,
    fun seat member => inside.subset member⟩

namespace Flight

def Ready (name : String) (active : Nat → Prop) (c : CheckCrew) :
    Flight (Handling CheckWork) Group (Except WorkerError Verdicts) → Prop
  | .working _ _ seat h => h.Ready name active seat c
  | _ => True

def Failed : Flight (Handling CheckWork) Group (Except WorkerError Verdicts) → Prop
  | .returning _ _ (.error _) _ => True
  | _ => False

def duties : Flight (Handling CheckWork) Group (Except WorkerError Verdicts) → List Nat
  | .working _ _ _ h => h.tokens
  | _ => []

def seats : Flight (Handling CheckWork) Group (Except WorkerError Verdicts) → List Nat
  | .working _ _ seat _ => [seat]
  | _ => []

end Flight

namespace Schedule
variable {f : GroupSchedule}

def duties (f : GroupSchedule) : List Nat := f.flights.flatMap Flight.duties

def seats (f : GroupSchedule) : List Nat := f.flights.flatMap Flight.seats

structure Ready (name : String) (active : Nat → Prop) (s : CheckSite) (f : GroupSchedule) :
    Prop where
  flights : ∀ x ∈ f.flights, x.Ready name active s.crew
  others : (∃ x ∈ f.flights, x.Failed) ∨ (s.pool.permits.closed = false →
    ∀ seat ∈ s.pool.members, seat ∉ f.seats → s.crew.Manned name active seat)

structure Sound (name : String) (active : Nat → Prop) (others : List Stance) (s : CheckSite)
    (f : GroupSchedule) : Prop where
  numbered : s.crew.Numbered
  attended : s.crew.Attended (CheckWork.Suits name active) f.duties
  full : s.Full
  booked : s.Booked f.stances others
  ready : f.Ready name active s

structure Left (name : String) (active : Nat → Prop) (others : List Stance) (s : CheckSite)
    (f : GroupSchedule) : Prop where
  numbered : s.crew.Numbered
  attended : s.crew.Attended (CheckWork.Suits name active) f.duties
  left : s.Left others f.tickets

theorem dutiesTokens (f : GroupSchedule) : f.duties ⊆ f.tokens Handling.tokens := by
  intro token member
  obtain ⟨x, flight, own⟩ := List.mem_flatMap.mp member
  refine List.mem_append_right _ (List.mem_flatMap.mpr ⟨x, flight, ?_⟩)
  cases x with
  | working item ticket seat h => exact own
  | _ => cases own

theorem stancesSeats (f : GroupSchedule) : f.stances.flatMap Stance.seats = f.seats := by
  rw [seatsStances, seats, List.flatMap_def]
  induction f.flights with
  | nil => rfl
  | cons x rest ih =>
    cases x with
    | working item ticket seat p => exact congrArg (seat :: ·) ih
    | returning item ticket result r => exact ih
    | refused item cause => exact ih

theorem noneFailed (calm : f.landing? = none) : ¬∃ x ∈ f.flights, x.Failed := by
  rintro ⟨x, member, failed⟩
  have still := List.findIdx?_eq_none_iff.mp calm x member
  cases x with
  | returning item ticket result r => cases still
  | _ => exact failed

theorem Sound.carried {g : GroupSchedule} (sound : f.Sound name active others s)
    (crew : s'.crew = s.crew) (alike : s.pool.Alike s'.pool) (booked : s'.Booked g.stances others)
    (ready : ∀ x ∈ g.flights, x ∈ f.flights ∨ x.Ready name active s.crew)
    (duties : f.duties ⊆ g.duties) (seats : f.seats ⊆ g.seats)
    (failed : (∃ x ∈ f.flights, x.Failed) → ∃ x ∈ g.flights, x.Failed) :
    g.Sound name active others s' where
  numbered := crew ▸ sound.numbered
  attended := by
    rw [crew]
    exact sound.attended.more duties fun _ _ may => may
  full := sound.full.alike alike
  booked := booked
  ready := by
    refine ⟨fun x member => ?_, ?_⟩
    · rw [crew]
      exact (ready x member).elim (sound.ready.flights x) id
    · refine sound.ready.others.imp failed ?_
      rw [alike.closed, alike.members, crew]
      exact fun manned opened seat member absent =>
        manned opened seat member fun worked => absent (seats worked)

theorem Sound.same {g : GroupSchedule} (sound : f.Sound name active others s)
    (flights : g.flights = f.flights) (crew : s'.crew = s.crew) (alike : s.pool.Alike s'.pool)
    (booked : s'.Booked g.stances others) : g.Sound name active others s' := by
  refine sound.carried crew alike booked (fun x member => .inl (flights ▸ member)) ?_ ?_ ?_
  · rw [duties, duties, flights]
    exact List.Subset.refl _
  · rw [seats, seats, flights]
    exact List.Subset.refl _
  · rw [flights]
    exact id

section Feed
variable {g : GroupSchedule} {item : Group} {known : List Group} {a : Acquisition CheckWork}
  {n : Next (Acquisition CheckWork) (Except PoolError (Nat × Nat))}

theorem Sound.acquires (sound : f.Sound name active others s) (served : Served others)
    (feed : f.feed = .acquiring item a known) (move : (s', n) ∈ Acquisition.moves a s) :
    s.pool.Alike s'.pool ∧ s'.crew = s.crew ∧ (∀ ticket c, a ≠ .creating ticket c) ∧
      s'.Booked (n.elim Acquisition.stances Acquisition.got a.stances ++
        f.flights.flatMap Flight.stances) others := by
  have booked := sound.booked
  rw [stances, feed] at booked
  obtain ⟨mine, vacant⟩ := booked.split
  have flying : Served (f.flights.flatMap Flight.stances) :=
    Schedule.served { f with feed := .ended : GroupSchedule }
  have settled := Acquisition.settled sound.full mine
  obtain ⟨alike, crew⟩ := Acquisition.movesAlike settled move
  refine ⟨alike, crew, settled, ?_⟩
  refine (Acquisition.movesBooked (flying.append served) sound.full mine move).join fun closed => ?_
  exact vacant (alike.closed ▸ closed)

theorem Sound.send {ticket seat : Nat} (sound : f.Sound name active others s)
    (served : Served others) (feed : f.feed = .acquiring item a known) (calm : f.landing? = none)
    (move : (s', .done (.ok (ticket, seat))) ∈ Acquisition.moves a s) :
    Sound name active others s'
      { feed := .open known, flights := f.flights ++ [.working item ticket seat .starting] } := by
  obtain ⟨alike, crew, settled, booked⟩ := sound.acquires served feed move
  obtain ⟨rfl, idle⟩ := Acquisition.movesIdle settled move
  have kept : s.Kept (f.stances ++ others) := by
    have mine := sound.booked
    rw [stances, feed] at mine ⊢
    exact mine.kept rfl Nat.one_ne_zero
  have opened : s.pool.permits.closed = false := kept.counted.opened
  obtain ⟨single, members⟩ := Pool.Kept.apart (f.served.append served) kept
  rw [List.flatMap_append, stancesSeats, ← List.append_assoc] at single members
  have free : seat ∉ f.seats := fun worked =>
    (List.nodup_append.mp (List.nodup_append.mp single).1).2.2 seat idle seat worked rfl
  have manned : ∀ other ∈ s.pool.members, other ∉ f.seats → s.crew.Manned name active other :=
    sound.ready.others.elim (fun failed => absurd failed (noneFailed calm)) fun manned =>
      manned opened
  refine sound.carried crew alike (booked.perm ?_) ?_ ?_ ?_ <|
    Exists.imp fun _ => And.imp_left (List.mem_append_left _)
  · simp only [stances, Feed.stances, List.flatMap_append, List.nil_append]
    exact List.perm_append_comm
  · intro x member
    refine (List.mem_append.mp member).imp_right fun new => ?_
    rw [List.mem_singleton.mp new]
    exact manned seat (members seat (by simp [idle])) free
  · rw [duties, duties, List.flatMap_append]
    exact List.subset_append_left _ _
  · rw [seats, seats, List.flatMap_append]
    exact List.subset_append_left _ _

theorem Sound.refuse {cause : PoolError} (sound : f.Sound name active others s)
    (served : Served others) (feed : f.feed = .acquiring item a known)
    (move : (s', .done (.error cause)) ∈ Acquisition.moves a s) :
    Sound name active others s'
      { feed := .open known, flights := f.flights ++ [.refused item cause] } := by
  obtain ⟨alike, crew, -, booked⟩ := sound.acquires served feed move
  refine sound.carried crew alike (booked.perm (.of_eq ?_)) ?_ ?_ ?_ <|
    Exists.imp fun _ => And.imp_left (List.mem_append_left _)
  · simp [stances, Feed.stances, Flight.stances, Acquisition.got, Next.elim]
  · intro x member
    refine (List.mem_append.mp member).imp_right fun new => ?_
    rw [List.mem_singleton.mp new]
    trivial
  · rw [duties, duties, List.flatMap_append]
    exact List.subset_append_left _ _
  · rw [seats, seats, List.flatMap_append]
    exact List.subset_append_left _ _

end Feed

section Work
variable {before rest : List (Flight (Handling CheckWork) Group (Except WorkerError Verdicts))}
  {x : Flight (Handling CheckWork) Group (Except WorkerError Verdicts)} {item : Group}
  {ticket seat : Nat} {h : Handling CheckWork} {u : CheckCrew} {staffing : Staffing}
  {mutants : List Mutant} {o : Next (Handling CheckWork) (Except WorkerError CheckAnswer)}

theorem checkCases {n : Next (Handling CheckWork) (Except WorkerError Verdicts)}
    (move : (u, n) ∈ checkMoves staffing mutants seat h s.crew) :
    ∃ o, (u, o) ∈ Handling.moves staffing seat (.check mutants) h s.crew ∧
      n = o.elim .go (fun r => .done (r.map CheckAnswer.verdictsOf)) .panicked := by
  rcases Machine.withinCases move with ⟨q, inner, rfl⟩ | ⟨v, r, inner, same⟩ | ⟨inner, rfl⟩
  · exact ⟨_, inner, rfl⟩
  · cases same
    exact ⟨_, inner, rfl⟩
  · exact ⟨_, inner, rfl⟩

theorem dutiesFront (flights : f.flights = before ++ x :: rest) :
    f.duties.Perm (x.duties ++ (before ++ rest).flatMap Flight.duties) := by
  rw [duties, flights]
  exact List.perm_middle.flatMap_right _

theorem seatsFront (flights : f.flights = before ++ x :: rest) :
    f.seats.Perm (x.seats ++ (before ++ rest).flatMap Flight.seats) := by
  rw [seats, flights]
  exact List.perm_middle.flatMap_right _

theorem Sound.holds {y : Stance} (sound : f.Sound name active others s)
    (flights : f.flights = before ++ x :: rest) (own : x.stances = [y])
    (leased : y.leases = [(ticket, 1)]) : s.Kept (f.stances ++ others) := by
  have front := stancesFront f before rest x
  rw [← flights, own] at front
  exact Site.Kept.perm ((sound.booked.perm front).kept leased Nat.one_ne_zero)
    (front.symm.append_right others)

structure Worked (name : String) (active : Nat → Prop) (s : CheckSite)
    (aside : List (Flight (Handling CheckWork) Group (Except WorkerError Verdicts))) (seat : Nat)
    (u : CheckCrew) (o : Next (Handling CheckWork) (Except WorkerError CheckAnswer)) : Prop where
  size : u.seats.size = s.crew.seats.size
  numbered : u.Numbered
  attended : u.Attended (CheckWork.Suits name active)
    (o.elim Handling.tokens (fun _ => []) [] ++ aside.flatMap Flight.duties)
  own : o.elim (Handling.Ready name active seat u)
    (fun r => ∀ v, r = .ok v → u.Manned name active seat) True
  flights : ∀ x ∈ aside, x.Ready name active u
  others : (∃ x ∈ aside, x.Failed) ∨ (s.pool.permits.closed = false →
    ∀ other ∈ s.pool.members, other ≠ seat → other ∉ aside.flatMap Flight.seats →
      u.Manned name active other)

variable (sound : f.Sound name active others s)
  (flights : f.flights = before ++ .working item ticket seat h :: rest)
include sound flights

theorem Sound.worked (served : Served others) (recovers : staffing.recovers = true)
    (move : (u, o) ∈ Handling.moves staffing seat (.check mutants) h s.crew) :
    Worked name active s (before ++ rest) seat u o := by
  have own : h.Ready name active seat s.crew :=
    sound.ready.flights (.working item ticket seat h) (by simp [flights])
  have suits (worker : Nat) (is : active worker) :
      (CheckWork.check mutants).Suits name active worker := is
  have turn := Handling.movesTurn own.begins move
  have reseated := Handling.movesReseated move
  have drift : Crew.Drift name active active (· ≠ seat) s.crew u := {
    occupant := reseated.others
    remembered := fun other _ before => (reseated.remembered other).trans before
    tokens := turn.tokens
    orders := fun x member => (turn.orders x member).imp And.left And.left
    answers := fun _ _ member => .inl (turn.answers member)
    active := fun _ is => is }
  have apart : seat ∉ (before ++ rest).flatMap Flight.seats := by
    have single := (Pool.Kept.apart (f.served.append served) (sound.holds flights rfl rfl)).1
    rw [List.flatMap_append, stancesSeats] at single
    have alone := (List.nodup_append.mp (List.nodup_append.mp single).2.1).1
    exact (List.nodup_cons.mp ((seatsFront flights).nodup_iff.mp alone)).1
  refine ⟨Handling.movesSize move, turn.numbered sound.numbered, ?_, ?_, ?_, ?_⟩
  · exact turn.attended (sound.attended.more (dutiesFront flights).subset fun _ _ may => may)
  · exact Handling.movesReady recovers sound.numbered suits own move
  · intro x member
    have ready := sound.ready.flights x (by
      rw [flights]
      exact List.perm_middle.mem_iff.mpr (List.mem_cons_of_mem _ member))
    cases x with
    | working item ticket other h =>
      refine Handling.Ready.drift ready drift fun same => apart ?_
      exact List.mem_flatMap.mpr ⟨_, member, List.mem_singleton.mpr same.symm⟩
    | returning item ticket result r => trivial
    | refused item cause => trivial
  · rcases sound.ready.others with ⟨x, member, failed⟩ | manned
    · refine .inl ⟨x, ?_, failed⟩
      rw [flights] at member
      rcases List.mem_cons.mp (List.perm_middle.mem_iff.mp member) with rfl | other
      · exact failed.elim
      · exact other
    · refine .inr fun opened other member differs absent => ?_
      refine (manned opened other member fun worked => ?_).drift drift differs
      rcases List.mem_cons.mp ((seatsFront flights).subset worked) with same | elsewhere
      · exact differs same
      · exact absent elsewhere

omit sound flights in
theorem Sound.gather {g : GroupSchedule}
    {own aside : List (Flight (Handling CheckWork) Group (Except WorkerError Verdicts))}
    (all : g.flights.Perm (own ++ aside)) (numbered : s.crew.Numbered) (full : s.Full)
    (attended : s.crew.Attended (CheckWork.Suits name active)
      (own.flatMap Flight.duties ++ aside.flatMap Flight.duties))
    (booked : s.Booked g.stances others) (flights : ∀ x ∈ own ++ aside, x.Ready name active s.crew)
    (manned : (∃ x ∈ own ++ aside, x.Failed) ∨ (s.pool.permits.closed = false →
      ∀ seat ∈ s.pool.members, seat ∉ own.flatMap Flight.seats →
        seat ∉ aside.flatMap Flight.seats → s.crew.Manned name active seat)) :
    Sound name active others s g := by
  refine ⟨numbered, ?_, full, booked, fun x member => flights x (all.mem_iff.mp member), ?_⟩
  · rw [← List.flatMap_append] at attended
    exact attended.more (all.flatMap_right _).symm.subset fun _ _ may => may
  · refine manned.imp (fun ⟨x, member, failed⟩ => ⟨x, all.mem_iff.mpr member, failed⟩) ?_
    intro manned opened seat member absent
    have apart : seat ∉ (own ++ aside).flatMap Flight.seats :=
      fun worked => absent ((all.flatMap_right _).symm.subset worked)
    rw [List.flatMap_append, List.mem_append, not_or] at apart
    exact manned opened seat member apart.1 apart.2

omit flights in
theorem Sound.resumed {y : Flight (Handling CheckWork) Group (Except WorkerError Verdicts)}
    (worked : Worked name active s (before ++ rest) seat u o)
    (waits : o.elim Handling.tokens (fun _ => []) [] = y.duties) (ready : y.Ready name active u)
    (settles : y.Failed ∨ seat ∈ y.seats ∨ u.Manned name active seat)
    (kept : Site.Kept { s with crew := u }
      (stances { f with flights := before ++ y :: rest : GroupSchedule } ++ others)) :
    Sound name active others { s with crew := u } { f with flights := before ++ y :: rest } := by
  have all : (before ++ y :: rest).Perm ([y] ++ (before ++ rest)) := List.perm_middle
  refine Sound.gather all worked.numbered sound.full ?_ (.inr kept) ?_ ?_
  · have attended := worked.attended
    rwa [waits, ← List.append_nil y.duties] at attended
  · intro x member
    rcases List.mem_cons.mp member with rfl | aside
    · exact ready
    · exact worked.flights x aside
  · rcases worked.others with ⟨x, member, failed⟩ | manned
    · exact .inl ⟨x, List.mem_cons_of_mem _ member, failed⟩
    · rcases settles with failed | seated | own
      · exact .inl ⟨y, List.mem_cons_self, failed⟩
      · refine .inr fun opened other member apart absent => manned opened other member ?_ absent
        rintro rfl
        exact apart (by simpa using seated)
      · refine .inr fun opened other member apart absent => ?_
        by_cases same : other = seat
        · exact same ▸ own
        · exact manned opened other member same absent

end Work

section Step
variable {plan : StagePlan} {v v' : StageView}
  {n : Next GroupSchedule (Option (Yield Group (Except WorkerError Verdicts)) × GroupSchedule)}

def Stays (active : Nat → Prop) (others : List Stance) (plan : StagePlan) (f : GroupSchedule)
    (s : CheckSite)
    (n : Next GroupSchedule (Option (Yield Group (Except WorkerError Verdicts)) × GroupSchedule)) :
    Prop :=
  n.elim (Sound plan.checker active others s)
    (fun r => match r with
      | (some ⟨_, .ok (.ok _)⟩, g) => g.Sound plan.checker active others s
      | _ => f.Left plan.checker active others s)
    (f.Left plan.checker active others s)

theorem movedStays (recovers : plan.staffing.recovers = true) (served : Served others)
    (sound : f.Sound plan.checker active others v.site)
    (move : Moved (Stage.schedulePlan plan) f v v' n) :
    Stays active others plan f v'.site n := by
  have proper := Stage.schedulePlanProper plan
  have left : f.Left plan.checker active others v.site := by
    refine ⟨sound.numbered, sound.attended, ?_⟩
    rcases sound.booked with ⟨closed, -⟩ | kept
    · exact .inl closed
    · exact .inr ⟨f.stances, .of_eq f.ticketsStances.symm, f.served, kept⟩
  cases move with
  | ended dry empty => exact left
  | offer feed =>
    refine sound.same rfl rfl (.refl _) ?_
    have booked := sound.booked
    rw [stances, feed] at booked
    exact booked
  | pull feed more => cases List.mem_singleton.mp more
  | dry feed more =>
    cases List.mem_singleton.mp more
    refine sound.same rfl rfl (.refl _) ?_
    have booked := sound.booked
    rw [stances, feed] at booked
    exact booked
  | acquire feed move =>
    obtain ⟨alike, crew, -, booked⟩ := sound.acquires served feed move
    exact sound.same rfl crew alike booked
  | send feed move calm => exact sound.send served feed calm move
  | refuse feed move => exact sound.refuse served feed move
  | feedBreaks feed move =>
    exact absurd move (Acquisition.movesWhole (sound.acquires served feed move).2.2.1)
  | reject flights => exact left
  | @work item ticket seat h u q before rest flights move =>
    have kept := Schedule.movedKept (fun _ _ => rfl) proper served (sound.holds flights rfl rfl)
      (.work flights move)
    obtain ⟨o, inner, same⟩ := checkCases move
    have worked := sound.worked flights served recovers inner
    cases o with
    | go q =>
      cases same
      exact sound.resumed worked rfl worked.own (.inr (.inl (List.mem_singleton_self _))) kept
    | done r => cases same
    | panicked => cases same
  | @answer item ticket seat h u r before rest flights move =>
    have kept := Schedule.movedKept (fun _ _ => rfl) proper served (sound.holds flights rfl rfl)
      (.answer flights move)
    obtain ⟨o, inner, same⟩ := checkCases move
    have worked := sound.worked flights served recovers inner
    cases o with
    | go q => cases same
    | done r =>
      cases same
      refine sound.resumed worked rfl trivial ?_ kept
      cases r with
      | ok v => exact .inr (.inr (worked.own v rfl))
      | error e => exact .inl trivial
    | panicked => cases same
  | @workBreaks item ticket seat h u before rest flights move =>
    have kept := Schedule.movedKept (fun _ _ => rfl) proper served (sound.holds flights rfl rfl)
      (.workBreaks flights move)
    obtain ⟨o, inner, same⟩ := checkCases move
    have worked := sound.worked flights served recovers inner
    cases o with
    | go q => cases same
    | done r => cases same
    | panicked =>
      refine ⟨worked.numbered, worked.attended.more ?_ fun _ _ may => may, .inr ?_⟩
      · exact List.Subset.trans (List.subset_append_right _ _) (dutiesFront flights).symm.subset
      · exact ⟨f.stances, .of_eq f.ticketsStances.symm, f.served, kept⟩
  | @release item ticket r b u c before rest flights move =>
    have leased : (b.stance ticket).leases = [(ticket, 1)] := by cases b <;> rfl
    have kept := Schedule.movedKept (fun _ _ => rfl) proper served (sound.holds flights rfl leased)
      (.release flights move)
    obtain ⟨alike, crew⟩ := Release.movesAlike move
    refine sound.carried crew alike (.inr kept) (fun x member => ?_) ?_ ?_ ?_
    · rcases List.mem_cons.mp (List.perm_middle.mem_iff.mp member) with rfl | other
      · exact .inr trivial
      · exact .inl (flights ▸ List.perm_middle.mem_iff.mpr (List.mem_cons_of_mem _ other))
    · exact List.Subset.trans (dutiesFront flights).subset
        (dutiesFront (x := .returning item ticket r c) rfl).symm.subset
    · exact List.Subset.trans (seatsFront flights).subset
        (seatsFront (x := .returning item ticket r c) rfl).symm.subset
    · rintro ⟨x, old, failed⟩
      rw [flights] at old
      rcases List.mem_cons.mp (List.perm_middle.mem_iff.mp old) with rfl | other
      · refine ⟨_, List.perm_middle.mem_iff.mpr List.mem_cons_self, ?_⟩
        cases r with
        | ok verdicts => exact failed
        | error e => trivial
      · exact ⟨x, List.perm_middle.mem_iff.mpr (List.mem_cons_of_mem _ other), failed⟩
  | @land item ticket r b u before rest flights move =>
    have leased : (b.stance ticket).leases = [(ticket, 1)] := by cases b <;> rfl
    have kept := Schedule.movedKept (fun _ _ => rfl) proper served (sound.holds flights rfl leased)
      (.land flights move)
    obtain ⟨alike, crew⟩ := Release.movesAlike move
    cases r with
    | ok verdicts =>
      refine sound.carried crew alike (.inr kept) (fun x member => ?_) (dutiesFront flights).subset
        (seatsFront flights).subset ?_
      · exact .inl (flights ▸ List.perm_middle.mem_iff.mpr (List.mem_cons_of_mem _ member))
      · rintro ⟨x, old, failed⟩
        rw [flights] at old
        rcases List.mem_cons.mp (List.perm_middle.mem_iff.mp old) with rfl | other
        · exact failed.elim
        · exact ⟨x, other, failed⟩
    | error e =>
      cases b with
      | puttingBack => cases (memStep.mp move).2
      | freeing =>
        have alone := Schedule.booksFront keptBooks flights (sound.holds flights rfl leased)
        have front := stancesFront f before rest (.returning item ticket (.error e) .freeing)
        rw [← flights] at front
        obtain ⟨rfl, -⟩ := memFinish.mp move
        refine ⟨sound.numbered, sound.attended, .inr ⟨.gone ticket :: _, ?_, ?_,
          Pool.Kept.freeGone alone⟩⟩
        · rw [ticketsStances]
          exact (front.symm.flatMap_right Stance.tickets)
        · exact List.forall_mem_cons.mpr ⟨rfl, Schedule.served _⟩

end Step

end Schedule

end MutationPipeline
