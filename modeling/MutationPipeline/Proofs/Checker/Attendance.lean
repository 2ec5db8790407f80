import MutationPipeline.Proofs.Checker.Flights
import MutationPipeline.Proofs.Pool.Draining
import MutationPipeline.Proofs.Pool.Founding

/-! The stage of a checker at work. Once it has filled the pool and told all workers the checker, every
worker is ready for its checks, and so is every one that it gets later. -/
namespace MutationPipeline
variable {name : String} {active active' : Nat → Prop} {s s' : CheckSite}
  {others others' : List Stance}

def Pool.Lasts (p q : Pool) : Prop := q.permits.closed = false → p.Alike q

theorem Pool.Alike.lasts {p q : Pool} (alike : p.Alike q) : p.Lasts q := fun _ => alike

theorem Site.Full.lasts (full : s.Full) (lasts : s.pool.Lasts s'.pool) : s'.Full := by
  intro opened
  exact full.alike (lasts opened) opened

theorem Site.Manned.drift (manned : s.Manned name active) (lasts : s.pool.Lasts s'.pool)
    (drift : Crew.Drift name active active' (fun _ => True) s.crew s'.crew) :
    s'.Manned name active' := by
  intro opened seat member
  have alike := lasts opened
  rw [alike.closed] at opened
  rw [alike.members] at member
  exact (manned opened seat member).drift drift trivial

theorem Activation.Begins.more {P Q : Nat → CheckWork → Prop} {a : Activation} (begins : a.Begins P)
    (also : ∀ worker w, P worker w → Q worker w) : a.Begins Q := by
  cases a with
  | remembering => trivial
  | calling call => exact Calling.Begins.more begins also

theorem Broadcast.Ready.drift {b : Broadcast Activation} (ready : b.Ready name active s)
    (lasts : s.pool.Lasts s'.pool)
    (drift : Crew.Drift name active active' (fun _ => True) s.crew s'.crew) :
    b.Ready name active' s' where
  begins := fun a member => (ready.begins a member).more drift.suits
  members := by
    intro members same opened
    have alike := lasts opened
    rw [alike.closed] at opened
    rw [alike.members]
    exact (ready.members members same opened).imp fun _ _ manned => manned.drift drift

theorem Schedule.Ready.drift {f : GroupSchedule} (ready : f.Ready name active s)
    (lasts : s.pool.Lasts s'.pool)
    (drift : Crew.Drift name active active' (fun _ => True) s.crew s'.crew) :
    f.Ready name active' s' where
  flights := by
    intro x member
    have ready := ready.flights x member
    cases x with
    | working item ticket seat h => exact Handling.Ready.drift ready drift trivial
    | returning item ticket result r => trivial
    | refused item cause => trivial
  others := by
    refine ready.others.imp_right fun manned opened seat member absent => ?_
    have alike := lasts opened
    rw [alike.closed] at opened
    rw [alike.members] at member
    exact (manned opened seat member absent).drift drift trivial

namespace Stage

def stances : Stage → List Stance
  | .filling _ f => f.stances
  | .borrowing _ a => a.stances
  | .asking _ ticket _ => [.leaving ticket]
  | .returning _ ticket _ r => [r.stance ticket]
  | .checking f | .routing _ _ f => f.stances
  | _ => []

def duties : Stage → List Nat
  | .activating _ b => b.tokens
  | .asking _ _ c => c.tokens
  | .checking f | .routing _ _ f => f.duties
  | _ => []

def isFilling : Stage → Bool
  | .filling .. => true
  | _ => false

def Ready (name : String) (active : Nat → Prop) (s : CheckSite) : Stage → Prop
  | .draining _ => True
  | .filling _ f => f.Ready s
  | .activating _ b => s.Full ∧ b.Ready name active s
  | .borrowing .. | .returning .. | .grouping .. => s.Full ∧ s.Manned name active
  | .asking _ _ c => s.Full ∧ s.Manned name active ∧ c.Begins (CheckWork.Suits name active)
  | .checking f | .routing _ _ f => s.Full ∧ f.Ready name active s

structure Sound (name : String) (active : Nat → Prop) (others : List Stance) (s : CheckSite)
    (stage : Stage) : Prop where
  numbered : s.crew.Numbered
  attended : s.crew.Attended (CheckWork.Suits name active) stage.duties
  booked : s.Booked stage.stances others
  ready : stage.Ready name active s

structure Left (name : String) (active : Nat → Prop) (others : List Stance) (s : CheckSite)
    (stage : Stage) : Prop where
  numbered : s.crew.Numbered
  attended : s.crew.Attended (CheckWork.Suits name active) stage.duties
  left : stage.isFilling = false → s.Left others stage.tickets

variable {stage : Stage}

theorem Sound.drift (sound : stage.Sound name active others s) (lasts : s.pool.Lasts s'.pool)
    (drift : Crew.Drift name active active' (fun _ => True) s.crew s'.crew)
    (numbered : s'.crew.Numbered)
    (attended : s'.crew.Attended (CheckWork.Suits name active') stage.duties)
    (booked : s'.Booked stage.stances others') : stage.Sound name active' others' s' := by
  refine ⟨numbered, attended, booked, ?_⟩
  have ready := sound.ready
  cases stage with
  | draining batch => trivial
  | filling batch f =>
    refine ⟨ready.begins, fun members same opened => ?_⟩
    have alike := lasts opened
    rw [alike.closed] at opened
    rw [alike.members, alike.capacity]
    exact ready.room members same opened
  | activating batch b => exact ⟨ready.1.lasts lasts, ready.2.drift lasts drift⟩
  | borrowing batch a => exact ⟨ready.1.lasts lasts, ready.2.drift lasts drift⟩
  | asking batch ticket c =>
    exact ⟨ready.1.lasts lasts, ready.2.1.drift lasts drift, ready.2.2.more drift.suits⟩
  | returning batch ticket answer r => exact ⟨ready.1.lasts lasts, ready.2.drift lasts drift⟩
  | grouping batch own => exact ⟨ready.1.lasts lasts, ready.2.drift lasts drift⟩
  | checking f => exact ⟨ready.1.lasts lasts, ready.2.drift lasts drift⟩
  | routing group verdicts f => exact ⟨ready.1.lasts lasts, ready.2.drift lasts drift⟩

theorem served (filled : stage.isFilling = false) : Served stage.stances := by
  cases stage with
  | filling batch f => cases filled
  | borrowing batch a => exact a.served
  | asking batch ticket c => exact List.forall_mem_singleton.mpr rfl
  | returning batch ticket answer r => exact List.forall_mem_singleton.mpr (r.served ticket)
  | checking f => exact f.served
  | routing group verdicts f => exact f.served
  | _ => exact fun x member => by cases member

theorem ticketsStances (filled : stage.isFilling = false) :
    stage.stances.flatMap Stance.tickets = stage.tickets := by
  cases stage with
  | filling batch f => cases filled
  | borrowing batch a => exact a.ticketsStances.symm
  | returning batch ticket answer r => cases r <;> rfl
  | checking f => exact f.ticketsStances.symm
  | routing group verdicts f => exact f.ticketsStances.symm
  | _ => rfl

theorem Sound.left (sound : stage.Sound name active others s) :
    stage.Left name active others s := by
  refine ⟨sound.numbered, sound.attended, fun filled => ?_⟩
  exact sound.booked.left (served filled) (.of_eq (ticketsStances filled))

theorem dutiesTokens : stage.duties ⊆ stage.tokens := by
  cases stage with
  | activating batch b => exact List.Subset.refl _
  | asking batch ticket c => exact List.Subset.refl _
  | checking f => exact f.dutiesTokens
  | routing group verdicts f => exact f.dutiesTokens
  | _ => exact List.nil_subset _

section Moves
variable {plan : StagePlan} {v v' : StageView} {n : Next Stage (Except RunError Unit)}
  {batch : List CoveredMutant}

def Follows (active : Nat → Prop) (others : List Stance) (plan : StagePlan) (stage : Stage)
    (s : CheckSite) (n : Next Stage (Except RunError Unit)) : Prop :=
  n.elim (Sound plan.checker active others s) (fun _ => stage.Left plan.checker active others s)
    (stage.Left plan.checker active others s)

theorem fillingFollows {f : Filling CheckWork} (calm : others.countP Stance.isMaking = 0)
    (sound : (Stage.filling batch f).Sound plan.checker active others v.site)
    (move : (v', n) ∈ moves plan (.filling batch f) v) :
    Follows active others plan (.filling batch f) v'.site n := by
  have whole {u o} (inner : (u, o) ∈ Filling.moves f v.site) :
      u.crew.Numbered ∧ u.crew.Attended (CheckWork.Suits plan.checker active) [] := by
    have aloof := Filling.movesAloof sound.ready inner
    exact ⟨aloof.numbered sound.numbered, aloof.attended sound.attended⟩
  have left {u o} (inner : (u, o) ∈ Filling.moves f v.site) :
      (Stage.filling batch f).Left plan.checker active others u :=
    ⟨(whole inner).1, (whole inner).2, fun none => by cases none⟩
  rcases Machine.withinCases move with ⟨q, inner, rfl⟩ | ⟨u, r, inner, same⟩ | ⟨inner, rfl⟩
  · obtain ⟨u, moved, rfl⟩ := Machine.onCases inner
    exact ⟨(whole moved).1, (whole moved).2, Filling.movesBooked calm sound.booked moved,
      Filling.movesReady sound.booked sound.ready moved⟩
  · obtain ⟨u, moved, rfl⟩ := Machine.onCases inner
    cases r with
    | ok r =>
      cases same
      have full := Filling.movesReady sound.booked sound.ready moved rfl
      refine ⟨(whole moved).1, (whole moved).2,
        Filling.movesBooked calm sound.booked moved rfl, full, ?_, ?_⟩
      · exact fun a member => by cases member
      · exact fun members same => by cases same
    | error e =>
      cases same
      exact left moved
  · obtain ⟨u, moved, rfl⟩ := Machine.onCases inner
    exact left moved

theorem activatingFollows {b : Broadcast Activation} (recovers : plan.staffing.recovers = true)
    (sound : (Stage.activating batch b).Sound plan.checker active others v.site)
    (move : (v', n) ∈ moves plan (.activating batch b) v) :
    Follows active others plan (.activating batch b) v'.site n := by
  obtain ⟨full, ready⟩ := sound.ready
  have inside (opened : v.site.pool.permits.closed = false) (seat : Nat)
      (member : seat ∈ v.site.pool.members) : seat < v.site.crew.seats.size := by
    rcases sound.booked with ⟨closed, -⟩ | kept
    · exact absurd (closed.symm.trans opened) (by decide)
    · exact kept.staffed.known seat (List.mem_append_left _ member)
  have whole {u o} (inner : (u, o) ∈ Broadcast.tell plan.staffing plan.checker b v.site) :
      u.crew.Numbered ∧ u.Full ∧ u.Booked [] others ∧
        u.crew.Attended (CheckWork.Suits plan.checker active)
          (o.elim Broadcast.tokens (fun _ => b.tokens) b.tokens) := by
    obtain ⟨pool, size⟩ := Broadcast.tellQuiet inner
    refine ⟨Broadcast.tellNumbered ready.begins inner sound.numbered,
      full.alike (pool ▸ .refl _), ?_, Broadcast.tellAttended ready.begins inner sound.attended⟩
    refine sound.booked.imp (fun vacant => pool ▸ vacant) fun kept => ?_
    exact kept.more pool (Nat.le_of_eq size.symm)
  have left {u} (numbered : u.crew.Numbered) (booked : u.Booked [] others)
      (attended : u.crew.Attended (CheckWork.Suits plan.checker active) b.tokens) :
      (Stage.activating batch b).Left plan.checker active others u :=
    ⟨numbered, attended, fun _ => booked.left (fun x member => by cases member) (.refl _)⟩
  rcases Machine.withinCases move with ⟨q, inner, rfl⟩ | ⟨u, r, inner, same⟩ | ⟨inner, rfl⟩
  · obtain ⟨u, moved, rfl⟩ := Machine.onCases inner
    obtain ⟨numbered, full, booked, attended⟩ := whole moved
    exact ⟨numbered, attended, booked, full,
      Broadcast.tellReady recovers sound.numbered inside ready moved⟩
  · obtain ⟨u, moved, rfl⟩ := Machine.onCases inner
    obtain ⟨numbered, full, booked, attended⟩ := whole moved
    cases r with
    | ok r =>
      cases same
      have manned := Broadcast.tellReady recovers sound.numbered inside ready moved rfl
      have all : b.tokens = [] := Broadcast.tellDone moved rfl
      rw [Next.elim, all] at attended
      exact ⟨numbered, attended, booked, full, manned⟩
    | error e =>
      cases same
      exact left numbered booked attended
  · obtain ⟨u, moved, rfl⟩ := Machine.onCases inner
    obtain ⟨numbered, full, booked, attended⟩ := whole moved
    exact left numbered booked attended

theorem borrowingFollows {a : Acquisition CheckWork} (served : Served others)
    (sound : (Stage.borrowing batch a).Sound plan.checker active others v.site)
    (move : (v', n) ∈ moves plan (.borrowing batch a) v) :
    Follows active others plan (.borrowing batch a) v'.site n := by
  obtain ⟨full, manned⟩ := sound.ready
  have settled := Acquisition.settled full sound.booked
  have whole {u o} (inner : (u, o) ∈ Acquisition.moves a v.site) : u.crew.Numbered ∧
      u.crew.Attended (CheckWork.Suits plan.checker active) [] ∧ u.Full ∧
        u.Manned plan.checker active := by
    obtain ⟨alike, crew⟩ := Acquisition.movesAlike settled inner
    refine ⟨crew ▸ sound.numbered, crew ▸ sound.attended, full.alike alike, ?_⟩
    intro opened
    rw [alike.closed] at opened
    rw [alike.members, crew]
    exact manned opened
  rcases Machine.withinCases move with ⟨q, inner, rfl⟩ | ⟨u, r, inner, same⟩ | ⟨inner, rfl⟩
  · obtain ⟨u, moved, rfl⟩ := Machine.onCases inner
    obtain ⟨numbered, attended, full', manned'⟩ := whole moved
    exact ⟨numbered, attended, Acquisition.movesBooked served full sound.booked moved, full',
      manned'⟩
  · obtain ⟨u, moved, rfl⟩ := Machine.onCases inner
    obtain ⟨numbered, attended, full', manned'⟩ := whole moved
    cases r with
    | ok lent =>
      obtain ⟨ticket, seat⟩ := lent
      cases same
      have booked := Acquisition.movesBooked served full sound.booked moved
      have kept := booked.kept rfl Nat.one_ne_zero
      have alike : v.site.pool.Alike u.pool := (Acquisition.movesAlike settled moved).1
      have idle : seat ∈ v.site.pool.idle := (Acquisition.movesIdle settled moved).2
      refine ⟨numbered, attended, .inr (Pool.Kept.leave kept), full', manned', ?_⟩
      have member : seat ∈ u.pool.members := by
        rw [alike.members]
        rcases sound.booked with ⟨closed, -⟩ | before
        · rw [← alike.closed, kept.counted.opened] at closed
          cases closed
        · exact before.staffed.roster.mem_iff.mpr (by simp [idle])
      exact (manned' kept.counted.opened seat member).active
    | error e =>
      cases same
      exact ⟨numbered, attended, fun _ => Acquisition.movesLeft full sound.booked moved⟩
  · obtain ⟨u, moved, rfl⟩ := Machine.onCases inner
    exact absurd moved (Acquisition.movesWhole settled)

theorem askingFollows {ticket : Nat} {c : Calling CheckWork}
    (sound : (Stage.asking batch ticket c).Sound plan.checker active others v.site)
    (move : (v', n) ∈ moves plan (.asking batch ticket c) v) :
    Follows active others plan (.asking batch ticket c) v'.site n := by
  obtain ⟨full, manned, begins⟩ := sound.ready
  have whole {u o} (inner : (u, o) ∈ (callMoves : Machine CheckSite _ _) c v.site) :
      u.crew.Numbered ∧ u.crew.Attended (CheckWork.Suits plan.checker active)
        (o.elim Calling.tokens (fun _ => []) []) ∧ u.Booked [.leaving ticket] others ∧ u.Full ∧
          u.Manned plan.checker active := by
    have turn := callMovesTurn begins inner
    obtain ⟨crew, moved, rfl⟩ := Machine.onCases inner
    have seats : (Site.onCrew.set crew v.site).crew.seats = v.site.crew.seats :=
      Calling.movesSeats moved
    refine ⟨turn.numbered sound.numbered, ?_, ?_, full, ?_⟩
    · have attended : v.site.crew.Attended _ (c.tokens ++ []) :=
        sound.attended.more (List.subset_append_left _ _) fun _ _ may => may
      exact (turn.attended attended).more (by simp) fun _ _ may => may
    · exact sound.booked.imp id fun kept => kept.more rfl (Nat.le_of_eq (by rw [seats]))
    · exact manned.drift (Pool.Alike.refl _).lasts (turn.drift fun s _ => by rw [seats])
  rcases Machine.withinCases move with ⟨q, inner, rfl⟩ | ⟨u, r, inner, same⟩ | ⟨inner, rfl⟩
  · obtain ⟨u, moved, rfl⟩ := Machine.onCases inner
    obtain ⟨numbered, attended, booked, full, manned⟩ := whole moved
    refine ⟨numbered, attended, booked, full, manned, ?_⟩
    obtain ⟨crew, called, -⟩ := Machine.onCases moved
    exact Calling.movesBegins called q rfl
  · obtain ⟨u, moved, rfl⟩ := Machine.onCases inner
    obtain ⟨numbered, attended, booked, full, manned⟩ := whole moved
    cases same
    exact ⟨numbered, attended, booked, full, manned⟩
  · obtain ⟨u, moved, rfl⟩ := Machine.onCases inner
    obtain ⟨numbered, attended, booked, full, manned⟩ := whole moved
    refine ⟨numbered, ?_, fun _ => booked.left (List.forall_mem_singleton.mpr rfl) (.refl _)⟩
    exact attended.more (List.nil_subset _) fun _ _ may => may

theorem returningFollows {ticket : Nat} {r : Release}
    {answer : Except WorkerError (Option (List (List Mutant)))}
    (sound : (Stage.returning batch ticket answer r).Sound plan.checker active others v.site)
    (move : (v', n) ∈ moves plan (.returning batch ticket answer r) v) :
    Follows active others plan (.returning batch ticket answer r) v'.site n := by
  obtain ⟨full, manned⟩ := sound.ready
  have whole {u o} (inner : (u, o) ∈ Release.moves ticket r v.site) : u.crew.Numbered ∧
      u.crew.Attended (CheckWork.Suits plan.checker active) [] ∧
        u.Kept (o.elim (fun r => [r.stance ticket]) (fun _ => []) [] ++ others) ∧ u.Full ∧
          u.Manned plan.checker active := by
    obtain ⟨alike, crew⟩ := Release.movesAlike inner
    refine ⟨crew ▸ sound.numbered, crew ▸ sound.attended, ?_, full.alike alike, ?_⟩
    · exact Release.movesKept (sound.booked.kept (r.leases ticket) Nat.one_ne_zero) inner
    · intro opened
      rw [alike.closed] at opened
      rw [alike.members, crew]
      exact manned opened
  rcases Machine.withinCases move with ⟨q, inner, rfl⟩ | ⟨u, o, inner, same⟩ | ⟨inner, rfl⟩
  · obtain ⟨u, moved, rfl⟩ := Machine.onCases inner
    obtain ⟨numbered, attended, kept, full, manned⟩ := whole moved
    exact ⟨numbered, attended, .inr kept, full, manned⟩
  · obtain ⟨u, moved, rfl⟩ := Machine.onCases inner
    obtain ⟨numbered, attended, kept, full, manned⟩ := whole moved
    cases answer with
    | ok own =>
      cases same
      exact ⟨numbered, attended, .inr kept, full, manned⟩
    | error e =>
      cases same
      exact ⟨numbered, attended, fun _ => Release.movesLeft sound.booked moved⟩
  · obtain ⟨u, moved, rfl⟩ := Machine.onCases inner
    exact absurd moved Release.movesWhole

theorem notesSite (notes : List Note) (v : StageView) :
    (notes.foldl StageView.note v).site = notes.foldl Site.note v.site := by
  induction notes generalizing v with
  | nil => rfl
  | cons first rest ih => exact ih (v.note first)

theorem Sound.notes (sound : stage.Sound name active others s) (notes : List Note) :
    stage.Sound name active others (notes.foldl Site.note s) := by
  induction notes generalizing s with
  | nil => exact sound
  | cons first rest ih =>
    have quiet : s.crew.Quiet (s.note first).crew := ⟨rfl, rfl, rfl⟩
    refine ih (sound.drift (Pool.Alike.refl _).lasts ?_ (quiet.aloof.numbered sound.numbered)
      (quiet.aloof.attended sound.attended) sound.booked)
    have turn : Crew.Turn (CheckWork.Suits name active) [] [] s.crew (s.note first).crew :=
      .none quiet (List.Subset.refl _)
    exact turn.drift fun _ _ => rfl

theorem groupingFollows {own : Option (List (List Mutant))}
    (sound : (Stage.grouping batch own).Sound plan.checker active others v.site)
    (move : (v', n) ∈ moves plan (.grouping batch own) v) :
    Follows active others plan (.grouping batch own) v'.site n := by
  have noted : (Stage.grouping batch own).Sound plan.checker active others
      ((groupsOf plan batch own).2.foldl StageView.note v).site := by
    rw [notesSite]
    exact sound.notes _
  simp only [moves] at move
  split at move
  · next gs made =>
    obtain ⟨rfl, rfl⟩ := memStep.mp move
    obtain ⟨numbered, attended, booked, full, manned⟩ :=
      noted.notes [groupsNote plan.checker gs.length]
    refine ⟨numbered, attended, booked, full, fun x member => (by cases member), .inr ?_⟩
    exact fun opened seat member _ => manned opened seat member
  · obtain ⟨rfl, rfl⟩ := memFinish.mp move
    exact noted.left

theorem Sound.checks {f : GroupSchedule} (sound : f.Sound name active others s) :
    (Stage.checking f).Sound name active others s :=
  ⟨sound.numbered, sound.attended, sound.booked, sound.full, sound.ready⟩

theorem checkingFollows {f : GroupSchedule} (recovers : plan.staffing.recovers = true)
    (served : Served others) (sound : (Stage.checking f).Sound plan.checker active others v.site)
    (move : (v', n) ∈ moves plan (.checking f) v) :
    Follows active others plan (.checking f) v'.site n := by
  have checks : f.Sound plan.checker active others v.site :=
    ⟨sound.numbered, sound.attended, sound.ready.1, sound.booked, sound.ready.2⟩
  have whole {u o} (inner : (u, o) ∈ Schedule.moves (schedulePlan plan) f v) :
      Schedule.Stays active others plan f u.site o :=
    Schedule.movedStays recovers served checks (Schedule.movesMoved inner)
  have left {u : StageView} (left : f.Left plan.checker active others u.site) :
      (Stage.checking f).Left plan.checker active others u.site :=
    ⟨left.numbered, left.attended, fun _ => left.left⟩
  rcases Machine.withinCases move with ⟨q, inner, rfl⟩ | ⟨u, ⟨y, g⟩, inner, same⟩ | ⟨inner, rfl⟩
  · exact Sound.checks (whole inner)
  · have stays := whole inner
    cases y with
    | none => cases same; exact left stays
    | some y =>
      obtain ⟨group, result⟩ := y
      cases result with
      | error e => cases same; exact left stays
      | ok answer =>
        cases answer with
        | error e => cases same; exact left stays
        | ok verdicts =>
          cases same
          have checks : g.Sound plan.checker active others v'.site := stays
          exact ⟨checks.numbered, checks.attended, checks.booked, checks.full, checks.ready⟩
  · exact left (whole inner)

theorem routeSite {m : CoveredMutant} {verdict : Verdict} {sent : Except RunError Unit}
    (move : (v', sent) ∈ route v m verdict) : v'.site = v.site := by
  unfold route at move
  split at move
  all_goals
    obtain ⟨⟨channel, taken⟩, -, same⟩ := List.mem_map.mp move
    cases same
    rfl

theorem routingFollows {group : Group} {verdicts : Verdicts} {f : GroupSchedule}
    (sound : (Stage.routing group verdicts f).Sound plan.checker active others v.site)
    (move : (v', n) ∈ moves plan (.routing group verdicts f) v) :
    Follows active others plan (.routing group verdicts f) v'.site n := by
  cases group with
  | nil =>
    obtain ⟨rfl, rfl⟩ := memStep.mp move
    exact ⟨sound.numbered, sound.attended, sound.booked, sound.ready⟩
  | cons m rest =>
    simp only [moves] at move
    split at move
    · obtain ⟨rfl, rfl⟩ := memFinish.mp move
      exact sound.left
    · next verdict found =>
      obtain ⟨⟨u, sent⟩, routed, same⟩ := List.mem_map.mp move
      have site : u.site = v.site := routeSite routed
      cases sent with
      | ok r =>
        cases same
        rw [site]
        exact ⟨sound.numbered, sound.attended, sound.booked, sound.ready⟩
      | error e =>
        cases same
        rw [site]
        exact sound.left

theorem drainingFollows (sound : (Stage.draining batch).Sound plan.checker active others v.site)
    (move : (v', n) ∈ moves plan (.draining batch) v) :
    Follows active others plan (.draining batch) v'.site n := by
  obtain ⟨⟨input, found⟩, received, same⟩ := List.mem_map.mp move
  cases found with
  | some m =>
    cases same
    exact ⟨sound.numbered, sound.attended, sound.booked, trivial⟩
  | none =>
    simp only at same
    split at same
    · cases same
      exact (sound.notes [emptyNote plan.checker]).left
    · cases same
      refine ⟨sound.numbered, sound.attended, sound.booked, ?_, ?_⟩
      · exact fun members same => by cases same
      · exact fun members same => by cases same

theorem movesFollows (recovers : plan.staffing.recovers = true) (served : Served others)
    (calm : others.countP Stance.isMaking = 0)
    (sound : stage.Sound plan.checker active others v.site) (move : (v', n) ∈ moves plan stage v) :
    Follows active others plan stage v'.site n := by
  cases stage with
  | draining batch => exact drainingFollows sound move
  | filling batch f => exact fillingFollows calm sound move
  | activating batch b => exact activatingFollows recovers sound move
  | borrowing batch a => exact borrowingFollows served sound move
  | asking batch ticket c => exact askingFollows sound move
  | returning batch ticket answer r => exact returningFollows sound move
  | grouping batch own => exact groupingFollows sound move
  | checking f => exact checkingFollows recovers served sound move
  | routing group verdicts f => exact routingFollows sound move

theorem notesPool (notes : List Note) (s : CheckSite) : (notes.foldl Site.note s).pool = s.pool := by
  induction notes generalizing s with
  | nil => rfl
  | cons first rest ih => exact ih (s.note first)

theorem siteLawful : StageView.onSite.Lawful := fun _ _ => rfl

theorem onSiteLevel {φ ρ : Type} {m : Machine CheckSite φ ρ} {p : φ} {embed : φ → Stage}
    {after : ρ → StageView → StageView × Next Stage (Except RunError Unit)}
    (move : (v', n) ∈ (onSite m).within embed after p v)
    (inner : ∀ u o, (u, o) ∈ m p v.site → v.site.pool.Level u.pool)
    (still : ∀ r u, (after r u).1 = u) : v.site.pool.Level v'.site.pool := by
  refine Machine.withinState (fun u => v.site.pool.Level u.site.pool) move
    (fun u o moved => ?_) fun r u same => (still r u).symm ▸ same
  obtain ⟨w, here, rfl⟩ := Machine.onCases moved
  exact inner w o here

theorem movesLevel (move : (v', n) ∈ moves plan stage v) : v.site.pool.Level v'.site.pool := by
  cases stage with
  | draining batch =>
    obtain ⟨⟨input, found⟩, -, same⟩ := List.mem_map.mp move
    cases found with
    | some m =>
      cases same
      exact .refl _
    | none =>
      simp only at same
      split at same <;> cases same <;> exact .refl _
  | filling batch f =>
    refine onSiteLevel move (fun u o moved => Filling.movesLevel moved) fun r u => ?_
    cases r <;> rfl
  | activating batch b =>
    refine onSiteLevel move (fun u o moved => ?_) fun r u => ?_
    · have told : (u, o) ∈ Broadcast.tell plan.staffing plan.checker b v.site := moved
      rw [(Broadcast.tellQuiet told).1]
      exact .refl _
    · cases r <;> rfl
  | borrowing batch a =>
    refine onSiteLevel move (fun u o moved => Acquisition.movesLevel moved) fun r u => ?_
    cases r <;> rfl
  | asking batch ticket c =>
    refine onSiteLevel move (fun u o moved => ?_) fun _ _ => rfl
    obtain ⟨crew, -, rfl⟩ := Machine.onCases moved
    exact .refl _
  | returning batch ticket answer r =>
    refine onSiteLevel move (fun u o moved => (Release.movesAlike moved).1.level) fun _ u => ?_
    cases answer <;> rfl
  | grouping batch own =>
    have noted : ((groupsOf plan batch own).2.foldl StageView.note v).site.pool = v.site.pool := by
      rw [notesSite, notesPool]
    simp only [moves] at move
    split at move
    · obtain ⟨rfl, -⟩ := memStep.mp move
      exact ⟨congrArg (·.permits.closed) noted, congrArg Pool.capacity noted⟩
    · obtain ⟨rfl, -⟩ := memFinish.mp move
      exact ⟨congrArg (·.permits.closed) noted, congrArg Pool.capacity noted⟩
  | checking f =>
    have level {u o} (moved : (u, o) ∈ Schedule.moves (schedulePlan plan) f v) :
        v.site.pool.Level u.site.pool :=
      Schedule.movedLevel siteLawful (Stage.schedulePlanProper plan) (Schedule.movesMoved moved)
    refine Machine.withinState (fun u => v.site.pool.Level u.site.pool) move
      (fun _ _ => level) fun r u same => ?_
    obtain ⟨y, g⟩ := r
    cases y with
    | none => exact same
    | some y =>
      obtain ⟨group, result⟩ := y
      cases result with
      | error e => exact same
      | ok answer => cases answer <;> exact same
  | routing group verdicts f =>
    cases group with
    | nil =>
      obtain ⟨rfl, -⟩ := memStep.mp move
      exact .refl _
    | cons m rest =>
      simp only [moves] at move
      split at move
      · obtain ⟨rfl, -⟩ := memFinish.mp move
        exact .refl _
      · obtain ⟨⟨u, sent⟩, routed, same⟩ := List.mem_map.mp move
        have site : u.site = v.site := routeSite routed
        cases sent <;> cases same <;> rw [site] <;> exact .refl _

end Moves

theorem Left.vacate (left : stage.Left name active others s) :
    (s.vacate stage.tickets stage.tokens).crew.Numbered ∧
      (s.vacate stage.tickets stage.tokens).crew.Attended (CheckWork.Suits name active) [] ∧
        (stage.isFilling = false → (s.vacate stage.tickets stage.tokens).Booked [] others) := by
  refine ⟨(s.crew.abandonAllAloof stage.tokens).numbered left.numbered,
    left.attended.vacate dutiesTokens, fun filled => ?_⟩
  rcases left.left filled with closed | ⟨own, same, served, kept⟩
  · exact .inl ⟨(s.pool.forgetAllAlike stage.tickets).closed.trans closed, rfl⟩
  · refine .inr (Pool.Kept.more (Pool.Kept.forgetAll kept served same) (Nat.le_of_eq ?_))
    rw [Site.vacate, Crew.abandonAllSeats]

end Stage

end MutationPipeline
