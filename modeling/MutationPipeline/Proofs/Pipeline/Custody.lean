import MutationPipeline.Pipeline.Hosting
import MutationPipeline.Proofs.Checker.Hosts
import MutationPipeline.Proofs.Pipeline.Relay
import MutationPipeline.Proofs.Pipeline.Succession

/-! Checks reach workers that have the checker active for which they are. This holds at each moment of
a run, while the pool goes from one checker to the next, workers are replaced and tasks fail. -/
namespace MutationPipeline
variable {o : Orders} {active active' : String → Nat → Prop}

structure Answers (active active' : String → Nat → Prop) (x : Order CheckWork)
    (outcome : Outcome CheckAnswer) : Prop where
  keeps : ∀ name, (∀ n, x.call = .work (.setActive n) → n = name) →
    ∀ worker, active name worker → active' name worker
  sets : ∀ name v, x.call = .work (.setActive name) → outcome = .ok v → active' name x.worker

section Answer
variable {x : Order CheckWork} {outcome : Outcome CheckAnswer} {c : CheckCrew} {s : CheckSite}
  {name : String} {tokens : List Nat} (waits : x ∈ c.orders)

theorem Crew.Numbered.answer (numbered : c.Numbered) (waits : x ∈ c.orders) :
    (c.answer x.token outcome).Numbered where
  orders := fun y member => numbered.orders y (List.mem_of_mem_filter member)
  answers := by
    intro a member
    rcases List.mem_append.mp member with before | now
    · exact numbered.answers a before
    · rw [List.mem_singleton.mp now]
      exact numbered.orders x waits

theorem Crew.Attended.answer {P : Nat → CheckWork → Prop} (attended : c.Attended P tokens)
    (token : Nat) : (c.answer token outcome).Attended P tokens :=
  fun y member => attended y (List.mem_of_mem_filter member)

include waits

theorem Answers.drift (answers : Answers active active' x outcome)
    (attended : c.Attended (CheckWork.Suits name (active name)) tokens) :
    Crew.Drift name (active name) (active' name) (fun _ => True) c (c.answer x.token outcome) where
  occupant := fun _ _ => rfl
  remembered := fun _ _ before => before
  tokens := Nat.le_refl _
  orders := fun _ member => .inl (List.mem_of_mem_filter member)
  answers := by
    intro t v member
    rcases List.mem_append.mp member with before | now
    · exact .inl before
    · cases List.mem_singleton.mp now
      exact .inr ⟨x, waits, rfl, fun told => answers.sets name v told rfl⟩
  active := answers.keeps name fun n told => (attended x waits _ told).2

omit waits in
theorem Site.Still.answer (still : s.Still) (waits : x ∈ s.crew.orders) :
    Site.Still { s with crew := s.crew.answer x.token outcome } :=
  ⟨still.numbered.answer waits, still.idle.answer x.token⟩

omit waits in
theorem Task.Holds.answer {t : Task} {others : List Stance} (holds : t.Holds active others s)
    (answers : Answers active active' x outcome) (waits : x ∈ s.crew.orders) :
    t.Holds active' others { s with crew := s.crew.answer x.token outcome } := by
  by_cases busy : t.Busy
  · cases t with
    | working role =>
      cases role with
      | checking plan stage =>
        have sound : stage.Sound plan.checker (active plan.checker) others s := holds
        have drift := answers.drift waits sound.attended
        exact sound.drift (s.pool.forgetAllAlike []).lasts drift (sound.numbered.answer waits)
          ((sound.attended.answer x.token).more (List.Subset.refl _) drift.suits) sound.booked
      | _ => exact busy.elim
    | leaving role outcome =>
      cases role with
      | checking plan stage =>
        have left : stage.Left plan.checker (active plan.checker) others s := holds
        have drift := answers.drift waits left.attended
        exact ⟨left.numbered.answer waits,
          (left.attended.answer x.token).more (List.Subset.refl _) drift.suits, left.left⟩
      | _ => exact busy.elim
    | _ => exact busy.elim
  · obtain ⟨still, booked⟩ := (Task.Holds.idle busy).mp holds
    exact (Task.Holds.idle busy).mpr ⟨still.answer waits, booked⟩

end Answer

theorem Task.cutLeaves {t u : Task} {f f' : Floor} (cut : (f', u) ∈ t.cut f) :
    ∃ role, t = .working role ∧ u = .leaving role (.ok ()) ∧ f' = f := by
  cases t with
  | working role =>
    simp only [Task.cut] at cut
    split at cut
    · cases List.mem_singleton.mp cut
      exact ⟨role, rfl, rfl, rfl⟩
    · cases cut
  | _ => cases cut

theorem Task.Holds.cut {role : Role} {others : List Stance} {s : CheckSite}
    {outcome : Except RunError Unit} (holds : (Task.working role).Holds active others s) :
    (Task.leaving role outcome).Holds active others s := by
  cases role with
  | checking plan stage => exact Stage.Sound.left holds
  | _ => exact holds


namespace Run
variable {r next : Run} {mutants : List CoveredMutant} {place : Nat} {t u : Task}

/-- The pool of the checkers cannot have been closed before all its permits came back: they can be
counted, or no task was cut off, or the pool is open. -/
def Sure (o : Orders) (r : Run) : Prop :=
  o.budget.checkers ≤ mostAwaited ∨ r.conduct.Uncut ∨ r.floor.checkers.pool.permits.closed = false

structure Custody (o : Orders) (active : String → Nat → Prop) (r : Run) : Prop where
  ordered : Ordered o r
  upstream : r.conduct.Uncut → Upstream o r
  charge : r.Sure o → r.conduct.Early → (∃ place, Held o active place r) ∨ r.Spent
  joined : ¬r.conduct.Early → r.tasks.all Task.isJoined = true
  ended : r.Sure o → ¬r.conduct.Early → r.floor.checkers.Still

theorem Sure.before (uncut : next.conduct.Uncut → r.conduct.Uncut)
    (onward : r.floor.checkers.pool.Onward next.floor.checkers.pool) (sure : next.Sure o) :
    r.Sure o := by
  refine sure.imp_right (Or.imp uncut fun opened => ?_)
  by_contra closed
  rw [Bool.not_eq_false] at closed
  rw [onward.closed closed] at opened
  cases opened

theorem startCustody (o : Orders) (active : String → Nat → Prop) (mutants : List CoveredMutant) :
    Custody o active (start o mutants) := by
  have idle := startIdle o mutants
  have last (role : Role) (fresh : Orders.Fresh role) :
      (Task.working role).visits o.budget.checkers = [] ∧
        (Task.working role).Waits (start o mutants).floor.checkers.pool ∧
          ¬(Task.working role).Disposes := by
    cases role with
    | releasing share h =>
      obtain rfl : h = .forwarding none := fresh
      exact ⟨rfl, trivial, id⟩
    | _ => exact ⟨rfl, trivial, id⟩
  have unmet : (start o mutants).visits o = [] ∧
      ((start o mutants).task (o.config.checkers.length + 1)).Waits
        (start o mutants).floor.checkers.pool ∧
        ¬((start o mutants).task (o.config.checkers.length + 1)).Disposes := by
    rw [visits]
    rcases startTask o mutants (o.config.checkers.length + 1) with none | ⟨role, here, -, fresh⟩
    · rw [none]
      exact ⟨rfl, trivial, id⟩
    · rw [here]
      exact last role fresh
  refine ⟨startOrdered o mutants, fun _ => ⟨fun p inside _ began => ?_, fun disposes => ?_⟩,
    fun _ _ => .inl ⟨0, ?_, fun p _ => idle p, unmet.2.1, rfl⟩, fun late => absurd trivial late,
    fun _ late => absurd trivial late⟩
  · rcases startTask o mutants p with none | ⟨role, here, -, -⟩
    · have missing : (start o mutants).tasks[p]? = some .joined := by
        rw [task, List.getD_eq_getElem?_getD, List.getElem?_eq_getElem inside] at none
        rw [List.getElem?_eq_getElem inside]
        exact congrArg some none
      have found : (start o mutants).tasks[p]? = ((o.roles mutants)[p]?).map .working :=
        List.getElem?_map
      rw [found] at missing
      obtain ⟨role, -, same⟩ := Option.map_eq_some_iff.mp missing
      cases same
    · rw [here] at began
      exact absurd (here ▸ began) (idle p)
  · exact absurd disposes unmet.2.2
  · refine (Task.Holds.idle (idle 0)).mpr ⟨⟨⟨?_, ?_⟩, ?_⟩, ?_⟩
    · exact fun x member => by cases member
    · exact fun x member => by cases member
    · exact fun x member => by cases member
    · rw [unmet.1]
      exact .inr (Pool.freshKept _ _)

theorem Custody.same (custody : Custody o active r) (tasks : next.tasks = r.tasks)
    (links : next.floor.links = r.floor.links)
    (checkers : next.floor.checkers = r.floor.checkers) (modest : next.conduct.Modest)
    (uncut : next.conduct.Uncut → r.conduct.Uncut)
    (early : next.conduct.Early ↔ r.conduct.Early) : Custody o active next := by
  have before (sure : next.Sure o) : r.Sure o :=
    sure.before uncut (checkers ▸ (Pool.Level.refl _).onward)
  refine ⟨custody.ordered.same tasks links modest, fun whole => ?_, fun sure first => ?_,
    fun late => ?_, fun sure late => ?_⟩
  · exact (custody.upstream (uncut whole)).same tasks
  · refine (custody.charge (before sure) (early.mp first)).imp (Exists.imp fun place held => ?_)
      fun spent => ?_
    · exact held.same tasks checkers
    · exact spent.same tasks links (checkers ▸ spent.still)
  · rw [tasks]
    exact custody.joined fun before => late (early.mpr before)
  · rw [checkers]
    exact custody.ended (before sure) fun before => late (early.mpr before)

theorem Custody.step (custody : Custody o active r) (found : r.tasks[place]? = some t)
    (tasks : next.tasks = r.tasks.set place u)
    (went : Task.Went o place r.floor next.floor t u)
    (patient : next.conduct.Uncut → r.conduct.Uncut ∧ Task.Patient place r.floor t u)
    (modest : next.conduct.Modest) (early : r.conduct.Early ∧ next.conduct.Early)
    (onward : r.floor.checkers.pool.Onward next.floor.checkers.pool)
    (charge : next.Sure o → (∃ place, Held o active place r) ∨ r.Spent →
      (∃ place, Held o active place next) ∨ next.Spent) : Custody o active next where
  ordered := custody.ordered.onward found tasks went modest
  upstream := fun whole => by
    obtain ⟨before, waited⟩ := patient whole
    exact (custody.upstream before).onward custody.ordered found tasks went waited
  charge := fun sure _ =>
    charge sure (custody.charge (sure.before (fun whole => (patient whole).1) onward) early.1)
  joined := fun late => absurd early.2 late
  ended := fun _ late => absurd early.2 late

theorem allJoined (all : r.tasks.all Task.isJoined = true) (p : Nat) : r.task p = .joined := by
  cases found : r.tasks[p]? with
  | none => exact taskNone found
  | some t =>
    have joined := List.all_eq_true.mp all t (List.mem_of_getElem? found)
    rw [taskFound found]
    cases t with
    | joined => rfl
    | _ => cases joined

theorem Custody.still (custody : Custody o active r) (sure : r.Sure o) (early : r.conduct.Early)
    (all : r.tasks.all Task.isJoined = true) : r.floor.checkers.Still := by
  rcases custody.charge sure early with ⟨place, held⟩ | spent
  · have holds := held.holds
    rw [allJoined all place] at holds
    exact holds.1
  · exact spent.still

theorem Custody.joins {outcome : Except RunError Unit} (custody : Custody o active r)
    (early : r.conduct.Early) (found : r.tasks[place]? = some (.left outcome)) :
    Custody o active
      { r with tasks := r.tasks.set place .joined, conduct := r.conduct.joined outcome } := by
  have after : (r.conduct.joined outcome).Early ∧ (r.conduct.joined outcome).Modest ∧
      ((r.conduct.joined outcome).Uncut → r.conduct.Uncut) := by
    cases conduct : r.conduct with
    | collecting => cases outcome <;> exact ⟨trivial, trivial, fun _ => trivial⟩
    | searching cause => cases outcome <;> exact ⟨trivial, trivial, fun _ => trivial⟩
    | aborting cause => exact ⟨trivial, trivial, id⟩
    | _ =>
      rw [conduct] at early
      exact early.elim
  obtain ⟨went, patient⟩ : Task.Went o place r.floor r.floor (.left outcome) .joined ∧
      Task.Patient place r.floor (.left outcome) .joined := Task.joinWent outcome
  refine custody.step found rfl went (fun whole => ⟨after.2.2 whole, patient⟩) after.2.1
    ⟨early, after.1⟩ (Pool.Level.refl _).onward fun _ charge => ?_
  refine charge.imp (Exists.imp fun q held => ?_) fun spent => ?_
  · exact held.quit found rfl rfl (fun _ _ => id) id rfl fun _ => id
  · exact spent.onward custody.ordered found rfl went spent.still

theorem Custody.cut {cause : RunError} {f : Floor} (custody : Custody o active r)
    (aborting : r.conduct = .aborting cause) (found : r.tasks[place]? = some t)
    (cut : (f, u) ∈ t.cut r.floor) :
    Custody o active { r with floor := f, tasks := r.tasks.set place u } := by
  have early : r.conduct.Early := by rw [aborting]; trivial
  have went : Task.Went o place r.floor f t u := Task.cutWent cut
  have same : f = r.floor := (Task.cutLeaves cut).choose_spec.2.2
  refine custody.step found rfl went (fun whole => ?_) custody.ordered.conduct ⟨early, early⟩
    (same ▸ (Pool.Level.refl _).onward) fun _ charge => ?_
  · have whole : r.conduct.Uncut := whole
    rw [aborting] at whole
    exact whole.elim
  · obtain ⟨role, rfl, rfl, rfl⟩ := Task.cutLeaves cut
    refine charge.imp (Exists.imp fun q held => ?_) fun spent => ?_
    · exact held.quit found rfl rfl (fun _ _ => Task.Holds.cut) id rfl fun _ => id
    · exact spent.onward custody.ordered found rfl went spent.still

theorem Custody.concludes {outcome : Except RunError (List MutantResult)}
    (custody : Custody o active r) (concludes : r.Concludes outcome)
    (all : r.tasks.all Task.isJoined = true) : Custody o active (r.conclude outcome) := by
  have after : (r.conclude outcome).conduct.Modest ∧ ¬(r.conclude outcome).conduct.Early ∧
      ((r.conclude outcome).conduct.Uncut → r.conduct.Uncut) := by
    have whole : outcome.isOk = true → r.conduct.Uncut := by
      cases concludes with
      | results collecting => rw [collecting]; exact fun _ => trivial
      | failure aborting => exact fun none => by cases none
    unfold conclude
    split
    · exact ⟨trivial, id, whole⟩
    · exact ⟨trivial, id, whole⟩
  refine ⟨custody.ordered.same rfl rfl after.1, fun whole => ?_,
    fun _ early => absurd early after.2.1, fun _ => all, fun sure _ => ?_⟩
  · exact (custody.upstream (after.2.2 whole)).same rfl
  · exact custody.still (sure.before after.2.2 (Pool.Level.refl _).onward) concludes.early all

theorem Custody.late (custody : Custody o active r) (tasks : next.tasks = r.tasks)
    (links : next.floor.links = r.floor.links) (modest : next.conduct.Modest)
    (uncut : next.conduct.Uncut → r.conduct.Uncut) (late : ¬r.conduct.Early)
    (later : ¬next.conduct.Early) (aloof : r.floor.checkers.crew.Aloof next.floor.checkers.crew)
    (onward : r.floor.checkers.pool.Onward next.floor.checkers.pool) : Custody o active next where
  ordered := custody.ordered.same tasks links modest
  upstream := fun whole => (custody.upstream (uncut whole)).same tasks
  charge := fun _ early => absurd early later
  joined := fun _ => by
    rw [tasks]
    exact custody.joined late
  ended := fun sure _ => (custody.ended (sure.before uncut onward) late).aloof aloof

theorem Custody.own (custody : Custody o active r) (move : next ∈ r.ownMoves) :
    Custody o active next := by
  cases ownActed move with
  | received collecting taken =>
    obtain ⟨⟨c, found⟩, -, same⟩ := List.mem_map.mp taken
    cases same
    exact custody.same rfl rfl rfl custody.ordered.conduct id Iff.rfl
  | joined early found => exact custody.joins early found
  | aborted searching none =>
    refine custody.same rfl rfl rfl trivial False.elim ?_
    rw [searching]
    exact Iff.rfl
  | cut aborting found cut => exact custody.cut aborting found cut
  | concluded ended all => exact custody.concludes ended all
  | onCheckers disposing moved =>
    have modest := custody.ordered.conduct
    rw [disposing] at modest
    have aloof := Disposal.movesTurn modest moved
    refine custody.late rfl rfl (Disposal.movesBegins moved _ rfl) ?_ ?_ id ⟨_, _, aloof⟩
      (Disposal.movesOnward moved).1
    all_goals rw [disposing]; exact id
  | checkersDone disposing moved =>
    have modest := custody.ordered.conduct
    rw [disposing] at modest
    have aloof := Disposal.movesTurn modest moved
    obtain ⟨checkers, -, links⟩ := Floor.disposedSites checkerNote _
      { r.floor with checkers := _ }
    refine custody.late rfl links trivial ?_ ?_ id ?_ ?_
    · rw [disposing]; exact id
    · rw [disposing]; exact id
    · rw [checkers]
      exact ⟨_, _, aloof⟩
    · rw [checkers]
      exact (Disposal.movesOnward moved).1
  | onRunners disposing moved =>
    refine custody.same rfl rfl rfl trivial ?_ ?_ <;> rw [disposing]
    · exact id
    · exact Iff.rfl
  | runnersDone disposing moved =>
    obtain ⟨checkers, -, links⟩ := Floor.disposedSites runnerNote _ { r.floor with runners := _ }
    refine custody.same rfl links checkers trivial ?_ ?_ <;> rw [disposing]
    · exact id
    · exact Iff.rfl
  | reported reporting =>
    refine custody.same rfl rfl rfl trivial ?_ ?_ <;> rw [reporting]
    · exact id
    · exact Iff.rfl

theorem Custody.early {f : Floor} (custody : Custody o active r) (found : r.tasks[place]? = some t)
    (move : (f, u) ∈ t.moves place r.floor) : r.conduct.Early := by
  by_contra late
  have joined := allJoined (custody.joined late) place
  rw [taskFound found] at joined
  subst joined
  cases move

theorem Custody.task (custody : Custody o active r) (move : next ∈ r.taskMoves place) :
    Custody o active next := by
  obtain ⟨t, u, f, found, moved, rfl⟩ := taskActed move
  obtain ⟨went, patient⟩ := Task.movesWent moved
  have early := custody.early found moved
  refine custody.step found rfl went (fun whole => ⟨whole, patient⟩) custody.ordered.conduct
    ⟨early, early⟩ (Task.movesOnward moved) fun sure charge => ?_
  rcases charge with ⟨q, held⟩ | spent
  · have onward : Ordered o { r with floor := f, tasks := r.tasks.set place u } :=
      custody.ordered.onward found rfl went custody.ordered.conduct
    exact held.task custody.ordered found rfl (sure.imp_right (Or.imp_left custody.upstream))
      onward moved
  · refine .inr (spent.onward custody.ordered found rfl went ?_)
    have idle := spent.idle place
    have modest := custody.ordered.modest place
    rw [taskFound found] at idle modest
    exact spent.still.aloof (Task.movesAloof moved idle modest)

theorem Custody.answer {x : Order CheckWork} {outcome : Outcome CheckAnswer}
    (custody : Custody o active r) (answers : Answers active active' x outcome)
    (waits : x ∈ r.floor.checkers.crew.orders) :
    Custody o active' (r.answered Floor.onCheckers x.token outcome) where
  ordered := custody.ordered.same rfl rfl custody.ordered.conduct
  upstream := fun whole => (custody.upstream whole).same rfl
  charge := fun sure early => by
    refine (custody.charge sure early).imp (Exists.imp fun place held => ?_) fun spent => ?_
    · exact ⟨held.holds.answer answers waits, held.alone, held.waits, held.capacity⟩
    · exact spent.same rfl rfl (spent.still.answer waits)
  joined := custody.joined
  ended := fun sure late => (custody.ended sure late).answer waits

end Run

end MutationPipeline
