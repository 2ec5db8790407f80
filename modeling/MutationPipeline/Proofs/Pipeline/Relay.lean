import MutationPipeline.Proofs.Pipeline.Tenure

/-! The pool of the checkers in a run goes from one checker to the next. At each moment one task at most
has begun work with it, and that task has all that it relies on; once the pool is lost for a task that
was making workers, or all tasks are over, nobody begins any work. -/
namespace MutationPipeline.Run
variable {o : Orders} {active : String → Nat → Prop} {r next : Run} {t u : Task} {place q : Nat}

def visits (o : Orders) (r : Run) : List Stance :=
  (r.task (o.config.checkers.length + 1)).visits o.budget.checkers

structure Held (o : Orders) (active : String → Nat → Prop) (place : Nat) (r : Run) : Prop where
  holds : (r.task place).Holds active (r.visits o) r.floor.checkers
  alone : ∀ p ≠ place, ¬(r.task p).Busy
  waits : (r.task (o.config.checkers.length + 1)).Waits r.floor.checkers.pool
  capacity : r.floor.checkers.pool.capacity = o.budget.checkers

structure Dry (r : Run) : Prop where
  source : ¬(r.task 0).Working
  unfed : ∀ p, ¬(r.task p).Fed (r.floor.link p)

structure Spent (r : Run) : Prop where
  still : r.floor.checkers.Still
  idle : ∀ p, ¬(r.task p).Busy
  dry : r.Dry

theorem Held.reseat (held : Held o active q r) (idle : ¬(r.task q).Busy) (place : Nat) :
    Held o active place r := by
  have none (p : Nat) : ¬(r.task p).Busy := by
    by_cases same : p = q
    · exact same ▸ idle
    · exact held.alone p same
  exact ⟨(Task.Holds.idle (none place)).mpr ((Task.Holds.idle idle).mp held.holds),
    fun p _ => none p, held.waits, held.capacity⟩

theorem Held.same (held : Held o active place r) (tasks : next.tasks = r.tasks)
    (checkers : next.floor.checkers = r.floor.checkers) : Held o active place next := by
  have task (p : Nat) : next.task p = r.task p := by rw [Run.task, Run.task, tasks]
  have visits : next.visits o = r.visits o := by rw [Run.visits, Run.visits, task]
  refine ⟨?_, fun p other => ?_, ?_, ?_⟩
  · rw [task, visits, checkers]
    exact held.holds
  · rw [task]
    exact held.alone p other
  · rw [task, checkers]
    exact held.waits
  · rw [checkers]
    exact held.capacity

theorem Dry.same (dry : r.Dry) (tasks : next.tasks = r.tasks)
    (links : next.floor.links = r.floor.links) : next.Dry := by
  have task (p : Nat) : next.task p = r.task p := by rw [Run.task, Run.task, tasks]
  refine ⟨?_, fun p => ?_⟩
  · rw [task]
    exact dry.source
  · rw [task, Floor.link, links]
    exact dry.unfed p

theorem Spent.same (spent : r.Spent) (tasks : next.tasks = r.tasks)
    (links : next.floor.links = r.floor.links) (still : next.floor.checkers.Still) : next.Spent where
  still := still
  idle := fun p => by
    rw [Run.task, tasks]
    exact spent.idle p
  dry := spent.dry.same tasks links

theorem Ordered.checker (ordered : Ordered o r) (checks : (r.task q).Checks) :
    0 < q ∧ q ≤ o.config.checkers.length := by
  obtain ⟨-, plan, stage, own⟩ := checks.role
  obtain ⟨first, checker, -⟩ := ordered.places q (.checking plan stage) own
  obtain ⟨inside, -⟩ := List.getElem?_eq_some_iff.mp checker
  omega

theorem Ordered.lone {p : Nat} (ordered : Ordered o r) (one : (r.task p).Busy)
    (other : (r.task q).Busy) : p = q := by
  rcases Nat.lt_trichotomy p q with before | same | behind
  · exact absurd (ordered.busy q other p before) one.checks.role.1
  · exact same
  · exact absurd (ordered.busy p one q behind) other.checks.role.1

theorem Ordered.dry (ordered : Ordered o r) (strands : (r.task q).Strands) : r.Dry := by
  obtain ⟨plan, batch, f, outcome, here⟩ := strands.found
  have ahead : ∀ m < q, (r.task m).Gone := ordered.busy q (by rw [here]; rfl)
  have ended {m : Nat} (gone : (r.task m).Gone) : ¬(r.task m).Working := by
    cases task : r.task m with
    | working role => exact (task ▸ gone : (Task.working role).Gone).elim
    | _ => exact id
  refine ⟨?_, fun p fed => ?_⟩
  · have first : 0 < q := (ordered.checker (by rw [here]; trivial)).1
    exact ended (ahead 0 first)
  · obtain ⟨_, _, works⟩ := fed.checks
    rcases Nat.lt_trichotomy p q with before | rfl | behind
    · exact ended (ahead p before) (by rw [works]; trivial)
    · rw [here] at works
      cases works
    · obtain ⟨m, rfl⟩ : ∃ m, p = m + 1 := ⟨p - 1, by omega⟩
      obtain ⟨gone, sent⟩ := ordered.fed m fed
      rcases Nat.lt_or_eq_of_le (Nat.le_of_lt_succ behind) with later | rfl
      · exact (here ▸ gone q later : (Task.leaving _ outcome).Gone)
      · rw [here] at sent
        exact Bool.false_ne_true sent

section Step
variable (ordered : Ordered o r) (found : r.tasks[place]? = some t)
  (tasks : next.tasks = r.tasks.set place u)
include ordered found tasks

theorem Dry.onward (dry : r.Dry) (went : Task.Went o place r.floor next.floor t u)
    (quiet : t.Puts → ¬t.Busy) : next.Dry := by
  have here := taskFound found
  have there := taskSelf found tasks
  refine ⟨fun working => ?_, fun p fed => ?_⟩
  · by_cases same : 0 = place
    · subst same
      rw [there] at working
      exact dry.source (by rw [here]; exact went.working working)
    · rw [taskOther tasks same] at working
      exact dry.source working
  · by_cases same : p = place
    · subst same
      rw [there] at fed
      exact dry.unfed p (by rw [here]; exact went.fed fed)
    · rw [taskOther tasks same] at fed
      obtain ⟨plan, stage, checks⟩ := fed.checks
      refine dry.unfed p (fed.fewer fun some => ?_)
      refine (went.items p some).elim id fun ⟨behind, puts⟩ => ?_
      subst behind
      rcases ordered.putter found puts checks with ⟨rfl, working⟩ | busy
      · exact (dry.source (by rwa [here])).elim
      · exact (quiet puts busy).elim

theorem Spent.onward (spent : r.Spent) (went : Task.Went o place r.floor next.floor t u)
    (still : next.floor.checkers.Still) : next.Spent := by
  have here := taskFound found
  have there := taskSelf found tasks
  refine ⟨still, fun p busy => ?_,
    spent.dry.onward ordered found tasks went fun _ => here ▸ spent.idle place⟩
  by_cases same : p = place
  · subst same
    rw [there] at busy
    rcases went.busy busy with before | ⟨-, fed⟩
    · exact spent.idle p (by rwa [here])
    · exact spent.dry.unfed p (by rwa [here])
  · rw [taskOther tasks same] at busy
    exact spent.idle p busy

/-- What a task does to the pool that has not begun work with it. To close a pool with more permits
than can be waited for it has to be the only one there. -/
theorem Held.foreign (held : Held o active q r)
    (few : o.budget.checkers ≤ mostAwaited ∨ r.Upstream o ∨
      next.floor.checkers.pool.permits.closed = false) (idle : ¬t.Busy)
    (move : (next.floor, u) ∈ t.moves place r.floor) : ∃ alone : Prop,
      (alone → ¬(r.task q).Busy) ∧
        Site.Foreign alone (r.visits o) (next.visits o) r.floor.checkers next.floor.checkers ∧
          (next.task (o.config.checkers.length + 1)).Waits next.floor.checkers.pool := by
  have here := taskFound found
  have there := taskSelf found tasks
  by_cases releasing : ∃ share h, t.role? = some (.releasing share h)
  · obtain ⟨share, h, own⟩ := releasing
    obtain rfl : place = o.config.checkers.length + 1 :=
      (ordered.places place (.releasing share h) (by rw [here]; exact own)).1
    have waits := held.waits
    have modest := ordered.modest (o.config.checkers.length + 1)
    rw [here] at waits modest
    obtain ⟨foreign, waits⟩ := Task.movesForeign move own waits held.capacity modest
    refine ⟨(next.floor.checkers.pool.permits.closed = true ∧ mostAwaited < o.budget.checkers) ∧
      t.Disposes, fun ⟨⟨closed, many⟩, disposes⟩ busy => ?_, ?_, by rwa [there]⟩
    · rcases few with few | upstream | opened
      · omega
      · have gone := upstream.disposes (by rwa [here]) q (ordered.checker busy.checks).2
        exact busy.checks.role.1 gone
      · exact absurd (closed.symm.trans opened) (by decide)
    · rw [visits, visits, here, there]
      exact foreign
  · have aside (share : Nat) (h : Handover) : t.role? ≠ some (.releasing share h) :=
      fun own => releasing ⟨share, h, own⟩
    obtain ⟨site, later⟩ := Task.movesAside move idle aside
    have pool : next.floor.checkers.pool = r.floor.checkers.pool := by
      rcases site with same | ⟨note, same⟩ <;> rw [same]
      rfl
    have kept : next.visits o = r.visits o ∧
        (next.task (o.config.checkers.length + 1)).Waits next.floor.checkers.pool := by
      by_cases last : o.config.checkers.length + 1 = place
      · rw [visits, visits, last, here, there, Task.visitsAside aside, Task.visitsAside later]
        exact ⟨rfl, Task.waitsAside later _⟩
      · rw [visits, visits, taskOther tasks last, pool]
        exact ⟨rfl, held.waits⟩
    refine ⟨False, False.elim, ?_, kept.2⟩
    rw [kept.1]
    rcases site with same | ⟨note, same⟩ <;> rw [same]
    · exact .refl _ _ _
    · exact .note _ _ _ _

theorem Held.aside (held : Held o active q r)
    (few : o.budget.checkers ≤ mostAwaited ∨ r.Upstream o ∨
      next.floor.checkers.pool.permits.closed = false) (idle : ¬t.Busy) (still : ¬u.Busy)
    (move : (next.floor, u) ∈ t.moves place r.floor) : Held o active q next := by
  have here := taskFound found
  have there := taskSelf found tasks
  obtain ⟨alone, only, foreign, waits⟩ := held.foreign ordered found tasks few idle move
  refine ⟨?_, fun p other => ?_, waits, foreign.capacity.trans held.capacity⟩
  · by_cases same : q = place
    · subst same
      have holds := held.holds
      rw [here] at holds
      obtain ⟨quiet, booked⟩ := (Task.Holds.idle idle).mp holds
      rw [there]
      exact (Task.Holds.idle still).mpr
        ⟨quiet.aloof foreign.aloof, foreign.booked [] (fun _ => rfl) booked⟩
    · rw [taskOther tasks same]
      exact held.holds.foreign foreign only
  · by_cases same : p = place
    · subst same
      rwa [there]
    · rw [taskOther tasks same]
      exact held.alone p other

theorem Held.own (held : Held o active place r) (checks : t.Checks)
    (went : Task.Went o place r.floor next.floor t u)
    (move : (next.floor, u) ∈ t.moves place r.floor) : Held o active place next ∨ next.Spent := by
  have here := taskFound found
  have there := taskSelf found tasks
  have behind : o.config.checkers.length + 1 ≠ place := by
    have inside := (ordered.checker (by rwa [here])).2
    omega
  have last := taskOther tasks behind
  have stays : ∀ role, t.role? = some role → role.At o place :=
    fun role own => ordered.places place role (by rwa [here])
  have holds := held.holds
  rw [here] at holds
  obtain ⟨level, after⟩ := Task.movesHolds move checks stays (Task.visitsServed _ _)
    (Task.visitsCalm _ _) holds
  rcases after with holds | ⟨strands, idle, still⟩
  · refine .inl ⟨?_, fun p other => ?_, ?_, level.capacity.trans held.capacity⟩
    · rw [there, visits, last]
      exact holds
    · rw [taskOther tasks other]
      exact held.alone p other
    · rw [last]
      exact held.waits.level level
  · refine .inr ⟨still, fun p => ?_, ?_⟩
    · by_cases same : p = place
      · subst same
        rwa [there]
      · rw [taskOther tasks same]
        exact held.alone p same
    · refine (ordered.dry (by rwa [here])).onward ordered found tasks went fun puts => ?_
      obtain ⟨_, _, _, _, rfl⟩ := strands.found
      exact puts.elim

theorem Held.task (held : Held o active q r)
    (few : o.budget.checkers ≤ mostAwaited ∨ r.Upstream o ∨
      next.floor.checkers.pool.permits.closed = false) (onward : next.Ordered o)
    (move : (next.floor, u) ∈ t.moves place r.floor) :
    (∃ p, Held o active p next) ∨ next.Spent := by
  have here := taskFound found
  have there := taskSelf found tasks
  have went : Task.Went o place r.floor next.floor t u := (Task.movesWent move).1
  by_cases checks : t.Checks
  · by_cases mine : place = q ∨ ¬(r.task q).Busy
    · have own : Held o active place r := by
        rcases mine with rfl | idle
        · exact held
        · exact held.reseat idle place
      exact (own.own ordered found tasks checks went move).imp_left fun held => ⟨place, held⟩
    · obtain ⟨other, busy⟩ := not_or.mp mine
      rw [not_not] at busy
      have idle : ¬t.Busy := here ▸ held.alone place other
      refine .inl ⟨q, held.aside ordered found tasks few idle (fun begun => other ?_) move⟩
      refine onward.lone (by rwa [there]) ?_
      rw [taskOther tasks (Ne.symm other)]
      exact busy
  · have idle (busy : t.Busy) : False := checks busy.checks
    refine .inl ⟨q, held.aside ordered found tasks few idle (fun begun => ?_) move⟩
    rcases went.busy begun with busy | ⟨-, fed⟩
    · exact idle busy
    · obtain ⟨_, _, rfl⟩ := fed.checks
      exact checks trivial

omit ordered in
theorem Held.quit (held : Held o active q r) (floor : next.floor = r.floor)
    (holds : ∀ others s, t.Holds active others s → u.Holds active others s)
    (idle : ¬t.Busy → ¬u.Busy) (visits : u.visits o.budget.checkers = t.visits o.budget.checkers)
    (waits : ∀ p, t.Waits p → u.Waits p) : Held o active q next := by
  have here := taskFound found
  have there := taskSelf found tasks
  have last : next.visits o = r.visits o ∧
      (next.task (o.config.checkers.length + 1)).Waits r.floor.checkers.pool := by
    by_cases same : o.config.checkers.length + 1 = place
    · have before := held.waits
      rw [same, here] at before
      rw [Run.visits, Run.visits, same, here, there]
      exact ⟨visits, waits _ before⟩
    · rw [Run.visits, Run.visits, taskOther tasks same]
      exact ⟨rfl, held.waits⟩
  refine ⟨?_, fun p other => ?_, by rw [floor]; exact last.2, by rw [floor]; exact held.capacity⟩
  · rw [last.1, floor]
    by_cases same : q = place
    · subst same
      have before := held.holds
      rw [here] at before
      rw [there]
      exact holds _ _ before
    · rw [taskOther tasks same]
      exact held.holds
  · by_cases same : p = place
    · subst same
      rw [there]
      exact idle (here ▸ held.alone p other)
    · rw [taskOther tasks same]
      exact held.alone p other

end Step

end MutationPipeline.Run
