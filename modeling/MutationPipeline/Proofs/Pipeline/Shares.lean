import MutationPipeline.Proofs.Pipeline.Calls
import MutationPipeline.Proofs.Pipeline.Load

/-! What the test runners of a run have to work with. Their books are kept by the last task alone, and
their pool is raised once at most, when all checkers are gone. -/
namespace MutationPipeline
variable {o : Orders} {place : Nat} {f f' : Floor}

theorem Pool.growCapacity (p : Pool) (n : Nat) :
    (p.grow n).capacity = p.capacity ∨ (p.grow n).capacity = p.capacity + n := by
  unfold grow
  split
  · exact .inl rfl
  · exact .inr rfl

namespace Role
variable {role : Role} {n : Next Role (Except RunError Unit)}

def runStances : Role → List Stance
  | .testing _ (.running g) | .testing _ (.reporting _ g) => g.stances
  | _ => []

theorem runTokensPermits (role : Role) : role.runTokens.length ≤ permitsOf role.runStances := by
  cases role with
  | testing planOf t =>
    cases t with
    | running g => exact g.tokensPermits Running.tokensFew
    | reporting result g => exact g.tokensPermits Running.tokensFew
  | _ => exact Nat.zero_le _

theorem testsKept {planOf : CoveredMutant → RunPlan} {t : Testing}
    {n : Next Testing (Except RunError Unit)}
    (kept : f.runners.Kept (Role.testing planOf t).runStances)
    (move : (f', n) ∈ runTests planOf place t f) :
    f.runners.pool.Level f'.runners.pool ∧ ∀ later, n = .go later →
      f'.runners.Kept (Role.testing planOf later).runStances := by
  cases t with
  | running g =>
    have stays {u o} (inner : (u, o) ∈ Schedule.moves (testPlan planOf place) g f) :
        f.runners.pool.Level u.runners.pool ∧
          u.runners.Kept (o.elim Schedule.stances (fun r => r.2.stances) g.stances) := by
      have moved := Schedule.movesMoved inner
      have proper := testPlanProper planOf place
      have front : f.runners.Kept (g.stances ++ []) := (List.append_nil g.stances).symm ▸ kept
      have after := Schedule.movedKept runnersLawful proper (fun x none => by cases none) front moved
      rw [List.append_nil] at after
      exact ⟨Schedule.movedLevel runnersLawful proper moved, after⟩
    rcases Machine.withinCases move with ⟨q, inner, rfl⟩ | ⟨u, ⟨y, k⟩, inner, same⟩ | ⟨inner, rfl⟩
    · refine ⟨(stays inner).1, fun later same => ?_⟩
      cases same
      exact (stays inner).2
    · obtain ⟨level, after⟩ := stays inner
      cases y with
      | none => cases same; exact ⟨level, fun later same => by cases same⟩
      | some y =>
        obtain ⟨m, result⟩ := y
        cases result with
        | error e => cases same; exact ⟨level, fun later same => by cases same⟩
        | ok answer =>
          cases answer with
          | error e => cases same; exact ⟨level, fun later same => by cases same⟩
          | ok run =>
            cases same
            refine ⟨level, fun later same => ?_⟩
            cases same
            exact after
    · exact ⟨(stays inner).1, fun later same => by cases same⟩
  | reporting x g =>
    obtain ⟨⟨g', sent⟩, sending, same⟩ := List.mem_map.mp move
    have same' : g'.runners = f.runners := sendRunners (fun _ _ => rfl) sending
    cases sent with
    | ok u =>
      cases same
      rw [same']
      refine ⟨.refl _, fun later same => ?_⟩
      cases same
      exact kept
    | error e =>
      cases same
      rw [same']
      exact ⟨.refl _, fun later same => by cases same⟩

end Role

namespace Task
variable {t u : Task} {s s' : RunSite}

def Tests : Task → Prop
  | .working role | .leaving role _ => role.Tests
  | _ => False

def Books (s : RunSite) : Task → Prop
  | .working role => role.Tests → s.Kept role.runStances
  | .leaving role _ => role.runTokens.length ≤ s.pool.capacity
  | _ => True

theorem Books.aside (aside : ¬t.Tests) : t.Books s := by
  cases t with
  | working role => exact fun tests => absurd tests aside
  | leaving role outcome =>
    have none : role.runTokens = [] := Role.asideTokens aside
    rw [Books, none]
    exact Nat.zero_le _
  | _ => trivial

theorem Books.more (books : t.Books s) (capacity : s.pool.capacity ≤ s'.pool.capacity)
    (kept : ∀ xs, s.Kept xs → s'.Kept xs) : t.Books s' := by
  cases t with
  | working role => exact fun tests => kept _ (books tests)
  | leaving role outcome => exact Nat.le_trans books capacity
  | _ => trivial

theorem Books.bound (books : t.Books s) : t.runTokens.length ≤ s.pool.capacity := by
  cases t with
  | working role =>
    by_cases tests : role.Tests
    · have kept : s.Kept (role.runStances ++ []) :=
        (List.append_nil role.runStances).symm ▸ books tests
      exact Nat.le_trans role.runTokensPermits (Pool.Kept.bound kept)
    · have none : (Task.working role).runTokens = [] := Role.asideTokens tests
      rw [none]
      exact Nat.zero_le _
  | leaving role outcome => exact books
  | _ => exact Nat.zero_le _

theorem Books.quit {role : Role} {outcome : Except RunError Unit}
    (books : (Task.working role).Books s) : (Task.leaving role outcome).Books s := books.bound

section Moves
variable (move : (f', u) ∈ t.moves place f)
include move

theorem movesBooks (tests : t.Tests) (books : t.Books f.runners) :
    u.Books f'.runners ∧ f'.runners.pool.capacity = f.runners.pool.capacity := by
  cases t with
  | working role =>
    have bound : role.runTokens.length ≤ f.runners.pool.capacity := books.bound
    cases role with
    | testing planOf t =>
      obtain ⟨⟨g, n⟩, inner, same⟩ := List.mem_map.mp move
      rcases Machine.withinCases inner with ⟨q, moved, rfl⟩ | ⟨w, r, moved, ended⟩ | ⟨moved, rfl⟩
      · obtain ⟨level, after⟩ := Role.testsKept (books trivial) moved
        cases same
        exact ⟨fun _ => after q rfl, level.capacity⟩
      · obtain ⟨level, -⟩ := Role.testsKept (books trivial) moved
        cases ended
        cases same
        exact ⟨Nat.le_trans bound (Nat.le_of_eq level.capacity.symm), level.capacity⟩
      · obtain ⟨level, -⟩ := Role.testsKept (books trivial) moved
        cases same
        exact ⟨Nat.le_trans bound (Nat.le_of_eq level.capacity.symm), level.capacity⟩
    | _ => exact tests.elim
  | leaving role outcome =>
    cases List.mem_singleton.mp move
    cases role with
    | testing planOf t =>
      refine ⟨trivial, ?_⟩
      cases t with
      | running g => exact (f.runners.pool.forgetAllAlike g.tickets).capacity
      | reporting result g => exact (f.runners.pool.forgetAllAlike g.tickets).capacity
    | _ => exact tests.elim
  | _ => exact tests.elim

theorem movesRunners (aside : ¬t.Tests) : f'.runners = f.runners ∨ ∃ share,
    t = .working (.releasing share .growing) ∧ u = .leaving (.releasing share .growing) (.ok ()) ∧
      f'.runners = f.runners.withPool (·.grow share) := by
  cases t with
  | working role =>
    obtain ⟨⟨g, n⟩, inner, same⟩ := List.mem_map.mp move
    rcases Role.movesRunners aside inner with kept | ⟨share, rfl, rfl, grown⟩
    · cases n <;> cases same <;> exact .inl kept
    · cases same
      exact .inr ⟨share, rfl, rfl, grown⟩
  | leaving role outcome =>
    cases List.mem_singleton.mp move
    refine .inl ?_
    cases role with
    | releasing share h => cases h <;> rfl
    | testing planOf t => exact (aside trivial).elim
    | _ => rfl
  | closing role outcome =>
    cases List.mem_singleton.mp move
    exact .inl (role.closeRunners place f)
  | closed outcome =>
    cases List.mem_singleton.mp move
    exact .inl rfl
  | _ => cases move

end Moves

def Releases : Task → Prop
  | .working role | .leaving role _ => role.Disposes
  | _ => False

def Handed : Task → Prop
  | .working _ | .leaving (.releasing _ (.disposing _)) _ => False
  | _ => True

section Moves
variable (move : (f', u) ∈ t.moves place f)
include move

theorem movesReleases (releases : u.Releases) : t.Releases ∨ (f.link place).senders = 0 := by
  cases t with
  | working role =>
    obtain ⟨⟨g, n⟩, inner, same⟩ := List.mem_map.mp move
    cases n with
    | go next =>
      cases same
      exact (Role.movesOnward inner).disposes releases
    | _ => cases same; exact .inl releases
  | leaving role outcome =>
    cases List.mem_singleton.mp move
    exact releases.elim
  | closing role outcome =>
    cases List.mem_singleton.mp move
    exact releases.elim
  | closed outcome =>
    cases List.mem_singleton.mp move
    exact releases.elim
  | _ => cases move

theorem movesHanded (handed : t.Handed) : u.Handed := by
  cases t with
  | working role => exact handed.elim
  | leaving role outcome =>
    cases List.mem_singleton.mp move
    trivial
  | closing role outcome =>
    cases List.mem_singleton.mp move
    trivial
  | closed outcome =>
    cases List.mem_singleton.mp move
    trivial
  | _ => cases move

end Moves

theorem Tests.last (tests : t.Tests) (here : ∀ role, t.role? = some role → role.At o place) :
    place = o.last := by
  cases t with
  | working role =>
    cases role with
    | testing planOf t => exact here _ rfl
    | _ => exact tests.elim
  | leaving role outcome =>
    cases role with
    | testing planOf t => exact here _ rfl
    | _ => exact tests.elim
  | _ => exact tests.elim

theorem movesTests (move : (f', u) ∈ t.moves place f)
    (here : ∀ role, t.role? = some role → role.At o place) (tests : u.Tests) : t.Tests := by
  have last := tests.last ((movesWent move).1.stays here)
  cases t with
  | working role =>
    have at' := here role rfl
    cases role with
    | testing planOf t => trivial
    | ignoring rest =>
      have first : place = 0 := at'
      have behind := Role.At.behind (.inr last)
      omega
    | checking plan stage =>
      obtain ⟨inside, -⟩ := List.getElem?_eq_some_iff.mp at'.2.1
      have behind := Role.At.behind (.inr last)
      omega
    | releasing share h =>
      obtain ⟨at', -, has⟩ := at'
      rw [Orders.last, if_pos has] at last
      omega
    | covering held =>
      have at' : place + 1 = o.last := at'
      omega
  | leaving role outcome =>
    cases List.mem_singleton.mp move
    exact tests.elim
  | closing role outcome =>
    cases List.mem_singleton.mp move
    exact tests.elim
  | closed outcome =>
    cases List.mem_singleton.mp move
    exact tests.elim
  | _ => cases move

end Task

namespace Run
variable {r next : Run} {mutants : List CoveredMutant} {t u : Task}

structure Shared (o : Orders) (r : Run) : Prop where
  books : ∀ p, (r.task p).Books r.floor.runners
  releases : (r.task (o.config.checkers.length + 1)).Releases →
    (r.task o.config.checkers.length).Gone
  capacity : r.floor.runners.pool.capacity = o.budget.testRunners ∨
    (r.floor.runners.pool.capacity = o.budget.testRunners + o.budget.checkers ∧
      o.hasCheckers = true ∧ (r.task o.config.checkers.length).Gone ∧
        (r.task (o.config.checkers.length + 1)).Handed)

theorem startShared (o : Orders) (mutants : List CoveredMutant) : Shared o (start o mutants) where
  books := by
    intro p
    rcases startTask o mutants p with none | ⟨role, here, -, fresh⟩
    · rw [none]
      trivial
    · rw [here]
      cases role with
      | testing planOf t =>
        obtain rfl : t = .running { feed := .open [] } := fresh
        exact fun _ => Pool.freshKept _ _
      | _ => exact False.elim
  releases := by
    intro releases
    rcases startTask o mutants (o.config.checkers.length + 1) with none | ⟨role, here, -, fresh⟩
    · rw [none] at releases
      exact releases.elim
    · rw [here] at releases
      cases role with
      | releasing share h =>
        obtain rfl : h = .forwarding none := fresh
        exact releases.elim
      | _ => exact releases.elim
  capacity := .inl rfl

theorem Shared.same (shared : Shared o r) (tasks : next.tasks = r.tasks)
    (capacity : next.floor.runners.pool.capacity = r.floor.runners.pool.capacity)
    (books : ∀ p, (r.task p).Books r.floor.runners → (r.task p).Books next.floor.runners) :
    Shared o next := by
  have task (p : Nat) : next.task p = r.task p := by rw [Run.task, Run.task, tasks]
  refine ⟨fun p => ?_, ?_, ?_⟩
  · rw [task]
    exact books p (shared.books p)
  · rw [task, task]
    exact shared.releases
  · rw [task, task, capacity]
    exact shared.capacity

section Step
variable (ordered : Ordered o r) (found : r.tasks[place]? = some t)
  (tasks : next.tasks = r.tasks.set place u)
  (went : Task.Went o place r.floor next.floor t u)
include ordered found tasks went

omit ordered went in
theorem Shared.stillBooks (shared : Shared o r)
    (runners : next.floor.runners = r.floor.runners)
    (own : t.Books r.floor.runners → u.Books r.floor.runners) (p : Nat) :
    (next.task p).Books next.floor.runners := by
  rw [runners]
  by_cases same : p = place
  · subst same
    rw [taskSelf found tasks]
    exact own (taskFound found ▸ shared.books p)
  · rw [taskOther tasks same]
    exact shared.books p

theorem Shared.step (shared : Shared o r)
    (books : ∀ p, (next.task p).Books next.floor.runners)
    (releases : u.Releases → t.Releases ∨ (r.floor.link place).senders = 0)
    (handed : t.Handed → u.Handed)
    (capacity : next.floor.runners.pool.capacity = r.floor.runners.pool.capacity ∨
      (place = o.config.checkers.length + 1 ∧ t.Releases ∧ ¬t.Handed ∧ u.Handed ∧
        o.hasCheckers = true ∧ next.floor.runners.pool.capacity =
          r.floor.runners.pool.capacity + o.budget.checkers)) : Shared o next := by
  have here := taskFound found
  have there := taskSelf found tasks
  refine ⟨books, fun after => ?_, ?_⟩
  · refine stillGone found tasks went ?_
    by_cases last : o.config.checkers.length + 1 = place
    · subst last
      rw [there] at after
      rcases releases after with before | ended
      · exact shared.releases (by rwa [here])
      · obtain ⟨p, same, gone⟩ := ordered.ahead found ended (Nat.succ_pos _)
        rwa [Nat.succ.inj same]
    · rw [taskOther tasks last] at after
      exact shared.releases after
  · rcases capacity with same | ⟨rfl, before, open', handed', has, more⟩
    · rw [same]
      refine shared.capacity.imp_right fun ⟨more, has, gone, past⟩ => ?_
      refine ⟨more, has, stillGone found tasks went gone, ?_⟩
      by_cases last : o.config.checkers.length + 1 = place
      · subst last
        rw [here] at past
        rw [there]
        exact handed past
      · rwa [taskOther tasks last]
    · have first := shared.capacity.resolve_right fun second => open' (here ▸ second.2.2.2)
      refine .inr ⟨by rw [more, first], has, ?_, by rwa [there]⟩
      exact stillGone found tasks went (shared.releases (by rwa [here]))

end Step

theorem Shared.task (shared : Shared o r) (ordered : Ordered o r) (move : next ∈ r.taskMoves place) :
    Shared o next := by
  obtain ⟨t, u, f, found, moved, rfl⟩ := taskActed move
  have here := taskFound found
  have there : Run.task { r with floor := f, tasks := r.tasks.set place u } place = u :=
    taskSelf found rfl
  have other {p : Nat} (apart : p ≠ place) :
      Run.task { r with floor := f, tasks := r.tasks.set place u } p = r.task p :=
    taskOther rfl apart
  have went := (Task.movesWent (o := o) moved).1
  have at' : ∀ role, t.role? = some role → role.At o place :=
    fun role own => ordered.places place role (by rwa [here])
  have mine := shared.books place
  rw [here] at mine
  by_cases tests : t.Tests
  · obtain ⟨books, capacity⟩ := Task.movesBooks moved tests mine
    refine shared.step ordered found rfl went (fun p => ?_) (Task.movesReleases moved)
      (Task.movesHanded moved) (.inl capacity)
    by_cases same : p = place
    · subst same
      rwa [there]
    · rw [other same]
      refine Task.Books.aside fun also => same ?_
      exact (also.last (ordered.places p)).trans (tests.last at').symm
  · have aside : u.Books f.runners := .aside fun also => tests (Task.movesTests moved at' also)
    rcases Task.movesRunners moved tests with kept | ⟨share, rfl, rfl, grown⟩
    · exact shared.step ordered found rfl went
        (shared.stillBooks found rfl kept fun _ => kept ▸ aside) (Task.movesReleases moved)
        (Task.movesHanded moved) (.inl (congrArg (·.pool.capacity) kept))
    · obtain ⟨last, rfl, has⟩ := at' _ rfl
      have capacity : f.runners.pool.capacity = r.floor.runners.pool.capacity ∨
          f.runners.pool.capacity = r.floor.runners.pool.capacity + o.budget.checkers := by
        rw [grown]
        exact Pool.growCapacity _ _
      refine shared.step ordered found rfl went (fun p => ?_) (Task.movesReleases moved)
        (Task.movesHanded moved)
        (capacity.imp_right fun more => ⟨last, trivial, id, trivial, has, more⟩)
      by_cases same : p = place
      · subst same
        rwa [there]
      · rw [other same]
        refine (shared.books p).more ?_ fun xs kept => ?_
        · exact capacity.elim (fun same => Nat.le_of_eq same.symm)
            fun more => Nat.le_trans (Nat.le_add_right _ _) (Nat.le_of_eq more.symm)
        · rw [grown]
          exact Pool.Kept.grow kept _

theorem Shared.own (shared : Shared o r) (custody : Custody o anyActive r)
    (move : next ∈ r.ownMoves) : Shared o next := by
  have ordered := custody.ordered
  cases ownActed move with
  | received collecting taken =>
    obtain ⟨⟨c, found⟩, -, same⟩ := List.mem_map.mp taken
    cases same
    exact shared.same rfl rfl fun _ => id
  | joined early found =>
    exact shared.step ordered found rfl (Task.joinWent _).1
      (shared.stillBooks found rfl rfl fun _ => trivial) False.elim (fun _ => trivial) (.inl rfl)
  | cut aborting found cut =>
    obtain ⟨role, rfl, rfl, rfl⟩ := Task.cutLeaves cut
    exact shared.step ordered found rfl (Task.cutWent cut)
      (shared.stillBooks found rfl rfl Task.Books.quit) .inl False.elim (.inl rfl)
  | @checkersDone d result outcome s disposing moved =>
    have runners := (Floor.disposedSites checkerNote result { r.floor with checkers := s }).2.1
    exact shared.same rfl (congrArg (·.pool.capacity) runners) fun _ books => runners ▸ books
  | onRunners disposing moved =>
    have late : ¬r.conduct.Early := by rw [disposing]; exact id
    refine shared.same rfl (Disposal.movesOnward moved).1.capacity fun p _ => ?_
    rw [allJoined (custody.joined late)]
    trivial
  | @runnersDone d result outcome s disposing moved =>
    have late : ¬r.conduct.Early := by rw [disposing]; exact id
    have runners := (Floor.disposedSites runnerNote result { r.floor with runners := s }).2.1
    refine shared.same rfl ?_ fun p _ => ?_
    · rw [runners]
      exact (Disposal.movesOnward moved).1.capacity
    · rw [allJoined (custody.joined late)]
      trivial
  | _ => exact shared.same rfl rfl fun _ => id

theorem Shared.onward (shared : Shared o r) (laden : Laden o r) (step : Step r next) :
    Shared o next := by
  cases step with
  | own move => exact shared.own laden.custody move
  | task place move => exact shared.task laden.custody.ordered move
  | checker x outcome waits => exact shared.same rfl rfl fun _ => id
  | runner x outcome waits =>
    exact shared.same rfl rfl fun p books => books.more (Nat.le_refl _) fun _ => id

end Run

end MutationPipeline
