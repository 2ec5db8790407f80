import MutationPipeline.Proofs.Checker.Load
import MutationPipeline.Proofs.Pipeline.Custody

/-! How many calls the tasks of the checkers have in flight: never more than the pool of the checkers
may have workers, even if that was closed under them. -/
namespace MutationPipeline
variable {o : Orders} {place : Nat}

namespace Task
variable {t u : Task} {f f' : Floor} {members : Nat}

def load (members : Nat) : Task → Nat
  | .working (.checking _ stage) => stage.load members
  | .leaving (.checking _ stage) _ => stage.tokens.length
  | _ => 0

theorem load.idle (idle : ¬t.Busy) : t.load members = 0 := by
  cases t with
  | working role =>
    cases role with
    | checking plan stage =>
      cases stage with
      | draining batch => rfl
      | _ => exact absurd rfl idle
    | _ => rfl
  | leaving role outcome =>
    cases role with
    | checking plan stage =>
      cases stage with
      | draining batch => rfl
      | _ => exact absurd rfl idle
    | _ => rfl
  | _ => rfl

theorem load.mono {few many : Nat} (more : few ≤ many) (t : Task) : t.load few ≤ t.load many := by
  cases t with
  | working role =>
    cases role with
    | checking plan stage => exact Stage.load.mono more stage
    | _ => exact Nat.le_refl _
  | leaving role outcome => cases role <;> exact Nat.le_refl _
  | _ => exact Nat.le_refl _

theorem load.quit {role : Role} {outcome : Except RunError Unit} :
    (Task.leaving role outcome).load members ≤ (Task.working role).load members := by
  cases role with
  | checking plan stage => exact stage.tokensLoad members
  | _ => exact Nat.le_refl _

theorem Holds.load {active : String → Nat → Prop} {others : List Stance} {s : CheckSite}
    (holds : t.Holds active others s) (working : t.Working)
    (opened : s.pool.permits.closed = false) :
    t.load s.pool.members.length ≤ s.pool.capacity := by
  cases t with
  | working role =>
    cases role with
    | checking plan stage => exact Stage.Sound.load holds opened
    | _ => exact Nat.zero_le _
  | _ => exact working.elim

theorem movesLoad (move : (f', u) ∈ t.moves place f)
    (closed : f'.checkers.pool.permits.closed = true ∨ ¬u.Working) :
    u.load f'.checkers.pool.members.length ≤ t.load f.checkers.pool.members.length := by
  by_cases busy : u.Busy
  · cases t with
    | working role =>
      obtain ⟨⟨g, n⟩, inner, same⟩ := List.mem_map.mp move
      have idle (unfed : ∀ c, ¬role.Fed c) (idle : ¬role.Busy) : False := by
        cases n with
        | go next =>
          cases same
          exact ((Role.movesOnward inner).begins busy).elim idle fun fed => unfed _ fed.2
        | _ => cases same; exact idle busy
      cases role with
      | checking plan stage =>
        rcases Machine.withinCases inner with ⟨q, moved, rfl⟩ | ⟨w, r, moved, ended⟩ | ⟨moved, rfl⟩
        · obtain ⟨v, own, rfl⟩ := Machine.onCases moved
          cases same
          have closed := closed.resolve_right fun stopped => stopped trivial
          exact Stage.movesLoad ((Stage.movesLevel own).closed.symm.trans closed) own q rfl
        · cases ended
          cases same
          exact stage.tokensLoad _
        · cases same
          exact stage.tokensLoad _
      | _ => exact (idle (fun _ => id) id).elim
    | leaving role outcome =>
      cases List.mem_singleton.mp move
      exact busy.elim
    | closing role outcome =>
      cases List.mem_singleton.mp move
      exact busy.elim
    | closed outcome =>
      cases List.mem_singleton.mp move
      exact busy.elim
    | _ => cases move
  · rw [load.idle busy]
    exact Nat.zero_le _

end Task

namespace Run
variable {r next : Run} {mutants : List CoveredMutant} {t u : Task}

def anyActive : String → Nat → Prop := fun _ _ => True

structure Laden (o : Orders) (r : Run) : Prop where
  custody : Custody o anyActive r
  load : ∀ p, (r.task p).load r.floor.checkers.pool.members.length ≤ o.budget.checkers

theorem startLaden (o : Orders) (mutants : List CoveredMutant) : Laden o (start o mutants) where
  custody := startCustody o anyActive mutants
  load := fun p => by
    rw [Task.load.idle (startIdle o mutants p)]
    exact Nat.zero_le _

theorem Custody.load {active : String → Nat → Prop} (custody : Custody o active r)
    (early : r.conduct.Early) (opened : r.floor.checkers.pool.permits.closed = false) {p : Nat}
    (working : (r.task p).Working) :
    (r.task p).load r.floor.checkers.pool.members.length ≤ o.budget.checkers := by
  rcases custody.charge (.inr (.inr opened)) early with ⟨q, held⟩ | spent
  · by_cases same : p = q
    · subst same
      rw [← held.capacity]
      exact held.holds.load working opened
    · rw [Task.load.idle (held.alone p same)]
      exact Nat.zero_le _
  · rw [Task.load.idle (spent.idle p)]
    exact Nat.zero_le _

theorem Laden.task (laden : Laden o r) (move : next ∈ r.taskMoves place) : Laden o next := by
  have later := laden.custody.task move
  refine ⟨later, fun p => ?_⟩
  obtain ⟨t, u, f, found, moved, rfl⟩ := taskActed move
  have early := laden.custody.early found moved
  have here := taskFound found
  have there : Run.task { r with floor := f, tasks := r.tasks.set place u } place = u :=
    taskSelf found rfl
  by_cases at' : f.checkers.pool.permits.closed = false ∧
      (Run.task { r with floor := f, tasks := r.tasks.set place u } p).Working
  · exact later.load early at'.1 at'.2
  · by_cases same : p = place
    · subst same
      have before := laden.load p
      rw [here] at before
      rw [there] at at' ⊢
      refine Nat.le_trans (Task.movesLoad moved ?_) before
      rw [not_and_or, Bool.not_eq_false] at at'
      exact at'
    · have other : Run.task { r with floor := f, tasks := r.tasks.set place u } p = r.task p :=
        taskOther rfl same
      rw [other]
      by_cases busy : t.Busy
      · have idle : ¬(r.task p).Busy := fun working =>
          same (laden.custody.ordered.lone working (by rwa [here]))
        rw [Task.load.idle idle]
        exact Nat.zero_le _
      · exact Nat.le_trans (Task.load.mono (Task.movesFewer moved busy).2 _) (laden.load p)

theorem Laden.same (laden : Laden o r) (later : Custody o anyActive next)
    (tasks : next.tasks = r.tasks)
    (members : next.floor.checkers.pool.members.length ≤ r.floor.checkers.pool.members.length) :
    Laden o next := by
  refine ⟨later, fun p => ?_⟩
  have task : next.task p = r.task p := by rw [Run.task, Run.task, tasks]
  rw [task]
  exact Nat.le_trans (Task.load.mono members _) (laden.load p)

theorem Laden.quit (laden : Laden o r) (later : Custody o anyActive next)
    (found : r.tasks[place]? = some t) (tasks : next.tasks = r.tasks.set place u)
    (floor : next.floor = r.floor) (less : ∀ members, u.load members ≤ t.load members) :
    Laden o next := by
  refine ⟨later, fun p => ?_⟩
  rw [floor]
  by_cases same : p = place
  · subst same
    have before := laden.load p
    rw [taskFound found] at before
    rw [taskSelf found tasks]
    exact Nat.le_trans (less _) before
  · rw [taskOther tasks same]
    exact laden.load p

theorem Laden.own (laden : Laden o r) (move : next ∈ r.ownMoves) : Laden o next := by
  have later := laden.custody.own move
  cases ownActed move with
  | received collecting taken =>
    obtain ⟨⟨c, found⟩, -, same⟩ := List.mem_map.mp taken
    cases same
    exact laden.same later rfl (Nat.le_refl _)
  | joined early found => exact laden.quit later found rfl rfl fun _ => Nat.le_refl _
  | cut aborting found cut =>
    obtain ⟨role, rfl, rfl, rfl⟩ := Task.cutLeaves cut
    exact laden.quit later found rfl rfl fun _ => Task.load.quit
  | onCheckers disposing moved => exact laden.same later rfl (Disposal.movesOnward moved).2
  | checkersDone disposing moved =>
    refine laden.same later rfl ?_
    rw [(Floor.disposedSites checkerNote _ { r.floor with checkers := _ }).1]
    exact (Disposal.movesOnward moved).2
  | runnersDone disposing moved =>
    refine laden.same later rfl (Nat.le_of_eq ?_)
    rw [(Floor.disposedSites runnerNote _ { r.floor with runners := _ }).1]
  | _ => exact laden.same later rfl (Nat.le_refl _)

theorem anyAnswers (x : Order CheckWork) (outcome : Outcome CheckAnswer) :
    Answers anyActive anyActive x outcome :=
  ⟨fun _ _ _ => id, fun _ _ _ _ => trivial⟩

theorem Laden.step (laden : Laden o r) (step : Step r next) : Laden o next := by
  cases step with
  | own move => exact laden.own move
  | task place move => exact laden.task move
  | checker x outcome waits =>
    exact laden.same (laden.custody.answer (anyAnswers x outcome) waits) rfl (Nat.le_refl _)
  | runner x outcome waits =>
    exact laden.same (laden.custody.same rfl rfl rfl laden.custody.ordered.conduct id Iff.rfl) rfl
      (Nat.le_refl _)

end Run

end MutationPipeline
