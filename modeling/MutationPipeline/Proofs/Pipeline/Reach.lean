import MutationPipeline.Proofs.Pipeline.Shares

/-! How far mutants have come. No mutant is past the checkers before the last of them has begun its
work, and then all others are gone. -/
namespace MutationPipeline
variable {o : Orders} {place : Nat} {f f' : Floor}

def Floor.Emptier (f f' : Floor) : Prop :=
  ∀ p, (f'.link p).items ≠ [] → (f.link p).items ≠ []

namespace Role
variable {role : Role} {n : Next Role (Except RunError Unit)}

def Bare : Role → Prop
  | .releasing _ (.forwarding held) => held = none
  | .releasing .. => True
  | .covering held => held = none
  | .testing _ (.running g) => g.flights = [] ∧ (g.feed = .open [] ∨ g.feed = .ended)
  | _ => False

theorem Bare.runTokens (bare : role.Bare) : role.runTokens = [] := by
  cases role with
  | testing planOf t =>
    cases t with
    | running g =>
      obtain ⟨flights, feed⟩ := bare
      have tokens := g.tokensParts Running.tokens
      rw [flights] at tokens
      rcases feed with feed | feed <;> rw [feed] at tokens <;> exact tokens
    | reporting result g => exact bare.elim
  | _ => rfl

theorem emptierOf (links : f'.links = f.links) : f.Emptier f' := by
  intro p some
  rwa [Floor.link, links] at some

theorem receiveEmptier {x : Option CoveredMutant} (move : (f', x) ∈ f.receive (Floor.input place)) :
    f.Emptier f' := by
  have passed : Floor.Passed place False f f' := .receive move
  exact fun p some => (passed.items p some).elim id fun sent => sent.2.elim

theorem receiveNothing {m : CoveredMutant} (front : (f.link place).items = []) :
    (f', some m) ∉ f.receive (Floor.input place) := by
  intro move
  obtain ⟨⟨c, found⟩, received, same⟩ := List.mem_map.mp move
  cases same
  rcases Channel.receiveCases received with ⟨y, -, items⟩ | ⟨none, -⟩
  · have items : (f.link place).items = y :: c.items := items
    rw [front] at items
    cases items
  · cases none

theorem handoverBare {share : Nat} {h : Handover} {n : Next Handover (Except RunError Unit)}
    (bare : (Role.releasing share h).Bare) (front : (f.link place).items = [])
    (move : (f', n) ∈ handover share place h f) :
    f.Emptier f' ∧ ∀ later, n = .go later → (Role.releasing share later).Bare := by
  cases h with
  | forwarding held =>
    obtain rfl : held = none := bare
    obtain ⟨⟨g, found⟩, received, same⟩ := List.mem_map.mp move
    cases found with
    | some m => exact absurd received (receiveNothing front)
    | none =>
      have emptier : f.Emptier g := receiveEmptier received
      cases same
      refine ⟨emptier, fun later same => ?_⟩
      cases same
      trivial
  | disposing d =>
    rcases Machine.withinCases move with ⟨e, inner, rfl⟩ | ⟨u, r, inner, same⟩ | ⟨inner, rfl⟩
    · obtain ⟨s, -, rfl⟩ := Machine.onCases inner
      refine ⟨emptierOf rfl, fun later same => ?_⟩
      cases same
      trivial
    · obtain ⟨s, -, rfl⟩ := Machine.onCases inner
      cases r with
      | ok r =>
        cases same
        refine ⟨emptierOf rfl, fun later same => ?_⟩
        cases same
        trivial
      | error e =>
        cases same
        exact ⟨emptierOf rfl, fun later same => by cases same⟩
    · obtain ⟨s, -, rfl⟩ := Machine.onCases inner
      exact ⟨emptierOf rfl, fun later same => by cases same⟩
  | growing =>
    obtain ⟨rfl, rfl⟩ := memFinish.mp move
    exact ⟨emptierOf rfl, fun later same => by cases same⟩

theorem runTestsBare {planOf : CoveredMutant → RunPlan} {t : Testing}
    {n : Next Testing (Except RunError Unit)} (bare : (Role.testing planOf t).Bare)
    (front : (f.link place).items = []) (move : (f', n) ∈ runTests planOf place t f) :
    f.Emptier f' ∧ ∀ later, n = .go later → (Role.testing planOf later).Bare := by
  cases t with
  | running g =>
    obtain ⟨flights, feed⟩ := bare
    have landed {before rest} {x : Flight Running CoveredMutant (Except WorkerError TestRun)}
        (some : g.flights = before ++ x :: rest) : False := by
      rw [flights] at some
      simp at some
    have acquired {item a known} (some : g.feed = .acquiring item a known) : False := by
      rcases feed with feed | feed <;> rw [feed] at some <;> cases some
    have dry {u o} (inner : (u, o) ∈ Schedule.moves (testPlan planOf place) g f) :
        f.Emptier u ∧ ((∃ k, o = .go k ∧ (Role.testing planOf (.running k)).Bare) ∨
          o = .done (none, g)) := by
      cases Schedule.movesMoved inner with
      | ended => exact ⟨emptierOf rfl, .inr rfl⟩
      | offer some => rcases feed with feed | feed <;> rw [feed] at some <;> cases some
      | pull some more => exact absurd more (receiveNothing front)
      | dry some more => exact ⟨receiveEmptier more, .inl ⟨_, rfl, flights, .inr rfl⟩⟩
      | acquire some => exact (acquired some).elim
      | send some => exact (acquired some).elim
      | refuse some => exact (acquired some).elim
      | feedBreaks some => exact (acquired some).elim
      | reject some => exact (landed some).elim
      | work some => exact (landed some).elim
      | answer some => exact (landed some).elim
      | workBreaks some => exact (landed some).elim
      | release some => exact (landed some).elim
      | land some => exact (landed some).elim
    rcases Machine.withinCases move with ⟨q, inner, rfl⟩ | ⟨u, ⟨y, k⟩, inner, same⟩ | ⟨inner, rfl⟩
    · obtain ⟨emptier, ⟨k, go, bare⟩ | none⟩ := dry inner
      · cases go
        refine ⟨emptier, fun later same => ?_⟩
        cases same
        exact bare
      · cases none
    · obtain ⟨emptier, ⟨k, go, bare⟩ | none⟩ := dry inner
      · cases go
      · cases none
        cases same
        exact ⟨emptier, fun later same => by cases same⟩
    · obtain ⟨-, ⟨k, go, bare⟩ | none⟩ := dry inner
      · cases go
      · cases none
  | reporting result g => exact bare.elim

theorem movesBare (bare : role.Bare) (front : (f.link place).items = [])
    (move : (f', n) ∈ role.moves place f) :
    f.Emptier f' ∧ ∀ next, n = .go next → next.Bare := by
  cases role with
  | releasing share h =>
    rcases Machine.withinCases move with ⟨q, inner, rfl⟩ | ⟨u, r, inner, same⟩ | ⟨inner, rfl⟩
    · obtain ⟨emptier, later⟩ := handoverBare bare front inner
      refine ⟨emptier, fun next same => ?_⟩
      cases same
      exact later q rfl
    · cases same
      exact ⟨(handoverBare bare front inner).1, fun next same => by cases same⟩
    · exact ⟨(handoverBare bare front inner).1, fun next same => by cases same⟩
  | covering held =>
    obtain rfl : held = none := bare
    obtain ⟨⟨g, found⟩, received, same⟩ := List.mem_map.mp move
    cases found with
    | some m => exact absurd received (receiveNothing front)
    | none =>
      obtain ⟨rfl, rfl⟩ := Prod.mk.inj same
      exact ⟨receiveEmptier received, fun next same => by cases same⟩
  | testing planOf t =>
    rcases Machine.withinCases move with ⟨q, inner, rfl⟩ | ⟨u, r, inner, same⟩ | ⟨inner, rfl⟩
    · obtain ⟨emptier, later⟩ := runTestsBare bare front inner
      refine ⟨emptier, fun next same => ?_⟩
      cases same
      exact later q rfl
    · cases same
      exact ⟨(runTestsBare bare front inner).1, fun next same => by cases same⟩
    · exact ⟨(runTestsBare bare front inner).1, fun next same => by cases same⟩
  | _ => exact bare.elim

end Role

namespace Task
variable {t u : Task}

def Bare : Task → Prop
  | .working role | .leaving role _ => role.Bare
  | _ => True

theorem Bare.runTokens (bare : t.Bare) : t.runTokens = [] := by
  cases t with
  | working role => exact Role.Bare.runTokens bare
  | leaving role outcome => exact Role.Bare.runTokens bare
  | _ => rfl

theorem movesBare (bare : t.Bare) (front : (f.link place).items = [])
    (move : (f', u) ∈ t.moves place f) : f.Emptier f' ∧ u.Bare := by
  cases t with
  | working role =>
    obtain ⟨⟨g, n⟩, inner, same⟩ := List.mem_map.mp move
    obtain ⟨emptier, later⟩ := Role.movesBare bare front inner
    cases n with
    | go next => cases same; exact ⟨emptier, later next rfl⟩
    | _ => cases same; exact ⟨emptier, bare⟩
  | leaving role outcome =>
    cases List.mem_singleton.mp move
    exact ⟨Role.emptierOf (vacateLinks role f), trivial⟩
  | closing role outcome =>
    cases List.mem_singleton.mp move
    exact ⟨(closeLinks place role f).2.1, trivial⟩
  | closed outcome =>
    cases List.mem_singleton.mp move
    exact ⟨Role.emptierOf rfl, trivial⟩
  | _ => cases move

end Task

namespace Run
variable {r next : Run} {mutants : List CoveredMutant} {t u : Task}

def Unreached (o : Orders) (r : Run) : Prop :=
  ∀ p, o.config.checkers.length < p → (r.floor.link p).items = [] ∧ (r.task p).Bare

def Reach (o : Orders) (r : Run) : Prop :=
  Unreached o r ∨ ∀ m < o.config.checkers.length, (r.task m).Gone

theorem startUnreached (o : Orders) (mutants : List CoveredMutant) :
    Unreached o (start o mutants) := by
  refine fun p behind => ⟨o.floorEmpty _ p, ?_⟩
  rcases startTask o mutants p with none | ⟨role, here, place, fresh⟩
  · rw [none]
    trivial
  · rw [here]
    cases role with
    | ignoring rest =>
      obtain rfl : p = 0 := place
      exact absurd behind (Nat.not_lt_zero _)
    | checking plan stage =>
      obtain ⟨inside, -⟩ := List.getElem?_eq_some_iff.mp place.2.1
      omega
    | releasing share h =>
      obtain rfl : h = .forwarding none := fresh
      rfl
    | covering held => exact fresh
    | testing planOf t =>
      obtain rfl : t = .running { feed := .open [] } := fresh
      exact ⟨rfl, .inl rfl⟩

theorem Reach.same (reach : Reach o r) (tasks : next.tasks = r.tasks)
    (links : next.floor.links = r.floor.links) : Reach o next := by
  have task (p : Nat) : next.task p = r.task p := by rw [Run.task, Run.task, tasks]
  refine reach.imp (fun none p behind => ?_) fun gone m before => ?_
  · rw [Floor.link, links, task]
    exact none p behind
  · rw [task]
    exact gone m before

section Step
variable (found : r.tasks[place]? = some t) (tasks : next.tasks = r.tasks.set place u)
include found tasks

theorem Unreached.step (unreached : Unreached o r) (emptier : r.floor.Emptier next.floor)
    (bare : o.config.checkers.length < place → u.Bare) : Unreached o next := by
  refine fun p behind => ⟨?_, ?_⟩
  · by_contra some
    exact emptier p some (unreached p behind).1
  · by_cases same : p = place
    · subst same
      rw [taskSelf found tasks]
      exact bare behind
    · rw [taskOther tasks same]
      exact (unreached p behind).2

end Step

theorem Ordered.sender (ordered : Ordered o r)
    (found : r.tasks[o.config.checkers.length]? = some t) (puts : t.Puts) :
    ∀ m < o.config.checkers.length, (r.task m).Gone := by
  have here := taskFound found
  cases t with
  | working role =>
    have at' : role.At o o.config.checkers.length :=
      ordered.places _ role (by rw [here]; rfl)
    cases role with
    | ignoring rest =>
      have first : o.config.checkers.length = 0 := at'
      exact fun m before => absurd (first ▸ before) (Nat.not_lt_zero m)
    | checking plan stage =>
      refine ordered.busy _ (here ▸ ?_)
      have sends : stage.sends = true := puts
      show stage.isDraining = false
      cases stage with
      | draining batch => cases sends
      | _ => rfl
    | releasing share h =>
      have behind : o.config.checkers.length = o.config.checkers.length + 1 := at'.1
      omega
    | covering held => exact absurd (Role.At.behind (.inl at')) (Nat.lt_irrefl _)
    | testing planOf t => exact absurd (Role.At.behind (.inr at')) (Nat.lt_irrefl _)
  | _ => exact puts.elim

theorem Reach.task (reach : Reach o r) (ordered : Ordered o r) (move : next ∈ r.taskMoves place) :
    Reach o next := by
  obtain ⟨t, u, f, found, moved, rfl⟩ := taskActed move
  have went := (Task.movesWent (o := o) moved).1
  have gone (gone : ∀ m < o.config.checkers.length, (r.task m).Gone) :
      Reach o { r with floor := f, tasks := r.tasks.set place u } :=
    .inr fun m before => stillGone found rfl went (gone m before)
  rcases reach with unreached | before
  · by_cases behind : o.config.checkers.length < place
    · obtain ⟨front, bare⟩ := unreached place behind
      rw [taskFound found] at bare
      obtain ⟨emptier, bare⟩ := Task.movesBare bare front moved
      exact .inl (unreached.step found rfl emptier fun _ => bare)
    · by_cases puts : place = o.config.checkers.length ∧ t.Puts
      · obtain ⟨rfl, puts⟩ := puts
        exact gone (ordered.sender found puts)
      · refine .inl fun p past => ?_
        have other : p ≠ place := by omega
        refine ⟨?_, ?_⟩
        · by_contra some
          rcases went.items p some with before | ⟨next, sends⟩
          · exact before (unreached p past).1
          · exact puts ⟨by omega, sends⟩
        · rw [taskOther rfl other]
          exact (unreached p past).2
  · exact gone before

theorem Reach.own (reach : Reach o r) (move : next ∈ r.ownMoves) : Reach o next := by
  have step {place : Nat} {t u : Task} {next : Run} (found : r.tasks[place]? = some t)
      (tasks : next.tasks = r.tasks.set place u) (floor : next.floor = r.floor)
      (bare : t.Bare → u.Bare) (went : Task.Went o place r.floor next.floor t u) : Reach o next := by
    refine reach.imp (fun none => ?_) fun gone m before => stillGone found tasks went (gone m before)
    refine none.step found tasks (Role.emptierOf (by rw [floor])) fun behind => bare ?_
    exact taskFound found ▸ (none place behind).2
  cases ownActed move with
  | received collecting taken =>
    obtain ⟨⟨c, found⟩, -, same⟩ := List.mem_map.mp taken
    cases same
    exact reach.same rfl rfl
  | joined early found => exact step found rfl rfl (fun _ => trivial) (Task.joinWent _).1
  | cut aborting found cut =>
    obtain ⟨role, rfl, rfl, rfl⟩ := Task.cutLeaves cut
    exact step found rfl rfl id (Task.cutWent cut)
  | @checkersDone d result outcome s disposing moved =>
    exact reach.same rfl (Floor.disposedSites checkerNote result { r.floor with checkers := s }).2.2
  | @runnersDone d result outcome s disposing moved =>
    exact reach.same rfl (Floor.disposedSites runnerNote result { r.floor with runners := s }).2.2
  | _ => exact reach.same rfl rfl

theorem reachSteps (steps : Steps (start o mutants) r) : Laden o r ∧ Shared o r ∧ Reach o r := by
  induction steps with
  | refl => exact ⟨startLaden o mutants, startShared o mutants, .inl (startUnreached o mutants)⟩
  | tail _ step before =>
    obtain ⟨laden, shared, reach⟩ := before
    refine ⟨laden.step step, shared.onward laden step, ?_⟩
    cases step with
    | own move => exact reach.own move
    | task place move => exact reach.task laden.custody.ordered move
    | checker x outcome waits => exact reach.same rfl rfl
    | runner x outcome waits => exact reach.same rfl rfl

end Run

end MutationPipeline
