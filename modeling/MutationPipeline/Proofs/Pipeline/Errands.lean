import MutationPipeline.Proofs.Checker.Errands
import MutationPipeline.Proofs.Pipeline.Succession

/-! What the tasks of a run ask workers for. The record of errands is complete: the workers were called
for nothing else. -/
namespace MutationPipeline

def Testing.RunFits (planOf : CoveredMutant → RunPlan) (m : CoveredMutant) (g : Running) : Prop :=
  g.Fits some (planOf m)

def Testing.schedule : Testing → TestSchedule
  | .running f | .reporting _ f => f

namespace Floor
variable {o : Orders} {place : Nat} {f g : Floor} {said : List Errand}

structure Spoke (o : Orders) (said : List Errand) (f g : Floor) : Prop where
  checkers : Crew.Spoke CheckWork.checked? (said.filterMap Errand.checked?) f.checkers.crew
    g.checkers.crew
  runners : Crew.Spoke some (said.filterMap (Errand.planned? o)) f.runners.crew g.runners.crew

theorem Spoke.still (checkers : g.checkers.crew = f.checkers.crew)
    (runners : g.runners.crew = f.runners.crew) : Spoke o [] f g where
  checkers := Crew.Hushed.spoke ⟨by rw [checkers], by rw [checkers]⟩
  runners := Crew.Hushed.spoke ⟨by rw [runners], by rw [runners]⟩

theorem Spoke.onCheckers (checkers : Crew.Spoke CheckWork.checked? [] f.checkers.crew g.checkers.crew)
    (runners : g.runners.crew = f.runners.crew) : Spoke o [] f g where
  checkers := checkers
  runners := Crew.Hushed.spoke ⟨by rw [runners], by rw [runners]⟩

theorem Spoke.onRunners (checkers : g.checkers.crew = f.checkers.crew)
    (runners : Crew.Spoke some [] f.runners.crew g.runners.crew) : Spoke o [] f g where
  checkers := Crew.Hushed.spoke ⟨by rw [checkers], by rw [checkers]⟩
  runners := runners

theorem receiveSites {x : Option CoveredMutant} (move : (g, x) ∈ f.receive (input place)) :
    g.checkers = f.checkers ∧ g.runners = f.runners := by
  obtain ⟨⟨c, found⟩, -, same⟩ := List.mem_map.mp move
  cases same
  exact ⟨rfl, rfl⟩

theorem sendSites {name : String} {m : CoveredMutant} {sent : Except RunError Unit}
    (move : (g, sent) ∈ f.send (output place) name m) :
    g.checkers = f.checkers ∧ g.runners = f.runners := by
  obtain ⟨⟨c, taken⟩, -, same⟩ := List.mem_map.mp move
  cases same
  exact ⟨rfl, rfl⟩

theorem resultSites {name : String} {x : MutantResult} {sent : Except RunError Unit}
    (move : (g, sent) ∈ f.send onResults name x) :
    g.checkers = f.checkers ∧ g.runners = f.runners := by
  obtain ⟨⟨c, taken⟩, -, same⟩ := List.mem_map.mp move
  cases same
  exact ⟨rfl, rfl⟩

end Floor

namespace Role
variable {o : Orders} {place : Nat} {role : Role} {f f' : Floor} {n : Next Role (Except RunError Unit)}

theorem testPlanSpeaks (planOf : CoveredMutant → RunPlan) (place : Nat) :
    (testPlan planOf place).Speaks some Running.mayAsk Running.begun? (Testing.RunFits planOf)
      planOf where
  works := fun _ _ _ _ _ _ fits discreet move => Running.movesWorks fits rfl discreet move
  idle := Running.begunSelf
  starts := fun _ => trivial
  fresh := fun _ => rfl
  lawful := fun _ _ => rfl
  aloof := fun _ _ _ more => congrArg Site.crew (Floor.receiveSites more).2

def Suits (o : Orders) : Role → Prop
  | .checking _ stage => stage.Fits
  | .releasing _ (.disposing d) => d.Begins (Unseen CheckWork.checked?)
  | .testing planOf t => planOf = o.planOf ∧ t.schedule.Fits some (Testing.RunFits planOf)
  | _ => True

structure Speaks (o : Orders) (place : Nat) (role : Role) (f f' : Floor)
    (n : Next Role (Except RunError Unit)) : Prop where
  spoke : f.Spoke o (n.elim (role.asked place) (fun _ => []) []) f'
  suits : ∀ next, n = .go next → next.Suits o

theorem Speaks.silent (spoke : f.Spoke o [] f') (asked : ∀ next, role.asked place next = [])
    (suits : ∀ next, n = .go next → next.Suits o) : role.Speaks o place f f' n where
  spoke := by
    have none : n.elim (role.asked place) (fun _ => []) [] = [] := by
      cases n with
      | go next => exact asked next
      | _ => rfl
    rw [none]
    exact spoke
  suits := suits

theorem Speaks.still (sites : f'.checkers = f.checkers ∧ f'.runners = f.runners)
    (asked : ∀ next, role.asked place next = []) (suits : ∀ next, n = .go next → next.Suits o) :
    role.Speaks o place f f' n :=
  .silent (.still (by rw [sites.1]) (by rw [sites.2])) asked suits

theorem checkingSpeaks {plan : StagePlan} {stage : Stage} {k : Next Stage (Except RunError Unit)}
    (fits : stage.Fits) (discreet : f.checkers.crew.Discreet CheckWork.checked?)
    (move : (f', k) ∈ (Stage.moves plan).on (Floor.onStage place) stage f) :
    (Role.checking plan stage).Speaks o place f f'
      (k.elim (fun s => .go (.checking plan s)) .done .panicked) := by
  obtain ⟨v, inner, rfl⟩ := Machine.onCases move
  obtain ⟨spoke, fits⟩ := Stage.movesSpeaks (k := place - 1) fits discreet inner
  have none (k : Nat) (asked : List (Group × Bool)) :
      (asked.map fun x => Errand.check k x.1 x.2).filterMap (Errand.planned? o) =
        [] := by
    rw [List.filterMap_map]
    exact List.filterMap_eq_nil_iff.mpr fun _ _ => rfl
  have quiet (next : Stage) :
      ((Role.checking plan stage).asked place (.checking plan next)).filterMap (Errand.planned? o) =
        [] := by
    show (stage.asked (place - 1) next).filterMap _ = []
    cases stage with
    | checking f =>
      cases next with
      | checking g => exact none _ _
      | _ => rfl
    | _ => rfl
  cases k with
  | go next =>
    refine ⟨⟨spoke, ?_⟩, fun _ same => by cases same; exact fits next rfl⟩
    rw [Next.elim, Next.elim, quiet]
    exact Crew.Hushed.spoke ⟨rfl, rfl⟩
  | done r =>
    exact ⟨⟨spoke, Crew.Hushed.spoke ⟨rfl, rfl⟩⟩, fun _ same => by cases same⟩
  | panicked =>
    exact ⟨⟨spoke, Crew.Hushed.spoke ⟨rfl, rfl⟩⟩, fun _ same => by cases same⟩

theorem handoverSpeaks {share : Nat} {h : Handover} {k : Next Handover (Except RunError Unit)}
    (suits : (Role.releasing share h).Suits o) (move : (f', k) ∈ handover share place h f) :
    (Role.releasing share h).Speaks o place f f' (handing share k) := by
  cases h with
  | forwarding held =>
    cases held with
    | none =>
      obtain ⟨⟨g, found⟩, received, same⟩ := List.mem_map.mp move
      have sites := Floor.receiveSites received
      cases found with
      | none => cases same; exact .still sites (fun _ => rfl) fun _ same => by cases same; trivial
      | some m => cases same; exact .still sites (fun _ => rfl) fun _ same => by cases same; trivial
    | some m =>
      obtain ⟨⟨g, sent⟩, sending, same⟩ := List.mem_map.mp move
      have sites := Floor.sendSites sending
      cases sent with
      | ok r => cases same; exact .still sites (fun _ => rfl) fun _ same => by cases same; trivial
      | error e => cases same; exact .still sites (fun _ => rfl) fun _ same => by cases same
  | disposing d =>
    rcases Machine.withinCases move with ⟨e, inner, rfl⟩ | ⟨u, r, inner, same⟩ | ⟨inner, rfl⟩
    · obtain ⟨u, moved, rfl⟩ := Machine.onCases inner
      refine .silent (.onCheckers (Disposal.movesSilent suits moved) rfl) (fun _ => rfl)
        fun _ same => ?_
      cases same
      exact Disposal.movesBegins moved e rfl
    · obtain ⟨u, moved, rfl⟩ := Machine.onCases inner
      have spoke := Disposal.movesSilent suits moved
      cases r with
      | ok r =>
        cases same
        exact .silent (.onCheckers spoke rfl) (fun _ => rfl) fun _ same => by cases same; trivial
      | error e =>
        cases same
        exact .silent (.onCheckers spoke rfl) (fun _ => rfl) fun _ same => by cases same
    · obtain ⟨u, moved, rfl⟩ := Machine.onCases inner
      exact .silent (.onCheckers (Disposal.movesSilent suits moved) rfl) (fun _ => rfl)
        fun _ same => by cases same
  | growing =>
    obtain ⟨rfl, rfl⟩ := memFinish.mp move
    exact .silent (.still rfl rfl) (fun _ => rfl) fun _ same => by cases same

theorem testingSpeaks {t : Testing} {k : Next Testing (Except RunError Unit)}
    (fits : t.schedule.Fits some (Testing.RunFits o.planOf)) (discreet : f.runners.crew.Discreet some)
    (move : (f', k) ∈ runTests o.planOf place t f) :
    (Role.testing o.planOf t).Speaks o place f f' (runningOn o.planOf k) := by
  cases t with
  | reporting x g =>
    obtain ⟨⟨h, sent⟩, sending, same⟩ := List.mem_map.mp move
    have sites := Floor.resultSites sending
    have asked (next : Role) : (Role.testing o.planOf (.reporting x g)).asked place next = [] := by
      cases next with
      | testing planOf t => cases t <;> rfl
      | _ => rfl
    cases sent with
    | ok r => cases same; exact .still sites asked fun _ same => by cases same; exact ⟨rfl, fits⟩
    | error e => cases same; exact .still sites asked fun _ same => by cases same
  | running g =>
    have spoken {u r} (inner : (u, r) ∈ Schedule.moves (testPlan o.planOf place) g f) :
        u.checkers = f.checkers ∧ Crew.Spoke some
            ((r.elim (g.asked Running.begun?) (fun _ => []) []).map fun x => o.planOf x.1)
            f.runners.crew u.runners.crew ∧
          ∀ h, Schedule.after r = some h → h.Fits some (Testing.RunFits o.planOf) := by
      have moved := Schedule.movesMoved inner
      refine ⟨?_, Schedule.movedSpoke (testPlanSpeaks o.planOf place) fits discreet moved,
        Schedule.movedFits (testPlanSpeaks o.planOf place) fits discreet moved⟩
      rcases moved.state with rfl | ⟨v, rfl⟩ | ⟨item, more⟩
      · rfl
      · rfl
      · exact (Floor.receiveSites more).1
    have ended {u : Floor} (checkers : u.checkers = f.checkers)
        (spoke : Crew.Spoke some [] f.runners.crew u.runners.crew) :
        f.Spoke o [] u := .onRunners (by rw [checkers]) spoke
    rcases Machine.withinCases move with ⟨h, inner, rfl⟩ | ⟨u, ⟨y, h⟩, inner, same⟩ | ⟨inner, rfl⟩
    · obtain ⟨checkers, spoke, suits⟩ := spoken inner
      refine ⟨⟨?_, ?_⟩, fun _ same => by cases same; exact ⟨rfl, suits h rfl⟩⟩
      · have none : ((Role.testing o.planOf (.running g)).asked place
            (.testing o.planOf (.running h))).filterMap Errand.checked? = [] := by
          rw [asked, Testing.asked, List.filterMap_map]
          exact List.filterMap_eq_nil_iff.mpr fun _ _ => rfl
        rw [runningOn, Next.elim, Next.elim, none]
        exact Crew.Hushed.spoke ⟨by rw [checkers], by rw [checkers]⟩
      · rw [runningOn, Next.elim, Next.elim, asked, Testing.asked, List.filterMap_map]
        refine (congrArg (Crew.Spoke _ · _ _) ?_).mp spoke
        rw [← List.filterMap_eq_map]
        rfl
    · obtain ⟨checkers, spoke, suits⟩ := spoken inner
      cases y with
      | none => cases same; exact ⟨ended checkers spoke, fun _ same => by cases same⟩
      | some y =>
        obtain ⟨m, result⟩ := y
        cases result with
        | error e => cases same; exact ⟨ended checkers spoke, fun _ same => by cases same⟩
        | ok answer =>
          cases answer with
          | error e => cases same; exact ⟨ended checkers spoke, fun _ same => by cases same⟩
          | ok run =>
            cases same
            exact ⟨ended checkers spoke, fun _ same => by cases same; exact ⟨rfl, suits h rfl⟩⟩
    · obtain ⟨checkers, spoke, -⟩ := spoken inner
      exact ⟨ended checkers spoke, fun _ same => by cases same⟩

theorem movesSpeaks (suits : role.Suits o) (checkers : f.checkers.crew.Discreet CheckWork.checked?)
    (runners : f.runners.crew.Discreet some) (move : (f', n) ∈ role.moves place f) :
    role.Speaks o place f f' n := by
  have sent {next : Role} {moves : List (Floor × Except RunError Unit)} (suits : next.Suits o)
      (sites : ∀ g sent, (g, sent) ∈ moves → g.checkers = f.checkers ∧ g.runners = f.runners)
      (silent : ∀ next, role.asked place next = []) (move : (f', n) ∈ afterSend next moves) :
      role.Speaks o place f f' n := by
    obtain ⟨sent, sending, outcome⟩ := afterSendCases move
    rcases outcome with ⟨-, rfl⟩ | ⟨e, -, rfl⟩
    · exact .still (sites f' sent sending) silent fun _ same => by cases same; exact suits
    · exact .still (sites f' sent sending) silent fun _ same => by cases same
  cases role with
  | ignoring rest =>
    cases rest with
    | nil =>
      obtain ⟨rfl, rfl⟩ := memFinish.mp move
      exact .still ⟨rfl, rfl⟩ (fun _ => rfl) fun _ same => by cases same
    | cons m rest =>
      refine sent (show (Role.ignoring rest).Suits o from trivial) (fun g sent sending => ?_) (fun _ => rfl) move
      split at sending
      · exact Floor.resultSites sending
      · exact Floor.sendSites sending
  | checking plan stage =>
    rcases Machine.withinCases move with ⟨s, inner, rfl⟩ | ⟨u, r, inner, same⟩ | ⟨inner, rfl⟩
    · exact checkingSpeaks suits checkers inner
    · cases same
      exact checkingSpeaks suits checkers inner
    · exact checkingSpeaks suits checkers inner
  | releasing share h =>
    rcases Machine.withinCases move with ⟨g, inner, rfl⟩ | ⟨u, r, inner, same⟩ | ⟨inner, rfl⟩
    · exact handoverSpeaks suits inner
    · cases same
      exact handoverSpeaks suits inner
    · exact handoverSpeaks suits inner
  | covering held =>
    cases held with
    | none =>
      obtain ⟨⟨g, found⟩, received, same⟩ := List.mem_map.mp move
      have sites := Floor.receiveSites received
      cases found with
      | none => cases same; exact .still sites (fun _ => rfl) fun _ same => by cases same
      | some m => cases same; exact .still sites (fun _ => rfl) fun _ same => by cases same; trivial
    | some m =>
      refine sent (show (Role.covering none).Suits o from trivial) (fun g sent sending => ?_) (fun _ => rfl) move
      split at sending
      · exact Floor.resultSites sending
      · exact Floor.sendSites sending
  | testing planOf t =>
    obtain ⟨rfl, fits⟩ := suits
    rcases Machine.withinCases move with ⟨u, inner, rfl⟩ | ⟨u, r, inner, same⟩ | ⟨inner, rfl⟩
    · exact testingSpeaks fits runners inner
    · cases same
      exact testingSpeaks fits runners inner
    · exact testingSpeaks fits runners inner

end Role

namespace Task
variable {o : Orders} {place : Nat} {f f' : Floor} {t u : Task}

def Suits (o : Orders) : Task → Prop
  | .working role => role.Suits o
  | _ => True

theorem askedSelf (t : Task) (place : Nat) : t.asked place t = [] := by
  cases t with
  | working role =>
    cases role with
    | checking plan stage =>
      cases stage with
      | checking g =>
        have none : g.asked Handling.begun? g = [] :=
          Schedule.askedSame Handling.begunSelf rfl
        simp only [asked, Role.asked, Stage.asked, none, List.map_nil]
      | _ => rfl
    | testing planOf t =>
      cases t with
      | running g =>
        have none : g.asked Running.begun? g = [] := Schedule.askedSame Running.begunSelf rfl
        simp only [asked, Role.asked, Testing.asked, none, List.map_nil]
      | reporting x g => rfl
    | _ => rfl
  | _ => rfl

theorem vacateSpoke (role : Role) (f : Floor) : f.Spoke o [] (role.vacate f) := by
  have crew {W V β : Type} (of : W → Option β) (c : Crew W V) (tokens : List Nat) :
      Crew.Spoke of [] c (tokens.foldl Crew.abandon c) := (c.abandonHushed tokens).spoke
  unfold Role.vacate
  split
  · exact .onCheckers (crew _ _ _) rfl
  · exact .onCheckers (crew _ _ _) rfl
  · exact .onRunners rfl (crew _ _ _)
  · exact .onRunners rfl (crew _ _ _)
  · exact .still rfl rfl

theorem movesSpeaks (suits : t.Suits o) (checkers : f.checkers.crew.Discreet CheckWork.checked?)
    (runners : f.runners.crew.Discreet some) (move : (f', u) ∈ t.moves place f) :
    f.Spoke o (t.asked place u) f' ∧ u.Suits o := by
  cases t with
  | working role =>
    obtain ⟨⟨g, n⟩, inner, same⟩ := List.mem_map.mp move
    have spoken : role.Speaks o place f g n := Role.movesSpeaks suits checkers runners inner
    cases n with
    | go next => cases same; exact ⟨spoken.spoke, spoken.suits next rfl⟩
    | done outcome => cases same; exact ⟨spoken.spoke, trivial⟩
    | panicked => cases same; exact ⟨spoken.spoke, trivial⟩
  | leaving role outcome =>
    cases List.mem_singleton.mp move
    exact ⟨vacateSpoke role f, trivial⟩
  | closing role outcome =>
    cases List.mem_singleton.mp move
    refine ⟨?_, trivial⟩
    unfold Role.close
    dsimp only
    split <;> exact .still rfl rfl
  | closed outcome =>
    cases List.mem_singleton.mp move
    exact ⟨.still rfl rfl, trivial⟩
  | left outcome => cases move
  | joined => cases move

end Task

theorem Orders.rolesSuit (o : Orders) (mutants : List CoveredMutant) :
    ∀ role ∈ o.roles mutants, role.Suits o := by
  intro role member
  have idle (f : TestSchedule) (empty : f = { feed := .open [] }) :
      f.Fits some (Testing.RunFits o.planOf) := by
    cases empty
    exact ⟨fun _ _ _ same => (by cases same), fun _ _ _ _ member => absurd member List.not_mem_nil⟩
  simp only [roles, List.mem_append, List.mem_cons, List.not_mem_nil, or_false, List.mem_map] at member
  rcases member with ((rfl | ⟨name, -, rfl⟩) | releasing) | rfl | rfl
  · trivial
  · trivial
  · split at releasing
    · rw [List.mem_singleton.mp releasing]
      trivial
    · cases releasing
  · trivial
  · exact ⟨rfl, idle _ rfl⟩

def Conduct.Suits : Conduct → Prop
  | .disposingCheckers d _ => d.Begins (Unseen CheckWork.checked?)
  | .disposingRunners d _ => d.Begins (Unseen some)
  | _ => True

namespace Run
variable {o : Orders} {mutants : List CoveredMutant} {r next : Run} {place : Nat} {t u : Task}
  {errands : List Errand} {log : List Answer}

theorem askedSame (same : next.tasks = r.tasks) : r.asked next = [] := by
  rw [asked, same]
  exact zipIdxSelf (fun t u place => t.asked place u) Task.askedSelf r.tasks 0

theorem askedSet (found : r.tasks[place]? = some t) (tasks : next.tasks = r.tasks.set place u) :
    r.asked next = t.asked place u := by
  rw [asked, tasks]
  exact zipIdxSet (fun t u place => t.asked place u) Task.askedSelf found u

structure Spoken (o : Orders) (r : Run) (errands : List Errand) : Prop where
  checkers : r.floor.checkers.crew.asked CheckWork.checked? = errands.filterMap Errand.checked?
  runners : r.floor.runners.crew.asked some = errands.filterMap (Errand.planned? o)
  discreet : r.floor.checkers.crew.Discreet CheckWork.checked?
  silent : r.floor.runners.crew.Discreet some
  suits : ∀ p, (r.task p).Suits o
  conduct : r.conduct.Suits

theorem Spoken.onward {said : List Errand} (spoken : Spoken o r errands)
    (spoke : r.floor.Spoke o said next.floor) (suits : ∀ p, (next.task p).Suits o)
    (conduct : next.conduct.Suits) : Spoken o next (errands ++ said) where
  checkers := by rw [spoke.checkers.asked, spoken.checkers, List.filterMap_append]
  runners := by rw [spoke.runners.asked, spoken.runners, List.filterMap_append]
  discreet := spoke.checkers.discreet spoken.discreet
  silent := spoke.runners.discreet spoken.silent
  suits := suits
  conduct := conduct

theorem Spoken.still (spoken : Spoken o r errands) (tasks : next.tasks = r.tasks)
    (spoke : r.floor.Spoke o [] next.floor) (conduct : next.conduct.Suits) :
    Spoken o next (errands ++ r.asked next) := by
  rw [askedSame tasks]
  exact spoken.onward spoke (fun p => by rw [task, tasks]; exact spoken.suits p) conduct

theorem Spoken.set (spoken : Spoken o r errands) (found : r.tasks[place]? = some t)
    (tasks : next.tasks = r.tasks.set place u) (spoke : r.floor.Spoke o (t.asked place u) next.floor)
    (suits : u.Suits o) (conduct : next.conduct.Suits) : Spoken o next (errands ++ r.asked next) := by
  rw [askedSet found tasks]
  refine spoken.onward spoke (fun p => ?_) conduct
  by_cases same : p = place
  · subst same
    rwa [taskSelf found tasks]
  · rw [taskOther tasks same]
    exact spoken.suits p

theorem Spoken.own (spoken : Spoken o r errands) (acted : Acted r next) :
    Spoken o next (errands ++ r.asked next) := by
  cases acted with
  | received collecting taken =>
    obtain ⟨⟨c, x⟩, -, same⟩ := List.mem_map.mp taken
    cases same
    exact spoken.still rfl (.still rfl rfl) spoken.conduct
  | @joined place outcome early found =>
    refine spoken.set found rfl (.still rfl rfl) trivial ?_
    show (r.conduct.joined outcome).Suits
    cases conduct : r.conduct with
    | collecting => cases outcome <;> trivial
    | searching cause => cases outcome <;> trivial
    | aborting cause => trivial
    | _ =>
      rw [conduct] at early
      exact early.elim
  | aborted searching none => exact spoken.still rfl (.still rfl rfl) trivial
  | cut aborting found cut =>
    rename_i place t floor u
    cases t with
    | working role =>
      simp only [Task.cut] at cut
      split at cut
      · cases List.mem_singleton.mp cut
        exact spoken.set found rfl (.still rfl rfl) trivial spoken.conduct
      · cases cut
    | _ => cases cut
  | concluded ended all =>
    refine spoken.still rfl (.still rfl rfl) ?_
    unfold conclude
    dsimp only
    split <;> trivial
  | @onCheckers d e outcome s disposing move =>
    have begins : d.Begins (Unseen CheckWork.checked?) := by
      have suits := spoken.conduct
      rwa [disposing] at suits
    exact spoken.still rfl (.onCheckers (Disposal.movesSilent begins move) rfl)
      (Disposal.movesBegins move e rfl)
  | @checkersDone d result outcome s disposing move =>
    have begins : d.Begins (Unseen CheckWork.checked?) := by
      have suits := spoken.conduct
      rwa [disposing] at suits
    refine spoken.still rfl (.onCheckers ?_ ?_) trivial
    · rw [(Floor.disposedSites checkerNote result _).1]
      exact Disposal.movesSilent begins move
    · rw [(Floor.disposedSites checkerNote result _).2.1]
  | @onRunners d e outcome s disposing move =>
    have begins : d.Begins (Unseen some) := by
      have suits := spoken.conduct
      rwa [disposing] at suits
    exact spoken.still rfl (.onRunners rfl (Disposal.movesSilent begins move))
      (Disposal.movesBegins move e rfl)
  | @runnersDone d result outcome s disposing move =>
    have begins : d.Begins (Unseen some) := by
      have suits := spoken.conduct
      rwa [disposing] at suits
    refine spoken.still rfl (.onRunners ?_ ?_) trivial
    · rw [(Floor.disposedSites runnerNote result _).1]
    · rw [(Floor.disposedSites runnerNote result _).2.1]
      exact Disposal.movesSilent begins move
  | reported reporting => exact spoken.still rfl (.still rfl rfl) trivial

theorem Spoken.step (spoken : Spoken o r errands) (step : Step r next) :
    Spoken o next (errands ++ r.asked next) := by
  cases step with
  | own move => exact spoken.own (ownActed move)
  | task place move =>
    obtain ⟨t, u, f, found, moved, rfl⟩ := taskActed move
    have suits : t.Suits o := taskFound found ▸ spoken.suits place
    obtain ⟨spoke, later⟩ := Task.movesSpeaks suits spoken.discreet spoken.silent moved
    exact spoken.set found rfl spoke later spoken.conduct
  | checker x outcome waits =>
    exact spoken.still rfl (.onCheckers (Crew.Hushed.spoke ⟨rfl, rfl⟩) rfl) spoken.conduct
  | runner x outcome waits =>
    exact spoken.still rfl (.onRunners rfl (Crew.Hushed.spoke ⟨rfl, rfl⟩)) spoken.conduct

theorem startSpoken (o : Orders) (mutants : List CoveredMutant) : Spoken o (start o mutants) [] where
  checkers := rfl
  runners := rfl
  discreet := fun seat w known => by cases known
  silent := fun seat w known => by cases known
  suits := by
    intro p
    have found : (start o mutants).tasks[p]? = ((o.roles mutants)[p]?).map .working :=
      List.getElem?_map
    rw [task, List.getD_eq_getElem?_getD, found]
    cases here : (o.roles mutants)[p]? with
    | none => trivial
    | some role => exact o.rolesSuit mutants role (List.mem_of_getElem? here)
  conduct := trivial

theorem Spoken.recorded (start : Spoken o r []) (recorded : Recorded r next log errands) :
    Spoken o next errands := by
  induction recorded with
  | refl => exact start
  | tail _ step before => exact before.step step

end Run

end MutationPipeline
