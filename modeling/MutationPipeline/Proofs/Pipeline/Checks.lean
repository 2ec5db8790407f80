import MutationPipeline.Proofs.Pipeline.Custody
import MutationPipeline.Proofs.Pipeline.Scenes

/-! Each check is done by the checker for whose stage it is, wherever it is done. -/
namespace MutationPipeline

/-- It is the task of a checker, and it waits for a call. -/
def Task.Asks (checker : String) (token : Nat) : Task → Prop
  | .working (.checking plan stage) | .leaving (.checking plan stage) _ =>
    plan.checker = checker ∧ token ∈ stage.tokens
  | _ => False

theorem Task.Asks.busy {t : Task} {checker : String} {token : Nat} (asks : t.Asks checker token) :
    t.Busy := by
  have waits (stage : Stage) (member : token ∈ stage.tokens) : stage.isDraining = false := by
    cases stage with
    | draining batch => cases member
    | _ => rfl
  cases t with
  | working role =>
    cases role with
    | checking plan stage => exact waits stage asks.2
    | _ => exact asks.elim
  | leaving role outcome =>
    cases role with
    | checking plan stage => exact waits stage asks.2
    | _ => exact asks.elim
  | _ => exact asks.elim

variable {o : Orders} {active : String → Nat → Prop} {x : Order CheckWork} {w : CheckWork}

theorem Task.Holds.asks {t : Task} {others : List Stance} {s : CheckSite}
    (holds : t.Holds active others s) (waits : x ∈ s.crew.orders) (asked : x.call = .work w) :
    ∃ plan stage, t.role? = some (.checking plan stage) ∧ t.Asks plan.checker x.token ∧
      w.Suits plan.checker (active plan.checker) x.worker := by
  by_cases busy : t.Busy
  · cases t with
    | working role =>
      cases role with
      | checking plan stage =>
        have sound : stage.Sound plan.checker (active plan.checker) others s := holds
        obtain ⟨duty, suits⟩ := sound.attended x waits w asked
        exact ⟨plan, stage, rfl, ⟨rfl, Stage.dutiesTokens duty⟩, suits⟩
      | _ => exact busy.elim
    | leaving role outcome =>
      cases role with
      | checking plan stage =>
        have left : stage.Left plan.checker (active plan.checker) others s := holds
        obtain ⟨duty, suits⟩ := left.attended x waits w asked
        exact ⟨plan, stage, rfl, ⟨rfl, Stage.dutiesTokens duty⟩, suits⟩
      | _ => exact busy.elim
    | _ => exact busy.elim
  · have still := ((Task.Holds.idle busy).mp holds).1
    exact absurd (still.idle x waits w asked).1 List.not_mem_nil

theorem Run.Custody.asks {r : Run} (custody : Custody o active r) (sure : r.Sure o)
    (waits : x ∈ r.floor.checkers.crew.orders) (asked : x.call = .work w) :
    ∃ i checker, o.config.checkers[i]? = some checker ∧
      (∀ p name, (r.task p).Asks name x.token ↔ p = i + 1 ∧ name = checker) ∧
        w.Suits checker (active checker) x.worker := by
  have stirred : ¬r.floor.checkers.Still := fun still =>
    absurd (still.idle x waits w asked).1 List.not_mem_nil
  have early : r.conduct.Early := by
    by_contra late
    exact stirred (custody.ended sure late)
  rcases custody.charge sure early with ⟨place, held⟩ | spent
  · obtain ⟨plan, stage, own, asks, suits⟩ := held.holds.asks waits asked
    obtain ⟨first, here, -⟩ := custody.ordered.places place (.checking plan stage) own
    obtain ⟨i, rfl⟩ : ∃ i, place = i + 1 := ⟨place - 1, by omega⟩
    refine ⟨i, plan.checker, here, fun p name => ⟨fun other => ?_, fun ⟨same, called⟩ => ?_⟩, suits⟩
    · obtain rfl : p = i + 1 := by
        by_contra apart
        exact held.alone p apart other.busy
      refine ⟨rfl, ?_⟩
      generalize r.task (i + 1) = t at other asks
      cases t with
      | working role =>
        cases role with
        | checking plan stage => exact other.1.symm.trans asks.1
        | _ => exact asks.elim
      | leaving role outcome =>
        cases role with
        | checking plan stage => exact other.1.symm.trans asks.1
        | _ => exact asks.elim
      | _ => exact asks.elim
    · rw [same, called]
      exact asks
  · exact absurd spent.still stirred

namespace Hosting
variable {ω : Type} {registry : Registry (StateM ω)} {names : List String} {h next : Hosting ω}
  {mutants : List CoveredMutant}

def Active (h : Hosting ω) (name : String) (worker : Nat) : Prop :=
  (h.hosts worker).activeName? = some name

theorem answersLost {outcome : Outcome CheckAnswer} (x : Order CheckWork)
    (lost : ∀ v, outcome ≠ .ok v) :
    Answers h.Active (h.answered x outcome (h.hosts x.worker)).Active x outcome where
  keeps := by
    intro name _ worker active
    by_cases same : worker = x.worker
    · subst same
      simpa only [Active, answered, if_pos] using active
    · simpa only [Active, answered, if_neg same] using active
  sets := fun _ v _ done => absurd done (lost v)

theorem answersPerformed {world : ω} {result : Except WorkerError CheckAnswer}
    {host : Host (StateM ω)}
    (performed : (h.hosts x.worker).perform registry names x.call world = (result, host)) :
    Answers h.Active (h.answered x (.ofResult result) host).Active x (.ofResult result) where
  keeps := by
    intro name only worker active
    by_cases same : worker = x.worker
    · subst same
      simp only [Active, answered, if_pos]
      exact Host.performActive active only performed
    · simpa only [Active, answered, if_neg same] using active
  sets := by
    intro name v told done
    cases result with
    | ok answer =>
      simp only [Active, answered, if_pos]
      rw [told] at performed
      exact Host.performSet performed
    | error e => cases done

theorem custodyStep (custody : h.run.Custody o h.Active) (step : Step registry names h next) :
    next.run.Custody o next.Active := by
  cases step with
  | own move => exact custody.own move
  | task place move => exact custody.task move
  | runner x outcome waits =>
    exact custody.same rfl rfl rfl custody.ordered.conduct id Iff.rfl
  | checker x world waits performed => exact custody.answer (answersPerformed performed) waits
  | death x cause waits =>
    exact custody.answer (answersLost x fun v same => by cases same) waits
  | breakdown x waits =>
    exact custody.answer (answersLost x fun v same => by cases same) waits

theorem custodySteps (steps : Steps registry names (start o mutants) h) :
    h.run.Custody o h.Active := by
  induction steps with
  | refl => exact Run.startCustody o _ mutants
  | tail _ step before => exact custodyStep before step

/-- Whenever a worker is asked to check mutants, or for groups of them, one checker's task waits for
the answer and no other does, and this checker is the one that is active in the worker. Workers and
pools may be lost meanwhile, calls repeated and tasks cut off. Only a pool of more than four billion
workers that is disposed while tasks are cut off is not looked at. -/
theorem checkedByActive (steps : Steps registry names (start o mutants) h)
    (few : o.budget.checkers ≤ mostAwaited ∨ h.run.conduct.Uncut)
    (waits : x ∈ h.run.floor.checkers.crew.orders) (asked : x.call = .work w)
    (other : ∀ name, w ≠ .setActive name) :
    ∃ i checker, o.config.checkers[i]? = some checker ∧
      (∀ p name, (h.run.task p).Asks name x.token ↔ p = i + 1 ∧ name = checker) ∧
        (h.hosts x.worker).activeName? = some checker := by
  have sure : h.run.Sure o := few.imp_right .inl
  obtain ⟨i, checker, here, alone, suits⟩ := (custodySteps steps).asks sure waits asked
  refine ⟨i, checker, here, alone, ?_⟩
  cases w with
  | setActive name => exact absurd rfl (other name)
  | check mutants => exact suits
  | createGroups mutants => exact suits

inductive Turn where
  | own
  | task (place : Nat)
  | answer
  | death (cause : WorkerError)

def turn (registry : Registry (StateM ω)) (names : List String) (world : ω) (h : Hosting ω) :
    Turn → Option (Hosting ω)
  | .own => h.run.ownMoves.head?.map fun next => { h with run := next }
  | .task place => (h.run.taskMoves place).head?.map fun next => { h with run := next }
  | .answer => h.run.floor.checkers.crew.orders.head?.map fun x =>
    let (result, host) := (h.hosts x.worker).perform registry names x.call world
    h.answered x (.ofResult result) host
  | .death cause => h.run.floor.checkers.crew.orders.head?.map fun x =>
    h.answered x (.failed cause) (h.hosts x.worker)

theorem turnStep {world : ω} {choice : Turn} (went : turn registry names world h choice = some next) :
    Step registry names h next := by
  cases choice with
  | own =>
    obtain ⟨run, first, rfl⟩ := Option.map_eq_some_iff.mp went
    exact .own (List.mem_of_head? first)
  | task place =>
    obtain ⟨run, first, rfl⟩ := Option.map_eq_some_iff.mp went
    exact .task place (List.mem_of_head? first)
  | answer =>
    obtain ⟨x, first, rfl⟩ := Option.map_eq_some_iff.mp went
    exact .checker x world (List.mem_of_head? first) rfl
  | death cause =>
    obtain ⟨x, first, rfl⟩ := Option.map_eq_some_iff.mp went
    exact .death x cause (List.mem_of_head? first)

def walk (registry : Registry (StateM ω)) (names : List String) (world : ω) :
    List Turn → Hosting ω → Option (Hosting ω)
  | [], h => some h
  | choice :: later, h => (turn registry names world h choice).bind (walk registry names world later)

theorem walkSteps {world : ω} {choices : List Turn} {first : Hosting ω}
    (steps : Steps registry names first h) (walked : walk registry names world choices h = some next) :
    Steps registry names first next := by
  induction choices generalizing h with
  | nil =>
    cases walked
    exact steps
  | cons choice later ih =>
    obtain ⟨g, went, rest⟩ := Option.bind_eq_some_iff.mp walked
    exact ih (steps.tail (turnStep went)) rest

def lenient : Registry (StateM Unit) :=
  .ofList [("lint", pure ⟨pure (.ok ()), fun _ => pure (.ok .empty), fun _ => pure (.ok none)⟩)]

def lintOrders : Orders := { config := { checkers := ["lint"] }, budget := ⟨1, 1⟩ }

def single : CoveredMutant := { id := "1", fileName := "a" }

def mending : List Turn :=
  let goOn (n : Nat) := List.replicate n (Turn.task 1)
  List.replicate 4 (.task 0) ++ goOn 5 ++ [.answer] ++ goOn 6 ++ [.answer] ++ goOn 6 ++ [.answer] ++
    goOn 11 ++ [.death (.crashed 7 none "gone")] ++ goOn 3 ++ [.answer] ++ goOn 2 ++ [.answer] ++
    goOn 2 ++ [.answer] ++ goOn 2

def mended : Hosting Unit :=
  (walk lenient ["lint"] () mending (start lintOrders [single])).getD (start lintOrders [single])

set_option maxRecDepth 8192 in
theorem mendedWalked :
    walk lenient ["lint"] () mending (start lintOrders [single]) = some mended := rfl

def again : Order CheckWork := ⟨7, 1, .work (.check [single.toMutant])⟩

set_option maxRecDepth 8192 in
theorem mendedOrders : mended.run.floor.checkers.crew.orders = [again] := rfl

theorem checkedByActiveAgain : again ∈ mended.run.floor.checkers.crew.orders ∧
    ∃ i checker, lintOrders.config.checkers[i]? = some checker ∧
      (∀ p name, (mended.run.task p).Asks name again.token ↔ p = i + 1 ∧ name = checker) ∧
        (mended.hosts again.worker).activeName? = some checker :=
  have waits : again ∈ mended.run.floor.checkers.crew.orders :=
    mendedOrders ▸ List.mem_singleton_self again
  ⟨waits, checkedByActive (walkSteps (.refl _) mendedWalked) (.inl (by decide)) waits rfl
    fun _ same => by cases same⟩

/-! ### A pool of more workers than can be waited for -/

/-- A checker that puts all mutants into one group and judges only the first one of a group. -/
def hasty : Plugin (StateM Unit) where
  init := pure (.ok ())
  check mutants := pure (.ok (.ofList ((mutants.take 1).map fun m => (m.id, .passed))))
  createGroups mutants := pure (.ok (some [mutants]))

def threeNames : List String := ["a", "b", "c"]

def threeHasty : Registry (StateM Unit) := .ofList (threeNames.map fun name => (name, pure hasty))

/-- So many checking workers that not all of their permits can be waited for. -/
def crowded : Orders :=
  let config : Config := { checkers := threeNames, concurrency := some 8589934592 }
  { config, budget := .ofConfig config 1 }

def another : CoveredMutant := { id := "2", fileName := "a" }

def both : List CoveredMutant := [single, another]

def stagePlan (checker : String) : StagePlan := ⟨checker, Orders.staffing, none⟩

def arriving : List Turn := List.replicate 6 (.task 0) ++ List.replicate 3 (.task 1)

def crowd (results : Nat) (links : List (Channel CoveredMutant)) (tasks : List Task)
    (conduct : Conduct) : Hosting Unit where
  run := {
    orders := crowded
    mutants := both
    floor := {
      results := { capacity := 64, senders := results }
      links := Floor.noLink :: links
      checkers := { pool := .ofCapacity 4294967296 }
      runners := { pool := .ofCapacity 4294967296 } }
    tasks
    conduct }

def atCheck (checker : String) (stage : Stage) : Task :=
  .working (.checking (stagePlan checker) stage)

def idlers : List Task :=
  [.working (.covering none), .working (.testing crowded.planOf (.running { feed := .open [] }))]

def finishedLink : Channel CoveredMutant := { capacity := 64, senders := 0 }

def leftLink : Channel CoveredMutant := { capacity := 64, senders := 0, receiving := false }

def openLink : Channel CoveredMutant := { capacity := 64 }

def arrived : Hosting Unit :=
  crowd 5 [finishedLink, openLink, openLink, openLink, openLink, openLink]
    ([.left (.ok ()), atCheck "a" (.filling both .counting), atCheck "b" (.draining []),
      atCheck "c" (.draining []), .working (.releasing 4294967296 (.forwarding none))] ++ idlers)
    .collecting

set_option maxRecDepth 8192 in
theorem arrivedWalked :
    walk threeHasty threeNames () arriving (start crowded both) = some arrived := rfl

def hosting : Host (StateM Unit) :=
  (({} : Host (StateM Unit)).perform threeHasty threeNames .init ()).2

theorem hostingBegun : ({} : Host (StateM Unit)).perform threeHasty threeNames .init () =
    (.ok .done, hosting) := rfl

def openPool (idle members : List Nat) (tickets : Nat) : Pool where
  capacity := 4294967296
  permits := { free := 4294967296 }
  idle
  members
  tickets

def lentPool (idle members : List Nat) (ticket seat : Nat) : Pool where
  capacity := 4294967296
  permits := { free := 4294967295 }
  idle
  members
  leases := [⟨ticket, 1, some seat⟩]
  tickets := ticket + 1

section Stage
variable (idle members : List Nat) (c : CheckCrew) (v : StageView)

theorem lends : paced (stagePlan "a") 3
      ({ v with site := ⟨openPool (0 :: idle) members 0, c⟩ }, .borrowing both .asking) =
    some ({ v with site := ⟨lentPool idle members 0 0, c⟩ },
      .asking both 0 (.ready (c.occupant 0) (.work (.createGroups (Stage.plain both))))) := rfl

theorem groups : paced (stagePlan "a") 3
      ({ v with site := ⟨lentPool (1 :: idle) members 0 0, c⟩ },
        .returning both 0 (.ok (some [Stage.plain both])) .puttingBack) =
    some ({ v with
        site := ⟨openPool (1 :: idle ++ [0]) members 1, c.note (Stage.groupsNote "a" 1)⟩ },
      .checking (.ofList [both])) := rfl

theorem checks : paced (stagePlan "a") 6
      ({ v with site := ⟨openPool (1 :: idle) members 1, c⟩ }, .checking (.ofList [both])) =
    some ({ v with site := ⟨lentPool idle members 1 1, c⟩ },
      .checking ⟨.ended, [.working both 1 1 (.recovering (c.remembered 1)
        (.first (.ready (c.occupant 1) (.work (.check (Stage.plain both))))))]⟩) := rfl

theorem routes (verdicts : Verdicts) : paced (stagePlan "a") 2
      ({ v with site := ⟨lentPool idle members 1 1, c⟩ },
        .checking ⟨.ended, [.returning both 1 (.ok verdicts) .puttingBack]⟩) =
    some ({ v with site := ⟨openPool (idle ++ [1]) members 2, c⟩ },
      .routing both verdicts ⟨.ended, []⟩) := rfl

end Stage

def inFlight (restore : Option CheckWork) (call : Calling CheckWork) : Stage :=
  .checking ⟨.ended, [.working both 1 1 (.recovering restore (.first call))]⟩

theorem inFlightMove {checker : String} {restore : Option CheckWork} {p : Calling CheckWork}
    {c' : CheckCrew} {w : StageView} {n : Next (Calling CheckWork) (Except WorkerError CheckAnswer)}
    (move : (c', n) ∈ Calling.moves p w.site.crew) :
    (∀ q, n = .go q → ({ w with site := { w.site with crew := c' } }, .go (inFlight restore q)) ∈
      Stage.moves (stagePlan checker) (inFlight restore p) w) ∧
    ∀ v, n = .done (.ok v) → ({ w with site := { w.site with crew := c' } }, .go
        (.checking ⟨.ended, [.returning both 1 (.ok v.verdictsOf) .puttingBack]⟩)) ∈
      Stage.moves (stagePlan checker) (inFlight restore p) w := by
  constructor
  · rintro q rfl
    exact List.mem_map.mpr ⟨_, List.mem_append_left [] (List.mem_map.mpr
      ⟨_, Machine.onMove (List.mem_map.mpr ⟨_, List.mem_map.mpr
        ⟨_, List.mem_map.mpr ⟨_, move, rfl⟩, rfl⟩, rfl⟩), rfl⟩), rfl⟩
  · rintro v rfl
    exact List.mem_map.mpr ⟨_, List.mem_append_left [] (List.mem_map.mpr
      ⟨_, Machine.onMove (List.mem_map.mpr ⟨_, List.mem_map.mpr
        ⟨_, List.mem_map.mpr ⟨_, move, rfl⟩, rfl⟩, rfl⟩), rfl⟩), rfl⟩

def heeding (place : Nat) : Host (StateM Unit) := { hosting with active := some place }

def firstOnly : Verdicts := .ofList [("1", .passed)]

theorem groupsPerformed : (heeding 0).perform threeHasty threeNames
    (.work (.createGroups (Stage.plain both))) () =
      (.ok (.groups (some [Stage.plain both])), heeding 0) := rfl

theorem checkPerformed : (heeding 0).perform threeHasty threeNames
    (.work (.check (Stage.plain both))) () = (.ok (.verdicts firstOnly), heeding 0) := rfl

theorem judges {h : Hosting Unit} {place size tokens : Nat} {idle members : List Nat} {c : CheckCrew}
    {hosts : Nat → Host (StateM Unit)} (inside : place < h.run.tasks.length)
    (room : place + 1 < h.run.floor.links.length) (resting : c.Resting size tokens)
    (two : 2 ≤ size) (zero : hosts 0 = heeding 0) (one : hosts 1 = heeding 0) :
    ∃ after : CheckCrew, Steps threeHasty threeNames
      (h.staged place (stagePlan "a")
        ⟨⟨openPool (0 :: 1 :: idle) members 0, c⟩, hosts, .borrowing both .asking⟩)
      (h.staged place (stagePlan "a") ⟨⟨openPool (idle ++ [0] ++ [1]) members 2, after⟩, hosts,
        .routing both firstOnly ⟨.ended, []⟩⟩) ∧ after.Resting size (tokens + 2) := by
  have proposes : (hosts 0).perform threeHasty threeNames
      (.work (.createGroups (Stage.plain both))) () =
        (.ok (.groups (some [Stage.plain both])), heeding 0) := by
    rw [zero]
    exact groupsPerformed
  have answers : (hosts 1).perform threeHasty threeNames (.work (.check (Stage.plain both))) () =
      (.ok (.verdicts firstOnly), heeding 0) := by
    rw [one]
    exact checkPerformed
  have lent : Steps threeHasty threeNames _ _ :=
    stagedPaces inside room hosts 3 fun v => lends (1 :: idle) members c v
  rw [resting.seated 0 (by omega)] at lent
  obtain ⟨asked, grouped, rests⟩ := stagedCall (h := h) (p := lentPool (1 :: idle) members 0 0)
    inside room (.asking both 0)
    (fun p q c' w move => List.mem_map.mpr ⟨_, Machine.onMove (Machine.onMove move), rfl⟩)
    (fun p c' w move => List.mem_map.mpr ⟨_, Machine.onMove (Machine.onMove move), rfl⟩) resting
    proposes
  rw [Scene.replacedSame zero] at grouped
  have noted := rests.noted (Stage.groupsNote "a" 1)
  have grouping : Steps threeHasty threeNames _ _ :=
    stagedPaces inside room hosts 3 fun v => groups idle members asked v
  have checking : Steps threeHasty threeNames _ _ :=
    stagedPaces inside room hosts 6 fun v =>
      checks (idle ++ [0]) members (asked.note (Stage.groupsNote "a" 1)) v
  rw [noted.seated 1 (by omega)] at checking
  obtain ⟨after, checked, rested⟩ := stagedCall (h := h) (p := lentPool (idle ++ [0]) members 1 1)
    inside room (inFlight ((asked.note (Stage.groupsNote "a" 1)).remembered 1))
    (fun p q c' w move => (inFlightMove move).1 q rfl)
    (fun p c' w move => (inFlightMove move).2 _ rfl) noted answers
  rw [Scene.replacedSame one] at checked
  have routing : Steps threeHasty threeNames _ _ :=
    stagedPaces inside room hosts 2 fun v => routes (idle ++ [0]) members after v firstOnly
  have called := (((lent.append grouped).append grouping).append checking).append checked
  exact ⟨after, called.append routing, rested⟩

/-- The first checker has passed a mutant on and has failed over the other one. -/
def firstFailed (items : List CoveredMutant) : Hosting Unit :=
  crowd 4 [leftLink, { finishedLink with items }, openLink, openLink, openLink, openLink]
    ([.left (.ok ()), .left (.error (.missingVerdict "a" "2")), atCheck "b" (.draining []),
      atCheck "c" (.draining []), .working (.releasing 4294967296 (.forwarding none))] ++ idlers)
    .collecting

theorem firstFailedWalked (s : CheckSite) (hosts : Nat → Host (StateM Unit)) :
    walk threeHasty threeNames () (List.replicate 5 (.task 1))
      (arrived.staged 1 (stagePlan "a") ⟨s, hosts, .routing both firstOnly ⟨.ended, []⟩⟩) =
    some ((firstFailed [single]).staged 2 (stagePlan "b") ⟨s, hosts, .draining []⟩) := rfl

theorem passedWalked (s : CheckSite) (hosts : Nat → Host (StateM Unit)) :
    walk threeHasty threeNames () (List.replicate 2 (.task 2))
      ((firstFailed [single]).staged 2 (stagePlan "b") ⟨s, hosts, .draining []⟩) =
    some ((firstFailed []).staged 2 (stagePlan "b") ⟨s, hosts, .filling [single] .counting⟩) := rfl

/-- A pool of which a permit is taken, but no worker yet. -/
def admittedPool (permits : Permits) (idle members : List Nat) (tickets : Nat) : Pool where
  capacity := 4294967296
  permits
  idle
  members
  leases := [⟨2, 1, none⟩]
  tickets

theorem admits (idle members : List Nat) (c : CheckCrew) (v : StageView) : paced (stagePlan "b") 2
      ({ v with site := ⟨openPool idle members 2, c⟩ }, .borrowing [single] .asking) =
    some ({ v with site := ⟨admittedPool { free := 4294967295 } idle members 3, c⟩ },
      .borrowing [single] (.choosing 2)) := rfl

/-- The third checker was cut off, and the second one has not yet been. -/
def cutOff (notes : List Note) (handover : Handover) : Hosting Unit :=
  let h := crowd 3 [leftLink, finishedLink, { openLink with receiving := false }, finishedLink, openLink,
      openLink]
    ([.joined, .joined, atCheck "b" (.draining []), .closed (.ok ()),
      .working (.releasing 4294967296 handover)] ++ idlers)
    (.aborting (.missingVerdict "a" "2"))
  { h with run := { h.run with floor := { h.run.floor with notes } } }

theorem cutWalked (s : CheckSite) (hosts : Nat → Host (StateM Unit)) :
    walk threeHasty threeNames () (List.replicate 4 .own ++ List.replicate 2 (.task 3))
      ((firstFailed []).staged 2 (stagePlan "b") ⟨s, hosts, .borrowing [single] (.choosing 2)⟩) =
    some ((cutOff [] (.forwarding none)).staged 2 (stagePlan "b")
      ⟨s, hosts, .borrowing [single] (.choosing 2)⟩) := rfl

def fullClaim : Claim := ⟨3, 4294967295, 4294967295⟩

theorem claimed (idle members : List Nat) :
    (admittedPool { free := 4294967295 } idle members 3).claim (min 4294967296 mostAwaited) =
      (admittedPool { free := 0, complete := [fullClaim] } idle members 4, 3) := by
  simp [Pool.claim, Permits.claim, admittedPool, mostAwaited, fullClaim]

theorem claimWalked (idle members : List Nat) (c : CheckCrew) (hosts : Nat → Host (StateM Unit)) :
    walk threeHasty threeNames () (List.replicate 2 (.task 4))
      ((cutOff [] (.forwarding none)).staged 2 (stagePlan "b")
        ⟨⟨admittedPool { free := 4294967295 } idle members 3, c⟩, hosts,
          .borrowing [single] (.choosing 2)⟩) =
    some ((cutOff [Role.releaseNote] (.disposing (.waiting 3 (min 4294967296 mostAwaited)))).staged 2
      (stagePlan "b") ⟨⟨((admittedPool { free := 4294967295 } idle members 3).claim
          (min 4294967296 mostAwaited)).1, c⟩, hosts, .borrowing [single] (.choosing 2)⟩) :=
  rfl

theorem clearedWalked (idle members : List Nat) (c : CheckCrew) (hosts : Nat → Host (StateM Unit))
    (wanted : Nat) :
    walk threeHasty threeNames () (List.replicate 4 (.task 4))
      ((cutOff [Role.releaseNote] (.disposing (.waiting 3 wanted))).staged 2
        (stagePlan "b") ⟨⟨admittedPool { free := 0, complete := [fullClaim] } idle members 4, c⟩,
          hosts, .borrowing [single] (.choosing 2)⟩) =
    some ((cutOff [Role.releaseNote] (.disposing (.disposing none members none))).staged 2
      (stagePlan "b") ⟨⟨admittedPool { free := 0 + wanted, closed := true } [] [] 4, c⟩, hosts,
        .borrowing [single] (.choosing 2)⟩) :=
  rfl

theorem chooses (p : Permits) (c : CheckCrew) (v : StageView) : paced (stagePlan "b") 1
      ({ v with site := ⟨admittedPool p [] [] 4, c⟩ }, .borrowing [single] (.choosing 2)) =
    some ({ v with site := ⟨admittedPool p [] [] 4, c⟩ },
      .borrowing [single] (.creating 2 .hiring)) := rfl

theorem enrolls (seat : Nat) (p : Pool) (c : CheckCrew) (v : StageView) : paced (stagePlan "b") 1
      ({ v with site := ⟨p, c⟩ }, .borrowing [single] (.creating 2 (.enrolling seat))) =
    some ({ v with site := ⟨(p.enroll seat).seat 2 seat, c⟩ },
      .asking [single] 2 (.ready (c.occupant seat) (.work (.createGroups (Stage.plain [single]))))) :=
  rfl

/-- A worker that is made for a stage after all have been told its checker. -/
theorem joins {h : Hosting Unit} {place size tokens : Nat} {p : Permits} {c : CheckCrew}
    {hosts : Nat → Host (StateM Unit)} (inside : place < h.run.tasks.length)
    (room : place + 1 < h.run.floor.links.length) (resting : c.Resting size tokens)
    (blank : hosts size = {}) :
    ∃ (after : Scene Unit Stage) (x : Order CheckWork), Steps threeHasty threeNames
      (h.staged place (stagePlan "b")
        ⟨⟨admittedPool p [] [] 4, c⟩, hosts, .borrowing [single] (.choosing 2)⟩)
      (h.staged place (stagePlan "b") after) ∧ x ∈ after.site.crew.orders ∧
        x.call = .work (.createGroups (Stage.plain [single])) ∧
          (after.hosts x.worker).activeName? = none := by
  have choosing : Steps threeHasty threeNames _ _ :=
    stagedPaces inside room hosts 1 fun v => chooses p c v
  obtain ⟨⟨⟨pool, crew⟩, later, phase⟩, creates, hired, -, rests, replaces⟩ := Scene.creates
    (s := ⟨admittedPool p [] [] 4, c⟩) (some 2) resting
    (show (hosts size).perform threeHasty threeNames .init () = _ by rw [blank]; exact hostingBegun)
  obtain rfl : phase = .enrolling size := hired
  have creating := stagedSteps (h := h) (stagePlan "b") inside room
    (fun c => .borrowing [single] (.creating 2 c))
    (fun p q s' v move => List.mem_map.mpr
      ⟨_, Machine.onMove (List.mem_map.mpr ⟨_, move, rfl⟩), rfl⟩) creates
  have enrolling : Steps threeHasty threeNames _ _ :=
    stagedPaces inside room later 1 fun v => enrolls size pool crew v
  have worker : crew.occupant size = size := rests.seated size (Nat.lt_succ_self size)
  rw [worker] at enrolling
  have asking : Step threeHasty threeNames
      (h.staged place (stagePlan "b") ⟨⟨(pool.enroll size).seat 2 size, crew⟩, later,
        .asking [single] 2 (.ready size (.work (.createGroups (Stage.plain [single]))))⟩)
      (h.staged place (stagePlan "b") ⟨⟨(pool.enroll size).seat 2 size,
        (crew.start size (.work (.createGroups (Stage.plain [single])))).1⟩, later,
        .asking [single] 2 (.waiting (tokens + 1))⟩) :=
    stagedMove inside room fun v => List.mem_map.mpr
      ⟨_, Machine.onMove (Machine.onMove (rests.begun size _)), rfl⟩
  have idle : (later size).activeName? = none := by
    obtain rfl : later = _ := replaces
    rw [Scene.replaced, if_pos rfl]
    rfl
  exact ⟨_, _, ((choosing.append creating).append enrolling).tail asking, rests.order size _, rfl, idle⟩

theorem readiesFirst : ∃ (c : CheckCrew) (hosts : Nat → Host (StateM Unit)),
    Steps threeHasty threeNames (start crowded both) (arrived.staged 1 (stagePlan "a")
      ⟨⟨openPool (0 :: 1 :: List.range' 2 4294967294) (List.range' 0 4294967296) 0, c⟩, hosts,
        .borrowing both .asking⟩) ∧ c.Resting 4294967296 8589934592 ∧
      (∀ worker < 4294967296, hosts worker = heeding 0) ∧
        ∀ worker, 4294967296 ≤ worker → hosts worker = {} := by
  have arrives : Steps threeHasty threeNames (start crowded both) (arrived.staged 1 (stagePlan "a")
      ⟨⟨.ofCapacity 4294967296, {}⟩, fun _ => {}, .filling both .counting⟩) :=
    walkSteps (.refl _) arrivedWalked
  have nobody : ({} : CheckCrew).Resting 0 0 :=
    ⟨fun _ inside => absurd inside (Nat.not_lt_zero _), rfl, rfl, rfl, rfl, rfl⟩
  have begun : ∀ worker, 0 ≤ worker → ((fun _ => {} : Nat → Host (StateM Unit)) worker).perform
      threeHasty threeNames .init () = (.ok .done, hosting) := fun _ _ => hostingBegun
  have activated : ∀ worker < 0 + 4294967296,
      (Scene.overlaid (fun _ => {}) 0 4294967296 hosting worker).perform threeHasty threeNames
        (.work (.setActive "a")) () = (.ok .done, heeding 0) := by
    intro worker inside
    rw [Scene.overlaid, if_pos ⟨Nat.zero_le _, inside⟩]
    rfl
  obtain ⟨⟨pool, c⟩, readied, rests, same⟩ := readies (h := arrived) 1 (stagePlan "a") both
    (by decide) (by decide) (s := ⟨.ofCapacity 4294967296, {}⟩) nobody rfl rfl rfl begun activated
  obtain rfl : pool = openPool (0 :: 1 :: List.range' 2 4294967294) (List.range' 0 4294967296) 0 :=
    same
  exact ⟨c, _, arrives.append readied, rests, fun worker inside => if_pos (by omega),
    fun worker outside => by
      rw [Scene.overlaid, if_neg (by omega), Scene.overlaid, if_neg (by omega)]⟩

theorem readiesSecond (idle : List Nat) {c : CheckCrew} {hosts : Nat → Host (StateM Unit)}
    {tokens : Nat} (resting : c.Resting 4294967296 tokens)
    (told : ∀ worker < 4294967296, hosts worker = heeding 0)
    (blank : ∀ worker, 4294967296 ≤ worker → hosts worker = {}) :
    ∃ (after : CheckCrew) (later : Nat → Host (StateM Unit)) (stocked members : List Nat)
      (counted : Nat), Steps threeHasty threeNames
        ((firstFailed []).staged 2 (stagePlan "b")
          ⟨⟨openPool idle (List.range' 0 4294967296) 2, c⟩, hosts, .filling [single] .counting⟩)
        ((firstFailed []).staged 2 (stagePlan "b") ⟨⟨openPool stocked members 2, after⟩, later,
          .borrowing [single] .asking⟩) ∧
      after.Resting 4294967296 counted ∧ later 4294967296 = {} := by
  have begun : ∀ worker, 4294967296 ≤ worker →
      (hosts worker).perform threeHasty threeNames .init () = (.ok .done, hosting) := by
    intro worker outside
    rw [blank worker outside]
    exact hostingBegun
  have activated : ∀ worker < 4294967296 + 0,
      (Scene.overlaid hosts 4294967296 0 hosting worker).perform threeHasty threeNames
        (.work (.setActive "b")) () = (.ok .done, heeding 1) := by
    intro worker inside
    rw [Scene.overlaidNone, told worker inside]
    rfl
  obtain ⟨⟨pool, after⟩, readied, rests, same⟩ := readies (h := firstFailed []) 2 (stagePlan "b") [single]
    (by decide) (by decide) (s := ⟨openPool idle (List.range' 0 4294967296) 2, c⟩) resting rfl rfl rfl
    begun activated
  obtain rfl : pool = openPool (idle ++ List.range' 4294967296 0) (List.range' 0 (4294967296 + 0)) 2 :=
    same
  refine ⟨after, _, _, _, _, readied, rests, ?_⟩
  rw [Scene.overlaid, if_neg (by omega), Scene.overlaidNone]
  exact blank _ (Nat.le_refl _)

/-- A pool of more workers than can be waited for is disposed while somebody who has a permit has no
worker yet. The worker that is made for it then has not been told any checker. -/
theorem newcomerJoins : ∃ (h : Hosting Unit) (x : Order CheckWork),
    Steps threeHasty threeNames (start crowded both) h ∧ x ∈ h.run.floor.checkers.crew.orders ∧
      x.call = .work (.createGroups (Stage.plain [single])) ∧
        (h.hosts x.worker).activeName? = none := by
  obtain ⟨c, hosts, ready, resting, told, blank⟩ := readiesFirst
  obtain ⟨judged, judges, rests⟩ := judges (h := arrived) (show 1 < 7 by decide)
    (show 2 < 7 by decide) resting (by omega) (told 0 (by omega)) (told 1 (by omega))
  have given := walkSteps (walkSteps (ready.append judges) (firstFailedWalked _ _)) (passedWalked _ _)
  obtain ⟨crew, later, idle, members, tokens, readied, rested, fresh⟩ :=
    readiesSecond (List.range' 2 4294967294 ++ [0] ++ [1]) rests told blank
  have admitted : Steps threeHasty threeNames _ _ :=
    stagedPaces (h := firstFailed []) (show 2 < 7 by decide) (show 3 < 7 by decide) later 2
      fun v => admits idle members crew v
  have cut := walkSteps ((given.append readied).append admitted) (cutWalked _ later)
  have claims := walkSteps cut (claimWalked idle members crew later)
  rw [claimed] at claims
  have cleared := walkSteps claims
    (clearedWalked idle members crew later (min 4294967296 mostAwaited))
  obtain ⟨after, x, joined, waits, asked, untold⟩ := joins
    (h := cutOff [Role.releaseNote] (.disposing (.disposing none members none)))
    (show 2 < 7 by decide) (show 3 < 7 by decide) rested fresh
  exact ⟨_, x, cleared.append joined, waits, asked, untold⟩

theorem newcomerUntold : ¬∀ (registry : Registry (StateM Unit)) (names : List String) (o : Orders)
    (mutants : List CoveredMutant) (h : Hosting Unit) (x : Order CheckWork) (w : CheckWork),
    Steps registry names (start o mutants) h → x ∈ h.run.floor.checkers.crew.orders →
      x.call = .work w → (∀ name, w ≠ .setActive name) →
        ∃ i checker, o.config.checkers[i]? = some checker ∧
          (∀ p name, (h.run.task p).Asks name x.token ↔ p = i + 1 ∧ name = checker) ∧
            (h.hosts x.worker).activeName? = some checker := by
  intro all
  obtain ⟨h, x, steps, waits, asked, untold⟩ := newcomerJoins
  obtain ⟨i, checker, -, -, active⟩ := all threeHasty threeNames crowded both h x _ steps waits asked
    fun _ same => by cases same
  rw [untold] at active
  cases active

end Hosting

end MutationPipeline
