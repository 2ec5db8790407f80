import MutationPipeline.Proofs.Pipeline.Reach

/-! How many calls to workers are in flight in a run at once. -/
namespace MutationPipeline
variable {o : Orders}

namespace Budget

theorem splitFits (total : Nat) (first : 1 ≤ total) (hasCheckers : Bool) :
    (hasCheckers = true → 1 ≤ (split total hasCheckers).checkers) ∧
      1 ≤ (split total hasCheckers).testRunners ∧
      (split total hasCheckers).checkers + (split total hasCheckers).testRunners ≤
        max total (if hasCheckers then 2 else 1) := by
  cases hasCheckers with
  | false =>
    refine ⟨Bool.noConfusion, ?_⟩
    show 1 ≤ max total 1 ∧ 0 + max total 1 ≤ max total 1
    omega
  | true =>
    refine ⟨fun _ => ?_, ?_⟩
    · show 1 ≤ (max total 1 + 1) / 2
      omega
    · show 1 ≤ max (max total 1 / 2) 1 ∧
        (max total 1 + 1) / 2 + max (max total 1 / 2) 1 ≤ max total 2
      omega

end Budget

theorem Config.totalFirst (c : Config) (processors : Nat) : 1 ≤ c.total processors := by
  unfold total
  split
  · exact Nat.le_max_right _ _
  · split <;> omega

namespace Task
variable {t : Task}

theorem asideTokens (aside : ¬t.Tests) : t.runTokens = [] := by
  cases t with
  | working role => exact Role.asideTokens aside
  | leaving role outcome => exact Role.asideTokens aside
  | _ => rfl

theorem busyTokens (members : Nat) (busy : t.Busy) :
    t.checkTokens.length ≤ t.load members := by
  cases t with
  | working role =>
    cases role with
    | checking plan stage => exact stage.tokensLoad members
    | _ => exact busy.elim
  | leaving role outcome =>
    cases role with
    | checking plan stage => exact Nat.le_refl _
    | _ => exact busy.elim
  | _ => exact busy.elim

theorem idleTokens (idle : ¬t.Busy) : t.checkTokens = [] ∨ ∃ share d,
    t = .working (.releasing share (.disposing d)) ∨
      ∃ outcome, t = .leaving (.releasing share (.disposing d)) outcome := by
  have role (role : Role) (idle : ¬role.Busy) :
      role.checkTokens = [] ∨ ∃ share d, role = .releasing share (.disposing d) := by
    cases role with
    | checking plan stage =>
      cases stage with
      | draining batch => exact .inl rfl
      | _ => exact absurd rfl idle
    | releasing share h =>
      cases h with
      | disposing d => exact .inr ⟨share, d, rfl⟩
      | _ => exact .inl rfl
    | _ => exact .inl rfl
  cases t with
  | working own =>
    refine (role own idle).imp_right fun ⟨share, d, same⟩ => ⟨share, d, .inl ?_⟩
    rw [same]
  | leaving own outcome =>
    refine (role own idle).imp_right fun ⟨share, d, same⟩ => ⟨share, d, .inr ⟨outcome, ?_⟩⟩
    rw [same]
  | _ => exact .inl rfl

theorem idleTokensFew (idle : ¬t.Busy) : t.checkTokens.length ≤ 1 := by
  rcases t.idleTokens idle with none | ⟨share, d, rfl | ⟨outcome, rfl⟩⟩
  · rw [none]
    exact Nat.zero_le 1
  · exact d.tokensFew
  · exact d.tokensFew

theorem idleTokensNone (idle : ¬t.Busy) (aside : ¬t.Releases ∨ t.Handed) : t.checkTokens = [] := by
  rcases t.idleTokens idle with none | ⟨share, d, rfl | ⟨outcome, rfl⟩⟩
  · exact none
  · exact (aside.elim (fun aside => aside trivial) id).elim
  · exact (aside.elim (fun aside => aside trivial) id).elim

end Task

namespace Conduct

theorem tokensFew (c : Conduct) : c.checkTokens.length + c.runTokens.length ≤ 1 := by
  cases c with
  | disposingCheckers d outcome => exact d.tokensFew
  | disposingRunners d outcome => exact Nat.le_trans (Nat.le_of_eq (Nat.zero_add _)) d.tokensFew
  | _ => exact Nat.zero_le 1

end Conduct

namespace Run
variable {r : Run} {mutants : List CoveredMutant}

theorem Ordered.releaser (ordered : Ordered o r) {p : Nat} (releases : (r.task p).Releases) :
    p = o.config.checkers.length + 1 ∧ o.hasCheckers = true := by
  have place := ordered.places p
  generalize r.task p = t at releases place
  have role (role : Role) (disposes : role.Disposes) (at' : role.At o p) :
      p = o.config.checkers.length + 1 ∧ o.hasCheckers = true := by
    cases role with
    | releasing share h => exact ⟨at'.1, at'.2.2⟩
    | _ => exact disposes.elim
  cases t with
  | working own => exact role own releases (place own rfl)
  | leaving own outcome => exact role own releases (place own rfl)
  | _ => exact releases.elim

theorem Laden.checks (laden : Laden o r) :
    (r.tasks.flatMap Task.checkTokens).length ≤
        (r.task (o.config.checkers.length + 1)).checkTokens.length ∨
      (∃ q, (r.task q).Busy) ∧ (r.tasks.flatMap Task.checkTokens).length ≤
        o.budget.checkers + (r.task (o.config.checkers.length + 1)).checkTokens.length := by
  have ordered := laden.custody.ordered
  have none (p : Nat) (other : p ≠ o.config.checkers.length + 1) (idle : ¬(r.task p).Busy) :
      (r.task p).checkTokens = [] :=
    Task.idleTokensNone idle (.inl fun releases => other (ordered.releaser releases).1)
  by_cases some : ∃ q, (r.task q).Busy
  · obtain ⟨q, busy⟩ := some
    refine .inr ⟨⟨q, busy⟩, ?_⟩
    have two := flatMapTwo (g := Task.checkTokens) (e := .joined) rfl (l := r.tasks) (i := q)
      (j := o.config.checkers.length + 1) fun p other last =>
        none p last fun also => other (ordered.lone also busy)
    have bound := Nat.le_trans (Task.busyTokens _ busy) (laden.load q)
    exact Nat.le_trans two (Nat.add_le_add_right bound _)
  · exact .inl (flatMapOne (g := Task.checkTokens) (e := .joined) rfl fun p other =>
      none p other fun busy => some ⟨p, busy⟩)

theorem Ordered.runs (ordered : Ordered o r) :
    (r.tasks.flatMap Task.runTokens).length ≤ (r.task o.last).runTokens.length := by
  refine flatMapOne (g := Task.runTokens) (e := .joined) rfl fun p other => ?_
  by_cases tests : (r.task p).Tests
  · exact absurd (tests.last (ordered.places p)) other
  · exact Task.asideTokens tests

theorem Unreached.runs (unreached : Unreached o r) (ordered : Ordered o r) :
    (r.tasks.flatMap Task.runTokens).length = 0 := by
  have few := ordered.runs
  rw [(unreached o.last (Role.At.behind (.inr rfl))).2.runTokens] at few
  exact Nat.le_zero.mp few

theorem Reach.early (reach : Reach o r) (ordered : Ordered o r)
    (last : (r.task o.config.checkers.length).Gone) {q : Nat} (busy : (r.task q).Busy) :
    Unreached o r := by
  refine reach.resolve_right fun others => ?_
  have within := (ordered.checker busy.checks).2
  refine busy.checks.role.1 ?_
  rcases Nat.lt_or_eq_of_le within with before | same
  · exact others q before
  · exact same ▸ last

/-- The tasks wait for no more calls than there are workers to share out: the workers of the checkers
count for the tests only when no checker has any work left. -/
theorem tasksBounded (laden : Laden o r) (shared : Shared o r) (reach : Reach o r)
    (checker : o.hasCheckers = true → 1 ≤ o.budget.checkers) (runner : 1 ≤ o.budget.testRunners) :
    (r.tasks.flatMap Task.checkTokens).length + (r.tasks.flatMap Task.runTokens).length ≤
      o.budget.checkers + o.budget.testRunners := by
  have ordered := laden.custody.ordered
  have checks := laden.checks
  have runs := Nat.le_trans ordered.runs (shared.books o.last).bound
  have idle : ¬(r.task (o.config.checkers.length + 1)).Busy := fun busy =>
    absurd (ordered.checker busy.checks).2 (Nat.not_succ_le_self _)
  have visit := Task.idleTokensFew idle
  by_cases releases : (r.task (o.config.checkers.length + 1)).Releases
  · have gone := shared.releases releases
    have some := checker (ordered.releaser releases).2
    rcases checks with checks | ⟨⟨q, busy⟩, checks⟩
    · rcases shared.capacity with few | ⟨more, -, -, handed⟩
      · omega
      · rw [Task.idleTokensNone idle (.inr handed), List.length_nil] at checks
        omega
    · have none := (reach.early ordered gone busy).runs ordered
      omega
  · rw [Task.idleTokensNone idle (.inl releases), List.length_nil] at checks
    rcases checks with checks | ⟨⟨q, busy⟩, checks⟩
    · rcases shared.capacity with few | ⟨more, -⟩ <;> omega
    · rcases shared.capacity with few | ⟨-, -, gone, -⟩
      · omega
      · have none := (reach.early ordered gone busy).runs ordered
        omega

/-- However a run goes, there are never more calls in flight than workers were asked for; only if that
is one worker and there are checkers, it may be two calls, as each side has a worker of its own. -/
theorem callsBounded {processors : Nat} (steps : Steps (start o mutants) r)
    (budget : o.budget = .ofConfig o.config processors) :
    r.floor.checkers.crew.orders.length + r.floor.runners.crew.orders.length ≤
      max (o.config.total processors) (if o.hasCheckers then 2 else 1) := by
  obtain ⟨laden, shared, reach⟩ := reachSteps steps
  have awaited := awaitedSteps steps
  have checks := awaited.checkers.count
  have runs := awaited.runners.count
  obtain ⟨checker, runner, fits⟩ :=
    Budget.splitFits (o.config.total processors) (o.config.totalFirst processors) o.hasCheckers
  have shares : o.budget = .split (o.config.total processors) o.hasCheckers := budget
  rw [← shares] at checker runner fits
  rw [checkTokens, List.length_append] at checks
  rw [runTokens, List.length_append] at runs
  by_cases early : r.conduct.Early
  · obtain ⟨none, none'⟩ := Conduct.earlyTokens early
    rw [none, List.length_nil] at checks
    rw [none', List.length_nil] at runs
    have bounded := tasksBounded laden shared reach checker runner
    omega
  · have joined := allJoined (laden.custody.joined early)
    have none : r.tasks.flatMap Task.checkTokens = [] :=
      flatMapNone .joined fun p => congrArg Task.checkTokens (joined p)
    have none' : r.tasks.flatMap Task.runTokens = [] :=
      flatMapNone .joined fun p => congrArg Task.runTokens (joined p)
    rw [none, List.length_nil] at checks
    rw [none', List.length_nil] at runs
    have few := r.conduct.tokensFew
    omega

def overlap : List Cue :=
  let goOn (place n : Nat) := List.replicate n (Cue.task place)
  let verdicts := Keyed.ofList [("1", Verdict.passed)]
  goOn 0 5 ++ goOn 1 6 ++ [.checker (.ok .done)] ++ goOn 1 6 ++ [.checker (.ok .done)] ++
    goOn 1 6 ++ [.checker (.ok (.groups none))] ++ goOn 1 12 ++
    [.checker (.ok (.verdicts verdicts))] ++ goOn 1 10 ++ goOn 2 2 ++ goOn 3 2 ++ goOn 4 6 ++
    [.runner (.ok none)] ++ goOn 4 4

def overlapped : Run :=
  let first := start oneEach [reached "1", reached "2"]
  (played overlap first).getD first

set_option maxRecDepth 8192 in
theorem overlapPlayed :
    played overlap (start oneEach [reached "1", reached "2"]) = some overlapped := rfl

set_option maxRecDepth 8192 in
theorem overlappedOrders : overlapped.floor.checkers.crew.orders =
      [⟨4, 0, .work (.check [(reached "2").toMutant])⟩] ∧
    overlapped.floor.runners.crew.orders = [⟨1, 0, .work (oneEach.planOf (reached "1"))⟩] :=
  ⟨rfl, rfl⟩

theorem callsBoundedOverlapped : Steps (start oneEach [reached "1", reached "2"]) overlapped ∧
    oneEach.budget = .ofConfig oneEach.config 8 ∧
      overlapped.floor.checkers.crew.orders.length + overlapped.floor.runners.crew.orders.length ≤
        max (oneEach.config.total 8) (if oneEach.hasCheckers then 2 else 1) :=
  have steps := playedSteps (.refl _) overlapPlayed
  ⟨steps, rfl, callsBounded steps rfl⟩

/-- One worker was asked for, and two calls are in flight. -/
theorem callsExceedOne : ¬∀ (o : Orders) (mutants : List CoveredMutant) (n : UInt64)
    (processors : Nat) (r : Run), o.config.concurrency = some n → 1 ≤ n →
      o.budget = .ofConfig o.config processors → Steps (start o mutants) r →
        r.floor.checkers.crew.orders.length + r.floor.runners.crew.orders.length ≤ n.toNat := by
  intro bounded
  have one := bounded oneEach [reached "1", reached "2"] 1 8 overlapped rfl (by decide) rfl
    (playedSteps (.refl _) overlapPlayed)
  rw [overlappedOrders.1, overlappedOrders.2] at one
  exact absurd one (by decide)

end Run

end MutationPipeline
