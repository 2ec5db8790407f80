import MutationPipeline.Proofs.Pipeline.Concurrency
import MutationPipeline.Proofs.Pipeline.Likeness

/-!
What a run comes to does not depend on whether workers could be disposed, be it after a death, after
a failed start, or in the end: failures are noted and nobody goes by them. Only the task that hands
the checkers over does, and a failure there can fail the whole run.
-/
namespace MutationPipeline

/-- What a disposal that fails, or does not fail, may be answered with. -/
def Outcome.Fits {V : Type} (failure : Option WorkerError) : Outcome V → Prop
  | .ok _ => failure = none
  | .failed e => failure = some e
  | .panicked => True

def Outcome.fated {V : Type} (failure : Option WorkerError) (value : V) : Outcome V → Outcome V
  | .panicked => .panicked
  | _ => match failure with
    | none => .ok value
    | some e => .failed e

theorem Outcome.fatedFits {V : Type} (outcome : Outcome V) (failure : Option WorkerError)
    (value : V) : (outcome.fated failure value).Fits failure := by
  cases outcome <;> cases failure <;> trivial

theorem Outcome.fatedSaid {V : Type} (outcome : Outcome V) (failure : Option WorkerError)
    (value : V) : outcome.fated failure value = outcome ∨
      outcome.isSaid = true ∧ (outcome.fated failure value).isSaid = true := by
  cases outcome with
  | panicked => exact .inl rfl
  | _ => cases failure <;> exact .inr ⟨rfl, rfl⟩

structure Fate where
  checker : Order CheckWork → Outcome CheckAnswer → Prop
  runner : Order RunPlan → Outcome RunAnswer → Prop

def Fate.any : Fate := ⟨fun _ _ => True, fun _ _ => True⟩

def Fate.ofFailures (checkers : Order CheckWork → Option WorkerError)
    (runners : Order RunPlan → Option WorkerError) : Fate where
  checker o outcome := outcome.Fits (checkers o)
  runner o outcome := outcome.Fits (runners o)

namespace Run

/-- The task that hands the checkers over waits for this call to one of them. -/
def HandsOver (r : Run) (token : Nat) : Prop :=
  ∃ share d, .working (.releasing share (.disposing d)) ∈ r.tasks ∧ token ∈ d.tokens

/-- The steps of a run in which the checkers are handed over without a failure, and all other disposals
end as they may. -/
inductive Disposing (fate : Fate) (first : Run) : Run → Prop where
  | start : Disposing fate first first
  | own {r next} (before : Disposing fate first r) (move : next ∈ r.ownMoves) :
      Disposing fate first next
  | task {r next} (before : Disposing fate first r) (place : Nat) (move : next ∈ r.taskMoves place) :
      Disposing fate first next
  | checker {r} (before : Disposing fate first r) (o : Order CheckWork)
      (outcome : Outcome CheckAnswer) (waits : o ∈ r.floor.checkers.crew.orders)
      (handed : r.HandsOver o.token → ∀ e, outcome ≠ .failed e)
      (fits : o.call = .dispose → ¬r.HandsOver o.token → fate.checker o outcome) :
      Disposing fate first (r.answered Floor.onCheckers o.token outcome)
  | runner {r} (before : Disposing fate first r) (o : Order RunPlan)
      (outcome : Outcome RunAnswer) (waits : o ∈ r.floor.runners.crew.orders)
      (fits : o.call = .dispose → fate.runner o outcome) :
      Disposing fate first (r.answered Floor.onRunners o.token outcome)

end Run

inductive Conduct.Retold : Conduct → Conduct → Prop where
  | refl (c) : Retold c c
  | checkers {d d'} (alike : d.Retold d') (outcome) :
      Retold (.disposingCheckers d outcome) (.disposingCheckers d' outcome)
  | runners {d d'} (alike : d.Retold d') (outcome) :
      Retold (.disposingRunners d outcome) (.disposingRunners d' outcome)

namespace Run
variable {loose loose' : Nat → Prop} {r s next : Run} {place : Nat}

structure Alike (loose loose' : Nat → Prop) (r s : Run) : Prop where
  orders : s.orders = r.orders
  mutants : s.mutants = r.mutants
  tasks : s.tasks = r.tasks
  collected : s.collected = r.collected
  reports : s.reports = r.reports
  conduct : r.conduct.Retold s.conduct
  floor : r.floor.AlikeBut loose loose' s.floor
  fixed : ∀ t ∈ r.tasks, t.Fixed loose loose' r.floor

theorem Alike.onward (alike : Alike loose loose' r s) {f f' : Floor} {c c' : Conduct}
    {tasks : List Task} (grows : (Floor.likeness loose loose').grows r.floor f)
    (like : f.AlikeBut loose loose' f') (conduct : c.Retold c')
    (fixed : ∀ t ∈ tasks, t ∈ r.tasks ∨ t.Fixed loose loose' f) (collected : List MutantResult)
    (reports : List (List MutantResult)) :
    Alike loose loose' { r with floor := f, tasks, conduct := c, collected, reports }
      { r with floor := f', tasks, conduct := c', collected, reports } where
  orders := rfl
  mutants := rfl
  tasks := rfl
  collected := rfl
  reports := rfl
  conduct := conduct
  floor := like
  fixed t member := (fixed t member).elim (fun before => (alike.fixed t before).grow grows) id

theorem fixedSet {tasks : List Task} {t u : Task} {f : Floor} (here : u.Fixed loose loose' f)
    (member : t ∈ tasks.set place u) : t ∈ tasks ∨ t.Fixed loose loose' f :=
  (List.mem_or_eq_of_mem_set member).imp id fun same => by rw [same]; exact here

theorem Alike.shape (alike : Alike loose loose' r s) :
    s = { r with floor := s.floor, conduct := s.conduct } := by
  obtain ⟨orders, mutants, floor, tasks, conduct, collected, reports⟩ := s
  obtain ⟨rfl, rfl, rfl, rfl, rfl, -, -, -⟩ := alike
  rfl

theorem taskMirrored (alike : Alike loose loose' r s) (move : next ∈ r.taskMoves place) :
    ∃ next' ∈ s.taskMoves place, Alike loose loose' next next' := by
  obtain ⟨t, u, f, found, moved, rfl⟩ := taskActed move
  obtain ⟨⟨f', u'⟩, there, grows, here, like, rfl⟩ :=
    Task.movesMirrored alike.floor (alike.fixed t (List.mem_of_getElem? found)) _ moved
  refine ⟨{ s with floor := f', tasks := s.tasks.set place u }, ?_, ?_⟩
  · simp only [taskMoves, alike.tasks, found]
    exact List.mem_map.mpr ⟨_, there, rfl⟩
  · rw [alike.shape]
    exact alike.onward grows like alike.conduct (fun _ => fixedSet here) _ _

theorem joinsMirrored (alike : Alike loose loose' r s) {after : Except RunError Unit → Conduct}
    (move : next ∈ r.joins after) : ∃ next' ∈ s.joins after, Alike loose loose' next next' := by
  obtain ⟨⟨t, p⟩, member, joined⟩ := List.mem_filterMap.mp move
  cases t with
  | left outcome =>
    cases joined
    refine ⟨{ s with tasks := s.tasks.set p .joined, conduct := after outcome }, ?_, ?_⟩
    · exact List.mem_filterMap.mpr ⟨(.left outcome, p), by rwa [alike.tasks], rfl⟩
    · rw [alike.shape]
      exact alike.onward (Floor.growsSame rfl rfl) alike.floor (.refl _)
        (fun _ => fixedSet (u := .joined) trivial) _ _
  | _ => cases joined

theorem concludeAlike (alike : Alike loose loose' r s)
    (outcome : Except RunError (List MutantResult)) :
    Alike loose loose' (r.conclude outcome) (s.conclude outcome) := by
  obtain ⟨like, grows⟩ := Floor.updatePair Floor.resultsShared alike.floor Channel.dropReceiver
  rw [alike.shape]
  exact alike.onward grows like (.refl _) (fun _ => .inl) _ _

theorem collectMirrored (alike : Alike loose loose' r s) (move : next ∈ r.collect) :
    ∃ next' ∈ s.collect, Alike loose loose' next next' := by
  obtain ⟨⟨f, x⟩, received, found⟩ := List.mem_filterMap.mp move
  obtain ⟨⟨f', x'⟩, there, grows, -, like, rfl⟩ :=
    Floor.receiveMirrored Floor.resultsShared alike.floor _ received
  cases x with
  | some x =>
    cases found
    refine ⟨_, List.mem_filterMap.mpr ⟨_, there, rfl⟩, ?_⟩
    rw [alike.shape]
    exact alike.onward grows like alike.conduct (fun _ => .inl) _ _
  | none =>
    dsimp only at found
    split at found
    · next all =>
      cases found
      refine ⟨s.conclude s.verdict, List.mem_filterMap.mpr ⟨_, there, ?_⟩, ?_⟩
      · simp only [alike.tasks, all, if_true]
      · have same : s.verdict = r.verdict := by rw [alike.shape]; rfl
        rw [same]
        exact concludeAlike alike _
    · cases found

theorem disposeMirrored {W V : Type} {site : Part Floor (Site W V)} {free : Nat → Prop}
    (carries : Likeness.PartAlike site (Site.likeness free) (Floor.likeness loose loose'))
    {d d' : Disposal W} (same : d.Retold d') {note : WorkerError → Note}
    {goOn goOn' : Disposal W → Conduct} {after : Conduct}
    (conducts : ∀ e e', e.Retold e' → (goOn e).Retold (goOn' e'))
    (alike : Alike loose loose' r s) (move : next ∈ dispose site note goOn after d r) :
    ∃ next' ∈ dispose site note goOn' after d' s, Alike loose loose' next next' := by
  obtain ⟨⟨f, n⟩, moved, found⟩ := List.mem_filterMap.mp move
  have inner := Disposal.movesEither (carries.like alike.floor) same
  obtain ⟨⟨f', n'⟩, there, grows, -, like, both⟩ :=
    inner.on carries alike.floor (fun _ => id) _ moved
  cases both with
  | go same =>
    cases found
    refine ⟨_, List.mem_filterMap.mpr ⟨_, there, rfl⟩, ?_⟩
    rw [alike.shape]
    exact alike.onward grows like (conducts _ _ same) (fun _ => .inl) _ _
  | @done result result' _ =>
    have grown (notes : List Note) : (Floor.likeness loose loose').grows r.floor
        { f with notes := notes } := (Floor.likeness loose loose').trans grows (Floor.growsSame rfl rfl)
    have noted (notes notes' : List Note) := alike.onward (grown notes) (like.noted notes notes')
      (.refl after) (fun _ => .inl) r.collected r.reports
    have there' : { s with
        floor := f'.disposed note result', conduct := after } ∈ dispose site note goOn' after d' s := by
      refine List.mem_filterMap.mpr ⟨_, there, ?_⟩
      cases result' <;> rfl
    refine ⟨_, there', ?_⟩
    rw [alike.shape]
    cases result <;> cases result' <;> cases found <;> exact noted _ _
  | panicked => cases found

theorem ownMirrored (alike : Alike loose loose' r s) (move : next ∈ r.ownMoves) :
    ∃ next' ∈ s.ownMoves, Alike loose loose' next next' := by
  have either {xs ys xs' ys' : List Run} (among : next ∈ xs ++ ys)
      (first : next ∈ xs → ∃ next' ∈ xs', Alike loose loose' next next')
      (second : next ∈ ys → ∃ next' ∈ ys', Alike loose loose' next next') :
      ∃ next' ∈ xs' ++ ys', Alike loose loose' next next' := by
    rcases List.mem_append.mp among with here | here
    · obtain ⟨next', there, alike⟩ := first here
      exact ⟨next', List.mem_append_left _ there, alike⟩
    · obtain ⟨next', there, alike⟩ := second here
      exact ⟨next', List.mem_append_right _ there, alike⟩
  have same := alike.conduct
  unfold ownMoves at move ⊢
  generalize conduct : r.conduct = c at move same
  generalize conduct' : s.conduct = c' at same
  cases same with
  | refl =>
    cases c with
    | collecting => exact either move (collectMirrored alike) (joinsMirrored alike)
    | searching cause =>
      dsimp only at move ⊢
      rw [alike.tasks]
      split at move
      · next left =>
        rw [if_pos left]
        exact joinsMirrored alike move
      · next none =>
        rw [if_neg none]
        cases List.mem_singleton.mp move
        refine ⟨_, List.mem_singleton_self _, ?_⟩
        rw [alike.shape]
        exact alike.onward (Floor.growsSame rfl rfl) alike.floor (.refl _) (fun _ => .inl) _ _
    | aborting cause =>
      dsimp only at move ⊢
      rw [alike.tasks]
      split at move
      · next all =>
        rw [if_pos all]
        cases List.mem_singleton.mp move
        exact ⟨_, List.mem_singleton_self _, concludeAlike alike _⟩
      · next some =>
        rw [if_neg some]
        refine either move (fun severed => ?_) (joinsMirrored alike)
        obtain ⟨⟨t, p⟩, member, moves⟩ := List.mem_flatMap.mp severed
        obtain ⟨⟨f, u⟩, cut, rfl⟩ := List.mem_map.mp moves
        obtain ⟨⟨f', u'⟩, there, grows, here, like, rfl⟩ := Task.cutMirrored alike.floor _ cut
        refine ⟨_, List.mem_flatMap.mpr ⟨_, member, List.mem_map_of_mem there⟩, ?_⟩
        rw [alike.shape]
        exact alike.onward grows like (.refl _) (fun _ => fixedSet here) _ _
    | disposingCheckers d outcome =>
      exact disposeMirrored Floor.onCheckersAlike (.refl d) (fun _ _ same => .checkers same _) alike
        move
    | disposingRunners d outcome =>
      exact disposeMirrored Floor.onRunnersAlike (.refl d) (fun _ _ same => .runners same _) alike
        move
    | reporting outcome =>
      cases List.mem_singleton.mp move
      refine ⟨_, List.mem_singleton_self _, ?_⟩
      rw [alike.shape]
      exact alike.onward (Floor.growsSame rfl rfl) alike.floor (.refl _) (fun _ => .inl) _ _
    | finished outcome => cases move
  | checkers d outcome =>
    exact disposeMirrored Floor.onCheckersAlike d (fun _ _ same => .checkers same _) alike move
  | runners d outcome =>
    exact disposeMirrored Floor.onRunnersAlike d (fun _ _ same => .runners same _) alike move

theorem disposedChecker {o : Order CheckWork} {a b : Outcome CheckAnswer}
    (alike : Alike loose loose' r s) (waits : o ∈ r.floor.checkers.crew.orders)
    (disposes : o.call = .dispose) (aside : ¬r.HandsOver o.token)
    (agree : b = a ∨ a.isSaid = true ∧ b.isSaid = true) :
    Alike (fun t => loose t ∨ t = o.token) loose' (r.answered Floor.onCheckers o.token a)
      (s.answered Floor.onCheckers o.token b) := by
  obtain ⟨results, links, ⟨pool, crew⟩, runners⟩ := alike.floor
  have like : Floor.AlikeBut (fun t => loose t ∨ t = o.token) loose'
      (r.answered Floor.onCheckers o.token a).floor
      (s.answered Floor.onCheckers o.token b).floor :=
    ⟨results, links, ⟨pool, crew.answerEither waits agree⟩, runners⟩
  refine ⟨alike.orders, alike.mutants, alike.tasks, alike.collected, alike.reports, alike.conduct,
    like, fun t member => ?_⟩
  have settled := alike.fixed t member
  cases t with
  | working role =>
    cases role with
    | checking plan stage => exact Crew.Fixes.answer settled waits disposes a
    | releasing share h =>
      cases h with
      | disposing d =>
        exact Disposal.Fixed.answer settled (fun waited => aside ⟨share, d, member, waited⟩) a
      | _ => trivial
    | testing planOf t => exact settled
    | _ => trivial
  | _ => trivial

theorem disposedRunner {o : Order RunPlan} {a b : Outcome RunAnswer}
    (alike : Alike loose loose' r s) (waits : o ∈ r.floor.runners.crew.orders)
    (disposes : o.call = .dispose) (agree : b = a ∨ a.isSaid = true ∧ b.isSaid = true) :
    Alike loose (fun t => loose' t ∨ t = o.token) (r.answered Floor.onRunners o.token a)
      (s.answered Floor.onRunners o.token b) := by
  obtain ⟨results, links, checkers, ⟨pool, crew⟩⟩ := alike.floor
  have like : Floor.AlikeBut loose (fun t => loose' t ∨ t = o.token)
      (r.answered Floor.onRunners o.token a).floor
      (s.answered Floor.onRunners o.token b).floor :=
    ⟨results, links, checkers, ⟨pool, crew.answerEither waits agree⟩⟩
  refine ⟨alike.orders, alike.mutants, alike.tasks, alike.collected, alike.reports, alike.conduct,
    like, fun t member => ?_⟩
  have settled := alike.fixed t member
  cases t with
  | working role =>
    cases role with
    | testing planOf t => exact Crew.Fixes.answer settled waits disposes a
    | releasing share h => cases h <;> exact settled
    | _ => exact settled
  | _ => trivial

theorem answeredChecker (alike : Alike loose loose' r s) (token : Nat)
    (outcome : Outcome CheckAnswer) :
    Alike loose loose' (r.answered Floor.onCheckers token outcome)
      (s.answered Floor.onCheckers token outcome) := by
  obtain ⟨results, links, ⟨pool, crew⟩, runners⟩ := alike.floor
  have grows : (Floor.likeness loose loose').grows r.floor
      (r.answered Floor.onCheckers token outcome).floor :=
    ⟨Crew.answerGrows _ _ _, (Crew.likeness loose').refl _⟩
  exact ⟨alike.orders, alike.mutants, alike.tasks, alike.collected, alike.reports, alike.conduct,
    ⟨results, links, ⟨pool, crew.answerSame token outcome⟩, runners⟩,
    fun t member => (alike.fixed t member).grow grows⟩

theorem answeredRunner (alike : Alike loose loose' r s) (token : Nat)
    (outcome : Outcome RunAnswer) :
    Alike loose loose' (r.answered Floor.onRunners token outcome)
      (s.answered Floor.onRunners token outcome) := by
  obtain ⟨results, links, checkers, ⟨pool, crew⟩⟩ := alike.floor
  have grows : (Floor.likeness loose loose').grows r.floor
      (r.answered Floor.onRunners token outcome).floor :=
    ⟨(Crew.likeness loose).refl _, Crew.answerGrows _ _ _⟩
  exact ⟨alike.orders, alike.mutants, alike.tasks, alike.collected, alike.reports, alike.conduct,
    ⟨results, links, checkers, ⟨pool, crew.answerSame token outcome⟩⟩,
    fun t member => (alike.fixed t member).grow grows⟩

variable {o : Orders} {mutants : List CoveredMutant}

theorem startAlike (o : Orders) (mutants : List CoveredMutant) :
    Alike (fun _ => False) (fun _ => False) (start o mutants) (start o mutants) := by
  have empty {W V : Type} : Crew.AlikeBut (fun _ => False) ({} : Crew W V) {} :=
    .of .nil (fun _ none => none.elim) fun _ none => absurd none List.not_mem_nil
  refine ⟨rfl, rfl, rfl, rfl, rfl, .refl _, ⟨rfl, rfl, ⟨rfl, empty⟩, ⟨rfl, empty⟩⟩,
    fun t member => ?_⟩
  obtain ⟨role, among, rfl⟩ := List.mem_map.mp member
  simp only [Orders.roles, List.mem_append, List.mem_map, List.mem_cons, List.not_mem_nil,
    or_false] at among
  rcases among with ((rfl | ⟨checker, -, rfl⟩) | handover) | rfl | rfl
  · trivial
  · exact Crew.fixesNone
  · split at handover
    · rw [List.mem_singleton.mp handover]
      trivial
    · cases handover
  · trivial
  · exact Crew.fixesNone

theorem disposingAlike (steps : Disposing .any (start o mutants) r)
    (checkers : Order CheckWork → Option WorkerError)
    (runners : Order RunPlan → Option WorkerError) :
    ∃ loose loose' s, Disposing (.ofFailures checkers runners) (start o mutants) s ∧
      Alike loose loose' r s := by
  induction steps with
  | start => exact ⟨_, _, _, .start, startAlike o mutants⟩
  | own before move ih =>
    obtain ⟨loose, loose', s, steps, alike⟩ := ih
    obtain ⟨next', move', alike'⟩ := ownMirrored alike move
    exact ⟨_, _, next', steps.own move', alike'⟩
  | task before place move ih =>
    obtain ⟨loose, loose', s, steps, alike⟩ := ih
    obtain ⟨next', move', alike'⟩ := taskMirrored alike move
    exact ⟨_, _, next', steps.task place move', alike'⟩
  | @checker r before x outcome waits handed fits ih =>
    obtain ⟨loose, loose', s, steps, alike⟩ := ih
    have same (token : Nat) : s.HandsOver token ↔ r.HandsOver token := by
      rw [HandsOver, alike.tasks]
      rfl
    have waits' : x ∈ s.floor.checkers.crew.orders := by
      rwa [alike.floor.checkers.crew.sameOrders]
    by_cases aside : x.call = .dispose ∧ ¬r.HandsOver x.token
    · obtain ⟨disposes, aside⟩ := aside
      refine ⟨_, _, _, steps.checker x (outcome.fated (checkers x) .done) waits' ?_ ?_,
        disposedChecker alike waits disposes aside (outcome.fatedSaid _ _)⟩
      · exact fun hands => absurd ((same _).mp hands) aside
      · exact fun _ _ => outcome.fatedFits _ _
    · refine ⟨_, _, _, steps.checker x outcome waits' ?_ ?_, answeredChecker alike _ _⟩
      · exact fun hands => handed ((same _).mp hands)
      · exact fun disposes none => absurd ⟨disposes, fun hands => none ((same _).mpr hands)⟩ aside
  | @runner r before x outcome waits fits ih =>
    obtain ⟨loose, loose', s, steps, alike⟩ := ih
    have waits' : x ∈ s.floor.runners.crew.orders := by
      rwa [alike.floor.runners.crew.sameOrders]
    by_cases disposes : x.call = .dispose
    · exact ⟨_, _, _, steps.runner x (outcome.fated (runners x) none) waits'
        fun _ => outcome.fatedFits _ _,
        disposedRunner alike waits disposes (outcome.fatedSaid _ _)⟩
    · exact ⟨_, _, _, steps.runner x outcome waits' fun is => absurd is disposes,
        answeredRunner alike _ _⟩

/-- Whatever disposals fail, as long as the checkers could be handed over, what the run comes to is also
what it comes to when disposals fail in any other way, or not at all. -/
theorem outcomeUnmoved {outcome : Except RunError (List MutantResult)}
    (steps : Disposing .any (start o mutants) r) (ended : r.conduct = .finished outcome)
    (checkers : Order CheckWork → Option WorkerError)
    (runners : Order RunPlan → Option WorkerError) :
    ∃ s, Disposing (.ofFailures checkers runners) (start o mutants) s ∧
      s.conduct = .finished outcome ∧ s.reports = r.reports := by
  obtain ⟨loose, loose', s, steps', alike⟩ := disposingAlike steps checkers runners
  refine ⟨s, steps', ?_, alike.reports⟩
  have same := alike.conduct
  rw [ended] at same
  generalize s.conduct = c at same
  cases same
  rfl

def Cue.isFailure : Cue → Bool
  | .checker (.failed _) | .runner (.failed _) => true
  | _ => false

theorem playedDisposing {cues : List Cue} {first : Run} (steps : Disposing .any first r)
    (calm : cues.all (!·.isFailure) = true) (went : played cues r = some next) :
    Disposing .any first next := by
  induction cues generalizing r with
  | nil =>
    cases went
    exact steps
  | cons cue later ih =>
    obtain ⟨s, moved, rest⟩ := Option.bind_eq_some_iff.mp went
    rw [List.all_cons, Bool.and_eq_true] at calm
    refine ih ?_ calm.2 rest
    cases cue with
    | own => exact steps.own (List.mem_of_head? moved)
    | task place => exact steps.task place (List.mem_of_head? moved)
    | checker outcome =>
      obtain ⟨x, found, rfl⟩ := Option.map_eq_some_iff.mp moved
      refine steps.checker x outcome (List.mem_of_head? found) (fun _ e failed => ?_)
        fun _ _ => trivial
      subst failed
      simp [Cue.isFailure] at calm
    | runner outcome =>
      obtain ⟨x, found, rfl⟩ := Option.map_eq_some_iff.mp moved
      exact steps.runner x outcome (List.mem_of_head? found) fun _ => trivial

def toHandover : List Cue :=
  let goOn (place n : Nat) := List.replicate n (Cue.task place)
  let verdicts := Keyed.ofList [("1", Verdict.passed)]
  goOn 0 5 ++ goOn 1 5 ++ [.own] ++ [.checker (.ok .done)] ++ goOn 1 6 ++ [.checker (.ok .done)] ++
    goOn 1 6 ++ [.checker (.ok (.groups none))] ++ goOn 1 11 ++
    [.checker (.ok (.verdicts verdicts))] ++ goOn 1 9 ++ goOn 2 10

def toEnd : List Cue :=
  let goOn (place n : Nat) := List.replicate n (Cue.task place)
  [.checker (.ok .done)] ++ goOn 2 6 ++ goOn 3 6 ++ goOn 4 6 ++ [.runner (.ok none)] ++ goOn 4 5 ++
    [.runner (.ok (some (.survived 1)))] ++ goOn 4 8 ++ List.replicate 14 .own

def refusal : WorkerError := .rejected "no"

def sole : Run := start oneEach [reached "1"]

def handingOver : Run := (played toHandover sole).getD sole

def nearEnd : Run := (played toEnd handingOver).getD handingOver

def refusedRunner : Run := nearEnd.answered Floor.onRunners 2 (.failed refusal)

def endedAnyway : Run := (played (List.replicate 3 .own) refusedRunner).getD refusedRunner

def survivor : List MutantResult := inOrder [reached "1"] [(reached "1").resultOfRun (.survived 1)]

set_option maxRecDepth 8192 in
theorem handingOverPlayed : played toHandover sole = some handingOver := rfl

set_option maxRecDepth 8192 in
theorem nearEndPlayed : played toEnd handingOver = some nearEnd := rfl

set_option maxRecDepth 8192 in
theorem nearEndWaits : nearEnd.floor.runners.crew.orders = [⟨2, 0, .dispose⟩] := rfl

set_option maxRecDepth 8192 in
theorem endedAnywayPlayed :
    played (List.replicate 3 .own) refusedRunner = some endedAnyway := rfl

theorem outcomeUnmovedSurvivor : Disposing .any sole endedAnyway ∧
    endedAnyway.conduct = .finished (.ok survivor) ∧
      ∃ s, Disposing (.ofFailures (fun _ => none) fun _ => none) sole s ∧
        s.conduct = .finished (.ok survivor) ∧ s.reports = endedAnyway.reports := by
  have before := playedDisposing (playedDisposing .start rfl handingOverPlayed) rfl nearEndPlayed
  have refused : Disposing .any sole refusedRunner :=
    before.runner ⟨2, 0, .dispose⟩ (.failed refusal)
      (by rw [nearEndWaits]; exact List.mem_singleton_self _) fun _ => trivial
  have steps := playedDisposing refused rfl endedAnywayPlayed
  have ended : endedAnyway.conduct = .finished (.ok survivor) := rfl
  exact ⟨steps, ended, outcomeUnmoved steps ended (fun _ => none) fun _ => none⟩

def tearDown : List Cue :=
  let goOn (place n : Nat) := List.replicate n (Cue.task place)
  goOn 2 5 ++ List.replicate 5 .own ++ goOn 3 3 ++ goOn 4 3 ++ List.replicate 11 .own

def refusedChecker : Run := handingOver.answered Floor.onCheckers 4 (.failed refusal)

def tornDown : Run := (played tearDown refusedChecker).getD refusedChecker

def endedWell : Run :=
  (played (toEnd ++ .runner (.ok none) :: List.replicate 3 .own) handingOver).getD handingOver

set_option maxRecDepth 8192 in
theorem handingOverWaits :
    handingOver.floor.checkers.crew.orders = [⟨4, 0, .dispose⟩] := rfl

set_option maxRecDepth 8192 in
theorem tornDownPlayed :
    played (.checker (.failed refusal) :: tearDown) handingOver = some tornDown := rfl

set_option maxRecDepth 8192 in
theorem endedWellPlayed :
    played (toEnd ++ .runner (.ok none) :: List.replicate 3 .own) handingOver = some endedWell := rfl

/-- Everything is answered with a success but one disposal, and the run fails for it. -/
theorem handoverDecides : ¬∀ (o : Orders) (mutants : List CoveredMutant)
    (before after after' : List Cue) (r s s' : Run) (x : Order CheckWork) (e : WorkerError)
    (outcome outcome' : Except RunError (List MutantResult)),
      (before ++ after ++ after').all (!·.isFailure) = true →
      played before (start o mutants) = some r → r.floor.checkers.crew.orders = [x] →
      x.call = .dispose → played (.checker (.failed e) :: after) r = some s →
      played (.checker (.ok .done) :: after') r = some s' →
      s.conduct = .finished outcome → s'.conduct = .finished outcome' → outcome = outcome' := by
  intro same
  have unlike := same oneEach [reached "1"] toHandover tearDown _ handingOver tornDown endedWell _ _
    (.error (.worker refusal)) (.ok survivor) rfl handingOverPlayed handingOverWaits rfl
    tornDownPlayed endedWellPlayed rfl rfl
  cases unlike

end Run
end MutationPipeline
