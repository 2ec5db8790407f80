import MutationPipeline.Proofs.Pipeline.Concurrency
import MutationPipeline.Proofs.Pipeline.Solvency
import MutationPipeline.Proofs.Pipeline.Stalls
import MutationPipeline.Proofs.Pipeline.Wiring

/-! A run cannot deadlock. Suppose that all calls to workers have ended and nobody has a move. Then nobody
waits for a test runner, as none is in use; no task is blocked by the one behind it, from the last task
backwards, as that one would have something to do; nobody waits for a checker, as none is in use; and so the
first task that is still there waits for mutants from nobody. -/
namespace MutationPipeline
variable {W V : Type} {o : Orders}

theorem Crew.Live.paid {c : Crew W V} {due late tokens : List Nat} (live : c.Live due late)
    (none : c.orders = []) (own : tokens ⊆ due) : ¬c.Owes tokens := by
  rintro ⟨token, member, missing⟩
  rcases live.due token (own member) with ⟨x, waits, -⟩ | ⟨a, answered, rfl⟩
  · rw [none] at waits
    cases waits
  · have other := List.lookup_eq_none_iff.mp missing a answered
    simp at other

namespace Role
variable {role : Role} {place ticket wanted : Nat} {ys : List Stance}

theorem Claims.begun (claims : role.Claims ticket wanted) : role.Busy ∨ role.Disposes := by
  cases role with
  | checking plan stage => exact .inl claims.1
  | releasing share h =>
    cases h with
    | disposing d => exact .inr trivial
    | _ => exact claims.elim
  | _ => exact claims.elim

theorem Claims.stands (claims : role.Claims ticket wanted) :
    role.CheckStands ys ↔ ys = [.waiting ticket wanted] := by
  cases role with
  | checking plan stage => exact claims.2 ▸ Iff.rfl
  | releasing share h =>
    cases h with
    | disposing d => cases claims; exact Iff.rfl
    | _ => exact claims.elim
  | _ => exact claims.elim

theorem Claims.elsewhere (claims : role.Claims ticket wanted) : ¬role.Tests := by
  cases role with
  | testing planOf t => exact claims.elim
  | _ => exact id

theorem Claims.hasCheckers (claims : role.Claims ticket wanted) (here : role.At o place) :
    o.hasCheckers = true := by
  cases role with
  | checking plan stage =>
    rw [Orders.hasCheckers]
    cases known : o.config.checkers with
    | nil =>
      rw [At, known] at here
      cases here.2.1
    | cons name rest => rfl
  | releasing share h => exact here.2.2
  | _ => exact claims.elim

theorem idleStands (idle : ¬role.Busy) (lazy : ¬role.Disposes) (stands : role.CheckStands ys) :
    ys = [] := by
  cases role with
  | checking plan stage =>
    cases stage with
    | draining batch => exact stands
    | _ => exact absurd rfl idle
  | releasing share h =>
    cases h with
    | disposing d => exact absurd trivial lazy
    | _ => exact stands
  | _ => exact stands

theorem Tests.apart (tests : role.Tests) : role.Apart := by
  cases role with
  | testing planOf t => trivial
  | _ => exact tests.elim

theorem At.first (here : role.At o 0) : role.rank = 0 := by
  cases role with
  | ignoring rest => rfl
  | checking plan stage => exact absurd here.1 (Nat.lt_irrefl 0)
  | releasing share h => exact absurd here.1 (Nat.succ_ne_zero _).symm
  | covering held => exact absurd (behind (.inl here)) (Nat.not_lt_zero _)
  | testing planOf t => exact absurd (behind (.inr here)) (Nat.not_lt_zero _)

end Role

def Pool.Awaits (p : Pool) (x : Stance) : Prop :=
  ∃ ticket wanted, x = .waiting ticket wanted ∧ p.permits.isComplete ticket = false

namespace Run
variable {r s next : Run} {mutants : List CoveredMutant}

def CanMove (r : Run) : Prop :=
  (∃ next, next ∈ r.ownMoves) ∨ ∃ place next, next ∈ r.taskMoves place

def Unasked (r : Run) : Prop :=
  r.floor.checkers.crew.orders = [] ∧ r.floor.runners.crew.orders = []

def Breaks (r : Run) : Prop :=
  (∃ d outcome s, r.conduct = .disposingCheckers d outcome ∧
    (s, .panicked) ∈ Disposal.moves d r.floor.checkers) ∨
  ∃ d outcome s, r.conduct = .disposingRunners d outcome ∧
    (s, .panicked) ∈ Disposal.moves d r.floor.runners

inductive Answered (r : Run) : Run → Prop where
  | none : Answered r r
  | checker {s : Run} (before : Answered r s) (x : Order CheckWork) (outcome : Outcome CheckAnswer)
      (waits : x ∈ s.floor.checkers.crew.orders) :
      Answered r (s.answered Floor.onCheckers x.token outcome)
  | runner {s : Run} (before : Answered r s) (x : Order RunPlan) (outcome : Outcome RunAnswer)
      (waits : x ∈ s.floor.runners.crew.orders) :
      Answered r (s.answered Floor.onRunners x.token outcome)

theorem Answered.steps {first : Run} (answered : r.Answered s) (steps : Steps first r) :
    Steps first s ∧ s.conduct = r.conduct := by
  induction answered with
  | none => exact ⟨steps, rfl⟩
  | checker before x outcome waits ih => exact ⟨ih.1.tail (.checker x outcome waits), ih.2⟩
  | runner before x outcome waits ih => exact ⟨ih.1.tail (.runner x outcome waits), ih.2⟩

theorem Answered.trans {t : Run} (first : r.Answered s) (second : s.Answered t) : r.Answered t := by
  induction second with
  | none => exact first
  | checker before x outcome waits ih => exact .checker ih x outcome waits
  | runner before x outcome waits ih => exact .runner ih x outcome waits

theorem settles (r : Run) : ∃ s, r.Answered s ∧ s.Unasked := by
  -- Each answer leaves one call less in flight, and a worker may break down at any call.
  induction size : r.floor.checkers.crew.orders.length + r.floor.runners.crew.orders.length
    using Nat.strongRecOn generalizing r with
  | ind n ih =>
    cases checks : r.floor.checkers.crew.orders with
    | cons x rest =>
      have waits : x ∈ r.floor.checkers.crew.orders := checks ▸ List.mem_cons_self
      have fewer := Crew.answerFewer waits (.panicked : Outcome CheckAnswer)
      obtain ⟨s, answered, settled⟩ := ih _ (size ▸ Nat.add_lt_add_right fewer _)
        (r.answered Floor.onCheckers x.token .panicked) rfl
      exact ⟨s, (Answered.checker .none x .panicked waits).trans answered, settled⟩
    | nil =>
      cases runs : r.floor.runners.crew.orders with
      | nil => exact ⟨r, .none, checks, runs⟩
      | cons x rest =>
        have waits : x ∈ r.floor.runners.crew.orders := runs ▸ List.mem_cons_self
        have fewer := Crew.answerFewer waits (.panicked : Outcome RunAnswer)
        obtain ⟨s, answered, settled⟩ := ih _ (size ▸ Nat.add_lt_add_left fewer _)
          (r.answered Floor.onRunners x.token .panicked) rfl
        exact ⟨s, (Answered.runner .none x .panicked waits).trans answered, settled⟩

theorem Accounts.idle {of : Role → List Stance → Prop} {own : Conduct → List Stance → Prop}
    {s : Site W V} (accounts : Accounts of own r s) (opened : s.pool.isDisposed = false)
    (tasks : ∀ t ∈ r.tasks, ∀ ys, t.Stands of ys → ∀ x ∈ ys, s.pool.Awaits x)
    (conduct : ∀ ys, own r.conduct ys → ∀ x ∈ ys, s.pool.Awaits x) :
    (∀ t ∈ r.tasks, t.Stands of []) ∧ own r.conduct [] := by
  obtain ⟨parts, ys, all, stand, rest, solvent⟩ := accounts
  have member {x : Task × List Stance} (among : x ∈ parts) : x.1 ∈ r.tasks :=
    all ▸ List.mem_map_of_mem among
  have none := solvent.idle opened fun x among => by
    rcases List.mem_append.mp among with task | run
    · obtain ⟨part, here, own⟩ := List.mem_flatMap.mp task
      exact tasks part.1 (member here) part.2 (stand part here) x own
    · exact conduct ys rest x run
  obtain ⟨parts', last⟩ := List.append_eq_nil_iff.mp none
  refine ⟨fun t among => ?_, last ▸ rest⟩
  rw [← all] at among
  obtain ⟨part, here, rfl⟩ := List.mem_map.mp among
  have empty : part.2 = [] := List.flatMap_eq_nil_iff.mp parts' part here
  exact empty ▸ stand part here

theorem soundSteps (steps : Steps (start o mutants) r)
    (checkers : o.hasCheckers = true → 0 < o.budget.checkers) (runners : 0 < o.budget.testRunners) :
    Solvent o r ∧ Wired o r := by
  induction steps with
  | refl => exact ⟨startSolvent checkers runners mutants, startWired o mutants⟩
  | tail before step ih =>
    obtain ⟨solvent, wired⟩ := ih
    have custody := (reachSteps before).1.custody
    cases step with
    | own move => exact ⟨solvent.own move, wired.own move⟩
    | task place move =>
      exact ⟨solvent.task (fun _ _ _ => custody.early) move, wired.task (fun _ _ _ => custody.early) move⟩
    | checker x outcome waits =>
      exact ⟨⟨fun has => (solvent.checkers has).same rfl (fun _ => id) rfl (Nat.le_refl _),
        solvent.runners⟩, wired.same rfl rfl ⟨rfl, rfl⟩ rfl wired.checkers⟩
    | runner x outcome waits =>
      exact ⟨⟨solvent.checkers, solvent.runners.same rfl (fun _ => id) rfl (Nat.le_refl _)⟩,
        wired.same rfl rfl ⟨rfl, rfl⟩ rfl wired.checkers⟩

structure Stuck (o : Orders) (r : Run) : Prop where
  custody : Custody o anyActive r
  live : r.Live
  solvent : Solvent o r
  wired : Wired o r
  settled : r.Unasked
  own : r.ownMoves = []
  tasks : ∀ place, r.taskMoves place = []

namespace Stuck
variable {place : Nat} {t : Task} {role : Role} (stuck : Stuck o r)
include stuck

omit stuck in
theorem found (working : r.task place = .working role) : r.tasks[place]? = some (.working role) :=
  taskPresent working Task.noConfusion

theorem silent (found : r.tasks[place]? = some t) : t.moves place r.floor = [] := by
  have none := stuck.tasks place
  rw [taskMoves, found] at none
  exact List.map_eq_nil_iff.mp none

theorem stays (found : r.tasks[place]? = some t) :
    (∃ role, t = .working role ∧ role.moves place r.floor = []) ∨ t.hasLeft = true ∨ t = .joined := by
  have none := stuck.silent found
  cases t with
  | working role => exact .inl ⟨role, rfl, List.map_eq_nil_iff.mp none⟩
  | leaving role outcome => cases none
  | closing role outcome => cases none
  | closed outcome => cases none
  | left outcome => exact .inr (.inl rfl)
  | joined => exact .inr (.inr rfl)

theorem paid (working : r.task place = .working role) :
    ¬r.floor.checkers.crew.Owes role.checkTokens ∧ ¬r.floor.runners.crew.Owes role.runTokens := by
  have member := List.mem_of_getElem? (found working)
  refine ⟨stuck.live.checkers.paid stuck.settled.1 fun token own => ?_,
    stuck.live.runners.paid stuck.settled.2 fun token own => ?_⟩
  all_goals exact List.mem_append_left _ (List.mem_flatMap.mpr ⟨_, member, own⟩)

omit stuck in
theorem joinsSome {after : Except RunError Unit → Conduct} {t : Task}
    (found : r.tasks[place]? = some t) (left : t.hasLeft = true) : r.joins after ≠ [] := by
  cases t with
  | left outcome =>
    refine List.ne_nil_of_mem (List.mem_filterMap.mpr ⟨(.left outcome, place), ?_, rfl⟩)
    exact List.mem_zipIdx_iff_getElem?.mpr found
  | _ => cases left

theorem notSearching (cause : RunError) : r.conduct ≠ .searching cause := by
  intro searching
  have none := stuck.own
  simp only [ownMoves, searching] at none
  split at none
  · next some =>
    obtain ⟨t, member, left⟩ := List.any_eq_true.mp some
    obtain ⟨p, found⟩ := List.mem_iff_getElem?.mp member
    exact joinsSome found left none
  · cases none

theorem notAborting (cause : RunError) : r.conduct ≠ .aborting cause := by
  intro aborting
  have none := stuck.own
  simp only [ownMoves, aborting] at none
  split at none
  · cases none
  · next some =>
    obtain ⟨cuts, joins⟩ := List.append_eq_nil_iff.mp none
    refine some (List.all_eq_true.mpr fun t member => ?_)
    obtain ⟨p, found⟩ := List.mem_iff_getElem?.mp member
    rcases stuck.stays found with ⟨role, rfl, quiet⟩ | left | rfl
    · have cut := List.flatMap_eq_nil_iff.mp cuts (.working role, p)
        (List.mem_zipIdx_iff_getElem?.mpr found)
      simp only [Task.cut, Role.asleep quiet] at cut
      cases cut
    · exact absurd joins (joinsSome found left)
    · rfl

theorem notDisposing {W V : Type} {of : Role → List Stance → Prop} {own : Conduct → List Stance → Prop}
    {s : Site W V} {d : Disposal W} {due late : List Nat} (live : s.crew.Live due late)
    (ended : s.crew.orders = []) (mine : d.tokens ⊆ due) (accounts : Accounts of own r s)
    (stands : ∀ ys, own r.conduct ys ↔ d.Stands ys) (late : ¬r.conduct.Early) :
    Disposal.moves d s ≠ [] := by
  intro none
  rcases Disposal.movesNone none with owes | ⟨ticket, wanted, rfl, opened, waits⟩
  · exact live.paid ended mine owes
  · have joined := stuck.custody.joined late
    have empty := (accounts.idle opened (fun t member ys part x among => ?_) fun ys part x among => ?_).2
    · cases (stands []).mp empty
    · have gone := List.all_eq_true.mp joined t member
      cases t with
      | joined =>
        cases part
        cases among
      | _ => cases gone
    · cases (stands ys).mp part
      exact ⟨ticket, wanted, List.mem_singleton.mp among, waits⟩

omit stuck in
theorem disposeNone {W V : Type} {site : Part Floor (Site W V)} {note : WorkerError → Note}
    {goOn : Disposal W → Conduct} {after : Conduct} {d : Disposal W}
    (none : dispose site note goOn after d r = []) (some : Disposal.moves d (site.get r.floor) ≠ []) :
    ∃ s, (s, .panicked) ∈ Disposal.moves d (site.get r.floor) := by
  obtain ⟨⟨s, n⟩, move⟩ := List.exists_mem_of_ne_nil _ some
  have lifted : (site.set s r.floor, n) ∈ (Disposal.moves.on site) d r.floor :=
    List.mem_map_of_mem (f := fun x : Site W V × _ => (site.set x.1 r.floor, x.2)) move
  have lost := List.filterMap_eq_nil_iff.mp none _ lifted
  cases n with
  | go e => cases lost
  | done result => cases result <;> cases lost
  | panicked => exact ⟨s, move⟩

section Collecting
variable (collecting : r.conduct = .collecting)
include collecting

theorem quiet : r.collect = [] ∧ ∀ p, (∃ role, r.task p = .working role) ∨ r.task p = .joined := by
  have none := stuck.own
  simp only [ownMoves, collecting] at none
  obtain ⟨collect, joins⟩ := List.append_eq_nil_iff.mp none
  refine ⟨collect, fun p => ?_⟩
  cases here : r.tasks[p]? with
  | none => exact .inr (taskNone here)
  | some t =>
    rw [taskFound here]
    rcases stuck.stays here with ⟨role, same, -⟩ | left | same
    · exact .inl ⟨role, same⟩
    · exact absurd joins (joinsSome here left)
    · exact .inr same

theorem received : r.floor.results.items = [] := by
  have collect := (stuck.quiet collecting).1
  cases items : r.floor.results.items with
  | nil => rfl
  | cons x rest =>
    have taken : (({ r.floor.results with items := rest }, some x) : Channel MutantResult × _) ∈
        r.floor.results.receive := by
      unfold Channel.receive
      rw [items]
      exact List.mem_cons_self
    have lost := List.filterMap_eq_nil_iff.mp collect _ (List.mem_map_of_mem taken)
    cases lost

theorem lingers (working : r.task place = .working role) : role.Lingers place r.floor := by
  have halts : role.Halts place r.floor := by
    rcases stuck.stays (found working) with ⟨role, same, none⟩ | left | same
    · cases same
      exact Role.movesHalts none
    · cases left
    · cases same
  cases halts with
  | checkers owes => exact absurd owes (stuck.paid working).1
  | runners owes => exact absurd owes (stuck.paid working).2
  | results full =>
    have room := stuck.wired.results
    rw [Channel.Full, stuck.received collecting] at full
    exact absurd full.2 (Nat.not_le_of_lt room)
  | lingers lingers => exact lingers

theorem nobody {W V : Type} {of : Role → List Stance → Prop} {own : Conduct → List Stance → Prop}
    {s : Site W V} (accounts : Accounts of own r s) (opened : s.pool.isDisposed = false)
    (conduct : ∀ ys, own .collecting ys → ys = [])
    (waits : ∀ (p : Nat) (other : Role), r.task p = .working other → other.Lingers p r.floor →
      ∀ ys, of other ys → ∀ x ∈ ys, s.pool.Awaits x) (working : r.task place = .working role) :
    of role [] := by
  have idle := accounts.idle opened (fun t member ys part => ?_) fun ys part x among => ?_
  · exact idle.1 _ (List.mem_of_getElem? (found working))
  · obtain ⟨p, here⟩ := List.mem_iff_getElem?.mp member
    rcases (stuck.quiet collecting).2 p with ⟨other, there⟩ | there
    · obtain rfl : t = .working other := (taskFound here).symm.trans there
      exact waits p other there (stuck.lingers collecting there) ys part
    · obtain rfl : t = .joined := (taskFound here).symm.trans there
      cases part
      exact fun x among => by cases among
  · rw [conduct ys (collecting ▸ part)] at among
    cases among

theorem notQueueing (working : r.task place = .working role) {ticket : Nat}
    (waits : role.runStances = [.waiting ticket 1]) (unserved : r.floor.runners.pool.Unserved ticket) :
    False := by
  have idle : [] = role.runStances := by
    refine stuck.nobody collecting stuck.solvent.runners unserved.1 (fun ys => id)
      (fun p other there lingers ys part x among => ?_) working
    obtain rfl : ys = other.runStances := part
    cases lingers with
    | starving starved later idle lazy none =>
      rw [none] at among
      cases among
    | claiming ticket wanted claims =>
      rw [Role.asideStances claims.elsewhere] at among
      cases among
    | queueing tests ticket waits unserved =>
      rw [waits] at among
      exact ⟨ticket, 1, List.mem_singleton.mp among, unserved.2⟩
    | blocked aside =>
      rw [Role.asideStances aside] at among
      cases among
  rw [waits] at idle
  cases idle

theorem notBlocked (working : r.task place = .working role) : ¬(r.floor.link (place + 1)).Full := by
  -- On how many tasks are behind this one: what keeps the next one cannot be that it has no mutants.
  induction left : r.tasks.length - place using Nat.strongRecOn generalizing place role with
  | ind n ih =>
    rintro ⟨receives, full⟩
    have room := stuck.wired.capacity (place + 1) receives
    have items : (r.floor.link (place + 1)).items ≠ [] := by
      intro none
      rw [none] at full
      exact absurd full (Nat.not_le_of_lt room)
    have uncut : r.conduct.Uncut := by rw [collecting]; trivial
    have here (gone : (r.task place).Gone) : False := by
      rw [working] at gone
      exact gone.elim
    obtain ⟨inside, -⟩ := List.getElem?_eq_some_iff.mp (found working)
    rcases (stuck.quiet collecting).2 (place + 1) with ⟨other, next⟩ | next
    · cases stuck.lingers collecting next with
      | starving starved => exact items starved.1
      | claiming ticket wanted claims =>
        -- A claim is made only when all tasks in front are gone, and this one is not.
        have ordered := stuck.custody.ordered
        rcases claims.begun with busy | disposes
        · exact here (ordered.busy (place + 1) (by rw [next]; exact busy) place (Nat.lt_succ_self _))
        · have at' := (ordered.releaser (p := place + 1) (by rw [next]; exact disposes)).1
          refine here ((stuck.custody.upstream uncut).disposes ?_ place ?_)
          · rw [← at', next]
            exact disposes
          · omega
      | queueing tests ticket waits unserved => exact stuck.notQueueing collecting next waits unserved
      | blocked aside full => exact ih _ (by omega) next rfl full
    · have deaf := stuck.wired.deaf (place + 1) (by rw [next]; trivial)
      rw [receives] at deaf
      cases deaf

theorem notClaiming (working : r.task place = .working role) {ticket wanted : Nat}
    (claims : role.Claims ticket wanted) (unserved : r.floor.checkers.pool.Unserved ticket) :
    False := by
  have here : role.At o place := stuck.custody.ordered.places place role (by rw [working]; rfl)
  have idle : role.CheckStands [] := by
    refine stuck.nobody collecting (stuck.solvent.checkers (claims.hasCheckers here)) unserved.1
      (fun ys => id) (fun p other there lingers ys part x among => ?_) working
    have some : ys ≠ [] := List.ne_nil_of_mem among
    cases lingers with
    | starving starved later idle lazy => exact absurd (Role.idleStands idle lazy part) some
    | claiming ticket wanted claims unserved =>
      obtain rfl := claims.stands.mp part
      exact ⟨ticket, wanted, List.mem_singleton.mp among, unserved.2⟩
    | queueing tests => exact absurd ((Role.apartStands tests.apart).mp part) some
    | blocked aside full => exact absurd full (stuck.notBlocked collecting there)
  cases claims.stands.mp idle

theorem starves (working : r.task place = .working role) :
    (r.floor.link place).Starved ∧ role.rank ≠ 0 := by
  cases stuck.lingers collecting working with
  | starving starved later => exact ⟨starved, later⟩
  | claiming ticket wanted claims unserved =>
    exact (stuck.notClaiming collecting working claims unserved).elim
  | queueing tests ticket waits unserved =>
    exact (stuck.notQueueing collecting working waits unserved).elim
  | blocked aside full => exact absurd full (stuck.notBlocked collecting working)

theorem joined (p : Nat) : r.task p = .joined := by
  induction p with
  | zero =>
    refine ((stuck.quiet collecting).2 0).resolve_left fun ⟨role, working⟩ => ?_
    have here : role.At o 0 := stuck.custody.ordered.places 0 role (by rw [working]; rfl)
    exact (stuck.starves collecting working).2 here.first
  | succ m before =>
    refine ((stuck.quiet collecting).2 (m + 1)).resolve_left fun ⟨role, working⟩ => ?_
    exact (stuck.starves collecting working).1.2 (stuck.wired.silent m (before ▸ trivial))

theorem collected : False := by
  have all (t : Task) (member : t ∈ r.tasks) : t = .joined := by
    obtain ⟨p, here⟩ := List.mem_iff_getElem?.mp member
    rw [← taskFound here]
    exact stuck.joined collecting p
  have reporters : r.tasks.countP Task.reports = 0 :=
    List.countP_eq_zero.mpr fun t member => by rw [all t member]; exact Bool.false_ne_true
  have senders : r.floor.results.senders = 0 := Nat.le_zero.mp (reporters ▸ stuck.wired.reporters)
  have ended : (r.floor.results, none) ∈ r.floor.results.receive := by
    unfold Channel.receive
    rw [stuck.received collecting, if_pos senders]
    exact List.mem_singleton_self _
  have lost := List.filterMap_eq_nil_iff.mp (stuck.quiet collecting).1 _ (List.mem_map_of_mem ended)
  have ends : r.tasks.all Task.isJoined = true :=
    List.all_eq_true.mpr fun t member => by rw [all t member]; rfl
  cases (if_pos ends).symm.trans lost

end Collecting

theorem disposes (late : ¬r.conduct.Early) : r.Breaks ∨ ∃ outcome, r.conduct = .finished outcome := by
  have none := stuck.own
  cases now : r.conduct with
  | disposingCheckers d outcome =>
    have has := stuck.wired.checkers d outcome now
    have mine : d.tokens ⊆ r.tasks.flatMap (Task.due Role.checkTokens) ++ r.conduct.checkTokens := by
      rw [now]
      exact List.subset_append_right _ _
    have some := stuck.notDisposing stuck.live.checkers stuck.settled.1 mine
      (stuck.solvent.checkers has) (fun ys => by rw [now]; exact Iff.rfl) late
    rw [ownMoves, now] at none
    obtain ⟨s, breaks⟩ := disposeNone none some
    exact .inl (.inl ⟨d, outcome, s, now, breaks⟩)
  | disposingRunners d outcome =>
    have mine : d.tokens ⊆ r.tasks.flatMap (Task.due Role.runTokens) ++ r.conduct.runTokens := by
      rw [now]
      exact List.subset_append_right _ _
    have some := stuck.notDisposing stuck.live.runners stuck.settled.2 mine
      stuck.solvent.runners (fun ys => by rw [now]; exact Iff.rfl) late
    rw [ownMoves, now] at none
    obtain ⟨s, breaks⟩ := disposeNone none some
    exact .inl (.inr ⟨d, outcome, s, now, breaks⟩)
  | reporting outcome =>
    rw [ownMoves, now] at none
    cases none
  | finished outcome => exact .inr ⟨outcome, rfl⟩
  | _ => exact absurd (by rw [now]; trivial) late

theorem ends : r.Breaks ∨ ∃ outcome, r.conduct = .finished outcome := by
  cases now : r.conduct with
  | collecting => exact (stuck.collected now).elim
  | searching cause => exact absurd now (stuck.notSearching cause)
  | aborting cause => exact absurd now (stuck.notAborting cause)
  | _ => exact now ▸ stuck.disposes (by rw [now]; exact id)

end Stuck

theorem settledMoves (steps : Steps (start o mutants) r)
    (checkers : o.hasCheckers = true → 0 < o.budget.checkers) (runners : 0 < o.budget.testRunners)
    (settled : r.Unasked) (going : ∀ outcome, r.conduct ≠ .finished outcome) :
    r.CanMove ∨ r.Breaks := by
  by_contra stays
  obtain ⟨still, whole⟩ := not_or.mp stays
  obtain ⟨solvent, wired⟩ := soundSteps steps checkers runners
  have stuck : Stuck o r :=
    { custody := (reachSteps steps).1.custody
      live := liveSteps steps
      solvent, wired, settled
      own := List.eq_nil_iff_forall_not_mem.mpr fun next move => still (.inl ⟨next, move⟩)
      tasks := fun place => List.eq_nil_iff_forall_not_mem.mpr fun next move =>
        still (.inr ⟨place, next, move⟩) }
  obtain ⟨outcome, finished⟩ := stuck.ends.resolve_left whole
  exact going outcome finished

/-- A run does not get stuck before it is finished. The calls to workers that were begun can end, and
however they end, the run can go on then, unless a worker takes it down with itself at the very end. -/
theorem neverStuck {processors : Nat} (steps : Steps (start o mutants) r)
    (budget : o.budget = .ofConfig o.config processors)
    (going : ∀ outcome, r.conduct ≠ .finished outcome) :
    (∃ s, r.Answered s ∧ s.Unasked) ∧ ∀ s, r.Answered s → s.Unasked → s.CanMove ∨ s.Breaks := by
  refine ⟨r.settles, fun s answered settled => ?_⟩
  obtain ⟨checkers, runners, -⟩ :=
    Budget.splitFits (o.config.total processors) (o.config.totalFirst processors) o.hasCheckers
  have shares : o.budget = .split (o.config.total processors) o.hasCheckers := budget
  rw [← shares] at checkers runners
  obtain ⟨after, same⟩ := answered.steps steps
  exact settledMoves after checkers runners settled (same ▸ going)

theorem neverStuckOverlapped : Steps (start oneEach [reached "1", reached "2"]) overlapped ∧
    oneEach.budget = .ofConfig oneEach.config 8 ∧ (∀ outcome, overlapped.conduct ≠ .finished outcome) ∧
      (∃ s, overlapped.Answered s ∧ s.Unasked) ∧
        ∀ s, overlapped.Answered s → s.Unasked → s.CanMove ∨ s.Breaks := by
  have steps := playedSteps (.refl _) overlapPlayed
  have budget : oneEach.budget = .ofConfig oneEach.config 8 := rfl
  have going (outcome) : overlapped.conduct ≠ .finished outcome := fun same => by cases same
  exact ⟨steps, budget, going, neverStuck steps budget going⟩

end Run

end MutationPipeline
