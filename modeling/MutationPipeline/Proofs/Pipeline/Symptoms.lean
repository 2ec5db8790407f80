import MutationPipeline.Proofs.Pipeline.Receivers

/-! Who is to blame when somebody is missing in a run. Whoever leaves early has failed, and a task that
fails because somebody has left is not to blame itself. Tasks take turns: a task that closes its ends of
the channels can be joined from the same step on, so whoever finds them closed comes later. -/
namespace MutationPipeline
variable {o : Orders} {place : Nat} {f f' : Floor}

namespace Role
variable {role : Role} {n : Next Role (Except RunError Unit)}

theorem At.inFront (here : role.At o place) (aside : ¬role.Tests) : place + 1 ≤ o.last := by
  cases role with
  | ignoring rest =>
    have first : place = 0 := here
    rw [Orders.last]
    split <;> omega
  | checking plan stage =>
    obtain ⟨inside, -⟩ := List.getElem?_eq_some_iff.mp here.2.1
    rw [Orders.last]
    split <;> omega
  | releasing share h =>
    obtain ⟨at', -, has⟩ := here
    rw [Orders.last, if_pos has]
    omega
  | covering held => exact Nat.le_of_eq here
  | testing planOf t => exact absurd trivial aside

def Sated : Role → Prop
  | .ignoring _ => True
  | .checking _ stage => stage.isDraining = false
  | .releasing _ (.forwarding _) => False
  | .releasing .. => True
  | .covering _ => False
  | .testing _ (.running g) | .testing _ (.reporting _ g) => g.feed = .ended

theorem receiveEnded (move : (f', none) ∈ f.receive (Floor.input place)) :
    (f.link place).senders = 0 := by
  obtain ⟨⟨c, found⟩, received, same⟩ := List.mem_map.mp move
  cases same
  exact (Channel.receiveEnded received).1

theorem runTestsSated {planOf : CoveredMutant → RunPlan} {t : Testing}
    {n : Next Testing (Except RunError Unit)} (move : (f', n) ∈ runTests planOf place t f)
    (sated : n.elim (fun later => (Role.testing planOf later).Sated) (· = .ok ()) False) :
    (Role.testing planOf t).Sated ∨ (f.link place).senders = 0 := by
  cases t with
  | running g =>
    have ends {u o} (inner : (u, o) ∈ Schedule.moves (testPlan planOf place) g f)
        (ended : o.elim (fun k => k.feed = .ended) (fun r => r.2.feed = .ended) False) :
        g.feed = .ended ∨ (f.link place).senders = 0 := by
      cases Schedule.movesMoved inner with
      | ended dry empty => exact .inl dry
      | dry feed more => exact .inr (receiveEnded more)
      | reject flights => exact .inl ended
      | work flights => exact .inl ended
      | answer flights => exact .inl ended
      | release flights => exact .inl ended
      | land flights => exact .inl ended
      | feedBreaks feed => exact ended.elim
      | workBreaks flights => exact ended.elim
      | _ => cases ended
    rcases Machine.withinCases move with ⟨q, inner, rfl⟩ | ⟨u, ⟨y, k⟩, inner, same⟩ | ⟨inner, rfl⟩
    · exact ends inner sated
    · cases y with
      | none =>
        cases Schedule.movesMoved inner with
        | ended dry empty => exact .inl dry
      | some y =>
        obtain ⟨m, result⟩ := y
        cases result with
        | error e => cases same; cases sated
        | ok answer =>
          cases answer with
          | error e => cases same; cases sated
          | ok run => cases same; exact ends inner sated
    · exact sated.elim
  | reporting x g =>
    obtain ⟨⟨g', sent⟩, sending, same⟩ := List.mem_map.mp move
    cases sent with
    | ok u => cases same; exact .inl sated
    | error e => cases same; cases sated

theorem movesSated (move : (f', n) ∈ role.moves place f)
    (sated : n.elim Sated (· = .ok ()) False) : role.Sated ∨ (f.link place).senders = 0 := by
  cases role with
  | ignoring rest => exact .inl trivial
  | checking plan stage =>
    by_cases begun : stage.isDraining = false
    · exact .inl begun
    · cases n with
      | go next =>
        obtain ⟨later, rfl⟩ : ∃ later, next = .checking plan later := by
          rcases Machine.withinCases move with ⟨q, -, same⟩ | ⟨u, r, -, same⟩ | ⟨-, same⟩
          · exact ⟨q, Next.go.inj same⟩
          · cases same
          · cases same
        exact ((Role.movesOnward move).begins sated).imp_right And.left
      | done r =>
        exact .inr (movesEnds move (fun _ same => by cases same) (Bool.not_eq_false _ ▸ begun))
      | panicked => exact sated.elim
  | releasing share h =>
    cases h with
    | forwarding held =>
      rcases Machine.withinCases move with ⟨q, inner, rfl⟩ | ⟨u, r, inner, same⟩ | ⟨-, rfl⟩
      · refine (handoverOnward inner).disposes ?_ |>.imp_left False.elim
        cases q with
        | forwarding held => exact sated.elim
        | _ => trivial
      · cases same
        obtain rfl : r = .ok () := sated
        cases held with
        | none =>
          obtain ⟨⟨g, found⟩, -, same⟩ := List.mem_map.mp inner
          cases found <;> cases same
        | some m =>
          obtain ⟨⟨g, sent⟩, -, same⟩ := List.mem_map.mp inner
          cases sent <;> cases same
      · exact sated.elim
    | _ => exact .inl trivial
  | covering held =>
    cases held with
    | none =>
      obtain ⟨⟨g, found⟩, received, same⟩ := List.mem_map.mp move
      cases found with
      | none => exact .inr (receiveEnded received)
      | some m =>
        obtain ⟨-, rfl⟩ := Prod.mk.inj same
        exact sated.elim
    | some m =>
      obtain ⟨sent, -, ⟨-, rfl⟩ | ⟨e, -, rfl⟩⟩ := afterSendCases move
      · exact sated.elim
      · cases sated
  | testing planOf t =>
    rcases Machine.withinCases move with ⟨q, inner, rfl⟩ | ⟨u, r, inner, same⟩ | ⟨inner, rfl⟩
    · exact runTestsSated inner sated
    · cases same
      exact runTestsSated inner sated
    · exact sated.elim

end Role

namespace Task
variable {t u : Task}

def failure? : Task → Option RunError
  | .leaving _ (.error e) | .closing _ (.error e) | .closed (.error e) | .left (.error e) => some e
  | _ => none

def ending? : Task → Option (Except RunError Unit)
  | .closed outcome | .left outcome => some outcome
  | _ => none

def Sated : Task → Prop
  | .working role => role.Sated
  | .leaving _ outcome | .closing _ outcome => outcome = .ok ()
  | _ => True

theorem Gone.sated (gone : t.Gone) : t.Sated := by
  cases t with
  | closed outcome => trivial
  | left outcome => trivial
  | joined => trivial
  | _ => exact gone.elim

structure Parts (place : Nat) (f f' : Floor) (t u : Task) : Prop where
  results : f'.results.receiving = f.results.receiving
  links : ∀ p, (f'.link p).receiving = (f.link p).receiving ∨
    (p = place ∧ ∃ role outcome, t = .closing role outcome ∧ u = .closed outcome)
  sated : u.Sated → t.Sated ∨ (f.link place).senders = 0 ∨
    ∃ role e, t = .closing role (.error e) ∧ u = .closed (.error e)
  failure : ∀ e, u.failure? = some e → t.failure? = some e ∨
    ∃ role, t = .working role ∧ (Run.isSymptom e = false ∨ role.Unheard place f)
  failed : ∀ e, t.failure? = some e → u.failure? = some e
  ending : ∀ outcome, t.ending? = some outcome → u.ending? = some outcome

theorem closeReceivers (place : Nat) (role : Role) (f : Floor) :
    (role.close place f).results.receiving = f.results.receiving ∧
      ∀ p ≠ place, ((role.close place f).link p).receiving = (f.link p).receiving := by
  refine ⟨?_, fun p other => ?_⟩
  · unfold Role.close
    dsimp only
    split <;> rfl
  · rw [role.closeLink, if_neg other]
    split <;> rfl

theorem movesParts (move : (f', u) ∈ t.moves place f) : Parts place f f' t u := by
  cases t with
  | working role =>
    obtain ⟨⟨g, n⟩, inner, same⟩ := List.mem_map.mp move
    obtain ⟨attached, genuine⟩ := Role.movesAttached inner
    have sated := Role.movesSated inner
    cases n with
    | go next =>
      cases same
      exact ⟨attached.results.receiving, fun p => .inl (attached.links p).receiving,
        fun after => (sated after).imp_right .inl, fun e none => (by cases none),
        fun e none => (by cases none), fun outcome none => by cases none⟩
    | done outcome =>
      cases same
      refine ⟨attached.results.receiving, fun p => .inl (attached.links p).receiving,
        fun after => (sated after).imp_right .inl, fun e failed => .inr ⟨role, rfl, ?_⟩,
        fun e none => (by cases none), fun outcome none => by cases none⟩
      cases outcome with
      | ok u => cases failed
      | error cause => cases failed; exact genuine.imp_left fun own => own _ rfl
    | panicked =>
      cases same
      refine ⟨attached.results.receiving, fun p => .inl (attached.links p).receiving,
        fun after => (by cases after), fun e failed => .inr ⟨role, rfl, .inl ?_⟩,
        fun e none => (by cases none), fun outcome none => by cases none⟩
      cases failed
      rfl
  | leaving role outcome =>
    cases List.mem_singleton.mp move
    have results : (role.vacate f).results = f.results := by
      unfold Role.vacate
      split <;> rfl
    obtain ⟨results, links⟩ := Floor.Attached.same results (vacateLinks role f)
    exact ⟨results.receiving, fun p => .inl (links p).receiving, .inl,
      fun e failed => .inl (by cases outcome <;> exact failed),
      fun e failed => (by cases outcome <;> exact failed), fun outcome none => by cases none⟩
  | closing role outcome =>
    cases List.mem_singleton.mp move
    obtain ⟨results, links⟩ := closeReceivers place role f
    refine ⟨results, fun p => ?_, fun _ => ?_,
      fun e failed => .inl (by cases outcome <;> exact failed),
      fun e failed => (by cases outcome <;> exact failed), fun outcome none => by cases none⟩
    · by_cases same : p = place
      · exact .inr ⟨same, role, outcome, rfl, rfl⟩
      · exact .inl (links p same)
    · cases outcome with
      | ok u => exact .inl rfl
      | error e => exact .inr (.inr ⟨role, e, rfl, rfl⟩)
  | closed outcome =>
    cases List.mem_singleton.mp move
    exact ⟨rfl, fun p => .inl rfl, fun _ => .inl trivial,
      fun e failed => .inl (by cases outcome <;> exact failed),
      fun e failed => (by cases outcome <;> exact failed), fun outcome same => same⟩
  | _ => cases move

end Task

namespace Conduct

def Undecided : Conduct → Prop
  | .collecting | .searching _ => True
  | _ => False

theorem Undecided.early {c : Conduct} (undecided : c.Undecided) : c.Early := by
  cases c with
  | collecting => trivial
  | searching cause => trivial
  | _ => exact undecided.elim

def cause? : Conduct → Option RunError
  | .searching cause | .aborting cause => some cause
  | .disposingCheckers _ (.error e) | .disposingRunners _ (.error e) | .reporting (.error e)
  | .finished (.error e) => some e
  | _ => none

end Conduct

namespace Run
variable {r next s : Run} {t u : Task} {mutants : List CoveredMutant} {e : RunError}

def Blamed (r : Run) : Prop :=
  (∃ p e, (r.task p).ending? = some (.error e) ∧ isSymptom e = false) ∨
    ∃ e, r.conduct = .searching e ∧ isSymptom e = false

/-- A task that failed on its own has closed its ends, but nobody can see yet that it is over. -/
def Veiled (r : Run) : Prop :=
  ∃ p e, r.task p = .closed (.error e) ∧ isSymptom e = false

/-- The search for the cause was given up with a failure when nobody could see another one that
was no symptom, though it was there. -/
def Overlooked (o : Orders) (mutants : List CoveredMutant) (r : Run) (cause : RunError) : Prop :=
  ∃ s, Steps (start o mutants) s ∧ s.conduct = .searching cause ∧
    s.tasks.any Task.hasLeft = false ∧ s.Veiled ∧ Steps { s with conduct := .aborting cause } r

structure Sought (o : Orders) (r : Run) : Prop where
  results : r.floor.results.receiving = true
  closed : ∀ p ≤ o.last, (r.floor.link p).receiving = false → r.Blamed ∨ ∀ m < p, (r.task m).Gone
  sated : ∀ p ≤ o.last, (r.task p).Sated → r.Blamed ∨ ∀ m < p, (r.task m).Gone
  symptoms : ∀ p e, (r.task p).failure? = some e → isSymptom e = true → r.Blamed
  searching : ∀ e, r.conduct = .searching e → r.Blamed

structure Excused (o : Orders) (mutants : List CoveredMutant) (r : Run) : Prop where
  length : r.tasks.length = o.last + 1
  sought : r.conduct.Undecided → Sought o r
  decided : ¬r.conduct.Undecided → ∀ e, r.conduct.cause? = some e →
    isSymptom e = false ∨ Overlooked o mutants r e

section Step
variable (sought : Sought o r) (ordered : Ordered o r) (found : r.tasks[place]? = some t)
  (tasks : next.tasks = r.tasks.set place u) (conduct : next.conduct = r.conduct)
  (went : Task.Went o place r.floor next.floor t u)
  (parts : Task.Parts place r.floor next.floor t u)
include sought ordered found tasks conduct went parts

theorem Sought.task (length : r.tasks.length = o.last + 1) : Sought o next := by
  have here := taskFound found
  have there := taskSelf found tasks
  have other {p : Nat} (apart : p ≠ place) : next.task p = r.task p := taskOther tasks apart
  have blamed (blamed : r.Blamed) : next.Blamed := by
    refine blamed.imp (fun ⟨p, e, ends, own⟩ => ⟨p, e, ?_, own⟩) fun ⟨e, searching, own⟩ =>
      ⟨e, conduct.trans searching, own⟩
    by_cases same : p = place
    · subst same
      rw [there]
      exact parts.ending _ (here ▸ ends)
    · rwa [other same]
  have failing {e : RunError} (failure : t.failure? = some e)
      (ends : u.ending? = some (.error e)) : next.Blamed := by
    cases symptom : isSymptom e with
    | true => exact blamed (sought.symptoms place e (by rwa [here]) symptom)
    | false => exact .inl ⟨place, e, there ▸ ends, symptom⟩
  have onward {p : Nat} (before : r.Blamed ∨ ∀ m < p, (r.task m).Gone) :
      next.Blamed ∨ ∀ m < p, (next.task m).Gone :=
    before.imp blamed fun all m less => stillGone found tasks went (all m less)
  have within : place ≤ o.last := by
    obtain ⟨inside, -⟩ := List.getElem?_eq_some_iff.mp found
    omega
  refine ⟨parts.results.trans sought.results, fun p within closed => ?_, fun p within sated => ?_,
    fun p e failure symptom => ?_, fun e searching =>
      blamed (sought.searching e (conduct.symm.trans searching))⟩
  · rcases parts.links p with same | ⟨rfl, role, outcome, rfl, rfl⟩
    · exact onward (sought.closed p within (same.symm.trans closed))
    · cases outcome with
      | ok u => exact onward (sought.sated p within (by rw [here]; rfl))
      | error e => exact .inl (failing rfl rfl)
  · by_cases same : p = place
    · subst same
      rw [there] at sated
      rcases parts.sated sated with before | none | ⟨role, e, rfl, rfl⟩
      · exact onward (sought.sated p within (by rwa [here]))
      · rcases Nat.eq_zero_or_pos p with rfl | behind
        · exact .inr fun m less => absurd less (Nat.not_lt_zero m)
        · obtain ⟨q, rfl, gone⟩ := ordered.ahead found none behind
          refine onward ((sought.sated q (by omega) gone.sated).imp_right fun all m less => ?_)
          rcases Nat.lt_succ_iff_lt_or_eq.mp less with earlier | rfl
          · exact all m earlier
          · exact gone
      · exact .inl (failing rfl rfl)
    · rw [other same] at sated
      exact onward (sought.sated p within sated)
  · by_cases same : p = place
    · subst same
      rw [there] at failure
      rcases parts.failure e failure with before | ⟨role, rfl, own | none | ⟨aside, closed⟩⟩
      · exact blamed (sought.symptoms p e (by rwa [here]) symptom)
      · exact absurd (own.symm.trans symptom) (by decide)
      · exact absurd (none.symm.trans sought.results) (by decide)
      · have at' := ordered.places p role (by rw [here]; rfl)
        rcases sought.closed (p + 1) (at'.inFront aside) closed with before | gone
        · exact blamed before
        · have none := gone p (Nat.lt_succ_self p)
          rw [here] at none
          exact none.elim
    · rw [other same] at failure
      exact blamed (sought.symptoms p e failure symptom)

end Step

theorem Sought.same (sought : Sought o r) (tasks : next.tasks = r.tasks)
    (conduct : next.conduct = r.conduct) (attached : r.floor.Attached next.floor) :
    Sought o next := by
  have task (p : Nat) : next.task p = r.task p := by rw [Run.task, Run.task, tasks]
  have blamed (blamed : r.Blamed) : next.Blamed := by
    rw [Blamed, conduct]
    simp only [task]
    exact blamed
  refine ⟨attached.results.receiving.trans sought.results, fun p within closed => ?_, fun p within => ?_,
    fun p e => ?_, fun e => ?_⟩
  · rw [(attached.links _).receiving] at closed
    simp only [task]
    exact (sought.closed p within closed).imp_left blamed
  · simp only [task]
    exact fun sated => (sought.sated p within sated).imp_left blamed
  · rw [task]
    exact fun failure symptom => blamed (sought.symptoms p e failure symptom)
  · rw [conduct]
    exact fun searching => blamed (sought.searching e searching)

theorem Overlooked.onward {cause : RunError} (overlooked : Overlooked o mutants r cause)
    (step : Step r next) : Overlooked o mutants next cause := by
  obtain ⟨s, before, searching, none, veiled, after⟩ := overlooked
  exact ⟨s, before, searching, none, veiled, after.tail step⟩

theorem Excused.stays (excused : Excused o mutants r) (step : Step r next)
    (before : ¬r.conduct.Undecided) (same : next.conduct.cause? = r.conduct.cause?) :
    ∀ e, next.conduct.cause? = some e → isSymptom e = false ∨ Overlooked o mutants next e :=
  fun e cause => (excused.decided before e (same.symm.trans cause)).imp_right (·.onward step)

theorem Excused.same (excused : Excused o mutants r) (step : Step r next)
    (tasks : next.tasks = r.tasks) (conduct : next.conduct = r.conduct)
    (attached : r.floor.Attached next.floor) : Excused o mutants next where
  length := by rw [tasks, excused.length]
  sought := fun undecided => (excused.sought (conduct ▸ undecided)).same tasks conduct attached
  decided := fun decided => excused.stays step (conduct ▸ decided) (congrArg _ conduct)

theorem preferredOwn {cause e : RunError} (own : isSymptom cause = false ∨ isSymptom e = false) :
    isSymptom (preferred cause e) = false := by
  unfold preferred
  cases first : isSymptom cause with
  | false => exact first
  | true =>
    have second := own.resolve_left (by rw [first]; decide)
    rw [second]
    exact second

theorem joinedFailure {c : Conduct} (undecided : c.Undecided) (e : RunError) :
    ∃ cause, c.joined (.error e) = .searching cause ∧
      (isSymptom e = false → isSymptom cause = false) := by
  cases c with
  | collecting => exact ⟨e, rfl, id⟩
  | searching cause => exact ⟨preferred cause e, rfl, fun own => preferredOwn (.inr own)⟩
  | _ => exact undecided.elim

theorem Sought.joins {outcome : Except RunError Unit} (sought : Sought o r)
    (undecided : r.conduct.Undecided) (found : r.tasks[place]? = some (.left outcome)) :
    Sought o { r with tasks := r.tasks.set place .joined, conduct := r.conduct.joined outcome } := by
  let next : Run := { r with
    tasks := r.tasks.set place .joined, conduct := r.conduct.joined outcome }
  have here := taskFound found
  have there : next.task place = .joined := taskSelf found rfl
  have other {p : Nat} (apart : p ≠ place) : next.task p = r.task p := taskOther rfl apart
  have went : Task.Went o place r.floor next.floor (.left outcome) .joined :=
    (Task.joinWent outcome).1
  have blamed (blamed : r.Blamed) : next.Blamed := by
    rcases blamed with ⟨p, e, ends, own⟩ | ⟨cause, searching, own⟩
    · by_cases same : p = place
      · subst same
        rw [here] at ends
        cases ends
        obtain ⟨cause, joined, keeps⟩ := joinedFailure undecided e
        exact .inr ⟨cause, joined, keeps own⟩
      · exact .inl ⟨p, e, (other same).symm ▸ ends, own⟩
    · refine .inr ?_
      show ∃ e, r.conduct.joined outcome = .searching e ∧ isSymptom e = false
      rw [searching]
      cases outcome with
      | ok u => exact ⟨cause, rfl, own⟩
      | error e => exact ⟨_, rfl, preferredOwn (.inl own)⟩
  have onward {p : Nat} (before : r.Blamed ∨ ∀ m < p, (r.task m).Gone) :
      next.Blamed ∨ ∀ m < p, (next.task m).Gone :=
    before.imp blamed fun all m less => stillGone found rfl went (all m less)
  refine ⟨sought.results, fun p within closed => onward (sought.closed p within closed),
    fun p within sated => onward (sought.sated p within ?_), fun p e failure symptom => ?_,
    fun e searching => blamed ?_⟩
  · by_cases same : p = place
    · subst same
      rw [here]
      trivial
    · exact other same ▸ sated
  · by_cases same : p = place
    · subst same
      have none : next.task p = .joined := there
      rw [none] at failure
      cases failure
    · exact blamed (sought.symptoms p e (other same ▸ failure) symptom)
  · cases conduct : r.conduct with
    | collecting =>
      have searching : r.conduct.joined outcome = .searching e := searching
      rw [conduct] at searching
      cases outcome with
      | ok u => cases searching
      | error cause =>
        cases searching
        cases symptom : isSymptom e with
        | true => exact sought.symptoms place e (by rw [here]; rfl) symptom
        | false => exact .inl ⟨place, e, by rw [here]; rfl, symptom⟩
    | searching cause => exact sought.searching cause conduct
    | _ =>
      rw [conduct] at undecided
      exact undecided.elim

theorem joinedUndecided {c : Conduct} (undecided : c.Undecided) (outcome : Except RunError Unit) :
    (c.joined outcome).Undecided := by
  cases c with
  | collecting => cases outcome <;> trivial
  | searching cause => cases outcome <;> trivial
  | _ => exact undecided.elim

theorem joinedDecided {c : Conduct} (decided : ¬c.Undecided) (outcome : Except RunError Unit) :
    c.joined outcome = c := by
  cases c with
  | collecting => exact absurd trivial decided
  | searching cause => exact absurd trivial decided
  | _ => rfl

theorem concludeCause (r : Run) (outcome : Except RunError (List MutantResult)) :
    ¬(r.conclude outcome).conduct.Early ∧
      ∀ e, (r.conclude outcome).conduct.cause? = some e ↔ outcome = .error e := by
  have disposing : (r.conclude outcome).conduct = .disposingCheckers .asking outcome ∨
      (r.conclude outcome).conduct = .disposingRunners .asking outcome := by
    unfold conclude
    dsimp only
    split
    · exact .inl rfl
    · exact .inr rfl
  have known (e : RunError) : (match outcome with | .error e => some e | .ok _ => none) = some e ↔
      outcome = .error e := by
    cases outcome with
    | ok results => exact ⟨fun none => (by cases none), fun none => by cases none⟩
    | error cause => exact ⟨fun same => (by cases same; rfl), fun same => by cases same; rfl⟩
  rcases disposing with conduct | conduct <;> rw [conduct] <;> refine ⟨id, fun e => ?_⟩ <;>
    rw [← known e] <;> cases outcome <;> rfl

theorem Excused.decidedOn (excused : Excused o mutants r) (step : Step r next)
    (tasks : next.tasks = r.tasks) (before : ¬r.conduct.Undecided) (after : ¬next.conduct.Undecided)
    (same : next.conduct.cause? = r.conduct.cause?) : Excused o mutants next where
  length := tasks ▸ excused.length
  sought := fun undecided => absurd undecided after
  decided := fun _ => excused.stays step before same

theorem Excused.own (excused : Excused o mutants r) (steps : Steps (start o mutants) r)
    (move : next ∈ r.ownMoves) : Excused o mutants next := by
  have step := Step.own move
  cases ownActed move with
  | received collecting taken =>
    obtain ⟨⟨c, found⟩, received, same⟩ := List.mem_map.mp taken
    cases same
    exact excused.same step rfl rfl ⟨Channel.receiveAlike received, fun _ => .refl _⟩
  | @joined place outcome early found =>
    have length : (r.tasks.set place .joined).length = o.last + 1 :=
      List.length_set.trans excused.length
    by_cases undecided : r.conduct.Undecided
    · exact ⟨length, fun _ => (excused.sought undecided).joins undecided found,
        fun decided => absurd (joinedUndecided undecided outcome) decided⟩
    · have same := joinedDecided undecided outcome
      exact ⟨length, fun after => absurd (same ▸ after) undecided,
        fun _ => excused.stays step undecided (congrArg Conduct.cause? same)⟩
  | @aborted cause searching none =>
    refine ⟨excused.length, False.elim, fun _ e same => ?_⟩
    cases same
    have sought := excused.sought (by rw [searching]; trivial)
    rcases sought.searching cause searching with ⟨p, e, ends, own⟩ | ⟨e, also, own⟩
    · cases there : r.task p with
      | left outcome =>
        have found : r.tasks[p]? = some (.left outcome) := taskPresent there Task.noConfusion
        exact absurd (List.any_eq_true.mpr ⟨_, List.mem_of_getElem? found, rfl⟩)
          (Bool.eq_false_iff.mp none)
      | closed outcome =>
        rw [there] at ends
        cases ends
        exact .inr ⟨r, steps, searching, none, ⟨p, e, there, own⟩, .refl _⟩
      | _ =>
        rw [there] at ends
        cases ends
    · cases searching.symm.trans also
      exact .inl own
  | cut aborting found cut =>
    have decided : ¬r.conduct.Undecided := by rw [aborting]; exact id
    exact ⟨(List.length_set ..).trans excused.length, fun undecided => absurd undecided decided,
      fun _ => excused.stays step decided rfl⟩
  | @concluded outcome ended all =>
    obtain ⟨late, cause⟩ := r.concludeCause outcome
    refine ⟨excused.length, fun undecided => absurd undecided.early late, fun _ e failed => ?_⟩
    have failed := (cause e).mp failed
    cases ended with
    | results collecting =>
      unfold verdict at failed
      split at failed <;> cases failed
      exact .inl rfl
    | @failure first aborting =>
      cases failed
      exact (excused.decided (by rw [aborting]; exact id) e (by rw [aborting]; rfl)).imp_right
        (·.onward step)
  | @onCheckers _ _ outcome _ disposing moved =>
    exact excused.decidedOn step rfl (by rw [disposing]; exact id) id
      (by rw [disposing]; cases outcome <;> rfl)
  | @checkersDone _ _ outcome _ disposing moved =>
    exact excused.decidedOn step rfl (by rw [disposing]; exact id) id
      (by rw [disposing]; cases outcome <;> rfl)
  | @onRunners _ _ outcome _ disposing moved =>
    exact excused.decidedOn step rfl (by rw [disposing]; exact id) id
      (by rw [disposing]; cases outcome <;> rfl)
  | @runnersDone _ _ outcome _ disposing moved =>
    exact excused.decidedOn step rfl (by rw [disposing]; exact id) id
      (by rw [disposing]; cases outcome <;> rfl)
  | @reported outcome reporting =>
    exact excused.decidedOn step rfl (by rw [reporting]; exact id) id
      (by rw [reporting]; cases outcome <;> rfl)

theorem Excused.task (excused : Excused o mutants r) (ordered : Ordered o r)
    (move : next ∈ r.taskMoves place) : Excused o mutants next := by
  have step := Step.task place move
  obtain ⟨t, u, f, found, moved, rfl⟩ := taskActed move
  exact ⟨(List.length_set ..).trans excused.length, fun undecided =>
    (excused.sought undecided).task ordered found rfl rfl (Task.movesWent moved).1
      (Task.movesParts moved) excused.length, fun decided => excused.stays step decided rfl⟩

theorem startExcused (o : Orders) (mutants : List CoveredMutant) :
    Excused o mutants (start o mutants) := by
  have many : (o.roles mutants).length = o.last + 1 := by
    simp only [Orders.roles, Orders.last, List.length_map, List.length_append, List.length_cons,
      List.length_nil]
    split <;> simp only [List.length_cons, List.length_nil] <;> omega
  refine ⟨(List.length_map _).trans many, fun _ => ⟨rfl, fun p within closed => ?_,
    fun p within sated => .inr ?_, fun p e failure => ?_, fun e none => by cases none⟩,
    fun decided => absurd trivial decided⟩
  · cases p with
    | zero => exact .inr fun m less => absurd less (Nat.not_lt_zero m)
    | succ k =>
      have link : (start o mutants).floor.link (k + 1) = { capacity := o.capacity } := by
        rw [Floor.link, start, Orders.floor, List.getD_cons_succ, List.getD_eq_getElem?_getD,
          List.getElem?_replicate, if_pos (by omega)]
        rfl
      rw [link] at closed
      cases closed
  · have inside : p < (o.roles mutants).length := by omega
    have found : (start o mutants).tasks[p]? = ((o.roles mutants)[p]?).map .working :=
      List.getElem?_map
    rw [List.getElem?_eq_getElem inside] at found
    obtain ⟨at', fresh⟩ := o.rolesAt (List.getElem?_eq_getElem inside)
    rw [taskFound found] at sated
    generalize (o.roles mutants)[p] = role at at' fresh sated
    cases role with
    | ignoring rest =>
      obtain rfl : p = 0 := at'
      exact fun m less => absurd less (Nat.not_lt_zero m)
    | checking plan stage =>
      obtain rfl : stage = .draining [] := fresh
      cases sated
    | releasing share h =>
      obtain rfl : h = .forwarding none := fresh
      exact sated.elim
    | covering held => exact sated.elim
    | testing planOf t =>
      obtain rfl : t = .running { feed := .open [] } := fresh
      cases sated
  · rcases startTask o mutants p with none | ⟨role, here, -⟩
    · rw [none] at failure
      cases failure
    · rw [here] at failure
      cases failure

theorem excusedSteps (steps : Steps (start o mutants) r) : Excused o mutants r := by
  induction steps with
  | refl => exact startExcused o mutants
  | tail before step excused =>
    cases step with
    | own move => exact excused.own before move
    | task place move => exact excused.task (reachSteps before).1.custody.ordered move
    | checker x outcome waits =>
      exact excused.same (.checker x outcome waits) rfl rfl (.same rfl rfl)
    | runner x outcome waits =>
      exact excused.same (.runner x outcome waits) rfl rfl (.same rfl rfl)

end Run

end MutationPipeline
