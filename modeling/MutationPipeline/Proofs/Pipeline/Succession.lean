import MutationPipeline.Proofs.Pipeline.Barrier
import MutationPipeline.Proofs.Pipeline.Conducts

/-! Who is at work in a run. A checker has begun its work only when all tasks before it are gone, also
when tasks are being cut off; and as long as none is, whoever has seen the end of its input is the
first of all that are still there. -/
namespace MutationPipeline

namespace Task
variable {place : Nat} {f f' : Floor} {t u : Task} {o : Orders}

def role? : Task → Option Role
  | .working role | .leaving role _ | .closing role _ => some role
  | _ => none

def Gone : Task → Prop
  | .closed _ | .left _ | .joined => True
  | _ => False

def Working : Task → Prop
  | .working _ => True
  | _ => False

def Puts : Task → Prop
  | .working role => role.Sends
  | _ => False

def Sent : Task → Prop
  | .working role | .leaving role _ => role.Sends
  | _ => True

def Fed (c : Channel CoveredMutant) : Task → Prop
  | .working role => role.Fed c
  | _ => False

def Busy : Task → Prop
  | .working role | .leaving role _ => role.Busy
  | _ => False

def Began : Task → Prop
  | .working role => role.Busy
  | _ => True

def Disposes : Task → Prop
  | .working role => role.Disposes
  | _ => False

def Modest : Task → Prop
  | .working role | .leaving role _ => role.Modest
  | _ => True

structure Went (o : Orders) (place : Nat) (f f' : Floor) (t u : Task) : Prop where
  stays : (∀ role, t.role? = some role → role.At o place) →
    ∀ role, u.role? = some role → role.At o place
  length : f'.links.length = f.links.length
  senders : ∀ p, (f'.link p).senders = (f.link p).senders ∨ (p = place + 1 ∧ u.Gone)
  items : ∀ p, (f'.link p).items ≠ [] → (f.link p).items ≠ [] ∨ (p = place + 1 ∧ t.Puts)
  fed : u.Fed (f'.link place) → t.Fed (f.link place)
  sent : t.Sent → u.Sent
  working : u.Working → t.Working
  gone : t.Gone → u.Gone
  busy : u.Busy → t.Busy ∨ ((f.link place).senders = 0 ∧ t.Fed (f.link place))
  modest : t.Modest → u.Modest

structure Patient (place : Nat) (f : Floor) (t u : Task) : Prop where
  began : u.Began → t.Began ∨ (f.link place).senders = 0 ∨
    ∃ role, t.role? = some role ∧ ∀ plan stage, role ≠ .checking plan stage
  disposes : u.Disposes → t.Disposes ∨ (f.link place).senders = 0

theorem Fed.fewer {c d : Channel CoveredMutant} (fed : t.Fed d)
    (items : d.items ≠ [] → c.items ≠ []) : t.Fed c := by
  cases t with
  | working role =>
    cases role with
    | checking plan stage =>
      cases stage with
      | draining batch => exact Or.imp_right items fed
      | _ => trivial
    | _ => exact fed
  | _ => exact fed

theorem Fed.checks {c : Channel CoveredMutant} (fed : t.Fed c) :
    ∃ plan stage, t = .working (.checking plan stage) := by
  cases t with
  | working role =>
    cases role with
    | checking plan stage => exact ⟨plan, stage, rfl⟩
    | _ => exact fed.elim
  | _ => exact fed.elim

theorem closeLinks (place : Nat) (role : Role) (f : Floor) :
    (role.close place f).links.length = f.links.length ∧
    (∀ p, ((role.close place f).link p).items ≠ [] → (f.link p).items ≠ []) ∧
    ∀ p, p ≠ place + 1 → ((role.close place f).link p).senders = (f.link p).senders := by
  let front := Floor.setLink place (f.link place).dropReceiver f
  have first : Floor.Passed place False f front := .set rfl fun some => absurd rfl some
  have links : (role.close place f).links =
      (Floor.setLink (place + 1) (front.link (place + 1)).dropSender front).links := by
    unfold Role.close
    dsimp only
    split <;> rfl
  have same (p : Nat) : (role.close place f).link p =
      (Floor.setLink (place + 1) (front.link (place + 1)).dropSender front).link p := by
    rw [Floor.link, Floor.link, links]
  refine ⟨?_, fun p some => ?_, fun p other => ?_⟩
  · rw [links]
    exact List.length_set.trans first.length
  · rw [same] at some
    refine (first.items p ?_).elim id fun sent => sent.2.elim
    by_cases behind : p = place + 1
    · subst behind
      rcases Floor.linkSetSelf (place + 1) (front.link (place + 1)).dropSender front with
        here | ⟨none, -⟩
      · rw [here] at some
        exact some
      · exact absurd none some
    · rwa [Floor.linkSetOther behind] at some
  · rw [same, Floor.linkSetOther other]
    exact first.senders p

theorem vacateLinks (role : Role) (f : Floor) : (role.vacate f).links = f.links := by
  unfold Role.vacate
  split <;> rfl

theorem Went.still (role : u.role? = t.role? ∨ u.role? = none) (unfed : ∀ c, ¬u.Fed c)
    (links : f'.links = f.links) (sent : t.Sent → u.Sent) (stopped : ¬u.Working)
    (gone : t.Gone → u.Gone) (busy : u.Busy → t.Busy) (modest : t.Modest → u.Modest) :
    Went o place f f' t u where
  stays := by
    intro here r own
    rcases role with same | none
    · exact here r (same ▸ own)
    · rw [none] at own
      cases own
  length := by rw [links]
  senders := fun p => .inl (by rw [Floor.link, Floor.link, links])
  items := fun p some => .inl (by rwa [Floor.link, links] at some)
  fed := fun fed => absurd fed (unfed _)
  sent := sent
  working := fun working => absurd working stopped
  gone := gone
  busy := fun begun => .inl (busy begun)
  modest := modest

theorem workingWent {role : Role} {n : Next Role (Except RunError Unit)}
    (move : (f', n) ∈ role.moves place f) {u : Task}
    (after : (∃ next, n = .go next ∧ u = .working next) ∨
      ((∀ next, n ≠ .go next) ∧ ∃ outcome, u = .leaving role outcome)) :
    Went o place f f' (.working role) u ∧ Patient place f (.working role) u := by
  have passed := Role.movesPassed move
  rcases after with ⟨next, rfl, rfl⟩ | ⟨ended, outcome, rfl⟩
  · have onward := Role.movesOnward move
    refine ⟨⟨fun here r own => ?_, passed.length, fun p => .inl (passed.senders p), passed.items,
      onward.fed, onward.sends, id, id, onward.begins, onward.modest⟩, fun began => ?_,
      onward.disposes⟩
    · cases own
      exact onward.stays o (here role rfl)
    · exact (onward.begins began).imp_right fun ended => .inl ended.1
  · refine ⟨⟨fun here r own => ?_, passed.length, fun p => .inl (passed.senders p), passed.items,
      False.elim, id, False.elim, False.elim, .inl, id⟩, fun _ => ?_, fun disposes => disposes.elim⟩
    · cases own
      exact here role rfl
    · cases role with
      | checking plan stage =>
        cases drains : stage.isDraining with
        | true => exact .inr (.inl (Role.movesEnds move ended drains))
        | false => exact .inl drains
      | _ => exact .inr (.inr ⟨_, rfl, fun _ _ same => by cases same⟩)

theorem movesWent (move : (f', u) ∈ t.moves place f) :
    Went o place f f' t u ∧ Patient place f t u := by
  cases t with
  | working role =>
    obtain ⟨⟨g, n⟩, inner, same⟩ := List.mem_map.mp move
    cases n with
    | go next => cases same; exact workingWent inner (.inl ⟨_, rfl, rfl⟩)
    | done outcome =>
      cases same
      exact workingWent inner (.inr ⟨fun _ same => (by cases same), _, rfl⟩)
    | panicked =>
      cases same
      exact workingWent inner (.inr ⟨fun _ same => (by cases same), _, rfl⟩)
  | leaving role outcome =>
    cases List.mem_singleton.mp move
    exact ⟨.still (.inl rfl) (fun _ => id) (vacateLinks role f) (fun _ => trivial) id id False.elim
      fun _ => trivial, fun _ => .inl trivial, fun disposes => disposes.elim⟩
  | closing role outcome =>
    cases List.mem_singleton.mp move
    obtain ⟨length, items, senders⟩ := closeLinks place role f
    refine ⟨⟨fun _ _ none => (by cases none), length, fun p => ?_, fun p some => .inl (items p some),
      False.elim, fun _ => trivial, False.elim, fun _ => trivial, False.elim,
      fun _ => trivial⟩,
      fun _ => .inl trivial, fun disposes => disposes.elim⟩
    by_cases behind : p = place + 1
    · exact .inr ⟨behind, trivial⟩
    · exact .inl (senders p behind)
  | closed outcome =>
    cases List.mem_singleton.mp move
    exact ⟨.still (.inr rfl) (fun _ => id) rfl id id id id id, fun _ => .inl trivial,
      fun disposes => disposes.elim⟩
  | left outcome => cases move
  | joined => cases move

theorem cutWent (cut : (f', u) ∈ t.cut f) : Went o place f f' t u := by
  cases t with
  | working role =>
    simp only [Task.cut] at cut
    split at cut
    · cases List.mem_singleton.mp cut
      exact .still (.inl rfl) (fun _ => id) rfl id id id id id
    · cases cut
  | _ => cases cut

theorem joinWent (outcome : Except RunError Unit) :
    Went o place f f (.left outcome) .joined ∧ Patient place f (.left outcome) .joined :=
  ⟨.still (.inr rfl) (fun _ => id) rfl id id id id id, fun _ => .inl trivial,
    fun disposes => disposes.elim⟩

end Task

namespace Conduct

/-- It shows that no task is being cut off, or was. -/
def Uncut : Conduct → Prop
  | .collecting | .searching _ => True
  | .aborting _ => False
  | .disposingCheckers _ outcome | .disposingRunners _ outcome | .reporting outcome
  | .finished outcome => outcome.isOk = true

def Modest : Conduct → Prop
  | .disposingCheckers d _ => d.Begins fun _ _ => False
  | _ => True

end Conduct

namespace Run
variable {o : Orders} {place : Nat} {r next : Run} {t u : Task}

def task (r : Run) (place : Nat) : Task := r.tasks.getD place .joined

theorem taskFound (found : r.tasks[place]? = some t) : r.task place = t := by
  rw [task, List.getD_eq_getElem?_getD, found]
  rfl

theorem taskNone (none : r.tasks[place]? = none) : r.task place = .joined := by
  rw [task, List.getD_eq_getElem?_getD, none]
  rfl

theorem taskPresent (here : r.task place = t) (present : t ≠ .joined) :
    r.tasks[place]? = some t := by
  cases found : r.tasks[place]? with
  | none => exact absurd (here.symm.trans (taskNone found)) present
  | some u => rw [← here, taskFound found]

theorem taskSelf (found : r.tasks[place]? = some t) (tasks : next.tasks = r.tasks.set place u) :
    next.task place = u := by
  obtain ⟨inside, -⟩ := List.getElem?_eq_some_iff.mp found
  rw [task, tasks, List.getD_eq_getElem?_getD, List.getElem?_set_self inside]
  rfl

theorem taskOther {p : Nat} (tasks : next.tasks = r.tasks.set place u) (other : p ≠ place) :
    next.task p = r.task p := by
  rw [task, task, tasks, List.getD_eq_getElem?_getD, List.getD_eq_getElem?_getD,
    List.getElem?_set_ne other.symm]

structure Ordered (o : Orders) (r : Run) : Prop where
  places : ∀ p role, (r.task p).role? = some role → role.At o p
  links : r.floor.links.length = r.tasks.length
  senders : ∀ p, p + 1 < r.tasks.length → (r.floor.link (p + 1)).senders = 0 → (r.task p).Gone
  fed : ∀ p, (r.task (p + 1)).Fed (r.floor.link (p + 1)) →
    (∀ m < p, (r.task m).Gone) ∧ (r.task p).Sent
  busy : ∀ p, (r.task p).Busy → ∀ m < p, (r.task m).Gone
  modest : ∀ p, (r.task p).Modest
  conduct : r.conduct.Modest

theorem Ordered.same (ordered : Ordered o r) (tasks : next.tasks = r.tasks)
    (links : next.floor.links = r.floor.links) (modest : next.conduct.Modest) :
    Ordered o next := by
  have task (p : Nat) : next.task p = r.task p := by rw [Run.task, Run.task, tasks]
  have link (p : Nat) : next.floor.link p = r.floor.link p := by
    rw [Floor.link, Floor.link, links]
  refine ⟨fun p => ?_, ?_, fun p => ?_, fun p => ?_, fun p => ?_, fun p => ?_, modest⟩
  · rw [task]
    exact ordered.places p
  · rw [links, tasks]
    exact ordered.links
  · rw [task, link, tasks]
    exact ordered.senders p
  · simp only [task, link]
    exact ordered.fed p
  · simp only [task]
    exact ordered.busy p
  · rw [task]
    exact ordered.modest p

section Went
variable (ordered : Ordered o r) (found : r.tasks[place]? = some t)
  (tasks : next.tasks = r.tasks.set place u)
include ordered found

theorem Ordered.ahead (senders : (r.floor.link place).senders = 0) (behind : 0 < place) :
    ∃ p, place = p + 1 ∧ (r.task p).Gone := by
  obtain ⟨inside, -⟩ := List.getElem?_eq_some_iff.mp found
  obtain ⟨p, rfl⟩ : ∃ p, place = p + 1 := ⟨place - 1, by omega⟩
  exact ⟨p, rfl, ordered.senders p inside senders⟩

theorem Ordered.putter {plan : StagePlan} {stage : Stage} (puts : t.Puts)
    (checks : r.task (place + 1) = .working (.checking plan stage)) :
    (place = 0 ∧ t.Working) ∨ t.Busy := by
  have here := taskFound found
  obtain ⟨-, checker, -⟩ := ordered.places (place + 1) (.checking plan stage) (by rw [checks]; rfl)
  obtain ⟨inside, -⟩ := List.getElem?_eq_some_iff.mp checker
  cases t with
  | working role =>
    have at' : role.At o place := ordered.places place role (by rw [here]; rfl)
    cases role with
    | ignoring rest => exact .inl ⟨at', trivial⟩
    | checking plan stage =>
      refine .inr ?_
      have sends : stage.sends = true := puts
      show stage.isDraining = false
      cases stage with
      | draining batch => cases sends
      | _ => rfl
    | releasing share h =>
      have last : place = o.config.checkers.length + 1 := at'.1
      omega
    | covering held =>
      have last := Role.At.behind (.inl at')
      omega
    | testing planOf t =>
      have last := Role.At.behind (.inr at')
      omega
  | _ => exact puts.elim

theorem Ordered.leads (first : (place = 0 ∧ t.Working) ∨ t.Busy) : ∀ m < place, (r.task m).Gone := by
  rcases first with ⟨rfl, -⟩ | busy
  · exact fun m before => absurd before (Nat.not_lt_zero m)
  · exact ordered.busy place (taskFound found ▸ busy)

variable (went : Task.Went o place r.floor next.floor t u)
include tasks went

omit ordered in
theorem stillGone {m : Nat} (gone : (r.task m).Gone) : (next.task m).Gone := by
  by_cases same : m = place
  · subst same
    rw [taskFound found] at gone
    rw [taskSelf found tasks]
    exact went.gone gone
  · rwa [taskOther tasks same]

theorem Ordered.onward (modest : next.conduct.Modest) : Ordered o next := by
  have here := taskFound found
  have there := taskSelf found tasks
  have still {m : Nat} (gone : (r.task m).Gone) : (next.task m).Gone :=
    stillGone found tasks went gone
  refine ⟨fun p => ?_, ?_, fun p inside none => ?_, fun p fed => ?_, fun p busy => ?_,
    fun p => ?_, modest⟩
  · by_cases same : p = place
    · subst same
      rw [there]
      exact went.stays fun role own => ordered.places p role (by rw [here]; exact own)
    · rw [taskOther tasks same]
      exact ordered.places p
  · rw [tasks, List.length_set, went.length, ordered.links]
  · rw [tasks, List.length_set] at inside
    rcases went.senders (p + 1) with same | ⟨same, gone⟩
    · exact still (ordered.senders p inside (same ▸ none))
    · obtain rfl : p = place := Nat.succ.inj same
      rwa [there]
  · have sent (sent : (r.task p).Sent) : (next.task p).Sent := by
      by_cases same : p = place
      · subst same
        rw [here] at sent
        rw [there]
        exact went.sent sent
      · rwa [taskOther tasks same]
    by_cases same : p + 1 = place
    · subst same
      rw [there] at fed
      obtain ⟨gone, before⟩ := ordered.fed p (by rw [here]; exact went.fed fed)
      exact ⟨fun m less => still (gone m less), sent before⟩
    · rw [taskOther tasks same] at fed
      by_cases put : p = place ∧ t.Puts
      · obtain ⟨rfl, puts⟩ := put
        obtain ⟨plan, stage, checks⟩ := fed.checks
        refine ⟨fun m less => still (ordered.leads found (ordered.putter found puts checks) m less),
          sent ?_⟩
        rw [here]
        cases t with
        | working role => exact puts
        | _ => exact puts.elim
      · have items : (next.floor.link (p + 1)).items ≠ [] → (r.floor.link (p + 1)).items ≠ [] := by
          intro some
          refine (went.items (p + 1) some).elim id fun ⟨behind, puts⟩ => ?_
          exact absurd ⟨Nat.succ.inj behind, puts⟩ put
        obtain ⟨gone, before⟩ := ordered.fed p (fed.fewer items)
        exact ⟨fun m less => still (gone m less), sent before⟩
  · intro m less
    refine still ?_
    by_cases same : p = place
    · subst same
      rw [there] at busy
      rcases went.busy busy with before | ⟨ended, fed⟩
      · exact ordered.busy p (by rwa [here]) m less
      · obtain ⟨q, rfl, ahead⟩ := ordered.ahead found ended (Nat.zero_lt_of_lt less)
        rcases Nat.lt_succ_iff_lt_or_eq.mp less with earlier | rfl
        · exact (ordered.fed q (by rwa [here])).1 m earlier
        · exact ahead
    · rw [taskOther tasks same] at busy
      exact ordered.busy p busy m less
  · by_cases same : p = place
    · subst same
      rw [there]
      exact went.modest (here ▸ ordered.modest p)
    · rw [taskOther tasks same]
      exact ordered.modest p

end Went

structure Upstream (o : Orders) (r : Run) : Prop where
  began : ∀ p < r.tasks.length, p ≤ o.config.checkers.length → (r.task p).Began →
    ∀ m < p, (r.task m).Gone
  disposes : (r.task (o.config.checkers.length + 1)).Disposes →
    ∀ m ≤ o.config.checkers.length, (r.task m).Gone

theorem Upstream.same (upstream : Upstream o r) (tasks : next.tasks = r.tasks) :
    Upstream o next := by
  have task (p : Nat) : next.task p = r.task p := by rw [Run.task, Run.task, tasks]
  refine ⟨fun p => ?_, ?_⟩
  · rw [tasks]
    simp only [task]
    exact upstream.began p
  · simp only [task]
    exact upstream.disposes

theorem Upstream.onward (upstream : Upstream o r) (ordered : Ordered o r)
    (found : r.tasks[place]? = some t) (tasks : next.tasks = r.tasks.set place u)
    (went : Task.Went o place r.floor next.floor t u)
    (patient : Task.Patient place r.floor t u) : Upstream o next := by
  have here := taskFound found
  have there := taskSelf found tasks
  have still {m : Nat} (gone : (r.task m).Gone) : (next.task m).Gone :=
    stillGone found tasks went gone
  have began {p : Nat} (gone : (r.task p).Gone) : (r.task p).Began := by
    cases task : r.task p with
    | working role => exact (task ▸ gone : (Task.working role).Gone).elim
    | _ => trivial
  have ended (checkers : place ≤ o.config.checkers.length + 1)
      (none : (r.floor.link place).senders = 0) : ∀ m < place, (r.task m).Gone := by
    intro m less
    obtain ⟨q, rfl, ahead⟩ := ordered.ahead found none (Nat.zero_lt_of_lt less)
    obtain ⟨inside, -⟩ := List.getElem?_eq_some_iff.mp found
    rcases Nat.lt_succ_iff_lt_or_eq.mp less with earlier | rfl
    · exact upstream.began q (Nat.lt_of_succ_lt inside) (Nat.le_of_succ_le_succ checkers)
        (began ahead) m earlier
    · exact ahead
  refine ⟨fun p inside among begun m less => still ?_, fun disposes m among => still ?_⟩
  · rw [tasks, List.length_set] at inside
    by_cases same : p = place
    · subst same
      rw [there] at begun
      rcases patient.began begun with before | none | ⟨role, own, other⟩
      · exact upstream.began p inside among (by rwa [here]) m less
      · exact ended (Nat.le_succ_of_le among) none m less
      · have at' := ordered.places p role (by rw [here]; exact own)
        cases role with
        | ignoring rest =>
          obtain rfl : p = 0 := at'
          exact absurd less (Nat.not_lt_zero m)
        | checking plan stage => exact absurd rfl (other plan stage)
        | releasing share h =>
          have last : p = o.config.checkers.length + 1 := at'.1
          omega
        | covering held =>
          have last := Role.At.behind (.inl at')
          omega
        | testing planOf t =>
          have last := Role.At.behind (.inr at')
          omega
    · rw [taskOther tasks same] at begun
      exact upstream.began p inside among begun m less
  · by_cases same : o.config.checkers.length + 1 = place
    · subst same
      rw [there] at disposes
      rcases patient.disposes disposes with before | none
      · exact upstream.disposes (by rwa [here]) m among
      · exact ended (Nat.le_refl _) none m (Nat.lt_succ_of_le among)
    · rw [taskOther tasks same] at disposes
      exact upstream.disposes disposes m among

end Run

end MutationPipeline

/-! How a run begins: all roles are at their places, nothing has come to them yet, and nothing is in
the channels. -/
namespace MutationPipeline
variable {o : Orders}

namespace Orders
variable {mutants : List CoveredMutant} {place : Nat} {role : Role}

def Fresh : Role → Prop
  | .checking _ stage => stage = .draining []
  | .releasing _ h => h = .forwarding none
  | .covering held => held = none
  | .testing _ t => t = .running { feed := .open [] }
  | .ignoring _ => True

theorem rolesAt (o : Orders) (found : (o.roles mutants)[place]? = some role) :
    role.At o place ∧ Fresh role := by
  cases place with
  | zero =>
    cases found
    exact ⟨rfl, trivial⟩
  | succ k =>
    simp only [roles, List.append_assoc, List.cons_append, List.nil_append,
      List.getElem?_cons_succ] at found
    rw [List.getElem?_append, List.length_map] at found
    split at found
    · next inside =>
      rw [List.getElem?_map] at found
      obtain ⟨name, here, rfl⟩ := Option.map_eq_some_iff.mp found
      exact ⟨⟨Nat.succ_pos k, here, rfl⟩, rfl⟩
    · next outside =>
      obtain ⟨j, rfl⟩ := Nat.exists_eq_add_of_le (Nat.le_of_not_lt outside)
      rw [Nat.add_sub_cancel_left] at found
      by_cases has : o.hasCheckers = true
      · rw [if_pos has] at found
        rcases j with _ | _ | _ | j <;> cases found
        · exact ⟨⟨rfl, rfl, has⟩, rfl⟩
        · exact ⟨by rw [Role.At, last, if_pos has], rfl⟩
        · exact ⟨by rw [Role.At, last, if_pos has], rfl⟩
      · rw [if_neg has] at found
        rcases j with _ | _ | j <;> cases found
        · exact ⟨by rw [Role.At, last, if_neg has], rfl⟩
        · exact ⟨by rw [Role.At, last, if_neg has], rfl⟩

theorem floorEmpty (o : Orders) (roles : List Role) (place : Nat) :
    ((o.floor roles).link place).items = [] := by
  unfold Floor.link floor
  cases place with
  | zero => rfl
  | succ k =>
    rw [List.getD_cons_succ, List.getD_eq_getElem?_getD, List.getElem?_replicate]
    split <;> rfl

end Orders

namespace Run
variable {r next : Run} {mutants : List CoveredMutant} {place : Nat} {t u : Task}

theorem startTask (o : Orders) (mutants : List CoveredMutant) (p : Nat) :
    (start o mutants).task p = .joined ∨
      ∃ role, (start o mutants).task p = .working role ∧ role.At o p ∧ Orders.Fresh role := by
  have found : (start o mutants).tasks[p]? = ((o.roles mutants)[p]?).map .working := List.getElem?_map
  cases here : (o.roles mutants)[p]? with
  | none =>
    rw [here] at found
    exact .inl (taskNone found)
  | some role =>
    rw [here] at found
    exact .inr ⟨role, taskFound found, o.rolesAt here⟩

theorem startIdle (o : Orders) (mutants : List CoveredMutant) (p : Nat) :
    ¬((start o mutants).task p).Busy := by
  rcases startTask o mutants p with none | ⟨role, here, -, fresh⟩
  · rw [none]
    exact id
  · rw [here]
    cases role with
    | checking plan stage =>
      obtain rfl : stage = .draining [] := fresh
      exact fun busy => by cases busy
    | _ => exact id

theorem startOrdered (o : Orders) (mutants : List CoveredMutant) : Ordered o (start o mutants) where
  places := by
    intro p role own
    rcases startTask o mutants p with none | ⟨role', here, place, -⟩
    · rw [none] at own
      cases own
    · rw [here] at own
      cases own
      exact place
  links := by
    simp only [start, Orders.floor, Orders.roles, List.length_cons, List.length_replicate,
      List.length_map, List.length_append, List.length_nil]
    omega
  senders := by
    intro p inside none
    have many : p < (o.roles mutants).length - 1 := by
      have length : (start o mutants).tasks.length = (o.roles mutants).length := List.length_map _
      omega
    have link : (start o mutants).floor.link (p + 1) = { capacity := o.capacity } := by
      rw [Floor.link, start, Orders.floor, List.getD_cons_succ, List.getD_eq_getElem?_getD,
        List.getElem?_replicate, if_pos many]
      rfl
    rw [link] at none
    cases none
  fed := by
    intro p fed
    obtain ⟨plan, stage, checks⟩ := fed.checks
    rcases startTask o mutants (p + 1) with none | ⟨role, here, -, fresh⟩
    · rw [none] at checks
      cases checks
    · rw [here] at checks
      cases checks
      obtain rfl : stage = .draining [] := fresh
      rw [here] at fed
      rcases fed with some | some
      · exact absurd rfl some
      · exact absurd (o.floorEmpty _ _) some
  busy := fun p busy => absurd busy (startIdle o mutants p)
  modest := by
    intro p
    rcases startTask o mutants p with none | ⟨role, here, -, fresh⟩
    · rw [none]
      trivial
    · rw [here]
      cases role with
      | releasing share h =>
        obtain rfl : h = .forwarding none := fresh
        trivial
      | _ => trivial
  conduct := trivial

end Run

end MutationPipeline
