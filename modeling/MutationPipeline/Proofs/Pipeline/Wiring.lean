import MutationPipeline.Proofs.Pipeline.Receivers

/-! How the tasks of a run are connected. Behind a task that is gone nobody sends any more and in front of
it nobody receives, and a channel that somebody receives from has room for one item at least. -/
namespace MutationPipeline
variable {o : Orders} {place : Nat} {f f' : Floor}

theorem Role.movesReports {role next : Role} (move : (f', .go next) ∈ role.moves place f) :
    next.reports = role.reports := by
  have same := Role.movesRank move
  cases role <;> cases next <;> first | rfl | cases same

namespace Task
variable {t u : Task}

def reports : Task → Bool
  | .working role | .leaving role _ | .closing role _ => role.reports
  | _ => false

structure Closes (place : Nat) (f f' : Floor) (t u : Task) : Prop where
  results : f'.results.capacity = f.results.capacity
  reporters : f'.results.senders + (t.reports.toNat - u.reports.toNat) = f.results.senders ∨
    f'.results.senders = 0
  fewer : u.reports.toNat ≤ t.reports.toNat
  capacity : ∀ p, (f'.link p).capacity = (f.link p).capacity
  senders : ∀ p, (f'.link p).senders ≤ (f.link p).senders
  receiving : ∀ p, (f'.link p).receiving = true → (f.link p).receiving = true
  last : u.Gone → t.Gone ∨ ((f'.link place).receiving = false ∧
    (f'.link (place + 1)).senders = (f.link (place + 1)).senders - 1)

theorem Closes.attached (attached : f.Attached f') (reports : u.reports = t.reports)
    (stays : u.Gone → t.Gone) : Closes place f f' t u where
  results := attached.results.capacity
  reporters := .inl (by rw [reports, Nat.sub_self]; exact attached.results.senders)
  fewer := Nat.le_of_eq (by rw [reports])
  capacity := fun p => (attached.links p).capacity
  senders := fun p => Nat.le_of_eq (attached.links p).senders
  receiving := fun p receives => (attached.links p).receiving.symm.trans receives
  last := fun gone => .inl (stays gone)

theorem movesCloses (move : (f', u) ∈ t.moves place f) : Closes place f f' t u := by
  cases t with
  | working role =>
    obtain ⟨⟨g, n⟩, inner, same⟩ := List.mem_map.mp move
    have attached := (Role.movesAttached inner).1
    cases n with
    | go next => cases same; exact .attached attached (Role.movesReports inner) id
    | done r => cases same; exact .attached attached rfl id
    | panicked => cases same; exact .attached attached rfl id
  | leaving role outcome =>
    cases List.mem_singleton.mp move
    have results : (role.vacate f).results = f.results := by
      unfold Role.vacate
      split <;> rfl
    exact .attached (.same results (vacateLinks role f)) rfl id
  | closing role outcome =>
    cases List.mem_singleton.mp move
    have link := role.closeLink place f
    have results : (role.close place f).results.capacity = f.results.capacity ∧
        (role.close place f).results.senders = f.results.senders - role.reports.toNat := by
      unfold Role.close
      dsimp only
      split
      · next reports => rw [reports]; exact ⟨rfl, rfl⟩
      · next silent => rw [Bool.eq_false_iff.mpr silent]; exact ⟨rfl, rfl⟩
    refine ⟨results.1, ?_, Nat.zero_le _, fun p => ?_, fun p => ?_, fun p => ?_, fun _ => .inr ⟨?_, ?_⟩⟩
    · rw [results.2]
      show _ - role.reports.toNat + (role.reports.toNat - 0) = _ ∨ _
      omega
    · rw [link]
      split
      · rfl
      · split <;> rfl
    · rw [link]
      split
      · exact Nat.sub_le _ 1
      · split <;> exact Nat.le_refl _
    · rw [link]
      split
      · exact id
      · split
        · exact fun none => by cases none
        · exact id
    · rw [link, if_neg (Nat.ne_of_lt (Nat.lt_succ_self place)), if_pos rfl]
      rfl
    · rw [link, if_pos rfl]
      rfl
  | closed outcome =>
    cases List.mem_singleton.mp move
    exact .attached (.same rfl rfl) rfl fun _ => trivial
  | _ => cases move

end Task

namespace Run
variable {r next : Run} {t u : Task} {mutants : List CoveredMutant}

structure Wired (o : Orders) (r : Run) : Prop where
  results : 0 < r.floor.results.capacity
  reporters : r.floor.results.senders ≤ r.tasks.countP Task.reports
  capacity : ∀ p, (r.floor.link p).receiving = true → 0 < (r.floor.link p).capacity
  single : ∀ p, (r.floor.link p).senders ≤ 1
  deaf : ∀ p, (r.task p).Gone → (r.floor.link p).receiving = false
  silent : ∀ p, (r.task p).Gone → (r.floor.link (p + 1)).senders = 0
  orders : r.orders = o
  checkers : ∀ d outcome, r.conduct = .disposingCheckers d outcome → o.hasCheckers = true

theorem startLink (o : Orders) (mutants : List CoveredMutant) (p : Nat) :
    (start o mutants).floor.link p = Floor.noLink ∨
      ((start o mutants).floor.link p = { capacity := o.capacity } ∧ 0 < p ∧
        p < (start o mutants).tasks.length) := by
  have length : (start o mutants).tasks.length = (o.roles mutants).length := List.length_map _
  cases p with
  | zero => exact .inl rfl
  | succ k =>
    by_cases inside : k < (o.roles mutants).length - 1
    · refine .inr ⟨?_, Nat.succ_pos k, by omega⟩
      rw [Floor.link, start, Orders.floor, List.getD_cons_succ, List.getD_eq_getElem?_getD,
        List.getElem?_replicate, if_pos inside]
      rfl
    · refine .inl ?_
      rw [Floor.link, start, Orders.floor, List.getD_cons_succ, List.getD_eq_getElem?_getD,
        List.getElem?_replicate, if_neg inside]
      rfl

theorem startGone (o : Orders) (mutants : List CoveredMutant) {p : Nat}
    (gone : ((start o mutants).task p).Gone) : (start o mutants).tasks.length ≤ p := by
  by_contra inside
  have found := List.getElem?_eq_getElem (Nat.lt_of_not_le inside)
  rw [taskFound found] at gone
  obtain ⟨role, -, same⟩ := List.mem_map.mp (List.mem_of_getElem? found)
  rw [← same] at gone
  exact gone.elim

theorem startWired (o : Orders) (mutants : List CoveredMutant) : Wired o (start o mutants) where
  results := Nat.lt_of_lt_of_le Nat.one_pos (Nat.le_max_right _ _)
  reporters := by
    refine Nat.le_of_eq ?_
    show ((o.roles mutants).filter Role.reports).length = ((o.roles mutants).map Task.working).countP _
    rw [List.countP_map, List.countP_eq_length_filter]
    rfl
  capacity := by
    intro p receives
    rcases startLink o mutants p with none | ⟨own, -, -⟩
    · rw [none] at receives
      cases receives
    · rw [own]
      exact Nat.lt_of_lt_of_le Nat.one_pos (Nat.le_max_right _ _)
  single := by
    intro p
    rcases startLink o mutants p with none | ⟨own, -, -⟩
    · rw [none]
      exact Nat.zero_le 1
    · exact Nat.le_of_eq (by rw [own])
  deaf := by
    intro p gone
    have outside := startGone o mutants gone
    rcases startLink o mutants p with none | ⟨-, -, inside⟩
    · rw [none]
      rfl
    · omega
  silent := by
    intro p gone
    have outside := startGone o mutants gone
    rcases startLink o mutants (p + 1) with none | ⟨-, -, inside⟩
    · rw [none]
      rfl
    · omega
  orders := rfl
  checkers := fun d outcome none => by cases none

theorem Wired.same (wired : Wired o r) (tasks : next.tasks = r.tasks)
    (links : next.floor.links = r.floor.links)
    (results : next.floor.results.capacity = r.floor.results.capacity ∧
      next.floor.results.senders = r.floor.results.senders) (orders : next.orders = r.orders)
    (checkers : ∀ d outcome, next.conduct = .disposingCheckers d outcome → o.hasCheckers = true) :
    Wired o next := by
  have task (p : Nat) : next.task p = r.task p := by rw [Run.task, Run.task, tasks]
  have link (p : Nat) : next.floor.link p = r.floor.link p := by
    rw [Floor.link, Floor.link, links]
  refine ⟨results.1 ▸ wired.results, ?_, fun p => ?_, fun p => ?_, fun p => ?_, fun p => ?_,
    orders.trans wired.orders, checkers⟩
  · rw [results.2, tasks]
    exact wired.reporters
  · rw [link]
    exact wired.capacity p
  · rw [link]
    exact wired.single p
  · rw [task, link]
    exact wired.deaf p
  · rw [task, link]
    exact wired.silent p

theorem Wired.step (wired : Wired o r) (found : r.tasks[place]? = some t)
    (tasks : next.tasks = r.tasks.set place u) (closes : t.Closes place r.floor next.floor u)
    (orders : next.orders = r.orders) (early : next.conduct.Early) : Wired o next := by
  have here := taskFound found
  have there := taskSelf found tasks
  obtain ⟨inside, at'⟩ := List.getElem?_eq_some_iff.mp found
  refine ⟨closes.results ▸ wired.results, ?_, fun p receives => ?_, fun p => ?_, fun p left => ?_,
    fun p left => ?_, orders.trans wired.orders, fun d outcome same => ?_⟩
  · have before := wired.reporters
    have one := List.boole_getElem_le_countP (p := Task.reports) inside
    have fewer := closes.fewer
    rw [tasks, List.countP_set inside]
    rw [at'] at one ⊢
    rcases closes.reporters with same | none
    · cases had : t.reports <;> cases has : u.reports <;>
        simp only [had, has, Bool.toNat_true, Bool.toNat_false, if_true] at one fewer same ⊢ <;>
          simp <;> omega
    · rw [none]
      exact Nat.zero_le _
  · rw [closes.capacity]
    exact wired.capacity p (closes.receiving p receives)
  · exact Nat.le_trans (closes.senders p) (wired.single p)
  · have deaf (before : (r.task p).Gone) : (next.floor.link p).receiving = false := by
      by_contra receives
      have still := closes.receiving p (Bool.not_eq_false _ ▸ receives)
      rw [wired.deaf p before] at still
      cases still
    by_cases same : p = place
    · subst same
      rw [there] at left
      exact (closes.last left).elim (fun before => deaf (here ▸ before)) And.left
    · exact deaf (taskOther tasks same ▸ left)
  · have silent (before : (r.task p).Gone) : (next.floor.link (p + 1)).senders = 0 :=
      Nat.le_zero.mp (wired.silent p before ▸ closes.senders (p + 1))
    by_cases same : p = place
    · subst same
      rw [there] at left
      refine (closes.last left).elim (fun before => silent (here ▸ before)) fun closed => ?_
      have one := wired.single (p + 1)
      rw [closed.2]
      omega
    · exact silent (taskOther tasks same ▸ left)
  · rw [same] at early
    exact early.elim

theorem Wired.own (wired : Wired o r) (move : next ∈ r.ownMoves) : Wired o next := by
  cases ownActed move with
  | received collecting taken =>
    obtain ⟨⟨c, found⟩, received, same⟩ := List.mem_map.mp taken
    cases same
    have alike : r.floor.results.Alike c := Channel.receiveAlike received
    exact wired.same rfl rfl ⟨alike.capacity, alike.senders⟩ rfl wired.checkers
  | joined early found =>
    exact wired.step found rfl (.attached (.same rfl rfl) rfl fun _ => trivial) rfl
      (Conduct.joinedEarly early _)
  | aborted searching none => exact wired.same rfl rfl ⟨rfl, rfl⟩ rfl fun _ _ same => by cases same
  | cut aborting found cut =>
    obtain ⟨role, rfl, rfl, rfl⟩ := Task.cutLeaves cut
    refine wired.step found rfl (.attached (.same rfl rfl) rfl id) rfl ?_
    rw [aborting]
    trivial
  | concluded ended all =>
    refine wired.same rfl rfl ⟨rfl, rfl⟩ rfl fun d outcome same => ?_
    have conduct : (if r.orders.hasCheckers then Conduct.disposingCheckers .asking _
      else .disposingRunners .asking _) = .disposingCheckers d outcome := same
    rw [← wired.orders]
    by_contra none
    rw [if_neg none] at conduct
    cases conduct
  | onCheckers disposing moved =>
    exact wired.same rfl rfl ⟨rfl, rfl⟩ rfl fun _ _ _ => wired.checkers _ _ disposing
  | @checkersDone d result outcome s disposing moved =>
    refine wired.same rfl (Floor.disposedSites checkerNote result _).2.2 ?_ rfl fun _ _ same => by
      cases same
    cases result <;> exact ⟨rfl, rfl⟩
  | onRunners disposing moved => exact wired.same rfl rfl ⟨rfl, rfl⟩ rfl fun _ _ same => by cases same
  | @runnersDone d result outcome s disposing moved =>
    refine wired.same rfl (Floor.disposedSites runnerNote result _).2.2 ?_ rfl fun _ _ same => by
      cases same
    cases result <;> exact ⟨rfl, rfl⟩
  | reported reporting => exact wired.same rfl rfl ⟨rfl, rfl⟩ rfl fun _ _ same => by cases same

theorem Wired.task (wired : Wired o r) (early : ∀ t u f, r.tasks[place]? = some t →
      (f, u) ∈ t.moves place r.floor → r.conduct.Early) (move : next ∈ r.taskMoves place) :
    Wired o next := by
  obtain ⟨t, u, f, found, moved, rfl⟩ := taskActed move
  exact wired.step found rfl (Task.movesCloses moved) rfl (early t u f found moved)

end Run

end MutationPipeline
