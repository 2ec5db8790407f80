import MutationPipeline.Proofs.Pipeline.Concurrency
import MutationPipeline.Proofs.Pipeline.Ledger
import MutationPipeline.Proofs.Pipeline.Results

/-! Which mutants are checked and tested in a run. A checker is asked once about each mutant that all
checkers before it have passed, and tests are run once against each mutant that all of them have passed
and that some test reaches; about no other mutant anybody is asked. -/
namespace MutationPipeline

namespace Run
variable {o : Orders} {mutants : List CoveredMutant} {r next : Run} {place : Nat} {t u : Task}
  {errands : List Errand} {log : List Answer}

structure Audited (o : Orders) (mutants : List CoveredMutant) (r : Run) (log : List Answer)
    (errands : List Errand) : Prop where
  booked : ∀ p role, r.task p = .working role → role.At o p ∧ role.Booked p errands log
  ledger : Ledger o mutants log errands

theorem Audited.quiet (audited : Audited o mutants r log errands) (told : r.told next = [])
    (asked : r.asked next = [])
    (workers : ∀ p role, next.task p = .working role → r.task p = .working role) :
    Audited o mutants next (log ++ r.told next) (errands ++ r.asked next) := by
  rw [told, asked, List.append_nil, List.append_nil]
  exact ⟨fun p role here => audited.booked p role (workers p role here), audited.ledger⟩

theorem Audited.idle (audited : Audited o mutants r log errands) (same : next.tasks = r.tasks) :
    Audited o mutants next (log ++ r.told next) (errands ++ r.asked next) :=
  audited.quiet (toldSame same) (askedSame same) fun p role here => by
    rwa [task, same] at here

theorem Audited.stopped (audited : Audited o mutants r log errands) (found : r.tasks[place]? = some t)
    (tasks : next.tasks = r.tasks.set place u) (gone : ∀ role, u ≠ .working role) :
    Audited o mutants next (log ++ r.told next) (errands ++ r.asked next) := by
  have silent : t.told place u = [] ∧ t.asked place u = [] := by
    cases t with
    | working role =>
      cases u with
      | working other => exact absurd rfl (gone other)
      | _ => exact ⟨rfl, rfl⟩
    | _ => exact ⟨rfl, rfl⟩
  refine audited.quiet ((toldSet found tasks).trans silent.1) ((askedSet found tasks).trans silent.2)
    fun p role here => ?_
  by_cases same : p = place
  · subst same
    rw [taskSelf found tasks] at here
    exact absurd here (gone role)
  · rwa [taskOther tasks same] at here

theorem Audited.went {role later : Role} {f : Floor} (audited : Audited o mutants r log errands)
    (tracked : Tracked mutants o.config.checkers.length o.label r log) (spoken : Spoken o r errands)
    (found : r.tasks[place]? = some (.working role)) (move : (f, .go later) ∈ role.moves place r.floor)
    (tasks : next.tasks = r.tasks.set place (.working later)) :
    Audited o mutants next (log ++ r.told next) (errands ++ r.asked next) := by
  obtain ⟨here, booked⟩ := audited.booked place role (taskFound found)
  have suits : role.Suits o := by
    have suits := spoken.suits place
    rwa [taskFound found] at suits
  obtain ⟨rest, split⟩ := r.split o.label found
  obtain ⟨bound, there⟩ := List.getElem?_eq_some_iff.mp found
  have same : r.tasks = r.tasks.set place (.working role) := by rw [← there, List.set_getElem_self]
  have whole := split r (.working role) same rfl fun _ _ _ => rfl
  have single : ((role.parcels o.label place ++ r.floor.window o.label place).map Parcel.id).Nodup := by
    have all := (whole.map Parcel.id).nodup_iff.mp tracked.single
    exact ((List.sublist_append_left _ _).map _).nodup all
  have books : Role.Books o mutants place errands log role later :=
    Role.movesBooks here (tracked.fits place _ found) suits spoken.discreet spoken.silent booked single
      (fun x member => tracked.sound x (whole.symm.subset (List.mem_append_left _ member))) move
  have told : r.told next = role.told place later := toldSet found tasks
  have asked : r.asked next = role.asked place later := askedSet found tasks
  rw [told, asked]
  refine ⟨fun p other working => ?_, books.ledger audited.ledger⟩
  by_cases differs : p = place
  · subst differs
    rw [taskSelf found tasks] at working
    cases working
    exact ⟨(Role.movesOnward move).stays o here, books.booked⟩
  · rw [taskOther tasks differs] at working
    obtain ⟨there, before⟩ := audited.booked p other working
    exact ⟨there, books.others p other differs there before⟩

theorem Audited.step (audited : Audited o mutants r log errands)
    (tracked : Tracked mutants o.config.checkers.length o.label r log) (spoken : Spoken o r errands)
    (step : Step r next) : Audited o mutants next (log ++ r.told next) (errands ++ r.asked next) := by
  cases step with
  | own move =>
    cases ownActed move with
    | joined early found => exact audited.stopped found rfl fun _ same => by cases same
    | cut aborting found cut =>
      rename_i place t floor u
      refine audited.stopped found rfl fun other same => ?_
      cases t with
      | working role =>
        simp only [Task.cut] at cut
        split at cut
        · cases List.mem_singleton.mp cut
          cases same
        · cases cut
      | _ => cases cut
    | _ => exact audited.idle rfl
  | task place move =>
    obtain ⟨t, u, f, found, moved, rfl⟩ := taskActed move
    cases t with
    | working role =>
      obtain ⟨⟨g, n⟩, inner, same⟩ := List.mem_map.mp moved
      cases n with
      | go later => cases same; exact audited.went tracked spoken found inner rfl
      | _ => cases same; exact audited.stopped found rfl fun _ same => by cases same
    | leaving role outcome =>
      cases List.mem_singleton.mp moved
      exact audited.stopped found rfl fun _ same => by cases same
    | closing role outcome =>
      cases List.mem_singleton.mp moved
      exact audited.stopped found rfl fun _ same => by cases same
    | closed outcome =>
      cases List.mem_singleton.mp moved
      exact audited.stopped found rfl fun _ same => by cases same
    | _ => cases moved
  | checker x outcome waits => exact audited.idle rfl
  | runner x outcome waits => exact audited.idle rfl

theorem startAudited (o : Orders) (mutants : List CoveredMutant) :
    Audited o mutants (start o mutants) [] [] where
  booked := by
    intro p role here
    rcases startTask o mutants p with gone | ⟨role', same, there, fresh⟩
    · rw [gone] at here
      cases here
    · rw [same] at here
      cases here
      refine ⟨there, ?_⟩
      cases role with
      | checking plan stage => cases fresh; exact fun _ => rfl
      | testing planOf t =>
        cases fresh
        exact ⟨fun _ _ asked => absurd asked List.not_mem_nil, fun _ given => by cases given⟩
      | _ => trivial
  ledger :=
    { checked := fun _ _ _ member => absurd member List.not_mem_nil
      tested := fun _ _ member => absurd member List.not_mem_nil
      once := fun _ _ => List.nodup_nil
      single := fun _ => List.nodup_nil
      judged := fun _ _ _ member => absurd member List.not_mem_nil
      ran := fun _ _ member => absurd member List.not_mem_nil }

theorem Recorded.audited (distinct : (mutants.map (·.id)).Nodup)
    (recorded : Recorded (start o mutants) r log errands) : Audited o mutants r log errands := by
  induction recorded with
  | refl => exact startAudited o mutants
  | tail recorded step before =>
    exact before.step ((startTracked o distinct).traced recorded.traced)
      ((startSpoken o mutants).recorded recorded) step

end Run

section Deserved
variable {mutants : List CoveredMutant} {log : List Answer} {n k : Nat} {m : CoveredMutant}
  {x : MutantResult}

theorem stampsAnswer {v : Verdict} (seen : (v, k) ∈ stamps log m.id) :
    ∃ group vs y, .verdicts k group vs ∈ log ∧ y ∈ group ∧ y.id = m.id := by
  obtain ⟨answer, told, inside⟩ := List.mem_flatMap.mp seen
  cases answer with
  | verdicts j group vs =>
    obtain ⟨y, member, same⟩ := List.mem_filterMap.mp inside
    simp only [Option.ite_none_right_eq_some] at same
    obtain ⟨id, same⟩ := same
    obtain ⟨w, -, pair⟩ := Option.map_eq_some_iff.mp same
    cases pair
    exact ⟨group, vs, y, told, member, id⟩
  | outcome y run => cases inside

theorem runsAnswer {run : TestRun} (ended : run ∈ runs log m.id) :
    ∃ y, .outcome y run ∈ log ∧ y.id = m.id := by
  obtain ⟨answer, told, inside⟩ := List.mem_flatMap.mp ended
  cases answer with
  | verdicts j group vs => cases inside
  | outcome y other =>
    simp only [Answer.runs, List.mem_ite_nil_right, List.mem_singleton] at inside
    obtain ⟨id, rfl⟩ := inside
    exact ⟨y, told, id⟩

theorem Due.unrefused {passed : List Verdict} {v : Verdict} (due : Due mutants log k m)
    (refusal : v.standing ≠ .passed) (seen : stamps log m.id = (passed ++ [v]).zipIdx) :
    k ≤ passed.length := by
  refine Nat.le_of_not_lt fun less => ?_
  obtain ⟨w, stamped, pass⟩ := due.2.2 passed.length less
  rw [seen] at stamped
  have same := List.mem_zipIdx_iff_getElem?.mp stamped
  simp only [List.getElem?_concat_length, Option.some.injEq] at same
  exact refusal (same ▸ pass)

theorem stampedAt {vs : List Verdict} (inside : k < vs.length) (seen : stamps log m.id = vs.zipIdx) :
    ∃ v, (v, k) ∈ stamps log m.id := by
  rw [seen]
  exact ⟨vs[k], List.mem_zipIdx_iff_getElem?.mpr (List.getElem?_eq_getElem inside)⟩

theorem Due.heard (due : Due mutants log k m) (few : k < n) (settled : Deserved n log m x) :
    ∃ v, (v, k) ∈ stamps log m.id := by
  have passed (cleared : Cleared log m n) : ∃ v, (v, k) ∈ stamps log m.id := by
    obtain ⟨v, seen, -⟩ := cleared.passed k few
    exact ⟨v, seen⟩
  cases settled with
  | ignored aside => exact absurd aside due.2.1
  | refused taken some before refusal seen idle =>
    refine stampedAt ?_ seen
    rw [List.length_append, List.length_singleton]
    exact Nat.lt_succ_of_le (due.unrefused refusal seen)
  | unreached taken cleared => exact passed cleared
  | tested taken cleared => exact passed cleared

theorem Due.ran (due : Due mutants log n m) (covered : m.Testable)
    (settled : Deserved n log m x) : ∃ run, run ∈ runs log m.id := by
  cases settled with
  | ignored aside => exact absurd aside due.2.1
  | refused taken some before refusal seen idle =>
    exact absurd (due.unrefused refusal seen) (Nat.not_le_of_lt some)
  | unreached taken cleared untested => exact absurd covered untested
  | @tested run taken cleared covered once => exact ⟨run, once ▸ List.mem_singleton_self _⟩

end Deserved

namespace Run
variable {o : Orders} {mutants : List CoveredMutant} {r : Run} {errands : List Errand} {log : List Answer}

/-- Which mutants the workers of a run were asked about. -/
structure Selects (o : Orders) (mutants : List CoveredMutant) (r : Run) (log : List Answer)
    (errands : List Errand) : Prop where
  checkers : r.floor.checkers.crew.asked CheckWork.checked? = errands.filterMap Errand.checked?
  runners : r.floor.runners.crew.asked some = errands.filterMap (Errand.planned? o)
  checked : ∀ k group again, .check k group again ∈ errands → k < o.config.checkers.length ∧
    group ∈ checksOf errands k false ∧ ∀ m ∈ group, Due mutants log k m
  once : ∀ k again, ((checksOf errands k again).flatten.map (·.id)).Nodup
  tested : ∀ m again, .test m again ∈ errands → m ∈ testsOf errands false ∧
    Due mutants log o.config.checkers.length m ∧ m.Testable
  single : ∀ again, ((testsOf errands again).map (·.id)).Nodup
  allChecked : ∀ results, r.conduct = .finished (.ok results) → ∀ k < o.config.checkers.length,
    ∀ m, m ∈ (checksOf errands k false).flatten ↔ Due mutants log k m
  allTested : ∀ results, r.conduct = .finished (.ok results) → ∀ m, m ∈ testsOf errands false ↔
    Due mutants log o.config.checkers.length m ∧ m.Testable

theorem settledOf {results : List MutantResult} {n : Nat} {m : CoveredMutant}
    (all : List.Forall₂ (fun m x => Carries m x ∧ Deserved n log m x) mutants results)
    (input : m ∈ mutants) : ∃ x, Deserved n log m x := by
  induction all with
  | nil => cases input
  | cons here _ ih =>
    cases input with
    | head => exact ⟨_, here.2⟩
    | tail _ later => exact ih later

/-- All errands of a run are about the right mutants. -/
theorem errandsSelected (o : Orders) (distinct : (mutants.map (·.id)).Nodup)
    (recorded : Recorded (start o mutants) r log errands) : Selects o mutants r log errands := by
  have spoken := (startSpoken o mutants).recorded recorded
  have ledger := (recorded.audited distinct).ledger
  have one {x m : CoveredMutant} (there : x ∈ mutants) (here : m ∈ mutants) (same : x.id = m.id) :
      x = m := List.inj_on_of_nodup_map distinct there here same
  have settled {results} (finished : r.conduct = .finished (.ok results)) {m} (input : m ∈ mutants) :
      ∃ x, Deserved o.config.checkers.length log m x :=
    settledOf ((resultsSettled o distinct recorded.traced).1 results finished).1 input
  refine ⟨spoken.checkers, spoken.runners, ledger.checked, ledger.once, ledger.tested, ledger.single,
    fun results finished k few m => ⟨fun asked => ?_, fun due => ?_⟩,
    fun results finished m => ⟨fun asked => (ledger.tested m false (testsOfMem.mp asked)).2,
      fun ⟨due, covered⟩ => ?_⟩⟩
  · obtain ⟨group, called, inside⟩ := List.mem_flatten.mp asked
    exact (ledger.checked k group false (checksOfMem.mp called)).2.2 m inside
  · obtain ⟨x, settled⟩ := settled finished due.1
    obtain ⟨v, seen⟩ := due.heard few settled
    obtain ⟨group, vs, y, told, inside, id⟩ := stampsAnswer seen
    have called := ledger.judged k group vs told
    obtain ⟨-, -, dues⟩ := ledger.checked k group false (checksOfMem.mp called)
    rw [← one (dues y inside).1 due.1 id]
    exact List.mem_flatten.mpr ⟨group, called, inside⟩
  · obtain ⟨x, settled⟩ := settled finished due.1
    obtain ⟨run, ended⟩ := due.ran covered settled
    obtain ⟨y, told, id⟩ := runsAnswer ended
    have called := ledger.ran y run told
    rw [← one (ledger.tested y false (testsOfMem.mp called)).2.1.1 due.1 id]
    exact called

def tour : List Cue :=
  let goOn (place n : Nat) := List.replicate n (Cue.task place)
  let own (n : Nat) := List.replicate n Cue.own
  let verdicts := Keyed.ofList [("1", Verdict.passed)]
  goOn 0 5 ++ goOn 1 5 ++ own 1 ++ [.checker (.ok .done)] ++ goOn 1 6 ++ [.checker (.ok .done)] ++
    goOn 1 6 ++ [.checker (.ok (.groups none))] ++ goOn 1 11 ++
    [.checker (.ok (.verdicts verdicts))] ++ goOn 1 9 ++ goOn 2 10 ++ goOn 3 2 ++ goOn 4 6 ++ own 1 ++
    [.checker (.ok .done)] ++ goOn 2 6 ++ goOn 3 4 ++ own 2 ++ [.runner (.ok none)] ++ goOn 4 5 ++
    [.runner (.ok (some (.timeout none)))] ++ goOn 4 8 ++ own 11 ++ [.runner (.ok none)] ++ own 3

def toured : Run × List Answer × List Errand :=
  let first := start oneEach [reached "1"]
  (noted tour first).getD (first, [], [])

set_option maxRecDepth 8192 in
theorem tourNoted : noted tour (start oneEach [reached "1"]) =
    some (toured.1, toured.2.1, toured.2.2) := rfl

set_option maxRecDepth 8192 in
theorem tourOver : toured.1.conduct =
    .finished (.ok (inOrder [reached "1"] [(reached "1").resultOfRun (.timeout none)])) := rfl

set_option maxRecDepth 8192 in
theorem tourErrands :
    toured.2.2 = [.check 0 [reached "1"] false, .test (reached "1") false] := rfl

theorem errandsSelectedTour : Selects oneEach [reached "1"] toured.1 toured.2.1 toured.2.2 ∧
    toured.2.2 = [.check 0 [reached "1"] false, .test (reached "1") false] ∧
      toured.1.conduct =
        .finished (.ok (inOrder [reached "1"] [(reached "1").resultOfRun (.timeout none)])) := by
  have distinct : ([reached "1"].map (·.id)).Nodup := List.nodup_singleton _
  have recorded := notedRecorded .refl tourNoted
  rw [List.nil_append, List.nil_append] at recorded
  exact ⟨errandsSelected oneEach distinct recorded, tourErrands, tourOver⟩

end Run

end MutationPipeline
