import MutationPipeline.Proofs.Pipeline.Runs
import MutationPipeline.Proofs.Pipeline.Succession

/-! The results of a run that succeeds: one for each mutant, at the place of the mutant, and what
the answers that came in say of it. These results are reported and nothing else is. -/
namespace MutationPipeline

namespace Orders
variable {mutants : List CoveredMutant} {place : Nat} {role : Role}

def coverage (o : Orders) : Nat := if o.hasCheckers then o.config.checkers.length + 2 else 1

def label (o : Orders) (place : Nat) : CoveredMutant → Parcel :=
  if place ≤ o.coverage then .cleared (min (place - 1) o.config.checkers.length) else .covered

theorem labelCleared {o : Orders} {k : Nat} (before : place ≤ o.coverage)
    (passed : min (place - 1) o.config.checkers.length = k) : o.label place = .cleared k := by
  rw [label, if_pos before, passed]

theorem coverageNone {o : Orders} (none : o.config.checkers = []) : o.coverage = 1 := by
  simp [coverage, hasCheckers, none]

theorem coverageSome {o : Orders} (some : o.config.checkers ≠ []) :
    o.coverage = o.config.checkers.length + 2 := by
  simp [coverage, hasCheckers, some]

theorem checkersFit {o : Orders} {k : Nat} (inside : k < o.config.checkers.length)
    (plan : StagePlan) (stage : Stage) :
    (Role.checking plan stage).Fits o.config.checkers.length o.label (k + 1) := by
  have many := coverageSome (List.ne_nil_of_length_pos (Nat.zero_lt_of_lt inside))
  exact ⟨inside, labelCleared (by omega) (by omega), labelCleared (by omega) (by omega)⟩

theorem endFits {o : Orders} :
    (Role.covering none).Fits o.config.checkers.length o.label o.coverage ∧
      o.label (o.coverage + 1) = .covered := by
  have behind : o.label (o.coverage + 1) = .covered := by
    rw [label, if_neg (by omega)]
  refine ⟨⟨labelCleared (Nat.le_refl _) ?_, behind⟩, behind⟩
  by_cases none : o.config.checkers = []
  · simp [none]
  · rw [coverageSome none]
    omega

theorem rolesFit (o : Orders) (found : (o.roles mutants)[place]? = some role) :
    role.Fits o.config.checkers.length o.label place := by
  obtain ⟨front, behind⟩ := o.endFits
  cases place with
  | zero =>
    cases found
    refine labelCleared ?_ (Nat.zero_min _)
    unfold coverage
    split <;> omega
  | succ k =>
    simp only [roles, List.append_assoc, List.cons_append, List.nil_append,
      List.getElem?_cons_succ] at found
    rw [List.getElem?_append, List.length_map] at found
    split at found
    · next inside =>
      rw [List.getElem?_map] at found
      obtain ⟨name, -, rfl⟩ := Option.map_eq_some_iff.mp found
      exact checkersFit inside _ _
    · next outside =>
      by_cases none : o.config.checkers = []
      · have place := coverageNone none
        simp only [hasCheckers, none] at found
        rcases k with _ | _ | k
        · cases found
          rwa [place] at front
        · cases found
          rwa [place] at behind
        · cases found
      · have place := coverageSome none
        have has : o.hasCheckers = true := by simp [hasCheckers, none]
        obtain ⟨j, rfl⟩ := Nat.exists_eq_add_of_le (Nat.le_of_not_lt outside)
        rw [if_pos has, Nat.add_sub_cancel_left] at found
        rcases j with _ | _ | _ | j
        · cases found
          exact (labelCleared (by omega) (by omega)).trans (labelCleared (by omega) rfl).symm
        · cases found
          rwa [place] at front
        · cases found
          rwa [place] at behind
        · cases found

theorem rolesEmpty (o : Orders) (mutants : List CoveredMutant) : ∃ others : List Role,
    o.roles mutants = .ignoring mutants :: others ∧
      ∀ role ∈ others, ∀ label place, role.parcels label place = [] := by
  refine ⟨_, rfl, fun role member label place => ?_⟩
  rcases List.mem_append.mp member with inner | last
  · rcases List.mem_append.mp inner with checking | releasing
    · obtain ⟨name, -, rfl⟩ := List.mem_map.mp checking
      rfl
    · split at releasing
      · cases List.mem_singleton.mp releasing
        rfl
      · cases releasing
  · rcases List.mem_cons.mp last with rfl | last
    · rfl
    · cases List.mem_singleton.mp last
      rfl

end Orders

def Conduct.outcome? : Conduct → Option (Except RunError (List MutantResult))
  | .disposingCheckers _ outcome | .disposingRunners _ outcome | .reporting outcome
  | .finished outcome => some outcome
  | _ => none

def Conduct.due : Conduct → List (List MutantResult)
  | .finished (.ok xs) => [xs]
  | _ => []

theorem Conduct.earlySilent {c : Conduct} (early : c.Early) : c.outcome? = none ∧ c.due = [] := by
  cases c with
  | collecting => exact ⟨rfl, rfl⟩
  | searching cause => exact ⟨rfl, rfl⟩
  | aborting cause => exact ⟨rfl, rfl⟩
  | _ => exact early.elim

namespace Run
variable {mutants : List CoveredMutant} {xs : List MutantResult} {o : Orders} {r next : Run}
  {log : List Answer}

theorem startParcels (o : Orders) (mutants : List CoveredMutant)
    (label : Nat → CoveredMutant → Parcel) :
    (start o mutants).parcels label = mutants.map .fresh := by
  obtain ⟨others, roles, empty⟩ := o.rolesEmpty mutants
  have held : (((others.map Task.working).zipIdx 1).flatMap fun x =>
      x.1.parcels label x.2) = [] := by
    refine List.flatMap_eq_nil_iff.mpr ?_
    rintro ⟨t, place⟩ member
    obtain ⟨role, other, rfl⟩ := List.mem_map.mp (List.fst_mem_of_mem_zipIdx member)
    exact empty role other label place
  have aisle (count : Nat) : (o.floor (o.roles mutants)).aisle label count = [] :=
    List.flatMap_eq_nil_iff.mpr fun place _ => by rw [o.floorEmpty, List.map_nil]
  rw [parcels, start, aisle, roles, List.map_cons, List.zipIdx_cons, List.flatMap_cons, held]
  simp [Task.parcels, Role.parcels, Orders.floor]

theorem startFits (o : Orders) (mutants : List CoveredMutant) :
    (start o mutants).Fits o.config.checkers.length o.label := by
  intro place t found
  have found : ((o.roles mutants).map Task.working)[place]? = some t := found
  rw [List.getElem?_map] at found
  obtain ⟨role, here, rfl⟩ := Option.map_eq_some_iff.mp found
  exact o.rolesFit here

theorem startTracked (o : Orders) (distinct : (mutants.map (·.id)).Nodup) :
    Tracked mutants o.config.checkers.length o.label (start o mutants) [] := by
  refine ⟨startFits o mutants, ?_, ?_⟩
  · rw [startParcels, List.map_map]
    exact distinct
  · rw [startParcels]
    intro x member
    obtain ⟨m, input, rfl⟩ := List.mem_map.mp member
    exact ⟨input, rfl, rfl⟩

theorem placeOfLast {i : Nat} {m : CoveredMutant} (found : mutants[i]? = some m) :
    ∃ last, i ≤ placeOf mutants m.id ∧ mutants[placeOf mutants m.id]? = some last ∧
      last.id = m.id := by
  obtain ⟨bound, rfl⟩ := List.getElem?_eq_some_iff.mp found
  unfold placeOf
  split
  · next j here =>
    obtain ⟨inside, same, before⟩ := List.findIdx?_eq_some_iff_getElem.mp here
    rw [List.length_reverse] at inside
    rw [List.getElem_reverse] at same
    refine ⟨_, ?_, List.getElem?_eq_getElem (by omega), of_decide_eq_true same⟩
    by_contra later
    refine before (mutants.length - 1 - i) (by omega) ?_
    rw [List.getElem_reverse]
    simp only [Nat.sub_sub_self (Nat.le_sub_one_of_lt bound), decide_true]
  · next absent =>
    have other := List.findIdx?_eq_none_iff.mp absent mutants[i] (by simp)
    simp at other

theorem placeOfId {i : Nat} {m : CoveredMutant} (distinct : (mutants.map (·.id)).Nodup)
    (found : mutants[i]? = some m) : placeOf mutants m.id = i := by
  obtain ⟨last, -, here, same⟩ := placeOfLast found
  have one := List.inj_on_of_nodup_map distinct (List.mem_of_getElem? here)
    (List.mem_of_getElem? found) same
  cases one
  obtain ⟨bound, own⟩ := List.getElem?_eq_some_iff.mp here
  obtain ⟨inside, other⟩ := List.getElem?_eq_some_iff.mp found
  exact (distinct.of_map).getElem_inj_iff.mp (own.trans other.symm)

def Sorted (mutants : List CoveredMutant) (ids : List String) : Prop :=
  ids.Pairwise fun a b => placeOf mutants a ≤ placeOf mutants b

theorem sortedDistinct (distinct : (mutants.map (·.id)).Nodup) :
    Sorted mutants (mutants.map (·.id)) := by
  refine List.pairwise_map.mpr (List.pairwise_iff_getElem.mpr fun i j first second less => ?_)
  rw [placeOfId distinct (List.getElem?_eq_getElem first),
    placeOfId distinct (List.getElem?_eq_getElem second)]
  exact Nat.le_of_lt less

theorem inOrderPerm (mutants : List CoveredMutant) (xs : List MutantResult) :
    (inOrder mutants xs).Perm xs :=
  List.mergeSort_perm xs _

theorem inOrderSorted (mutants : List CoveredMutant) (xs : List MutantResult) :
    Sorted mutants ((inOrder mutants xs).map (·.id)) := by
  refine List.pairwise_map.mpr (List.Pairwise.imp of_decide_eq_true
    (List.pairwise_mergeSort (fun a b c first second => ?_) (fun a b => ?_) xs))
  · exact decide_eq_true (Nat.le_trans (of_decide_eq_true first) (of_decide_eq_true second))
  · simpa using Nat.le_total _ _

theorem sortedUnique {ids : List String} (sorted : Sorted mutants ids)
    (own : Sorted mutants (mutants.map (·.id))) (all : ids.Perm (mutants.map (·.id))) :
    ids = mutants.map (·.id) := by
  refine List.Perm.eq_of_pairwise (fun a b left right before after => ?_) sorted own all
  obtain ⟨m, here, rfl⟩ := List.mem_map.mp (all.subset left)
  obtain ⟨n, there, rfl⟩ := List.mem_map.mp right
  obtain ⟨i, here⟩ := List.mem_iff_getElem?.mp here
  obtain ⟨j, there⟩ := List.mem_iff_getElem?.mp there
  obtain ⟨first, -, own, same⟩ := placeOfLast here
  obtain ⟨second, -, other, again⟩ := placeOfLast there
  rw [Nat.le_antisymm before after, other] at own
  cases own
  exact same.symm.trans again

def Together (mutants : List CoveredMutant) : Prop :=
  ∀ i j k : Fin mutants.length, i < j → j < k → mutants[i].id = mutants[k].id →
    mutants[j].id = mutants[i].id

instance (mutants : List CoveredMutant) : Decidable (Together mutants) :=
  inferInstanceAs (Decidable (∀ i j k : Fin mutants.length, i < j → j < k →
    mutants[i].id = mutants[k].id → mutants[j].id = mutants[i].id))

theorem togetherSorted (together : Together mutants) :
    Sorted mutants (mutants.map (·.id)) := by
  refine List.pairwise_map.mpr (List.pairwise_iff_getElem.mpr fun i j first second less => ?_)
  by_contra before
  obtain ⟨own, behind, -⟩ := placeOfLast (List.getElem?_eq_getElem second)
  obtain ⟨last, -, here, same⟩ := placeOfLast (List.getElem?_eq_getElem first)
  obtain ⟨inside, rfl⟩ := List.getElem?_eq_some_iff.mp here
  have between := together ⟨i, first⟩ ⟨j, second⟩ ⟨_, inside⟩ less
    (Nat.lt_of_le_of_lt behind (Nat.lt_of_not_le before)) same.symm
  exact before (Nat.le_of_eq (congrArg (placeOf mutants) between.symm))

theorem sortedTogether (sorted : Sorted mutants (mutants.map (·.id))) : Together mutants := by
  have ordered := List.pairwise_iff_getElem.mp (List.pairwise_map.mp sorted)
  rintro ⟨i, first⟩ ⟨j, inner⟩ ⟨k, last⟩ before behind same
  have up := ordered i j first inner before
  have down := ordered j k inner last behind
  have same : mutants[i].id = mutants[k].id := same
  rw [← same] at down
  obtain ⟨m, -, here, own⟩ := placeOfLast (List.getElem?_eq_getElem first)
  obtain ⟨n, -, there, other⟩ := placeOfLast (List.getElem?_eq_getElem inner)
  rw [Nat.le_antisymm up down, there] at here
  cases here
  exact other.symm.trans own

structure Honest (mutants : List CoveredMutant) (r : Run) : Prop where
  input : r.mutants = mutants
  complete : ∀ xs, r.conduct.outcome? = some (.ok xs) →
    r.collected.length = mutants.length ∧ xs = inOrder mutants r.collected
  reports : r.reports = r.conduct.due

theorem Honest.same (honest : Honest mutants r) (input : next.mutants = r.mutants)
    (collected : next.collected = r.collected) (outcome : next.conduct.outcome? = r.conduct.outcome?)
    (due : next.conduct.due = r.conduct.due) (reports : next.reports = r.reports) : Honest mutants next where
  input := input.trans honest.input
  complete := by
    rw [collected, outcome]
    exact honest.complete
  reports := by rw [reports, due, honest.reports]

theorem Honest.open (honest : Honest mutants r) (input : next.mutants = r.mutants)
    (early : next.conduct.Early) (reports : next.reports = []) : Honest mutants next where
  input := input.trans honest.input
  complete := fun xs known => by
    rw [(Conduct.earlySilent early).1] at known
    cases known
  reports := reports.trans (Conduct.earlySilent early).2.symm

theorem Honest.concluded (honest : Honest mutants r) (reports : r.reports = [])
    (outcome : Except RunError (List MutantResult))
    (right : ∀ xs, outcome = .ok xs → r.verdict = .ok xs) :
    Honest mutants (r.conclude outcome) := by
  have known : (r.conclude outcome).conduct.outcome? = some outcome ∧
      (r.conclude outcome).conduct.due = [] := by
    unfold conclude
    split <;> exact ⟨rfl, rfl⟩
  refine ⟨honest.input, fun xs same => ?_, reports.trans known.2.symm⟩
  have verdict := right xs (Option.some.inj (known.1.symm.trans same))
  unfold Run.verdict at verdict
  rw [honest.input] at verdict
  split at verdict
  · next complete =>
    cases verdict
    exact ⟨complete, rfl⟩
  · cases verdict

theorem Honest.own (honest : Honest mutants r) (move : next ∈ r.ownMoves) :
    Honest mutants next := by
  have reported : r.reports = r.conduct.due := honest.reports
  have silent (early : r.conduct.Early) : r.reports = [] :=
    reported.trans (Conduct.earlySilent early).2
  cases ownActed move with
  | received collecting taken =>
    have early : r.conduct.Early := by rw [collecting]; trivial
    exact honest.open rfl early (silent early)
  | joined early found => exact honest.open rfl (Conduct.joinedEarly early _) (silent early)
  | aborted searching none => exact honest.open rfl trivial (silent (by rw [searching]; trivial))
  | cut aborting found cut =>
    have early : r.conduct.Early := by rw [aborting]; trivial
    exact honest.open rfl early (silent early)
  | concluded ended all =>
    refine honest.concluded (silent ended.early) _ fun xs same => ?_
    cases ended with
    | results collecting => exact same
    | failure aborting => cases same
  | onCheckers disposing moved => exact honest.same rfl rfl (disposing ▸ rfl) (disposing ▸ rfl) rfl
  | checkersDone disposing moved => exact honest.same rfl rfl (disposing ▸ rfl) (disposing ▸ rfl) rfl
  | onRunners disposing moved => exact honest.same rfl rfl (disposing ▸ rfl) (disposing ▸ rfl) rfl
  | runnersDone disposing moved => exact honest.same rfl rfl (disposing ▸ rfl) (disposing ▸ rfl) rfl
  | @reported outcome reporting =>
    rw [reporting] at reported
    refine ⟨honest.input, fun xs known => honest.complete xs ?_, ?_⟩
    · rwa [reporting]
    · cases outcome with
      | ok xs => exact congrArg (· ++ [xs]) reported
      | error e => exact reported

theorem Honest.step (honest : Honest mutants r) (step : Step r next) : Honest mutants next := by
  cases step with
  | own move => exact honest.own move
  | task place move =>
    obtain ⟨t, u, f, -, -, rfl⟩ := taskActed move
    exact honest.same rfl rfl rfl rfl rfl
  | checker o outcome waits => exact honest.same rfl rfl rfl rfl rfl
  | runner o outcome waits => exact honest.same rfl rfl rfl rfl rfl

theorem Honest.traced (start : Honest mutants r) (traced : Traced r next log) :
    Honest mutants next := by
  induction traced with
  | refl => exact start
  | tail _ step before => exact before.step step

theorem orderedSettled {n : Nat} (distinct : (mutants.map (·.id)).Nodup)
    (single : (xs.map (·.id)).Nodup) (count : xs.length = mutants.length)
    (sound : ∀ x ∈ xs, ∃ m ∈ mutants, Carries m x ∧ Deserved n log m x) :
    List.Forall₂ (fun m x => Carries m x ∧ Deserved n log m x) mutants (inOrder mutants xs) := by
  have known : xs.map (·.id) ⊆ mutants.map (·.id) := by
    intro id member
    obtain ⟨x, inside, rfl⟩ := List.mem_map.mp member
    obtain ⟨m, input, carries, -⟩ := sound x inside
    exact List.mem_map.mpr ⟨m, input, carries.id.symm⟩
  have all : (xs.map (·.id)).Perm (mutants.map (·.id)) :=
    (List.subperm_of_subset single known).perm_of_length_le (by simp [count])
  have ids := sortedUnique (inOrderSorted mutants xs) (sortedDistinct distinct)
    (((inOrderPerm mutants xs).map (·.id)).trans all)
  have same : mutants.length = (inOrder mutants xs).length := by
    rw [(inOrderPerm mutants xs).length_eq, count]
  refine List.forall₂_iff_get.mpr ⟨same, fun i first second => ?_⟩
  have id : (inOrder mutants xs)[i].id = mutants[i].id := by
    have here := congrArg (·[i]?) ids
    simpa [first, second] using here
  obtain ⟨m, input, carries, settled⟩ :=
    sound _ ((inOrderPerm mutants xs).subset (List.getElem_mem second))
  have one : m = mutants[i] := List.inj_on_of_nodup_map distinct input (List.getElem_mem first)
    (carries.id.symm.trans id)
  cases one
  exact ⟨carries, settled⟩

/-- A run that succeeds has one result for each mutant, at the place of the mutant and with all
that is in it. The result is the one that the answers that came in during the run call for. The
results were reported once; a run that fails reports nothing. -/
theorem resultsSettled (o : Orders) (distinct : (mutants.map (·.id)).Nodup)
    (traced : Traced (start o mutants) r log) :
    (∀ results, r.conduct = .finished (.ok results) →
      List.Forall₂ (fun m x => Carries m x ∧ Deserved o.config.checkers.length log m x)
        mutants results ∧ r.reports = [results]) ∧
    ∀ e, r.conduct = .finished (.error e) → r.reports = [] := by
  have first : Honest mutants (start o mutants) := ⟨rfl, (fun _ known => by cases known), rfl⟩
  have honest := first.traced traced
  have tracked := (startTracked o distinct).traced traced
  refine ⟨fun results ended => ?_, fun e ended => honest.reports.trans (ended ▸ rfl)⟩
  obtain ⟨count, rfl⟩ := honest.complete results (ended ▸ rfl)
  have inside : (r.collected.map Parcel.settled).Sublist (r.parcels o.label) :=
    List.sublist_append_right _ _
  have single := (inside.map Parcel.id).nodup tracked.single
  rw [List.map_map] at single
  refine ⟨orderedSettled distinct single count fun x member => ?_,
    honest.reports.trans (ended ▸ rfl)⟩
  exact tracked.sound _ (inside.subset (List.mem_map_of_mem member))

def mixed : List CoveredMutant :=
  [{ id := "1", fileName := "a", status := some .ignored, statusReason := some "set aside" },
    reached "2", { id := "3", fileName := "b" }, reached "4"]

/-- The checker refuses the second mutant, and a test fails because of the fourth. -/
def mixedCues : List Cue :=
  let goOn (place n : Nat) := List.replicate n (Cue.task place)
  let own (n : Nat) := List.replicate n Cue.own
  let verdicts := Keyed.ofList
    [("2", ⟨.compileError, some "type error"⟩), ("3", Verdict.passed), ("4", Verdict.passed)]
  goOn 0 8 ++ goOn 1 7 ++ own 2 ++ [.checker (.ok .done)] ++ goOn 1 6 ++ [.checker (.ok .done)] ++
    goOn 1 6 ++ [.checker (.ok (.groups (some [(mixed.drop 1).map (·.toMutant)])))] ++ goOn 1 11 ++
    [.checker (.ok (.verdicts verdicts))] ++ goOn 1 11 ++ goOn 2 12 ++ goOn 3 4 ++ goOn 4 6 ++
    own 3 ++ [.checker (.ok .done)] ++ goOn 2 6 ++ goOn 3 4 ++ own 2 ++ [.runner (.ok none)] ++
    goOn 4 5 ++ [.runner (.ok (some (.killed ["t"] "off by one" 2)))] ++ goOn 4 8 ++ own 11 ++
    [.runner (.ok none)] ++ own 3

def mixedEnd : Run × List Answer × List Errand :=
  (noted mixedCues (start oneEach mixed)).getD (start oneEach mixed, [], [])

def mixedResults : List MutantResult :=
  let result (id fileName : String) (status : Status) (tests : List String) : MutantResult :=
    { id, fileName, status, location := .nowhere, mutator := "", replacement := "",
      coveredBy := tests }
  [{ result "1" "a" .ignored [] with statusReason := some "set aside" },
    { result "2" "a" .compileError ["t"] with statusReason := some "type error" },
    result "3" "b" .noCoverage [],
    { result "4" "a" .killed ["t"] with
      statusReason := some "off by one", killedBy := ["t"], testsCompleted := some 2 }]

set_option maxRecDepth 8192 in
theorem mixedNoted : noted mixedCues (start oneEach mixed) =
    some (mixedEnd.1, mixedEnd.2.1, mixedEnd.2.2) := rfl

set_option maxRecDepth 8192 in
theorem mixedOver : mixedEnd.1.conduct = .finished (.ok (inOrder mixed mixedResults)) := rfl

theorem resultsSettledMixed :
    List.Forall₂ (fun m x => Carries m x ∧ Deserved oneEach.config.checkers.length mixedEnd.2.1 m x)
      mixed (inOrder mixed mixedResults) ∧ mixedEnd.1.reports = [inOrder mixed mixedResults] := by
  have distinct : (mixed.map (·.id)).Nodup := by decide
  have traced := (notedRecorded .refl mixedNoted).traced
  rw [List.nil_append] at traced
  exact (resultsSettled oneEach distinct traced).1 _ mixedOver

structure Provided (mutants : List CoveredMutant) (n : Nat) (label : Nat → CoveredMutant → Parcel)
    (r : Run) : Prop where
  fits : r.Fits n label
  among : ((r.parcels label).map Parcel.imprint).Subperm (mutants.map CoveredMutant.imprint)

theorem startProvided (o : Orders) (mutants : List CoveredMutant) :
    Provided mutants o.config.checkers.length o.label (start o mutants) where
  fits := startFits o mutants
  among := by
    rw [startParcels, List.map_map]
    exact .refl _

theorem Provided.step {n : Nat} {label : Nat → CoveredMutant → Parcel}
    (provided : Provided mutants n label r) (step : Step r next) :
    Provided mutants n label next := by
  obtain ⟨trade, fits⟩ := stepMoved mutants provided.fits step
  exact ⟨fits, trade.imprints.trans provided.among⟩

theorem providedHonest (steps : Steps (start o mutants) r) :
    Provided mutants o.config.checkers.length o.label r ∧ Honest mutants r := by
  induction steps with
  | refl => exact ⟨startProvided o mutants, rfl, (fun _ known => by cases known), rfl⟩
  | tail _ step before =>
    obtain ⟨provided, honest⟩ := before
    exact ⟨provided.step step, honest.step step⟩

theorem resultsDealt (steps : Steps (start o mutants) r)
    (ended : r.conduct = .finished (.ok xs)) :
    Sorted mutants (xs.map (·.id)) ∧
      ∃ placed : List CoveredMutant, placed.Perm mutants ∧ List.Forall₂ Carries placed xs := by
  obtain ⟨provided, honest⟩ := providedHonest steps
  obtain ⟨count, rfl⟩ := honest.complete xs (ended ▸ rfl)
  refine ⟨inOrderSorted mutants r.collected, ?_⟩
  have inside : (r.collected.map Parcel.settled).Sublist (r.parcels o.label) :=
    List.sublist_append_right _ _
  have among := (inside.map Parcel.imprint).subperm.trans provided.among
  rw [List.map_map] at among
  have all : (r.collected.map MutantResult.imprint).Perm (mutants.map CoveredMutant.imprint) :=
    among.perm_of_length_le (by simp [count])
  have same := ((inOrderPerm mutants r.collected).map MutantResult.imprint).trans all
  have stamped : List.Forall₂ (fun i (m : CoveredMutant) => i = m.imprint)
      (mutants.map CoveredMutant.imprint) mutants :=
    List.forall₂_map_left_iff.mpr (List.forall₂_same.mpr fun _ _ => rfl)
  obtain ⟨placed, carried, perm⟩ := List.perm_comp_forall₂ same stamped
  exact ⟨placed, perm, ((List.forall₂_map_left_iff.mp carried).imp fun _ _ => carriesIff.mpr).flip⟩

structure Matches (m : CoveredMutant) (x : MutantResult) : Prop where
  id : x.id = m.id
  fileName : x.fileName = m.fileName
  location : x.location = m.location

/-- The results of a run that succeeds are those of its mutants, each once, and they stand in the
order of the last places of their ids. Their ids are those of the mutants, place by place, exactly
when all mutants with one id stand together; the results then are those of the mutants, place by
place, if mutants with one id agree in their file and location. -/
theorem resultsPlaced (o : Orders) (steps : Steps (start o mutants) r)
    (ended : r.conduct = .finished (.ok xs)) :
    (Sorted mutants (xs.map (·.id)) ∧
      ∃ placed : List CoveredMutant, placed.Perm mutants ∧ List.Forall₂ Carries placed xs) ∧
    (xs.map (·.id) = mutants.map (·.id) ↔ Together mutants) ∧
    (Together mutants → (∀ a ∈ mutants, ∀ b ∈ mutants, a.id = b.id →
        a.fileName = b.fileName ∧ a.location = b.location) →
      List.Forall₂ Matches mutants xs) := by
  obtain ⟨sorted, placed, perm, carried⟩ := resultsDealt steps ended
  have same : xs.map (·.id) = placed.map (·.id) := by
    rw [← List.forall₂_eq_eq_eq, List.forall₂_map_left_iff, List.forall₂_map_right_iff]
    exact carried.flip.imp fun _ _ carries => carries.id
  have ids : xs.map (·.id) = mutants.map (·.id) ↔ Together mutants :=
    ⟨fun own => sortedTogether (own ▸ sorted),
      fun together => sortedUnique sorted (togetherSorted together) (same ▸ perm.map _)⟩
  refine ⟨⟨sorted, placed, perm, carried⟩, ids, fun together alike => ?_⟩
  refine List.forall₂_iff_get.mpr ⟨perm.length_eq.symm.trans carried.length_eq, ?_⟩
  intro i first second
  obtain ⟨count, all⟩ := List.forall₂_iff_get.mp carried
  have carries := all i (count ▸ second) second
  have input : placed[i] ∈ mutants := perm.subset (List.getElem_mem _)
  have id : xs[i].id = mutants[i].id := by
    have here := congrArg (·[i]?) (ids.mpr together)
    simpa [first, second] using here
  obtain ⟨fileName, location⟩ :=
    alike _ input _ (List.getElem_mem first) (carries.id.symm.trans id)
  exact ⟨id, carries.fileName.trans fileName, carries.location.trans location⟩

def loneOrders : Orders := { config := {}, budget := ⟨0, 1⟩ }

def aside (id fileName : String) : CoveredMutant := { id, fileName, status := some .ignored }

def asideCues : List Cue :=
  List.replicate 7 (.task 0) ++ List.replicate 4 (.task 1) ++ List.replicate 5 (.task 2) ++
    List.replicate 14 .own

def asideEnd (mutants : List CoveredMutant) : Run :=
  (played asideCues (start loneOrders mutants)).getD (start loneOrders mutants)

def paired : List CoveredMutant := [aside "1" "a", aside "1" "a", aside "2" "b"]

set_option maxRecDepth 4096 in
theorem pairedPlayed :
    played asideCues (start loneOrders paired) = some (asideEnd paired) := rfl

set_option maxRecDepth 4096 in
theorem pairedEnded : (asideEnd paired).conduct =
    .finished (.ok (inOrder paired (paired.map (·.resultAs .ignored)))) := rfl

theorem resultsPlacedPaired :
    List.Forall₂ Matches paired (inOrder paired (paired.map (·.resultAs .ignored))) :=
  (resultsPlaced loneOrders (playedSteps (.refl _) pairedPlayed) pairedEnded).2.2
    (by decide) (by decide)

def parted : List CoveredMutant := [aside "1" "a", aside "2" "b", aside "1" "c"]

set_option maxRecDepth 4096 in
theorem partedPlayed :
    played asideCues (start loneOrders parted) = some (asideEnd parted) := rfl

set_option maxRecDepth 4096 in
theorem partedEnded : (asideEnd parted).conduct =
    .finished (.ok (inOrder parted (parted.map (·.resultAs .ignored)))) := rfl

/-- The answer of a run may be in another order than its mutants. -/
theorem resultsMisplaced : ¬ ∀ (o : Orders) (mutants : List CoveredMutant) (r : Run)
    (results : List MutantResult), Steps (start o mutants) r →
    r.conduct = .finished (.ok results) → List.Forall₂ Matches mutants results := by
  intro claim
  have right := claim _ _ _ _ (playedSteps (.refl _) partedPlayed) partedEnded
  have same : (inOrder parted (parted.map (·.resultAs .ignored))).map (·.id) = parted.map (·.id) := by
    rw [← List.forall₂_eq_eq_eq, List.forall₂_map_left_iff, List.forall₂_map_right_iff]
    exact right.flip.imp fun _ _ here => here.id
  have sorted := inOrderSorted parted (parted.map (·.resultAs .ignored))
  rw [same] at sorted
  have ordered := List.rel_of_pairwise_cons sorted List.mem_cons_self
  exact absurd ordered (by decide)

end Run

end MutationPipeline
