import MutationPipeline.Proofs.Checker.Errands
import MutationPipeline.Proofs.Runner.Errands

/-! A ledger of the errands of a run. All that is asked for is entered: checks of mutants that the
checkers before have passed, and test runs against mutants that all of them have passed. Each task keeps
it in order for itself and for the others. -/
namespace MutationPipeline

section Due
variable {mutants : List CoveredMutant} {log : List Answer} {k : Nat} {m : CoveredMutant}

theorem Due.more (due : Due mutants log k m) (more : List Answer) : Due mutants (log ++ more) k m := by
  obtain ⟨input, taken, passed⟩ := due
  refine ⟨input, taken, fun i before => ?_⟩
  obtain ⟨v, seen, pass⟩ := passed i before
  rw [stampsAppend]
  exact ⟨v, List.mem_append_left _ seen, pass⟩

theorem Cleared.passed (cleared : Cleared log m k) :
    ∀ i < k, ∃ v, (v, i) ∈ stamps log m.id ∧ v.standing = .passed := by
  obtain ⟨vs, count, all, seen⟩ := cleared
  intro i before
  have inside : i < vs.length := count ▸ before
  refine ⟨vs[i], ?_, all _ (List.getElem_mem inside)⟩
  rw [seen]
  exact List.mem_zipIdx_iff_getElem?.mpr (List.getElem?_eq_getElem inside)

end Due

theorem checksOfOthers {errands more : List Errand} {k : Nat}
    (others : ∀ group again, .check k group again ∉ more) (again : Bool) :
    checksOf (errands ++ more) k again = checksOf errands k again := by
  have none : checksOf more k again = [] := by
    refine List.filterMap_eq_nil_iff.mpr fun e member => ?_
    cases e with
    | check j group b => exact if_neg fun ⟨same, _⟩ => others group b (same ▸ member)
    | test m b => rfl
  rw [checksOfAppend, none, List.append_nil]

theorem testsOfOthers {errands more : List Errand} (others : ∀ m again, .test m again ∉ more)
    (again : Bool) : testsOf (errands ++ more) again = testsOf errands again := by
  have none : testsOf more again = [] := by
    refine List.filterMap_eq_nil_iff.mpr fun e member => ?_
    cases e with
    | check j group b => rfl
    | test m b => exact absurd member (others m b)
  rw [testsOfAppend, none, List.append_nil]

theorem checksOfMem {errands : List Errand} {k : Nat} {group : Group} {again : Bool} :
    group ∈ checksOf errands k again ↔ .check k group again ∈ errands := by
  refine ⟨fun member => ?_, fun member => List.mem_filterMap.mpr ⟨_, member, if_pos ⟨rfl, rfl⟩⟩⟩
  obtain ⟨e, asked, same⟩ := List.mem_filterMap.mp member
  cases e with
  | check j g b =>
    simp only [Errand.checkOf?, Option.ite_none_right_eq_some] at same
    obtain ⟨⟨rfl, rfl⟩, same⟩ := same
    cases same
    exact asked
  | test m b => cases same

theorem testsOfMem {errands : List Errand} {m : CoveredMutant} {again : Bool} :
    m ∈ testsOf errands again ↔ .test m again ∈ errands := by
  refine ⟨fun member => ?_, fun member => List.mem_filterMap.mpr ⟨_, member, if_pos rfl⟩⟩
  obtain ⟨e, asked, same⟩ := List.mem_filterMap.mp member
  cases e with
  | check j g b => cases same
  | test x b =>
    simp only [Errand.testOf?, Option.ite_none_right_eq_some] at same
    obtain ⟨rfl, same⟩ := same
    cases same
    exact asked

namespace Stage
variable {errands more : List Errand} {k : Nat} {stage : Stage}

theorem Booked.others (booked : stage.Booked k errands)
    (others : ∀ group again, .check k group again ∉ more) : stage.Booked k (errands ++ more) := by
  have flying {f : GroupSchedule} (booked : f.Booked k errands) : f.Booked k (errands ++ more) := by
    refine ⟨fun again => ?_, ?_⟩
    · rw [checksOfOthers others]
      exact booked.apart again
    · rw [checksOfOthers others]
      exact booked.asked
  cases stage with
  | checking f => exact flying booked
  | routing group vs f => exact flying booked
  | _ => exact fun again => (checksOfOthers others again).trans (booked again)

theorem Booked.once (booked : stage.Booked k errands) (again : Bool) :
    ((checksOf errands k again).flatten.map (·.id)).Nodup := by
  have flying {f : GroupSchedule} (booked : f.Booked k errands) :
      ((checksOf errands k again).flatten.map (·.id)).Nodup :=
    (((List.sublist_append_left _ _).flatten).map _).nodup (booked.apart again)
  cases stage with
  | checking f => exact flying booked
  | routing group vs f => exact flying booked
  | _ =>
    rw [booked again]
    exact List.nodup_nil

end Stage

structure Ledger (o : Orders) (mutants : List CoveredMutant) (log : List Answer) (errands : List Errand) :
    Prop where
  checked : ∀ k group again, .check k group again ∈ errands → k < o.config.checkers.length ∧
    group ∈ checksOf errands k false ∧ ∀ m ∈ group, Due mutants log k m
  tested : ∀ m again, .test m again ∈ errands → m ∈ testsOf errands false ∧
    Due mutants log o.config.checkers.length m ∧ m.Testable
  once : ∀ k again, ((checksOf errands k again).flatten.map (·.id)).Nodup
  single : ∀ again, ((testsOf errands again).map (·.id)).Nodup
  judged : ∀ k group vs, .verdicts k group vs ∈ log → group ∈ checksOf errands k false
  ran : ∀ m run, .outcome m run ∈ log → m ∈ testsOf errands false

namespace Ledger
variable {o : Orders} {mutants : List CoveredMutant} {errands : List Errand} {log : List Answer}

theorem checksMore {k : Nat} {again : Bool} {group : Group} (more : List Errand)
    (before : group ∈ checksOf errands k again) : group ∈ checksOf (errands ++ more) k again := by
  rw [checksOfAppend]
  exact List.mem_append_left _ before

theorem testsMore {again : Bool} {m : CoveredMutant} (more : List Errand)
    (before : m ∈ testsOf errands again) : m ∈ testsOf (errands ++ more) again := by
  rw [testsOfAppend]
  exact List.mem_append_left _ before

theorem checks {stage next : Stage} {k : Nat} (ledger : Ledger o mutants log errands)
    (books : Stage.Books k errands stage next) (inside : k < o.config.checkers.length)
    (due : ∀ m, .cleared k m ∈ stage.parcels k → Due mutants log k m) :
    Ledger o mutants (log ++ stage.told k next) (errands ++ stage.asked k next) := by
  have noTests (m : CoveredMutant) (again : Bool) : .test m again ∉ stage.asked k next := by
    intro member
    obtain ⟨g, b, same, -⟩ := books.asked _ member
    cases same
  refine ⟨fun j group again member => ?_, fun m again member => ?_, fun j again => ?_, fun again => ?_,
    fun j group vs member => ?_, fun m run member => ?_⟩
  · rcases List.mem_append.mp member with before | now
    · obtain ⟨few, first, due⟩ := ledger.checked j group again before
      exact ⟨few, checksMore _ first, fun m inside => (due m inside).more _⟩
    · obtain ⟨_, _, same, repeated, fresh⟩ := books.asked _ now
      cases same
      cases again with
      | true =>
        have first := repeated rfl
        obtain ⟨-, -, due⟩ := ledger.checked k group false (checksOfMem.mp first)
        exact ⟨inside, checksMore _ first, fun m here => (due m here).more _⟩
      | false =>
        have asked : group ∈ checksOf (stage.asked k next) k false := checksOfMem.mpr now
        refine ⟨inside, ?_, fun m here => (due m (fresh rfl m here)).more _⟩
        rw [checksOfAppend]
        exact List.mem_append_right _ asked
  · rcases List.mem_append.mp member with before | now
    · obtain ⟨first, due, covered⟩ := ledger.tested m again before
      exact ⟨testsMore _ first, due.more _, covered⟩
    · exact absurd now (noTests m again)
  · by_cases same : j = k
    · subst same
      exact books.booked.once again
    · rw [checksOfOthers fun group b member => ?_]
      · exact ledger.once j again
      · obtain ⟨_, _, other, -⟩ := books.asked _ member
        cases other
        exact same rfl
  · rw [testsOfOthers noTests]
    exact ledger.single again
  · rcases List.mem_append.mp member with before | now
    · exact checksMore _ (ledger.judged j group vs before)
    · obtain ⟨_, _, same, asked⟩ := books.told _ now
      cases same
      exact checksMore _ asked
  · rcases List.mem_append.mp member with before | now
    · exact testsMore _ (ledger.ran m run before)
    · obtain ⟨_, _, same, -⟩ := books.told _ now
      cases same

theorem tests {t next : Testing} {around : List Parcel} (ledger : Ledger o mutants log errands)
    (books : Testing.Books around errands log t next)
    (due : ∀ m, .covered m ∈ around →
      Due mutants log o.config.checkers.length m ∧ m.Testable) :
    Ledger o mutants (log ++ t.told next) (errands ++ t.asked next) := by
  have noChecks (k : Nat) (group : Group) (again : Bool) : .check k group again ∉ t.asked next := by
    intro member
    obtain ⟨g, b, same, -⟩ := books.asked _ member
    cases same
  refine ⟨fun j group again member => ?_, fun m again member => ?_, fun j again => ?_,
    fun again => books.single again (ledger.single again), fun j group vs member => ?_,
    fun m run member => ?_⟩
  · rcases List.mem_append.mp member with before | now
    · obtain ⟨few, first, due⟩ := ledger.checked j group again before
      exact ⟨few, checksMore _ first, fun m inside => (due m inside).more _⟩
    · exact absurd now (noChecks j group again)
  · rcases List.mem_append.mp member with before | now
    · obtain ⟨first, due, covered⟩ := ledger.tested m again before
      exact ⟨testsMore _ first, due.more _, covered⟩
    · obtain ⟨_, _, same, repeated, fresh⟩ := books.asked _ now
      cases same
      cases again with
      | true =>
        have first := repeated rfl
        obtain ⟨-, due, covered⟩ := ledger.tested m false (testsOfMem.mp first)
        exact ⟨testsMore _ first, due.more _, covered⟩
      | false =>
        have asked : m ∈ testsOf (t.asked next) false := testsOfMem.mpr now
        obtain ⟨due, covered⟩ := due m (fresh rfl)
        refine ⟨?_, due.more _, covered⟩
        rw [testsOfAppend]
        exact List.mem_append_right _ asked
  · rw [checksOfOthers (noChecks j)]
    exact ledger.once j again
  · rcases List.mem_append.mp member with before | now
    · exact checksMore _ (ledger.judged j group vs before)
    · obtain ⟨_, _, same, -⟩ := books.told _ now
      cases same
  · rcases List.mem_append.mp member with before | now
    · exact testsMore _ (ledger.ran m run before)
    · obtain ⟨_, _, same, asked⟩ := books.told _ now
      cases same
      exact testsMore _ asked

end Ledger

namespace Role
variable {o : Orders} {mutants : List CoveredMutant} {place : Nat} {label : Nat → CoveredMutant → Parcel}
  {f f' : Floor} {role next : Role} {errands : List Errand} {log : List Answer}

def Booked (place : Nat) (errands : List Errand) (log : List Answer) : Role → Prop
  | .checking _ stage => stage.Booked (place - 1) errands
  | .testing _ t => t.Booked errands log
  | _ => True

theorem At.idle (there : next.At o place) (aside : place = 0 ∨
    (place = o.config.checkers.length + 1 ∧ o.hasCheckers = true) ∨ place + 1 = o.last) :
    next.Booked place errands log := by
  cases next with
  | checking plan stage =>
    obtain ⟨after, known, -⟩ := there
    have inside : place - 1 < o.config.checkers.length := (List.getElem?_eq_some_iff.mp known).1
    rw [Orders.last] at aside
    split at aside <;> omega
  | testing planOf t =>
    have there : place = o.last := there
    rw [Orders.last] at there aside
    split at there <;> simp_all
  | _ => trivial

structure Books (o : Orders) (mutants : List CoveredMutant) (place : Nat) (errands : List Errand)
    (log : List Answer) (role next : Role) : Prop where
  booked : next.Booked place (errands ++ role.asked place next) (log ++ role.told place next)
  others : ∀ p other, p ≠ place → Role.At o p other → other.Booked p errands log →
    other.Booked p (errands ++ role.asked place next) (log ++ role.told place next)
  ledger : Ledger o mutants log errands →
    Ledger o mutants (log ++ role.told place next) (errands ++ role.asked place next)

theorem Books.still (asked : role.asked place next = []) (told : role.told place next = [])
    (booked : next.Booked place errands log) : Books o mutants place errands log role next := by
  refine ⟨?_, fun p other _ _ before => ?_, fun before => ?_⟩ <;>
    rwa [asked, told, List.append_nil, List.append_nil]

theorem checkingBooks {plan : StagePlan} {stage : Stage} (here : At o place (.checking plan stage))
    (fits : Fits o.config.checkers.length label place (.checking plan stage))
    (suits : Suits o (.checking plan stage)) (discreet : f.checkers.crew.Discreet CheckWork.checked?)
    (booked : Booked place errands log (.checking plan stage))
    (single : ((stage.parcels (place - 1)).map Parcel.id).Nodup)
    (sound : ∀ x ∈ stage.parcels (place - 1), x.Sound mutants o.config.checkers.length log)
    (move : (f', .go next) ∈ moves place (.checking plan stage) f) :
    Books o mutants place errands log (.checking plan stage) next := by
  rcases Machine.withinCases move with ⟨later, inner, same⟩ | ⟨u, r, inner, same⟩ | ⟨inner, same⟩
  · cases same
    obtain ⟨v, moved, rfl⟩ := Machine.onCases inner
    have books : Stage.Books (place - 1) errands stage later :=
      Stage.movesBooks suits discreet booked single moved
    refine ⟨books.booked, fun p other differs there before => ?_, fun ledger => ?_⟩
    · have others (k : Nat) (differs : k ≠ place - 1) (group : Group) (again : Bool) :
          .check k group again ∉ stage.asked (place - 1) later := by
        intro member
        obtain ⟨_, _, same, -⟩ := books.asked _ member
        cases same
        exact differs rfl
      have noTests (m : CoveredMutant) (again : Bool) :
          .test m again ∉ stage.asked (place - 1) later := by
        intro member
        obtain ⟨_, _, same, -⟩ := books.asked _ member
        cases same
      cases other with
      | checking plan' stage' =>
        refine Stage.Booked.others before (others (p - 1) ?_)
        have first : 0 < p := there.1
        have second : 0 < place := here.1
        omega
      | testing planOf t =>
        have same (again : Bool) : testsOf (errands ++ stage.asked (place - 1) later) again =
            testsOf errands again := testsOfOthers noTests again
        refine ⟨fun again m member => ?_, fun m given => same false ▸ before.asked given⟩
        exact (before.done again m (same again ▸ member)).imp_left (Testing.runsMore _)
      | _ => trivial
    · refine ledger.checks books fits.1 fun m inside => ?_
      obtain ⟨input, taken, cleared, -⟩ := sound _ inside
      exact ⟨input, taken, cleared.passed⟩
  · cases same
  · cases same

theorem testingBooks {planOf : CoveredMutant → RunPlan} {t : Testing}
    (here : At o place (.testing planOf t))
    (fits : label place = .covered) (suits : Suits o (.testing planOf t))
    (discreet : f.runners.crew.Discreet some) (booked : t.Booked errands log)
    (single : ((t.parcels ++ f.window label place).map Parcel.id).Nodup)
    (sound : ∀ x ∈ t.parcels ++ f.window label place, x.Sound mutants o.config.checkers.length log)
    (move : (f', .go next) ∈ moves place (.testing planOf t) f) :
    Books o mutants place errands log (.testing planOf t) next := by
  obtain ⟨rfl, suits⟩ := suits
  rcases Machine.withinCases move with ⟨later, inner, same⟩ | ⟨u, r, inner, same⟩ | ⟨inner, same⟩
  · cases same
    have books : Testing.Books (t.parcels ++ f.window label place) errands log t later :=
      Testing.movesBooks fits suits discreet booked single sound inner
    refine ⟨books.booked, fun p other differs there before => ?_, fun ledger => ?_⟩
    · cases other with
      | checking plan' stage' =>
        refine Stage.Booked.others before fun group again member => ?_
        obtain ⟨_, _, same, -⟩ := books.asked _ member
        cases same
      | testing planOf t =>
        have first : p = o.last := there
        have second : place = o.last := here
        exact absurd (first.trans second.symm) differs
      | _ => trivial
    · refine ledger.tests books fun m inside => ?_
      obtain ⟨input, taken, cleared, covered, -⟩ := sound _ inside
      exact ⟨⟨input, taken, cleared.passed⟩, covered⟩
  · cases same
  · cases same

theorem movesBooks (here : role.At o place) (fits : role.Fits o.config.checkers.length label place)
    (suits : role.Suits o) (checkers : f.checkers.crew.Discreet CheckWork.checked?)
    (runners : f.runners.crew.Discreet some) (booked : role.Booked place errands log)
    (single : ((role.parcels label place ++ f.window label place).map Parcel.id).Nodup)
    (sound : ∀ x ∈ role.parcels label place ++ f.window label place,
      x.Sound mutants o.config.checkers.length log)
    (move : (f', .go next) ∈ role.moves place f) : Books o mutants place errands log role next := by
  have there : next.At o place := (movesOnward move).stays o here
  cases role with
  | checking plan stage =>
    refine checkingBooks here fits suits checkers booked ?_
      (fun x member => sound x (List.mem_append_left _ member)) move
    exact ((List.sublist_append_left _ _).map _).nodup single
  | testing planOf t => exact testingBooks here fits suits runners booked single sound move
  | ignoring rest => exact .still rfl rfl (there.idle (.inl here))
  | releasing share h => exact .still rfl rfl (there.idle (.inr (.inl ⟨here.1, here.2.2⟩)))
  | covering held => exact .still rfl rfl (there.idle (.inr (.inr here)))

end Role

end MutationPipeline
