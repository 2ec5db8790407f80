import MutationPipeline.Pipeline.Record
import MutationPipeline.Proofs.Lists

/-! Mutants on their way through a run. A step trades some of them for others: none of them comes
twice out of it, each is as far as the answers that came in say, and those answers are about no
other mutant. -/
namespace MutationPipeline

/-- A mutant that nobody has looked at, that some checkers have passed, about which one of them has
said something or has to say something, that tests are to be run against, or whose tests were run;
or the result of a mutant. -/
inductive Parcel where
  | fresh (m : CoveredMutant)
  | cleared (checkers : Nat) (m : CoveredMutant)
  | judged (checker : Nat) (v : Option Verdict) (m : CoveredMutant)
  | covered (m : CoveredMutant)
  | ran (m : CoveredMutant) (run : TestRun)
  | settled (x : MutantResult)

structure Imprint where
  id : String
  fileName : String
  location : Location
  mutator : String
  replacement : String
  coveredBy : List String
  isStatic : Bool

def CoveredMutant.imprint (m : CoveredMutant) : Imprint :=
  ⟨m.id, m.fileName, m.location, m.mutator, m.replacement, m.coveredBy, m.isStatic⟩

def MutantResult.imprint (x : MutantResult) : Imprint :=
  ⟨x.id, x.fileName, x.location, x.mutator, x.replacement, x.coveredBy, x.isStatic⟩

theorem carriesIff {m : CoveredMutant} {x : MutantResult} :
    Carries m x ↔ x.imprint = m.imprint := by
  constructor
  · rintro ⟨id, fileName, location, mutator, replacement, coveredBy, isStatic⟩
    rw [MutantResult.imprint, id, fileName, location, mutator, replacement, coveredBy, isStatic]
    rfl
  · intro same
    obtain ⟨id, fileName, location, mutator, replacement, coveredBy, isStatic⟩ :=
      Imprint.mk.inj same
    exact ⟨id, fileName, location, mutator, replacement, coveredBy, isStatic⟩

namespace Parcel

def id : Parcel → String
  | .fresh m | .cleared _ m | .judged _ _ m | .covered m | .ran m _ => m.id
  | .settled x => x.id

def imprint : Parcel → Imprint
  | .fresh m | .cleared _ m | .judged _ _ m | .covered m | .ran m _ => m.imprint
  | .settled x => x.imprint

theorem imprintId (x : Parcel) : x.imprint.id = x.id := by
  cases x <;> rfl

def Sound (mutants : List CoveredMutant) (n : Nat) (log : List Answer) : Parcel → Prop
  | .fresh m => m ∈ mutants ∧ stamps log m.id = [] ∧ runs log m.id = []
  | .cleared k m =>
    m ∈ mutants ∧ m.status ≠ some .ignored ∧ Cleared log m k ∧ runs log m.id = []
  | .judged k v m =>
    m ∈ mutants ∧ m.status ≠ some .ignored ∧
      (∃ passed : List Verdict, passed.length = k ∧ (∀ w ∈ passed, w.standing = .passed) ∧
        stamps log m.id = (passed ++ v.toList).zipIdx) ∧ runs log m.id = []
  | .covered m =>
    m ∈ mutants ∧ m.status ≠ some .ignored ∧ Cleared log m n ∧ m.Testable ∧
      runs log m.id = []
  | .ran m run =>
    m ∈ mutants ∧ m.status ≠ some .ignored ∧ Cleared log m n ∧ m.Testable ∧
      runs log m.id = [run]
  | .settled x => ∃ m ∈ mutants, Carries m x ∧ Deserved n log m x

end Parcel

theorem stampsAppend (log more : List Answer) (id : String) :
    stamps (log ++ more) id = stamps log id ++ stamps more id :=
  List.flatMap_append

theorem runsAppend (log more : List Answer) (id : String) :
    runs (log ++ more) id = runs log id ++ runs more id :=
  List.flatMap_append

def Silent (entries : List Answer) (id : String) : Prop :=
  stamps entries id = [] ∧ runs entries id = []

section Silent
variable {log more : List Answer} {mutants : List CoveredMutant} {n : Nat} {x : Parcel}
  {m : CoveredMutant}

theorem Silent.stampsSame {id : String} (silent : Silent more id) :
    stamps (log ++ more) id = stamps log id := by
  rw [stampsAppend, silent.1, List.append_nil]

theorem Silent.runsSame {id : String} (silent : Silent more id) :
    runs (log ++ more) id = runs log id := by
  rw [runsAppend, silent.2, List.append_nil]

theorem Silent.cleared (silent : Silent more m.id) {k : Nat} (cleared : Cleared log m k) :
    Cleared (log ++ more) m k := by
  obtain ⟨vs, count, passed, seen⟩ := cleared
  exact ⟨vs, count, passed, silent.stampsSame.trans seen⟩

theorem Silent.deserved (silent : Silent more m.id) {result : MutantResult}
    (deserved : Deserved n log m result) : Deserved n (log ++ more) m result := by
  cases deserved with
  | ignored aside unseen idle tells =>
    exact .ignored aside (silent.stampsSame.trans unseen) (silent.runsSame.trans idle) tells
  | refused taken some before refusal seen idle tells =>
    exact .refused taken some before refusal (silent.stampsSame.trans seen)
      (silent.runsSame.trans idle) tells
  | unreached taken cleared untested idle tells =>
    exact .unreached taken (silent.cleared cleared) untested (silent.runsSame.trans idle) tells
  | tested taken cleared testable once shown =>
    exact .tested taken (silent.cleared cleared) testable (silent.runsSame.trans once) shown

theorem Silent.sound (silent : Silent more x.id) (sound : x.Sound mutants n log) :
    x.Sound mutants n (log ++ more) := by
  cases x with
  | fresh m =>
    obtain ⟨input, unseen, idle⟩ := sound
    exact ⟨input, silent.stampsSame.trans unseen, silent.runsSame.trans idle⟩
  | cleared k m =>
    obtain ⟨input, taken, cleared, idle⟩ := sound
    exact ⟨input, taken, silent.cleared cleared, silent.runsSame.trans idle⟩
  | judged k v m =>
    obtain ⟨input, taken, ⟨passed, count, all, seen⟩, idle⟩ := sound
    exact ⟨input, taken, ⟨passed, count, all, silent.stampsSame.trans seen⟩,
      silent.runsSame.trans idle⟩
  | covered m =>
    obtain ⟨input, taken, cleared, covered, idle⟩ := sound
    exact ⟨input, taken, silent.cleared cleared, covered, silent.runsSame.trans idle⟩
  | ran m run =>
    obtain ⟨input, taken, cleared, covered, once⟩ := sound
    exact ⟨input, taken, silent.cleared cleared, covered, silent.runsSame.trans once⟩
  | settled result =>
    obtain ⟨m, input, carries, deserved⟩ := sound
    have silent : Silent more m.id := carries.id ▸ silent
    exact ⟨m, input, carries, silent.deserved deserved⟩

end Silent

structure Trade (mutants : List CoveredMutant) (n : Nat) (entries : List Answer)
    (old new : List Parcel) : Prop where
  imprints : (new.map Parcel.imprint).Subperm (old.map Parcel.imprint)
  sound : ∀ log, (old.map Parcel.id).Nodup → (∀ x ∈ old, x.Sound mutants n log) →
    ∀ x ∈ new, x.Sound mutants n (log ++ entries)
  silent : ∀ id ∉ old.map Parcel.id, Silent entries id

namespace Trade
variable {mutants : List CoveredMutant} {n : Nat} {entries : List Answer}
  {old new : List Parcel}

theorem ids (trade : Trade mutants n entries old new) :
    (new.map Parcel.id).Subperm (old.map Parcel.id) := by
  have same (xs : List Parcel) : (xs.map Parcel.imprint).map (·.id) = xs.map Parcel.id := by
    rw [List.map_map]
    exact List.map_congr_left fun x _ => x.imprintId
  have fewer := subpermMap (f := (·.id)) trade.imprints
  rwa [same, same] at fewer

theorem drop (fewer : new.Subperm old) : Trade mutants n [] old new where
  imprints := subpermMap fewer
  sound := fun log _ sound x member => by
    rw [List.append_nil]
    exact sound x (fewer.subset member)
  silent := fun _ _ => ⟨rfl, rfl⟩

theorem perm {old' new' : List Parcel} (trade : Trade mutants n entries old new)
    (before : old'.Perm old) (after : new'.Subperm new) : Trade mutants n entries old' new' where
  imprints := ((subpermMap after).trans trade.imprints).trans (before.map _).symm.subperm
  sound := fun log single sound x member =>
    trade.sound log ((before.map _).nodup_iff.mp single)
      (fun y old => sound y (before.mem_iff.mpr old)) x (after.subset member)
  silent := fun id absent =>
    trade.silent id fun member => absent ((before.map _).mem_iff.mpr member)

theorem after {between : List Parcel} (second : Trade mutants n entries between new)
    (first : Trade mutants n [] old between) : Trade mutants n entries old new where
  imprints := second.imprints.trans first.imprints
  sound := fun log single sound => by
    refine second.sound log (subpermNodup first.ids single) fun x member => ?_
    have kept := first.sound log single sound x member
    rwa [List.append_nil] at kept
  silent := fun id absent => second.silent id fun member => absent (first.ids.subset member)

theorem frame (trade : Trade mutants n entries old new) (rest : List Parcel) :
    Trade mutants n entries (old ++ rest) (new ++ rest) where
  imprints := by
    rw [List.map_append, List.map_append]
    exact (List.subperm_append_right _).mpr trade.imprints
  sound := by
    intro log single sound x member
    rw [List.map_append] at single
    obtain ⟨unique, -, apart⟩ := List.nodup_append.mp single
    rcases List.mem_append.mp member with traded | other
    · exact trade.sound log unique (fun y old => sound y (List.mem_append_left _ old)) x traded
    · have absent : x.id ∉ old.map Parcel.id :=
        fun twice => apart _ twice _ (List.mem_map_of_mem other) rfl
      exact (trade.silent _ absent).sound (sound x (List.mem_append_right _ other))
  silent := fun id absent =>
    trade.silent id fun member => absent (List.map_append ▸ List.mem_append_left _ member)

theorem one {x y : Parcel} (same : y.imprint = x.imprint)
    (sound : ∀ log, x.Sound mutants n log → y.Sound mutants n log) :
    Trade mutants n [] [x] [y] where
  imprints := by
    rw [List.map_singleton, List.map_singleton, same]
  sound := fun log _ before z member => by
    rw [List.append_nil, List.mem_singleton.mp member]
    exact sound log (before x List.mem_cons_self)
  silent := fun _ _ => ⟨rfl, rfl⟩

theorem verdictsStamps {k : Nat} {group : Group} {vs : Verdicts} {m : CoveredMutant}
    (single : (group.map (·.id)).Nodup) (inside : m ∈ group) :
    stamps [.verdicts k group vs] m.id = ((vs.get? m.id).map (·, k)).toList := by
  obtain ⟨before, after, rfl, others⟩ := splitUnique single inside
  have none (part : List CoveredMutant) (among : part ⊆ before ++ after) :
      (part.filterMap fun x => if x.id = m.id then (vs.get? m.id).map (·, k) else none) = [] :=
    List.filterMap_eq_nil_iff.mpr fun x member => if_neg (others x (among member))
  rw [stamps, List.flatMap_singleton, Answer.stamps, List.filterMap_append, List.filterMap_cons,
    none before (by simp), none after (by simp), if_pos rfl]
  cases vs.get? m.id <;> rfl

theorem verdicts (k : Nat) (group : Group) (vs : Verdicts) :
    Trade mutants n [.verdicts k group vs] (group.map (.cleared k))
      (group.map fun m => .judged k (vs.get? m.id) m) where
  imprints := by
    rw [List.map_map, List.map_map]
    exact .refl _
  sound := by
    intro log single sound x member
    obtain ⟨m, inside, rfl⟩ := List.mem_map.mp member
    obtain ⟨input, taken, ⟨passed, count, all, seen⟩, idle⟩ := sound _ (List.mem_map_of_mem inside)
    refine ⟨input, taken, ⟨passed, count, all, ?_⟩, ?_⟩
    · rw [List.map_map] at single
      rw [stampsAppend, seen, verdictsStamps single inside, List.zipIdx_append, Nat.zero_add, count]
      cases vs.get? m.id <;> rfl
    · rw [runsAppend, idle]
      rfl
  silent := by
    intro id absent
    refine ⟨?_, rfl⟩
    rw [stamps, List.flatMap_singleton, Answer.stamps, List.filterMap_eq_nil_iff]
    intro m inside
    have other : m.id ≠ id :=
      fun same => absent (List.mem_map.mpr ⟨_, List.mem_map_of_mem inside, same⟩)
    rw [if_neg other]

theorem outcome (m : CoveredMutant) (run : TestRun) :
    Trade mutants n [.outcome m run] [.covered m] [.ran m run] where
  imprints := .refl _
  sound := by
    intro log _ sound x member
    rw [List.mem_singleton.mp member]
    obtain ⟨input, taken, cleared, covered, idle⟩ := sound _ List.mem_cons_self
    have quiet : stamps (log ++ [.outcome m run]) m.id = stamps log m.id := by
      rw [stampsAppend]
      exact List.append_nil _
    refine ⟨input, taken, ?_, covered, ?_⟩
    · obtain ⟨vs, count, passed, seen⟩ := cleared
      exact ⟨vs, count, passed, quiet.trans seen⟩
    · rw [runsAppend, idle]
      simp [runs, Answer.runs]
  silent := by
    intro id absent
    refine ⟨rfl, ?_⟩
    have other : m.id ≠ id := fun same => absent (same ▸ List.mem_cons_self)
    simp [runs, Answer.runs, other]

end Trade

section Results
variable {mutants : List CoveredMutant} {n k : Nat} {m : CoveredMutant} {v : Verdict}

theorem resultWithCarries (m : CoveredMutant) (status : Status) (reason : Option String) :
    Carries m (m.resultWith status reason) := ⟨rfl, rfl, rfl, rfl, rfl, rfl, rfl⟩

theorem resultOfRunCarries (m : CoveredMutant) (run : TestRun) :
    Carries m (m.resultOfRun run) := by
  cases run <;> exact ⟨rfl, rfl, rfl, rfl, rfl, rfl, rfl⟩

theorem resultOfRunShown (m : CoveredMutant) (run : TestRun) : run.Shown (m.resultOfRun run) := by
  cases run <;> exact ⟨rfl, rfl, rfl, rfl⟩

theorem setAside (aside : m.status = some .ignored) :
    Trade mutants n [] [.fresh m] [.settled (m.resultAs .ignored)] :=
  .one rfl fun _ ⟨input, unseen, idle⟩ =>
    ⟨m, input, resultWithCarries m _ _, .ignored aside unseen idle ⟨rfl, rfl, rfl, rfl⟩⟩

theorem takeIn (taken : m.status ≠ some .ignored) :
    Trade mutants n [] [.fresh m] [.cleared 0 m] :=
  .one rfl fun _ ⟨input, unseen, idle⟩ =>
    ⟨input, taken, ⟨[], rfl, by simp, unseen⟩, idle⟩

theorem pass (passed : v.standing = .passed) :
    Trade mutants n [] [.judged k (some v) m] [.cleared (k + 1) m] := by
  refine .one rfl fun log ⟨input, taken, ⟨vs, count, all, seen⟩, idle⟩ => ?_
  refine ⟨input, taken, ⟨vs ++ [v], by simp [count], fun w member => ?_, seen⟩, idle⟩
  rcases List.mem_append.mp member with before | last
  · exact all w before
  · rw [List.mem_singleton.mp last]
    exact passed

theorem refuse (refusal : v.standing ≠ .passed) (some : k < n) :
    Trade mutants n [] [.judged k (.some v) m] [.settled (m.resultOfVerdict v)] := by
  refine .one rfl fun log ⟨input, taken, ⟨vs, count, all, seen⟩, idle⟩ => ?_
  exact ⟨m, input, resultWithCarries m _ _,
    .refused taken (count ▸ some) all refusal seen idle ⟨rfl, rfl, rfl, rfl⟩⟩

theorem leaveOut (untested : ¬m.Testable) :
    Trade mutants n [] [.cleared n m] [.settled (m.resultAs .noCoverage)] :=
  .one rfl fun _ ⟨input, taken, cleared, idle⟩ =>
    ⟨m, input, resultWithCarries m _ _, .unreached taken cleared untested idle ⟨rfl, rfl, rfl, rfl⟩⟩

theorem reach (testable : m.Testable) : Trade mutants n [] [.cleared n m] [.covered m] :=
  .one rfl fun _ ⟨input, taken, cleared, idle⟩ => ⟨input, taken, cleared, testable, idle⟩

theorem finishRun (run : TestRun) :
    Trade mutants n [] [.ran m run] [.settled (m.resultOfRun run)] :=
  .one (carriesIff.mp (resultOfRunCarries m run)) fun _ ⟨input, taken, cleared, testable, once⟩ =>
    ⟨m, input, resultOfRunCarries m run,
      .tested taken cleared testable once (resultOfRunShown m run)⟩

end Results

end MutationPipeline
