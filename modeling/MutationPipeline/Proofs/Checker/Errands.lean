import MutationPipeline.Proofs.Checker.Attendance
import MutationPipeline.Proofs.Pipeline.Stages
import MutationPipeline.Proofs.Pool.Errands

/-! What the stage of a checker asks its workers for. It asks for checks when it has its groups, of each
group once, and once more if the worker died; no mutant is in two groups. -/
namespace MutationPipeline

theorem Activation.movesSilent {staffing : Staffing} {name : String} {seat : Nat} {a : Activation}
    {c u : CheckCrew} {n : Next Activation (Except WorkerError Unit)}
    (begins : a.Begins (Unseen CheckWork.checked?))
    (move : (u, n) ∈ Activation.moves staffing name seat a c) :
    Crew.Spoke CheckWork.checked? [] c u := by
  cases a with
  | remembering =>
    obtain ⟨rfl, -⟩ := memStep.mp move
    split
    · exact c.rememberSpoke seat rfl
    · exact Crew.Hushed.spoke ⟨rfl, rfl⟩
  | calling call =>
    exact Machine.withinSpoke id move (fun _ _ => Calling.movesSilent begins) fun _ _ => ⟨rfl, rfl⟩

theorem Broadcast.tellSilent {staffing : Staffing} {name : String} {b : Broadcast Activation}
    {s s' : CheckSite} {n : Next (Broadcast Activation) (Except WorkerError Unit)}
    (begins : ∀ a ∈ b.phases, a.Begins (Unseen CheckWork.checked?))
    (move : (s', n) ∈ tell staffing name b s) : Crew.Spoke CheckWork.checked? [] s.crew s'.crew := by
  rcases tellCases move with ⟨-, rfl, -⟩ | ⟨results, -, rfl, -⟩ |
    ⟨before, seat, a, rest, u, o, rfl, inner, rfl, -⟩
  · exact Crew.Hushed.spoke ⟨rfl, rfl⟩
  · exact Crew.Hushed.spoke ⟨rfl, rfl⟩
  · exact Activation.movesSilent
      (begins a ((phasesFront before rest (.running (seat, a))).symm.subset List.mem_cons_self)) inner

namespace Stage

def CheckFits (group : Group) (h : Handling CheckWork) : Prop :=
  h.Fits CheckWork.checked? (.check (plain group))

theorem planSpeaks (plan : StagePlan) :
    (schedulePlan plan).Speaks CheckWork.checked? Handling.mayAsk Handling.begun? CheckFits plain where
  works := fun _ _ _ _ _ _ fits discreet move => checkWorks fits rfl discreet move
  idle := Handling.begunSelf
  starts := fun _ => trivial
  fresh := fun _ => rfl
  lawful := fun _ _ => rfl
  aloof := by
    intro v u item more
    cases List.mem_singleton.mp more
    rfl

/-- A stage that is not checking yet asks for no checks. -/
def Fits : Stage → Prop
  | .filling _ f => f.Begins (Unseen CheckWork.checked?)
  | .activating _ b => ∀ a ∈ b.phases, a.Begins (Unseen CheckWork.checked?)
  | .borrowing _ a => a.Begins (Unseen CheckWork.checked?)
  | .asking _ _ c => c.Begins (Unseen CheckWork.checked?)
  | .checking f | .routing _ _ f => f.Fits CheckWork.checked? CheckFits
  | _ => True

structure Speaks (k : Nat) (stage : Stage) (c u : CheckCrew) (n : Next Stage (Except RunError Unit)) :
    Prop where
  spoke : Crew.Spoke CheckWork.checked?
    ((n.elim (stage.asked k) (fun _ => []) []).filterMap Errand.checked?) c u
  fits : ∀ next, n = .go next → next.Fits

variable {plan : StagePlan} {stage : Stage} {k : Nat} {v v' : StageView}
  {n : Next Stage (Except RunError Unit)}

theorem Speaks.silent (spoke : Crew.Spoke CheckWork.checked? [] v.site.crew v'.site.crew)
    (asked : ∀ next, stage.asked k next = []) (fits : ∀ next, n = .go next → next.Fits) :
    stage.Speaks k v.site.crew v'.site.crew n where
  spoke := by
    have none : n.elim (stage.asked k) (fun _ => []) [] = [] := by
      cases n with
      | go next => exact asked next
      | _ => rfl
    rw [none]
    exact spoke
  fits := fits

theorem siteSpeaks {φ ρ : Type} {m : Machine CheckSite φ ρ} {p : φ} {embed : φ → Stage}
    {after : ρ → StageView → StageView × Next Stage (Except RunError Unit)}
    (move : (v', n) ∈ (onSite m).within embed after p v) (asked : ∀ next, stage.asked k next = [])
    (silent : ∀ u o, (u, o) ∈ m p v.site → Crew.Spoke CheckWork.checked? [] v.site.crew u.crew)
    (goes : ∀ u q, (u, .go q) ∈ m p v.site → (embed q).Fits)
    (ends : ∀ r u, (after r u).1 = u ∧ ∀ next, (after r u).2 = .go next → next.Fits) :
    stage.Speaks k v.site.crew v'.site.crew n := by
  rcases Machine.withinCases move with ⟨q, inner, rfl⟩ | ⟨u, r, inner, same⟩ | ⟨inner, rfl⟩
  · obtain ⟨u, moved, rfl⟩ := Machine.onCases inner
    refine .silent (silent u _ moved) asked fun next same => ?_
    cases same
    exact goes u q moved
  · obtain ⟨w, moved, rfl⟩ := Machine.onCases inner
    obtain ⟨still, fits⟩ := ends r (StageView.onSite.set w v)
    rw [← same] at still fits
    cases still
    exact .silent (silent w _ moved) asked fits
  · obtain ⟨u, moved, rfl⟩ := Machine.onCases inner
    exact .silent (silent u _ moved) asked fun _ same => by cases same

theorem notesHushed (notes : List Note) (v : StageView) :
    v.site.crew.Hushed (notes.foldl StageView.note v).site.crew := by
  induction notes generalizing v with
  | nil => exact ⟨rfl, rfl⟩
  | cons first rest ih => exact ⟨(ih (v.note first)).history, (ih (v.note first)).seats⟩

theorem checkingSpeaks {f : GroupSchedule} (fits : (Stage.checking f).Fits)
    (discreet : v.site.crew.Discreet CheckWork.checked?)
    (move : (v', n) ∈ moves plan (.checking f) v) :
    (Stage.checking f).Speaks k v.site.crew v'.site.crew n := by
  have spoken {u o} (inner : (u, o) ∈ Schedule.moves (schedulePlan plan) f v) :
      Crew.Spoke CheckWork.checked?
          ((o.elim (f.asked Handling.begun?) (fun _ => []) []).map fun x => plain x.1)
          v.site.crew u.site.crew ∧
        ∀ g, Schedule.after o = some g → g.Fits CheckWork.checked? CheckFits :=
    ⟨Schedule.movedSpoke (planSpeaks plan) fits discreet (Schedule.movesMoved inner),
      Schedule.movedFits (planSpeaks plan) fits discreet (Schedule.movesMoved inner)⟩
  rcases Machine.withinCases move with ⟨q, inner, rfl⟩ | ⟨u, ⟨y, g⟩, inner, same⟩ | ⟨inner, rfl⟩
  · obtain ⟨spoke, suits⟩ := spoken inner
    refine ⟨?_, fun next same => ?_⟩
    · rw [Next.elim] at spoke ⊢
      rw [asked, List.filterMap_map]
      refine (congrArg (Crew.Spoke _ · _ _) ?_).mp spoke
      rw [← List.filterMap_eq_map]
      rfl
    · cases same
      exact suits q rfl
  · obtain ⟨spoke, suits⟩ := spoken inner
    have silent (next : Stage) (other : ∀ h, next ≠ .checking h) :
        (Stage.checking f).asked k next = [] := by
      cases next with
      | checking h => exact absurd rfl (other h)
      | _ => rfl
    cases y with
    | none => cases same; exact ⟨spoke, fun _ same => by cases same⟩
    | some y =>
      obtain ⟨group, result⟩ := y
      cases result with
      | error e => cases same; exact ⟨spoke, fun _ same => by cases same⟩
      | ok answer =>
        cases answer with
        | error e => cases same; exact ⟨spoke, fun _ same => by cases same⟩
        | ok verdicts =>
          cases same
          exact ⟨spoke, fun _ same => by cases same; exact suits g rfl⟩
  · exact ⟨(spoken inner).1, fun _ same => by cases same⟩

theorem movesSpeaks (fits : stage.Fits) (discreet : v.site.crew.Discreet CheckWork.checked?)
    (move : (v', n) ∈ moves plan stage v) : stage.Speaks k v.site.crew v'.site.crew n := by
  have still {stage : Stage} {u : StageView} (crew : v.site.crew.Hushed u.site.crew)
      (asked : ∀ next, stage.asked k next = []) (fits : ∀ next, n = .go next → next.Fits) :
      stage.Speaks k v.site.crew u.site.crew n := .silent crew.spoke asked fits
  cases stage with
  | draining batch =>
    obtain ⟨⟨input, found⟩, -, same⟩ := List.mem_map.mp move
    cases found with
    | some m =>
      cases same
      exact still ⟨rfl, rfl⟩ (fun _ => rfl) fun _ same => by cases same; trivial
    | none =>
      simp only at same
      split at same
      · cases same
        exact still ⟨rfl, rfl⟩ (fun _ => rfl) fun _ same => by cases same
      · cases same
        exact still ⟨rfl, rfl⟩ (fun _ => rfl) fun _ same => by cases same; trivial
  | filling batch f =>
    refine siteSpeaks move (fun _ => rfl) (fun _ _ => Filling.movesSilent fits)
      (fun u q moved => Filling.movesBegins fits moved q rfl) fun r u => ?_
    cases r with
    | ok r =>
      refine ⟨rfl, fun _ same => ?_⟩
      cases same
      exact fun a member => absurd member List.not_mem_nil
    | error e => exact ⟨rfl, fun _ same => by cases same⟩
  | activating batch b =>
    refine siteSpeaks move (fun _ => rfl) (fun _ _ => Broadcast.tellSilent fits)
      (fun u q moved =>
        Broadcast.tellBegins (P := Unseen CheckWork.checked?) (fun _ => rfl) fits moved q rfl)
      fun r u => ?_
    cases r with
    | ok r => exact ⟨rfl, fun _ same => by cases same; trivial⟩
    | error e => exact ⟨rfl, fun _ same => by cases same⟩
  | borrowing batch a =>
    refine siteSpeaks move (fun _ => rfl) (fun _ _ => Acquisition.movesSilent fits)
      (fun u q moved => Acquisition.movesBegins moved q rfl) fun r u => ?_
    cases r with
    | ok lent => exact ⟨rfl, fun _ same => by cases same; rfl⟩
    | error e => exact ⟨rfl, fun _ same => by cases same⟩
  | asking batch ticket c =>
    refine siteSpeaks move (fun _ => rfl) (fun _ _ => callSilent fits) (fun u q moved => ?_)
      fun r u => ⟨rfl, fun _ same => by cases same; trivial⟩
    obtain ⟨w, called, -⟩ := Machine.onCases moved
    exact Calling.movesBegins called q rfl
  | returning batch ticket answer r =>
    refine siteSpeaks move (fun _ => rfl) (fun _ _ => Release.movesSilent)
      (fun u q moved => trivial) fun r u => ?_
    cases answer with
    | ok own => exact ⟨rfl, fun _ same => by cases same; trivial⟩
    | error e => exact ⟨rfl, fun _ same => by cases same⟩
  | grouping batch own =>
    have noted := notesHushed (groupsOf plan batch own).2 v
    simp only [moves] at move
    split at move
    · obtain ⟨rfl, rfl⟩ := memStep.mp move
      refine still ⟨noted.history, noted.seats⟩ (fun _ => rfl) fun _ same => ?_
      cases same
      exact ⟨fun _ _ _ same => (by cases same), fun _ _ _ _ member => absurd member List.not_mem_nil⟩
    · obtain ⟨rfl, rfl⟩ := memFinish.mp move
      exact still noted (fun _ => rfl) fun _ same => by cases same
  | checking f => exact checkingSpeaks fits discreet move
  | routing group verdicts f =>
    cases group with
    | nil =>
      obtain ⟨rfl, rfl⟩ := memStep.mp move
      exact still ⟨rfl, rfl⟩ (fun _ => rfl) fun _ same => by cases same; exact fits
    | cons m rest =>
      simp only [moves] at move
      split at move
      · obtain ⟨rfl, rfl⟩ := memFinish.mp move
        exact still ⟨rfl, rfl⟩ (fun _ => rfl) fun _ same => by cases same
      · obtain ⟨⟨u, sent⟩, routed, same⟩ := List.mem_map.mp move
        have crew : v.site.crew.Hushed u.site.crew := by
          rw [routeSite routed]
          exact ⟨rfl, rfl⟩
        cases sent with
        | ok r =>
          cases same
          exact still crew (fun _ => rfl) fun _ same => by cases same; exact fits
        | error e =>
          cases same
          exact still crew (fun _ => rfl) fun _ same => by cases same

end Stage

theorem checksOfAppend (errands more : List Errand) (k : Nat) (again : Bool) :
    checksOf (errands ++ more) k again = checksOf errands k again ++ checksOf more k again :=
  List.filterMap_append

theorem checksOfAsked (k : Nat) (again : Bool) (asked : List (Group × Bool)) :
    checksOf (asked.map fun (group, again) => .check k group again) k again =
      Schedule.calls again asked := by
  rw [checksOf, List.filterMap_map]
  refine List.filterMap_congr fun x _ => ?_
  simp [Errand.checkOf?]

/-- The groups of a schedule: no mutant is in one that was asked for and in one that is still to be
asked for, and only for the check of a group that was asked for somebody waits. -/
structure Schedule.Booked (k : Nat) (errands : List Errand) (f : GroupSchedule) : Prop where
  apart : ∀ again, (((checksOf errands k again ++ f.waiting (Handling.mayAsk again)).flatten).map
    (·.id)).Nodup
  asked : f.given (Handling.mayAsk false) ⊆ checksOf errands k false

namespace Stage
variable {plan : StagePlan} {stage : Stage} {k : Nat} {v v' : StageView} {errands : List Errand}

def Booked (k : Nat) (errands : List Errand) : Stage → Prop
  | .checking f | .routing _ _ f => f.Booked k errands
  | _ => ∀ again, checksOf errands k again = []

structure Books (k : Nat) (errands : List Errand) (stage next : Stage) : Prop where
  booked : next.Booked k (errands ++ stage.asked k next)
  asked : ∀ e ∈ stage.asked k next, ∃ group again, e = .check k group again ∧
    (again = true → group ∈ checksOf errands k false) ∧
    (again = false → ∀ m ∈ group, .cleared k m ∈ stage.parcels k)
  told : ∀ x ∈ stage.told k next, ∃ group vs, x = .verdicts k group vs ∧
    group ∈ checksOf errands k false

theorem Books.still {next : Stage} (asked : stage.asked k next = []) (told : stage.told k next = [])
    (booked : next.Booked k errands) : Books k errands stage next where
  booked := by rwa [asked, List.append_nil]
  asked := by simp [asked]
  told := by simp [told]

theorem checkingBooks {f g : GroupSchedule} (fits : (Stage.checking f).Fits)
    (discreet : v.site.crew.Discreet CheckWork.checked?) (booked : f.Booked k errands)
    (move : Schedule.Moved (schedulePlan plan) f v v' (.go g)) :
    Books k errands (.checking f) (.checking g) := by
  have advances := Schedule.movedAdvances (fun _ => []) (planSpeaks plan) fits discreet
    (fun _ _ => rfl) (fun s u item more => by cases List.mem_singleton.mp more) (fun _ _ _ => rfl)
    move
  simp only [List.append_nil] at advances
  have calls (again : Bool) : checksOf ((Stage.checking f).asked k (.checking g)) k again =
      Schedule.calls again (f.asked Handling.begun? g) := checksOfAsked k again _
  refine ⟨⟨fun again => ?_, fun group given => ?_⟩, fun e member => ?_, fun x member => ?_⟩
  · rw [checksOfAppend, calls, List.append_assoc]
    refine subpermNodup (subpermMap (subpermFlatten ?_)) (booked.apart again)
    exact (List.subperm_append_left _).mpr (advances.waiting again)
  · rw [checksOfAppend, calls]
    rcases List.mem_append.mp (advances.given given) with before | now
    · exact List.mem_append_left _ (booked.asked before)
    · exact List.mem_append_right _ now
  · obtain ⟨⟨group, again⟩, asked, rfl⟩ := List.mem_map.mp member
    have called : group ∈ Schedule.calls again (f.asked Handling.begun? g) :=
      List.mem_filterMap.mpr ⟨(group, again), asked, if_pos rfl⟩
    refine ⟨group, again, rfl, fun same => ?_, fun same m inside => ?_⟩
    · cases same
      exact booked.asked (advances.repeats called)
    · cases same
      have ready : group ∈ f.waiting (Handling.mayAsk false) :=
        (advances.waiting false).subset (List.mem_append_left _ called)
      exact Schedule.waitingContent (raw k) (worked k) _ ready (List.mem_map_of_mem inside)
  · obtain ⟨⟨group, result⟩, told, heard⟩ := List.mem_filterMap.mp member
    cases result with
    | ok vs =>
      cases heard
      exact ⟨group, vs, rfl, booked.asked (advances.told (List.mem_map_of_mem told))⟩
    | error e => cases heard

theorem inspectingBooks {f : GroupSchedule} {next : Stage} (fits : (Stage.checking f).Fits)
    (discreet : v.site.crew.Discreet CheckWork.checked?) (booked : f.Booked k errands)
    (move : (v', .go next) ∈ moves plan (.checking f) v) : Books k errands (.checking f) next := by
  rcases Machine.withinCases move with ⟨g, inner, same⟩ | ⟨u, ⟨y, g⟩, inner, same⟩ | ⟨inner, same⟩
  · cases same
    exact checkingBooks fits discreet booked (Schedule.movesMoved inner)
  · cases y with
    | none => cases same
    | some y =>
      obtain ⟨group, result⟩ := y
      cases result with
      | error e => cases same
      | ok answer =>
        cases answer with
        | error e => cases same
        | ok verdicts =>
          cases same
          have yields := Schedule.movedYields Handling.mayAsk (Schedule.movesMoved inner)
          refine .still rfl rfl ⟨fun again => ?_, List.Subset.trans (yields false).2.1 booked.asked⟩
          refine subpermNodup (subpermMap (subpermFlatten ?_)) (booked.apart again)
          exact (List.subperm_append_left _).mpr (yields again).1
  · cases same

theorem groupingBooks {batch : List CoveredMutant} {own : Option (List (List Mutant))} {next : Stage}
    (none : ∀ again, checksOf errands k again = [])
    (single : ((parcels k (.grouping batch own)).map Parcel.id).Nodup)
    (move : (v', .go next) ∈ moves plan (.grouping batch own) v) :
    Books k errands (.grouping batch own) next := by
  simp only [moves] at move
  split at move
  · next gs made =>
    cases (memStep.mp move).2
    refine .still rfl rfl ⟨fun again => ?_, fun group given => absurd given List.not_mem_nil⟩
    have whole : (Schedule.ofList gs : GroupSchedule).waiting (Handling.mayAsk again) = gs := by
      simp [Schedule.waiting, Schedule.ofList, Feed.content]
    rw [none, whole]
    rw [parcels, List.map_map] at single
    exact subpermNodup (subpermMap (groupsOfSubperm made)) single
  · cases (memFinish.mp move).2

theorem movesBooks {next : Stage} (fits : stage.Fits) (discreet : v.site.crew.Discreet CheckWork.checked?)
    (booked : stage.Booked k errands)
    (single : ((stage.parcels k).map Parcel.id).Nodup) (move : (v', .go next) ∈ moves plan stage v) :
    Books k errands stage next := by
  cases stage with
  | draining batch =>
    obtain ⟨⟨input, found⟩, -, same⟩ := List.mem_map.mp move
    cases found with
    | some m => cases same; exact .still rfl rfl booked
    | none =>
      simp only at same
      split at same
      · cases same
      · cases same; exact .still rfl rfl booked
  | grouping batch own => exact groupingBooks booked single move
  | checking f => exact inspectingBooks fits discreet booked move
  | routing group verdicts f =>
    cases group with
    | nil =>
      cases (memStep.mp move).2
      exact .still rfl rfl booked
    | cons m rest =>
      simp only [moves] at move
      split at move
      · cases (memFinish.mp move).2
      · obtain ⟨⟨u, sent⟩, -, same⟩ := List.mem_map.mp move
        cases sent with
        | ok r => cases same; exact .still rfl rfl booked
        | error e => cases same
  | returning batch ticket answer r =>
    rcases Machine.withinCases move with ⟨q, -, same⟩ | ⟨u, o, -, same⟩ | ⟨-, same⟩
    · cases same; exact .still rfl rfl booked
    · cases answer with
      | ok own => cases same; exact .still rfl rfl booked
      | error e => cases same
    · cases same
  | asking batch ticket c =>
    rcases Machine.withinCases move with ⟨q, -, same⟩ | ⟨u, r, -, same⟩ | ⟨-, same⟩ <;> cases same <;>
      exact .still rfl rfl booked
  | _ =>
    rcases Machine.withinCases move with ⟨q, -, same⟩ | ⟨u, r, -, same⟩ | ⟨-, same⟩
    · cases same; exact .still rfl rfl booked
    · cases r with
      | ok r => cases same; exact .still rfl rfl booked
      | error e => cases same
    · cases same

end Stage

end MutationPipeline
