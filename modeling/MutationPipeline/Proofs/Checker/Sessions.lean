import Mathlib.Data.List.Induction
import MutationPipeline.Pipeline.Setup
import MutationPipeline.Proofs.Checker.Hosts
import MutationPipeline.Proofs.Worker.Sessions

/-! One checking worker and its caller: it is told which checker to use, and it is asked for checks
and for groups, one after the other. -/
namespace MutationPipeline

abbrev CheckLog := List (Exchange CheckWork CheckAnswer)

namespace Exchange

def told? (x : Exchange CheckWork CheckAnswer) : Option String :=
  match x.call with
  | .work (.setActive name) => some name
  | _ => none

def agreed? (worker : Nat) (x : Exchange CheckWork CheckAnswer) : Option String :=
  match x.outcome with
  | .ok _ => if x.worker = worker then x.told? else none
  | _ => none

end Exchange

namespace CheckLog
variable {log : CheckLog} {worker : Nat} {x : Exchange CheckWork CheckAnswer}

def lastTold? (log : CheckLog) : Option (Exchange CheckWork CheckAnswer) :=
  (log.filter (·.told?.isSome)).getLast?

/-- The checker that was told last, whichever worker was told and whether or not it has agreed. -/
def told? (log : CheckLog) : Option String := (log.filterMap Exchange.told?).getLast?

def active? (worker : Nat) (log : CheckLog) : Option String :=
  (log.filterMap (Exchange.agreed? worker)).getLast?

theorem toldAppend (log own : CheckLog) : told? (log ++ own) = (told? own).or (told? log) := by
  rw [told?, List.filterMap_append, List.getLast?_append]
  rfl

theorem activeAppend (worker : Nat) (log own : CheckLog) :
    active? worker (log ++ own) = (active? worker own).or (active? worker log) := by
  rw [active?, List.filterMap_append, List.getLast?_append]
  rfl

theorem activeSilent (silent : ∀ x ∈ log, x.agreed? worker = none) : active? worker log = none := by
  rw [active?, List.filterMap_eq_nil_iff.mpr silent]
  rfl

theorem agreedOther (other : x.worker ≠ worker) : x.agreed? worker = none := by
  unfold Exchange.agreed?
  split
  · exact if_neg other
  · rfl

theorem agreedUntold (untold : x.told? = none) : x.agreed? worker = none := by
  unfold Exchange.agreed?
  split
  · rw [untold, ite_self]
  · rfl

theorem activeTold (last : ∀ x, lastTold? log = some x → x.agreed? worker = x.told?) :
    active? worker log = told? log := by
  induction log using List.reverseRecOn with
  | nil => rfl
  | append_singleton log y ih =>
    rw [activeAppend, toldAppend]
    cases told : y.told? with
    | some name =>
      have here : lastTold? (log ++ [y]) = some y := by
        rw [lastTold?, List.filter_append, List.getLast?_append]
        simp [told]
      have agreed := (last y here).trans told
      simp [active?, told?, agreed, told]
    | none =>
      have same : lastTold? (log ++ [y]) = lastTold? log := by
        simp [lastTold?, told]
      rw [same] at last
      rw [ih last]
      simp [active?, told?, agreedUntold told, told]

end CheckLog

inductive CheckDuty where
  | activating (a : Activation)
  | checking (h : Handling CheckWork)
  | grouping (c : Calling CheckWork)

/-- A worker that checks and outlives its process. Groups are asked for only once. -/
def checkKeeper : Keeper CheckWork CheckAnswer CheckDuty CheckAnswer where
  start
    | .setActive _, _ => .activating .remembering
    | .check _, _ => .checking .starting
    | .createGroups mutants, c => .grouping (.ready (c.occupant 0) (.work (.createGroups mutants)))
  moves
    | .setActive name, .activating a, c =>
      (Activation.moves Orders.staffing name 0).within .activating
        (fun r c => (c, .done (r.map fun _ => .done))) a c
    | .check mutants, .checking h, c =>
      (checkMoves Orders.staffing mutants 0).within .checking
        (fun r c => (c, .done (r.map .verdicts))) h c
    | .createGroups _, .grouping call, c =>
      Calling.moves.within .grouping (fun r c => (c, .done (r.map fun v => .groups v.groupsOf))) call c
    | _, _, _ => []

namespace Activation
variable {name : String} {r : Roll CheckWork} {log now : CheckLog} {o : Order CheckWork}
  {c u : CheckCrew} {a : Activation}

def Stands (name : String) (r : Roll CheckWork) (log : CheckLog) :
    Activation → CheckLog → CheckCrew → Prop
  | .remembering, now, c => now = log ∧ c.Shows 0 r log [] []
  | .calling call, now, c => call.Stands 0 (r.remember (.setActive name)) r.seat.occupant
    (.work (.setActive name)) log now c

theorem movesStand (stands : a.Stands name r log now c) {n : Next Activation (Except WorkerError Unit)}
    (move : (u, n) ∈ Activation.moves Orders.staffing name 0 a c) :
    n.Leads (fun q => q.Stands name r log now) (fun reply u => ∃ y : Outcome CheckAnswer,
      plain y.reply? = reply ∧
      now = log ++ [⟨r.seat.occupant, .work (.setActive name), y⟩] ∧
      u.Shows 0 (r.remember (.setActive name)) now [] []) u := by
  cases a with
  | remembering =>
    obtain ⟨rfl, shows⟩ := stands
    obtain ⟨rfl, rfl⟩ := memStep.mp move
    have shows := shows.remember (.setActive name)
    exact ⟨shows.occupant, rfl, rfl, shows⟩
  | calling call =>
    refine Machine.withinLeadsLast move (fun _ _ => Calling.movesStand stands)
      (fun q u here => here) ?_
    rintro res u ⟨y, same, rfl, shows⟩
    exact ⟨y, congrArg _ same, rfl, shows⟩

theorem answerStands (stands : a.Stands name r log now c) (waits : o ∈ c.orders)
    (y : Outcome CheckAnswer) :
    a.Stands name r log (now ++ [⟨o.worker, o.call, y⟩]) (c.answer o.token y) := by
  cases a with
  | remembering =>
    rw [stands.2.orders] at waits
    cases waits
  | calling call => exact Calling.answerStands stands waits y

end Activation

namespace CheckDuty
variable {w : CheckWork} {r r' : Roll CheckWork} {log now own : CheckLog} {o : Order CheckWork}
  {c u : CheckCrew} {p : CheckDuty} {reply : Option (Except WorkerError CheckAnswer)}

inductive Course (r : Roll CheckWork) : CheckWork → Option (Except WorkerError CheckAnswer) →
    CheckLog → Roll CheckWork → Prop where
  | told {name reply y} (same : (plain y.reply?).map (·.map fun _ => .done) = reply) :
      Course r (.setActive name) reply [⟨r.seat.occupant, .work (.setActive name), y⟩]
        (r.remember (.setActive name))
  | checked {mutants answer reply own r'}
      (handled : Handling.Course Orders.staffing 0 (.check mutants) r answer own r')
      (same : (answer.map (·.map CheckAnswer.verdictsOf)).map (·.map .verdicts) = reply) :
      Course r (.check mutants) reply own r'
  | grouped {mutants reply y} (same : y.reply?.map (·.map fun v => .groups v.groupsOf) = reply) :
      Course r (.createGroups mutants) reply
        [⟨r.seat.occupant, .work (.createGroups mutants), y⟩] r

def Stands (r : Roll CheckWork) (log : CheckLog) : CheckWork → CheckDuty → CheckLog → CheckCrew → Prop
  | .setActive name, .activating a, now, c => a.Stands name r log now c
  | .check mutants, .checking h, now, c => h.Stands Orders.staffing 0 (.check mutants) r log now c
  | .createGroups mutants, .grouping call, now, c =>
    call.Stands 0 r r.seat.occupant (.work (.createGroups mutants)) log now c
  | _, _, _, _ => False

theorem startStands (shows : c.Shows 0 r log [] []) : Stands r log w (checkKeeper.start w c) log c := by
  cases w with
  | setActive name => exact ⟨rfl, shows⟩
  | check mutants => exact ⟨rfl, shows⟩
  | createGroups mutants => exact ⟨shows.occupant, rfl, rfl, shows⟩

theorem checkStands {mutants : List Mutant} {h : Handling CheckWork}
    (stands : h.Stands Orders.staffing 0 (.check mutants) r log now c)
    {n : Next (Handling CheckWork) (Except WorkerError Verdicts)}
    (move : (u, n) ∈ checkMoves Orders.staffing mutants 0 h c) :
    n.Leads (fun q => q.Stands Orders.staffing 0 (.check mutants) r log now) (fun reply u =>
      ∃ answer own r', answer.map (·.map CheckAnswer.verdictsOf) = reply ∧ now = log ++ own ∧
        Handling.Course Orders.staffing 0 (.check mutants) r answer own r' ∧
        u.Shows 0 r' now [] []) u := by
  refine Machine.withinLeadsLast move (fun _ _ => Handling.movesStand stands)
    (fun q u here => here) ?_
  rintro res u ⟨own, r', rfl, handled, shows⟩
  exact ⟨_, own, r', rfl, rfl, handled, shows⟩

theorem movesStand (stands : Stands r log w p now c)
    {n : Next CheckDuty (Except WorkerError CheckAnswer)} (move : (u, n) ∈ checkKeeper.moves w p c) :
    n.Leads (fun q => Stands r log w q now) (fun reply u =>
      ∃ own r', now = log ++ own ∧ Course r w reply own r' ∧ u.Shows 0 r' now [] []) u := by
  cases w with
  | setActive name =>
    cases p with
    | activating a =>
      refine Machine.withinLeadsLast move (fun _ _ => Activation.movesStand stands)
        (fun q u here => here) ?_
      rintro res u ⟨y, same, rfl, shows⟩
      exact ⟨_, _, rfl, .told (congrArg _ same), shows⟩
    | _ => cases stands
  | check mutants =>
    cases p with
    | checking h =>
      refine Machine.withinLeadsLast move (fun _ _ => checkStands stands) (fun q u here => here) ?_
      rintro res u ⟨answer, own, r', same, rfl, handled, shows⟩
      exact ⟨own, r', rfl, .checked handled (congrArg _ same), shows⟩
    | _ => cases stands
  | createGroups mutants =>
    cases p with
    | grouping call =>
      refine Machine.withinLeadsLast move (fun _ _ => Calling.movesStand stands)
        (fun q u here => here) ?_
      rintro res u ⟨y, same, rfl, shows⟩
      exact ⟨_, r, rfl, .grouped (congrArg _ same), shows⟩
    | _ => cases stands

theorem answerStands (stands : Stands r log w p now c) (waits : o ∈ c.orders)
    (y : Outcome CheckAnswer) :
    Stands r log w p (now ++ [⟨o.worker, o.call, y⟩]) (c.answer o.token y) := by
  cases w with
  | setActive name =>
    cases p with
    | activating a => exact Activation.answerStands stands waits y
    | _ => cases stands
  | check mutants =>
    cases p with
    | checking h => exact Handling.answerStands stands waits y
    | _ => cases stands
  | createGroups mutants =>
    cases p with
    | grouping call => exact Calling.answerStands stands waits y
    | _ => cases stands

end CheckDuty

def checkCharter : Charter checkKeeper where
  Stands w r log := CheckDuty.Stands r log w
  Course w r := CheckDuty.Course r w
  start := CheckDuty.startStands
  moves stands move := CheckDuty.movesStand stands move
  answers stands waits := CheckDuty.answerStands stands waits _

structure Briefed (log : CheckLog) (r : Roll CheckWork) : Prop where
  manned : Manned log r
  remembered : r.seat.remembered = (CheckLog.told? log).map .setActive

namespace CheckDuty
variable {w : CheckWork} {r r' : Roll CheckWork} {log own : CheckLog}
  {reply : Option (Except WorkerError CheckAnswer)}

theorem toldCall {x : Exchange CheckWork CheckAnswer} {name : String} (told : x.told? = some name) :
    x.call = .work (.setActive name) := by
  unfold Exchange.told? at told
  split at told
  · next call =>
    cases told
    exact call
  · cases told

theorem toldSame (same : ∀ x ∈ own, ∀ name, x.told? = some name → CheckLog.told? log = some name) :
    CheckLog.told? (log ++ own) = CheckLog.told? log := by
  rw [CheckLog.toldAppend]
  cases last : CheckLog.told? own with
  | none => rfl
  | some name =>
    obtain ⟨x, member, told⟩ := List.mem_filterMap.mp (List.mem_of_getLast? last)
    exact (same x member name told).symm

theorem Course.briefed (course : Course r w reply own r') (briefed : Briefed log r) :
    Briefed (log ++ own) r' := by
  obtain ⟨manned, remembered⟩ := briefed
  cases course with
  | @told name =>
    obtain ⟨seated, known, kept⟩ := manned.add
      (x := ⟨r.seat.occupant, .work (.setActive name), _⟩) rfl nofun
    refine ⟨⟨seated, known, kept⟩, ?_⟩
    rw [CheckLog.toldAppend]
    rfl
  | checked handled =>
    refine ⟨handled.manned manned, ?_⟩
    rw [handled.remembered, remembered, toldSame]
    -- The only checker that anybody is told about over a check is the one that is remembered.
    intro x member name told
    rcases handled.calls member (toldCall told) with same | restored
    · cases same
    · rw [remembered] at restored
      obtain ⟨last, here, same⟩ := Option.map_eq_some_iff.mp restored
      cases same
      exact here
  | grouped =>
    refine ⟨manned.add rfl nofun, ?_⟩
    rw [remembered, toldSame]
    intro x member name told
    rw [List.mem_singleton.mp member] at told
    cases told

end CheckDuty

theorem pastBriefed {deeds : List (Deed CheckWork CheckAnswer CheckAnswer)} {r : Roll CheckWork}
    (past : checkCharter.Past deeds r) (living : ∀ d ∈ deeds, d.request ≠ .dispose) :
    Briefed (deeds.flatMap (·.exchanges)) r := by
  induction past with
  | none => exact ⟨firstManned, rfl⟩
  | @done deeds d r r' past treats ih =>
    have before := ih fun x member => living x (List.mem_append_left _ member)
    have own : d.request ≠ .dispose := living d (by simp)
    rw [List.flatMap_append, List.flatMap_singleton]
    cases request : d.request with
    | dispose => exact (own request).elim
    | init =>
      rw [request] at treats
      obtain ⟨y, -, exchanges, rfl⟩ := treats.single (by rintro _ ⟨⟩)
      rw [exchanges]
      refine ⟨before.manned.add rfl nofun, ?_⟩
      rw [before.remembered, CheckDuty.toldSame]
      intro x member name told
      rw [List.mem_singleton.mp member] at told
      cases told
    | work w =>
      rw [request] at treats
      obtain ⟨answer, course, -⟩ := treats.course
      have course : CheckDuty.Course r w answer d.exchanges r' := course
      exact course.briefed before

section Retry
variable {r r' : Roll CheckWork} {past own : CheckLog} {mutants : List Mutant}

def checkJob (mutants : List Mutant) (r : Roll CheckWork) : Job CheckWork :=
  Handling.job Orders.staffing 0 (.check mutants) r

theorem restoredTold (briefed : Briefed past r) {w : CheckWork}
    (restore : (checkJob mutants r).restore = some w) :
    ∃ name, w = .setActive name ∧ CheckLog.told? past = some name := by
  have restore : r.seat.remembered = some w := restore
  rw [briefed.remembered] at restore
  obtain ⟨name, told, rfl⟩ := Option.map_eq_some_iff.mp restore
  exact ⟨name, rfl, told⟩

theorem restoredActive (briefed : Briefed past r)
    (restored : Recovery.Restored (checkJob mutants r) r own r') :
    CheckLog.active? r'.seat.occupant (past ++ own) = CheckLog.told? past := by
  -- Nobody has told the fresh worker anything before, as it did not exist.
  have unknown : CheckLog.active? r'.seat.occupant past = none := by
    refine CheckLog.activeSilent fun x member => CheckLog.agreedOther (Nat.ne_of_lt ?_)
    rw [restored.fresh.1]
    exact briefed.manned.known x member
  rw [CheckLog.activeAppend, unknown, Option.or_none]
  cases restored with
  | none unbriefed renewed =>
    have untold : CheckLog.told? past = none := by
      have unbriefed : r.seat.remembered = none := unbriefed
      rw [briefed.remembered] at unbriefed
      exact Option.map_eq_none_iff.mp unbriefed
    rw [untold]
    refine CheckLog.activeSilent fun x member => CheckLog.agreedUntold ?_
    cases told : x.told? with
    | none => rfl
    | some name => cases renewed.calls member (CheckDuty.toldCall told)
  | @told w v own r' some renewed =>
    obtain ⟨name, rfl, told⟩ := restoredTold briefed some
    rw [CheckLog.activeAppend, told]
    simp [CheckLog.active?, Exchange.agreed?, Exchange.told?]

theorem checkAsks {s : Session CheckWork CheckAnswer CheckDuty CheckAnswer}
    {a : Attempt CheckWork CheckAnswer CheckDuty} {o : Order CheckWork} {w : CheckWork}
    (reached : Session.Reached checkKeeper s) (living : ∀ d ∈ s.deeds, d.request ≠ .dispose)
    (busy : s.attempt = some a) (check : a.request = .work (.check mutants))
    (waits : o ∈ s.crew.orders) (asked : o.call = .work w) :
    ∃ r r', Briefed s.past r ∧ Recovery.Asked (checkJob mutants r) r w a.exchanges r' ∧
      o.worker = r'.seat.occupant := by
  cases checkCharter.sound reached with
  | rest _ free =>
    rw [free] at busy
    cases busy
  | @work b r past same stands =>
    cases busy.symm.trans same
    obtain ⟨w', p, request, stands⟩ := Charter.workStands stands waits asked
    cases check.symm.trans request
    have stands : CheckDuty.Stands r s.past (.check mutants) p (s.past ++ a.exchanges) s.crew := stands
    cases p with
    | checking h =>
      obtain ⟨own, r', whole, job, here, -⟩ := Handling.flies stands waits asked
      cases List.append_cancel_left whole
      exact ⟨r, r', pastBriefed past living, job, here⟩
    | _ => cases stands

end Retry

/-- When a worker dies over a check, the fresh worker is told to use the checker that was told last,
and the check is repeated by a worker that uses this one, or none if none was told. It is the one
that the worker which died has used, if this worker was the last to be told and has agreed, or if
nobody was told. -/
theorem retryRestores {s : Session CheckWork CheckAnswer CheckDuty CheckAnswer}
    {a : Attempt CheckWork CheckAnswer CheckDuty} {mutants : List Mutant} {worker : Nat}
    {e : WorkerError} {later : CheckLog} {o : Order CheckWork}
    (reached : Session.Reached checkKeeper s) (living : ∀ d ∈ s.deeds, d.request ≠ .dispose)
    (busy : s.attempt = some a) (check : a.request = .work (.check mutants))
    (died : a.exchanges = ⟨worker, .work (.check mutants), .failed e⟩ :: later)
    (waits : o ∈ s.crew.orders) :
    (∀ name, o.call = .work (.setActive name) → CheckLog.told? s.past = some name) ∧
    (o.call = .work (.check mutants) →
      o.worker ≠ worker ∧ CheckLog.active? o.worker s.log = CheckLog.told? s.past) ∧
    ((∀ x, CheckLog.lastTold? s.past = some x → x.agreed? worker = x.told?) →
      CheckLog.active? worker s.past = CheckLog.told? s.past) := by
  refine ⟨fun name asked => ?_, fun asked => ?_, CheckLog.activeTold⟩
  · obtain ⟨r, r', briefed, job, -⟩ := checkAsks reached living busy check waits asked
    generalize work : CheckWork.setActive name = w at job
    generalize a.exchanges = own at job
    cases job with
    | first => cases work
    | restoring restore =>
      obtain ⟨told, rfl, here⟩ := restoredTold briefed restore
      cases work
      exact here
    | second => cases work
  · obtain ⟨r, r', briefed, job, here⟩ := checkAsks reached living busy check waits asked
    have restored : Recovery.Restored (checkJob mutants r) r a.exchanges r' := by
      generalize work : CheckWork.check mutants = w at job
      generalize whole : a.exchanges = own at job
      cases job with
      | first =>
        rw [died] at whole
        cases whole
      | restoring restore =>
        obtain ⟨told, rfl, -⟩ := restoredTold briefed restore
        cases work
      | second restored => exact restored
    refine ⟨?_, ?_⟩
    · obtain ⟨e', rest, whole⟩ := restored.died
      cases died.symm.trans whole
      rw [here, restored.fresh.1]
      exact Nat.ne_of_gt briefed.manned.seated
    · rw [here, Session.log, busy]
      exact restoredActive briefed restored

abbrev CheckSession := Session CheckWork CheckAnswer CheckDuty CheckAnswer

def CheckSession.after (cues : List (Session.Cue CheckWork CheckAnswer)) : CheckSession :=
  (Session.played checkKeeper cues {}).getD {}

section Cues
open Session.Cue

def briefingCues : List (Session.Cue CheckWork CheckAnswer) :=
  [ask .init, move, answer (.ok .done), move,
    ask (.work (.setActive "lint")), move, move, answer (.ok .done), move]

def refusalCues : List (Session.Cue CheckWork CheckAnswer) :=
  [ask (.work (.setActive "spell")), move, move, answer (.failed (.unknownChecker "spell")), move]

def mishapCues : List (Session.Cue CheckWork CheckAnswer) :=
  [ask (.work (.check [])), move, move, answer (.failed (.crashed 7 (some 1) "gone")), move, move,
    move, answer (.ok .done), move, move, answer (.ok .done), move, move]

def repetitionCues : List (Session.Cue CheckWork CheckAnswer) := [answer (.ok .done), move, move]

end Cues

def repeated : CheckSession := .after (briefingCues ++ mishapCues ++ repetitionCues)

theorem repeatedReached : Session.Reached checkKeeper repeated :=
  have played : Session.played checkKeeper (briefingCues ++ mishapCues ++ repetitionCues) {} =
    some repeated := rfl
  Session.playedReached .start played

theorem livingRequests {s : CheckSession} (requests : List (Call CheckWork))
    (asked : s.deeds.map (·.request) = requests) (living : .dispose ∉ requests) :
    ∀ d ∈ s.deeds, d.request ≠ .dispose :=
  fun _ member disposed => living (asked ▸ disposed ▸ List.mem_map_of_mem member)

theorem retryRestoresRepeated :
    CheckLog.active? 1 repeated.log = CheckLog.told? repeated.past ∧
      CheckLog.active? 0 repeated.past = CheckLog.told? repeated.past := by
  have living : ∀ d ∈ repeated.deeds, d.request ≠ .dispose :=
    livingRequests [.init, .work (.setActive "lint")] rfl (by decide)
  have last : CheckLog.lastTold? repeated.past = some ⟨0, .work (.setActive "lint"), .ok .done⟩ := rfl
  obtain ⟨-, again, same⟩ := retryRestores (o := ⟨6, 1, .work (.check [])⟩) repeatedReached living
    rfl rfl rfl List.mem_cons_self
  refine ⟨(again rfl).2, same fun x told => ?_⟩
  cases last.symm.trans told
  rfl

def confused : CheckSession := .after (briefingCues ++ refusalCues ++ mishapCues)

theorem confusedReached : Session.Reached checkKeeper confused :=
  have played : Session.played checkKeeper (briefingCues ++ refusalCues ++ mishapCues) {} =
    some confused := rfl
  Session.playedReached .start played

/-- The fresh worker may be told to use another checker than the one that the worker which died has
used. -/
theorem restoredRefused : ¬ ∀ (s : CheckSession) (a : Attempt CheckWork CheckAnswer CheckDuty)
    (mutants : List Mutant) (worker : Nat) (e : WorkerError) (later : CheckLog) (o : Order CheckWork)
    (name : String), Session.Reached checkKeeper s → (∀ d ∈ s.deeds, d.request ≠ .dispose) →
    s.attempt = some a → a.request = .work (.check mutants) →
    a.exchanges = ⟨worker, .work (.check mutants), .failed e⟩ :: later → o ∈ s.crew.orders →
    o.call = .work (.setActive name) → CheckLog.active? worker s.past = some name := by
  intro claim
  have living : ∀ d ∈ confused.deeds, d.request ≠ .dispose :=
    livingRequests [.init, .work (.setActive "lint"), .work (.setActive "spell")] rfl (by decide)
  have restored := claim confused _ [] 0 _ _ ⟨6, 1, .work (.setActive "spell")⟩ "spell" confusedReached
    living rfl rfl rfl List.mem_cons_self rfl
  have lint : CheckLog.active? 0 confused.past = some "lint" := rfl
  exact absurd (lint.symm.trans restored) (by decide)

end MutationPipeline
