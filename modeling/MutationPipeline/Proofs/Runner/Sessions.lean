import MutationPipeline.Proofs.Worker.Endings
import MutationPipeline.Runner.Work

/-! One test runner and its caller: plans are run one after the other, each by a worker that is
replaced when it dies or does not answer in time. -/
namespace MutationPipeline

def runKeeper : Keeper RunPlan RunAnswer Running TestRun where
  start _ _ := Running.start
  moves plan := Running.moves plan 0

namespace Running
variable {plan : RunPlan} {place : Nat} {r : Roll RunPlan} {log now : List (Exchange RunPlan RunAnswer)}
  {o : Order RunPlan} {c u : RunCrew} {p : Running}

def staffing : Staffing := ⟨label, true⟩

abbrev Handled (plan : RunPlan) (place : Nat) (r : Roll RunPlan) :=
  Handling.Course (V := RunAnswer) staffing place plan r

inductive Course (plan : RunPlan) (place : Nat) (r : Roll RunPlan) :
    Option (Except WorkerError TestRun) → List (Exchange RunPlan RunAnswer) → Roll RunPlan → Prop where
  | answered {run own r'} (handled : Handled plan place r (some (.ok (some run))) own r') :
      Course plan place r (some (.ok run)) own r'
  | failed {e reply own r'} (handled : Handled plan place r (some (.error e)) own r')
      (same : some (if e.isCrash then .ok (.error e.message) else .error e) = reply) :
      Course plan place r reply own r'
  | broken {own r'} (handled : Handled plan place r none own r') : Course plan place r none own r'
  | late {renewed reply own more r' r''} (handled : Handled plan place r (some (.ok none)) own r')
      (renewal : Renewal.Course label (r'.note (timeoutNote plan)) renewed more r'')
      (same : renewed.map (·.map fun _ => exceeded plan) = reply) :
      Course plan place r reply (own ++ more) r''

def Stands (plan : RunPlan) (place : Nat) (r : Roll RunPlan)
    (log : List (Exchange RunPlan RunAnswer)) :
    Running → List (Exchange RunPlan RunAnswer) → RunCrew → Prop
  | .handling h, now, c => h.Stands staffing place plan r log now c
  | .replacing p, now, c => ∃ own r', Handled plan place r (some (.ok none)) own r' ∧
    p.Stands label place (r'.note (timeoutNote plan)) (log ++ own) now c

theorem movesStand (stands : p.Stands plan place r log now c)
    {n : Next Running (Except WorkerError TestRun)} (move : (u, n) ∈ Running.moves plan place p c) :
    n.Leads (fun q => q.Stands plan place r log now) (fun reply u =>
      ∃ own r', now = log ++ own ∧ Course plan place r reply own r' ∧ u.Shows place r' now [] []) u := by
  cases p with
  | handling h =>
    refine Machine.withinLeads move (fun _ _ => Handling.movesStand stands) (fun q u here => here) ?_ ?_
    · rintro res u ⟨own, r', rfl, handled, shows⟩
      cases res with
      | ok answer =>
        cases answer with
        | some run => exact ⟨own, r', rfl, .answered handled, shows⟩
        | none => exact ⟨own, r', handled, rfl, shows.note _⟩
      | error e => exact ⟨own, r', rfl, .failed handled rfl, shows⟩
    · rintro u ⟨own, r', rfl, handled, shows⟩
      exact ⟨own, r', rfl, .broken handled, shows⟩
  | replacing p =>
    obtain ⟨own, r', handled, stands⟩ := stands
    refine Machine.withinLeadsLast move (fun _ _ => Renewal.movesStand stands)
      (fun q u here => ⟨own, r', handled, here⟩) ?_
    rintro res u ⟨more, r'', rfl, renewal, shows⟩
    exact ⟨_, r'', List.append_assoc _ _ _, .late handled renewal rfl, shows⟩

theorem answerStands (stands : p.Stands plan place r log now c) (waits : o ∈ c.orders)
    (y : Outcome RunAnswer) :
    p.Stands plan place r log (now ++ [⟨o.worker, o.call, y⟩]) (c.answer o.token y) := by
  cases p with
  | handling h => exact Handling.answerStands stands waits y
  | replacing p =>
    obtain ⟨own, r', handled, stands⟩ := stands
    exact ⟨own, r', handled, Renewal.answerStands stands waits y⟩

theorem flies {w : RunPlan} (stands : p.Stands plan place r log now c) (waits : o ∈ c.orders)
    (asked : o.call = .work w) :
    ∃ own r', now = log ++ own ∧ Recovery.Asked (Handling.job staffing place plan r) r w own r' ∧
      o.worker = r'.seat.occupant ∧ c.Shows place r' now [o] [] := by
  cases p with
  | handling h => exact Handling.flies stands waits asked
  | replacing p =>
    obtain ⟨_, _, -, stands⟩ := stands
    exact (Renewal.idle stands waits w asked).elim

def ahead : Running → Nat
  | .handling h => h.ahead + 7
  | .replacing r => r.ahead

theorem nears {n : Next Running (Except WorkerError TestRun)}
    (move : (u, n) ∈ Running.moves plan place p c) : n.Nears ahead (p.ahead + c.orders.length) u := by
  cases p with
  | handling h =>
    refine Machine.withinNears move (fun _ _ => Handling.nears) (fun _ => rfl) fun r u => ?_
    cases r with
    | ok answer =>
      cases answer with
      | some run => rfl
      | none => exact ⟨Nat.le_refl 7, rfl⟩
    | error e => rfl
  | replacing p => exact Machine.withinNearsLast move (fun _ _ => Renewal.nears) fun _ => rfl

theorem stalls (stands : p.Stands plan place r log now c) (none : Running.moves plan place p c = []) :
    c.orders ≠ [] := by
  cases p with
  | handling h => exact Handling.stalls stands (Machine.withinNone none)
  | replacing p =>
    obtain ⟨_, _, -, stands⟩ := stands
    exact Renewal.stalls stands (Machine.withinNone none)

end Running

def runCharter : Charter runKeeper where
  Stands plan r log := Running.Stands plan 0 r log
  Course plan r := Running.Course plan 0 r
  start shows := ⟨rfl, shows⟩
  moves stands move := Running.movesStand stands move
  answers stands waits := Running.answerStands stands waits _

theorem runPrompt : runCharter.Prompt Running.ahead where
  nears := Running.nears
  stalls stands := Running.stalls stands

namespace Running
variable {plan : RunPlan} {place : Nat} {r r' : Roll RunPlan} {own : List (Exchange RunPlan RunAnswer)}
  {reply : Option (Except WorkerError TestRun)}

theorem Course.remembered (course : Course plan place r reply own r') :
    r'.seat.remembered = r.seat.remembered := by
  cases course with
  | answered handled => exact handled.remembered
  | failed handled => exact handled.remembered
  | broken handled => exact handled.remembered
  | late handled renewal => rw [renewal.fresh.1, ← handled.remembered]; rfl

theorem Course.attempts (course : Course plan place r reply own r')
    (plain : r.seat.remembered = none) : own.countP Exchange.isWork ≤ 2 := by
  cases course with
  | answered handled => exact handled.attempts plain
  | failed handled => exact handled.attempts plain
  | broken handled => exact handled.attempts plain
  | late handled renewal =>
    rw [List.countP_append, renewal.attempts]
    exact handled.attempts plain

def Unreplaced (plan : RunPlan) (e : WorkerError) (own : List (Exchange RunPlan RunAnswer)) : Prop :=
  ∃ front worker fresh y, own =
    front ++ [⟨worker, .work plan, .ok none⟩, ⟨worker, .dispose, y⟩, ⟨fresh, .init, .failed e⟩]

theorem Course.failure {e : WorkerError} (course : Course plan place r (some (.error e)) own r')
    (crash : e.isCrash = true) : Unreplaced plan e own := by
  cases course with
  | @failed e' _ _ _ handled same =>
    split at same
    · cases same
    · next other =>
      cases same
      exact (other crash).elim
  | @late renewed _ own more r' _ handled renewal same =>
    cases renewed with
    | none => cases same
    | some res =>
      cases res with
      | ok => cases same
      | error e' =>
        cases same
        obtain ⟨y, rfl⟩ := renewal.unstarted
        obtain ⟨front, rfl⟩ := handled.answered
        exact ⟨front, _, _, y, List.append_assoc _ _ _⟩

theorem Course.cause {e : WorkerError} (course : Course plan place r (some (.error e)) own r') :
    ∃ front x, own = front ++ [x] ∧ x.outcome = .failed e := by
  cases course with
  | failed handled same =>
    split at same
    · cases same
    · cases same
      exact handled.closes.cause
  | @late renewed _ own more _ _ handled renewal same =>
    match renewed, same with
    | some (.error _), same =>
      cases same
      obtain ⟨front, x, rfl, failed⟩ := renewal.closes.cause
      exact ⟨_, x, (List.append_assoc _ _ _).symm, failed⟩

theorem Course.death {front : List (Exchange RunPlan RunAnswer)} {x : Exchange RunPlan RunAnswer}
    {e : WorkerError} (course : Course plan place r reply own r') (last : own = front ++ [x])
    (died : x.outcome = .failed e) (crash : e.isCrash = true) :
    reply = some (.ok (.error e.message)) ∨ reply = some (.error e) ∧ Unreplaced plan e own := by
  cases course with
  | answered handled =>
    subst last
    cases handled.closes.failed died
  | failed handled same =>
    subst last
    cases handled.closes.failed died
    rw [if_pos crash] at same
    exact .inl same.symm
  | broken handled =>
    subst last
    cases handled.closes.failed died
  | late handled renewal same =>
    obtain ⟨others, y, rfl, closing⟩ := renewal.closes
    -- The last call is the last one of the renewal, so what it ends with is the reply.
    have whole := (List.append_assoc _ _ _).trans last
    cases (List.append_inj' whole rfl).2
    have renewed := Closes.failed ⟨others, x, rfl, closing⟩ died
    subst renewed
    cases same
    exact .inr ⟨rfl, (Course.late handled renewal rfl).failure crash⟩

theorem Course.lasts {P : List (Exchange RunPlan RunAnswer) → Roll RunPlan → Prop}
    {log : List (Exchange RunPlan RunAnswer)} (course : Course plan place r reply own r')
    (lasting : Lasting P) (before : P log r) : P (log ++ own) r' := by
  cases course with
  | answered handled => exact handled.lasts lasting before
  | failed handled => exact handled.lasts lasting before
  | broken handled => exact handled.lasts lasting before
  | late handled renewal =>
    rw [← List.append_assoc]
    exact lasting.renewal (lasting.note _ (handled.lasts lasting before)) renewal

theorem Course.seated {run : TestRun} (course : Course plan place r (some (.ok run)) own r') :
    r'.seat = r.seat ∨ Started own r'.seat.occupant ∨
    ∃ e, e.isCrash = true ∧ ⟨r'.seat.occupant, .init, .failed e⟩ ∈ own ∧ run = .error e.message := by
  cases course with
  | answered handled =>
    rcases handled.seated with rfl | started | none | ⟨e, failed, -⟩
    · exact .inl rfl
    · exact .inr (.inl started)
    · cases none
    · cases failed
  | failed handled same =>
    rcases handled.seated with rfl | started | none | ⟨e, failed, unstarted⟩
    · exact .inl rfl
    · exact .inr (.inl started)
    · cases none
    · cases failed
      split at same
      · next crash =>
        cases same
        exact .inr (.inr ⟨_, crash, unstarted, rfl⟩)
      · cases same
  | @late renewed _ _ _ _ _ handled renewal same =>
    match renewed, same with
    | some (.ok ()), _ => exact .inr (.inl (renewal.isStarted.right _))

end Running

/-- What becomes of a run, and of the deaths of workers over it. -/
structure Running.Answered (plan : RunPlan) (d : Deed RunPlan RunAnswer TestRun) : Prop where
  attempts : d.exchanges.countP Exchange.isWork ≤ 2
  death : ∀ front x e, d.exchanges = front ++ [x] → x.outcome = .failed e → e.isCrash = true →
    d.reply = some (.ok (some (.error e.message))) ∨ Unreplaced plan e d.exchanges
  failure : ∀ e, d.reply = some (.error e) →
    (∃ front x, d.exchanges = front ++ [x] ∧ x.outcome = .failed e) ∧
      (e.isCrash = true → Unreplaced plan e d.exchanges)

theorem Running.Course.deed {plan : RunPlan} {place : Nat} {r r' : Roll RunPlan}
    {answer : Option (Except WorkerError TestRun)} {d : Deed RunPlan RunAnswer TestRun}
    (course : Course plan place r answer d.exchanges r') (plain : r.seat.remembered = none)
    (same : answer.map (·.map some) = d.reply) : Answered plan d where
  attempts := course.attempts plain
  death := by
    intro front x e last died crash
    rcases course.death last died crash with rfl | ⟨-, unreplaced⟩
    · exact .inl same.symm
    · exact .inr unreplaced
  failure := by
    intro e replied
    rw [replied] at same
    match answer, same with
    | some (.error _), same =>
      cases same
      exact ⟨course.cause, course.failure⟩

/-- Every run ends, after 24 steps at most: moves, and answers of workers. It is tried at most twice. If
it ends with a death, then this is its result, unless a fresh worker does not start after a run that
took too long. A run that fails does so with the failure of its last call, and with a death only in
that case. -/
theorem deathsAnswered {s : Session RunPlan RunAnswer Running TestRun}
    (reached : Session.Reached runKeeper s) :
    (∀ d ∈ s.deeds, ∀ plan, d.request = .work plan → Running.Answered plan d) ∧
    ∀ plan, s.attempt = none → Session.Comes runKeeper (Session.Ends s.deeds (.work plan)) 24
      (s.ask runKeeper (.work plan)) := by
  refine ⟨fun d deed plan run => ?_, fun plan free => ?_⟩
  · -- A test runner has nothing to restore, so no request makes the seat remember something.
    obtain ⟨r, past⟩ := (runCharter.sound reached).past
    have kept : ∀ {r r' : Roll RunPlan} {request reply own}, r.seat.remembered = none →
        runCharter.Treats r request reply own r' → r'.seat.remembered = none := by
      intro r r' request reply own none treats
      cases treats with
      | life => exact none
      | work course => exact (Running.Course.remembered course).trans none
    obtain ⟨-, treated⟩ := past.holds (P := fun r => r.seat.remembered = none) rfl kept
    obtain ⟨r, r', none, treats⟩ := treated d deed
    rw [run] at treats
    obtain ⟨answer, course, same⟩ := treats.course
    have course : Running.Course plan 0 r answer d.exchanges r' := course
    exact course.deed none same
  · have left : Charter.left Running.ahead (s.ask runKeeper (.work plan)) ≤ 24 := by
      cases runCharter.sound reached with
      | rest past _ shows =>
        show 24 + s.crew.orders.length ≤ 24
        rw [shows.orders]
        exact Nat.le_refl _
      | work past busy =>
        rw [free] at busy
        cases busy
    exact Charter.ends runPrompt (reached.step (.ask _ free)) rfl left

def briefPlan (id : String) : RunPlan where
  mutant := { id, fileName := "a" }
  timeoutMs := 100
  testFilter := none
  hitLimit := none
  sandboxFile := "a"
  disableBail := false

def gone (pid : Nat) : WorkerError := .crashed pid (some 1) "gone"

section Cues
open Session.Cue

def startCues : List (Session.Cue RunPlan RunAnswer) := [ask .init, move, answer (.ok none), move]

/-- A plan is run, and the worker dies over it; it is disposed, and the fresh one answers this to
its start. -/
def deathCues (id : String) (outcome : Outcome RunAnswer) : List (Session.Cue RunPlan RunAnswer) :=
  [ask (.work (briefPlan id)), move, move, answer (.failed (gone 7)), move, move, move,
    answer (.ok none), move, move, answer outcome, move]

def twiceDeadCues : List (Session.Cue RunPlan RunAnswer) :=
  startCues ++ deathCues "1" (.ok none) ++ [move, answer (.failed (gone 8)), move]

def lateCues : List (Session.Cue RunPlan RunAnswer) :=
  startCues ++ [ask (.work (briefPlan "1")), move, move, answer (.ok none), move, move, move,
    answer (.ok none), move, move, answer (.failed (gone 7)), move]

end Cues

abbrev RunSession := Session RunPlan RunAnswer Running TestRun

def RunSession.after (cues : List (Session.Cue RunPlan RunAnswer)) : RunSession :=
  (Session.played runKeeper cues {}).getD {}

theorem twiceDeadPlayed :
    Session.played runKeeper twiceDeadCues {} = some (RunSession.after twiceDeadCues) := rfl

def twiceDead : Deed RunPlan RunAnswer TestRun where
  request := .work (briefPlan "1")
  exchanges := [⟨0, .work (briefPlan "1"), .failed (gone 7)⟩, ⟨0, .dispose, .ok none⟩,
    ⟨1, .init, .ok none⟩, ⟨1, .work (briefPlan "1"), .failed (gone 8)⟩]
  reply := some (.ok (some (.error (gone 8).message)))

theorem twiceDeadDone : (RunSession.after twiceDeadCues).deeds[1]? = some twiceDead := rfl

theorem deathsAnsweredTwiceDead : twiceDead.exchanges.countP Exchange.isWork ≤ 2 ∧
    (twiceDead.reply = some (.ok (some (.error (gone 8).message))) ∨
      Running.Unreplaced (briefPlan "1") (gone 8) twiceDead.exchanges) ∧
    Session.Comes runKeeper (Session.Ends (RunSession.after twiceDeadCues).deeds (.work (briefPlan "2")))
      24 ((RunSession.after twiceDeadCues).ask runKeeper (.work (briefPlan "2"))) :=
  have answered := deathsAnswered (Session.playedReached .start twiceDeadPlayed)
  have deed := answered.1 twiceDead (List.mem_of_getElem? twiceDeadDone) _ rfl
  ⟨deed.attempts, deed.death (twiceDead.exchanges.take 3) _ _ rfl rfl rfl, answered.2 _ rfl⟩

theorem latePlayed : Session.played runKeeper lateCues {} = some (RunSession.after lateCues) := rfl

def unreplaced : Deed RunPlan RunAnswer TestRun where
  request := .work (briefPlan "1")
  exchanges := [⟨0, .work (briefPlan "1"), .ok none⟩, ⟨0, .dispose, .ok none⟩,
    ⟨1, .init, .failed (gone 7)⟩]
  reply := some (.error (gone 7))

theorem unreplacedDone : (RunSession.after lateCues).deeds[1]? = some unreplaced := rfl

/-- A death may leave a run as its failure. -/
theorem deathReturned : ¬ ∀ (s : RunSession) (d : Deed RunPlan RunAnswer TestRun) (plan : RunPlan)
    (e : WorkerError), Session.Reached runKeeper s → d ∈ s.deeds → d.request = .work plan →
    d.reply = some (.error e) → e.isCrash = false := by
  intro claim
  have calm := claim _ unreplaced (briefPlan "1") (gone 7) (Session.playedReached .start latePlayed)
    (List.mem_of_getElem? unreplacedDone) rfl rfl
  cases calm

inductive Smooth : List (Deed RunPlan RunAnswer TestRun) → Prop where
  | started {d x} (request : d.request = .init) (done : d.reply = some (.ok x)) : Smooth [d]
  | ran {deeds d plan x} (smooth : Smooth deeds) (request : d.request = .work plan)
      (done : d.reply = some (.ok x)) : Smooth (deeds ++ [d])

def DiedAtStart (deeds : List (Deed RunPlan RunAnswer TestRun)) (worker : Nat) : Prop :=
  ∃ d ∈ deeds, ∃ e, e.isCrash = true ∧ ⟨worker, .init, .failed e⟩ ∈ d.exchanges ∧
    d.reply = some (.ok (some (.error e.message)))

theorem Smooth.tended {deeds : List (Deed RunPlan RunAnswer TestRun)} {r : Roll RunPlan}
    (smooth : Smooth deeds) (past : runCharter.Past deeds r) :
    Manned (deeds.flatMap (·.exchanges)) r ∧
      (Started (deeds.flatMap (·.exchanges)) r.seat.occupant ∨ DiedAtStart deeds r.seat.occupant) := by
  induction smooth generalizing r with
  | @started d x request done =>
    have past : runCharter.Past ([] ++ [d]) r := past
    obtain ⟨before, first, treats⟩ := past.last
    obtain ⟨y, same, own, rfl⟩ := treats.single (by rw [request]; rintro _ ⟨⟩)
    cases first.first
    rw [List.flatMap_singleton, own, request]
    refine ⟨firstManned.add (x := ⟨0, .init, y⟩) rfl nofun, .inl ?_⟩
    rw [done] at same
    cases y with
    | ok v => exact ⟨v, List.mem_cons_self⟩
    | failed e => cases same
    | panicked => cases same
  | @ran deeds d plan x smooth request done ih =>
    obtain ⟨before, past, treats⟩ := past.last
    obtain ⟨manned, started⟩ := ih past
    rw [request, done] at treats
    obtain ⟨answer, course, same⟩ := treats.course
    have course : Running.Course plan 0 before answer d.exchanges r := course
    rw [List.flatMap_append, List.flatMap_singleton]
    refine ⟨course.lasts mannedLasts manned, ?_⟩
    match answer, same with
    | some (.ok run), same =>
      cases same
      -- Who sits there now was there before the run, has started over it, or died at its start.
      rcases course.seated with same | new | ⟨e, crash, died, rfl⟩
      · rw [same]
        rcases started with started | ⟨d', member, dead⟩
        · exact .inl (started.left _)
        · exact .inr ⟨d', List.mem_append_left _ member, dead⟩
      · exact .inl (new.right _)
      · exact .inr ⟨d, by simp, e, crash, died, done⟩

/-- A plan is only given to a worker that was never disposed and that has started, or that has died
at its start, which was the result of an earlier run. -/
theorem runsTended {s : Session RunPlan RunAnswer Running TestRun} {o : Order RunPlan}
    {plan : RunPlan} (reached : Session.Reached runKeeper s) (smooth : Smooth s.deeds)
    (waits : o ∈ s.crew.orders) (run : o.call = .work plan) :
    .called o.worker .dispose ∉ s.crew.history ∧
      (Started s.log o.worker ∨ DiedAtStart s.deeds o.worker) := by
  cases runCharter.sound reached with
  | rest past free shows =>
    rw [shows.orders] at waits
    cases waits
  | @work a r past busy stands =>
    obtain ⟨w, p, -, stands⟩ := Charter.workStands stands waits run
    have stands : p.Stands w 0 r s.past (s.past ++ a.exchanges) s.crew := stands
    obtain ⟨own, r', whole, asked, worker, shows⟩ := Running.flies stands waits run
    have whole := List.append_cancel_left whole
    obtain ⟨manned, started⟩ := smooth.tended past
    have manned := asked.manned manned
    refine ⟨fun disposed => ?_, ?_⟩
    · have called : (o.worker, Call.dispose) ∈ s.crew.history.filterMap Event.call? :=
        List.mem_filterMap.mpr ⟨_, disposed, rfl⟩
      rw [shows.calls, whole] at called
      rcases List.mem_append.mp called with ended | flying
      · obtain ⟨x, member, same⟩ := List.mem_map.mp ended
        obtain ⟨here, call⟩ := Prod.mk.inj same
        exact manned.kept x member call (here.trans worker)
      · obtain ⟨-, call⟩ := Prod.mk.inj (List.mem_singleton.mp flying)
        rw [run] at call
        cases call
    · rw [Session.log, busy, worker]
      rcases asked.isStarted with rfl | new
      · exact started.imp_left fun started => started.left _
      · exact .inl ((whole ▸ new).right _)

def retryCues : List (Session.Cue RunPlan RunAnswer) :=
  startCues ++ deathCues "1" (.ok none) ++ [.move]

theorem retryPlayed : Session.played runKeeper retryCues {} = some (RunSession.after retryCues) := rfl

theorem runsTendedRetry : .called 1 .dispose ∉ (RunSession.after retryCues).crew.history ∧
    (Started (RunSession.after retryCues).log 1 ∨ DiedAtStart (RunSession.after retryCues).deeds 1) :=
  runsTended (o := ⟨4, 1, .work (briefPlan "1")⟩) (Session.playedReached .start retryPlayed)
    (.started rfl rfl) List.mem_cons_self rfl

def untendedCues : List (Session.Cue RunPlan RunAnswer) :=
  startCues ++ deathCues "1" (.failed (gone 8)) ++ [.ask (.work (briefPlan "2")), .move, .move]

theorem untendedPlayed :
    Session.played runKeeper untendedCues {} = some (RunSession.after untendedCues) := rfl

theorem untendedLog : (RunSession.after untendedCues).log =
    [⟨0, .init, .ok none⟩, ⟨0, .work (briefPlan "1"), .failed (gone 7)⟩, ⟨0, .dispose, .ok none⟩,
      ⟨1, .init, .failed (gone 8)⟩] := rfl

/-- A plan may be given to a worker that has not started. -/
theorem runUntended : ¬ ∀ (s : RunSession) (o : Order RunPlan) (plan : RunPlan),
    Session.Reached runKeeper s → Smooth s.deeds → o ∈ s.crew.orders → o.call = .work plan →
    Started s.log o.worker ∧ .called o.worker .dispose ∉ s.crew.history := by
  intro claim
  have opened : Smooth ((RunSession.after untendedCues).deeds.take 1) := .started rfl rfl
  have smooth : Smooth (RunSession.after untendedCues).deeds := opened.ran rfl rfl
  obtain ⟨⟨v, member⟩, -⟩ := claim _ ⟨4, 1, .work (briefPlan "2")⟩ (briefPlan "2")
    (Session.playedReached .start untendedPlayed) smooth List.mem_cons_self rfl
  rw [untendedLog] at member
  simp at member

end MutationPipeline
