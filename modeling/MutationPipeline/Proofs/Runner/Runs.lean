import MutationPipeline.Proofs.Runner.Sessions
import MutationPipeline.Proofs.Worker.Successors

/-! What a run comes to when every worker that is made in place of another one starts: which of its
attempts has the result, which workers it takes, and how many are made for it. -/
namespace MutationPipeline.Running

def overdue : Outcome RunAnswer → Bool
  | .ok none => true
  | _ => false

def hung (x : Exchange RunPlan RunAnswer) : Bool := overdue x.outcome

abbrev Run := Deed RunPlan RunAnswer TestRun

section Run
variable (d : Run)

def attempts : List (Exchange RunPlan RunAnswer) := d.exchanges.filter Exchange.isWork

def died : Bool := (attempts d).head?.any Exchange.died

def built : Nat := (died d).toNat + (attempts d).countP hung

def Calm : Prop := ∀ x ∈ d.exchanges, x.call = .dispose → x.outcome ≠ .panicked

def Renewable : Prop := ∀ x ∈ d.exchanges, x.call = .init → ∃ v, x.outcome = .ok v

/-- What becomes of a run that this worker gets first. A fresh one has the next number. -/
structure Settled (plan : RunPlan) (worker : Nat) : Prop where
  few : (attempts d).length ≤ 2
  first : ∃ y, (attempts d)[0]? = some ⟨worker, .work plan, y⟩
  second : ∀ x, (attempts d)[1]? = some x →
    died d = true ∧ x.worker = worker + 1 ∧ x.call = .work plan
  repeated : died d = true → Calm d → (attempts d).length = 2
  inTime : ∀ x ∈ attempts d, ∀ run, x.outcome = .ok (some run) → d.reply = some (.ok (some run))
  late : ∀ x ∈ attempts d, hung x = true → Calm d → d.reply = some (.ok (some
    (.timeout (some ("test run exceeded " ++ toString plan.timeoutMs.toNat ++ " ms")))))
  dead : ∀ x, (attempts d)[1]? = some x → ∀ e, x.outcome = .failed e → e.isCrash = true →
    d.reply = some (.ok (some (.error e.message)))
  failed : ∀ x ∈ attempts d, ∀ e, x.outcome = .failed e → e.isCrash = false →
    d.reply = some (.error e)

end Run

inductive Tried (plan : RunPlan) (worker : Nat) :
    List (Exchange RunPlan RunAnswer) → Outcome RunAnswer → Prop where
  | once {y} (alive : ∀ e, y = .failed e → e.isCrash = false) :
      Tried plan worker [⟨worker, .work plan, y⟩] y
  | twice {e y} (crash : e.isCrash = true) :
      Tried plan worker [⟨worker, .work plan, .failed e⟩, ⟨worker + 1, .work plan, y⟩] y

theorem Tried.overtime {plan : RunPlan} {worker : Nat} {tries : List (Exchange RunPlan RunAnswer)}
    {y : Outcome RunAnswer} (tried : Tried plan worker tries y) :
    tries.countP hung = (overdue y).toNat := by
  cases tried with
  | once =>
    rw [List.countP_singleton, hung]
    cases overdue y <;> rfl
  | twice =>
    rw [List.countP_cons, List.countP_singleton, hung, hung]
    cases overdue y <;> rfl

structure Concludes (plan : RunPlan) (d : Run) (y : Outcome RunAnswer) : Prop where
  inTime : ∀ run, y = .ok (some run) → d.reply = some (.ok (some run))
  late : overdue y = true → Calm d → d.reply = some (.ok (some (exceeded plan)))
  dead : ∀ e, y = .failed e → e.isCrash = true → d.reply = some (.ok (some (.error e.message)))
  failed : ∀ e, y = .failed e → e.isCrash = false → d.reply = some (.error e)

structure Steady (r : Roll RunPlan) : Prop where
  plain : r.seat.remembered = none
  newest : r.made = r.seat.occupant + 1

section Course
variable {plan : RunPlan} {r r' : Roll RunPlan} {own : List (Exchange RunPlan RunAnswer)}

theorem Handled.tried {reply : Option (Except WorkerError RunAnswer)}
    (handled : Handled plan 0 r reply own r') (steady : Steady r)
    (renewable : ∀ x ∈ own, x.call = .init → ∃ v, x.outcome = .ok v) :
    (∃ y, Tried plan r.seat.occupant (own.filter Exchange.isWork) y ∧ y.reply? = reply) ∨
      reply = none ∧ ∃ e, e.isCrash = true ∧
        own.filter Exchange.isWork = [⟨r.seat.occupant, .work plan, .failed e⟩] ∧
        ⟨r.seat.occupant, .dispose, .panicked⟩ ∈ own := by
  cases handled with
  | direct lax => cases lax
  | recovered _ course =>
    have trace : Recovery.Trace plan none r.seat.occupant own reply :=
      steady.plain ▸ course.trace steady.newest
    cases trace with
    | once alive => exact .inl ⟨_, .once alive, rfl⟩
    | undisposed crash => exact .inr ⟨rfl, _, crash, rfl, by simp⟩
    | @unstarted _ _ z _ failed =>
      obtain ⟨v, same⟩ := renewable ⟨r.seat.occupant + 1, .init, z⟩ (by simp) rfl
      exact absurd same (failed v)
    | untold _ some => cases some
    | plain crash => exact .inl ⟨_, .twice crash, rfl⟩
    | told _ some => cases some

theorem Handled.made {reply : Option (Except WorkerError RunAnswer)}
    (handled : Handled plan 0 r reply own r') :
    r'.made = r.made + ((own.filter Exchange.isWork).head?.any Exchange.died).toNat := by
  cases handled with
  | direct lax => cases lax
  | recovered _ course =>
    obtain ⟨x, first, call, made, -⟩ := course.opens
    obtain ⟨rest, rfl⟩ := List.head?_eq_some_iff.mp first
    have work : x.isWork = true := by
      rw [Exchange.isWork, call]
    rw [List.filter_cons_of_pos work]
    exact made

theorem concluded {answer : Option (Except WorkerError TestRun)} {d : Run}
    (course : Course plan 0 r answer own r') (calls : d.exchanges = own)
    (same : d.reply = answer.map (·.map some)) (steady : Steady r) (renewable : Renewable d) :
    (∃ y, Tried plan r.seat.occupant (attempts d) y ∧ Concludes plan d y) ∨
      ¬ Calm d ∧ ∃ e, e.isCrash = true ∧
        attempts d = [⟨r.seat.occupant, .work plan, .failed e⟩] := by
  rw [Renewable, calls] at renewable
  rw [attempts, calls]
  cases course with
  | answered handled =>
    rcases handled.tried steady renewable with ⟨y, tried, reply⟩ | ⟨none, -⟩
    · cases y <;> cases reply
      exact .inl ⟨_, tried, fun _ same' => by cases same'; exact same, nofun, nofun, nofun⟩
    · cases none
  | @failed e _ _ _ handled ending =>
    rcases handled.tried steady renewable with ⟨y, tried, reply⟩ | ⟨none, -⟩
    · cases y <;> cases reply
      subst ending
      refine .inl ⟨_, tried, nofun, nofun, fun e' own crash => ?_, fun e' own calm => ?_⟩
      · cases own
        rw [same, if_pos crash]
        rfl
      · cases own
        rw [same, if_neg (Bool.eq_false_iff.mp calm)]
        rfl
    · cases none
  | broken handled =>
    rcases handled.tried steady renewable with ⟨y, tried, reply⟩ | ⟨-, e, crash, tries, stuck⟩
    · cases y <;> cases reply
      exact .inl ⟨_, tried, nofun, nofun, nofun, nofun⟩
    · exact .inr ⟨fun calm => calm _ (calls ▸ stuck) rfl rfl, e, crash, tries⟩
  | late handled renewal ending =>
    have starts := fun x member => renewable x (List.mem_append_left _ member)
    rcases handled.tried steady starts with ⟨y, tried, reply⟩ | ⟨none, -⟩
    · cases y <;> cases reply
      rw [List.filter_append, renewal.idle, List.append_nil]
      refine .inl ⟨_, tried, nofun, fun _ calm => ?_, nofun, nofun⟩
      rw [Calm, calls] at calm
      rcases renewal.spelled with ⟨rfl, -⟩ | ⟨y, z, rfl, reply⟩
      · exact absurd rfl (calm _ (List.mem_append_right _ List.mem_cons_self) rfl)
      · obtain ⟨v, rfl⟩ := renewable _
          (List.mem_append_right _ (List.mem_cons_of_mem _ List.mem_cons_self)) rfl
        rw [same, ← ending, ← reply]
        rfl
    · cases none

theorem Tried.settled {worker : Nat} {d : Run} {y : Outcome RunAnswer}
    (tried : Tried plan worker (attempts d) y) (concludes : Concludes plan d y) :
    Settled d plan worker := by
  generalize all : attempts d = tries at tried
  cases tried with
  | once alive =>
    have survives : died d = false := by
      rw [died, all]
      cases y with
      | failed e => exact alive e rfl
      | _ => rfl
    exact {
      few := by simp [all]
      first := by simp [all]
      second := by simp [all]
      repeated := by simp [survives]
      inTime := by simpa [all] using concludes.inTime
      late := by simpa [all, hung, exceeded] using concludes.late
      dead := by simp [all]
      failed := by simpa [all] using concludes.failed }
  | twice crash =>
    have dies : died d = true := by
      rw [died, all]
      exact crash
    exact {
      few := by simp [all]
      first := by simp [all]
      second := by simp [all, dies]
      repeated := by simp [all]
      inTime := by simpa [all] using concludes.inTime
      late := by simpa [all, hung, overdue, exceeded] using concludes.late
      dead := by simpa [all] using concludes.dead
      failed := by simpa [all, crash] using concludes.failed }

theorem stuckSettled {worker : Nat} {d : Run} {e : WorkerError} (stuck : ¬ Calm d)
    (crash : e.isCrash = true) (tries : attempts d = [⟨worker, .work plan, .failed e⟩]) :
    Settled d plan worker := by
  constructor <;> simp [tries, died, Exchange.died, crash, stuck, hung, overdue]

def overtime : Option (Except WorkerError RunAnswer) → Nat
  | some (.ok none) => 1
  | _ => 0

theorem Handled.built {reply : Option (Except WorkerError RunAnswer)}
    (handled : Handled plan 0 r reply own r') (steady : Steady r)
    (renewable : ∀ x ∈ own, x.call = .init → ∃ v, x.outcome = .ok v) :
    r'.made + overtime reply =
      r.made + (((own.filter Exchange.isWork).head?.any Exchange.died).toNat +
        (own.filter Exchange.isWork).countP hung) := by
  have late : (own.filter Exchange.isWork).countP hung = overtime reply := by
    rcases handled.tried steady renewable with ⟨y, tried, rfl⟩ | ⟨rfl, e, -, tries, -⟩
    · rw [tried.overtime]
      rcases y with (_ | _) | _ | _ <;> rfl
    · rw [tries]
      rfl
  rw [handled.made, late, Nat.add_assoc]

theorem tallied {answer : Option (Except WorkerError TestRun)} {d : Run}
    (course : Course plan 0 r answer own r') (calls : d.exchanges = own) (steady : Steady r)
    (renewable : Renewable d) : r'.made = r.made + built d := by
  rw [Renewable, calls] at renewable
  rw [built, died, attempts, calls]
  cases course with
  | answered handled => exact handled.built steady renewable
  | failed handled => exact handled.built steady renewable
  | broken handled => exact handled.built steady renewable
  | late handled renewal =>
    have starts := fun x member => renewable x (List.mem_append_left _ member)
    rw [List.filter_append, renewal.idle, List.append_nil, ← handled.built steady starts,
      renewal.fresh.2]
    rfl

end Course

theorem Settled.left {plan : RunPlan} {worker : Nat} {d : Run} (settled : Settled d plan worker)
    {x : Exchange RunPlan RunAnswer} (member : x ∈ attempts d)
    (spent : hung x = true ∨ (attempts d)[0]? = some x ∧ x.died = true) :
    x.worker < worker + built d := by
  obtain ⟨y, first⟩ := settled.first
  have own (head : (attempts d)[0]? = some x) : x.worker = worker := by
    cases first.symm.trans head
    rfl
  rcases spent with late | ⟨head, dead⟩
  · have some : 0 < (attempts d).countP hung := List.countP_pos_iff.mpr ⟨x, member, late⟩
    obtain ⟨i, place⟩ := List.getElem?_of_mem member
    match i, place with
    | 0, head =>
      rw [own head, built]
      omega
    | 1, last =>
      obtain ⟨dies, fresh, -⟩ := settled.second x last
      rw [fresh, built, dies, Bool.toNat_true]
      omega
    | i + 2, beyond =>
      have few := settled.few
      have within := (List.getElem?_eq_some_iff.mp beyond).1
      omega
  · have dies : died d = true := by
      rw [died, List.head?_eq_getElem?, head]
      exact dead
    rw [own head, built, dies, Bool.toNat_true]
    omega

section Session
variable {deeds : List Run} {r : Roll RunPlan}

/-- The request was not to dispose the worker, and if it was a run then workers that were made for it
have started. -/
structure Orderly (d : Run) : Prop where
  kept : d.request ≠ .dispose
  renewable : ∀ plan, d.request = .work plan → Renewable d

theorem attemptless {d : Run} {r' : Roll RunPlan}
    (treats : runCharter.Treats r d.request d.reply d.exchanges r')
    (idle : ¬ ∃ plan, d.request = .work plan) : attempts d = [] ∧ r' = r := by
  obtain ⟨y, -, own, rfl⟩ := treats.single fun plan same => idle ⟨plan, same⟩
  rw [attempts, own]
  match d.request, idle with
  | .init, _ => exact ⟨rfl, rfl⟩
  | .dispose, _ => exact ⟨rfl, rfl⟩
  | .work plan, idle => exact absurd ⟨plan, rfl⟩ idle

theorem Orderly.made {d : Run} (regular : Orderly d) {r' : Roll RunPlan} (steady : Steady r)
    (treats : runCharter.Treats r d.request d.reply d.exchanges r') :
    r'.made = r.made + built d := by
  rcases em (∃ plan, d.request = .work plan) with ⟨plan, run⟩ | idle
  · rw [run] at treats
    obtain ⟨answer, course, -⟩ := treats.course
    exact tallied course rfl steady (regular.renewable plan run)
  · obtain ⟨none, rfl⟩ := attemptless treats idle
    rw [built, died, none]
    rfl

theorem served (past : runCharter.Past deeds r) (regular : ∀ d ∈ deeds, Orderly d) :
    Succession (deeds.flatMap (·.exchanges)) r ∧ Steady r := by
  have succession := past.lasts successionLasts firstSuccession
    (fun course before => Course.lasts course successionLasts before)
    fun d member => (regular d member).kept
  have kept : ∀ {r r' : Roll RunPlan} {request reply own}, r.seat.remembered = none →
      runCharter.Treats r request reply own r' → r'.seat.remembered = none := by
    intro r r' request reply own plain treats
    cases treats with
    | life => exact plain
    | work course => exact (Course.remembered course).trans plain
  exact ⟨succession, (past.holds (P := fun r => r.seat.remembered = none) rfl kept).1,
    succession.newest⟩

theorem seated (past : runCharter.Past deeds r) (regular : ∀ d ∈ deeds, Orderly d) :
    r.seat.occupant = (deeds.map built).sum := by
  have made := past.made fun d member before some r r' past treats =>
    (regular d member).made (served past fun d member => regular d (some member)).2 treats
  rw [(served past regular).1.newest] at made
  omega

theorem settledAt {before after : List Run} {d : Run} {plan : RunPlan}
    (past : runCharter.Past (before ++ d :: after) r)
    (regular : ∀ e ∈ before ++ d :: after, Orderly e) (run : d.request = .work plan) :
    Settled d plan (before.map built).sum := by
  obtain ⟨r₁, r₂, past, treats⟩ := past.split
  have earlier := fun d member => regular d (List.mem_append_left _ member)
  have steady := (served past earlier).2
  rw [run] at treats
  obtain ⟨answer, course, same⟩ := treats.course
  rw [← seated past earlier]
  have renewable := (regular d (by simp)).renewable plan run
  rcases concluded course rfl same.symm steady renewable with
    ⟨y, tried, concludes⟩ | ⟨stuck, e, crash, tries⟩
  · exact tried.settled concludes
  · exact stuckSettled stuck crash tries

end Session

/- Every run ends, after 24 steps at most: moves, and answers of workers. -/
theorem runsSettled {s : RunSession} (reached : Session.Reached runKeeper s)
    (regular : ∀ d ∈ s.deeds, Orderly d) :
    (∀ before d after plan, s.deeds = before ++ d :: after → d.request = .work plan →
      Settled d plan (before.map built).sum) ∧
    (s.attempt = none →
      s.crew.made = 1 + (s.deeds.map built).sum ∧
      (∀ d ∈ s.deeds, ∀ x ∈ attempts d, hung x = true ∨ (attempts d)[0]? = some x ∧ x.died = true →
        Dismissed x.worker (s.crew.history.filterMap Event.call?)) ∧
      ∀ plan, Session.Comes runKeeper (Session.Ends s.deeds (.work plan)) 24
        (s.ask runKeeper (.work plan))) := by
  have sound := runCharter.sound reached
  refine ⟨fun before d after plan whole run => ?_, fun free => ?_⟩
  · obtain ⟨r, past⟩ := sound.past
    rw [whole] at past regular
    exact settledAt past regular run
  · obtain ⟨r, past, shows⟩ := sound.resting free
    have succession := (served past regular).1
    have occupant := seated past regular
    refine ⟨?_, fun d member x attempt spent => ?_, fun plan => ?_⟩
    · rw [shows.made, succession.newest, occupant, Nat.add_comm]
    · rw [shows.calls, List.map_nil, List.append_nil]
      refine succession.former x.worker ?_
      obtain ⟨before, after, whole⟩ := List.append_of_mem member
      rw [occupant, whole]
      rw [whole] at past regular
      rcases em (∃ plan, d.request = .work plan) with ⟨plan, run⟩ | idle
      · have left := (settledAt past regular run).left attempt spent
        simp only [List.map_append, List.map_cons, List.sum_append, List.sum_cons]
        omega
      · obtain ⟨_, _, -, treats⟩ := past.split
        rw [(attemptless treats idle).1] at attempt
        cases attempt
    · exact sound.askEnds free runPrompt reached _

section Cues
open Session.Cue

def hungCues : List (Session.Cue RunPlan RunAnswer) :=
  startCues ++ deathCues "1" (.ok none) ++ [move, answer (.ok none), move, move, move,
    answer (.failed (.rejected "busy")), move, move, answer (.ok none), move]

end Cues

theorem hungPlayed : Session.played runKeeper hungCues {} = some (RunSession.after hungCues) := rfl

def startRun : Run where
  request := .init
  exchanges := [⟨0, .init, .ok none⟩]
  reply := some (.ok none)

def hungRun : Run where
  request := .work (briefPlan "1")
  exchanges := [⟨0, .work (briefPlan "1"), .failed (gone 7)⟩, ⟨0, .dispose, .ok none⟩,
    ⟨1, .init, .ok none⟩, ⟨1, .work (briefPlan "1"), .ok none⟩,
    ⟨1, .dispose, .failed (.rejected "busy")⟩, ⟨2, .init, .ok none⟩]
  reply := some (.ok (some (.timeout (some "test run exceeded 100 ms"))))

theorem hungDeeds : (RunSession.after hungCues).deeds = [startRun, hungRun] := rfl

theorem hungRenewable : Renewable hungRun := by
  intro x member init
  simp only [hungRun, List.mem_cons, List.not_mem_nil, or_false] at member
  rcases member with rfl | rfl | rfl | rfl | rfl | rfl
  all_goals first | exact ⟨_, rfl⟩ | cases init

theorem hungRegular : ∀ d ∈ (RunSession.after hungCues).deeds, Orderly d := by
  rw [hungDeeds, List.forall_mem_cons, List.forall_mem_singleton]
  exact ⟨⟨by rintro ⟨⟩, by rintro _ ⟨⟩⟩, by rintro ⟨⟩, fun _ _ => hungRenewable⟩

theorem runsSettledHung : Settled hungRun (briefPlan "1") 0 ∧
    (RunSession.after hungCues).crew.made = 3 ∧
    Dismissed 0 ((RunSession.after hungCues).crew.history.filterMap Event.call?) ∧
    Dismissed 1 ((RunSession.after hungCues).crew.history.filterMap Event.call?) := by
  obtain ⟨each, rest⟩ := runsSettled (Session.playedReached .start hungPlayed) hungRegular
  obtain ⟨made, dismissed, -⟩ := rest rfl
  have member : hungRun ∈ (RunSession.after hungCues).deeds := by
    rw [hungDeeds]
    exact List.mem_cons_of_mem _ List.mem_cons_self
  refine ⟨each [startRun] hungRun [] _ hungDeeds rfl, made, ?_, ?_⟩
  · exact dismissed hungRun member _ List.mem_cons_self (.inr ⟨rfl, rfl⟩)
  · exact dismissed hungRun member _ (List.mem_cons_of_mem _ List.mem_cons_self) (.inl rfl)

end MutationPipeline.Running
