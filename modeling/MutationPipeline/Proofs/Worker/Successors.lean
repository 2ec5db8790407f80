import Mathlib
import MutationPipeline.Proofs.Worker.Endings

/-! Workers follow each other in a seat. They are numbered as they come, and who has left was disposed
with its last call. Which calls are made over a piece of work, to whom and how often, is told by their
outcomes. -/
namespace MutationPipeline

section Calls
variable {W : Type}

def callsTo (worker : Nat) (calls : List (Nat × Call W)) : List (Call W) :=
  (calls.filter (·.1 = worker)).map (·.2)

def Dismissed (worker : Nat) (calls : List (Nat × Call W)) : Prop :=
  ∃ before, callsTo worker calls = before ++ [.dispose] ∧ .dispose ∉ before

theorem callsToOthers {worker : Nat} {more : List (Nat × Call W)} (others : ∀ c ∈ more, c.1 ≠ worker)
    (calls : List (Nat × Call W)) : callsTo worker (calls ++ more) = callsTo worker calls := by
  have none : more.filter (·.1 = worker) = [] :=
    List.filter_eq_nil_iff.mpr fun c member same => others c member (of_decide_eq_true same)
  rw [callsTo, List.filter_append, none, List.append_nil]
  rfl

theorem Dismissed.others {worker : Nat} {calls more : List (Nat × Call W)}
    (dismissed : Dismissed worker calls) (others : ∀ c ∈ more, c.1 ≠ worker) :
    Dismissed worker (calls ++ more) := by
  rwa [Dismissed, callsToOthers others]

theorem dismissedNow {worker : Nat} {calls more : List (Nat × Call W)}
    (kept : (worker, .dispose) ∉ calls) (others : ∀ c ∈ more, c.1 ≠ worker) :
    Dismissed worker (calls ++ (worker, .dispose) :: more) := by
  refine ⟨callsTo worker calls, ?_, fun disposed => kept ?_⟩
  · rw [List.append_cons, callsToOthers others]
    simp [callsTo]
  · simpa [callsTo] using disposed

end Calls

section Succession
variable {W V : Type} {log : List (Exchange W V)} {r : Roll W}

structure Succession (log : List (Exchange W V)) (r : Roll W) : Prop extends Manned log r where
  newest : r.made = r.seat.occupant + 1
  former : ∀ worker < r.seat.occupant, Dismissed worker (log.map Exchange.begun)

theorem firstSuccession : Succession ([] : List (Exchange W V)) ⟨⟨0, none⟩, 1, []⟩ where
  toManned := firstManned
  newest := rfl
  former _ below := absurd below (Nat.not_lt_zero _)

theorem successionLasts : Lasting (Succession (W := W) (V := V)) where
  add := by
    intro log r x before own other
    refine ⟨before.toManned.add own other, before.newest, fun worker below => ?_⟩
    rw [List.map_append]
    have later : x.worker ≠ worker := own ▸ Nat.ne_of_gt below
    exact (before.former worker below).others fun c member => List.mem_singleton.mp member ▸ later
  note n before := ⟨mannedLasts.note n before.toManned, before.newest, before.former⟩
  renewal := by
    intro label log r reply own r' before course
    obtain ⟨seat, made⟩ := course.fresh
    refine ⟨course.manned before.toManned, by rw [made, seat], fun worker below => ?_⟩
    rw [seat] at below
    rw [List.map_append]
    -- The calls are to dispose who sat there and to start the fresh worker, unless it came to none.
    obtain ⟨rest, calls, fresh⟩ : ∃ rest, own.map Exchange.begun =
        (r.seat.occupant, .dispose) :: rest ∧ ∀ c ∈ rest, c.1 = r.made := by
      cases course with
      | stuck => exact ⟨[], rfl, nofun⟩
      | started => exact ⟨[(r.made, .init)], rfl, by simp⟩
    rw [calls]
    have last : worker < r.made := below
    rw [before.newest] at last
    rcases Nat.lt_succ_iff_lt_or_eq.mp last with earlier | rfl
    · refine (before.former worker earlier).others fun c member => ?_
      rcases List.mem_cons.mp member with rfl | later
      · exact Nat.ne_of_gt earlier
      · exact fresh c later ▸ Nat.ne_of_gt below
    · refine dismissedNow (fun disposed => ?_) fun c member => fresh c member ▸ Nat.ne_of_gt below
      obtain ⟨x, member, same⟩ := List.mem_map.mp disposed
      obtain ⟨worker, call⟩ := Prod.mk.inj same
      exact before.kept x member call worker

end Succession

namespace Exchange
variable {W V : Type}

def died (x : Exchange W V) : Bool :=
  match x.outcome with
  | .failed e => e.isCrash
  | _ => false

def warning? (label : String) (x : Exchange W V) : Option Note :=
  match x.outcome with
  | .failed e => crashNote? label e
  | _ => none

theorem crashNoted (label : String) (e : WorkerError) : (crashNote? label e).isSome = e.isCrash := by
  cases e <;> rfl

theorem warningDied (label : String) (x : Exchange W V) : (x.warning? label).isSome = x.died := by
  unfold warning? died
  split
  · exact crashNoted label _
  · rfl

end Exchange

def warnings (notes : List Note) : List Note := notes.filter (·.level = .warn)

theorem crashWarns {label : String} {e : WorkerError} {n : Note} (noted : crashNote? label e = some n) :
    n.level = .warn := by
  cases e <;> cases noted <;> rfl

section Traces
variable {W V : Type} {r r' : Roll W} {own : List (Exchange W V)}
  {renewal : Option (Except WorkerError Unit)} {reply : Option (Except WorkerError V)}

theorem Renewal.Course.spelled {label : String} (course : Renewal.Course label r renewal own r') :
    own = [⟨r.seat.occupant, .dispose, .panicked⟩] ∧ renewal = none ∨
      ∃ y z, own = [⟨r.seat.occupant, .dispose, y⟩, ⟨r.made, .init, z⟩] ∧
        plain z.reply? = renewal := by
  cases course with
  | stuck => exact .inl ⟨rfl, rfl⟩
  | @started _ y z _ same => exact .inr ⟨y, z, rfl, same⟩

theorem Renewal.Course.idle {label : String} (course : Renewal.Course label r renewal own r') :
    own.filter Exchange.isWork = [] := by
  cases course <;> rfl

theorem Renewal.Course.quiet {label : String} (course : Renewal.Course label r renewal own r') :
    warnings r'.notes = warnings r.notes := by
  cases course with
  | stuck => rfl
  | @started _ y =>
    cases y with
    | failed e => exact (List.filter_append ..).trans (List.append_nil _)
    | _ => rfl

namespace Recovery
variable {job : Job W}

inductive Trace (work : W) (restore : Option W) (worker : Nat) :
    List (Exchange W V) → Option (Except WorkerError V) → Prop where
  | once {y : Outcome V} (alive : ∀ e, y = .failed e → e.isCrash = false) :
      Trace work restore worker [⟨worker, .work work, y⟩] y.reply?
  | undisposed {e} (crash : e.isCrash = true) : Trace work restore worker
      [⟨worker, .work work, .failed e⟩, ⟨worker, .dispose, .panicked⟩] none
  | unstarted {e y} {z : Outcome V} (crash : e.isCrash = true) (failed : ∀ v, z ≠ .ok v) :
      Trace work restore worker [⟨worker, .work work, .failed e⟩, ⟨worker, .dispose, y⟩,
        ⟨worker + 1, .init, z⟩] z.reply?
  | untold {e y v w} {z : Outcome V} (crash : e.isCrash = true) (told : restore = some w)
      (failed : ∀ v, z ≠ .ok v) :
      Trace work restore worker [⟨worker, .work work, .failed e⟩, ⟨worker, .dispose, y⟩,
        ⟨worker + 1, .init, .ok v⟩, ⟨worker + 1, .work w, z⟩] z.reply?
  | plain {e y v} {z : Outcome V} (crash : e.isCrash = true) (none : restore = none) :
      Trace work restore worker [⟨worker, .work work, .failed e⟩, ⟨worker, .dispose, y⟩,
        ⟨worker + 1, .init, .ok v⟩, ⟨worker + 1, .work work, z⟩] z.reply?
  | told {e y v w u} {z : Outcome V} (crash : e.isCrash = true) (told : restore = some w) :
      Trace work restore worker [⟨worker, .work work, .failed e⟩, ⟨worker, .dispose, y⟩,
        ⟨worker + 1, .init, .ok v⟩, ⟨worker + 1, .work w, .ok u⟩,
        ⟨worker + 1, .work work, z⟩] z.reply?

theorem Renewed.spelled (renewed : Renewed job r renewal own r') :
    ∃ e rest, e.isCrash = true ∧ own = ⟨r.seat.occupant, .work job.work, .failed e⟩ :: rest ∧
      (rest = [⟨r.seat.occupant, .dispose, .panicked⟩] ∧ renewal = none ∨
        ∃ y z, rest = [⟨r.seat.occupant, .dispose, y⟩, ⟨r.made, .init, z⟩] ∧
          MutationPipeline.plain z.reply? = renewal) := by
  cases renewed with
  | @died e n rest _ death course =>
    refine ⟨e, rest, ?_, rfl, course.spelled⟩
    rw [← Exchange.crashNoted job.label, death, Option.isSome_some]

theorem Renewed.ready (renewed : Renewed job r (some (.ok ())) own r') :
    ∃ e y v, e.isCrash = true ∧ own = [⟨r.seat.occupant, .work job.work, .failed e⟩,
      ⟨r.seat.occupant, .dispose, y⟩, ⟨r.made, .init, .ok v⟩] := by
  obtain ⟨e, rest, crash, rfl, ⟨-, none⟩ | ⟨y, z, rfl, same⟩⟩ := renewed.spelled
  · cases none
  · cases z with
    | ok v => exact ⟨e, y, v, crash, rfl⟩
    | _ => cases same

theorem Course.trace (course : Course job r reply own r') (newest : r.made = r.seat.occupant + 1) :
    Trace job.work job.restore r.seat.occupant own reply := by
  cases course with
  | once last same =>
    subst same
    refine .once fun e failed => ?_
    rw [← Exchange.crashNoted job.label, last e failed, Option.isSome_none]
  | stuck renewed =>
    obtain ⟨e, rest, crash, rfl, ⟨rfl, -⟩ | ⟨y, z, rfl, same⟩⟩ := renewed.spelled
    · exact .undisposed crash
    · cases z <;> cases same
      rw [newest]
      exact .unstarted crash nofun
  | unrenewed renewed =>
    obtain ⟨e, rest, crash, rfl, ⟨-, none⟩ | ⟨y, z, rfl, same⟩⟩ := renewed.spelled
    · cases none
    · cases z <;> cases same
      rw [newest]
      exact .unstarted crash nofun
  | untold some renewed failed same =>
    obtain ⟨e, y, v, crash, rfl⟩ := renewed.ready
    subst same
    rw [renewed.fresh.1, newest]
    exact .untold crash some failed
  | twice restored same =>
    subst same
    rw [restored.fresh.1, newest]
    cases restored with
    | none none renewed =>
      obtain ⟨e, y, v, crash, rfl⟩ := renewed.ready
      rw [newest]
      exact .plain crash none
    | told some renewed =>
      obtain ⟨e, y, v, crash, rfl⟩ := renewed.ready
      rw [renewed.fresh.1, newest]
      exact .told crash some

def Opens (job : Job W) (r : Roll W) (own : List (Exchange W V)) (r' : Roll W) : Prop :=
  ∃ x, own.head? = some x ∧ x.call = .work job.work ∧ r'.made = r.made + x.died.toNat ∧
    warnings r'.notes = warnings r.notes ++ (x.warning? job.label).toList

theorem Renewed.opens (renewed : Renewed job r renewal own r') (more : List (Exchange W V)) :
    Opens job r (own ++ more) r' := by
  cases renewed with
  | @died e n rest _ death course =>
    have warned : warnings (r.note n).notes = warnings r.notes ++ [n] := by
      simp [warnings, Roll.note, crashWarns death]
    have crash : (⟨r.seat.occupant, .work job.work, .failed e⟩ : Exchange W V).died = true := by
      rw [← Exchange.warningDied job.label]
      exact congrArg Option.isSome death
    refine ⟨_, rfl, rfl, ?_, ?_⟩
    · rw [course.fresh.2, crash]
      rfl
    · rw [course.quiet, warned]
      exact congrArg (fun n? => warnings r.notes ++ n?.toList) death.symm

theorem Course.opens (course : Course job r reply own r') : Opens job r own r' := by
  cases course with
  | @once _ y last =>
    refine ⟨_, rfl, rfl, ?_⟩
    have silent : (⟨r.seat.occupant, .work job.work, y⟩ : Exchange W V).warning? job.label = none := by
      cases y with
      | failed e => exact last e rfl
      | _ => rfl
    rw [← Exchange.warningDied job.label, silent]
    exact ⟨rfl, (List.append_nil _).symm⟩
  | stuck renewed => exact List.append_nil own ▸ renewed.opens []
  | unrenewed renewed => exact List.append_nil own ▸ renewed.opens []
  | untold _ renewed => exact renewed.opens _
  | twice restored =>
    cases restored with
    | none _ renewed => exact renewed.opens _
    | told _ renewed =>
      rw [List.append_assoc]
      exact renewed.opens _

end Recovery

end Traces

namespace Charter
variable {W V φ ρ : Type} {k : Keeper W V φ ρ} {h : Charter k} {ahead : φ → Nat} {r : Roll W}
  {deeds : List (Deed W V ρ)} {s : Session W V φ ρ}

theorem Past.split {before after : List (Deed W V ρ)} {d : Deed W V ρ}
    (past : h.Past (before ++ d :: after) r) : ∃ r₁ r₂, h.Past before r₁ ∧
      h.Treats r₁ d.request d.reply d.exchanges r₂ := by
  induction after using List.reverseRecOn generalizing r with
  | nil =>
    obtain ⟨r₁, past, treats⟩ := past.last
    exact ⟨r₁, r, past, treats⟩
  | append_singleton after last ih =>
    rw [← List.cons_append, ← List.append_assoc] at past
    obtain ⟨r₁, past, -⟩ := past.last
    exact ih past

theorem Past.lasts {P : List (Exchange W V) → Roll W → Prop} (lasting : Lasting P)
    (first : P [] ⟨⟨0, .none⟩, 1, []⟩)
    (courses : ∀ {w r reply own r' log}, h.Course w r reply own r' → P log r → P (log ++ own) r')
    (past : h.Past deeds r) (kept : ∀ d ∈ deeds, d.request ≠ .dispose) :
    P (deeds.flatMap (·.exchanges)) r := by
  induction past with
  | none => exact first
  | @done deeds d r r' past treats ih =>
    have before := ih fun d member => kept d (List.mem_append_left _ member)
    have request := kept d (by simp)
    rw [List.flatMap_append, List.flatMap_singleton]
    generalize d.request = request, d.reply = reply, d.exchanges = own at treats request
    cases treats with
    | life => exact lasting.add before rfl request
    | work course => exact courses course before

theorem Past.made {built : Deed W V ρ → Nat} (past : h.Past deeds r)
    (each : ∀ d ∈ deeds, ∀ before ⊆ deeds, ∀ r r', h.Past before r →
      h.Treats r d.request d.reply d.exchanges r' → r'.made = r.made + built d) :
    r.made = 1 + (deeds.map built).sum := by
  induction past with
  | none => rfl
  | @done deeds d r r' past treats ih =>
    have earlier : deeds ⊆ deeds ++ [d] := List.subset_append_left _ _
    have made := ih fun d member before some =>
      each d (earlier member) before (List.Subset.trans some earlier)
    rw [each d (by simp) deeds earlier r r' past treats, made, List.map_append, List.sum_append,
      Nat.add_assoc]
    rfl

theorem Past.warned {warned : Deed W V ρ → List Note} (past : h.Past deeds r)
    (each : ∀ d ∈ deeds, ∀ r r', h.Treats r d.request d.reply d.exchanges r' →
      warnings r'.notes = warnings r.notes ++ warned d) :
    warnings r.notes = deeds.flatMap warned := by
  induction past with
  | none => rfl
  | @done deeds d r r' past treats ih =>
    rw [each d (by simp) r r' treats, ih fun d member => each d (List.mem_append_left _ member),
      List.flatMap_append, List.flatMap_singleton]

theorem Sound.resting (sound : h.Sound s) (free : s.attempt = none) :
    ∃ r, h.Past s.deeds r ∧ s.crew.Shows 0 r s.past [] [] := by
  cases sound with
  | rest past _ shows => exact ⟨_, past, shows⟩
  | work past busy =>
    rw [free] at busy
    cases busy

theorem Sound.askEnds (sound : h.Sound s) (free : s.attempt = none) (prompt : h.Prompt ahead)
    (reached : Session.Reached k s) (request : Call W) :
    Session.Comes k (Session.Ends s.deeds request) (treatmentAhead ahead (k.begin s.crew request))
      (s.ask k request) := by
  obtain ⟨r, -, shows⟩ := sound.resting free
  refine ends prompt (reached.step (.ask request free)) rfl (Nat.le_of_eq ?_)
  have none : (s.ask k request).crew.orders = [] := shows.orders
  rw [left, Session.ask]
  exact congrArg _ (congrArg List.length none)

end Charter

end MutationPipeline
