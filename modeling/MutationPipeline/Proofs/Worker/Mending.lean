import MutationPipeline.Proofs.Worker.Successors

/-! One worker and its caller, who wants each call repeated once if the worker dies over it. Whatever
becomes of the calls, of the disposals, and of fresh workers. -/
namespace MutationPipeline

/-- What a worker is asked for: a call, with what a fresh worker has to be told before it is repeated,
or what such a worker is told. -/
inductive Chore (C P : Type) where
  | call (c : C) (restore : Option P)
  | restore (p : P)

namespace Mending
variable {C P V : Type}

def restore? : Chore C P → Option (Chore C P)
  | .call _ restore => restore.map .restore
  | .restore _ => none

def job (label : String) (chore : Chore C P) : Job (Chore C P) := ⟨label, 0, chore, restore? chore⟩

def keeper (label : String) : Keeper (Chore C P) V (Recovery (Chore C P)) V where
  start chore c := .first (.ready (c.occupant 0) (.work chore))
  moves chore := Recovery.moves (job label chore)

def charter (label : String) : Charter (keeper (C := C) (P := P) (V := V) label) where
  Stands chore r := Recovery.Stands (job label chore) r
  Course chore r := Recovery.Course (job label chore) r
  start shows := ⟨shows.occupant, rfl, rfl, shows⟩
  moves stands move := Recovery.movesStand stands move
  answers stands waits := Recovery.answerStands stands waits _

theorem prompt (label : String) :
    (charter (C := C) (P := P) (V := V) label).Prompt Recovery.ahead where
  nears := Recovery.nears
  stalls stands := Recovery.stalls stands

def isAttempt (x : Exchange (Chore C P) V) : Bool :=
  match x.call with
  | .work (.call ..) => true
  | _ => false

section Attempt
variable {worker : Nat} {y : Outcome V}

@[simp] theorem callAttempt {c : C} {restore : Option P} :
    isAttempt ⟨worker, .work (.call c restore), y⟩ = true := rfl

@[simp] theorem restoreAttempt {p : P} :
    isAttempt (⟨worker, .work (.restore p), y⟩ : Exchange (Chore C P) V) = false := rfl

@[simp] theorem initAttempt :
    isAttempt (⟨worker, .init, y⟩ : Exchange (Chore C P) V) = false := rfl

@[simp] theorem disposeAttempt :
    isAttempt (⟨worker, .dispose, y⟩ : Exchange (Chore C P) V) = false := rfl

end Attempt

abbrev Done (C P V : Type) := Deed (Chore C P) V V

section Done
variable (d : Done C P V)

def attempts : List (Exchange (Chore C P) V) := d.exchanges.filter isAttempt

def died : Bool := (attempts d).head?.any Exchange.died

def warned (label : String) : List Note := ((attempts d).head?.bind (·.warning? label)).toList

def Succeeded (worker : Nat) (call : Call (Chore C P)) : Prop :=
  ∃ v, ⟨worker, call, .ok v⟩ ∈ d.exchanges

def Ready (restore : Option P) (fresh : Nat) : Prop :=
  Succeeded d fresh .init ∧ ∀ p, restore = some p → Succeeded d fresh (.work (.restore p))

/-- The reply is the failure of a fresh worker to start, or of telling it what it has to be told; or
there is none, as a worker has broken down. -/
def Unrenewed (restore : Option P) (fresh : Nat) : Prop :=
  (∃ x e, x ∈ d.exchanges ∧ x.worker = fresh ∧
    (x.call = .init ∨ ∃ p, restore = some p ∧ x.call = .work (.restore p)) ∧
    x.outcome = .failed e ∧ d.reply = some (.error e)) ∨
  d.reply = none ∧ ∃ x ∈ d.exchanges, x.outcome = .panicked

/-- What becomes of a call that this worker gets first. A fresh one has the next number. -/
structure Mended (c : C) (restore : Option P) (worker : Nat) : Prop where
  few : (attempts d).length ≤ 2
  first : ∃ y, (attempts d)[0]? = some ⟨worker, .work (.call c restore), y⟩
  second : ∀ x, (attempts d)[1]? = some x →
    x.worker = worker + 1 ∧ x.call = .work (.call c restore)
  repeated : (attempts d).length = 2 ↔ died d = true ∧ Ready d restore (worker + 1)
  answered : ∀ x, (attempts d).getLast? = some x → (died d = true → (attempts d).length = 2) →
    d.reply = x.outcome.reply?.map (·.map some)
  unrepeated : died d = true → (attempts d).length ≠ 2 → Unrenewed d restore (worker + 1)

end Done

section Course
variable {label : String} {c : C} {restore : Option P} {worker : Nat} {d : Done C P V}

theorem mendedAlive {y : Outcome V} (alive : ∀ e, y = .failed e → e.isCrash = false)
    (calls : d.exchanges = [⟨worker, .work (.call c restore), y⟩])
    (answered : d.reply = y.reply?.map (·.map some)) : Mended d c restore worker := by
  have tries : attempts d = [⟨worker, .work (.call c restore), y⟩] := by
    rw [attempts, calls]
    rfl
  have survives : died d = false := by
    rw [died, tries]
    cases y with
    | failed e => exact alive e rfl
    | _ => rfl
  exact {
    few := by simp [tries]
    first := by simp [tries]
    second := by simp [tries]
    repeated := by simp [tries, survives]
    answered := by simpa [tries] using fun _ => answered
    unrepeated := by simp [survives] }

theorem mendedOnce {e : WorkerError} {rest : List (Exchange (Chore C P) V)}
    (crash : e.isCrash = true)
    (calls : d.exchanges = ⟨worker, .work (.call c restore), .failed e⟩ :: rest)
    (idle : rest.filter isAttempt = []) (unready : ¬ Ready d restore (worker + 1))
    (unrenewed : Unrenewed d restore (worker + 1)) : Mended d c restore worker := by
  have tries : attempts d = [⟨worker, .work (.call c restore), .failed e⟩] := by
    rw [attempts, calls, List.filter_cons_of_pos callAttempt, idle]
  have dies : died d = true := by
    rw [died, tries]
    exact crash
  exact {
    few := by simp [tries]
    first := by simp [tries]
    second := by simp [tries]
    repeated := by simpa [tries] using fun _ => unready
    answered := by simp [tries, dies]
    unrepeated := fun _ _ => unrenewed }

theorem mendedTwice {e : WorkerError} {z : Outcome V} (crash : e.isCrash = true)
    (tries : attempts d = [⟨worker, .work (.call c restore), .failed e⟩,
      ⟨worker + 1, .work (.call c restore), z⟩])
    (ready : Ready d restore (worker + 1)) (answered : d.reply = z.reply?.map (·.map some)) :
    Mended d c restore worker where
  few := by simp [tries]
  first := by simp [tries]
  second := by simp [tries]
  repeated := by simpa [tries, died, Exchange.died, crash] using ready
  answered := by simpa [tries] using answered
  unrepeated := by simp [tries]

theorem mended {own : List (Exchange (Chore C P) V)} {reply : Option (Except WorkerError V)}
    (trace : Recovery.Trace (.call c restore) (restore.map .restore) worker own reply)
    (calls : d.exchanges = own) (same : d.reply = reply.map (·.map some)) :
    Mended d c restore worker := by
  cases trace with
  | once alive => exact mendedAlive alive calls same
  | undisposed crash =>
    refine mendedOnce crash calls rfl ?_ (.inr ⟨same, ?_⟩)
    · simp [Ready, Succeeded, calls]
    · simp [calls]
  | @unstarted _ y z crash failed =>
    have last : ⟨worker + 1, .init, z⟩ ∈ d.exchanges := by simp [calls]
    refine mendedOnce crash calls rfl ?_ ?_
    · rintro ⟨⟨v, started⟩, -⟩
      have same : Outcome.ok v = z := by simpa [calls] using started
      exact failed v same.symm
    · cases z with
      | ok v => exact absurd rfl (failed v)
      | failed e => exact .inl ⟨_, e, last, rfl, .inl rfl, rfl, same⟩
      | panicked => exact .inr ⟨same, _, last, rfl⟩
  | @untold _ y v w z crash some failed =>
    obtain ⟨p, restored, rfl⟩ := Option.map_eq_some_iff.mp some
    have last : ⟨worker + 1, .work (.restore p), z⟩ ∈ d.exchanges := by simp [calls]
    refine mendedOnce crash calls rfl ?_ ?_
    · rintro ⟨-, told⟩
      obtain ⟨u, told⟩ := told p restored
      have same : Outcome.ok u = z := by simpa [calls] using told
      exact failed u same.symm
    · cases z with
      | ok v => exact absurd rfl (failed v)
      | failed e => exact .inl ⟨_, e, last, rfl, .inr ⟨p, restored, rfl⟩, rfl, same⟩
      | panicked => exact .inr ⟨same, _, last, rfl⟩
  | plain crash none =>
    refine mendedTwice crash (by rw [attempts, calls]; rfl) ⟨?_, ?_⟩ same
    · simp [Succeeded, calls]
    · simp [Option.map_eq_none_iff.mp none]
  | told crash some =>
    obtain ⟨p, told, rfl⟩ := Option.map_eq_some_iff.mp some
    refine mendedTwice crash (by rw [attempts, calls]; rfl) ⟨?_, ?_⟩ same
    · simp [Succeeded, calls]
    · simp [Succeeded, calls, told]

theorem tallied {r r' : Roll (Chore C P)} {reply : Option (Except WorkerError V)}
    (course : Recovery.Course (job label (.call c restore)) r reply d.exchanges r') :
    r'.made = r.made + (died d).toNat ∧ warnings r'.notes = warnings r.notes ++ warned d label := by
  obtain ⟨x, first, call, made, notes⟩ := course.opens
  obtain ⟨rest, whole⟩ := List.head?_eq_some_iff.mp first
  have own : isAttempt x = true := by
    rw [isAttempt, call]
    rfl
  have head : (attempts d).head? = some x := by
    rw [attempts, whole, List.filter_cons_of_pos own, List.head?_cons]
  rw [died, warned, head]
  exact ⟨made, notes⟩

end Course

section Session
variable {label : String} {r : Roll (Chore C P)} {deeds : List (Done C P V)}

def Asked (d : Done C P V) : Prop :=
  d.request = .init ∨ ∃ c restore, d.request = .work (.call c restore)

theorem Asked.undisposed {d : Done C P V} (asked : Asked d) : d.request ≠ .dispose := by
  rcases asked with start | ⟨c, restore, call⟩
  · rw [start]
    nofun
  · rw [call]
    nofun

theorem Asked.tallied {d : Done C P V} (asked : Asked d) {r' : Roll (Chore C P)}
    (treats : (charter label).Treats r d.request d.reply d.exchanges r') :
    r'.made = r.made + (died d).toNat ∧ warnings r'.notes = warnings r.notes ++ warned d label := by
  rcases asked with start | ⟨c, restore, call⟩
  · rw [start] at treats
    obtain ⟨y, -, own, rfl⟩ := treats.single nofun
    have none : attempts d = [] := by rw [attempts, own]; rfl
    rw [died, warned, none]
    exact ⟨rfl, (List.append_nil _).symm⟩
  · rw [call] at treats
    obtain ⟨_, course, -⟩ := treats.course
    exact Mending.tallied course

theorem diedCount (deeds : List (Done C P V)) :
    (deeds.map fun d => (died d).toNat).sum = deeds.countP died := by
  induction deeds with
  | nil => rfl
  | cons d deeds ih =>
    rw [List.map_cons, List.sum_cons, ih, List.countP_cons, Nat.add_comm]
    cases died d <;> rfl

theorem warnedCount (label : String) (deeds : List (Done C P V)) :
    (deeds.flatMap (warned · label)).length = deeds.countP died := by
  have each (d : Done C P V) : (warned d label).length = (died d).toNat := by
    rw [warned, died]
    cases (attempts d).head? with
    | none => rfl
    | some x =>
      rw [Option.bind_some, Option.any_some, ← Exchange.warningDied label]
      cases x.warning? label <;> rfl
  rw [List.length_flatMap, ← diedCount]
  exact congrArg List.sum (List.map_congr_left fun d _ => each d)

theorem seated (past : (charter label).Past deeds r) (asked : ∀ d ∈ deeds, Asked d) :
    Succession (deeds.flatMap (·.exchanges)) r ∧ r.seat.occupant = deeds.countP died ∧
      warnings r.notes = deeds.flatMap (warned · label) := by
  have succession := past.lasts successionLasts firstSuccession
    (fun course before => Recovery.Course.lasts course successionLasts before)
    fun d member => (asked d member).undisposed
  have made := past.made fun d member _ _ _ _ _ treats => ((asked d member).tallied treats).1
  have notes := past.warned fun d member _ _ treats => ((asked d member).tallied treats).2
  rw [diedCount, succession.newest] at made
  exact ⟨succession, by omega, notes⟩

end Session

/- A call comes to an end after 16 steps at most: moves, and answers of workers. A worker that breaks
down leaves it without a reply. -/
theorem crashesMended {label : String} {s : Session (Chore C P) V (Recovery (Chore C P)) V}
    (reached : Session.Reached (keeper label) s) (asked : ∀ d ∈ s.deeds, Asked d) :
    (∀ before d after c restore, s.deeds = before ++ d :: after →
      d.request = .work (.call c restore) → Mended d c restore (before.countP died)) ∧
    (s.attempt = none →
      s.crew.made = 1 + s.deeds.countP died ∧
      (∀ worker < s.deeds.countP died, Dismissed worker (s.crew.history.filterMap Event.call?)) ∧
      warnings s.crew.notes = s.deeds.flatMap (warned · label) ∧
      (warnings s.crew.notes).length = s.deeds.countP died ∧
      ∀ c restore, Session.Comes (keeper label) (Session.Ends s.deeds (.work (.call c restore))) 16
        (s.ask (keeper label) (.work (.call c restore)))) := by
  have sound := (charter label).sound reached
  refine ⟨fun before d after c restore whole call => ?_, fun free => ?_⟩
  · obtain ⟨r, past⟩ := sound.past
    rw [whole] at past asked
    obtain ⟨r₁, r₂, past, treats⟩ := past.split
    obtain ⟨succession, occupant, -⟩ :=
      seated past fun d member => asked d (List.mem_append_left _ member)
    rw [call] at treats
    obtain ⟨answer, course, same⟩ := treats.course
    have trace := Recovery.Course.trace course succession.newest
    rw [← occupant]
    exact mended trace rfl same.symm
  · obtain ⟨r, past, shows⟩ := sound.resting free
    obtain ⟨succession, occupant, notes⟩ := seated past asked
    refine ⟨?_, fun worker below => ?_, ?_, ?_, fun c restore => ?_⟩
    · rw [shows.made, succession.newest, occupant, Nat.add_comm]
    · rw [shows.calls, List.map_nil, List.append_nil]
      exact succession.former worker (occupant ▸ below)
    · rw [shows.notes, notes]
    · rw [shows.notes, notes, warnedCount]
    · exact sound.askEnds free (prompt label) reached _

section Cues
open Session.Cue

/-- The worker dies over the call and cannot be disposed. The fresh one starts and is told what it has
to be told, and it answers the call. -/
def restoredCues : List (Session.Cue (Chore String String) String) :=
  [ask .init, move, answer (.ok "started"), move,
    ask (.work (.call "check" (some "tsc"))), move, answer (.failed (.crashed 7 (some 1) "gone")), move,
    move, move, answer (.failed (.rejected "busy")), move, move, answer (.ok "started"), move,
    move, answer (.ok "told"), move, move, answer (.ok "found"), move]

end Cues

def afterRestored : Session (Chore String String) String (Recovery (Chore String String)) String :=
  (Session.played (keeper "Checker") restoredCues {}).getD {}

theorem restoredPlayed :
    Session.played (keeper "Checker") restoredCues {} = some afterRestored := rfl

def startDone : Done String String String where
  request := .init
  exchanges := [⟨0, .init, .ok "started"⟩]
  reply := some (.ok none)

def restoredDone : Done String String String where
  request := .work (.call "check" (some "tsc"))
  exchanges := [⟨0, .work (.call "check" (some "tsc")), .failed (.crashed 7 (some 1) "gone")⟩,
    ⟨0, .dispose, .failed (.rejected "busy")⟩, ⟨1, .init, .ok "started"⟩,
    ⟨1, .work (.restore "tsc"), .ok "told"⟩, ⟨1, .work (.call "check" (some "tsc")), .ok "found"⟩]
  reply := some (.ok (some "found"))

theorem restoredDeeds : afterRestored.deeds = [startDone, restoredDone] := rfl

theorem crashesMendedRestored :
    Mended restoredDone "check" (some "tsc") 0 ∧ (attempts restoredDone).length = 2 ∧
      afterRestored.crew.made = 2 ∧
      Dismissed 0 (afterRestored.crew.history.filterMap Event.call?) ∧
      (warnings afterRestored.crew.notes).length = 1 := by
  have asked : ∀ d ∈ afterRestored.deeds, Asked d := by
    rw [restoredDeeds]
    exact List.forall_mem_cons.mpr ⟨.inl rfl, List.forall_mem_singleton.mpr (.inr ⟨_, _, rfl⟩)⟩
  obtain ⟨each, rest⟩ := crashesMended (Session.playedReached .start restoredPlayed) asked
  obtain ⟨made, dismissed, -, warned, -⟩ := rest rfl
  have mended := each [startDone] restoredDone [] _ _ restoredDeeds rfl
  exact ⟨mended, rfl, made, dismissed 0 (by rw [restoredDeeds]; decide), warned⟩

end Mending

end MutationPipeline
