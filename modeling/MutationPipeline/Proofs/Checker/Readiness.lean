import MutationPipeline.Proofs.Worker.Orders

/-! Workers that are ready for the checks of one checker. The seat of such a worker remembers the
checker, and the worker itself was told it, before it is asked for anything else. `active` says
which workers were. -/
namespace MutationPipeline
variable {name : String} {active active' : Nat → Prop} {c u : CheckCrew} {seat worker : Nat}

def CheckWork.Suits (name : String) (active : Nat → Prop) (worker : Nat) : CheckWork → Prop
  | .setActive n => n = name
  | _ => active worker

namespace Crew

structure Manned (name : String) (active : Nat → Prop) (c : CheckCrew) (seat : Nat) : Prop where
  remembered : c.remembered seat = some (.setActive name)
  active : active (c.occupant seat)

/-- What may happen to a crew meanwhile: to the seats that are kept nothing, other calls begin, and
who could be told the checker has it for the active one. -/
structure Drift (name : String) (active active' : Nat → Prop) (kept : Nat → Prop)
    (c u : CheckCrew) : Prop where
  occupant : ∀ s, kept s → u.occupant s = c.occupant s
  remembered : ∀ s, kept s → c.remembered s = some (.setActive name) →
    u.remembered s = some (.setActive name)
  tokens : c.tokens ≤ u.tokens
  orders : ∀ x ∈ u.orders, x ∈ c.orders ∨ c.tokens ≤ x.token
  answers : ∀ t v, (t, .ok v) ∈ u.answers → (t, .ok v) ∈ c.answers ∨
    ∃ x ∈ c.orders, x.token = t ∧ (x.call = .work (.setActive name) → active' x.worker)
  active : ∀ w, active w → active' w

theorem Manned.drift {kept : Nat → Prop} (manned : c.Manned name active seat)
    (drift : Drift name active active' kept c u) (keeps : kept seat) :
    u.Manned name active' seat where
  remembered := drift.remembered seat keeps manned.remembered
  active := by
    rw [drift.occupant seat keeps]
    exact drift.active _ manned.active

theorem Drift.suits {kept : Nat → Prop} (drift : Drift name active active' kept c u) (worker : Nat)
    (w : CheckWork) (suits : w.Suits name active worker) : w.Suits name active' worker := by
  cases w with
  | setActive n => exact suits
  | check mutants => exact drift.active _ suits
  | createGroups mutants => exact drift.active _ suits

theorem occupantSame (same : u.seats[seat]? = c.seats[seat]?) : u.occupant seat = c.occupant seat := by
  rw [occupant, occupant, same]

theorem occupantKept (same : u.seats = c.seats) (seat : Nat) : u.occupant seat = c.occupant seat :=
  occupantSame (by rw [same])

theorem rememberedSame (same : u.seats[seat]? = c.seats[seat]?) :
    u.remembered seat = c.remembered seat := by
  rw [remembered, remembered, same]

theorem Turn.drift {P : Nat → CheckWork → Prop} {old new : List Nat} (turn : Turn P old new c u)
    {kept : Nat → Prop} (same : ∀ s, kept s → u.seats[s]? = c.seats[s]?) :
    Drift name active active kept c u where
  occupant := fun s keeps => occupantSame (same s keeps)
  remembered := fun s keeps before => (rememberedSame (same s keeps)).trans before
  tokens := turn.tokens
  orders := fun x member => (turn.orders x member).imp And.left And.left
  answers := fun _ _ member => .inl (turn.answers member)
  active := fun _ is => is

end Crew

namespace Calling
variable {call : Calling CheckWork} {n : Next (Calling CheckWork) (Except WorkerError CheckAnswer)}

/-- A worker is being told the checker. -/
def Told (name : String) (active : Nat → Prop) (worker : Nat) (c : CheckCrew) :
    Calling CheckWork → Prop
  | .ready w call => w = worker ∧ call = .work (.setActive name)
  | .waiting token => token < c.tokens ∧
    (∀ x ∈ c.orders, x.token = token → x.worker = worker ∧ x.call = .work (.setActive name)) ∧
      ∀ v, (token, .ok v) ∈ c.answers → active worker

theorem Told.begins (told : call.Told name active worker c) :
    call.Begins (CheckWork.Suits name active) := by
  cases call with
  | ready w call =>
    obtain ⟨-, rfl⟩ := told
    rfl
  | waiting token => trivial

theorem Told.drift {kept : Nat → Prop} (told : call.Told name active worker c)
    (drift : Crew.Drift name active active' kept c u) : call.Told name active' worker u := by
  cases call with
  | ready w call => exact told
  | waiting token =>
    obtain ⟨given, own, answered⟩ := told
    refine ⟨Nat.lt_of_lt_of_le given drift.tokens, fun x member same => ?_, fun v member => ?_⟩
    · rcases drift.orders x member with before | later
      · exact own x before same
      · omega
    · rcases drift.answers token v member with before | ⟨x, waits, same, set⟩
      · exact drift.active _ (answered v before)
      · obtain ⟨rfl, call⟩ := own x waits same
        exact set call

theorem movesTold (numbered : c.Numbered) (told : call.Told name active worker c)
    (move : (u, n) ∈ Calling.moves call c) :
    n.elim (fun next => next.Told name active worker u) (fun r => ∀ v, r = .ok v → active worker)
      True := by
  cases call with
  | ready w call =>
    obtain ⟨rfl, rfl⟩ := told
    obtain ⟨rfl, rfl⟩ := memStep.mp move
    refine ⟨Nat.lt_succ_self _, fun x member same => ?_, fun v member => ?_⟩
    · rcases List.mem_append.mp member with before | now
      · exact absurd same (Nat.ne_of_lt (numbered.orders x before))
      · rw [List.mem_singleton.mp now]
        exact ⟨rfl, rfl⟩
    · exact absurd rfl (Nat.ne_of_lt (numbered.answers _ member))
  | waiting token =>
    simp only [Calling.moves] at move
    split at move
    · cases move
    · next v found =>
      obtain ⟨-, rfl⟩ := memFinish.mp move
      obtain ⟨front, back, whole, -⟩ := List.lookup_eq_some_iff.mp found
      exact fun _ _ => told.2.2 v (by simp [whole])
    · obtain ⟨-, rfl⟩ := memFinish.mp move
      exact fun v same => by cases same
    · cases List.mem_singleton.mp move
      trivial

end Calling

namespace Crew

theorem rememberOccupant (c : CheckCrew) (seat s : Nat) (w : CheckWork) :
    (c.remember seat w).occupant s = c.occupant s := by
  simp only [occupant, remember, Array.getElem?_modify]
  by_cases same : seat = s
  · rw [if_pos same]
    cases c.seats[s]? <;> rfl
  · rw [if_neg same]

theorem rememberSelf {c : CheckCrew} (inside : seat < c.seats.size) (w : CheckWork) :
    (c.remember seat w).remembered seat = some w := by
  simp only [remembered, remember, Array.getElem?_modify, if_pos]
  rw [Array.getElem?_eq_getElem inside]
  rfl

theorem rememberAgain {c : CheckCrew} {s : Nat} {w : CheckWork} (before : c.remembered s = some w)
    (seat : Nat) : (c.remember seat w).remembered s = some w := by
  simp only [remembered, remember, Array.getElem?_modify] at before ⊢
  by_cases same : seat = s
  · rw [if_pos same]
    cases here : c.seats[s]? with
    | none => simp [here] at before
    | some x => rfl
  · rwa [if_neg same]

theorem rememberDrift (name : String) (active : Nat → Prop) (c : CheckCrew) (seat : Nat) :
    Drift name active active (fun _ => True) c (c.remember seat (.setActive name)) where
  occupant := fun s _ => rememberOccupant c seat s _
  remembered := fun _ _ before => rememberAgain before seat
  tokens := Nat.le_refl _
  orders := fun _ member => .inl member
  answers := fun _ _ member => .inl member
  active := fun _ is => is

theorem replaceRemembered (c : CheckCrew) (seat s : Nat) :
    (c.replace seat).1.remembered s = c.remembered s := by
  simp only [remembered, replace, make, Array.getElem?_modify]
  by_cases same : seat = s
  · rw [if_pos same]
    cases c.seats[s]? <;> rfl
  · rw [if_neg same]

theorem replaceOccupant (c : CheckCrew) {s : Nat} (other : s ≠ seat) :
    (c.replace seat).1.occupant s = c.occupant s := by
  simp only [occupant, replace, make, Array.getElem?_modify]
  rw [if_neg other.symm]

structure Reseated (seat : Nat) (c u : CheckCrew) : Prop where
  remembered : ∀ s, u.remembered s = c.remembered s
  others : ∀ s, s ≠ seat → u.occupant s = c.occupant s

theorem Reseated.none (same : u.seats = c.seats) (seat : Nat) : Reseated seat c u where
  remembered := fun _ => rememberedSame (by rw [same])
  others := fun s _ => occupantKept same s

end Crew

namespace Activation
variable {staffing : Staffing} {a : Activation} {n : Next Activation (Except WorkerError Unit)}

def Ready (name : String) (active : Nat → Prop) (seat : Nat) (c : CheckCrew) : Activation → Prop
  | .remembering => True
  | .calling call => c.remembered seat = some (.setActive name) ∧
    call.Told name active (c.occupant seat) c

theorem Ready.drift (ready : a.Ready name active seat c)
    (drift : Crew.Drift name active active' (fun _ => True) c u) :
    a.Ready name active' seat u := by
  cases a with
  | remembering => trivial
  | calling call =>
    obtain ⟨remembered, told⟩ := ready
    refine ⟨drift.remembered seat trivial remembered, ?_⟩
    rw [drift.occupant seat trivial]
    exact told.drift drift

def Begins (P : Nat → CheckWork → Prop) : Activation → Prop
  | .remembering => True
  | .calling call => call.Begins P

theorem movesTurn {P : Nat → CheckWork → Prop} (begins : a.Begins P)
    (move : (u, n) ∈ Activation.moves staffing name seat a c) :
    Crew.Turn P a.tokens (n.elim tokens (fun _ => []) []) c u := by
  cases a with
  | remembering =>
    obtain ⟨rfl, rfl⟩ := memStep.mp move
    exact .none (by split <;> exact ⟨rfl, rfl, rfl⟩) (List.Subset.refl _)
  | calling call =>
    exact Machine.withinTurn id Calling.tokens Activation.tokens move
      (fun _ _ inner => Calling.movesTurn begins inner) (fun _ => rfl)
      fun r u => ⟨⟨rfl, rfl, rfl⟩, rfl⟩

theorem movesSize (move : (u, n) ∈ Activation.moves staffing name seat a c) :
    u.seats.size = c.seats.size := by
  cases a with
  | remembering =>
    obtain ⟨rfl, -⟩ := memStep.mp move
    split
    · exact Array.size_modify
    · rfl
  | calling call => exact Calling.withinSize move fun _ _ => rfl

theorem movesBegins {P : Nat → CheckWork → Prop} (may : ∀ worker, P worker (.setActive name))
    (move : (u, n) ∈ Activation.moves staffing name seat a c) :
    ∀ next, n = .go next → next.Begins P := by
  rintro next rfl
  cases a with
  | remembering =>
    cases (memStep.mp move).2
    exact may _
  | calling call =>
    rcases Machine.withinCases move with ⟨q, inner, same⟩ | ⟨v, r, inner, same⟩ | ⟨inner, same⟩
    · cases same
      exact Calling.movesBegins inner q rfl
    · cases same
    · cases same

theorem movesDrift (recovers : staffing.recovers = true)
    (begins : a.Begins (CheckWork.Suits name active)) (move : (u, n) ∈ Activation.moves staffing name seat a c) :
    Crew.Drift name active active (fun _ => True) c u := by
  cases a with
  | remembering =>
    obtain ⟨rfl, -⟩ := memStep.mp move
    rw [if_pos recovers]
    exact Crew.rememberDrift name active c seat
  | calling call =>
    refine (movesTurn begins move).drift fun s _ => ?_
    exact Machine.withinState (fun v => v.seats[s]? = c.seats[s]?) move
      (fun v _ inner => by rw [Calling.movesSeats inner]) fun _ _ same => same

theorem movesReady (recovers : staffing.recovers = true) (inside : seat < c.seats.size)
    (numbered : c.Numbered) (ready : a.Ready name active seat c)
    (move : (u, n) ∈ Activation.moves staffing name seat a c) :
    n.elim (fun b => b.Ready name active seat u) (fun r => r = .ok () → u.Manned name active seat)
      True := by
  cases a with
  | remembering =>
    obtain ⟨rfl, rfl⟩ := memStep.mp move
    rw [if_pos recovers]
    exact ⟨Crew.rememberSelf inside _, rfl, rfl⟩
  | calling call =>
    obtain ⟨remembered, told⟩ := ready
    rcases Machine.withinCases move with ⟨q, inner, rfl⟩ | ⟨v, r, inner, same⟩ | ⟨inner, rfl⟩
    · have seats := Calling.movesSeats inner
      refine ⟨(Crew.rememberedSame (by rw [seats])).trans remembered, ?_⟩
      rw [Crew.occupantKept seats]
      exact Calling.movesTold numbered told inner
    · have seats := Calling.movesSeats inner
      have answered := Calling.movesTold numbered told inner
      cases same
      intro done
      cases r with
      | ok v =>
        refine ⟨(Crew.rememberedSame (by rw [seats])).trans remembered, ?_⟩
        rw [Crew.occupantKept seats]
        exact answered v rfl
      | error e => cases done
    · trivial

end Activation

theorem Calling.withinSeated {φ ρ : Type} {call : Calling CheckWork} {embed : Calling CheckWork → φ}
    {after : Except WorkerError CheckAnswer → CheckCrew → CheckCrew × Next φ ρ} {n : Next φ ρ}
    (move : (u, n) ∈ Calling.moves.within embed after call c)
    (kept : ∀ r v, (after r v).1.seats = v.seats) : u.seats = c.seats :=
  Machine.withinState (fun v => v.seats = c.seats) move (fun _ _ inner => Calling.movesSeats inner)
    fun r v same => (kept r v).trans same

theorem Renewal.movesReseated {label : String} {r : Renewal CheckWork}
    {n : Next (Renewal CheckWork) (Except WorkerError Unit)}
    (move : (u, n) ∈ Renewal.moves label seat r c) : Crew.Reseated seat c u := by
  cases r with
  | replacing =>
    obtain ⟨rfl, -⟩ := memStep.mp move
    exact ⟨Crew.replaceRemembered c seat, fun s other => Crew.replaceOccupant c other⟩
  | disposing fresh call =>
    refine .none (Calling.withinSeated move fun r v => ?_) seat
    cases r <;> rfl
  | starting call => exact .none (Calling.withinSeated move fun _ _ => rfl) seat

namespace Recovery
variable {r : Recovery CheckWork} {job : Job CheckWork}
  {n : Next (Recovery CheckWork) (Except WorkerError CheckAnswer)}

def Ready (name : String) (active : Nat → Prop) (seat : Nat) (c : CheckCrew) :
    Recovery CheckWork → Prop
  | .first call | .second call =>
    call.Begins (CheckWork.Suits name active) ∧ active (c.occupant seat)
  | .renewing r => r.Begins (CheckWork.Suits name active)
  | .restoring fresh call => fresh = c.occupant seat ∧ call.Told name active fresh c

theorem Ready.begins (ready : r.Ready name active seat c) :
    r.Begins (CheckWork.Suits name active) := by
  cases r with
  | first call => exact ready.1
  | renewing r => exact ready
  | restoring fresh call => exact ready.2.begins
  | second call => exact ready.1

theorem movesReseated (move : (u, n) ∈ Recovery.moves job r c) : Crew.Reseated job.seat c u := by
  cases r with
  | first call =>
    refine .none (Calling.withinSeated move fun r v => ?_) _
    cases r with
    | ok x => rfl
    | error e =>
      simp only
      split <;> rfl
  | renewing r =>
    refine Machine.withinState (Crew.Reseated job.seat c) move
      (fun _ _ inner => Renewal.movesReseated inner) fun r v reseated => ?_
    cases r with
    | ok x =>
      simp only
      split <;> exact reseated
    | error e => exact reseated
  | restoring fresh call =>
    refine .none (Calling.withinSeated move fun r v => ?_) _
    cases r <;> rfl
  | second call => exact .none (Calling.withinSeated move fun _ _ => rfl) _

def Left (name : String) (active : Nat → Prop) (seat : Nat) (u : CheckCrew)
    (n : Next (Recovery CheckWork) (Except WorkerError CheckAnswer)) : Prop :=
  n.elim (Ready name active seat u) (fun r => ∀ v, r = .ok v → active (u.occupant seat)) True

theorem firstReady {call : Calling CheckWork} (ready : Ready name active job.seat c (.first call))
    (move : (u, n) ∈ Recovery.moves job (.first call) c) : Left name active job.seat u n := by
  obtain ⟨-, is⟩ := ready
  rcases Machine.withinCases move with ⟨q, inner, rfl⟩ | ⟨v, r, inner, same⟩ | ⟨inner, rfl⟩
  · have seats := Calling.movesSeats inner
    refine ⟨Calling.movesBegins inner q rfl, ?_⟩
    rwa [Crew.occupantKept seats]
  · have seats := Calling.movesSeats inner
    cases r with
    | ok x =>
      cases same
      intro _ _
      rwa [Crew.occupantKept seats]
    | error e =>
      simp only at same
      split at same
      · cases same
        trivial
      · cases same
        exact fun v done => by cases done
  · trivial

theorem renewingReady {r : Renewal CheckWork} (restore : job.restore = some (.setActive name))
    (move : (u, n) ∈ Recovery.moves job (.renewing r) c) : Left name active job.seat u n := by
  rcases Machine.withinCases move with ⟨q, inner, rfl⟩ | ⟨v, r, inner, same⟩ | ⟨inner, rfl⟩
  · exact Renewal.movesBegins inner q rfl
  · cases r with
    | ok x =>
      simp only [restore] at same
      cases same
      exact ⟨rfl, rfl, rfl⟩
    | error e =>
      cases same
      exact fun v done => by cases done
  · trivial

theorem restoringReady {fresh : Nat} {call : Calling CheckWork} (numbered : c.Numbered)
    (suits : ∀ worker, active worker → job.work.Suits name active worker)
    (ready : Ready name active job.seat c (.restoring fresh call))
    (move : (u, n) ∈ Recovery.moves job (.restoring fresh call) c) :
    Left name active job.seat u n := by
  obtain ⟨rfl, told⟩ := ready
  rcases Machine.withinCases move with ⟨q, inner, rfl⟩ | ⟨v, r, inner, same⟩ | ⟨inner, rfl⟩
  · have seats := Calling.movesSeats inner
    refine ⟨(Crew.occupantKept seats _).symm, ?_⟩
    exact Calling.movesTold numbered told inner
  · have seats := Calling.movesSeats inner
    have answered := Calling.movesTold numbered told inner
    cases r with
    | ok x =>
      cases same
      have is : active (c.occupant job.seat) := answered x rfl
      refine ⟨suits _ is, ?_⟩
      rwa [Crew.occupantKept seats]
    | error e =>
      cases same
      exact fun v done => by cases done
  · trivial

theorem secondReady {call : Calling CheckWork} (ready : Ready name active job.seat c (.second call))
    (move : (u, n) ∈ Recovery.moves job (.second call) c) : Left name active job.seat u n := by
  obtain ⟨-, is⟩ := ready
  rcases Machine.withinCases move with ⟨q, inner, rfl⟩ | ⟨v, r, inner, same⟩ | ⟨inner, rfl⟩
  · have seats := Calling.movesSeats inner
    refine ⟨Calling.movesBegins inner q rfl, ?_⟩
    rwa [Crew.occupantKept seats]
  · have seats := Calling.movesSeats inner
    cases same
    intro _ _
    rwa [Crew.occupantKept seats]
  · trivial

theorem movesReady (restore : job.restore = some (.setActive name)) (numbered : c.Numbered)
    (suits : ∀ worker, active worker → job.work.Suits name active worker)
    (ready : r.Ready name active job.seat c) (move : (u, n) ∈ Recovery.moves job r c) :
    Left name active job.seat u n := by
  cases r with
  | first call => exact firstReady ready move
  | renewing r => exact renewingReady restore move
  | restoring fresh call => exact restoringReady numbered suits ready move
  | second call => exact secondReady ready move

theorem Ready.drift {kept : Nat → Prop} (ready : r.Ready name active seat c)
    (drift : Crew.Drift name active active' kept c u) (keeps : kept seat) :
    r.Ready name active' seat u := by
  have occupant := drift.occupant seat keeps
  cases r with
  | first call => exact ⟨ready.1.more drift.suits, occupant ▸ drift.active _ ready.2⟩
  | renewing r => exact ready.more drift.suits
  | restoring fresh call => exact ⟨ready.1.trans occupant.symm, ready.2.drift drift⟩
  | second call => exact ⟨ready.1.more drift.suits, occupant ▸ drift.active _ ready.2⟩

end Recovery

namespace Handling
variable {h : Handling CheckWork} {staffing : Staffing} {work : CheckWork}
  {n : Next (Handling CheckWork) (Except WorkerError CheckAnswer)}

def Ready (name : String) (active : Nat → Prop) (seat : Nat) (c : CheckCrew) :
    Handling CheckWork → Prop
  | .starting => c.Manned name active seat
  | .direct _ => False
  | .recovering restore r => c.remembered seat = some (.setActive name) ∧
    restore = some (.setActive name) ∧ r.Ready name active seat c

theorem Ready.begins (ready : h.Ready name active seat c) :
    h.Begins (CheckWork.Suits name active) := by
  cases h with
  | starting => trivial
  | direct call => exact ready.elim
  | recovering restore r => exact ready.2.2.begins

theorem Ready.drift {kept : Nat → Prop} (ready : h.Ready name active seat c)
    (drift : Crew.Drift name active active' kept c u) (keeps : kept seat) :
    h.Ready name active' seat u := by
  cases h with
  | starting => exact Crew.Manned.drift ready drift keeps
  | direct call => exact ready
  | recovering restore r =>
    obtain ⟨remembered, same, ready⟩ := ready
    exact ⟨drift.remembered seat keeps remembered, same, ready.drift drift keeps⟩

theorem movesReseated (move : (u, n) ∈ Handling.moves staffing seat work h c) :
    Crew.Reseated seat c u := by
  cases h with
  | starting =>
    simp only [Handling.moves] at move
    split at move
    all_goals
      obtain ⟨rfl, -⟩ := memStep.mp move
      exact .none rfl seat
  | direct call => exact .none (Calling.withinSeated move fun _ _ => rfl) seat
  | recovering restore r =>
    exact Machine.withinState (Crew.Reseated seat c) move
      (fun _ _ inner => Recovery.movesReseated inner) fun _ _ same => same

theorem movesReady (recovers : staffing.recovers = true) (numbered : c.Numbered)
    (suits : ∀ worker, active worker → work.Suits name active worker)
    (ready : h.Ready name active seat c) (move : (u, n) ∈ Handling.moves staffing seat work h c) :
    n.elim (Ready name active seat u) (fun r => ∀ v, r = .ok v → u.Manned name active seat)
      True := by
  have reseated := movesReseated move
  cases h with
  | starting =>
    simp only [Handling.moves, if_pos recovers] at move
    obtain ⟨rfl, rfl⟩ := memStep.mp move
    exact ⟨ready.remembered, ready.remembered, suits _ ready.active, ready.active⟩
  | direct call => exact ready.elim
  | recovering restore r =>
    obtain ⟨remembered, same, ready⟩ := ready
    have still := (reseated.remembered seat).trans remembered
    rcases Machine.withinCases move with ⟨q, inner, rfl⟩ | ⟨v, r, inner, after⟩ | ⟨inner, rfl⟩
    · exact ⟨still, same, Recovery.movesReady same numbered suits ready inner⟩
    · have left := Recovery.movesReady same numbered suits ready inner
      cases after
      exact fun v done => ⟨still, left v done⟩
    · trivial

end Handling

end MutationPipeline
