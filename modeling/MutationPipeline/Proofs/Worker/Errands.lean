import MutationPipeline.Pipeline.Errand
import MutationPipeline.Proofs.Worker.Orders

/-! What workers are asked for by the activities that call them. Only the call with the work itself asks
for that work; it begins once, is repeated at most once, and nothing is answered before it began. -/
namespace MutationPipeline
variable {W V β : Type} {of : W → Option β}

namespace Crew
variable {c u v : Crew W V} {said : List β}

def Discreet (of : W → Option β) (c : Crew W V) : Prop :=
  ∀ seat w, c.remembered seat = some w → of w = none

structure Spoke (of : W → Option β) (said : List β) (c u : Crew W V) : Prop where
  asked : u.asked of = c.asked of ++ said
  discreet : c.Discreet of → u.Discreet of

structure Hushed (c u : Crew W V) : Prop where
  history : u.history = c.history
  seats : u.seats = c.seats

theorem Hushed.discreet (hushed : c.Hushed u) (discreet : c.Discreet of) : u.Discreet of := by
  intro seat w
  rw [remembered, hushed.seats]
  exact discreet seat w

theorem Hushed.spoke (hushed : c.Hushed u) : Spoke of [] c u where
  asked := by rw [asked, asked, hushed.history, List.append_nil]
  discreet := hushed.discreet

theorem Spoke.hushed (spoke : Spoke of said c u) (hushed : u.Hushed v) : Spoke of said c v where
  asked := by rw [Crew.asked, hushed.history]; exact spoke.asked
  discreet := fun discreet => hushed.discreet (spoke.discreet discreet)

theorem Spoke.made {e : Event W} (history : u.history = c.history ++ [e])
    (silent : e.asked of = none)
    (remembered : ∀ seat w, u.remembered seat = some w → c.remembered seat = some w) :
    Spoke of [] c u where
  asked := by
    rw [Crew.asked, history, List.filterMap_append, List.filterMap_cons_none silent]
    rfl
  discreet := fun discreet seat w known => discreet seat w (remembered seat w known)

theorem hireSpoke (c : Crew W V) : Spoke of [] c c.hire.1 := by
  refine .made rfl rfl fun seat w known => ?_
  simp only [remembered, hire, make, Array.getElem?_push] at known ⊢
  split at known
  · cases known
  · exact known

theorem replaceSpoke (c : Crew W V) (seat : Nat) : Spoke of [] c (c.replace seat).1 := by
  refine .made rfl rfl fun s w known => ?_
  simp only [remembered, replace, make, Array.getElem?_modify] at known ⊢
  split at known
  · cases here : c.seats[s]? with
    | none => simp [here] at known
    | some x => simpa [here] using known
  · exact known

theorem rememberSpoke (c : Crew W V) (seat : Nat) {w : W} (silent : of w = none) :
    Spoke of [] c (c.remember seat w) where
  asked := (List.append_nil _).symm
  discreet := by
    intro discreet s x known
    simp only [remembered, remember, Array.getElem?_modify] at known
    split at known
    · cases here : c.seats[s]? with
      | none => simp [here] at known
      | some y =>
        rw [here] at known
        cases known
        exact silent
    · exact discreet s x known

theorem abandonHushed (c : Crew W V) (tokens : List Nat) : c.Hushed (tokens.foldl abandon c) := by
  induction tokens generalizing c with
  | nil => exact ⟨rfl, rfl⟩
  | cons token rest ih => exact ⟨(ih (c.abandon token)).history, (ih (c.abandon token)).seats⟩

end Crew

theorem Machine.withinSpoke {σ φ φ' ρ ρ' : Type} {m : Machine σ φ ρ} {p : φ} {s s' : σ}
    {embed : φ → φ'} {after : ρ → σ → σ × Next φ' ρ'} {n : Next φ' ρ'} {said : List β}
    (look : σ → Crew W V) (move : (s', n) ∈ m.within embed after p s)
    (inner : ∀ u o, (u, o) ∈ m p s → Crew.Spoke of said (look s) (look u))
    (hushed : ∀ r u, (look u).Hushed (look (after r u).1)) :
    Crew.Spoke of said (look s) (look s') :=
  Machine.withinState (fun u => Crew.Spoke of said (look s) (look u)) move inner
    fun r u spoke => spoke.hushed (hushed r u)

def Unseen (of : W → Option β) (_ : Nat) (w : W) : Prop := of w = none

section Silent
variable {c u : Crew W V}

def Calling.speech (of : W → Option β) : Calling W → List β
  | .ready worker call => ((Event.called worker call).asked of).toList
  | .waiting _ => []

theorem Calling.movesSpoke {call : Calling W} {n : Next (Calling W) (Except WorkerError V)}
    (move : (u, n) ∈ Calling.moves call c) : Crew.Spoke of (call.speech of) c u := by
  cases call with
  | ready worker call =>
    obtain ⟨rfl, -⟩ := memStep.mp move
    refine ⟨?_, id⟩
    show (c.history ++ [Event.called worker call]).filterMap _ = _
    rw [List.filterMap_append, speech]
    cases said : (Event.called worker call).asked of <;> simp [said, Crew.asked]
  | waiting token =>
    simp only [Calling.moves] at move
    split at move
    · cases move
    · obtain ⟨rfl, -⟩ := memFinish.mp move
      exact Crew.Hushed.spoke ⟨rfl, rfl⟩
    · obtain ⟨rfl, -⟩ := memFinish.mp move
      exact Crew.Hushed.spoke ⟨rfl, rfl⟩
    · cases List.mem_singleton.mp move
      exact Crew.Hushed.spoke ⟨rfl, rfl⟩

theorem Calling.Begins.silent {call : Calling W} (begins : call.Begins (Unseen of)) :
    call.speech of = [] := by
  cases call with
  | ready worker call =>
    cases call with
    | work w => exact congrArg Option.toList begins
    | _ => rfl
  | waiting token => rfl

theorem Calling.movesSilent {call : Calling W} {n : Next (Calling W) (Except WorkerError V)}
    (begins : call.Begins (Unseen of)) (move : (u, n) ∈ Calling.moves call c) :
    Crew.Spoke of [] c u :=
  begins.silent ▸ Calling.movesSpoke move

theorem Renewal.movesSilent {label : String} {seat : Nat} {r : Renewal W}
    {n : Next (Renewal W) (Except WorkerError Unit)} (begins : r.Begins (Unseen of))
    (move : (u, n) ∈ Renewal.moves label seat r c) : Crew.Spoke of [] c u := by
  cases r with
  | replacing =>
    obtain ⟨rfl, -⟩ := memStep.mp move
    exact c.replaceSpoke seat
  | disposing fresh call =>
    refine Machine.withinSpoke id move (fun _ _ => Calling.movesSilent begins) fun r u => ?_
    cases r <;> exact ⟨rfl, rfl⟩
  | starting call =>
    exact Machine.withinSpoke id move (fun _ _ => Calling.movesSilent begins) fun _ _ => ⟨rfl, rfl⟩

end Silent

/-- The calls with an item's work begin one after the other, each of them at most once, and there is no
result before the first one. `may` says whether a call, the first or the repeated one, can still
begin. -/
structure Attempts {φ ρ : Type} (may : Bool → φ → Bool) (begun? : φ → φ → Option Bool) (p : φ)
    (n : Next φ ρ) : Prop where
  begins : ∀ q again, n = .go q → begun? p q = some again → may again p = true ∧ may again q = false
  repeats : ∀ q, n = .go q → begun? p q = some true → may false p = false
  fewer : ∀ q again, n = .go q → may again q = true → may again p = true
  known : ∀ q, n = .go q → may false q = false → may false p = false ∨ begun? p q = some false
  done : ∀ r, n = .done r → may false p = false

def Next.speech {φ ρ : Type} (begun? : φ → φ → Option Bool) (x : β) (p : φ) (n : Next φ ρ) : List β :=
  (n.elim (begun? p) (fun _ => none) none).toList.map fun _ => x

structure Works {φ ρ : Type} (of : W → Option β) (may : Bool → φ → Bool)
    (begun? : φ → φ → Option Bool) (fits : φ → Prop) (x : β) (p : φ) (c u : Crew W V)
    (n : Next φ ρ) : Prop where
  spoke : Crew.Spoke of (n.speech begun? x p) c u
  attempts : Attempts may begun? p n
  fits : ∀ q, n = .go q → fits q

namespace Works
variable {φ ρ : Type} {may : Bool → φ → Bool} {begun? : φ → φ → Option Bool} {fits : φ → Prop} {x : β}
  {p q : φ} {c u : Crew W V}

theorem done {r : ρ} (spoke : Crew.Spoke of [] c u) (known : may false p = false) :
    Works of may begun? fits x p c u (.done r) where
  spoke := spoke
  attempts := by
    refine ⟨fun _ _ same => ?_, fun _ same => ?_, fun _ _ same => ?_, fun _ same => ?_, fun _ _ => known⟩ <;>
      cases same
  fits := fun _ same => by cases same

theorem panicked (spoke : Crew.Spoke of [] c u) :
    Works of may begun? fits x p c u (.panicked : Next φ ρ) where
  spoke := spoke
  attempts := by
    refine ⟨fun _ _ same => ?_, fun _ same => ?_, fun _ _ same => ?_, fun _ same => ?_, fun _ same => ?_⟩ <;>
      cases same
  fits := fun _ same => by cases same

theorem silent (spoke : Crew.Spoke of [] c u) (none : begun? p q = none)
    (fewer : ∀ again, may again q = true → may again p = true)
    (known : may false q = false → may false p = false) (suits : fits q) :
    Works of may begun? fits x p c u (.go q : Next φ ρ) where
  spoke := by
    rw [Next.speech, Next.elim, none]
    exact spoke
  attempts := by
    refine ⟨fun r again same began => ?_, fun r same began => ?_, fun r again same => ?_,
      fun r same before => ?_, fun _ same => ?_⟩ <;> cases same
    · rw [none] at began
      cases began
    · rw [none] at began
      cases began
    · exact fewer again
    · exact .inl (known before)
  fits := fun r same => by
    cases same
    exact suits

theorem begins {again : Bool} (spoke : Crew.Spoke of [x] c u) (now : begun? p q = some again)
    (before : may again p = true) (after : may again q = false)
    (repeats : again = true → may false p = false)
    (fewer : ∀ other, may other q = true → may other p = true) (suits : fits q) :
    Works of may begun? fits x p c u (.go q : Next φ ρ) where
  spoke := by
    rw [Next.speech, Next.elim, now]
    exact spoke
  attempts := by
    refine ⟨fun r other same began => ?_, fun r same began => ?_, fun r other same => ?_,
      fun r same _ => ?_, fun _ same => ?_⟩ <;> cases same
    · cases now.symm.trans began
      exact ⟨before, after⟩
    · cases now.symm.trans began
      exact repeats rfl
    · exact fewer other
    · cases again with
      | false => exact .inr now
      | true => exact .inl (repeats rfl)
  fits := fun r same => by
    cases same
    exact suits

end Works

theorem Machine.withinWorks {φ φ' ρ ρ' : Type} {m : Machine (Crew W V) φ ρ} {embed : φ → φ'}
    {after : ρ → Crew W V → Crew W V × Next φ' ρ'} {p : φ} {c u : Crew W V} {n : Next φ' ρ'} {x : β}
    {may : Bool → φ → Bool} {may' : Bool → φ' → Bool} {begun? : φ → φ → Option Bool}
    {begun?' : φ' → φ' → Option Bool} {fits : φ → Prop} {fits' : φ' → Prop}
    (move : (u, n) ∈ m.within embed after p c)
    (inner : ∀ v o, (v, o) ∈ m p c → Works of may begun? fits x p c v o)
    (begun : ∀ q, begun?' (embed p) (embed q) = begun? p q)
    (may : ∀ q again, may' again (embed q) = may again q) (suits : ∀ q, fits q → fits' (embed q))
    (ended : ∀ r v, Crew.Spoke of [] c v → may' false (embed p) = false →
      Works of may' begun?' fits' x (embed p) c (after r v).1 (after r v).2) :
    Works of may' begun?' fits' x (embed p) c u n := by
  rcases Machine.withinCases move with ⟨q, moved, rfl⟩ | ⟨v, r, moved, same⟩ | ⟨moved, rfl⟩
  · obtain ⟨spoke, attempts, fits⟩ := inner u _ moved
    refine ⟨?_, ⟨fun _ again same began => ?_, fun _ same began => ?_, fun _ again same => ?_,
      fun _ same before => ?_, fun _ same => by cases same⟩, fun _ same => ?_⟩
    · rw [Next.speech, Next.elim, begun]
      exact spoke
    all_goals cases same
    · rw [begun] at began
      rw [may, may]
      exact attempts.begins q again rfl began
    · rw [begun] at began
      rw [may]
      exact attempts.repeats q rfl began
    · rw [may, may]
      exact attempts.fewer q again rfl
    · rw [may] at before
      rw [may, begun]
      exact attempts.known q rfl before
    · exact suits q (fits q rfl)
  · obtain ⟨spoke, attempts, -⟩ := inner v _ moved
    have last := ended r v spoke ((may p false).trans (attempts.done r rfl))
    rwa [← same] at last
  · exact .panicked (inner u _ moved).spoke

namespace Calling
variable {c u : Crew W V} {work : W}

def Asks (work : W) : Calling W → Prop
  | .ready _ call => call = .work work
  | .waiting _ => True

theorem startSpoke (c : Crew W V) (worker : Nat) {x : β} (seen : of work = some x) :
    Crew.Spoke of [x] c (c.start worker (.work work)).1 := by
  have spoke : Crew.Spoke of (Calling.speech of (.ready worker (.work work))) c _ :=
    Calling.movesSpoke List.mem_cons_self
  have said : Calling.speech of (.ready worker (.work work)) = [x] := congrArg Option.toList seen
  exact said ▸ spoke

theorem withinReady {φ ρ : Type} {embed : Calling W → φ}
    {after : Except WorkerError V → Crew W V → Crew W V × Next φ ρ} {n : Next φ ρ} {worker : Nat}
    {call : Call W} (move : (u, n) ∈ Calling.moves.within embed after (.ready worker call) c) :
    u = (c.start worker call).1 ∧ n = .go (embed (.waiting c.tokens)) := by
  cases List.mem_singleton.mp move
  exact ⟨rfl, rfl⟩

theorem withinWaiting {φ ρ : Type} {embed : Calling W → φ}
    {after : Except WorkerError V → Crew W V → Crew W V × Next φ ρ} {n : Next φ ρ} {token : Nat}
    (move : (u, n) ∈ Calling.moves.within embed after (.waiting token) c) :
    (∃ r, (u, n) = after r (c.abandon token)) ∨ (u = c.abandon token ∧ n = .panicked) := by
  rcases Machine.withinCases move with ⟨q, inner, -⟩ | ⟨v, r, inner, same⟩ | ⟨inner, rfl⟩ <;>
    simp only [Calling.moves] at inner <;> split at inner
  · cases inner
  · cases (memFinish.mp inner).2
  · cases (memFinish.mp inner).2
  · cases List.mem_singleton.mp inner
  · cases inner
  · obtain ⟨rfl, -⟩ := memFinish.mp inner
    exact .inl ⟨r, same⟩
  · obtain ⟨rfl, -⟩ := memFinish.mp inner
    exact .inl ⟨r, same⟩
  · cases List.mem_singleton.mp inner
  · cases inner
  · cases (memFinish.mp inner).2
  · cases (memFinish.mp inner).2
  · cases List.mem_singleton.mp inner
    exact .inr ⟨rfl, rfl⟩

theorem abandonSpoke (c : Crew W V) (token : Nat) : Crew.Spoke of [] c (c.abandon token) :=
  Crew.Hushed.spoke ⟨rfl, rfl⟩

end Calling

namespace Recovery
variable {c u : Crew W V} {x : β} {job : Job W} {r : Recovery W}
  {n : Next (Recovery W) (Except WorkerError V)}

/-- All calls but those with the work ask for nothing that `of` looks at. -/
def Fits (of : W → Option β) (work : W) : Recovery W → Prop
  | .first call | .second call => call.Asks work
  | .renewing r => r.Begins (Unseen of)
  | .restoring _ call => call.Begins (Unseen of)

def begun? (r next : Recovery W) : Option Bool :=
  (Handling.recovering none r).begun? (.recovering none next)

def mayAsk (again : Bool) : Recovery W → Bool
  | .first call => again || call.isReady
  | .second call => again && call.isReady
  | _ => again

theorem movesWorks (fits : r.Fits of job.work) (seen : of job.work = some x)
    (restore : ∀ w, job.restore = some w → of w = none)
    (move : (u, n) ∈ Recovery.moves job r c) :
    Works of mayAsk begun? (Fits of job.work) x r c u n := by
  cases r with
  | first call =>
    cases call with
    | ready worker call =>
      obtain rfl : call = .work job.work := fits
      obtain ⟨rfl, rfl⟩ := Calling.withinReady move
      exact .begins (Calling.startSpoke c worker seen) rfl rfl rfl (fun same => by cases same)
        (fun other _ => by simp [mayAsk, Calling.isReady]) trivial
    | waiting token =>
      rcases Calling.withinWaiting move with ⟨answer, same⟩ | ⟨rfl, rfl⟩
      · cases answer with
        | ok v =>
          cases same
          exact .done (Calling.abandonSpoke c token) rfl
        | error e =>
          simp only at same
          split at same
          · cases same
            exact .silent ((Calling.abandonSpoke c token).hushed ⟨rfl, rfl⟩) rfl
              (fun again before => by simpa [mayAsk, Calling.isReady] using before) id trivial
          · cases same
            exact .done (Calling.abandonSpoke c token) rfl
      · exact .panicked (Calling.abandonSpoke c token)
  | renewing r =>
    rcases Machine.withinCases move with ⟨q, inner, rfl⟩ | ⟨v, answer, inner, same⟩ | ⟨inner, rfl⟩
    · have spoke : Crew.Spoke of [] c u := Renewal.movesSilent fits inner
      exact .silent spoke rfl (fun _ => id) id (Renewal.movesBegins inner q rfl)
    · have spoke : Crew.Spoke of [] c v := Renewal.movesSilent fits inner
      cases answer with
      | ok _ =>
        simp only at same
        split at same
        · next w known =>
          cases same
          exact .silent spoke rfl (fun _ => id) id (restore w known)
        · cases same
          exact .silent spoke rfl (fun _ before => (Bool.and_eq_true_iff.mp before).1)
            (fun _ => rfl) rfl
      | error e =>
        cases same
        exact .done spoke rfl
    · exact .panicked (Renewal.movesSilent fits inner)
  | restoring fresh call =>
    have whole {v o} (inner : (v, o) ∈ Calling.moves call c) : Crew.Spoke of [] c v :=
      Calling.movesSilent fits inner
    rcases Machine.withinCases move with ⟨q, inner, rfl⟩ | ⟨v, answer, inner, same⟩ | ⟨inner, rfl⟩
    · exact .silent (whole inner) rfl (fun _ => id) id (Calling.movesBegins inner q rfl)
    · cases answer with
      | ok _ =>
        cases same
        exact .silent (whole inner) rfl (fun _ before => (Bool.and_eq_true_iff.mp before).1)
          (fun _ => rfl) rfl
      | error e =>
        cases same
        exact .done (whole inner) rfl
    · exact .panicked (whole inner)
  | second call =>
    cases call with
    | ready worker call =>
      obtain rfl : call = .work job.work := fits
      obtain ⟨rfl, rfl⟩ := Calling.withinReady move
      exact .begins (Calling.startSpoke c worker seen) rfl rfl rfl (fun _ => rfl)
        (fun other before => by simp [mayAsk, Calling.isReady] at before) trivial
    | waiting token =>
      rcases Calling.withinWaiting move with ⟨answer, same⟩ | ⟨rfl, rfl⟩
      · cases same
        exact .done (Calling.abandonSpoke c token) rfl
      · exact .panicked (Calling.abandonSpoke c token)

end Recovery

namespace Handling
variable {c u : Crew W V} {x : β} {staffing : Staffing} {seat : Nat} {work : W} {h : Handling W}
  {n : Next (Handling W) (Except WorkerError V)}

def Fits (of : W → Option β) (work : W) : Handling W → Prop
  | .starting => True
  | .direct call => call.Asks work
  | .recovering restore r => (∀ w, restore = some w → of w = none) ∧ r.Fits of work

def mayAsk (again : Bool) : Handling W → Bool
  | .starting => true
  | .direct call => again || call.isReady
  | .recovering _ r => r.mayAsk again

theorem begunSelf (h : Handling W) : h.begun? h = none := by
  unfold begun?
  cases h.attempt? with
  | none => rfl
  | some found =>
    obtain ⟨call, again⟩ := found
    cases call <;> rfl

theorem begunInner (restore : Option W) (r q : Recovery W) :
    (Handling.recovering restore r).begun? (.recovering restore q) = r.begun? q := by
  cases r <;> cases q <;> rfl

theorem movesWorks (fits : h.Fits of work) (seen : of work = some x) (discreet : c.Discreet of)
    (move : (u, n) ∈ Handling.moves staffing seat work h c) :
    Works of mayAsk begun? (Fits of work) x h c u n := by
  cases h with
  | starting =>
    simp only [Handling.moves] at move
    split at move
    · obtain ⟨rfl, rfl⟩ := memStep.mp move
      exact .silent (Crew.Hushed.spoke ⟨rfl, rfl⟩) rfl (fun _ _ => rfl)
        (fun before => by simp [mayAsk, Recovery.mayAsk, Calling.isReady] at before)
        ⟨fun w known => discreet seat w known, rfl⟩
    · obtain ⟨rfl, rfl⟩ := memStep.mp move
      exact .silent (Crew.Hushed.spoke ⟨rfl, rfl⟩) rfl (fun _ _ => rfl)
        (fun before => by simp [mayAsk, Calling.isReady] at before) rfl
  | direct call =>
    cases call with
    | ready worker call =>
      obtain rfl : call = .work work := fits
      obtain ⟨rfl, rfl⟩ := Calling.withinReady move
      exact .begins (Calling.startSpoke c worker seen) rfl rfl rfl (fun same => by cases same)
        (fun other _ => by simp [mayAsk, Calling.isReady]) trivial
    | waiting token =>
      rcases Calling.withinWaiting move with ⟨answer, same⟩ | ⟨rfl, rfl⟩
      · cases same
        exact .done (Calling.abandonSpoke c token) rfl
      · exact .panicked (Calling.abandonSpoke c token)
  | recovering restore r =>
    exact Machine.withinWorks move (fun _ _ => Recovery.movesWorks fits.2 seen fits.1)
      (begunInner restore r) (fun _ _ => rfl) (fun _ suits => ⟨fits.1, suits⟩)
      fun _ _ spoke known => .done spoke known

end Handling

theorem checkWorks {β : Type} {of : CheckWork → Option β} {x : β} {staffing : Staffing}
    {mutants : List Mutant} {seat : Nat} {h : Handling CheckWork} {c u : CheckCrew}
    {n : Next (Handling CheckWork) (Except WorkerError Verdicts)} (fits : h.Fits of (.check mutants))
    (seen : of (.check mutants) = some x) (discreet : c.Discreet of)
    (move : (u, n) ∈ checkMoves staffing mutants seat h c) :
    Works of Handling.mayAsk Handling.begun? (Handling.Fits of (.check mutants)) x h c u n :=
  Machine.withinWorks move (fun _ _ => Handling.movesWorks fits seen discreet) (fun _ => rfl)
    (fun _ _ => rfl) (fun _ => id) fun _ _ spoke known => .done spoke known

namespace Running
variable {β : Type} {of : RunPlan → Option β} {x : β} {plan : RunPlan} {seat : Nat} {g : Running}
  {c u : RunCrew} {n : Next Running (Except WorkerError TestRun)}

def Fits (of : RunPlan → Option β) (plan : RunPlan) : Running → Prop
  | .handling h => h.Fits of plan
  | .replacing r => r.Begins (Unseen of)

def mayAsk (again : Bool) : Running → Bool
  | .handling h => h.mayAsk again
  | .replacing _ => false

theorem begunSelf (g : Running) : g.begun? g = none := by
  cases g with
  | handling h => exact h.begunSelf
  | replacing r => rfl

theorem movesWorks (fits : g.Fits of plan) (seen : of plan = some x) (discreet : c.Discreet of)
    (move : (u, n) ∈ Running.moves plan seat g c) :
    Works of mayAsk begun? (Fits of plan) x g c u n := by
  cases g with
  | handling h =>
    refine Machine.withinWorks move (fun _ _ => Handling.movesWorks fits seen discreet)
      (fun _ => rfl) (fun _ _ => rfl) (fun _ => id) fun answer v spoke known => ?_
    cases answer with
    | ok run =>
      cases run with
      | some run => exact .done spoke known
      | none =>
        exact .silent (spoke.hushed ⟨rfl, rfl⟩) rfl (fun _ before => by cases before)
          (fun _ => known) trivial
    | error e => exact .done spoke known
  | replacing r =>
    have whole {v o} (inner : (v, o) ∈ Renewal.moves label seat r c) : Crew.Spoke of [] c v :=
      Renewal.movesSilent fits inner
    rcases Machine.withinCases move with ⟨q, inner, rfl⟩ | ⟨v, answer, inner, same⟩ | ⟨inner, rfl⟩
    · exact .silent (whole inner) rfl (fun _ => id) id (Renewal.movesBegins inner q rfl)
    · cases same
      exact .done (whole inner) rfl
    · exact .panicked (whole inner)

end Running

end MutationPipeline
