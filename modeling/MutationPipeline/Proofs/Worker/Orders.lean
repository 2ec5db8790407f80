import MutationPipeline.Checker.Work
import MutationPipeline.Proofs.Moves
import MutationPipeline.Runner.Work

/-! The calls in flight. A move of an activity begins at most one call, for which it waits from then
on, and the only answer that it takes is one to a call of its own. It leaves every seat where it is;
only making a worker takes a new one. -/
namespace MutationPipeline
variable {W V : Type} {P : Nat → W → Prop}

namespace Crew
variable {c u v : Crew W V} {old new : List Nat}

theorem answerFewer {x : Order W} (waits : x ∈ c.orders) (outcome : Outcome V) :
    (c.answer x.token outcome).orders.length < c.orders.length :=
  List.length_filter_lt_length_iff_exists.mpr ⟨x, waits, by simp⟩

/-- What a move does to the calls, made by someone who waits for the calls `old` before and for the
calls `new` after it. `P` says of each worker what work it may be asked for. -/
structure Turn (P : Nat → W → Prop) (old new : List Nat) (c u : Crew W V) : Prop where
  tokens : c.tokens ≤ u.tokens
  orders : ∀ x ∈ u.orders, (x ∈ c.orders ∧ (x.token ∈ old → x.token ∈ new)) ∨
    (c.tokens ≤ x.token ∧ x.token < u.tokens ∧ x.token ∈ new ∧ ∀ w, x.call = .work w → P x.worker w)
  answers : u.answers ⊆ c.answers

structure Quiet (c u : Crew W V) : Prop where
  tokens : u.tokens = c.tokens
  orders : u.orders = c.orders
  answers : u.answers = c.answers

theorem Turn.none (quiet : c.Quiet u) (fewer : old ⊆ new) : Turn P old new c u where
  tokens := Nat.le_of_eq quiet.tokens.symm
  orders := by
    rw [quiet.orders]
    exact fun x member => .inl ⟨member, fun waited => fewer waited⟩
  answers := by
    rw [quiet.answers]
    exact List.Subset.refl _

theorem Turn.taken (c : Crew W V) (token : Nat) : Turn P [token] [] c (c.abandon token) where
  tokens := Nat.le_refl _
  orders := by
    intro x member
    obtain ⟨before, other⟩ := List.mem_filter.mp member
    refine .inl ⟨before, fun waited => ?_⟩
    rw [List.mem_singleton.mp waited] at other
    simp at other
  answers := List.filter_subset_self _

theorem Turn.quiet (turn : Turn P old new c u) (quiet : u.Quiet v) : Turn P old new c v where
  tokens := quiet.tokens ▸ turn.tokens
  orders := by
    rw [quiet.orders, quiet.tokens]
    exact turn.orders
  answers := by
    rw [quiet.answers]
    exact turn.answers

structure Numbered (c : Crew W V) : Prop where
  orders : ∀ x ∈ c.orders, x.token < c.tokens
  answers : ∀ a ∈ c.answers, a.1 < c.tokens

theorem Turn.numbered (turn : Turn P old new c u) (numbered : c.Numbered) : u.Numbered where
  orders := by
    intro x member
    rcases turn.orders x member with ⟨before, -⟩ | ⟨-, begun, -⟩
    · exact Nat.lt_of_lt_of_le (numbered.orders x before) turn.tokens
    · exact begun
  answers := fun a member =>
    Nat.lt_of_lt_of_le (numbered.answers a (turn.answers member)) turn.tokens

def Attended (P : Nat → W → Prop) (tokens : List Nat) (c : Crew W V) : Prop :=
  ∀ x ∈ c.orders, ∀ w, x.call = .work w → x.token ∈ tokens ∧ P x.worker w

theorem Attended.more {Q : Nat → W → Prop} (attended : c.Attended P old) (more : old ⊆ new)
    (also : ∀ worker w, P worker w → Q worker w) : c.Attended Q new := by
  intro x member w work
  obtain ⟨waited, may⟩ := attended x member w work
  exact ⟨more waited, also _ _ may⟩

theorem Turn.attended {others : List Nat} (turn : Turn P old new c u)
    (attended : c.Attended P (old ++ others)) : u.Attended P (new ++ others) := by
  intro x member w work
  rcases turn.orders x member with ⟨before, still⟩ | ⟨-, -, now, may⟩
  · obtain ⟨waited, may⟩ := attended x before w work
    refine ⟨List.mem_append.mpr ?_, may⟩
    exact (List.mem_append.mp waited).imp still id
  · exact ⟨List.mem_append_left _ now, may w work⟩

def Aloof (c u : Crew W V) : Prop := ∃ old new, Turn (fun _ _ => False) old new c u

theorem Aloof.numbered (aloof : c.Aloof u) (numbered : c.Numbered) : u.Numbered := by
  obtain ⟨old, new, turn⟩ := aloof
  exact turn.numbered numbered

theorem Aloof.attended (aloof : c.Aloof u) (attended : c.Attended P old) : u.Attended P old := by
  obtain ⟨_, _, turn⟩ := aloof
  intro x member w work
  rcases turn.orders x member with ⟨before, -⟩ | ⟨-, -, -, none⟩
  · exact attended x before w work
  · exact (none w work).elim

theorem Quiet.aloof (quiet : c.Quiet u) : c.Aloof u := ⟨[], [], .none quiet (List.Subset.refl _)⟩

theorem abandonAllAloof (c : Crew W V) (tokens : List Nat) : c.Aloof (tokens.foldl abandon c) := by
  refine ⟨[], [], ?_⟩
  induction tokens generalizing c with
  | nil => exact .none ⟨rfl, rfl, rfl⟩ (List.Subset.refl _)
  | cons token rest ih =>
    have later := ih (c.abandon token)
    refine ⟨later.tokens, fun x member => ?_, List.Subset.trans later.answers (List.filter_subset_self _)⟩
    rcases later.orders x member with ⟨before, -⟩ | ⟨-, -, none, -⟩
    · exact .inl ⟨List.mem_of_mem_filter before, id⟩
    · cases none

theorem abandonAllOrders (c : Crew W V) {tokens : List Nat} {x : Order W}
    (member : x ∈ (tokens.foldl abandon c).orders) : x ∈ c.orders ∧ x.token ∉ tokens := by
  induction tokens generalizing c with
  | nil => exact ⟨member, List.not_mem_nil⟩
  | cons token rest ih =>
    obtain ⟨before, absent⟩ := ih (c.abandon token) member
    obtain ⟨was, other⟩ := List.mem_filter.mp before
    refine ⟨was, fun among => ?_⟩
    rcases List.mem_cons.mp among with same | later
    · simp [same] at other
    · exact absent later

theorem Attended.vacate (attended : c.Attended P old) {tokens : List Nat} (own : old ⊆ tokens) :
    (tokens.foldl abandon c).Attended P [] := by
  intro x member w work
  obtain ⟨before, absent⟩ := c.abandonAllOrders member
  exact absurd (own (attended x before w work).1) absent

end Crew

theorem Machine.withinTurn {σ φ φ' ρ ρ' : Type} {m : Machine σ φ ρ} {p : φ} {s s' : σ}
    {embed : φ → φ'} {after : ρ → σ → σ × Next φ' ρ'} {n : Next φ' ρ'} (look : σ → Crew W V)
    (tokens : φ → List Nat) (tokens' : φ' → List Nat)
    (move : (s', n) ∈ m.within embed after p s)
    (inner : ∀ u o, (u, o) ∈ m p s →
      Crew.Turn P (tokens p) (o.elim tokens (fun _ => []) []) (look s) (look u))
    (same : ∀ q, tokens' (embed q) = tokens q)
    (quiet : ∀ r u, (look u).Quiet (look (after r u).1) ∧
      (after r u).2.elim tokens' (fun _ => []) [] = []) :
    Crew.Turn P (tokens p) (n.elim tokens' (fun _ => []) []) (look s) (look s') := by
  rcases Machine.withinCases move with ⟨q, moved, rfl⟩ | ⟨u, r, moved, result⟩ | ⟨moved, rfl⟩
  · rw [Next.elim, same]
    exact inner s' _ moved
  · obtain ⟨still, none⟩ := quiet r u
    rw [← result] at still none
    rw [none]
    exact (inner u _ moved).quiet still
  · exact inner s' _ moved

namespace Calling
variable {c u : Crew W V} {call : Calling W} {n : Next (Calling W) (Except WorkerError V)}

def Begins (P : Nat → W → Prop) : Calling W → Prop
  | .ready worker (.work w) => P worker w
  | _ => True

theorem Begins.more {Q : Nat → W → Prop} (begins : call.Begins P)
    (also : ∀ worker w, P worker w → Q worker w) : call.Begins Q := by
  cases call with
  | ready worker call =>
    cases call with
    | work w => exact also worker w begins
    | _ => trivial
  | waiting token => trivial

theorem movesTurn (begins : call.Begins P) (move : (u, n) ∈ Calling.moves call c) :
    Crew.Turn P call.tokens (n.elim tokens (fun _ => []) []) c u := by
  cases call with
  | ready worker call =>
    obtain ⟨rfl, rfl⟩ := memStep.mp move
    refine ⟨Nat.le_succ _, fun x member => ?_, fun a member => member⟩
    rcases List.mem_append.mp member with before | now
    · exact .inl ⟨before, fun waited => by cases waited⟩
    · rw [List.mem_singleton.mp now]
      refine .inr ⟨Nat.le_refl _, Nat.lt_succ_self _, List.mem_singleton_self _, fun w work => ?_⟩
      cases work
      exact begins
  | waiting token =>
    simp only [Calling.moves] at move
    split at move
    · cases move
    · obtain ⟨rfl, rfl⟩ := memFinish.mp move
      exact .taken c token
    · obtain ⟨rfl, rfl⟩ := memFinish.mp move
      exact .taken c token
    · cases List.mem_singleton.mp move
      exact .taken c token

theorem movesBegins (move : (u, n) ∈ Calling.moves call c) :
    ∀ next, n = .go next → next.Begins P := by
  rintro next rfl
  cases call with
  | ready worker call =>
    obtain ⟨-, same⟩ := memStep.mp move
    cases same
    trivial
  | waiting token =>
    simp only [Calling.moves] at move
    split at move
    · cases move
    · cases (memFinish.mp move).2
    · cases (memFinish.mp move).2
    · cases List.mem_singleton.mp move

end Calling

namespace Renewal
variable {c u : Crew W V} {label : String} {seat : Nat} {r : Renewal W}
  {n : Next (Renewal W) (Except WorkerError Unit)}

def Begins (P : Nat → W → Prop) : Renewal W → Prop
  | .replacing => True
  | .disposing _ call | .starting call => call.Begins P

theorem Begins.more {Q : Nat → W → Prop} (begins : r.Begins P)
    (also : ∀ worker w, P worker w → Q worker w) : r.Begins Q := by
  cases r with
  | replacing => trivial
  | disposing fresh call => exact Calling.Begins.more begins also
  | starting call => exact Calling.Begins.more begins also

theorem movesTurn (begins : r.Begins P) (move : (u, n) ∈ Renewal.moves label seat r c) :
    Crew.Turn P r.tokens (n.elim tokens (fun _ => []) []) c u := by
  cases r with
  | replacing =>
    obtain ⟨rfl, rfl⟩ := memStep.mp move
    exact .none ⟨rfl, rfl, rfl⟩ (List.Subset.refl _)
  | disposing fresh call =>
    refine Machine.withinTurn id Calling.tokens Renewal.tokens move (fun _ _ inner => Calling.movesTurn begins inner)
      (fun _ => rfl) fun r u => ?_
    cases r <;> exact ⟨⟨rfl, rfl, rfl⟩, rfl⟩
  | starting call =>
    exact Machine.withinTurn id Calling.tokens Renewal.tokens move (fun _ _ inner => Calling.movesTurn begins inner)
      (fun _ => rfl) fun r u => ⟨⟨rfl, rfl, rfl⟩, rfl⟩

theorem movesBegins (move : (u, n) ∈ Renewal.moves label seat r c) :
    ∀ next, n = .go next → next.Begins P := by
  rintro next rfl
  cases r with
  | replacing =>
    obtain ⟨-, same⟩ := memStep.mp move
    cases same
    trivial
  | disposing fresh call =>
    rcases Machine.withinCases move with ⟨q, inner, same⟩ | ⟨v, r, inner, same⟩ | ⟨inner, same⟩
    · cases same
      exact Calling.movesBegins inner q rfl
    · cases r <;> cases same <;> trivial
    · cases same
  | starting call =>
    rcases Machine.withinCases move with ⟨q, inner, same⟩ | ⟨v, r, inner, same⟩ | ⟨inner, same⟩
    · cases same
      exact Calling.movesBegins inner q rfl
    · cases same
    · cases same

end Renewal

namespace Recovery
variable {c u : Crew W V} {job : Job W} {r : Recovery W}
  {n : Next (Recovery W) (Except WorkerError V)}

def Begins (P : Nat → W → Prop) : Recovery W → Prop
  | .first call | .restoring _ call | .second call => call.Begins P
  | .renewing r => r.Begins P

theorem movesTurn (begins : r.Begins P) (move : (u, n) ∈ Recovery.moves job r c) :
    Crew.Turn P r.tokens (n.elim tokens (fun _ => []) []) c u := by
  cases r with
  | first call =>
    refine Machine.withinTurn id Calling.tokens Recovery.tokens move (fun _ _ inner => Calling.movesTurn begins inner)
      (fun _ => rfl) fun r u => ?_
    cases r with
    | ok v => exact ⟨⟨rfl, rfl, rfl⟩, rfl⟩
    | error e =>
      simp only
      split <;> exact ⟨⟨rfl, rfl, rfl⟩, rfl⟩
  | renewing r =>
    refine Machine.withinTurn id Renewal.tokens Recovery.tokens move (fun _ _ inner => Renewal.movesTurn begins inner)
      (fun _ => rfl) fun r u => ?_
    cases r with
    | ok v =>
      simp only
      split <;> exact ⟨⟨rfl, rfl, rfl⟩, rfl⟩
    | error e => exact ⟨⟨rfl, rfl, rfl⟩, rfl⟩
  | restoring fresh call =>
    refine Machine.withinTurn id Calling.tokens Recovery.tokens move (fun _ _ inner => Calling.movesTurn begins inner)
      (fun _ => rfl) fun r u => ?_
    cases r <;> exact ⟨⟨rfl, rfl, rfl⟩, rfl⟩
  | second call =>
    exact Machine.withinTurn id Calling.tokens Recovery.tokens move (fun _ _ inner => Calling.movesTurn begins inner)
      (fun _ => rfl) fun r u => ⟨⟨rfl, rfl, rfl⟩, rfl⟩

end Recovery

namespace Handling
variable {c u : Crew W V} {staffing : Staffing} {seat : Nat} {work : W} {h : Handling W}
  {n : Next (Handling W) (Except WorkerError V)}

def Begins (P : Nat → W → Prop) : Handling W → Prop
  | .starting => True
  | .direct call => call.Begins P
  | .recovering _ r => r.Begins P

theorem movesTurn (begins : h.Begins P) (move : (u, n) ∈ Handling.moves staffing seat work h c) :
    Crew.Turn P h.tokens (n.elim tokens (fun _ => []) []) c u := by
  cases h with
  | starting =>
    simp only [Handling.moves] at move
    split at move
    all_goals
      obtain ⟨rfl, rfl⟩ := memStep.mp move
      exact .none ⟨rfl, rfl, rfl⟩ (List.Subset.refl _)
  | direct call =>
    exact Machine.withinTurn id Calling.tokens Handling.tokens move (fun _ _ inner => Calling.movesTurn begins inner)
      (fun _ => rfl) fun r u => ⟨⟨rfl, rfl, rfl⟩, rfl⟩
  | recovering restore r =>
    exact Machine.withinTurn id Recovery.tokens Handling.tokens move (fun _ _ inner => Recovery.movesTurn begins inner)
      (fun _ => rfl) fun r u => ⟨⟨rfl, rfl, rfl⟩, rfl⟩

end Handling

theorem callMovesTurn {s s' : Site W V} {call : Calling W}
    {n : Next (Calling W) (Except WorkerError V)} (begins : call.Begins P)
    (move : (s', n) ∈ callMoves call s) :
    Crew.Turn P call.tokens (n.elim Calling.tokens (fun _ => []) []) s.crew s'.crew := by
  obtain ⟨u, inner, rfl⟩ := Machine.onCases move
  exact Calling.movesTurn begins inner

namespace Creation
variable {s s' : Site W V} {holder : Option Nat} {c : Creation W}
  {n : Next (Creation W) (Except PoolError Nat)}

def Begins (P : Nat → W → Prop) : Creation W → Prop
  | .starting _ call | .clearing _ call => call.Begins P
  | _ => True

theorem movesTurn (begins : c.Begins P) (move : (s', n) ∈ Creation.moves holder c s) :
    Crew.Turn P c.tokens (n.elim tokens (fun _ => []) []) s.crew s'.crew := by
  cases c with
  | hiring =>
    obtain ⟨rfl, rfl⟩ := memStep.mp move
    exact .none ⟨rfl, rfl, rfl⟩ (List.Subset.refl _)
  | starting seat call =>
    refine Machine.withinTurn (·.crew) Calling.tokens Creation.tokens move (fun _ _ inner => callMovesTurn begins inner)
      (fun _ => rfl) fun r u => ?_
    cases r <;> exact ⟨⟨rfl, rfl, rfl⟩, rfl⟩
  | clearing cause call =>
    refine Machine.withinTurn (·.crew) Calling.tokens Creation.tokens move (fun _ _ inner => callMovesTurn begins inner)
      (fun _ => rfl) fun r u => ?_
    cases r <;> exact ⟨⟨rfl, rfl, rfl⟩, rfl⟩
  | enrolling seat =>
    obtain ⟨rfl, rfl⟩ := memFinish.mp move
    cases holder <;> exact .none ⟨rfl, rfl, rfl⟩ (List.Subset.refl _)

theorem movesBegins (move : (s', n) ∈ Creation.moves holder c s) :
    ∀ next, n = .go next → next.Begins P := by
  rintro next rfl
  cases c with
  | hiring =>
    obtain ⟨-, same⟩ := memStep.mp move
    cases same
    trivial
  | starting seat call =>
    rcases Machine.withinCases move with ⟨q, inner, same⟩ | ⟨v, r, inner, same⟩ | ⟨inner, same⟩
    · cases same
      obtain ⟨u, calling, -⟩ := Machine.onCases inner
      exact Calling.movesBegins calling q rfl
    · cases r <;> cases same <;> trivial
    · cases same
  | clearing cause call =>
    rcases Machine.withinCases move with ⟨q, inner, same⟩ | ⟨v, r, inner, same⟩ | ⟨inner, same⟩
    · cases same
      obtain ⟨u, calling, -⟩ := Machine.onCases inner
      exact Calling.movesBegins calling q rfl
    · cases r <;> cases same
    · cases same
  | enrolling seat => cases (memFinish.mp move).2

end Creation

namespace Disposal
variable {s s' : Site W V} {d : Disposal W} {n : Next (Disposal W) (Except WorkerError Unit)}

def Begins (P : Nat → W → Prop) : Disposal W → Prop
  | .disposing (some call) _ _ => call.Begins P
  | _ => True

theorem movesTurn (begins : d.Begins P) (move : (s', n) ∈ Disposal.moves d s) :
    Crew.Turn P d.tokens (n.elim tokens (fun _ => []) []) s.crew s'.crew := by
  cases d with
  | asking =>
    simp only [Disposal.moves] at move
    split at move
    · obtain ⟨rfl, rfl⟩ := memFinish.mp move
      exact .none ⟨rfl, rfl, rfl⟩ (List.Subset.refl _)
    · obtain ⟨rfl, rfl⟩ := memStep.mp move
      exact .none ⟨rfl, rfl, rfl⟩ (List.Subset.refl _)
  | waiting ticket wanted =>
    simp only [Disposal.moves] at move
    split at move
    · obtain ⟨rfl, rfl⟩ := memStep.mp move
      exact .none ⟨rfl, rfl, rfl⟩ (List.Subset.refl _)
    · split at move
      · obtain ⟨rfl, rfl⟩ := memStep.mp move
        exact .none ⟨rfl, rfl, rfl⟩ (List.Subset.refl _)
      · cases move
  | disposing call rest first =>
    cases call with
    | none =>
      cases rest with
      | nil =>
        obtain ⟨rfl, rfl⟩ := memFinish.mp move
        exact .none ⟨rfl, rfl, rfl⟩ (List.Subset.refl _)
      | cons seat rest =>
        obtain ⟨rfl, rfl⟩ := memStep.mp move
        exact .none ⟨rfl, rfl, rfl⟩ (List.Subset.refl _)
    | some call =>
      refine Machine.withinTurn (·.crew) Calling.tokens Disposal.tokens move (fun _ _ inner => callMovesTurn begins inner)
        (fun _ => rfl) fun r u => ?_
      cases r <;> exact ⟨⟨rfl, rfl, rfl⟩, rfl⟩
  | _ =>
    obtain ⟨rfl, rfl⟩ := memStep.mp move
    exact .none ⟨rfl, rfl, rfl⟩ (List.Subset.refl _)

theorem movesBegins (move : (s', n) ∈ Disposal.moves d s) :
    ∀ next, n = .go next → next.Begins P := by
  rintro next rfl
  cases d with
  | asking =>
    simp only [Disposal.moves] at move
    split at move
    · cases (memFinish.mp move).2
    · cases (memStep.mp move).2
      trivial
  | waiting ticket wanted =>
    simp only [Disposal.moves] at move
    split at move
    · cases (memStep.mp move).2
      trivial
    · split at move
      · cases (memStep.mp move).2
        trivial
      · cases move
  | disposing call rest first =>
    cases call with
    | none =>
      cases rest with
      | nil => cases (memFinish.mp move).2
      | cons seat rest =>
        cases (memStep.mp move).2
        trivial
    | some call =>
      rcases Machine.withinCases move with ⟨q, inner, same⟩ | ⟨v, r, inner, same⟩ | ⟨inner, same⟩
      · cases same
        obtain ⟨u, calling, -⟩ := Machine.onCases inner
        exact Calling.movesBegins calling q rfl
      · cases r <;> cases same <;> trivial
      · cases same
  | _ =>
    cases (memStep.mp move).2
    trivial

end Disposal

section Seats
variable {c u : Crew W V}

theorem Crew.abandonAllSeats (c : Crew W V) (tokens : List Nat) :
    (tokens.foldl Crew.abandon c).seats = c.seats := by
  induction tokens generalizing c with
  | nil => rfl
  | cons token rest ih => exact ih (c.abandon token)

theorem Crew.replaceSize (c : Crew W V) (seat : Nat) :
    (c.replace seat).1.seats.size = c.seats.size :=
  Array.size_modify

theorem Calling.movesSeats {call : Calling W} {n : Next (Calling W) (Except WorkerError V)}
    (move : (u, n) ∈ Calling.moves call c) : u.seats = c.seats := by
  cases call with
  | ready worker call =>
    obtain ⟨rfl, rfl⟩ := memStep.mp move
    rfl
  | waiting token =>
    simp only [Calling.moves] at move
    split at move
    · cases move
    · obtain ⟨rfl, -⟩ := memFinish.mp move
      rfl
    · obtain ⟨rfl, -⟩ := memFinish.mp move
      rfl
    · cases List.mem_singleton.mp move
      rfl

theorem Calling.withinSize {φ ρ : Type} {call : Calling W} {embed : Calling W → φ}
    {after : Except WorkerError V → Crew W V → Crew W V × Next φ ρ} {n : Next φ ρ}
    (move : (u, n) ∈ Calling.moves.within embed after call c)
    (kept : ∀ r (v : Crew W V), (after r v).1.seats.size = v.seats.size) :
    u.seats.size = c.seats.size :=
  Machine.withinState (fun v => v.seats.size = c.seats.size) move
    (fun _ _ inner => congrArg Array.size (Calling.movesSeats inner))
    fun r v same => (kept r v).trans same

theorem Renewal.movesSize {label : String} {seat : Nat} {r : Renewal W}
    {n : Next (Renewal W) (Except WorkerError Unit)}
    (move : (u, n) ∈ Renewal.moves label seat r c) : u.seats.size = c.seats.size := by
  cases r with
  | replacing =>
    obtain ⟨rfl, rfl⟩ := memStep.mp move
    exact c.replaceSize seat
  | disposing fresh call =>
    refine Calling.withinSize move fun r v => ?_
    cases r <;> rfl
  | starting call => exact Calling.withinSize move fun _ _ => rfl

theorem Recovery.movesSize {job : Job W} {r : Recovery W}
    {n : Next (Recovery W) (Except WorkerError V)}
    (move : (u, n) ∈ Recovery.moves job r c) : u.seats.size = c.seats.size := by
  cases r with
  | first call =>
    refine Calling.withinSize move fun r v => ?_
    cases r with
    | ok x => rfl
    | error e =>
      simp only
      split <;> rfl
  | renewing r =>
    refine Machine.withinState (fun v => v.seats.size = c.seats.size) move
      (fun _ _ inner => Renewal.movesSize inner) fun r v same => ?_
    cases r with
    | ok x =>
      simp only
      split <;> exact same
    | error e => exact same
  | restoring fresh call =>
    refine Calling.withinSize move fun r v => ?_
    cases r <;> rfl
  | second call => exact Calling.withinSize move fun _ _ => rfl

theorem Handling.movesSize {staffing : Staffing} {seat : Nat} {work : W} {h : Handling W}
    {n : Next (Handling W) (Except WorkerError V)}
    (move : (u, n) ∈ Handling.moves staffing seat work h c) : u.seats.size = c.seats.size := by
  cases h with
  | starting =>
    simp only [Handling.moves] at move
    split at move <;> obtain ⟨rfl, -⟩ := memStep.mp move <;> rfl
  | direct call => exact Calling.withinSize move fun _ _ => rfl
  | recovering restore r =>
    exact Machine.withinState (fun v => v.seats.size = c.seats.size) move
      (fun _ _ inner => Recovery.movesSize inner) fun _ _ same => same

theorem checkSize {staffing : Staffing} {mutants : List Mutant} {seat : Nat}
    {h : Handling CheckWork} {c u : CheckCrew}
    {n : Next (Handling CheckWork) (Except WorkerError Verdicts)}
    (move : (u, n) ∈ checkMoves staffing mutants seat h c) : u.seats.size = c.seats.size :=
  Machine.withinState (fun v => v.seats.size = c.seats.size) move
    (fun _ _ inner => Handling.movesSize inner) fun _ _ same => same

theorem Running.movesSize {plan : RunPlan} {seat : Nat} {r : Running} {c u : RunCrew}
    {n : Next Running (Except WorkerError TestRun)}
    (move : (u, n) ∈ Running.moves plan seat r c) : u.seats.size = c.seats.size := by
  cases r with
  | handling h =>
    refine Machine.withinState (fun v => v.seats.size = c.seats.size) move
      (fun _ _ inner => Handling.movesSize inner) fun r v same => ?_
    cases r with
    | ok run => cases run <;> exact same
    | error e => exact same
  | replacing r =>
    exact Machine.withinState (fun v => v.seats.size = c.seats.size) move
      (fun _ _ inner => Renewal.movesSize inner) fun _ _ same => same

end Seats

end MutationPipeline
