import MutationPipeline.Proofs.Worker.Orders
import MutationPipeline.Proofs.Worker.Sessions

/-! A request that is dealt with has only so many steps ahead of it, whatever the workers answer.
Each move and each answer is one of them, and as long as there is no move a call is in flight. -/
namespace MutationPipeline
variable {W V φ φ' ρ ρ' : Type} {c u : Crew W V}

def Next.Nears (ahead : φ → Nat) (before : Nat) (n : Next φ ρ) (u : Crew W V) : Prop :=
  n.Leads (fun q u => ahead q + u.orders.length < before) (fun _ u => u.orders.length < before) u

theorem Machine.withinNears {m : Machine (Crew W V) φ ρ} {p : φ} {embed : φ → φ'}
    {after : ρ → Crew W V → Crew W V × Next φ' ρ'} {n : Next φ' ρ'} {ahead : φ → Nat}
    {ahead' : φ' → Nat} {later : Nat} (move : (u, n) ∈ m.within embed after p c)
    (inner : ∀ u o, (u, o) ∈ m p c → o.Nears ahead (ahead p + c.orders.length) u)
    (shape : ∀ q, ahead' (embed q) = ahead q + later)
    (results : ∀ r u, (after r u).2.Leads (fun q v => ahead' q ≤ later ∧ v.orders = u.orders)
      (fun _ v => v.orders = u.orders) (after r u).1) :
    n.Nears ahead' (ahead' (embed p) + c.orders.length) u := by
  rw [shape]
  rcases withinCases move with ⟨q, moved, rfl⟩ | ⟨v, r, moved, same⟩ | ⟨moved, rfl⟩
  · have nearer : ahead q + u.orders.length < ahead p + c.orders.length := inner _ _ moved
    show ahead' (embed q) + u.orders.length < _
    rw [shape]
    omega
  · have nearer : v.orders.length < ahead p + c.orders.length := inner _ _ moved
    have goes := results r v
    rw [← same] at goes
    cases n with
    | go q =>
      obtain ⟨few, orders⟩ := goes
      show ahead' q + u.orders.length < _
      rw [orders]
      omega
    | done r' =>
      have orders : u.orders = v.orders := goes
      show u.orders.length < _
      rw [orders]
      omega
    | panicked =>
      have orders : u.orders = v.orders := goes
      show u.orders.length < _
      rw [orders]
      omega
  · have nearer : u.orders.length < ahead p + c.orders.length := inner _ _ moved
    show u.orders.length < _
    omega

theorem Machine.withinNearsLast {m : Machine (Crew W V) φ ρ} {p : φ} {embed : φ → φ'} {f : ρ → ρ'}
    {n : Next φ' ρ'} {ahead : φ → Nat} {ahead' : φ' → Nat}
    (move : (u, n) ∈ m.within embed (fun r c => (c, .done (f r))) p c)
    (inner : ∀ u o, (u, o) ∈ m p c → o.Nears ahead (ahead p + c.orders.length) u)
    (shape : ∀ q, ahead' (embed q) = ahead q) : n.Nears ahead' (ahead' (embed p) + c.orders.length) u :=
  withinNears move inner (fun q => (shape q).trans (Nat.add_zero _).symm) fun _ _ => rfl

namespace Calling

def ahead : Calling W → Nat
  | .ready .. => 3
  | .waiting _ => 1

theorem nears {call : Calling W} {n : Next (Calling W) (Except WorkerError V)}
    (move : (u, n) ∈ Calling.moves call c) : n.Nears ahead (call.ahead + c.orders.length) u := by
  cases call with
  | ready worker call =>
    obtain ⟨rfl, rfl⟩ := memStep.mp move
    show 1 + (c.orders ++ [_]).length < 3 + c.orders.length
    rw [List.length_append, List.length_singleton]
    omega
  | waiting token =>
    have fewer : (c.abandon token).orders.length < 1 + c.orders.length :=
      Nat.lt_one_add_iff.mpr (List.length_filter_le ..)
    simp only [Calling.moves] at move
    split at move
    · cases move
    · obtain ⟨rfl, rfl⟩ := memFinish.mp move
      exact fewer
    · obtain ⟨rfl, rfl⟩ := memFinish.mp move
      exact fewer
    · cases List.mem_singleton.mp move
      exact fewer

theorem stalls {place worker : Nat} {r : Roll W} {order : Call W} {log now : List (Exchange W V)}
    {call : Calling W} (stands : call.Stands place r worker order log now c)
    (none : Calling.moves call c = []) : c.orders ≠ [] := by
  cases call with
  | ready => cases none
  | waiting token =>
    rcases stands with ⟨-, shows⟩ | ⟨y, -, shows⟩
    · rw [shows.orders]
      exact List.cons_ne_nil _ _
    · simp only [Calling.moves, shows.answers, List.lookup_cons_self] at none
      cases y <;> cases none

end Calling

namespace Renewal

def ahead : Renewal W → Nat
  | .replacing => 7
  | .disposing _ c => c.ahead + 3
  | .starting c => c.ahead

theorem nears {label : String} {place : Nat} {p : Renewal W}
    {n : Next (Renewal W) (Except WorkerError Unit)} (move : (u, n) ∈ Renewal.moves label place p c) :
    n.Nears ahead (p.ahead + c.orders.length) u := by
  cases p with
  | replacing =>
    obtain ⟨rfl, rfl⟩ := memStep.mp move
    exact Nat.add_lt_add_right (Nat.lt_succ_self 6) _
  | disposing fresh call =>
    refine Machine.withinNears move (fun _ _ => Calling.nears) (fun _ => rfl) fun r u => ?_
    cases r <;> exact ⟨Nat.le_refl 3, rfl⟩
  | starting call =>
    exact Machine.withinNearsLast move (fun _ _ => Calling.nears) fun _ => rfl

theorem stalls {label : String} {place : Nat} {r : Roll W} {log now : List (Exchange W V)}
    {p : Renewal W} (stands : p.Stands label place r log now c)
    (none : Renewal.moves label place p c = []) : c.orders ≠ [] := by
  cases p with
  | replacing => cases none
  | disposing fresh call => exact Calling.stalls stands.2 (Machine.withinNone none)
  | starting call =>
    obtain ⟨y, -, stands⟩ := stands
    exact Calling.stalls stands (Machine.withinNone none)

end Renewal

namespace Recovery
variable {job : Job W} {p : Recovery W}

def ahead : Recovery W → Nat
  | .first c => c.ahead + 13
  | .renewing r => r.ahead + 6
  | .restoring _ c => c.ahead + 3
  | .second c => c.ahead

theorem nears {n : Next (Recovery W) (Except WorkerError V)} (move : (u, n) ∈ Recovery.moves job p c) :
    n.Nears ahead (p.ahead + c.orders.length) u := by
  cases p with
  | first call =>
    refine Machine.withinNears move (fun _ _ => Calling.nears) (fun _ => rfl) fun r u => ?_
    cases r with
    | ok v => rfl
    | error e =>
      simp only
      split
      · exact ⟨Nat.le_refl 13, rfl⟩
      · rfl
  | renewing r =>
    refine Machine.withinNears move (fun _ _ => Renewal.nears) (fun _ => rfl) fun r u => ?_
    cases r with
    | ok v =>
      simp only
      split
      · exact ⟨Nat.le_refl 6, rfl⟩
      · exact ⟨Nat.le_add_left 3 3, rfl⟩
    | error e => rfl
  | restoring fresh call =>
    refine Machine.withinNears move (fun _ _ => Calling.nears) (fun _ => rfl) fun r u => ?_
    cases r with
    | ok v => exact ⟨Nat.le_refl 3, rfl⟩
    | error e => rfl
  | second call =>
    exact Machine.withinNearsLast move (fun _ _ => Calling.nears) fun _ => rfl

theorem stalls {r : Roll W} {log now : List (Exchange W V)} (stands : p.Stands job r log now c)
    (none : Recovery.moves job p c = []) : c.orders ≠ [] := by
  cases p with
  | first call => exact Calling.stalls stands (Machine.withinNone none)
  | renewing p =>
    obtain ⟨e, n, -, stands⟩ := stands
    exact Renewal.stalls stands (Machine.withinNone none)
  | restoring fresh call =>
    obtain ⟨w, own, r', -, -, -, stands⟩ := stands
    exact Calling.stalls stands (Machine.withinNone none)
  | second call =>
    obtain ⟨own, r', -, stands⟩ := stands
    exact Calling.stalls stands (Machine.withinNone none)

end Recovery

namespace Handling
variable {staffing : Staffing} {place : Nat} {work : W} {p : Handling W}

def ahead : Handling W → Nat
  | .starting => 17
  | .direct c => c.ahead
  | .recovering _ r => r.ahead

theorem nears {n : Next (Handling W) (Except WorkerError V)}
    (move : (u, n) ∈ Handling.moves staffing place work p c) :
    n.Nears ahead (p.ahead + c.orders.length) u := by
  cases p with
  | starting =>
    simp only [Handling.moves] at move
    split at move
    · obtain ⟨rfl, rfl⟩ := memStep.mp move
      exact Nat.add_lt_add_right (Nat.lt_succ_self 16) _
    · obtain ⟨rfl, rfl⟩ := memStep.mp move
      exact Nat.add_lt_add_right (Nat.lt_add_left 13 (Nat.lt_succ_self 3)) _
  | direct call =>
    exact Machine.withinNearsLast move (fun _ _ => Calling.nears) fun _ => rfl
  | recovering restore p =>
    exact Machine.withinNearsLast move (fun _ _ => Recovery.nears) fun _ => rfl

theorem stalls {r : Roll W} {log now : List (Exchange W V)}
    (stands : p.Stands staffing place work r log now c)
    (none : Handling.moves staffing place work p c = []) : c.orders ≠ [] := by
  cases p with
  | starting =>
    simp only [Handling.moves] at none
    split at none <;> cases none
  | direct call => exact Calling.stalls stands.2 (Machine.withinNone none)
  | recovering restore p =>
    obtain ⟨-, rfl, stands⟩ := stands
    exact Recovery.stalls stands (Machine.withinNone none)

end Handling

namespace Session
variable {k : Keeper W V φ ρ} {s t : Session W V φ ρ}

inductive Comes (k : Keeper W V φ ρ) (goal : Session W V φ ρ → Prop) : Nat → Session W V φ ρ → Prop where
  | here {n s} (here : goal s) : Comes k goal n s
  | later {n s} (more : ∃ t, Step k s t) (all : ∀ t, Step k s t → Comes k goal n t) :
      Comes k goal (n + 1) s

def Ends (before : List (Deed W V ρ)) (request : Call W) (t : Session W V φ ρ) : Prop :=
  t.attempt = none ∧ ∃ d, t.deeds = before ++ [d] ∧ d.request = request

end Session

namespace Charter
variable {k : Keeper W V φ ρ} {h : Charter k} {ahead : φ → Nat} {s t : Session W V φ ρ}

structure Prompt (h : Charter k) (ahead : φ → Nat) : Prop where
  nears : ∀ {w p c u n}, (u, n) ∈ k.moves w p c → n.Nears ahead (ahead p + c.orders.length) u
  stalls : ∀ {w r log p now c}, h.Stands w r log p now c → k.moves w p c = [] → c.orders ≠ []

def treatmentAhead (ahead : φ → Nat) : Treatment W φ → Nat
  | .calling c => c.ahead
  | .working _ p => ahead p

theorem dealNears (prompt : h.Prompt ahead) {p : Treatment W φ}
    {n : Next (Treatment W φ) (Except WorkerError (Option ρ))} (move : (u, n) ∈ k.deal p c) :
    n.Nears (treatmentAhead ahead) (treatmentAhead ahead p + c.orders.length) u := by
  cases p with
  | calling call =>
    exact Machine.withinNearsLast move (fun _ _ => Calling.nears) fun _ => rfl
  | working w p =>
    exact Machine.withinNearsLast move (fun _ _ => prompt.nears) fun _ => rfl

theorem dealStalls (prompt : h.Prompt ahead) {request : Call W} {r : Roll W}
    {log now : List (Exchange W V)} {p : Treatment W φ}
    (stands : h.TreatmentStands request r log p now c) (none : k.deal p c = []) : c.orders ≠ [] := by
  cases p with
  | calling call => exact Calling.stalls stands.2 (Machine.withinNone none)
  | working w p => exact prompt.stalls stands.2 (Machine.withinNone none)

theorem Sound.more (prompt : h.Prompt ahead) (sound : h.Sound s) {a : Attempt W V φ}
    (busy : s.attempt = some a) : ∃ t, Session.Step k s t := by
  cases sound with
  | rest past free =>
    rw [free] at busy
    cases busy
  | @work b r past same stands =>
    cases busy.symm.trans same
    cases moves : k.deal a.phase s.crew with
    | cons x rest => exact ⟨_, .move (c := x.1) (n := x.2) busy (moves ▸ List.mem_cons_self)⟩
    | nil =>
      -- Without a move it waits for a call, and any answer to this is a step.
      obtain ⟨o, waits⟩ := List.exists_mem_of_ne_nil _ (dealStalls prompt stands moves)
      exact ⟨_, .answer o .panicked busy waits⟩

def left (ahead : φ → Nat) (s : Session W V φ ρ) : Nat :=
  match s.attempt with
  | none => 0
  | some a => treatmentAhead ahead a.phase + s.crew.orders.length

theorem stepNears (prompt : h.Prompt ahead) {a : Attempt W V φ} (busy : s.attempt = some a)
    (step : Session.Step k s t) : left ahead t < left ahead s ∧
      (Session.Ends s.deeds a.request t ∨
        ∃ b, t.attempt = some b ∧ b.request = a.request ∧ t.deeds = s.deeds) := by
  have here : left ahead s = treatmentAhead ahead a.phase + s.crew.orders.length := by
    rw [left, busy]
  rw [here]
  cases step with
  | ask request free =>
    rw [free] at busy
    cases busy
  | @move b c n same move =>
    cases busy.symm.trans same
    have nears := dealNears prompt move
    cases n with
    | go phase => exact ⟨nears, .inr ⟨_, rfl, rfl, rfl⟩⟩
    | done reply => exact ⟨Nat.zero_lt_of_lt nears, .inl ⟨rfl, _, rfl, rfl⟩⟩
    | panicked => exact ⟨Nat.zero_lt_of_lt nears, .inl ⟨rfl, _, rfl, rfl⟩⟩
  | @answer b o outcome same waits =>
    cases busy.symm.trans same
    exact ⟨Nat.add_lt_add_left (Crew.answerFewer waits outcome) _, .inr ⟨_, rfl, rfl, rfl⟩⟩

theorem ends (prompt : h.Prompt ahead) (reached : Session.Reached k s) {a : Attempt W V φ}
    (busy : s.attempt = some a) {n : Nat} (few : left ahead s ≤ n) :
    Session.Comes k (Session.Ends s.deeds a.request) n s := by
  have more := (h.sound reached).more prompt busy
  -- Each step leaves fewer steps than there were, so the bound lasts until there is no next step.
  induction n generalizing s a with
  | zero =>
    obtain ⟨t, step⟩ := more
    exact absurd (stepNears prompt busy step).1 (Nat.not_lt_of_le (Nat.le_trans few (Nat.zero_le _)))
  | succ n ih =>
    refine .later more fun t step => ?_
    have after := reached.step step
    obtain ⟨nearer, done | ⟨b, busy, request, deeds⟩⟩ := stepNears prompt busy step
    · exact .here done
    · rw [← request, ← deeds]
      exact ih after busy (Nat.le_of_lt_succ (Nat.lt_of_lt_of_le nearer few))
        ((h.sound after).more prompt busy)

end Charter

end MutationPipeline
