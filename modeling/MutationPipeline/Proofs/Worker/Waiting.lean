import Mathlib.Data.List.Perm.Subperm
import MutationPipeline.Proofs.Worker.Orders
import MutationPipeline.Runner.Work

/-! Who waits for which calls. Each call in flight is waited for, so there are at most as many; and
each call that is waited for is in flight, or its answer is there. -/
namespace MutationPipeline
variable {W V : Type}

namespace Crew
variable {c u v : Crew W V} {old new rest tokens others : List Nat}

def Awaited (tokens : List Nat) (c : Crew W V) : Prop := (c.orders.map (·.token)).Subperm tokens

structure Live (due late : List Nat) (c : Crew W V) : Prop where
  awaited : c.Awaited (due ++ late)
  single : (due ++ late).Nodup
  begun : ∀ t ∈ due ++ late, t < c.tokens
  due : ∀ t ∈ due, (∃ x ∈ c.orders, x.token = t) ∨ ∃ a ∈ c.answers, a.1 = t

/-- A step of someone who waits for the calls `old` before and for the calls `new` after it. Others
need not care for calls of this one, and it leaves their calls alone. -/
structure Heeds (old new : List Nat) (c u : Crew W V) : Prop where
  later : c.tokens ≤ u.tokens
  live : ∀ others late, c.Live (old ++ others) late → u.Live (new ++ others) late

def Leaves (old : List Nat) (c u : Crew W V) : Prop :=
  ∀ others late, c.Live (old ++ others) late → u.Live others (old ++ late)

def Follows {φ ρ : Type} (of : φ → List Nat) (old : List Nat) (n : Next φ ρ) (c u : Crew W V) : Prop :=
  n.elim (fun q => Heeds old (of q) c u) (fun _ => Leaves old c u) (Leaves old c u)

theorem Awaited.count (awaited : c.Awaited tokens) : c.orders.length ≤ tokens.length := by
  simpa using awaited.length_le

theorem Awaited.perm (awaited : c.Awaited tokens) (same : tokens.Perm others) : c.Awaited others :=
  awaited.trans same.subperm

theorem Live.perm {due late due' late' : List Nat} (live : c.Live due late) (same : due.Perm due')
    (later : late.Perm late') : c.Live due' late' where
  awaited := live.awaited.perm (same.append later)
  single := (same.append later).nodup_iff.mp live.single
  begun := fun t member => live.begun t ((same.append later).mem_iff.mpr member)
  due := fun t member => live.due t (same.mem_iff.mpr member)

theorem Heeds.same (quiet : c.Quiet u) : Heeds old old c u where
  later := Nat.le_of_eq quiet.tokens.symm
  live := fun others late live =>
    ⟨by rw [Awaited, quiet.orders]; exact live.awaited, live.single, quiet.tokens ▸ live.begun,
      quiet.orders ▸ quiet.answers ▸ live.due⟩

theorem Heeds.quiet (heeds : Heeds old new c u) (quiet : u.Quiet v) : Heeds old new c v where
  later := quiet.tokens ▸ heeds.later
  live := fun others late live => (Heeds.same quiet).live others late (heeds.live others late live)

theorem Heeds.frame (heeds : Heeds old new c u) (rest : List Nat) :
    Heeds (old ++ rest) (new ++ rest) c u where
  later := heeds.later
  live := by
    intro others late live
    rw [List.append_assoc] at live ⊢
    exact heeds.live (rest ++ others) late live

theorem Heeds.behind {front late : List Nat} (heeds : Heeds old new c u)
    (live : c.Live (front ++ old) late) : u.Live (front ++ new) late :=
  (heeds.live front late (live.perm List.perm_append_comm (.refl _))).perm List.perm_append_comm
    (.refl _)

theorem Heeds.perm {old' new' : List Nat} (heeds : Heeds old new c u) (before : old'.Perm old)
    (after : new.Perm new') : Heeds old' new' c u where
  later := heeds.later
  live := fun others late live =>
    (heeds.live others late (live.perm (before.append_right others) (.refl _))).perm
      (after.append_right others) (.refl _)

theorem Heeds.leaves (heeds : Heeds old new c u) (fewer : new.Subperm old) : Leaves old c u := by
  intro others late live
  have after := heeds.live others late live
  have moved : (old ++ others ++ late).Perm (others ++ (old ++ late)) := by
    rw [List.append_assoc]
    exact List.perm_append_comm_assoc old others late
  refine ⟨?_, moved.nodup_iff.mp live.single, fun t member => ?_, fun t member => ?_⟩
  · refine (after.awaited.trans ?_).trans moved.subperm
    rw [List.append_assoc, List.append_assoc]
    exact (List.subperm_append_right _).mpr fewer
  · exact Nat.lt_of_lt_of_le (live.begun t (moved.mem_iff.mpr member)) heeds.later
  · exact after.due t (List.mem_append_right _ member)

theorem Heeds.ends {φ ρ : Type} {of : φ → List Nat} {n : Next φ ρ}
    (heeds : Heeds old (n.elim of (fun _ => []) []) c u) :
    n.elim (fun q => Heeds old (of q) c u) (fun _ => Heeds old [] c u) (Leaves old c u) := by
  cases n with
  | go q => exact heeds
  | done r => exact heeds
  | panicked => exact heeds.leaves List.nil_subperm

theorem Heeds.begun (c : Crew W V) (worker : Nat) (call : Call W) :
    Heeds [] [c.tokens] c (c.start worker call).1 where
  later := Nat.le_succ _
  live := by
    intro others late live
    refine ⟨?_, List.nodup_cons.mpr ⟨fun used => Nat.lt_irrefl _ (live.begun _ used), live.single⟩,
      fun t member => ?_, fun t member => ?_⟩
    · have orders : (c.start worker call).1.orders.map (·.token) =
          c.orders.map (·.token) ++ [c.tokens] := List.map_append
      rw [Awaited, orders, List.append_assoc]
      exact (List.perm_append_comm.subperm).trans ((List.subperm_append_left _).mpr live.awaited)
    · rcases List.mem_cons.mp member with rfl | old
      · exact Nat.lt_succ_self _
      · exact Nat.lt_succ_of_lt (live.begun t old)
    · rcases List.mem_cons.mp member with rfl | old
      · exact .inl ⟨_, List.mem_append_right _ List.mem_cons_self, rfl⟩
      · exact (live.due t old).imp_left fun ⟨x, waits, same⟩ =>
          ⟨x, List.mem_append_left _ waits, same⟩

theorem abandonTokens (c : Crew W V) (token : Nat) :
    (c.abandon token).orders.map (·.token) = (c.orders.map (·.token)).filter (· ≠ token) := by
  rw [abandon, List.filter_map]
  rfl

theorem Live.abandon {due late due' late' : List Nat} {token : Nat} (live : c.Live due late)
    (own : (due ++ late).Perm (token :: (due' ++ late'))) (fewer : due' ⊆ due) :
    (c.abandon token).Live due' late' := by
  obtain ⟨absent, single⟩ := List.nodup_cons.mp (own.nodup_iff.mp live.single)
  refine ⟨?_, single, fun t member => live.begun t (own.mem_iff.mpr (List.mem_cons_of_mem _ member)),
    fun t member => ?_⟩
  · rw [Awaited, abandonTokens]
    refine ((live.awaited.perm own).filter _).trans ?_
    rw [List.filter_cons_of_neg (by simp)]
    exact List.filter_sublist.subperm
  · have other : t ≠ token := fun same => absent (same ▸ List.mem_append_left _ member)
    refine (live.due t (fewer member)).imp (fun ⟨x, waits, same⟩ => ?_) fun ⟨a, answered, same⟩ => ?_
    · exact ⟨x, List.mem_filter.mpr ⟨waits, by simpa [same] using other⟩, same⟩
    · exact ⟨a, List.mem_filter.mpr ⟨answered, by simpa [same] using other⟩, same⟩

theorem Heeds.taken (c : Crew W V) (token : Nat) : Heeds [token] [] c (c.abandon token) where
  later := Nat.le_refl _
  live := fun _ _ live => live.abandon (.refl _) (List.subset_cons_self _ _)

theorem Live.abandoned {due late : List Nat} (live : c.Live due (tokens ++ late)) :
    (tokens.foldl Crew.abandon c).Live due late := by
  induction tokens generalizing c with
  | nil => exact live
  | cons token rest ih => exact ih (live.abandon List.perm_middle (List.Subset.refl _))

theorem Live.answer {due late : List Nat} (live : c.Live due late) (token : Nat)
    (outcome : Outcome V) : (c.answer token outcome).Live due late where
  awaited := (List.filter_sublist.map _).subperm.trans live.awaited
  single := live.single
  begun := live.begun
  due := by
    intro t member
    rcases live.due t member with ⟨x, waits, same⟩ | ⟨a, answered, same⟩
    · by_cases own : t = token
      · exact .inr ⟨_, List.mem_append_right _ List.mem_cons_self, own.symm⟩
      · exact .inl ⟨x, List.mem_filter.mpr ⟨waits, by simpa [same] using own⟩, same⟩
    · exact .inr ⟨a, List.mem_append_left _ answered, same⟩

end Crew

theorem Machine.withinHeeds {σ φ φ' ρ ρ' : Type} {m : Machine σ φ ρ} {p : φ} {s s' : σ}
    {embed : φ → φ'} {after : ρ → σ → σ × Next φ' ρ'} {n : Next φ' ρ'} (look : σ → Crew W V)
    (tokens : φ → List Nat) (tokens' : φ' → List Nat)
    (move : (s', n) ∈ m.within embed after p s)
    (inner : ∀ u o, (u, o) ∈ m p s →
      Crew.Heeds (tokens p) (o.elim tokens (fun _ => []) []) (look s) (look u))
    (same : ∀ q, tokens' (embed q) = tokens q)
    (quiet : ∀ r u, (look u).Quiet (look (after r u).1) ∧
      (after r u).2.elim tokens' (fun _ => []) [] = []) :
    Crew.Heeds (tokens p) (n.elim tokens' (fun _ => []) []) (look s) (look s') := by
  rcases Machine.withinCases move with ⟨q, moved, rfl⟩ | ⟨u, r, moved, result⟩ | ⟨moved, rfl⟩
  · rw [Next.elim, same]
    exact inner s' _ moved
  · obtain ⟨still, none⟩ := quiet r u
    rw [← result] at still none
    rw [none]
    exact (inner u _ moved).quiet still
  · exact inner s' _ moved

section Moves
variable {c u : Crew W V}

namespace Calling
variable {call : Calling W} {n : Next (Calling W) (Except WorkerError V)}

theorem movesHeeds (move : (u, n) ∈ Calling.moves call c) :
    Crew.Heeds call.tokens (n.elim tokens (fun _ => []) []) c u := by
  cases call with
  | ready worker call =>
    obtain ⟨⟨rfl, rfl, rfl⟩, rfl⟩ := memStep.mp move
    exact .begun c worker call
  | waiting token =>
    simp only [Calling.moves] at move
    split at move
    · cases move
    · obtain ⟨⟨rfl, rfl, rfl⟩, rfl⟩ := memFinish.mp move
      exact .taken c token
    · obtain ⟨⟨rfl, rfl, rfl⟩, rfl⟩ := memFinish.mp move
      exact .taken c token
    · cases List.mem_singleton.mp move
      exact .taken c token

theorem tokensFew (call : Calling W) : call.tokens.length ≤ 1 := by
  cases call
  · exact Nat.zero_le _
  · exact Nat.le_refl _

end Calling

namespace Renewal
variable {label : String} {seat : Nat} {r : Renewal W} {n : Next (Renewal W) (Except WorkerError Unit)}

theorem movesHeeds (move : (u, n) ∈ Renewal.moves label seat r c) :
    Crew.Heeds r.tokens (n.elim tokens (fun _ => []) []) c u := by
  cases r with
  | replacing =>
    obtain ⟨⟨rfl, rfl, rfl⟩, rfl⟩ := memStep.mp move
    exact .same ⟨rfl, rfl, rfl⟩
  | disposing fresh call =>
    refine Machine.withinHeeds id Calling.tokens tokens move (fun _ _ => Calling.movesHeeds)
      (fun _ => rfl) fun r u => ?_
    cases r <;> exact ⟨⟨rfl, rfl, rfl⟩, rfl⟩
  | starting call =>
    exact Machine.withinHeeds id Calling.tokens tokens move (fun _ _ => Calling.movesHeeds)
      (fun _ => rfl) fun r u => ⟨⟨rfl, rfl, rfl⟩, rfl⟩

theorem tokensFew (r : Renewal W) : r.tokens.length ≤ 1 := by
  cases r with
  | replacing => exact Nat.zero_le _
  | disposing fresh call => exact call.tokensFew
  | starting call => exact call.tokensFew

end Renewal

namespace Recovery
variable {job : Job W} {r : Recovery W} {n : Next (Recovery W) (Except WorkerError V)}

theorem movesHeeds (move : (u, n) ∈ Recovery.moves job r c) :
    Crew.Heeds r.tokens (n.elim tokens (fun _ => []) []) c u := by
  cases r with
  | first call =>
    refine Machine.withinHeeds id Calling.tokens tokens move (fun _ _ => Calling.movesHeeds)
      (fun _ => rfl) fun r u => ?_
    cases r with
    | ok v => exact ⟨⟨rfl, rfl, rfl⟩, rfl⟩
    | error e =>
      simp only
      split <;> exact ⟨⟨rfl, rfl, rfl⟩, rfl⟩
  | renewing r =>
    refine Machine.withinHeeds id Renewal.tokens tokens move (fun _ _ => Renewal.movesHeeds)
      (fun _ => rfl) fun r u => ?_
    cases r with
    | ok v =>
      simp only
      split <;> exact ⟨⟨rfl, rfl, rfl⟩, rfl⟩
    | error e => exact ⟨⟨rfl, rfl, rfl⟩, rfl⟩
  | restoring fresh call =>
    refine Machine.withinHeeds id Calling.tokens tokens move (fun _ _ => Calling.movesHeeds)
      (fun _ => rfl) fun r u => ?_
    cases r <;> exact ⟨⟨rfl, rfl, rfl⟩, rfl⟩
  | second call =>
    exact Machine.withinHeeds id Calling.tokens tokens move (fun _ _ => Calling.movesHeeds)
      (fun _ => rfl) fun r u => ⟨⟨rfl, rfl, rfl⟩, rfl⟩

theorem tokensFew (r : Recovery W) : r.tokens.length ≤ 1 := by
  cases r with
  | first call => exact call.tokensFew
  | renewing r => exact r.tokensFew
  | restoring fresh call => exact call.tokensFew
  | second call => exact call.tokensFew

end Recovery

namespace Handling
variable {staffing : Staffing} {seat : Nat} {work : W} {h : Handling W}
  {n : Next (Handling W) (Except WorkerError V)}

theorem movesHeeds (move : (u, n) ∈ Handling.moves staffing seat work h c) :
    Crew.Heeds h.tokens (n.elim tokens (fun _ => []) []) c u := by
  cases h with
  | starting =>
    simp only [Handling.moves] at move
    split at move
    all_goals
      obtain ⟨⟨rfl, rfl, rfl⟩, rfl⟩ := memStep.mp move
      exact .same ⟨rfl, rfl, rfl⟩
  | direct call =>
    exact Machine.withinHeeds id Calling.tokens tokens move (fun _ _ => Calling.movesHeeds)
      (fun _ => rfl) fun r u => ⟨⟨rfl, rfl, rfl⟩, rfl⟩
  | recovering restore r =>
    exact Machine.withinHeeds id Recovery.tokens tokens move (fun _ _ => Recovery.movesHeeds)
      (fun _ => rfl) fun r u => ⟨⟨rfl, rfl, rfl⟩, rfl⟩

theorem tokensFew (h : Handling W) : h.tokens.length ≤ 1 := by
  cases h with
  | starting => exact Nat.zero_le _
  | direct call => exact call.tokensFew
  | recovering restore r => exact r.tokensFew

end Handling

end Moves

namespace Running
variable {plan : RunPlan} {seat : Nat} {c u : RunCrew} {g : Running}
  {n : Next Running (Except WorkerError TestRun)}

theorem movesHeeds (move : (u, n) ∈ Running.moves plan seat g c) :
    Crew.Heeds g.tokens (n.elim tokens (fun _ => []) []) c u := by
  cases g with
  | handling h =>
    refine Machine.withinHeeds id Handling.tokens tokens move (fun _ _ => Handling.movesHeeds)
      (fun _ => rfl) fun r u => ?_
    cases r with
    | ok v => cases v <;> exact ⟨⟨rfl, rfl, rfl⟩, rfl⟩
    | error e => exact ⟨⟨rfl, rfl, rfl⟩, rfl⟩
  | replacing r =>
    exact Machine.withinHeeds id Renewal.tokens tokens move (fun _ _ => Renewal.movesHeeds)
      (fun _ => rfl) fun r u => ⟨⟨rfl, rfl, rfl⟩, rfl⟩

theorem tokensFew (g : Running) : g.tokens.length ≤ 1 := by
  cases g with
  | handling h => exact h.tokensFew
  | replacing r => exact r.tokensFew

end Running

end MutationPipeline
