import MutationPipeline.Pool.Journal
import MutationPipeline.Proofs.Pool.Disposing
import MutationPipeline.Proofs.Pool.Founding

/-! A pool that was closed. It stays closed whoever comes to it, and it serves nobody: who asks for a
worker, or waits for one, is refused, and the pool is neither filled up nor raised. -/
namespace MutationPipeline
variable {W V σ α φ ρ : Type}

namespace Disposal
variable {s s' : Site W V} {d : Disposal W} {n : Next (Disposal W) (Except WorkerError Unit)}

def HasClosed : Disposal W → Prop
  | .freeing _ | .clearing | .disposing .. => True
  | _ => False

theorem movesClosed (move : (s', n) ∈ Disposal.moves d s) :
    d.HasClosed ∨ s'.pool.permits.closed = true ∨ ∃ e, n = .go e ∧ ¬e.HasClosed := by
  cases d with
  | asking =>
    simp only [Disposal.moves] at move
    split at move
    · next disposed =>
      obtain ⟨rfl, -⟩ := memFinish.mp move
      exact .inr (.inl disposed)
    · obtain ⟨-, rfl⟩ := memStep.mp move
      exact .inr (.inr ⟨_, rfl, id⟩)
  | waiting ticket wanted =>
    simp only [Disposal.moves] at move
    split at move
    · next disposed =>
      obtain ⟨rfl, -⟩ := memStep.mp move
      exact .inr (.inl disposed)
    · split at move
      · obtain ⟨-, rfl⟩ := memStep.mp move
        exact .inr (.inr ⟨_, rfl, id⟩)
      · cases move
  | closing ticket =>
    obtain ⟨rfl, -⟩ := memStep.mp move
    exact .inr (.inl rfl)
  | _ => exact .inl trivial

end Disposal

namespace Visitor
variable {site : Part σ (Site W V)} {t t' : σ} {v w : Visitor W V σ α φ ρ}
  {n : Next (Visitor W V σ α φ ρ) Empty}

def Proper (site : Part σ (Site W V)) : Visitor W V σ α φ ρ → Prop
  | .scheduling plan _ => plan.Proper site
  | _ => True

theorem Serves.proper (serves : v.Serves site) : v.Proper site := by
  cases v with
  | scheduling plan f => exact serves
  | _ => trivial

theorem movesProper (proper : v.Proper site) (move : (t', .go w) ∈ v.moves site t) :
    w.Proper site := by
  have served (serves : v.Serves site) : w.Proper site := (movesServes serves move).proper
  cases v with
  | scheduling plan f => exact served proper
  | filling f =>
    rcases Machine.withinCases move with ⟨g, -, same⟩ | ⟨u, r, -, same⟩ | ⟨-, same⟩ <;> cases same <;>
      trivial
  | disposing d =>
    rcases Machine.withinCases move with ⟨g, -, same⟩ | ⟨u, r, -, same⟩ | ⟨-, same⟩ <;> cases same <;>
      trivial
  | disposed r => cases move
  | _ => exact served trivial

theorem movesOnward (lawful : site.Lawful) (proper : v.Proper site)
    (move : (t', n) ∈ v.moves site t) : (site.get t).pool.Onward (site.get t').pool := by
  have served (serves : v.Serves site) : (site.get t).pool.Onward (site.get t').pool :=
    (movesLevel lawful serves move).onward
  cases v with
  | scheduling plan f => exact served proper
  | filling f =>
    refine Machine.withinState (fun u => (site.get t).pool.Onward (site.get u).pool) move
      (fun u o inner => ?_) fun r u onward => ?_
    · obtain ⟨u, moved, rfl⟩ := Machine.onCases inner
      rw [lawful]
      exact (Filling.movesLevel moved).onward
    · rw [Part.update, lawful]
      exact onward
  | disposing d =>
    refine Machine.withinState (fun u => (site.get t).pool.Onward (site.get u).pool) move
      (fun u o inner => ?_) fun r u onward => onward
    obtain ⟨u, moved, rfl⟩ := Machine.onCases inner
    rw [lawful]
    exact (Disposal.movesOnward moved).1
  | disposed r => cases move
  | _ => exact served trivial

def HasClosed : Visitor W V σ α φ ρ → Prop
  | .disposing d => d.HasClosed
  | .disposed _ => True
  | _ => False

theorem movesClosed (lawful : site.Lawful) (move : (t', .go w) ∈ v.moves site t)
    (closes : w.HasClosed) : v.HasClosed ∨ (site.get t').pool.permits.closed = true := by
  cases v with
  | acquiring a =>
    rcases Machine.withinCases move with ⟨b, -, same⟩ | ⟨u, r, -, same⟩ | ⟨-, same⟩
    · cases same; exact closes.elim
    · cases r <;> cases same <;> exact closes.elim
    · cases same
  | holding ticket seat =>
    cases (memStep.mp move).2
    exact closes.elim
  | releasing ticket r =>
    rcases Machine.withinCases move with ⟨b, -, same⟩ | ⟨u, r, -, same⟩ | ⟨-, same⟩ <;> cases same <;>
      exact closes.elim
  | scheduling plan f =>
    rcases Machine.withinCases move with ⟨g, -, same⟩ | ⟨u, ⟨y, g⟩, -, same⟩ | ⟨-, same⟩
    · cases same; exact closes.elim
    · cases y <;> cases same <;> exact closes.elim
    · cases same
  | filling f =>
    rcases Machine.withinCases move with ⟨g, -, same⟩ | ⟨u, r, -, same⟩ | ⟨-, same⟩ <;> cases same <;>
      exact closes.elim
  | disposing d =>
    rcases Machine.withinCases move with ⟨e, inner, same⟩ | ⟨u, r, inner, same⟩ | ⟨inner, same⟩
    · cases same
      obtain ⟨u, moved, rfl⟩ := Machine.onCases inner
      rw [lawful]
      refine (Disposal.movesClosed moved).imp_right fun after => after.resolve_right ?_
      rintro ⟨e, ⟨⟩, opened⟩
      exact opened closes
    · cases same
      obtain ⟨u, moved, rfl⟩ := Machine.onCases inner
      rw [lawful]
      refine (Disposal.movesClosed moved).imp_right fun after => after.resolve_right ?_
      rintro ⟨e, none, -⟩
      cases none
    · cases same
  | _ => cases move

end Visitor

namespace Traffic
variable {site : Part σ (Site W V)} {of : φ → List Nat} {first t u : Traffic W V σ α φ ρ}

theorem visitorsStep {P Q : Visitor W V σ α φ ρ → Prop} (all : ∀ v ∈ t.visitors, P v)
    (step : Step site of (Anyone site) t u) (comes : ∀ v, Anyone site t v → Q v)
    (stays : ∀ v, P v → Q v) (goes : ∀ v w, P v → (u.state, .go w) ∈ v.moves site t.state → Q w)
    (ends : Q .ended) : ∀ v ∈ u.visitors, Q v := by
  have replaced {before after : List (Visitor W V σ α φ ρ)} {v w : Visitor W V σ α φ ρ}
      (here : t.visitors = before ++ v :: after) (own : P v → Q w) :
      ∀ x ∈ before ++ w :: after, Q x := by
    rw [here] at all
    intro x member
    rcases List.mem_cons.mp (List.perm_middle.mem_iff.mp member) with rfl | other
    · exact own (all v (List.mem_append_right _ List.mem_cons_self))
    · exact stays x (all x (List.perm_middle.mem_iff.mpr (List.mem_cons_of_mem v other)))
  cases step with
  | enter come =>
    exact List.forall_mem_append.mpr
      ⟨fun x old => stays x (all x old), List.forall_mem_singleton.mpr (comes _ come)⟩
  | go here move => exact replaced here fun own => goes _ _ own move
  | breakDown here move => exact replaced here fun _ => ends
  | leave here => exact replaced here fun _ => ends
  | grow n => exact fun x old => stays x (all x old)
  | work crew more => exact fun x old => stays x (all x old)

theorem properStep (proper : ∀ v ∈ t.visitors, v.Proper site)
    (step : Step site of (Anyone site) t u) : ∀ v ∈ u.visitors, v.Proper site := by
  refine visitorsStep proper step (fun v come => ?_) (fun _ => id)
    (fun v w own move => Visitor.movesProper own move) trivial
  rcases come with rfl | rfl | rfl | ⟨plan, items, own, rfl⟩
  · trivial
  · trivial
  · trivial
  · exact own

theorem onwardStep (lawful : site.Lawful) (proper : ∀ v ∈ t.visitors, v.Proper site)
    (step : Step site of (Anyone site) t u) :
    (site.get t.state).pool.capacity ≤ (site.get u.state).pool.capacity ∧
      ((site.get t.state).pool.permits.closed = true →
        (site.get u.state).pool.permits.closed = true) := by
  have still {s : σ} (onward : (site.get t.state).pool.Onward (site.get s).pool) :
      (site.get t.state).pool.capacity ≤ (site.get s).pool.capacity ∧
        ((site.get t.state).pool.permits.closed = true →
          (site.get s).pool.permits.closed = true) :=
    ⟨Nat.le_of_eq onward.capacity.symm, onward.closed⟩
  have vacated {s : σ} (onward : (site.get t.state).pool.Onward (site.get s).pool)
      (tickets tokens : List Nat) : (site.get t.state).pool.Onward
        (site.get (site.update (Site.vacate tickets tokens) s)).pool := by
    have level := ((site.get s).pool.forgetAllAlike tickets).level.onward
    rw [Part.update, lawful]
    exact ⟨level.capacity.trans onward.capacity, fun closed => level.closed (onward.closed closed)⟩
  have moved {before after : List (Visitor W V σ α φ ρ)} {v : Visitor W V σ α φ ρ} {s : σ}
      {n : Next (Visitor W V σ α φ ρ) Empty} (here : t.visitors = before ++ v :: after)
      (move : (s, n) ∈ v.moves site t.state) :
      (site.get t.state).pool.Onward (site.get s).pool :=
    Visitor.movesOnward lawful (proper v (here ▸ List.mem_append_right _ List.mem_cons_self)) move
  cases step with
  | enter come => exact still ⟨rfl, id⟩
  | go here move => exact still (moved here move)
  | breakDown here move => exact still (vacated (moved here move) _ _)
  | leave here => exact still (vacated ⟨rfl, id⟩ _ _)
  | grow n =>
    rw [Part.update, lawful]
    show _ ≤ ((site.get t.state).pool.grow n).capacity ∧
      (_ → ((site.get t.state).pool.grow n).permits.closed = true)
    unfold Pool.grow
    split
    · exact ⟨Nat.le_refl _, id⟩
    · next raised =>
      refine ⟨Nat.le_add_right _ _, fun closed => absurd ?_ raised⟩
      simp [Pool.isDisposed, closed]
  | work crew stays =>
    refine still ?_
    rw [Part.update, lawful]
    exact ⟨rfl, id⟩

theorem closedSteps (lawful : site.Lawful) (proper : ∀ v ∈ t.visitors, v.Proper site)
    (closed : (site.get t.state).pool.permits.closed = true)
    (steps : Steps site of (Anyone site) t u) :
    (∀ v ∈ u.visitors, v.Proper site) ∧ (site.get u.state).pool.permits.closed = true := by
  induction steps with
  | refl => exact ⟨proper, closed⟩
  | tail steps step ih => exact ⟨properStep ih.1 step, (onwardStep lawful ih.1 step).2 ih.2⟩

theorem closersStep (lawful : site.Lawful) (proper : ∀ v ∈ t.visitors, v.Proper site)
    (closers : ∀ v ∈ t.visitors, v.HasClosed → (site.get t.state).pool.permits.closed = true)
    (step : Step site of (Anyone site) t u) :
    ∀ v ∈ u.visitors, v.HasClosed → (site.get u.state).pool.permits.closed = true := by
  have onward := (onwardStep lawful proper step).2
  refine visitorsStep closers step (fun v come => ?_) (fun v own closes => onward (own closes))
    (fun v w own move closes => ?_) False.elim
  · rcases come with rfl | rfl | rfl | ⟨plan, items, -, rfl⟩ <;> exact False.elim
  · rcases Visitor.movesClosed lawful move closes with before | now
    · exact onward (own before)
    · exact now

/-- How far somebody who acquires a worker can have come beside all others at the pool. -/
inductive Pursuit (site : Part σ (Site W V)) (of : φ → List Nat) (first : Traffic W V σ α φ ρ)
    (start : Acquisition W) : Traffic W V σ α φ ρ → Acquisition W → Prop where
  | start : Pursuit site of first start first start
  | go {t a s b} (pursuit : Pursuit site of first start t a)
      (move : (s, .go b) ∈ Acquisition.moves.on site a t.state) :
      Pursuit site of first start ⟨s, t.visitors⟩ b
  | others {t a u} (pursuit : Pursuit site of first start t a)
      (step : Step site of (Anyone site) t u) : Pursuit site of first start u a

/-- Nobody gets a worker: whoever asks for one, or waits for one, is refused, and no worker is made
for it. -/
structure Refuses (s : Site W V) (a : Acquisition W) : Prop where
  goesOn : Acquisition.moves a s ≠ []
  refused : ∀ {s' n}, (s', n) ∈ Acquisition.moves a s →
    n = .done (.error .disposed) ∨ a = .asking ∧ ∃ ticket, n = .go (.waiting ticket)
  makesNone : ∀ {s' n}, (s', n) ∈ Acquisition.moves a s →
    s'.crew = s.crew ∧ s'.pool.members = s.pool.members

theorem refuses {s : Site W V} (closed : s.pool.permits.closed = true) {a : Acquisition W}
    (unserved : a = .asking ∨ ∃ ticket, a = .waiting ticket) : Refuses s a := by
  rcases unserved with rfl | ⟨ticket, rfl⟩
  · refine ⟨List.cons_ne_nil _ _, fun move => ?_, fun move => ?_⟩
    · obtain ⟨-, rfl⟩ := memStep.mp move
      exact .inr ⟨rfl, _, rfl⟩
    · obtain ⟨rfl, -⟩ := memStep.mp move
      exact ⟨rfl, (s.pool.claimAlike 1).members⟩
  · have only : Acquisition.moves (.waiting ticket) s =
        finish (s.withPool (·.forget ticket)) (.error .disposed) := by
      simp only [Acquisition.moves, Pool.isDisposed, closed, if_true]
    refine ⟨?_, fun move => ?_, fun move => ?_⟩
    · rw [only]
      exact List.cons_ne_nil _ _
    · rw [only] at move
      exact .inl (memFinish.mp move).2
    · rw [only] at move
      obtain ⟨rfl, -⟩ := memFinish.mp move
      exact ⟨rfl, (s.pool.forgetAlike ticket).members⟩

theorem Pursuit.unserved (lawful : site.Lawful) (proper : ∀ v ∈ first.visitors, v.Proper site)
    (closed : (site.get first.state).pool.permits.closed = true) {start a : Acquisition W}
    (unserved : start = .asking ∨ ∃ ticket, start = .waiting ticket)
    (pursuit : Pursuit site of first start t a) :
    (∀ v ∈ t.visitors, v.Proper site) ∧ (site.get t.state).pool.permits.closed = true ∧
      (a = .asking ∨ ∃ ticket, a = .waiting ticket) := by
  induction pursuit with
  | start => exact ⟨proper, closed, unserved⟩
  | go pursuit move ih =>
    obtain ⟨proper, closed, unserved⟩ := ih
    obtain ⟨u, moved, rfl⟩ := Machine.onCases move
    refine ⟨proper, ?_, ?_⟩
    · rw [lawful]
      exact (Acquisition.movesLevel moved).closed.trans closed
    · rcases (refuses closed unserved).refused moved with none | ⟨-, ticket, same⟩
      · cases none
      · cases same
        exact .inr ⟨ticket, rfl⟩
  | others pursuit step ih =>
    obtain ⟨proper, closed, unserved⟩ := ih
    exact ⟨properStep proper step, (onwardStep lawful proper step).2 closed, unserved⟩

/-- From now on, whoever comes to the pool, it serves nobody. -/
structure Shut (site : Part σ (Site W V)) (of : φ → List Nat) (t : Traffic W V σ α φ ρ) : Prop where
  stays : ∀ {u}, Steps site of (Anyone site) t u → (site.get u.state).pool.isDisposed = true
  grows : ∀ {u}, Steps site of (Anyone site) t u → ∀ n,
    (site.get u.state).pool.grow n = (site.get u.state).pool
  fills : ∀ {u}, Steps site of (Anyone site) t u →
    Filling.moves .counting (site.get u.state) = finish (site.get u.state) (.error .disposed)
  disposes : ∀ {u}, Steps site of (Anyone site) t u →
    Disposal.moves .asking (site.get u.state) = finish (site.get u.state) (.ok ())
  refuses : ∀ {start u a}, (start = .asking ∨ ∃ ticket, start = .waiting ticket) →
    Pursuit site of t start u a → Refuses (site.get u.state) a

theorem shut (lawful : site.Lawful) (proper : ∀ v ∈ t.visitors, v.Proper site)
    (closed : (site.get t.state).pool.isDisposed = true) : Shut site of t where
  stays steps := (closedSteps lawful proper closed steps).2
  grows steps n := by
    have closed := (closedSteps lawful proper closed steps).2
    simp [Pool.grow, Pool.isDisposed, closed]
  fills steps := by
    have closed := (closedSteps lawful proper closed steps).2
    simp only [Filling.moves, Pool.isDisposed, closed, if_true]
  disposes steps := by
    have closed := (closedSteps lawful proper closed steps).2
    simp only [Disposal.moves, Pool.isDisposed, closed, if_true]
  refuses unserved pursuit := by
    obtain ⟨-, closed, still⟩ := pursuit.unserved lawful proper closed unserved
    exact Traffic.refuses closed still

theorem Step.mono {welcome wider : Traffic W V σ α φ ρ → Visitor W V σ α φ ρ → Prop}
    (more : ∀ t v, welcome t v → wider t v) (step : Step site of welcome t u) :
    Step site of wider t u := by
  cases step with
  | enter come => exact .enter (more _ _ come)
  | go here move => exact .go here move
  | breakDown here move => exact .breakDown here move
  | leave here => exact .leave here
  | grow n => exact .grow n
  | work crew stays => exact .work crew stays

theorem foundingAnyone (t : Traffic W V σ α φ ρ) (v : Visitor W V σ α φ ρ) (come : Founding t v) :
    Anyone site t v :=
  .inr (.inl come.1)

theorem visitingAnyone (t : Traffic W V σ α φ ρ) (v : Visitor W V σ α φ ρ)
    (come : Visiting site t v) : Anyone site t v := by
  rcases come with (rfl | serves) | rfl
  · exact .inl rfl
  · exact .inr (.inr (.inr serves))
  · exact .inr (.inr (.inl rfl))

end Traffic

end MutationPipeline
