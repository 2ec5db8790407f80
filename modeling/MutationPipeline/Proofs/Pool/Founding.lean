import MutationPipeline.Proofs.Pool.Closing
import MutationPipeline.Proofs.Worker.Orders

/-! Filling a pool up. The workers that are missing are made beside each other and asked for nothing
but to start, and when all have joined the pool it is full. -/
namespace MutationPipeline
variable {W V : Type} {s s' : Site W V} {others : List Stance}

namespace Creation
variable {c : Creation W} {n : Next (Creation W) (Except PoolError Nat)}

theorem movesPool (move : (s', n) ∈ Creation.moves none c s) :
    (s'.pool = s.pool ∧ ∀ seat, n ≠ .done (.ok seat)) ∨
      ∃ seat, n = .done (.ok seat) ∧ s'.pool = s.pool.enroll seat := by
  cases c with
  | hiring =>
    obtain ⟨rfl, rfl⟩ := memStep.mp move
    exact .inl ⟨rfl, fun seat same => by cases same⟩
  | starting seat call =>
    refine .inl ?_
    rcases Machine.withinCases move with ⟨q, inner, rfl⟩ | ⟨u, r, inner, same⟩ | ⟨inner, rfl⟩
    · obtain ⟨crew, -, rfl⟩ := Machine.onCases inner
      exact ⟨rfl, fun seat same => by cases same⟩
    · obtain ⟨crew, -, rfl⟩ := Machine.onCases inner
      cases r <;> cases same <;> exact ⟨rfl, fun seat same => by cases same⟩
    · obtain ⟨crew, -, rfl⟩ := Machine.onCases inner
      exact ⟨rfl, fun seat same => by cases same⟩
  | clearing cause call =>
    refine .inl ?_
    rcases Machine.withinCases move with ⟨q, inner, rfl⟩ | ⟨u, r, inner, same⟩ | ⟨inner, rfl⟩
    · obtain ⟨crew, -, rfl⟩ := Machine.onCases inner
      exact ⟨rfl, fun seat same => by cases same⟩
    · obtain ⟨crew, -, rfl⟩ := Machine.onCases inner
      cases r <;> cases same <;> exact ⟨rfl, fun seat same => by cases same⟩
    · obtain ⟨crew, -, rfl⟩ := Machine.onCases inner
      exact ⟨rfl, fun seat same => by cases same⟩
  | enrolling seat =>
    obtain ⟨rfl, rfl⟩ := memFinish.mp move
    exact .inr ⟨seat, rfl, rfl⟩

end Creation

namespace Filling
variable {f : Filling W} {n : Next (Filling W) (Except PoolError Unit)}

def filled (before rest : List (Member (Creation W) Nat)) :
    Next (Creation W) (Except PoolError Nat) → Next (Filling W) (Except PoolError Unit)
  | .go c => .go (.creating (before ++ .running c :: rest))
  | .done (.ok seat) => .go (.creating (before ++ .ended seat :: rest))
  | .done (.error e) => .done (.error e)
  | .panicked => .panicked

theorem movesCases (move : (s', n) ∈ Filling.moves f s) :
    (f = .counting ∧ s' = s ∧ n = .done (.error .disposed)) ∨
    (f = .counting ∧ s.pool.permits.closed = false ∧ s' = s ∧
      n = .go (.creating (List.replicate s.pool.missing (.running .hiring)))) ∨
    (∃ seats, f = .creating (seats.map .ended) ∧ s' = s.withPool (·.stock seats) ∧
      n = .done (.ok ())) ∨
    ∃ before c rest o, f = .creating (before ++ .running c :: rest) ∧
      (s', o) ∈ Creation.moves none c s ∧ n = filled before rest o := by
  cases f with
  | counting =>
    simp only [Filling.moves] at move
    split at move
    · obtain ⟨rfl, rfl⟩ := memFinish.mp move
      exact .inl ⟨rfl, rfl, rfl⟩
    · next opened =>
      obtain ⟨rfl, rfl⟩ := memStep.mp move
      exact .inr (.inl ⟨rfl, by simpa [Pool.isDisposed] using opened, rfl, rfl⟩)
  | creating members =>
    refine .inr (.inr ?_)
    have one {u o} (inner : (u, o) ∈ Member.moves (Creation.moves none) members s) :
        (∃ seats, members = seats.map .ended ∧ u = s ∧ o = .done (.ok seats)) ∨
        ∃ before c rest p, members = before ++ .running c :: rest ∧
          (u, p) ∈ Creation.moves none c s ∧ o = Member.follow before rest p :=
      Member.movesCases inner
    rcases Machine.withinCases move with ⟨q, inner, rfl⟩ | ⟨u, r, inner, same⟩ | ⟨inner, rfl⟩
    · rcases one inner with ⟨seats, -, -, same⟩ | ⟨before, c, rest, p, rfl, moved, same⟩
      · cases same
      · refine .inr ⟨before, c, rest, p, rfl, moved, ?_⟩
        cases p with
        | go c => cases same; rfl
        | done r => cases r <;> cases same; rfl
        | panicked => cases same
    · rcases one inner with ⟨seats, rfl, rfl, follow⟩ | ⟨before, c, rest, p, rfl, moved, follow⟩
      · cases follow
        cases same
        exact .inl ⟨seats, rfl, rfl, rfl⟩
      · refine .inr ⟨before, c, rest, p, rfl, ?_⟩
        cases p with
        | go c => cases follow
        | done r =>
          cases r with
          | ok seat => cases follow
          | error e =>
            cases follow
            cases same
            exact ⟨moved, rfl⟩
        | panicked => cases follow
    · rcases one inner with ⟨seats, -, -, same⟩ | ⟨before, c, rest, p, rfl, moved, same⟩
      · cases same
      · refine .inr ⟨before, c, rest, p, rfl, moved, ?_⟩
        cases p with
        | go c => cases same
        | done r => cases r <;> cases same
        | panicked => rfl

structure Ready (s : Site W V) (f : Filling W) : Prop where
  begins : ∀ members, f = .creating members →
    ∀ c ∈ Member.phases members, c.Begins fun _ _ => False
  room : ∀ members, f = .creating members → s.pool.permits.closed = false →
    s.pool.members.length + (Member.phases members).length = s.pool.capacity

theorem movesLevel (move : (s', n) ∈ Filling.moves f s) : s.pool.Level s'.pool := by
  rcases movesCases move with ⟨-, rfl, -⟩ | ⟨-, -, rfl, -⟩ | ⟨seats, -, rfl, -⟩ |
    ⟨before, c, rest, o, -, moved, -⟩
  · exact .refl _
  · exact .refl _
  · exact ⟨rfl, rfl⟩
  · rcases Creation.movesPool moved with ⟨pool, -⟩ | ⟨seat, -, pool⟩ <;> rw [pool] <;>
      exact ⟨rfl, rfl⟩

theorem phasesRunning (before rest : List (Member (Creation W) Nat)) (c : Creation W) :
    (Member.phases (before ++ .running c :: rest)).Perm (c :: Member.phases (before ++ rest)) :=
  Member.phasesFront before rest (.running c)

theorem phasesEnded (before rest : List (Member (Creation W) Nat)) (seat : Nat) :
    (Member.phases (before ++ .ended seat :: rest)).Perm (Member.phases (before ++ rest)) :=
  Member.phasesFront before rest (.ended seat)

theorem movesAloof (ready : f.Ready s) (move : (s', n) ∈ Filling.moves f s) :
    s.crew.Aloof s'.crew := by
  rcases movesCases move with ⟨-, rfl, -⟩ | ⟨-, -, rfl, -⟩ | ⟨seats, -, rfl, -⟩ |
    ⟨before, c, rest, o, rfl, moved, -⟩
  · exact Crew.Quiet.aloof ⟨rfl, rfl, rfl⟩
  · exact Crew.Quiet.aloof ⟨rfl, rfl, rfl⟩
  · exact Crew.Quiet.aloof ⟨rfl, rfl, rfl⟩
  · have begins := ready.begins _ rfl c ((phasesRunning before rest c).symm.subset (by simp))
    exact ⟨_, _, Creation.movesTurn begins moved⟩

theorem phasesFresh (count : Nat) :
    Member.phases (List.replicate count (.running (.hiring : Creation W)) : List (Member _ Nat)) =
      List.replicate count .hiring := by
  rw [Member.phases, List.filterMap_replicate]

theorem movesReady (booked : s.Booked f.stances others) (ready : f.Ready s)
    (move : (s', n) ∈ Filling.moves f s) :
    n.elim (Ready s') (fun r => r = .ok () → s'.Full) True := by
  rcases movesCases move with ⟨rfl, rfl, rfl⟩ | ⟨rfl, opened, rfl, rfl⟩ | ⟨seats, rfl, rfl, rfl⟩ |
    ⟨before, c, rest, o, rfl, moved, rfl⟩
  · exact fun same => by cases same
  · refine ⟨fun members same c member => ?_, fun members same _ => ?_⟩
    · cases same
      rw [phasesFresh] at member
      rw [List.eq_of_mem_replicate member]
      trivial
    · cases same
      have room : s'.pool.members.length ≤ s'.pool.capacity := by
        rcases booked with ⟨closed, -⟩ | kept
        · exact absurd (closed.symm.trans opened) (by decide)
        · exact Nat.le_trans (Nat.le_add_right _ _) kept.staffed.room
      rw [phasesFresh, List.length_replicate, Pool.missing]
      omega
  · intro _ opened
    have room := ready.room _ rfl opened
    rwa [Member.phasesDone] at room
  · have first := phasesRunning before rest c
    have later : ∀ d ∈ Member.phases (before ++ rest), d.Begins fun _ _ => False :=
      fun d member => ready.begins _ rfl d (first.symm.subset (List.mem_cons_of_mem c member))
    have count (opened : s.pool.permits.closed = false) : s.pool.members.length +
        ((Member.phases (before ++ rest)).length + 1) = s.pool.capacity := by
      have room := ready.room _ rfl opened
      rwa [first.length_eq, List.length_cons] at room
    rcases Creation.movesPool moved with ⟨pool, unfinished⟩ | ⟨seat, rfl, pool⟩
    · cases o with
      | go d =>
        refine ⟨fun members same e member => ?_, fun members same opened => ?_⟩
        · cases same
          rcases List.mem_cons.mp ((phasesRunning before rest d).subset member) with rfl | other
          · exact Creation.movesBegins moved _ rfl
          · exact later e other
        · cases same
          rw [pool] at opened ⊢
          rw [(phasesRunning before rest d).length_eq, List.length_cons]
          exact count opened
      | done r =>
        cases r with
        | ok seat => exact absurd rfl (unfinished seat)
        | error e => exact fun same => by cases same
      | panicked => trivial
    · refine ⟨fun members same e member => ?_, fun members same opened => ?_⟩
      · cases same
        exact later e ((phasesEnded before rest seat).subset member)
      · cases same
        rw [pool] at opened ⊢
        rw [(phasesEnded before rest seat).length_eq]
        have one := count opened
        simp only [Pool.enroll, List.length_append, List.length_singleton]
        omega

theorem vacant (f : Filling W) : Vacant f.stances := by
  have none : f.stances.flatMap Stance.leases = [] := by
    rw [List.flatMap_eq_nil_iff]
    intro x member
    cases f with
    | counting => cases member
    | creating members =>
      obtain ⟨m, -, rfl⟩ := List.mem_map.mp member
      cases m with
      | running c => cases c <;> rfl
      | ended seat => rfl
  rw [Vacant, none]
  rfl

theorem movesBooked (calm : others.countP Stance.isMaking = 0) (booked : s.Booked f.stances others)
    (move : (s', n) ∈ Filling.moves f s) :
    n.elim (fun g => s'.Booked g.stances others) (fun r => r = .ok () → s'.Booked [] others)
      True := by
  have same := (movesLevel move).closed
  rcases booked with ⟨closed, -⟩ | kept
  · cases n with
    | go g => exact .inl ⟨same.trans closed, g.vacant⟩
    | done r => exact fun _ => .inl ⟨same.trans closed, rfl⟩
    | panicked => trivial
  · obtain ⟨going, done⟩ := movesKept calm kept move
    cases n with
    | go g => exact .inr (going g rfl)
    | done r => exact fun ok => .inr (done (ok ▸ rfl))
    | panicked => trivial

end Filling

end MutationPipeline
