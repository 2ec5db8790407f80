import MutationPipeline.Proofs.Pool.Founding
import MutationPipeline.Proofs.Worker.Waiting

/-! How many calls are in flight at a pool. Whoever waits for a call there holds a permit, or makes a
worker that is missing, or disposes the workers one after the other. -/
namespace MutationPipeline
variable {W V : Type} {s s' : Site W V}

def permitsOf (xs : List Stance) : Nat := ((xs.flatMap Stance.leases).map Prod.snd).sum

theorem permitsAppend (xs ys : List Stance) : permitsOf (xs ++ ys) = permitsOf xs + permitsOf ys := by
  rw [permitsOf, List.flatMap_append, List.map_append, List.sum_append]
  rfl

theorem Pool.Kept.bound {p : Pool} {n : Nat} {own others : List Stance}
    (kept : p.Kept n (own ++ others)) : permitsOf own ≤ p.capacity := by
  have balance : p.permits.stock + permitsOf (own ++ others) = p.capacity :=
    kept.counted.balance
  rw [permitsAppend] at balance
  have fewer : permitsOf own ≤ permitsOf own + permitsOf others := Nat.le_add_right _ _
  exact Nat.le_trans fewer (Nat.le_trans (Nat.le_add_left _ _) (Nat.le_of_eq balance))

theorem Release.permits (ticket : Nat) (r : Release) : permitsOf [r.stance ticket] = 1 := by
  cases r <;> rfl

def Crew.Finishes {ε α : Type} (old : List Nat) (c u : Crew W V) : Except ε α → Prop
  | .ok _ => Heeds old [] c u
  | .error _ => Leaves old c u

theorem callMovesHeeds {call : Calling W} {n : Next (Calling W) (Except WorkerError V)}
    (move : (s', n) ∈ callMoves call s) :
    Crew.Heeds call.tokens (n.elim Calling.tokens (fun _ => []) []) s.crew s'.crew := by
  obtain ⟨u, inner, rfl⟩ := Machine.onCases move
  exact Calling.movesHeeds inner

namespace Creation
variable {holder : Option Nat} {c : Creation W} {n : Next (Creation W) (Except PoolError Nat)}

theorem movesHeeds (move : (s', n) ∈ Creation.moves holder c s) :
    Crew.Heeds c.tokens (n.elim tokens (fun _ => []) []) s.crew s'.crew := by
  cases c with
  | hiring =>
    obtain ⟨rfl, rfl⟩ := memStep.mp move
    exact .same ⟨rfl, rfl, rfl⟩
  | starting seat call =>
    refine Machine.withinHeeds Site.crew Calling.tokens tokens move (fun _ _ => callMovesHeeds)
      (fun _ => rfl) fun r u => ?_
    cases r <;> exact ⟨⟨rfl, rfl, rfl⟩, rfl⟩
  | clearing cause call =>
    refine Machine.withinHeeds Site.crew Calling.tokens tokens move (fun _ _ => callMovesHeeds)
      (fun _ => rfl) fun r u => ?_
    cases r <;> exact ⟨⟨rfl, rfl, rfl⟩, rfl⟩
  | enrolling seat =>
    obtain ⟨rfl, rfl⟩ := memFinish.mp move
    cases holder <;> exact .same ⟨rfl, rfl, rfl⟩

theorem tokensFew (c : Creation W) : c.tokens.length ≤ 1 := by
  cases c with
  | starting seat call => exact call.tokensFew
  | clearing cause call => exact call.tokensFew
  | _ => exact Nat.zero_le _

end Creation

namespace Acquisition
variable {a : Acquisition W} {n : Next (Acquisition W) (Except PoolError (Nat × Nat))}

theorem movesHeeds (move : (s', n) ∈ Acquisition.moves a s) :
    Crew.Heeds a.tokens (n.elim tokens (fun _ => []) []) s.crew s'.crew := by
  cases a with
  | asking =>
    obtain ⟨rfl, rfl⟩ := memStep.mp move
    exact .same ⟨rfl, rfl, rfl⟩
  | waiting ticket =>
    simp only [Acquisition.moves] at move
    split at move
    · obtain ⟨rfl, rfl⟩ := memFinish.mp move
      exact .same ⟨rfl, rfl, rfl⟩
    · split at move
      · obtain ⟨rfl, rfl⟩ := memStep.mp move
        exact .same ⟨rfl, rfl, rfl⟩
      · cases move
  | choosing ticket =>
    simp only [Acquisition.moves] at move
    split at move
    · obtain ⟨rfl, rfl⟩ := memFinish.mp move
      exact .same ⟨rfl, rfl, rfl⟩
    · obtain ⟨rfl, rfl⟩ := memStep.mp move
      exact .same ⟨rfl, rfl, rfl⟩
  | creating ticket c =>
    refine Machine.withinHeeds Site.crew Creation.tokens tokens move (fun _ _ => Creation.movesHeeds)
      (fun _ => rfl) fun r u => ?_
    cases r <;> exact ⟨⟨rfl, rfl, rfl⟩, rfl⟩
  | failing ticket cause =>
    obtain ⟨rfl, rfl⟩ := memFinish.mp move
    exact .same ⟨rfl, rfl, rfl⟩

theorem tokensPermits (a : Acquisition W) : a.tokens.length ≤ permitsOf a.stances := by
  cases a with
  | creating ticket c =>
    have one : permitsOf (Acquisition.creating ticket c).stances = 1 := by cases c <;> rfl
    rw [one]
    exact c.tokensFew
  | _ => exact Nat.zero_le _

theorem movesPermits (closed : s.pool.permits.closed = true) (move : (s', n) ∈ Acquisition.moves a s) :
    permitsOf (n.elim stances got a.stances) ≤ permitsOf a.stances := by
  have one (ticket : Nat) (c : Creation W) : permitsOf (creating ticket c).stances = 1 := by
    cases c <;> rfl
  cases a with
  | asking =>
    obtain ⟨-, rfl⟩ := memStep.mp move
    exact Nat.le_refl _
  | waiting ticket =>
    simp only [Acquisition.moves, Pool.isDisposed, closed, if_true] at move
    obtain ⟨-, rfl⟩ := memFinish.mp move
    exact Nat.le_refl _
  | choosing ticket =>
    simp only [Acquisition.moves] at move
    split at move
    · obtain ⟨-, rfl⟩ := memFinish.mp move
      exact Nat.le_refl _
    · obtain ⟨-, rfl⟩ := memStep.mp move
      exact Nat.le_refl _
  | creating ticket c =>
    rw [one]
    rcases Machine.withinCases move with ⟨c, -, rfl⟩ | ⟨u, r, -, same⟩ | ⟨-, rfl⟩
    · exact Nat.le_of_eq (one ticket c)
    · cases r <;> cases same <;> exact Nat.le_refl _
    · exact Nat.le_of_eq (one ticket c)
  | failing ticket cause =>
    obtain ⟨-, rfl⟩ := memFinish.mp move
    exact Nat.zero_le _

end Acquisition

namespace Disposal
variable {d : Disposal W} {n : Next (Disposal W) (Except WorkerError Unit)}

theorem movesHeeds (move : (s', n) ∈ Disposal.moves d s) :
    Crew.Heeds d.tokens (n.elim tokens (fun _ => []) []) s.crew s'.crew := by
  cases d with
  | asking =>
    simp only [Disposal.moves] at move
    split at move
    · obtain ⟨rfl, rfl⟩ := memFinish.mp move
      exact .same ⟨rfl, rfl, rfl⟩
    · obtain ⟨rfl, rfl⟩ := memStep.mp move
      exact .same ⟨rfl, rfl, rfl⟩
  | waiting ticket wanted =>
    simp only [Disposal.moves] at move
    split at move
    · obtain ⟨rfl, rfl⟩ := memStep.mp move
      exact .same ⟨rfl, rfl, rfl⟩
    · split at move
      · obtain ⟨rfl, rfl⟩ := memStep.mp move
        exact .same ⟨rfl, rfl, rfl⟩
      · cases move
  | disposing call rest first =>
    cases call with
    | none =>
      cases rest with
      | nil =>
        obtain ⟨rfl, rfl⟩ := memFinish.mp move
        exact .same ⟨rfl, rfl, rfl⟩
      | cons seat rest =>
        obtain ⟨rfl, rfl⟩ := memStep.mp move
        exact .same ⟨rfl, rfl, rfl⟩
    | some call =>
      refine Machine.withinHeeds Site.crew Calling.tokens tokens move (fun _ _ => callMovesHeeds)
        (fun _ => rfl) fun r u => ?_
      cases r <;> exact ⟨⟨rfl, rfl, rfl⟩, rfl⟩
  | _ =>
    obtain ⟨rfl, rfl⟩ := memStep.mp move
    exact .same ⟨rfl, rfl, rfl⟩

theorem tokensFew (d : Disposal W) : d.tokens.length ≤ 1 := by
  cases d with
  | disposing call rest first =>
    cases call with
    | none => exact Nat.zero_le _
    | some call => exact call.tokensFew
  | _ => exact Nat.zero_le _

end Disposal

namespace Filling
variable {f : Filling W} {n : Next (Filling W) (Except PoolError Unit)}
  {before rest : List (Member (Creation W) Nat)}

theorem tokensRunning (before rest : List (Member (Creation W) Nat)) (c : Creation W) :
    (Filling.creating (before ++ .running c :: rest)).tokens.Perm
      (c.tokens ++ (Filling.creating (before ++ rest)).tokens) :=
  (phasesRunning before rest c).flatMap_right _

theorem tokensEnded (before rest : List (Member (Creation W) Nat)) (seat : Nat) :
    (Filling.creating (before ++ .ended seat :: rest)).tokens.Perm
      (Filling.creating (before ++ rest)).tokens :=
  (phasesEnded before rest seat).flatMap_right _

theorem tokensFresh (count : Nat) :
    (Filling.creating (List.replicate count (.running (.hiring : Creation W)))).tokens = [] := by
  rw [tokens, phasesFresh, List.flatMap_eq_nil_iff]
  intro c member
  rw [List.eq_of_mem_replicate member]
  rfl

theorem tokensDone (seats : List Nat) :
    (Filling.creating (seats.map .ended) : Filling W).tokens = [] := by
  rw [tokens, Member.phasesDone]
  rfl

theorem movesHeeds (move : (s', n) ∈ Filling.moves f s) :
    n.elim (fun g => Crew.Heeds f.tokens g.tokens s.crew s'.crew)
      (Crew.Finishes f.tokens s.crew s'.crew) (Crew.Leaves f.tokens s.crew s'.crew) := by
  rcases movesCases move with ⟨rfl, rfl, rfl⟩ | ⟨rfl, -, rfl, rfl⟩ | ⟨seats, rfl, rfl, rfl⟩ |
    ⟨before, c, rest, o, rfl, moved, rfl⟩
  · exact (Crew.Heeds.same ⟨rfl, rfl, rfl⟩).leaves (.refl _)
  · rw [Next.elim, tokensFresh]
    exact .same ⟨rfl, rfl, rfl⟩
  · rw [tokensDone]
    exact Crew.Heeds.same ⟨rfl, rfl, rfl⟩
  · have first := tokensRunning before rest c
    have heeds := (Creation.movesHeeds moved).frame (Filling.creating (before ++ rest)).tokens
    have failed (heeds : Crew.Heeds (c.tokens ++ (Filling.creating (before ++ rest)).tokens)
        (Filling.creating (before ++ rest)).tokens s.crew s'.crew) :
        Crew.Leaves (Filling.creating (before ++ .running c :: rest)).tokens s.crew s'.crew :=
      (heeds.perm first (.refl _)).leaves
        ((List.sublist_append_right _ _).subperm.trans first.symm.subperm)
    cases o with
    | go d => exact heeds.perm first (tokensRunning before rest d).symm
    | done r =>
      cases r with
      | ok seat => exact heeds.perm first (tokensEnded before rest seat).symm
      | error e => exact failed heeds
    | panicked => exact failed heeds

end Filling

theorem tokensBound {φ : Type} (of : φ → List Nat) (few : ∀ p, (of p).length ≤ 1) (ps : List φ) :
    (ps.flatMap of).length ≤ ps.length := by
  induction ps with
  | nil => exact Nat.le_refl _
  | cons p ps ih =>
    have one := few p
    rw [List.flatMap_cons, List.length_append, List.length_cons]
    omega

section Schedule
variable {σ α φ ρ : Type} {of : φ → List Nat}

def Flight.tokens (of : φ → List Nat) : Flight φ α ρ → List Nat
  | .working _ _ _ p => of p
  | _ => []

def Feed.tokens : Feed W α → List Nat
  | .acquiring _ a _ => a.tokens
  | _ => []

namespace Schedule
variable {f : Schedule W α φ ρ} {before rest : List (Flight φ α ρ)} {x : Flight φ α ρ}

theorem tokensParts (of : φ → List Nat) (f : Schedule W α φ ρ) :
    f.tokens of = f.feed.tokens ++ f.flights.flatMap (Flight.tokens of) := by
  have flights : f.flights.flatMap (Flight.tokens of) = f.flights.flatMap fun
      | .working _ _ _ p => of p
      | _ => [] := by
    refine congrArg (fun g => f.flights.flatMap g) (funext fun x => ?_)
    cases x <;> rfl
  rw [flights]
  rfl

theorem tokensFront (of : φ → List Nat) (f : Schedule W α φ ρ) (before rest : List (Flight φ α ρ))
    (x : Flight φ α ρ) : (({ f with flights := before ++ x :: rest } : Schedule ..).tokens of).Perm
      (x.tokens of ++ ({ f with flights := before ++ rest } : Schedule ..).tokens of) := by
  rw [tokensParts, tokensParts]
  have moved : ((before ++ x :: rest).flatMap (Flight.tokens of)).Perm
      (x.tokens of ++ (before ++ rest).flatMap (Flight.tokens of)) :=
    List.perm_middle.flatMap_right _
  exact (moved.append_left _).trans (List.perm_append_comm_assoc _ _ _)

theorem tokensRest (of : φ → List Nat) (flights : f.flights = before ++ x :: rest) :
    (({ f with flights := before ++ rest } : Schedule ..).tokens of).Subperm (f.tokens of) := by
  have front := tokensFront of f before rest x
  rw [← flights] at front
  exact (List.sublist_append_right _ _).subperm.trans front.symm.subperm

theorem tokensSent (known : List α) (flights : List (Flight φ α ρ)) (x : Flight φ α ρ)
    (idle : x.tokens of = []) :
    ({ feed := .open known, flights := flights ++ [x] } : Schedule W α φ ρ).tokens of =
      flights.flatMap (Flight.tokens of) := by
  rw [tokensParts, List.flatMap_append, List.flatMap_singleton, idle, List.append_nil]
  rfl

theorem tokensPermits (few : ∀ p, (of p).length ≤ 1) (f : Schedule W α φ ρ) :
    (f.tokens of).length ≤ permitsOf f.stances := by
  rw [tokensParts, stances, permitsAppend, List.length_append]
  refine Nat.add_le_add ?_ ?_
  · cases f.feed with
    | acquiring item a known => exact a.tokensPermits
    | _ => exact Nat.zero_le _
  · induction f.flights with
    | nil => exact Nat.zero_le _
    | cons x rest ih =>
      rw [List.flatMap_cons, List.flatMap_cons, List.length_append, permitsAppend]
      refine Nat.add_le_add ?_ ih
      cases x with
      | working item ticket seat p => exact few p
      | _ => exact Nat.zero_le _

theorem permitsFront (f : Schedule W α φ ρ) (before rest : List (Flight φ α ρ)) (x : Flight φ α ρ) :
    permitsOf ({ f with flights := before ++ x :: rest } : Schedule ..).stances =
      permitsOf x.stances + permitsOf ({ f with flights := before ++ rest } : Schedule ..).stances := by
  rw [← permitsAppend]
  exact (((stancesFront f before rest x).flatMap_right _).map _).sum_nat

variable {plan : Plan W V σ α φ ρ} {site : Part σ (Site W V)} {t t' : σ}
  {n : Next (Schedule W α φ ρ) (Option (Yield α ρ) × Schedule W α φ ρ)}

theorem movedPermits (closed : (plan.site.get t).pool.permits.closed = true)
    (move : Moved plan f t t' n) :
    permitsOf (n.elim stances (fun r => r.2.stances) f.stances) ≤ permitsOf f.stances := by
  have fed {a : Acquisition W} {item : α} {known : List α} {u o}
      (feed : f.feed = .acquiring item a known)
      (move : (u, o) ∈ Acquisition.moves a (plan.site.get t)) :
      permitsOf (o.elim Acquisition.stances Acquisition.got a.stances) +
        permitsOf (f.flights.flatMap Flight.stances) ≤ permitsOf f.stances := by
    rw [stances, feed, permitsAppend]
    exact Nat.add_le_add_right (Acquisition.movesPermits closed move) _
  have going {before rest : List (Flight φ α ρ)} {x y : Flight φ α ρ}
      (flights : f.flights = before ++ x :: rest) (same : permitsOf y.stances ≤ permitsOf x.stances) :
      permitsOf ({ f with flights := before ++ y :: rest } : Schedule ..).stances ≤
        permitsOf f.stances := by
    have front := permitsFront f before rest x
    rw [← flights] at front
    rw [permitsFront]
    exact Nat.le_trans (Nat.add_le_add_right same _) (Nat.le_of_eq front.symm)
  have landed {before rest : List (Flight φ α ρ)} {x : Flight φ α ρ}
      (flights : f.flights = before ++ x :: rest) :
      permitsOf ({ f with flights := before ++ rest } : Schedule ..).stances ≤ permitsOf f.stances := by
    have front := permitsFront f before rest x
    rw [← flights] at front
    exact Nat.le_trans (Nat.le_add_left _ _) (Nat.le_of_eq front.symm)
  have sent (known : List α) (x : Flight φ α ρ) :
      permitsOf ({ feed := .open known, flights := f.flights ++ [x] } : Schedule W α φ ρ).stances =
        permitsOf x.stances + permitsOf (f.flights.flatMap Flight.stances) := by
    rw [permitsFront { f with feed := .open known }, List.append_nil]
    rfl
  cases move with
  | ended dry empty => exact Nat.le_refl _
  | offer feed =>
    rw [stances, feed]
    exact Nat.le_refl _
  | pull feed more =>
    rw [stances, feed]
    exact Nat.le_refl _
  | dry feed more =>
    rw [stances, feed]
    exact Nat.le_refl _
  | acquire feed move =>
    refine Nat.le_trans (Nat.le_of_eq ?_) (fed feed move)
    exact permitsAppend _ _
  | send feed move calm =>
    rw [Next.elim, sent]
    exact fed feed move
  | refuse feed move =>
    rw [Next.elim, sent]
    exact fed feed move
  | feedBreaks feed move => exact Nat.le_refl _
  | reject flights => exact landed flights
  | work flights move => exact going flights (Nat.le_refl _)
  | answer flights move => exact going flights (Nat.le_refl _)
  | workBreaks flights move => exact Nat.le_refl _
  | release flights move =>
    exact going flights (Nat.le_of_eq ((Release.permits _ _).trans (Release.permits _ _).symm))
  | land flights move => exact landed flights

theorem tokensDone (of : φ → List Nat) {y : Option (Yield α ρ)} {g : Schedule W α φ ρ}
    (move : Moved plan f t t' (.done (y, g))) : (g.tokens of).Subperm (f.tokens of) := by
  cases move with
  | ended dry empty => exact .refl _
  | reject flights => exact tokensRest of flights
  | land flights move => exact tokensRest of flights

theorem movedHeeds (lawful : site.Lawful) (proper : plan.Proper site) (start : of plan.start = [])
    (work : ∀ item seat p c u o, (u, o) ∈ plan.work item seat p c →
      Crew.Heeds (of p) (o.elim of (fun _ => []) []) c u)
    (move : Moved plan f t t' n) :
    n.elim (fun g => Crew.Heeds (f.tokens of) (g.tokens of) (site.get t).crew (site.get t').crew)
      (fun r => Crew.Heeds (f.tokens of) (r.2.tokens of) (site.get t).crew (site.get t').crew)
      (Crew.Leaves (f.tokens of) (site.get t).crew (site.get t').crew) := by
  obtain ⟨rfl, aloof, -⟩ := proper
  have fed {item : α} {a : Acquisition W} {known : List α} {u : Site W V} {o}
      (feed : f.feed = .acquiring item a known)
      (move : (u, o) ∈ Acquisition.moves a (plan.site.get t)) :
      Crew.Heeds (f.tokens of)
        (o.elim Acquisition.tokens (fun _ => []) [] ++ f.flights.flatMap (Flight.tokens of))
        (plan.site.get t).crew u.crew := by
    rw [tokensParts, feed]
    exact (Acquisition.movesHeeds move).frame _
  have flown {before rest : List (Flight φ α ρ)} {x : Flight φ α ρ} {c : Crew W V} {new : List Nat}
      (flights : f.flights = before ++ x :: rest)
      (heeds : Crew.Heeds (x.tokens of) new (plan.site.get t).crew c) :
      Crew.Heeds (f.tokens of) (new ++ ({ f with flights := before ++ rest } : Schedule ..).tokens of)
        (plan.site.get t).crew c := by
    have front := tokensFront of f before rest x
    rw [← flights] at front
    exact (heeds.frame _).perm front (.refl _)
  have going {before rest : List (Flight φ α ρ)} {x y : Flight φ α ρ} {c : Crew W V}
      (flights : f.flights = before ++ x :: rest)
      (heeds : Crew.Heeds (x.tokens of) (y.tokens of) (plan.site.get t).crew c) :
      Crew.Heeds (f.tokens of) (({ f with flights := before ++ y :: rest } : Schedule ..).tokens of)
        (plan.site.get t).crew c :=
    (flown flights heeds).perm (.refl _) (tokensFront of f before rest y).symm
  cases move with
  | ended dry empty => exact Crew.Heeds.same ⟨rfl, rfl, rfl⟩
  | offer feed =>
    rw [Next.elim, tokensParts, tokensParts, feed]
    exact .same ⟨rfl, rfl, rfl⟩
  | pull feed more =>
    rw [Next.elim, tokensParts, tokensParts, feed, aloof _ _ _ more]
    exact .same ⟨rfl, rfl, rfl⟩
  | dry feed more =>
    rw [Next.elim, tokensParts, tokensParts, feed, aloof _ _ _ more]
    exact .same ⟨rfl, rfl, rfl⟩
  | acquire feed move =>
    rw [lawful, Next.elim, tokensParts _ (Schedule.mk ..)]
    exact fed feed move
  | send feed move calm =>
    rw [lawful, Next.elim, tokensSent _ _ (.working _ _ _ plan.start) start]
    exact fed feed move
  | refuse feed move =>
    rw [lawful, Next.elim, tokensSent _ _ _ rfl]
    exact fed feed move
  | feedBreaks feed move =>
    rw [lawful]
    exact (fed feed move).leaves (tokensParts of f ▸ (List.sublist_append_right _ _).subperm)
  | reject flights => exact flown flights (.same ⟨rfl, rfl, rfl⟩)
  | work flights move =>
    rw [lawful]
    exact going flights (work _ _ _ _ _ _ move)
  | answer flights move =>
    rw [lawful]
    exact going flights (work _ _ _ _ _ _ move)
  | workBreaks flights move =>
    rw [lawful]
    exact (flown flights (work _ _ _ _ _ _ move)).leaves (tokensRest of flights)
  | release flights move =>
    rw [lawful]
    have crew := (Release.movesAlike move).2
    exact going flights (.same (by rw [crew]; exact ⟨rfl, rfl, rfl⟩))
  | land flights move =>
    rw [lawful]
    have crew := (Release.movesAlike move).2
    exact flown flights (.same (by rw [crew]; exact ⟨rfl, rfl, rfl⟩))

end Schedule

end Schedule

end MutationPipeline
