import MutationPipeline.Proofs.Checker.Attendance
import MutationPipeline.Proofs.Pool.Waiting

/-! How many calls a stage has in flight. It never has more of them than its pool may have workers, and
once the pool is closed it only becomes less. -/
namespace MutationPipeline
variable {name checker : String} {active : Nat → Prop} {s s' : CheckSite} {others : List Stance}

namespace Activation
variable {staffing : Staffing} {seat : Nat} {c u : CheckCrew} {a : Activation}
  {n : Next Activation (Except WorkerError Unit)}

theorem movesHeeds (move : (u, n) ∈ Activation.moves staffing checker seat a c) :
    Crew.Heeds a.tokens (n.elim tokens (fun _ => []) []) c u := by
  cases a with
  | remembering =>
    obtain ⟨rfl, rfl⟩ := memStep.mp move
    refine .same ?_
    split <;> exact ⟨rfl, rfl, rfl⟩
  | calling call =>
    exact Machine.withinHeeds id Calling.tokens tokens move (fun _ _ => Calling.movesHeeds)
      (fun _ => rfl) fun r u => ⟨⟨rfl, rfl, rfl⟩, rfl⟩

theorem tokensFew (a : Activation) : a.tokens.length ≤ 1 := by
  cases a with
  | remembering => exact Nat.zero_le _
  | calling call => exact call.tokensFew

end Activation

namespace Broadcast
variable {staffing : Staffing} {b : Broadcast Activation}
  {n : Next (Broadcast Activation) (Except WorkerError Unit)}

theorem tellHeeds (move : (s', n) ∈ tell staffing checker b s) :
    n.elim (fun c => Crew.Heeds b.tokens c.tokens s.crew s'.crew)
      (Crew.Finishes b.tokens s.crew s'.crew) (Crew.Leaves b.tokens s.crew s'.crew) := by
  rcases tellCases move with ⟨rfl, rfl, rfl⟩ | ⟨results, rfl, rfl, rfl⟩ |
    ⟨before, seat, a, rest, u, o, rfl, moved, rfl, rfl⟩
  · have none : (Broadcast.running (s'.pool.members.map fun seat =>
        Member.running (seat, Activation.remembering))).tokens = [] := by
      refine List.flatMap_eq_nil_iff.mpr fun a member => ?_
      obtain ⟨p, among, rfl⟩ := List.mem_map.mp member
      obtain ⟨m, here, found⟩ := List.mem_filterMap.mp among
      obtain ⟨seat, -, rfl⟩ := List.mem_map.mp here
      cases found
      rfl
    rw [Next.elim, none]
    exact .same ⟨rfl, rfl, rfl⟩
  · rw [tokens, phases, Member.phasesDone]
    exact Crew.Heeds.same ⟨rfl, rfl, rfl⟩
  · have first := tokensFront before rest seat a
    have heeds := (Activation.movesHeeds moved).frame (Broadcast.running (before ++ rest)).tokens
    have failed (heeds : Crew.Heeds (a.tokens ++ (Broadcast.running (before ++ rest)).tokens)
        (Broadcast.running (before ++ rest)).tokens s.crew u) :
        Crew.Leaves (Broadcast.running (before ++ .running (seat, a) :: rest)).tokens s.crew u :=
      (heeds.perm first (.refl _)).leaves
        ((List.sublist_append_right _ _).subperm.trans first.symm.subperm)
    cases o with
    | go d => exact heeds.perm first (tokensFront before rest seat d).symm
    | done r =>
      cases r with
      | ok seat => exact heeds.perm first (tokensEnded before rest seat).symm
      | error e => exact failed heeds
    | panicked => exact failed heeds

end Broadcast

def Broadcast.load {φ : Type} (members : Nat) : Broadcast φ → Nat
  | .listing => members
  | .running all => (Member.phases all).length

theorem Broadcast.tokensLoad (members : Nat) (b : Broadcast Activation) :
    b.tokens.length ≤ b.load members := by
  cases b with
  | listing => exact Nat.zero_le _
  | running all =>
    exact Nat.le_trans (tokensBound _ Activation.tokensFew _) (Nat.le_of_eq (List.length_map _))

theorem Broadcast.tellLoad {staffing : Staffing} {b : Broadcast Activation}
    {n : Next (Broadcast Activation) (Except WorkerError Unit)}
    (move : (s', n) ∈ tell staffing checker b s) : ∀ next, n = .go next →
      next.load s'.pool.members.length ≤ b.load s.pool.members.length := by
  rintro next rfl
  rcases tellCases move with ⟨rfl, rfl, same⟩ | ⟨results, rfl, rfl, same⟩ |
    ⟨before, seat, a, rest, u, o, rfl, moved, rfl, same⟩
  · cases same
    refine Nat.le_trans (List.length_filterMap_le _ _) (Nat.le_of_eq (List.length_map _))
  · cases same
  · have first := (Member.phasesFront before rest (.running (seat, a))).length_eq
    cases o with
    | go d =>
      cases same
      have later := (Member.phasesFront before rest (.running (seat, d))).length_eq
      exact Nat.le_of_eq (later.trans first.symm)
    | done r =>
      cases r with
      | ok r =>
        cases same
        have later := (Member.phasesFront before rest (.ended r)).length_eq
        rw [load, load, later, first, List.length_append, List.length_append]
        exact Nat.add_le_add_right (Nat.zero_le _) _
      | error e => cases same
    | panicked => cases same

def Filling.load (members : Nat) : Filling CheckWork → Nat
  | .counting => 0
  | .creating all => members + (Member.phases all).length

theorem Filling.tokensLoad (members : Nat) (f : Filling CheckWork) :
    f.tokens.length ≤ f.load members := by
  cases f with
  | counting => exact Nat.zero_le _
  | creating all =>
    exact Nat.le_trans (tokensBound _ Creation.tokensFew _) (Nat.le_add_left _ _)

theorem Filling.movesLoad {f : Filling CheckWork} {n : Next (Filling CheckWork) (Except PoolError Unit)}
    (closed : s.pool.permits.closed = true) (move : (s', n) ∈ Filling.moves f s) :
    (∀ next, n = .go next → next.load s'.pool.members.length ≤ f.load s.pool.members.length) ∧
      (n = .done (.ok ()) → s'.pool.members.length ≤ f.load s.pool.members.length) := by
  rcases movesCases move with ⟨rfl, rfl, rfl⟩ | ⟨rfl, opened, rfl, rfl⟩ | ⟨seats, rfl, rfl, rfl⟩ |
    ⟨before, c, rest, o, rfl, moved, rfl⟩
  · exact ⟨fun next same => (by cases same), fun same => by cases same⟩
  · exact absurd (closed.symm.trans opened) (by decide)
  · exact ⟨fun next same => (by cases same), fun _ => Nat.le_add_right _ _⟩
  · have first := (phasesRunning before rest c).length_eq
    have ended (seat : Nat) := (phasesEnded before rest seat).length_eq
    rw [List.length_cons] at first
    cases o with
    | go d =>
      have later := (phasesRunning before rest d).length_eq
      rw [List.length_cons] at later
      have pool : s'.pool = s.pool := by
        rcases Creation.movesPool moved with ⟨pool, -⟩ | ⟨seat, same, -⟩
        · exact pool
        · cases same
      refine ⟨fun next same => ?_, fun same => by cases same⟩
      cases same
      exact Nat.le_of_eq (by rw [load, load, pool, first, later])
    | done r =>
      cases r with
      | ok seat =>
        have pool : s'.pool = s.pool.enroll seat := by
          rcases Creation.movesPool moved with ⟨-, unmade⟩ | ⟨_, same, pool⟩
          · exact absurd rfl (unmade seat)
          · cases same
            exact pool
        refine ⟨fun next same => ?_, fun same => by cases same⟩
        cases same
        rw [load, load, pool, Pool.enroll, List.length_append, List.length_singleton, first, ended]
        omega
      | error e => exact ⟨fun next same => (by cases same), fun same => by cases same⟩
    | panicked => exact ⟨fun next same => (by cases same), fun same => by cases same⟩

theorem checkHeeds {staffing : Staffing} {mutants : List Mutant} {seat : Nat} {c u : CheckCrew}
    {h : Handling CheckWork} {n : Next (Handling CheckWork) (Except WorkerError Verdicts)}
    (move : (u, n) ∈ checkMoves staffing mutants seat h c) :
    Crew.Heeds h.tokens (n.elim Handling.tokens (fun _ => []) []) c u :=
  Machine.withinHeeds id Handling.tokens Handling.tokens move (fun _ _ => Handling.movesHeeds)
    (fun _ => rfl) fun _ _ => ⟨⟨rfl, rfl, rfl⟩, rfl⟩

namespace Stage
variable {stage : Stage} {plan : StagePlan} {v v' : StageView}
  {n : Next Stage (Except RunError Unit)}

theorem onSiteHeeds {φ ρ : Type} {m : Machine CheckSite φ ρ} {p : φ} {embed : φ → Stage}
    {after : ρ → StageView → StageView × Next Stage (Except RunError Unit)} (of : φ → List Nat)
    (last : CheckCrew → CheckCrew → ρ → Prop) (move : (v', n) ∈ (onSite m).within embed after p v)
    (inner : ∀ u o, (u, o) ∈ m p v.site →
      o.elim (fun q => Crew.Heeds (of p) (of q) v.site.crew u.crew) (last v.site.crew u.crew)
        (Crew.Leaves (of p) v.site.crew u.crew))
    (same : ∀ q, (embed q).tokens = of q)
    (still : ∀ r u, (after r u).1 = u ∧ ∀ c d, last c d r →
      Crew.Follows tokens (of p) (after r u).2 c d) :
    Crew.Follows tokens (of p) n v.site.crew v'.site.crew := by
  rcases Machine.withinCases move with ⟨q, moved, rfl⟩ | ⟨u, r, moved, result⟩ | ⟨moved, rfl⟩
  · obtain ⟨w, here, rfl⟩ := Machine.onCases moved
    rw [Crew.Follows, Next.elim, same]
    exact inner w _ here
  · obtain ⟨w, here, rfl⟩ := Machine.onCases moved
    obtain ⟨site, follows⟩ := still r (StageView.onSite.set w v)
    rw [← result] at site follows
    obtain rfl : v' = _ := site
    exact follows _ _ (inner w _ here)
  · obtain ⟨w, here, rfl⟩ := Machine.onCases moved
    exact inner w _ here

theorem notesQuiet (notes : List Note) (s : CheckSite) :
    s.crew.Quiet (notes.foldl Site.note s).crew := by
  induction notes generalizing s with
  | nil => exact ⟨rfl, rfl, rfl⟩
  | cons first rest ih =>
    obtain ⟨tokens, orders, answers⟩ := ih (s.note first)
    exact ⟨tokens, orders, answers⟩

theorem movesHeeds (move : (v', n) ∈ moves plan stage v) :
    Crew.Follows tokens stage.tokens n v.site.crew v'.site.crew := by
  have quiet {u : StageView} (site : v.site.crew.Quiet u.site.crew) (next : Stage)
      (tokens : next.tokens = stage.tokens) :
      Crew.Heeds stage.tokens next.tokens v.site.crew u.site.crew := tokens ▸ .same site
  have still {u : StageView} (site : v.site.crew.Quiet u.site.crew) :
      Crew.Leaves stage.tokens v.site.crew u.site.crew := (Crew.Heeds.same site).leaves (.refl _)
  cases stage with
  | draining batch =>
    obtain ⟨⟨input, found⟩, -, same⟩ := List.mem_map.mp move
    cases found with
    | some m => cases same; exact quiet ⟨rfl, rfl, rfl⟩ _ rfl
    | none =>
      simp only at same
      split at same
      · cases same; exact still ⟨rfl, rfl, rfl⟩
      · cases same; exact quiet ⟨rfl, rfl, rfl⟩ _ rfl
  | filling batch f =>
    refine onSiteHeeds Filling.tokens (Crew.Finishes f.tokens) move
      (fun _ _ => Filling.movesHeeds) (fun _ => rfl) fun r u => ?_
    cases r <;> exact ⟨rfl, fun _ _ => id⟩
  | activating batch b =>
    refine onSiteHeeds Broadcast.tokens (Crew.Finishes b.tokens) move
      (fun _ _ => Broadcast.tellHeeds) (fun _ => rfl) fun r u => ?_
    cases r <;> exact ⟨rfl, fun _ _ => id⟩
  | borrowing batch a =>
    refine onSiteHeeds Acquisition.tokens (fun c d _ => Crew.Heeds a.tokens [] c d) move
      (fun _ _ inner => (Acquisition.movesHeeds inner).ends) (fun _ => rfl) fun r u => ?_
    cases r with
    | ok got => exact ⟨rfl, fun _ _ => id⟩
    | error e => exact ⟨rfl, fun _ _ heeds => heeds.leaves List.nil_subperm⟩
  | asking batch ticket c =>
    exact onSiteHeeds Calling.tokens (fun d e _ => Crew.Heeds c.tokens [] d e) move
      (fun _ _ inner => (callMovesHeeds inner).ends) (fun _ => rfl) fun r u => ⟨rfl, fun _ _ => id⟩
  | returning batch ticket answer r =>
    refine onSiteHeeds (fun _ => []) (fun c d _ => Crew.Heeds [] [] c d) move (fun u o inner => ?_)
      (fun _ => rfl) fun _ u => ?_
    · rw [(Release.movesAlike inner).2]
      have same : Crew.Heeds [] [] v.site.crew v.site.crew := .same ⟨rfl, rfl, rfl⟩
      cases o with
      | panicked => exact same.leaves (.refl _)
      | _ => exact same
    · cases answer with
      | ok own => exact ⟨rfl, fun _ _ => id⟩
      | error e => exact ⟨rfl, fun _ _ heeds => heeds.leaves (.refl _)⟩
  | grouping batch own =>
    have noted : v.site.crew.Quiet ((groupsOf plan batch own).2.foldl StageView.note v).site.crew := by
      rw [notesSite]
      exact notesQuiet _ v.site
    simp only [moves] at move
    split at move
    · next gs _ =>
      obtain ⟨rfl, rfl⟩ := memStep.mp move
      exact quiet (u := StageView.note _ _) ⟨noted.tokens, noted.orders, noted.answers⟩
        (.checking (.ofList gs)) rfl
    · obtain ⟨rfl, rfl⟩ := memFinish.mp move
      exact still noted
  | checking f =>
    have heeds {u o} (inner : (u, o) ∈ Schedule.moves (schedulePlan plan) f v) :=
      Schedule.movedHeeds siteLawful (Stage.schedulePlanProper plan) rfl
        (fun _ _ _ _ _ _ => checkHeeds) (Schedule.movesMoved inner)
    rcases Machine.withinCases move with ⟨q, inner, rfl⟩ | ⟨u, ⟨y, g⟩, inner, same⟩ | ⟨inner, rfl⟩
    · exact heeds inner
    · have left : Crew.Leaves (f.tokens Handling.tokens) v.site.crew u.site.crew :=
        (heeds inner).leaves (Schedule.tokensDone _ (Schedule.movesMoved inner))
      cases y with
      | none => cases same; exact left
      | some y =>
        obtain ⟨group, result⟩ := y
        cases result with
        | error e => cases same; exact left
        | ok answer =>
          cases answer with
          | error e => cases same; exact left
          | ok verdicts => cases same; exact heeds inner
    · exact heeds inner
  | routing group verdicts f =>
    cases group with
    | nil =>
      obtain ⟨rfl, rfl⟩ := memStep.mp move
      exact quiet ⟨rfl, rfl, rfl⟩ _ rfl
    | cons m rest =>
      simp only [moves] at move
      split at move
      · obtain ⟨rfl, rfl⟩ := memFinish.mp move
        exact still ⟨rfl, rfl, rfl⟩
      · obtain ⟨⟨u, sent⟩, routed, same⟩ := List.mem_map.mp move
        have site : v.site.crew.Quiet u.site.crew := by rw [routeSite routed]; exact ⟨rfl, rfl, rfl⟩
        cases sent with
        | ok r => cases same; exact quiet site _ rfl
        | error e => cases same; exact still site

def load (members : Nat) : Stage → Nat
  | .filling _ f => f.load members
  | .activating _ b => b.load members
  | stage => permitsOf stage.stances

theorem tokensLoad (members : Nat) (stage : Stage) : stage.tokens.length ≤ stage.load members := by
  cases stage with
  | filling batch f => exact f.tokensLoad members
  | activating batch b => exact b.tokensLoad members
  | borrowing batch a => exact a.tokensPermits
  | asking batch ticket c => exact c.tokensFew
  | checking f => exact f.tokensPermits Handling.tokensFew
  | routing group verdicts f => exact f.tokensPermits Handling.tokensFew
  | _ => exact Nat.zero_le _

theorem load.mono {few many : Nat} (more : few ≤ many) (stage : Stage) :
    stage.load few ≤ stage.load many := by
  cases stage with
  | filling batch f =>
    cases f with
    | counting => exact Nat.le_refl _
    | creating members => exact Nat.add_le_add_right more _
  | activating batch b =>
    cases b with
    | listing => exact more
    | running members => exact Nat.le_refl _
  | _ => exact Nat.le_refl _

theorem Sound.load (sound : stage.Sound name active others s)
    (opened : s.pool.permits.closed = false) :
    stage.load s.pool.members.length ≤ s.pool.capacity := by
  have booked : permitsOf stage.stances ≤ s.pool.capacity := by
    rcases sound.booked with ⟨closed, -⟩ | kept
    · exact absurd (closed.symm.trans opened) (by decide)
    · exact Pool.Kept.bound kept
  cases stage with
  | filling batch f =>
    cases f with
    | counting => exact Nat.zero_le _
    | creating members => exact Nat.le_of_eq (sound.ready.room members rfl opened)
  | activating batch b =>
    obtain ⟨full, ready⟩ := sound.ready
    cases b with
    | listing => exact Nat.le_of_eq (full opened)
    | running members =>
      have all := (ready.members members rfl opened).length_eq
      refine Nat.le_trans (List.length_filterMap_le _ _) ?_
      rw [← all]
      exact Nat.le_of_eq (full opened)
  | _ => exact booked

theorem movesLoad (closed : v.site.pool.permits.closed = true) (move : (v', n) ∈ moves plan stage v) :
    ∀ next, n = .go next →
      next.load v'.site.pool.members.length ≤ stage.load v.site.pool.members.length := by
  rintro next rfl
  cases stage with
  | draining batch =>
    obtain ⟨⟨input, found⟩, -, same⟩ := List.mem_map.mp move
    cases found with
    | some m => cases same; exact Nat.le_refl _
    | none =>
      simp only at same
      split at same <;> cases same
      exact Nat.le_refl _
  | filling batch f =>
    rcases Machine.withinCases move with ⟨g, inner, same⟩ | ⟨u, r, inner, same⟩ | ⟨-, same⟩
    · cases same
      obtain ⟨w, moved, rfl⟩ := Machine.onCases inner
      exact (Filling.movesLoad closed moved).1 g rfl
    · obtain ⟨w, moved, rfl⟩ := Machine.onCases inner
      cases r with
      | ok r => cases same; exact (Filling.movesLoad closed moved).2 rfl
      | error e => cases same
    · cases same
  | activating batch b =>
    rcases Machine.withinCases move with ⟨g, inner, same⟩ | ⟨u, r, inner, same⟩ | ⟨-, same⟩
    · cases same
      obtain ⟨w, moved, rfl⟩ := Machine.onCases inner
      exact Broadcast.tellLoad moved _ rfl
    · cases r with
      | ok r => cases same; exact Nat.zero_le _
      | error e => cases same
    · cases same
  | borrowing batch a =>
    rcases Machine.withinCases move with ⟨g, inner, same⟩ | ⟨u, r, inner, same⟩ | ⟨-, same⟩
    · cases same
      obtain ⟨w, moved, rfl⟩ := Machine.onCases inner
      exact Acquisition.movesPermits closed moved
    · obtain ⟨w, moved, rfl⟩ := Machine.onCases inner
      cases r with
      | ok lent =>
        cases same
        exact Acquisition.movesPermits closed moved
      | error e => cases same
    · cases same
  | asking batch ticket c =>
    rcases Machine.withinCases move with ⟨g, -, same⟩ | ⟨u, r, -, same⟩ | ⟨-, same⟩
    · cases same
      exact Nat.le_refl _
    · cases same
      exact Nat.le_refl _
    · cases same
  | returning batch ticket answer r =>
    have one : (Stage.returning batch ticket answer r).load v.site.pool.members.length = 1 :=
      r.permits ticket
    rw [one]
    rcases Machine.withinCases move with ⟨g, -, same⟩ | ⟨u, o, -, same⟩ | ⟨-, same⟩
    · cases same
      exact Nat.le_of_eq (g.permits ticket)
    · cases answer <;> cases same
      exact Nat.zero_le _
    · cases same
  | grouping batch own =>
    simp only [moves] at move
    split at move
    · obtain ⟨-, same⟩ := memStep.mp move
      cases same
      exact Nat.zero_le _
    · cases (memFinish.mp move).2
  | checking f =>
    have less {u o} (inner : (u, o) ∈ Schedule.moves (schedulePlan plan) f v) :
        permitsOf (o.elim Schedule.stances (fun r => r.2.stances) f.stances) ≤
          permitsOf f.stances :=
      Schedule.movedPermits closed (Schedule.movesMoved inner)
    rcases Machine.withinCases move with ⟨g, inner, same⟩ | ⟨u, ⟨y, g⟩, inner, same⟩ | ⟨-, same⟩
    · cases same
      exact less inner
    · have less := less inner
      cases y with
      | none => cases same
      | some y =>
        obtain ⟨group, result⟩ := y
        cases result with
        | error e => cases same
        | ok answer =>
          cases answer with
          | error e => cases same
          | ok verdicts => cases same; exact less
    · cases same
  | routing group verdicts f =>
    cases group with
    | nil =>
      obtain ⟨-, same⟩ := memStep.mp move
      cases same
      exact Nat.le_refl _
    | cons m rest =>
      simp only [moves] at move
      split at move
      · cases (memFinish.mp move).2
      · obtain ⟨⟨u, sent⟩, routed, same⟩ := List.mem_map.mp move
        cases sent <;> cases same
        exact Nat.le_refl _

end Stage

end MutationPipeline
