import MutationPipeline.Proofs.Pool.Disposing
import MutationPipeline.Proofs.Pool.Founding

/-! Who joins a pool. Only workers that are made for it do, and each of them has a seat of its own; and
whoever makes one for somebody holds a permit, so for a closed pool nobody makes any. -/
namespace MutationPipeline
variable {W V σ α φ ρ : Type}

section Making

def Creation.making : Creation W → List Nat
  | .starting seat _ | .enrolling seat => [seat]
  | _ => []

def Acquisition.making : Acquisition W → List Nat
  | .creating _ c => c.making
  | _ => []

def Filling.making : Filling W → List Nat
  | .counting => []
  | .creating members => (Member.phases members).flatMap Creation.making

def Schedule.making (f : Schedule W α φ ρ) : List Nat :=
  match f.feed with
  | .acquiring _ a _ => a.making
  | _ => []

def Visitor.making : Visitor W V σ α φ ρ → List Nat
  | .acquiring a => a.making
  | .scheduling _ f => f.making
  | .filling f => f.making
  | _ => []

variable {s s' u : Site W V} {before after later : List Nat}

structure Site.Hires (s s' : Site W V) (before after : List Nat) : Prop where
  more : s.crew.seats.size ≤ s'.crew.seats.size
  joins : ∃ gained, s'.pool.members = s.pool.members ++ gained ∧ gained ⊆ before ∧
    (gained ++ after).Subperm
      (before ++ List.range' s.crew.seats.size (s'.crew.seats.size - s.crew.seats.size))

theorem Site.hiresNobody (members : s'.pool.members = s.pool.members)
    (more : s.crew.seats.size ≤ s'.crew.seats.size) (fewer : after.Subperm before) :
    s.Hires s' before after :=
  ⟨more, [], by rw [members, List.append_nil], List.nil_subset _,
    fewer.trans (List.sublist_append_left _ _).subperm⟩

theorem Site.hiresOne (members : s'.pool.members = s.pool.members)
    (more : s'.crew.seats.size = s.crew.seats.size + 1) : s.Hires s' [] [s.crew.seats.size] := by
  refine ⟨more ▸ Nat.le_succ _, [], by rw [members, List.append_nil], List.nil_subset _, ?_⟩
  rw [more, Nat.add_sub_cancel_left]
  exact .refl _

theorem Site.Hires.onward (hires : s.Hires s' before after)
    (members : u.pool.members = s'.pool.members)
    (more : s'.crew.seats.size ≤ u.crew.seats.size) (fewer : later.Subperm after) :
    s.Hires u before later := by
  obtain ⟨grown, gained, joined, own, made⟩ := hires
  refine ⟨Nat.le_trans grown more, gained, members.trans joined, own, ?_⟩
  refine ((List.subperm_append_left gained).mpr fewer).trans (made.trans ?_)
  refine (List.subperm_append_left before).mpr (List.Sublist.subperm ?_)
  rw [List.range'_eq_map_range, List.range'_eq_map_range]
  exact (List.range_sublist.mpr (by omega)).map _

theorem callMovesStill {call : Calling W} {n : Next (Calling W) (Except WorkerError V)}
    (move : (s', n) ∈ callMoves call s) :
    s'.pool.members = s.pool.members ∧ s.crew.seats.size ≤ s'.crew.seats.size := by
  obtain ⟨crew, moved, rfl⟩ := Machine.onCases move
  exact ⟨rfl, Nat.le_of_eq (congrArg Array.size (Calling.movesSeats moved)).symm⟩

theorem Creation.movesHires {holder : Option Nat} {c : Creation W}
    {n : Next (Creation W) (Except PoolError Nat)} (move : (s', n) ∈ Creation.moves holder c s) :
    s.Hires s' c.making (n.elim Creation.making (fun _ => []) []) := by
  cases c with
  | hiring =>
    obtain ⟨rfl, rfl⟩ := memStep.mp move
    exact Site.hiresOne rfl (Array.size_push _)
  | starting seat call =>
    rcases Machine.withinCases move with ⟨q, inner, rfl⟩ | ⟨u, r, inner, same⟩ | ⟨inner, rfl⟩
    · obtain ⟨members, more⟩ := callMovesStill inner
      exact Site.hiresNobody members more (.refl _)
    · obtain ⟨members, more⟩ := callMovesStill inner
      cases r with
      | ok x => cases same; exact Site.hiresNobody members more (.refl _)
      | error e => cases same; exact Site.hiresNobody members more List.nil_subperm
    · obtain ⟨members, more⟩ := callMovesStill inner
      exact Site.hiresNobody members more List.nil_subperm
  | clearing cause call =>
    rcases Machine.withinCases move with ⟨q, inner, rfl⟩ | ⟨u, r, inner, same⟩ | ⟨inner, rfl⟩
    · obtain ⟨members, more⟩ := callMovesStill inner
      exact Site.hiresNobody members more (.refl _)
    · obtain ⟨members, more⟩ := callMovesStill inner
      cases r <;> cases same <;> exact Site.hiresNobody members more (.refl _)
    · obtain ⟨members, more⟩ := callMovesStill inner
      exact Site.hiresNobody members more (.refl _)
  | enrolling seat =>
    obtain ⟨rfl, rfl⟩ := memFinish.mp move
    have joins : s.Hires (s.withPool (·.enroll seat)) [seat] [] :=
      ⟨Nat.le_refl _, [seat], rfl, List.Subset.refl _, (List.sublist_append_left _ _).subperm⟩
    cases holder with
    | none => exact joins
    | some ticket => exact joins.onward rfl (Nat.le_refl _) (.refl _)

theorem Acquisition.movesHires {a : Acquisition W}
    {n : Next (Acquisition W) (Except PoolError (Nat × Nat))}
    (move : (s', n) ∈ Acquisition.moves a s) :
    s.Hires s' a.making (n.elim Acquisition.making (fun _ => []) []) := by
  cases a with
  | asking =>
    obtain ⟨rfl, rfl⟩ := memStep.mp move
    exact Site.hiresNobody (s.pool.claimAlike 1).members (Nat.le_refl _) (.refl _)
  | waiting ticket =>
    simp only [Acquisition.moves] at move
    split at move
    · obtain ⟨rfl, rfl⟩ := memFinish.mp move
      exact Site.hiresNobody (s.pool.forgetAlike ticket).members (Nat.le_refl _) (.refl _)
    · split at move
      · obtain ⟨rfl, rfl⟩ := memStep.mp move
        exact Site.hiresNobody rfl (Nat.le_refl _) (.refl _)
      · cases move
  | choosing ticket =>
    simp only [Acquisition.moves] at move
    split at move
    · next pool seat found =>
      obtain ⟨rfl, rfl⟩ := memFinish.mp move
      exact Site.hiresNobody (Pool.seatIdleAlike found).1.members (Nat.le_refl _) (.refl _)
    · obtain ⟨rfl, rfl⟩ := memStep.mp move
      exact Site.hiresNobody rfl (Nat.le_refl _) (.refl _)
  | creating ticket c =>
    rcases Machine.withinCases move with ⟨q, inner, rfl⟩ | ⟨u, r, inner, same⟩ | ⟨inner, rfl⟩
    · exact Creation.movesHires inner
    · have hires := Creation.movesHires inner
      cases r <;> cases same <;> exact hires
    · exact Creation.movesHires inner
  | failing ticket cause =>
    obtain ⟨rfl, rfl⟩ := memFinish.mp move
    exact Site.hiresNobody (s.pool.freeAlike ticket).members (Nat.le_refl _) (.refl _)

theorem subpermBeside {gained fresh others xs ys : List Nat}
    (made : (gained ++ after).Subperm (before ++ fresh)) (own : xs.Perm (before ++ others))
    (fewer : ys.Subperm (after ++ others)) : (gained ++ ys).Subperm (xs ++ fresh) := by
  refine ((List.subperm_append_left gained).mpr fewer).trans ?_
  rw [← List.append_assoc]
  refine ((List.subperm_append_right others).mpr made).trans (List.Perm.subperm ?_)
  rw [List.append_assoc]
  refine (List.perm_append_comm.append_left before).trans ?_
  rw [← List.append_assoc]
  exact own.symm.append_right _

theorem Site.Hires.beside (hires : s.Hires s' before after) {xs ys others : List Nat}
    (own : xs.Perm (before ++ others)) (fewer : ys.Subperm (after ++ others)) :
    s.Hires s' xs ys := by
  obtain ⟨more, gained, joined, known, made⟩ := hires
  exact ⟨more, gained, joined, fun seat member => own.mem_iff.mpr
    (List.mem_append_left _ (known member)), subpermBeside made own fewer⟩

theorem Filling.makingFront (before rest : List (Member (Creation W) Nat))
    (m : Member (Creation W) Nat) :
    (Filling.creating (before ++ m :: rest)).making.Perm
      ((Filling.creating [m]).making ++ (Filling.creating (before ++ rest)).making) := by
  have front := (Member.phasesFront before rest m).flatMap_right Creation.making
  rwa [List.flatMap_append] at front

theorem Filling.movesHires {f : Filling W} {n : Next (Filling W) (Except PoolError Unit)}
    (move : (s', n) ∈ Filling.moves f s) :
    s.Hires s' f.making (n.elim Filling.making (fun _ => []) []) := by
  rcases movesCases move with ⟨rfl, rfl, rfl⟩ | ⟨rfl, -, rfl, rfl⟩ | ⟨seats, rfl, rfl, rfl⟩ |
    ⟨before, c, rest, o, rfl, moved, rfl⟩
  · exact Site.hiresNobody rfl (Nat.le_refl _) (.refl _)
  · have none : (Filling.creating
        (List.replicate s'.pool.missing (.running .hiring)) : Filling W).making = [] := by
      simp [Filling.making, Member.phases, Creation.making]
    rw [Next.elim, none]
    exact Site.hiresNobody rfl (Nat.le_refl _) (.refl _)
  · exact Site.hiresNobody rfl (Nat.le_refl _) List.nil_subperm
  · have hires := Creation.movesHires moved
    have own : (Filling.creating (before ++ .running c :: rest)).making.Perm
        (c.making ++ (Filling.creating (before ++ rest)).making) := by
      have front := makingFront before rest (.running c)
      simpa [Filling.making, Member.phases] using front
    refine hires.beside own ?_
    cases o with
    | go d =>
      have front := makingFront before rest (.running d)
      simpa [filled, Next.elim, Filling.making, Member.phases] using front.subperm
    | done r =>
      cases r with
      | ok seat => exact (makingFront before rest (.ended seat)).subperm
      | error e => exact List.nil_subperm
    | panicked => exact List.nil_subperm

theorem Schedule.movedHires {plan : Plan W V σ α φ ρ} {site : Part σ (Site W V)}
    {f : Schedule W α φ ρ} {t t' : σ}
    {n : Next (Schedule W α φ ρ) (Option (Yield α ρ) × Schedule W α φ ρ)} (lawful : site.Lawful)
    (proper : plan.Proper site) (move : Moved plan f t t' n) :
    (site.get t).Hires (site.get t') f.making (n.elim making (fun r => r.2.making) []) := by
  obtain ⟨rfl, aloof, stays⟩ := proper
  have fed {item a known} (feed : f.feed = .acquiring item a known) : f.making = a.making := by
    rw [making, feed]
  have worked {crew : Crew W V} {g : Schedule W α φ ρ} (feed : g.feed = f.feed)
      (more : (plan.site.get t).crew.seats.size ≤ crew.seats.size) :
      (plan.site.get t).Hires
        (plan.site.get (plan.site.set { plan.site.get t with crew } t)) f.making g.making := by
    rw [lawful]
    refine Site.hiresNobody rfl more ?_
    rw [making, feed]
    exact .refl _
  have released {u : Site W V} {b : Release} {ticket : Nat} {o}
      (moved : (u, o) ∈ Release.moves ticket b (plan.site.get t)) :
      (plan.site.get t).Hires (plan.site.get (plan.site.set u t)) f.making f.making := by
    obtain ⟨alike, crew⟩ := Release.movesAlike moved
    rw [lawful]
    exact Site.hiresNobody alike.members (Nat.le_of_eq (by rw [crew])) (.refl _)
  cases move with
  | ended dry empty => exact Site.hiresNobody rfl (Nat.le_refl _) (.refl _)
  | offer feed =>
    exact Site.hiresNobody rfl (Nat.le_refl _) List.nil_subperm
  | pull feed more =>
    rw [aloof _ _ _ more]
    exact Site.hiresNobody rfl (Nat.le_refl _) List.nil_subperm
  | dry feed more =>
    rw [aloof _ _ _ more]
    exact Site.hiresNobody rfl (Nat.le_refl _) List.nil_subperm
  | acquire feed move =>
    rw [lawful, fed feed]
    exact Acquisition.movesHires move
  | send feed move =>
    rw [lawful, fed feed]
    exact Acquisition.movesHires move
  | refuse feed move =>
    rw [lawful, fed feed]
    exact Acquisition.movesHires move
  | feedBreaks feed move =>
    rw [lawful, fed feed]
    exact Acquisition.movesHires move
  | reject flights => exact Site.hiresNobody rfl (Nat.le_refl _) (.refl _)
  | work flights move => exact worked rfl (stays _ _ _ _ _ _ move)
  | answer flights move => exact worked rfl (stays _ _ _ _ _ _ move)
  | workBreaks flights move =>
    exact (worked (g := f) rfl (stays _ _ _ _ _ _ move)).onward rfl (Nat.le_refl _)
      List.nil_subperm
  | release flights move => exact released move
  | land flights move => exact released move

end Making

theorem Visitor.Attends.makesNone {site : Part σ (Site W V)} {p : Pool}
    {v : Visitor W V σ α φ ρ} (attends : v.Attends site p) (vacant : Vacant v.stances) :
    v.making = [] := by
  have acquires {a : Acquisition W} (vacant : Vacant a.stances) : a.making = [] := by
    cases a with
    | creating ticket c => cases c <;> cases vacant
    | _ => rfl
  cases v with
  | acquiring a => exact acquires vacant
  | scheduling plan f =>
    have fed := (Vacant.append.mp vacant).1
    rw [Visitor.making, Schedule.making]
    split
    · next feed =>
      rw [feed] at fed
      exact acquires fed
    · rfl
  | filling f => exact attends.elim
  | _ => rfl

theorem Traffic.Shared.makesNone {site : Part σ (Site W V)} {t : Traffic W V σ α φ ρ}
    (shared : t.Shared site)
    (few : (site.get t.state).pool.capacity ≤ mostAwaited)
    (closed : (site.get t.state).pool.permits.closed = true) :
    ∀ v ∈ t.visitors, v.making = [] := by
  intro v member
  rcases shared.accounts few with kept | drained
  · rw [kept.counted.opened] at closed
    cases closed
  · obtain ⟨before, after, here⟩ := List.append_of_mem member
    have vacant := drained.vacant
    rw [here] at vacant
    have own := (Vacant.append.mp (vacant.perm (stancesFront before after v))).1
    exact (shared.attend v member).makesNone own

end MutationPipeline
