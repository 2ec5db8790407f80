import MutationPipeline.Proofs.Pool.Joining
import MutationPipeline.Proofs.Pool.Shut

/-!
What becomes of the workers of a pool that is disposed, by whomever and however often. Each of them
has joined the pool once; whoever comes to dispose it takes all that are there, and what one has taken
nobody else finds. From then on the pool hands out no worker.
-/
namespace MutationPipeline
variable {W V σ α φ ρ : Type}

/-- What somebody who disposes a pool has done: the seats whose workers it took, if it has come to
them, those whose workers it has begun to dispose, and how that ended, without or with a failure. -/
structure Clearance where
  taken : Option (List Nat) := none
  begun : List Nat := []
  answers : List (Option WorkerError) := []

namespace Clearance

def share (c : Clearance) : List Nat := c.taken.getD []

def verdict (c : Clearance) : Except WorkerError Unit :=
  match c.answers.findSome? id with
  | some e => .error e
  | none => .ok ()

end Clearance

def Calling.failure? (crew : Crew W V) : Calling W → Option WorkerError
  | .waiting token => match crew.answers.lookup token with
    | some (.failed e) => some e
    | _ => none
  | .ready .. => none

def Disposal.noted (crew : Crew W V) (c : Clearance) : Disposal W → Disposal W → Clearance
  | .clearing, .disposing none seats _ => { c with taken := some seats }
  | .disposing none (seat :: _) _, .disposing (some (.ready worker .dispose)) _ _ =>
    if worker = crew.occupant seat then { c with begun := c.begun ++ [seat] } else c
  | .disposing (some call) _ _, .disposing none _ _ =>
    { c with answers := c.answers ++ [call.failure? crew] }
  | _, _ => c

def Visitor.noted (crew : Crew W V) (c : Clearance) :
    Visitor W V σ α φ ρ → Visitor W V σ α φ ρ → Clearance
  | .disposing d, .disposing e => d.noted crew c e
  | _, _ => c

/-- All that has gone on at a pool, with the seats of the workers in the order in which they joined
it, and what each visitor has done to dispose it. A worker counts as made for the pool when it has
started and joins it; one that fails to start never belongs to the pool. -/
structure Annals (W V σ α φ ρ : Type) where
  traffic : Traffic W V σ α φ ρ
  joined : List Nat := []
  clearances : List Clearance := []

namespace Annals

def noted (crew : Crew W V) : List (Visitor W V σ α φ ρ) → List (Visitor W V σ α φ ρ) →
    List Clearance → List Clearance
  | v :: visitors, w :: later, c :: clearances =>
    v.noted crew c w :: noted crew visitors later clearances
  | _, later, _ => later.map fun _ => {}

def after (site : Part σ (Site W V)) (a : Annals W V σ α φ ρ) (u : Traffic W V σ α φ ρ) :
    Annals W V σ α φ ρ where
  traffic := u
  joined := a.joined ++
    (site.get u.state).pool.members.drop (site.get a.traffic.state).pool.members.length
  clearances :=
    noted (site.get a.traffic.state).crew a.traffic.visitors u.visitors a.clearances

inductive Run (site : Part σ (Site W V))
    (goes : Traffic W V σ α φ ρ → Traffic W V σ α φ ρ → Prop) :
    Annals W V σ α φ ρ → Annals W V σ α φ ρ → Prop where
  | refl (a) : Run site goes a a
  | tail {a b u} (run : Run site goes a b) (step : goes b.traffic u) :
      Run site goes a (b.after site u)

def begun (a : Annals W V σ α φ ρ) : List Nat := a.clearances.flatMap (·.begun)

end Annals

namespace Disposal
variable {s s' : Site W V} {d : Disposal W} {c : Clearance}
  {n : Next (Disposal W) (Except WorkerError Unit)}

/-- Before it has come to the workers it has done nothing, and then it has begun to dispose those in
front, and all but the one it waits for were answered. -/
def Clears (c : Clearance) : Disposal W → Prop
  | .disposing call rest first =>
    c.taken = some (c.begun ++ rest) ∧ c.answers.length + call.toList.length = c.begun.length ∧
      first = c.answers.findSome? id
  | _ => c = {}

/-- In the end all that were taken were disposed. -/
structure Over (c : Clearance) (r : Except WorkerError Unit) : Prop where
  all : c.begun = c.share
  answered : c.answers.length = c.begun.length
  verdict : r = c.verdict

theorem answerFailure {call : Calling W} {crew crew' : Crew W V} {r : Except WorkerError V}
    (move : (crew', .done r) ∈ Calling.moves call crew) :
    (∀ v, r = .ok v → call.failure? crew = none) ∧
      ∀ e, r = .error e → call.failure? crew = some e := by
  cases call with
  | ready worker call => cases (memStep.mp move).2
  | waiting token =>
    simp only [Calling.moves] at move
    split at move
    · cases move
    · next v found =>
      cases (memFinish.mp move).2
      simp [Calling.failure?, found]
    · next e found =>
      cases (memFinish.mp move).2
      simp [Calling.failure?, found]
    · simp at move

theorem movesClears (clears : d.Clears c) (move : (s', n) ∈ Disposal.moves d s) :
    n.elim (fun e => e.Clears (d.noted s.crew c e)) (Over c) True := by
  cases d with
  | asking =>
    obtain rfl := clears
    simp only [Disposal.moves] at move
    split at move
    · obtain ⟨rfl, rfl⟩ := memFinish.mp move
      exact ⟨rfl, rfl, rfl⟩
    · obtain ⟨rfl, rfl⟩ := memStep.mp move
      rfl
  | waiting ticket wanted =>
    obtain rfl := clears
    simp only [Disposal.moves] at move
    split at move
    · obtain ⟨rfl, rfl⟩ := memStep.mp move
      rfl
    · split at move
      · obtain ⟨rfl, rfl⟩ := memStep.mp move
        rfl
      · cases move
  | closing ticket =>
    obtain rfl := clears
    obtain ⟨rfl, rfl⟩ := memStep.mp move
    rfl
  | freeing ticket =>
    obtain rfl := clears
    obtain ⟨rfl, rfl⟩ := memStep.mp move
    rfl
  | clearing =>
    obtain rfl := clears
    obtain ⟨rfl, rfl⟩ := memStep.mp move
    exact ⟨rfl, rfl, rfl⟩
  | disposing call rest first =>
    obtain ⟨taken, answered, rfl⟩ := clears
    cases call with
    | none =>
      cases rest with
      | nil =>
        obtain ⟨rfl, rfl⟩ := memFinish.mp move
        refine ⟨?_, answered, rfl⟩
        rw [Clearance.share, taken, List.append_nil]
        rfl
      | cons seat rest =>
        obtain ⟨rfl, rfl⟩ := memStep.mp move
        simp only [Next.elim, noted, if_true]
        refine ⟨?_, ?_, rfl⟩
        · rw [taken, List.append_assoc]
          rfl
        · simpa using answered
    | some call =>
      have length : c.answers.length + 1 = c.begun.length := answered
      rcases Machine.withinCases move with ⟨q, inner, rfl⟩ | ⟨u, r, inner, same⟩ | ⟨inner, rfl⟩
      · exact ⟨taken, answered, rfl⟩
      · obtain ⟨crew, moved, rfl⟩ := Machine.onCases inner
        have first (x : Option WorkerError) : (c.answers ++ [x]).findSome? id =
            (c.answers.findSome? id).or x := by
          rw [List.findSome?_append]
          cases x <;> rfl
        cases r with
        | ok v =>
          cases same
          have failure : call.failure? s.crew = none := (answerFailure moved).1 v rfl
          refine ⟨taken, ?_, ?_⟩
          · simpa [noted] using length
          · simp only [noted, failure, first, Option.or_none]
        | error e =>
          cases same
          have failure : call.failure? s.crew = some e := (answerFailure moved).2 e rfl
          refine ⟨taken, ?_, ?_⟩
          · simpa [noted] using length
          · simp only [noted, failure, first]
            cases c.answers.findSome? id <;> rfl
      · trivial

theorem notedTaken {e : Disposal W} (crew : Crew W V) (other : d ≠ .clearing) :
    (d.noted crew c e).taken = c.taken := by
  unfold noted
  split
  · exact absurd rfl other
  · split <;> rfl
  · rfl
  · rfl

theorem movesMembers (other : d ≠ .clearing) (move : (s', n) ∈ Disposal.moves d s) :
    s'.pool.members = s.pool.members ∧ s'.crew.seats = s.crew.seats := by
  cases d with
  | asking =>
    simp only [Disposal.moves] at move
    split at move
    · obtain ⟨rfl, -⟩ := memFinish.mp move
      exact ⟨rfl, rfl⟩
    · obtain ⟨rfl, -⟩ := memStep.mp move
      exact ⟨(s.pool.claimAlike _).members, rfl⟩
  | waiting ticket wanted =>
    simp only [Disposal.moves] at move
    split at move
    · obtain ⟨rfl, -⟩ := memStep.mp move
      exact ⟨rfl, rfl⟩
    · split at move
      · obtain ⟨rfl, -⟩ := memStep.mp move
        exact ⟨rfl, rfl⟩
      · cases move
  | closing ticket =>
    obtain ⟨rfl, -⟩ := memStep.mp move
    exact ⟨rfl, rfl⟩
  | freeing ticket =>
    obtain ⟨rfl, -⟩ := memStep.mp move
    exact ⟨(s.pool.freeAlike ticket).members, rfl⟩
  | clearing => exact absurd rfl other
  | disposing call rest first =>
    obtain ⟨pool, seats, -⟩ := disposingCases move
    exact ⟨congrArg Pool.members pool, seats⟩

end Disposal

/-- What a step does to the members of the pool, to those who are being made and to the clearance of
the one who takes it: some that were being made join, or all members are taken. -/
structure Site.Shifts (s s' : Site W V) (before after : List Nat) (c c' : Clearance) : Prop where
  more : s.crew.seats.size ≤ s'.crew.seats.size
  joins : ∃ gained, gained ⊆ before ∧
    (gained ++ after).Subperm
      (before ++ List.range' s.crew.seats.size (s'.crew.seats.size - s.crew.seats.size)) ∧
    ((s'.pool.members = s.pool.members ++ gained ∧ c'.taken = c.taken) ∨
      (s'.pool.members = [] ∧ gained = [] ∧ c.taken = none ∧ c'.taken = some s.pool.members))

theorem Site.Hires.shifts {s s' : Site W V} {before after : List Nat} {c c' : Clearance}
    (hires : s.Hires s' before after) (same : c'.taken = c.taken) :
    s.Shifts s' before after c c' := by
  obtain ⟨more, gained, joined, own, made⟩ := hires
  exact ⟨more, gained, own, made, .inl ⟨joined, same⟩⟩

theorem Disposal.movesShifts {s s' : Site W V} {d : Disposal W} {c : Clearance}
    {n : Next (Disposal W) (Except WorkerError Unit)} (clears : d.Clears c)
    (move : (s', n) ∈ Disposal.moves d s) :
    n.elim (fun e => s.Shifts s' [] [] c (d.noted s.crew c e)) (fun _ => s.Hires s' [] [])
      (s.Hires s' [] []) := by
  by_cases clearing : d = .clearing
  · subst clearing
    obtain rfl := clears
    obtain ⟨rfl, rfl⟩ := memStep.mp move
    exact ⟨Nat.le_refl _, [], List.nil_subset _, List.nil_subperm, .inr ⟨rfl, rfl, rfl, rfl⟩⟩
  · obtain ⟨members, seats⟩ := movesMembers clearing move
    have hires : s.Hires s' [] [] :=
      Site.hiresNobody members (Nat.le_of_eq (by rw [seats])) (.refl _)
    cases n with
    | go e => exact hires.shifts (notedTaken _ clearing)
    | _ => exact hires

namespace Visitor
variable {site : Part σ (Site W V)} {t t' : σ} {v w : Visitor W V σ α φ ρ} {c : Clearance}
  {n : Next (Visitor W V σ α φ ρ) Empty}

def Clears (c : Clearance) : Visitor W V σ α φ ρ → Prop
  | .disposing d => d.Clears c
  | .disposed r => Disposal.Over c r
  | .ended => c.begun <+: c.share
  | _ => c = {}

theorem Clears.begun (clears : v.Clears c) : c.begun <+: c.share := by
  cases v with
  | disposing d =>
    cases d with
    | disposing call rest first =>
      refine ⟨rest, ?_⟩
      rw [Clearance.share, clears.1]
      rfl
    | _ => cases clears; exact List.prefix_rfl
  | disposed r => exact clears.all ▸ List.prefix_rfl
  | ended => exact clears
  | _ => cases clears; exact List.prefix_rfl

theorem notedSelf (crew : Crew W V) (v : Visitor W V σ α φ ρ) : v.noted crew c v = c := by
  cases v with
  | disposing d =>
    cases d with
    | disposing call rest first => cases call <;> cases rest <;> rfl
    | _ => rfl
  | _ => rfl

theorem notedEnded (crew : Crew W V) (v : Visitor W V σ α φ ρ) : v.noted crew c .ended = c := by
  cases v <;> rfl

theorem onHires {s' : σ} {before after : List Nat} {u : Site W V} (lawful : site.Lawful)
    (same : s' = site.set u t) (hires : (site.get t).Hires u before after) :
    (site.get t).Hires (site.get s') before after := by
  rwa [same, lawful]

theorem movesHires (lawful : site.Lawful) (proper : v.Proper site) (clears : v.Clears c)
    (idle : ∀ d, v ≠ .disposing d) (move : (t', n) ∈ v.moves site t) :
    (site.get t).Hires (site.get t') v.making (n.elim making Empty.elim []) ∧
      ∀ w, n = .go w → w.Clears c := by
  cases v with
  | acquiring a =>
    obtain rfl := clears
    rcases Machine.withinCases move with ⟨b, inner, rfl⟩ | ⟨u, r, inner, same⟩ | ⟨inner, rfl⟩
    · obtain ⟨u, moved, rfl⟩ := Machine.onCases inner
      refine ⟨?_, fun w go => by cases go; rfl⟩
      exact onHires lawful rfl (Acquisition.movesHires moved)
    · obtain ⟨u, moved, rfl⟩ := Machine.onCases inner
      have hires := onHires lawful rfl (Acquisition.movesHires moved)
      cases r with
      | ok lease =>
        cases same
        exact ⟨hires, fun w go => by cases go; rfl⟩
      | error e =>
        cases same
        exact ⟨hires, fun w go => by cases go; exact List.prefix_rfl⟩
    · obtain ⟨u, moved, rfl⟩ := Machine.onCases inner
      exact ⟨onHires lawful rfl (Acquisition.movesHires moved), nofun⟩
  | holding ticket seat =>
    obtain rfl := clears
    obtain ⟨rfl, rfl⟩ := memStep.mp move
    exact ⟨Site.hiresNobody rfl (Nat.le_refl _) (.refl _),
      fun w go => by cases go; rfl⟩
  | releasing ticket r =>
    obtain rfl := clears
    have still {u : Site W V} {o} (moved : (u, o) ∈ Release.moves ticket r (site.get t)) :
        (site.get t).Hires (site.get (site.set u t)) [] [] := by
      obtain ⟨alike, crew⟩ := Release.movesAlike moved
      exact onHires lawful rfl
        (Site.hiresNobody alike.members (Nat.le_of_eq (by rw [crew])) (.refl _))
    rcases Machine.withinCases move with ⟨b, inner, rfl⟩ | ⟨u, r, inner, same⟩ | ⟨inner, rfl⟩
    · obtain ⟨u, moved, rfl⟩ := Machine.onCases inner
      exact ⟨still moved, fun w go => by cases go; rfl⟩
    · obtain ⟨u, moved, rfl⟩ := Machine.onCases inner
      cases same
      exact ⟨still moved, fun w go => by cases go; exact List.prefix_rfl⟩
    · obtain ⟨u, moved, rfl⟩ := Machine.onCases inner
      exact ⟨still moved, nofun⟩
  | scheduling plan f =>
    obtain rfl := clears
    rcases Machine.withinCases move with ⟨g, inner, rfl⟩ | ⟨u, ⟨y, g⟩, inner, same⟩ | ⟨inner, rfl⟩
    · refine ⟨Schedule.movedHires lawful proper (Schedule.movesMoved inner), ?_⟩
      exact fun w go => by cases go; rfl
    · have hires := Schedule.movedHires lawful proper (Schedule.movesMoved inner)
      cases y with
      | some y =>
        cases same
        exact ⟨hires, fun w go => by cases go; rfl⟩
      | none =>
        cases same
        refine ⟨hires.onward rfl (Nat.le_refl _) List.nil_subperm, ?_⟩
        exact fun w go => by cases go; exact List.prefix_rfl
    · exact ⟨Schedule.movedHires lawful proper (Schedule.movesMoved inner), nofun⟩
  | filling f =>
    obtain rfl := clears
    rcases Machine.withinCases move with ⟨g, inner, rfl⟩ | ⟨u, r, inner, same⟩ | ⟨inner, rfl⟩
    · obtain ⟨u, moved, rfl⟩ := Machine.onCases inner
      refine ⟨?_, fun w go => by cases go; rfl⟩
      exact onHires lawful rfl (Filling.movesHires moved)
    · obtain ⟨u, moved, rfl⟩ := Machine.onCases inner
      cases same
      refine ⟨?_, fun w go => by cases go; rfl⟩
      rw [Part.update, lawful, lawful]
      refine (Filling.movesHires moved).onward rfl ?_ (.refl _)
      exact Nat.le_of_eq (by rw [Site.vacate, Crew.abandonAllSeats])
    · obtain ⟨u, moved, rfl⟩ := Machine.onCases inner
      exact ⟨onHires lawful rfl (Filling.movesHires moved), nofun⟩
  | disposing d => exact absurd rfl (idle d)
  | _ => cases move

theorem movesShifts (lawful : site.Lawful) (proper : v.Proper site) (clears : v.Clears c)
    (move : (t', n) ∈ v.moves site t) :
    (∀ w, n = .go w → w.Clears (v.noted (site.get t).crew c w) ∧
      (site.get t).Shifts (site.get t') v.making w.making c (v.noted (site.get t).crew c w)) ∧
    (n = .panicked → (site.get t).Hires (site.get t') v.making []) := by
  by_cases idle : ∀ d, v ≠ .disposing d
  · obtain ⟨hires, again⟩ := movesHires lawful proper clears idle move
    refine ⟨?_, fun broken => by cases broken; exact hires⟩
    rintro w rfl
    have noted : v.noted (site.get t).crew c w = c := by
      cases v with
      | disposing d => exact absurd rfl (idle d)
      | _ => rfl
    rw [noted]
    exact ⟨again w rfl, hires.shifts rfl⟩
  · obtain ⟨d, same⟩ := Classical.not_forall.mp idle
    obtain rfl := Classical.not_not.mp same
    rcases Machine.withinCases move with ⟨e, inner, rfl⟩ | ⟨u, r, inner, same⟩ | ⟨inner, rfl⟩
    · obtain ⟨u, moved, rfl⟩ := Machine.onCases inner
      refine ⟨fun w go => ?_, fun broken => by cases broken⟩
      cases go
      rw [lawful]
      exact ⟨Disposal.movesClears clears moved, Disposal.movesShifts clears moved⟩
    · obtain ⟨u, moved, rfl⟩ := Machine.onCases inner
      cases same
      refine ⟨fun w go => ?_, fun broken => by cases broken⟩
      cases go
      have hires := onHires lawful rfl (Disposal.movesShifts clears moved)
      exact ⟨Disposal.movesClears clears moved, hires.shifts rfl⟩
    · obtain ⟨u, moved, rfl⟩ := Machine.onCases inner
      refine ⟨fun w go => (by cases go), fun _ => ?_⟩
      exact onHires lawful rfl (Disposal.movesShifts clears moved)

theorem notedTaken (crew : Crew W V) (other : v ≠ .disposing .clearing) :
    (v.noted crew c w).taken = c.taken := by
  unfold noted
  split
  · next d e => exact Disposal.notedTaken crew fun clearing => other (congrArg disposing clearing)
  · rfl

structure Turns (site : Part σ (Site W V)) (t t' : σ) (v w : Visitor W V σ α φ ρ) (c : Clearance) :
    Prop where
  proper : w.Proper site
  clears : w.Clears (v.noted (site.get t).crew c w)
  shifts : (site.get t).Shifts (site.get t') v.making w.making c (v.noted (site.get t).crew c w)

end Visitor

namespace Annals
variable {site : Part σ (Site W V)} {of : φ → List Nat} {a b : Annals W V σ α φ ρ}
  {before after : List (Visitor W V σ α φ ρ)} {v w : Visitor W V σ α φ ρ}

section Noted
variable {crew : Crew W V} {visitors later : List (Visitor W V σ α φ ρ)}
  {front clearances : List Clearance}

theorem notedFront (each : before.length = front.length) :
    noted crew (before ++ visitors) (before ++ later) (front ++ clearances) =
      front ++ noted crew visitors later clearances := by
  induction before generalizing front with
  | nil => rw [List.length_eq_zero_iff.mp each.symm]; rfl
  | cons v before ih =>
    cases front with
    | nil => cases each
    | cons c front =>
      simp only [List.cons_append, noted, v.notedSelf, ih (Nat.succ.inj each)]

theorem notedSame (each : before.length = front.length) : noted crew before before front = front := by
  have same : noted crew (before ++ []) (before ++ []) (front ++ []) = front ++ noted crew [] [] [] :=
    notedFront each
  simpa [noted] using same

end Noted

structure Roll (shares : List (List Nat)) (members joined : List Nat) : Prop where
  whole : (shares.flatten ++ members).Perm joined
  last : members <:+ joined
  ordered : ∀ share ∈ shares, share <:+: joined

namespace Roll
variable {shares front back : List (List Nat)} {members joined : List Nat}

theorem gain (roll : Roll shares members joined) (gained : List Nat) :
    Roll shares (members ++ gained) (joined ++ gained) where
  whole := by
    rw [← List.append_assoc]
    exact roll.whole.append_right gained
  last := by
    obtain ⟨earlier, rfl⟩ := roll.last
    exact ⟨earlier, (List.append_assoc ..).symm⟩
  ordered share member := (roll.ordered share member).trans (List.prefix_append _ _).isInfix

theorem take (roll : Roll (front ++ [] :: back) members joined) :
    Roll (front ++ members :: back) [] joined where
  whole := by
    have whole := roll.whole
    rw [List.flatten_append, List.flatten_cons, List.nil_append, List.append_assoc] at whole
    rw [List.flatten_append, List.flatten_cons, List.append_nil]
    exact (List.perm_append_comm.append_left front.flatten).trans whole
  last := List.nil_suffix
  ordered share member := by
    rcases List.mem_cons.mp (List.perm_middle.mem_iff.mp member) with rfl | other
    · exact roll.last.isInfix
    · exact roll.ordered share (List.perm_middle.mem_iff.mpr (List.mem_cons_of_mem _ other))

theorem enter (roll : Roll shares members joined) : Roll (shares ++ [[]]) members joined where
  whole := by
    rw [List.flatten_append, List.flatten_singleton, List.append_nil]
    exact roll.whole
  last := roll.last
  ordered := List.forall_mem_append.mpr
    ⟨roll.ordered, List.forall_mem_singleton.mpr List.nil_infix⟩

end Roll

theorem apartMore {old new : List Nat} {n m : Nat} (apart : old.Nodup) (known : ∀ seat ∈ old, seat < n)
    (more : n ≤ m) (fewer : new.Subperm (old ++ List.range' n (m - n))) :
    new.Nodup ∧ ∀ seat ∈ new, seat < m := by
  refine ⟨subpermNodup fewer ?_, fun seat member => ?_⟩
  · refine List.nodup_append.mpr ⟨apart, List.nodup_range', fun x before y added => ?_⟩
    have below := known x before
    have above := (List.mem_range'_1.mp added).1
    omega
  · rcases List.mem_append.mp (fewer.subset member) with before | added
    · exact Nat.lt_of_lt_of_le (known seat before) more
    · have below := (List.mem_range'_1.mp added).2
      omega

structure Sound (site : Part σ (Site W V)) (a : Annals W V σ α φ ρ) : Prop where
  each : List.Forall₂ (fun (v : Visitor W V σ α φ ρ) c => v.Proper site ∧ v.Clears c)
    a.traffic.visitors a.clearances
  roll : Roll (a.clearances.map Clearance.share) (site.get a.traffic.state).pool.members a.joined
  apart : (a.joined ++ a.traffic.visitors.flatMap Visitor.making).Nodup
  known : ∀ seat ∈ a.joined ++ a.traffic.visitors.flatMap Visitor.making,
    seat < (site.get a.traffic.state).crew.seats.size

theorem Sound.place (sound : a.Sound site) (here : a.traffic.visitors = before ++ v :: after) :
    ∃ front c back, a.clearances = front ++ c :: back ∧ v.Proper site ∧ v.Clears c ∧
      (∀ s w, (a.after site ⟨s, before ++ w :: after⟩).clearances =
        front ++ v.noted (site.get a.traffic.state).crew c w :: back) ∧
      ∀ w d, w.Proper site → w.Clears d →
        List.Forall₂ (fun (v : Visitor W V σ α φ ρ) c => v.Proper site ∧ v.Clears c)
          (before ++ w :: after) (front ++ d :: back) := by
  have each := sound.each
  rw [here] at each
  obtain ⟨front, c, back, whole, first, ⟨proper, clears⟩, rest⟩ := forall₂Split each.flip
  refine ⟨front, c, back, whole, proper, clears, fun s w => ?_, fun w d proper clears => ?_⟩
  · rw [Annals.after, here, whole, notedFront first.length_eq.symm, noted,
      notedSame rest.length_eq.symm]
  · exact List.rel_append first.flip (.cons ⟨proper, clears⟩ rest.flip)

theorem Sound.goes (sound : a.Sound site) (here : a.traffic.visitors = before ++ v :: after) {s : σ}
    (turn : ∀ c, v.Proper site → v.Clears c → Visitor.Turns site a.traffic.state s v w c) :
    Sound site (a.after site ⟨s, before ++ w :: after⟩) := by
  obtain ⟨front, c, back, whole, proper, clears, noted, each⟩ := sound.place here
  obtain ⟨-, roll, apart, known⟩ := sound
  obtain ⟨proper, clears, more, gained, own, made, members⟩ := turn c proper clears
  rw [here] at apart known
  rw [whole, List.map_append, List.map_cons] at roll
  have joined : (a.after site ⟨s, before ++ w :: after⟩).joined = a.joined ++ gained := by
    rcases members with ⟨same, -⟩ | ⟨none, rfl, -⟩
    · rw [Annals.after, same, List.drop_left]
    · rw [Annals.after, none, List.drop_nil]
  have making (x : Visitor W V σ α φ ρ) : ((before ++ x :: after).flatMap Visitor.making).Perm
      (x.making ++ (before ++ after).flatMap Visitor.making) := List.perm_middle.flatMap_right _
  have fewer : (a.joined ++ gained ++ (before ++ w :: after).flatMap Visitor.making).Subperm
      (a.joined ++ (before ++ v :: after).flatMap Visitor.making ++
        List.range' (site.get a.traffic.state).crew.seats.size
          ((site.get s).crew.seats.size - (site.get a.traffic.state).crew.seats.size)) := by
    rw [List.append_assoc, List.append_assoc]
    exact (List.subperm_append_left a.joined).mpr
      (subpermBeside made (making v) (making w).subperm)
  obtain ⟨distinct, bounded⟩ := apartMore apart known more fewer
  refine ⟨noted s w ▸ each w _ proper clears, ?_, joined ▸ distinct, joined ▸ bounded⟩
  rw [noted, joined, List.map_append, List.map_cons]
  rcases members with ⟨same, taken⟩ | ⟨none, rfl, untaken, taken⟩
  · have own : (v.noted (site.get a.traffic.state).crew c w).share = c.share :=
      congrArg (·.getD []) taken
    rw [own, Annals.after, same]
    exact roll.gain gained
  · have own : (v.noted (site.get a.traffic.state).crew c w).share =
        (site.get a.traffic.state).pool.members := congrArg (·.getD []) taken
    have nothing : c.share = [] := congrArg (·.getD []) untaken
    rw [nothing] at roll
    rw [own, Annals.after, none, List.append_nil]
    exact roll.take

theorem Sound.stays (sound : a.Sound site) (s : σ) :
    (a.after site ⟨s, a.traffic.visitors⟩).clearances = a.clearances :=
  notedSame sound.each.length_eq

theorem Sound.still (sound : a.Sound site) {s : σ}
    (members : (site.get s).pool.members = (site.get a.traffic.state).pool.members)
    (more : (site.get a.traffic.state).crew.seats.size ≤ (site.get s).crew.seats.size) :
    Sound site (a.after site ⟨s, a.traffic.visitors⟩) := by
  have clearances := sound.stays s
  have joined : (a.after site ⟨s, a.traffic.visitors⟩).joined = a.joined := by
    rw [Annals.after, members, List.drop_length, List.append_nil]
  refine ⟨clearances ▸ sound.each, ?_, joined ▸ sound.apart, fun seat member => ?_⟩
  · rw [clearances, joined, Annals.after, members]
    exact sound.roll
  · exact Nat.lt_of_lt_of_le (sound.known seat (joined ▸ member)) more

theorem Sound.entered (sound : a.Sound site) (v : Visitor W V σ α φ ρ) :
    (a.after site ⟨a.traffic.state, a.traffic.visitors ++ [v]⟩).clearances =
      a.clearances ++ [({} : Clearance)] := by
  let crew := (site.get a.traffic.state).crew
  have added : noted crew (a.traffic.visitors ++ []) (a.traffic.visitors ++ [v]) (a.clearances ++ []) =
      a.clearances ++ noted crew [] [v] [] := notedFront sound.each.length_eq
  simpa [Annals.after, noted] using added

theorem Sound.enter (sound : a.Sound site) (come : Traffic.Anyone site a.traffic v) :
    Sound site (a.after site ⟨a.traffic.state, a.traffic.visitors ++ [v]⟩) := by
  have clearances := sound.entered v
  have arrives : v.Proper site ∧ v.Clears {} ∧ v.making = [] := by
    rcases come with rfl | rfl | rfl | ⟨plan, items, proper, rfl⟩
    · exact ⟨trivial, rfl, rfl⟩
    · exact ⟨trivial, rfl, rfl⟩
    · exact ⟨trivial, rfl, rfl⟩
    · exact ⟨proper, rfl, rfl⟩
  have joined : (a.after site ⟨a.traffic.state, a.traffic.visitors ++ [v]⟩).joined = a.joined := by
    rw [Annals.after, List.drop_length, List.append_nil]
  have making : (a.traffic.visitors ++ [v]).flatMap Visitor.making =
      a.traffic.visitors.flatMap Visitor.making := by
    rw [List.flatMap_append, List.flatMap_singleton, arrives.2.2, List.append_nil]
  refine ⟨?_, ?_, ?_, fun seat member => sound.known seat ?_⟩
  · rw [clearances]
    exact List.rel_append sound.each (.cons ⟨arrives.1, arrives.2.1⟩ .nil)
  · rw [clearances, joined, List.map_append]
    exact sound.roll.enter
  · rw [joined, Annals.after, making]
    exact sound.apart
  · rwa [joined, Annals.after, making] at member

theorem vacateHires (lawful : site.Lawful) {s : σ} {first : Site W V} {making : List Nat}
    (hires : first.Hires (site.get s) making []) (tickets tokens : List Nat) :
    first.Hires (site.get (site.update (Site.vacate tickets tokens) s)) making [] := by
  rw [Part.update, lawful]
  refine hires.onward ((site.get s).pool.forgetAllAlike tickets).members ?_ (.refl _)
  exact Nat.le_of_eq (by rw [Site.vacate, Crew.abandonAllSeats])

theorem stepCases (lawful : site.Lawful) {t u : Traffic W V σ α φ ρ}
    (step : Traffic.Step site of (Traffic.Anyone site) t u) :
    (∃ v, Traffic.Anyone site t v ∧ u = ⟨t.state, t.visitors ++ [v]⟩) ∨
    (∃ before v after s w, t.visitors = before ++ v :: after ∧ u = ⟨s, before ++ w :: after⟩ ∧
      ∀ c, v.Proper site → v.Clears c → Visitor.Turns site t.state s v w c) ∨
    ∃ s, u = ⟨s, t.visitors⟩ ∧
      (site.get s).pool.members = (site.get t.state).pool.members ∧
      (site.get t.state).crew.seats.size ≤ (site.get s).crew.seats.size := by
  have gone {v : Visitor W V σ α φ ρ} {c : Clearance} {s : σ} (clears : v.Clears c)
      (hires : (site.get t.state).Hires (site.get s) v.making []) (tickets tokens : List Nat) :
      Visitor.Turns site t.state (site.update (Site.vacate tickets tokens) s) v .ended c := by
    refine ⟨trivial, ?_, ?_⟩ <;> rw [v.notedEnded]
    · exact clears.begun
    · exact (vacateHires lawful hires _ _).shifts rfl
  cases step with
  | enter come => exact .inl ⟨_, come, rfl⟩
  | go here move =>
    refine .inr (.inl ⟨_, _, _, _, _, here, rfl, fun c proper clears => ?_⟩)
    obtain ⟨again, shifts⟩ := (Visitor.movesShifts lawful proper clears move).1 _ rfl
    exact ⟨Visitor.movesProper proper move, again, shifts⟩
  | breakDown here move =>
    refine .inr (.inl ⟨_, _, _, _, _, here, rfl, fun c proper clears => ?_⟩)
    exact gone clears ((Visitor.movesShifts lawful proper clears move).2 rfl) _ _
  | leave here =>
    refine .inr (.inl ⟨_, _, _, _, _, here, rfl, fun c proper clears => ?_⟩)
    exact gone clears (Site.hiresNobody rfl (Nat.le_refl _) List.nil_subperm) _ _
  | grow n =>
    refine .inr (.inr ⟨_, rfl, ?_, ?_⟩) <;> rw [Part.update, lawful]
    · show ((site.get t.state).pool.grow n).members = _
      unfold Pool.grow
      split <;> rfl
    · exact Nat.le_refl _
  | work crew stays =>
    refine .inr (.inr ⟨_, rfl, ?_, ?_⟩) <;> rw [Part.update, lawful]
    exact stays

theorem Sound.step (lawful : site.Lawful) (sound : a.Sound site) {u : Traffic W V σ α φ ρ}
    (step : Traffic.Step site of (Traffic.Anyone site) a.traffic u) :
    Sound site (a.after site u) := by
  rcases stepCases lawful step with ⟨v, come, rfl⟩ | ⟨before, v, after, s, w, here, rfl, turns⟩ |
    ⟨s, rfl, members, more⟩
  · exact sound.enter come
  · exact sound.goes here turns
  · exact sound.still members more

theorem soundStart {start : Traffic W V σ α φ ρ} (nobody : start.visitors = []) {capacity : Nat}
    (fresh : (site.get start.state).pool = .ofCapacity capacity) :
    Sound site { traffic := start } := by
  have members : (site.get start.state).pool.members = [] := congrArg Pool.members fresh
  have making : start.visitors.flatMap Visitor.making = [] := by rw [nobody, List.flatMap_nil]
  refine ⟨nobody ▸ .nil, ?_, ?_, fun seat member => ?_⟩
  · exact ⟨.of_eq members, members ▸ List.nil_suffix, fun share member => by cases member⟩
  · rw [List.nil_append, making]
    exact List.nodup_nil
  · rw [List.nil_append, making] at member
    cases member

end Annals

namespace Traffic

/-- A step at a pool that is in use, which is not raised while somebody waits to dispose it. -/
def Undisturbed (site : Part σ (Site W V)) (of : φ → List Nat) (t u : Traffic W V σ α φ ρ) : Prop :=
  Step site of (Visiting site) t u ∧
    ((∃ v ∈ t.visitors, v.AwaitsEnd) →
      (site.get u.state).pool.capacity = (site.get t.state).pool.capacity)

end Traffic

namespace Annals
variable {site : Part σ (Site W V)} {of : φ → List Nat} {a b : Annals W V σ α φ ρ}

def Taken (a : Annals W V σ α φ ρ) : Prop := ∃ c ∈ a.clearances, c.taken ≠ none

def Concluded (a : Annals W V σ α φ ρ) : Prop :=
  ∀ p ∈ a.traffic.visitors.zip a.clearances, p.2.share ≠ [] → ∃ r, p.1 = .disposed r

theorem Sound.begunPrefix (sound : a.Sound site) : ∀ c ∈ a.clearances, c.begun <+: c.share :=
  forall₂Left sound.each.flip fun _ _ pair => pair.2.begun

theorem Sound.shares (sound : a.Sound site) : (a.clearances.flatMap Clearance.share ++
    (site.get a.traffic.state).pool.members).Perm a.joined := by
  rw [List.flatMap_def]
  exact sound.roll.whole

theorem Sound.sharesOnce (sound : a.Sound site) : (a.clearances.flatMap Clearance.share).Nodup :=
  (List.nodup_append.mp (sound.shares.nodup_iff.mpr (List.nodup_append.mp sound.apart).1)).1

theorem Sound.begunOnce (sound : a.Sound site) : a.begun.Nodup :=
  (List.Sublist.flatMap_right _ fun c member => (sound.begunPrefix c member).sublist).nodup
    sound.sharesOnce

theorem Sound.visitor (sound : a.Sound site) {c : Clearance} (member : c ∈ a.clearances) :
    ∃ v, (v, c) ∈ a.traffic.visitors.zip a.clearances ∧ v ∈ a.traffic.visitors ∧ v.Clears c := by
  obtain ⟨before, after, whole⟩ := List.append_of_mem member
  have each := sound.each
  rw [whole] at each
  obtain ⟨front, v, back, here, first, ⟨-, clears⟩, -⟩ := forall₂Split each
  refine ⟨v, ?_, here ▸ List.mem_append_right _ List.mem_cons_self, clears⟩
  rw [here, whole, List.zip_append first.length_eq, List.zip_cons_cons]
  exact List.mem_append_right _ List.mem_cons_self

theorem Sound.allOnce (sound : a.Sound site) (done : a.Concluded) {seat : Nat}
    (joined : seat ∈ a.joined) (left : seat ∉ (site.get a.traffic.state).pool.members) :
    a.begun.count seat = 1 := by
  have shared := (List.mem_append.mp (sound.shares.mem_iff.mpr joined)).resolve_right left
  obtain ⟨c, member, own⟩ := List.mem_flatMap.mp shared
  obtain ⟨v, pair, -, clears⟩ := sound.visitor member
  obtain ⟨r, same⟩ := done _ pair (List.ne_nil_of_mem own)
  obtain rfl : v = .disposed r := same
  have begun : seat ∈ a.begun := List.mem_flatMap.mpr ⟨c, member, clears.all ▸ own⟩
  exact List.count_eq_one_of_mem sound.begunOnce begun

theorem Run.steps {welcome : Traffic W V σ α φ ρ → Visitor W V σ α φ ρ → Prop}
    (run : Run site (Traffic.Step site of welcome) a b) :
    Traffic.Steps site of welcome a.traffic b.traffic := by
  induction run with
  | refl => exact .refl _
  | tail run step ih => exact ih.tail step

theorem recorded {welcome : Traffic W V σ α φ ρ → Visitor W V σ α φ ρ → Prop}
    {t u : Traffic W V σ α φ ρ} (steps : Traffic.Steps site of welcome t u) :
    ∃ a, a.traffic = u ∧ Run site (Traffic.Step site of welcome) { traffic := t } a := by
  induction steps with
  | refl => exact ⟨_, rfl, .refl _⟩
  | @tail u w steps step ih =>
    obtain ⟨a, rfl, run⟩ := ih
    exact ⟨a.after site w, rfl, run.tail step⟩

theorem Run.trans {goes : Traffic W V σ α φ ρ → Traffic W V σ α φ ρ → Prop}
    {c : Annals W V σ α φ ρ} (first : Run site goes a b) (later : Run site goes b c) :
    Run site goes a c := by
  induction later with
  | refl => exact first
  | tail run step ih => exact ih.tail step

theorem Run.mono {goes more : Traffic W V σ α φ ρ → Traffic W V σ α φ ρ → Prop}
    (wider : ∀ t u, goes t u → more t u) (run : Run site goes a b) : Run site more a b := by
  induction run with
  | refl => exact .refl _
  | tail run step ih => exact ih.tail (wider _ _ step)

section Taken
variable {u : Traffic W V σ α φ ρ}

theorem Sound.takenCases (lawful : site.Lawful) (sound : a.Sound site)
    (step : Traffic.Step site of (Traffic.Anyone site) a.traffic u) (taken : (a.after site u).Taken) :
    a.Taken ∨
      .disposing .clearing ∈ a.traffic.visitors ∧ (site.get u.state).pool.members = [] := by
  obtain ⟨d, member, taken⟩ := taken
  rcases stepCases lawful step with ⟨v, -, rfl⟩ | ⟨before, v, after, s, w, here, rfl, turns⟩ |
    ⟨s, rfl, -⟩
  · rw [sound.entered v] at member
    rcases List.mem_append.mp member with old | new
    · exact .inl ⟨d, old, taken⟩
    · exact absurd (List.mem_singleton.mp new ▸ rfl) taken
  · obtain ⟨front, c, back, whole, proper, clears, noted, -⟩ := sound.place here
    rw [noted] at member
    rcases List.mem_cons.mp (List.perm_middle.mem_iff.mp member) with rfl | other
    · rcases (turns c proper clears).shifts.joins with ⟨-, -, -, ⟨-, same⟩ | ⟨empty, -⟩⟩
      · exact .inl ⟨c, by simp [whole], same ▸ taken⟩
      · by_cases clearing : v = .disposing .clearing
        · exact .inr ⟨by simp [here, clearing], empty⟩
        · rw [Visitor.notedTaken _ clearing] at taken
          exact .inl ⟨c, by simp [whole], taken⟩
    · refine .inl ⟨d, ?_, taken⟩
      exact whole ▸ List.perm_middle.mem_iff.mpr (List.mem_cons_of_mem c other)
  · rw [sound.stays s] at member
    exact .inl ⟨d, member, taken⟩

theorem Sound.membersCases (lawful : site.Lawful) (sound : a.Sound site)
    (step : Traffic.Step site of (Traffic.Anyone site) a.traffic u) {seat : Nat}
    (here : seat ∈ (site.get u.state).pool.members) :
    seat ∈ (site.get a.traffic.state).pool.members ∨
      seat ∈ a.traffic.visitors.flatMap Visitor.making := by
  rcases stepCases lawful step with ⟨v, -, rfl⟩ | ⟨before, v, after, s, w, visits, rfl, turns⟩ |
    ⟨s, rfl, members, -⟩
  · exact .inl here
  · obtain ⟨front, c, back, -, proper, clears, -⟩ := sound.place visits
    rcases (turns c proper clears).shifts.joins with ⟨gained, own, -, ⟨same, -⟩ | ⟨empty, -⟩⟩
    · have here : seat ∈ (site.get s).pool.members := here
      rw [same] at here
      refine (List.mem_append.mp here).imp_right fun new => ?_
      exact List.mem_flatMap.mpr ⟨v, by simp [visits], own new⟩
    · have here : seat ∈ (site.get s).pool.members := here
      rw [empty] at here
      cases here
  · exact .inl (members ▸ here)

theorem Sound.gone (lawful : site.Lawful) (sound : a.Sound site) {seat : Nat}
    (joined : seat ∈ a.joined)
    (gone : a.Taken → seat ∉ (site.get a.traffic.state).pool.members)
    (step : Traffic.Step site of (Traffic.Anyone site) a.traffic u) (taken : (a.after site u).Taken) :
    seat ∉ (site.get u.state).pool.members := by
  intro here
  rcases sound.takenCases lawful step taken with before | ⟨-, empty⟩
  · rcases sound.membersCases lawful step here with old | new
    · exact gone before old
    · exact (List.disjoint_of_nodup_append sound.apart) joined new
  · rw [empty] at here
    cases here

end Taken

theorem Sound.goneRun (lawful : site.Lawful) (sound : b.Sound site) (untaken : ¬b.Taken)
    (run : Run site (Traffic.Step site of (Traffic.Anyone site)) b a) :
    a.Sound site ∧ ∀ seat ∈ (site.get b.traffic.state).pool.members, seat ∈ a.joined ∧
      (a.Taken → seat ∉ (site.get a.traffic.state).pool.members) := by
  induction run with
  | refl => exact ⟨sound, fun seat here => ⟨sound.roll.last.subset here, fun taken => absurd taken untaken⟩⟩
  | tail run step ih =>
    obtain ⟨sound, once⟩ := ih
    refine ⟨sound.step lawful step, fun seat here => ?_⟩
    obtain ⟨joined, gone⟩ := once seat here
    exact ⟨List.mem_append_left _ joined, sound.gone lawful joined gone step⟩

structure Watched (site : Part σ (Site W V)) (a : Annals W V σ α φ ρ) : Prop where
  sound : a.Sound site
  closers : ∀ v ∈ a.traffic.visitors, v.HasClosed →
    (site.get a.traffic.state).pool.permits.closed = true
  closed : a.Taken → (site.get a.traffic.state).pool.permits.closed = true

theorem Sound.proper (sound : a.Sound site) : ∀ v ∈ a.traffic.visitors, v.Proper site :=
  forall₂Left sound.each fun _ _ pair => pair.1

theorem Watched.step (lawful : site.Lawful) (watched : a.Watched site) {u : Traffic W V σ α φ ρ}
    (step : Traffic.Step site of (Traffic.Anyone site) a.traffic u) :
    (a.after site u).Watched site := by
  obtain ⟨sound, closers, closed⟩ := watched
  refine ⟨sound.step lawful step, Traffic.closersStep lawful sound.proper closers step,
    fun taken => (Traffic.onwardStep lawful sound.proper step).2 ?_⟩
  rcases sound.takenCases lawful step taken with before | ⟨visits, -⟩
  · exact closed before
  · exact closers _ visits trivial

theorem Watched.run (lawful : site.Lawful) (watched : b.Watched site)
    (run : Run site (Traffic.Step site of (Traffic.Anyone site)) b a) : a.Watched site := by
  induction run with
  | refl => exact watched
  | tail run step ih => exact ih.step lawful step

theorem watchedStart {start : Traffic W V σ α φ ρ} (nobody : start.visitors = []) {capacity : Nat}
    (fresh : (site.get start.state).pool = .ofCapacity capacity) :
    Watched site { traffic := start } := by
  refine ⟨soundStart nobody fresh, fun v visits => ?_, ?_⟩
  · rw [nobody] at visits
    cases visits
  · rintro ⟨c, member, -⟩
    cases member

/-- What is settled when anybody may come to a pool and go at any moment. Each worker has joined it
once, and is still there or has been taken by one of those who dispose it, each of whom has taken
workers that joined one after the other. -/
structure Accounted (site : Part σ (Site W V)) (of : φ → List Nat) (a : Annals W V σ α φ ρ) :
    Prop where
  joinedOnce : a.joined.Nodup
  shared : (a.clearances.flatMap Clearance.share ++
    (site.get a.traffic.state).pool.members).Perm a.joined
  ordered : ∀ c ∈ a.clearances, c.share <:+: a.joined
  ends : ∀ {r c}, (Visitor.disposed r, c) ∈ a.traffic.visitors.zip a.clearances →
    Disposal.Over c r
  atMostOnce : ∀ seat, a.begun.count seat ≤ 1
  allOnce : a.Concluded → ∀ seat ∈ a.joined, seat ∉ (site.get a.traffic.state).pool.members →
    a.begun.count seat = 1
  closes : ∀ {r}, .disposed r ∈ a.traffic.visitors →
    (site.get a.traffic.state).pool.isDisposed = true
  shut : (site.get a.traffic.state).pool.isDisposed = true → Traffic.Shut site of a.traffic

theorem Watched.accounted (lawful : site.Lawful) (watched : a.Watched site) : a.Accounted site of where
  joinedOnce := (List.nodup_append.mp watched.sound.apart).1
  shared := watched.sound.shares
  ordered _ member := watched.sound.roll.ordered _ (List.mem_map_of_mem member)
  ends pair := (List.forall₂_zip watched.sound.each pair).2
  atMostOnce := List.nodup_iff_count_le_one.mp watched.sound.begunOnce
  allOnce done _ joined left := watched.sound.allOnce done joined left
  closes visits := watched.closers _ visits trivial
  shut := Traffic.shut lawful watched.sound.proper

theorem Watched.emptied (lawful : site.Lawful) (watched : b.Watched site)
    (shared : b.traffic.Shared site) (untaken : ¬b.Taken)
    (run : Run site (Traffic.Undisturbed site of) b a) :
    a.Watched site ∧ a.traffic.Shared site ∧
      ((site.get a.traffic.state).pool.capacity ≤ mostAwaited → a.Taken →
        (site.get a.traffic.state).pool.members = []) := by
  induction run with
  | refl => exact ⟨watched, shared, fun _ taken => absurd taken untaken⟩
  | @tail a u run moved ih =>
    obtain ⟨watched, shared, emptied⟩ := ih
    have step := moved.1.mono Traffic.visitingAnyone
    refine ⟨watched.step lawful step, shared.step lawful moved.1 moved.2, fun few taken => ?_⟩
    have few := Nat.le_trans (Traffic.onwardStep lawful watched.sound.proper step).1 few
    rcases watched.sound.takenCases lawful step taken with before | ⟨-, empty⟩
    · refine List.eq_nil_iff_forall_not_mem.mpr fun seat here => ?_
      rcases watched.sound.membersCases lawful step here with old | new
      · rw [emptied few before] at old
        cases old
      · obtain ⟨v, visits, own⟩ := List.mem_flatMap.mp new
        rw [shared.makesNone few (watched.closed before) v visits] at own
        cases own
    · exact empty

theorem Sound.filledUntaken (sound : a.Sound site)
    (filled : ∀ v ∈ a.traffic.visitors, v = .filled (.ok ())) : ¬a.Taken := by
  rintro ⟨c, member, taken⟩
  obtain ⟨v, -, visits, clears⟩ := sound.visitor member
  rw [filled v visits] at clears
  obtain rfl : c = {} := clears
  exact taken rfl

/-- Anybody may come to use, fill up or dispose a pool, and may go away early. The workers that are
there when nobody has taken them yet are each disposed once, when whoever has taken some is done,
however that ends. If the pool was filled up before it was used, is not raised while somebody waits to
dispose it and has no more permits than can be waited for, then no worker comes later. -/
theorem disposedOnce (lawful : site.Lawful) {start : Traffic W V σ α φ ρ}
    (nobody : start.visitors = []) {capacity : Nat}
    (fresh : (site.get start.state).pool = .ofCapacity capacity) :
    (∀ a, Run site (Traffic.Step site of (Traffic.Anyone site)) { traffic := start } a →
      a.Accounted site of) ∧
    (∀ b a, Run site (Traffic.Step site of (Traffic.Anyone site)) { traffic := start } b →
      ¬b.Taken → Run site (Traffic.Step site of (Traffic.Anyone site)) b a → a.Taken →
      a.Concluded →
        ∀ seat ∈ (site.get b.traffic.state).pool.members, a.begun.count seat = 1) ∧
    ∀ founded a, Run site (Traffic.Step site of Traffic.Founding) { traffic := start } founded →
      (∀ v ∈ founded.traffic.visitors, v = .filled (.ok ())) →
      Run site (Traffic.Undisturbed site of) founded a →
      (site.get a.traffic.state).pool.capacity ≤ mostAwaited → a.Taken →
        (site.get a.traffic.state).pool.members = [] := by
  have started : Watched site { traffic := start } := watchedStart nobody fresh
  refine ⟨fun a run => (started.run lawful run).accounted lawful,
    fun b a first untaken later taken done seat here => ?_,
    fun founded a founding filled visiting few taken => ?_⟩
  · obtain ⟨sound, once⟩ := (started.run lawful first).sound.goneRun lawful untaken later
    obtain ⟨joined, gone⟩ := once seat here
    exact sound.allOnce done joined (gone taken)
  · have begun : start.Founded site := by
      refine .going 0 none nobody ?_
      rw [Site.Kept, fresh]
      exact Pool.freshKept capacity _
    have shared := ((begun.steps lawful founding.steps).used filled).shared
    have watched := started.run lawful (founding.mono fun t u => .mono Traffic.foundingAnyone)
    exact (watched.emptied lawful shared (watched.sound.filledUntaken filled) visiting).2.2 few taken

def oneFounded : Annals Unit Unit (Site Unit Unit) Unit Unit Unit where
  traffic := Traffic.oneMade
  joined := [0]
  clearances := [{}]

def oneDisposed : Annals Unit Unit (Site Unit Unit) Unit Unit Unit where
  traffic :=
    { state :=
        { pool := { capacity := 1, permits := { free := 1, closed := true }, tickets := 1 }
          crew :=
            { Traffic.oneMade.state.crew with
              tokens := 2, history := [.made 0, .called 0 .init, .called 0 .dispose]
              notes := [.warn "failed to dispose worker: no"] } }
      visitors := [.filled (.ok ())] ++ [.disposed (.error (.rejected "no"))] }
  joined := [0]
  clearances := [{}, { taken := some [0], begun := [0], answers := [some (.rejected "no")] }]

theorem foundOne : Run Part.whole (Traffic.Step Part.whole (fun _ => []) Traffic.Founding)
    { traffic := Traffic.untouched } oneFounded := by
  have next {b : Annals Unit Unit (Site Unit Unit) Unit Unit Unit} {u}
      (run : Run Part.whole (Traffic.Step Part.whole (fun _ => []) Traffic.Founding)
        { traffic := Traffic.untouched } b)
      (step : Traffic.Step Part.whole (fun _ => []) Traffic.Founding b.traffic u) :
      Run Part.whole (Traffic.Step Part.whole (fun _ => []) Traffic.Founding)
        { traffic := Traffic.untouched } (b.after Part.whole u) := run.tail step
  have enter : Traffic.Step Part.whole (fun _ => []) Traffic.Founding Traffic.untouched
      ⟨Traffic.untouched.state, [] ++ [.filling .counting]⟩ :=
    .enter ⟨rfl, fun _ member => by cases member⟩
  have called := next (next (next (next (.refl _) enter) (.last (.head _))) (.last (.head _)))
    (.last (.head _))
  have joined := next (next (next called
    (.work { Traffic.oneMade.state.crew with answers := [(0, .ok ())] } (Nat.le_refl _)))
      (.last (.head _))) (.last (.head _))
  exact next joined (.last (.head _))

theorem disposeOne : Run Part.whole (Traffic.Undisturbed Part.whole (fun _ => [])) oneFounded
    oneDisposed := by
  have next {b : Annals Unit Unit (Site Unit Unit) Unit Unit Unit} {u}
      (run : Run Part.whole (Traffic.Undisturbed Part.whole (fun _ => [])) oneFounded b)
      (step : Traffic.Step Part.whole (fun _ => []) (Traffic.Visiting Part.whole) b.traffic u)
      (same : u.state.pool.capacity = b.traffic.state.pool.capacity) :
      Run Part.whole (Traffic.Undisturbed Part.whole (fun _ => [])) oneFounded
        (b.after Part.whole u) := run.tail ⟨step, fun _ => same⟩
  have enter : Traffic.Step Part.whole (fun _ => []) (Traffic.Visiting Part.whole) oneFounded.traffic
      ⟨Traffic.oneMade.state, [.filled (.ok ())] ++ [.disposing .asking]⟩ := .enter (.inr rfl)
  have waits := next (next (.refl _) enter rfl) (.last (.head _)) rfl
  have closed := next (next waits (.last (.head _)) rfl) (.last (.head _)) rfl
  have taken := next (next closed (.last (.head _)) rfl) (.last (.head _)) rfl
  have called := next (next taken (.last (.head _)) rfl) (.last (.head _)) rfl
  have failed := next called (.work { Traffic.oneClosed.state.crew with
    tokens := 2, history := oneDisposed.traffic.state.crew.history
    answers := [(1, .failed (.rejected "no"))] } (Nat.le_refl _)) rfl
  exact next (next failed (.last (.head _)) rfl) (.last (.head _)) rfl

theorem disposedOnceFailing :
    oneDisposed.Accounted Part.whole (fun _ => []) ∧ oneDisposed.begun.count 0 = 1 ∧
      oneDisposed.traffic.state.pool.members = [] := by
  have lawful : (Part.whole : Part (Site Unit Unit) (Site Unit Unit)).Lawful := fun _ _ => rfl
  obtain ⟨settled, once, emptied⟩ := @disposedOnce Unit Unit (Site Unit Unit) Unit Unit Unit
    Part.whole (fun _ => []) lawful Traffic.untouched rfl 1 rfl
  have founded : Run Part.whole (Traffic.Step Part.whole (fun _ => []) (Traffic.Anyone Part.whole))
      { traffic := Traffic.untouched } oneFounded :=
    foundOne.mono fun t u => .mono Traffic.foundingAnyone
  have disposed : Run Part.whole (Traffic.Step Part.whole (fun _ => []) (Traffic.Anyone Part.whole))
      oneFounded oneDisposed := disposeOne.mono fun t u step => step.1.mono Traffic.visitingAnyone
  have untaken : ¬oneFounded.Taken := by simp [Taken, oneFounded]
  have taken : oneDisposed.Taken := ⟨_, List.mem_cons_of_mem _ List.mem_cons_self, nofun⟩
  have concluded : oneDisposed.Concluded := by simp [Concluded, oneDisposed, Clearance.share]
  refine ⟨settled _ (founded.trans disposed), ?_, ?_⟩
  · exact once _ _ founded untaken disposed taken concluded 0 (List.mem_singleton_self 0)
  · exact emptied _ _ foundOne (fun v member => List.mem_singleton.mp member) disposeOne (by decide)
      taken

def lateJoined : Annals Unit Unit (Site Unit Unit) Unit Unit Unit where
  traffic :=
    { state :=
        { pool :=
            { capacity := 1, permits := { free := 1, closed := true }, idle := [0], members := [0]
              tickets := 1 }
          crew := Traffic.oneMade.state.crew }
      visitors := [.filled (.ok ()), .disposed (.ok ())] }
  joined := [0]
  clearances := [{}, { taken := some [] }]

/-- One visitor goes on, or comes, or a worker does something, and the capacity is as before. -/
def Level (t u : Traffic Unit Unit (Site Unit Unit) Unit Unit Unit) : Prop :=
  Traffic.Step Part.whole (fun _ => []) (Traffic.Anyone Part.whole) t u ∧
    u.state.pool.capacity = t.state.pool.capacity

theorem lateRun : Run Part.whole Level { traffic := Traffic.untouched } lateJoined := by
  have next {b : Annals Unit Unit (Site Unit Unit) Unit Unit Unit} {u}
      (run : Run Part.whole Level { traffic := Traffic.untouched } b)
      (step : Traffic.Step Part.whole (fun _ => []) (Traffic.Anyone Part.whole) b.traffic u)
      (same : u.state.pool.capacity = b.traffic.state.pool.capacity) :
      Run Part.whole Level { traffic := Traffic.untouched } (b.after Part.whole u) :=
    run.tail ⟨step, same⟩
  have fill : Traffic.Step Part.whole (fun _ => []) (Traffic.Anyone Part.whole) Traffic.untouched
      ⟨Traffic.untouched.state, [] ++ [.filling .counting]⟩ := .enter (.inr (.inl rfl))
  have called := next (next (next (next (.refl _) fill rfl) (.last (.head _)) rfl)
    (.last (.head _)) rfl) (.last (.head _)) rfl
  have asks := next called (.enter (.inr (.inr (.inl rfl)))) rfl
  have waits := next (next asks (.last (.head _)) rfl) (.last (.head _)) rfl
  have closed := next (next waits (.last (.head _)) rfl) (.last (.head _)) rfl
  have emptied := next (next closed (.last (.head _)) rfl) (.last (.head _)) rfl
  have told := next emptied
    (.work { Traffic.oneMade.state.crew with answers := [(0, .ok ())] } (Nat.le_refl _)) rfl
  have started := next told (.first (.head _)) rfl
  have joined := next started (.first (.head _)) rfl
  exact next joined (.first (.head _)) rfl

/-- A worker that joins a pool when this has been disposed is not disposed any more. -/
theorem lateUndisposed : ¬∀ (capacity : Nat) (start : Traffic Unit Unit (Site Unit Unit) Unit Unit Unit)
    (a : Annals Unit Unit (Site Unit Unit) Unit Unit Unit), start.visitors = [] →
    start.state.pool = .ofCapacity capacity → Run Part.whole Level { traffic := start } a →
    (∃ r, .disposed r ∈ a.traffic.visitors) → a.Concluded →
      ∀ seat ∈ a.joined, a.begun.count seat = 1 := by
  intro every
  have disposed : Visitor.disposed (.ok ()) ∈ lateJoined.traffic.visitors :=
    List.mem_cons_of_mem _ List.mem_cons_self
  have concluded : lateJoined.Concluded := by simp [Concluded, lateJoined, Clearance.share]
  have once := every 1 Traffic.untouched lateJoined rfl rfl lateRun ⟨_, disposed⟩ concluded 0
    (List.mem_singleton_self 0)
  exact absurd once (by decide)

end Annals

end MutationPipeline
