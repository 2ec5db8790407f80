import MutationPipeline.Proofs.Checker.Attendance
import MutationPipeline.Proofs.Pipeline.Succession

/-! The pool of the checkers belongs to one task at a time, and only to a checker that has begun its
work. What that one relies on is not disturbed by the others; at most one of them touches the pool,
to dispose it. -/
namespace MutationPipeline
variable {active active' : String → Nat → Prop} {s s' : CheckSite} {others others' : List Stance}

namespace Site

structure Still (s : CheckSite) : Prop where
  numbered : s.crew.Numbered
  idle : s.crew.Attended (fun _ _ => False) []

theorem Still.attended {P : Nat → CheckWork → Prop} {tokens : List Nat} (still : s.Still) :
    s.crew.Attended P tokens := still.idle.more (List.nil_subset _) fun _ _ none => none.elim

theorem Still.aloof (still : s.Still) (aloof : s.crew.Aloof s'.crew) : s'.Still :=
  ⟨aloof.numbered still.numbered, aloof.attended still.idle⟩

theorem stillOf {P : Nat → CheckWork → Prop} (numbered : s.crew.Numbered)
    (attended : s.crew.Attended P []) : s.Still :=
  ⟨numbered, fun x member w work => absurd (attended x member w work).1 List.not_mem_nil⟩

/-- What others do at a pool, as long as they ask nobody for work. Whoever must be alone to do it
leaves the books right only when nobody else has a part in them. -/
structure Foreign (alone : Prop) (others others' : List Stance) (s s' : CheckSite) : Prop where
  aloof : s.crew.Aloof s'.crew
  seats : s'.crew.seats = s.crew.seats
  lasts : s.pool.Lasts s'.pool
  capacity : s'.pool.capacity = s.pool.capacity
  booked : ∀ own, (alone → own = []) → s.Booked own others → s'.Booked own others'

theorem Foreign.refl (alone : Prop) (others : List Stance) (s : CheckSite) :
    Foreign alone others others s s where
  aloof := Crew.Quiet.aloof ⟨rfl, rfl, rfl⟩
  seats := rfl
  lasts := (Pool.Alike.refl _).lasts
  capacity := rfl
  booked := fun _ _ booked => booked

theorem Foreign.when {alone alone' : Prop} (foreign : Foreign alone others others' s s')
    (when : alone → alone') : Foreign alone' others others' s s' :=
  { foreign with booked := fun own only => foreign.booked own fun must => only (when must) }

theorem Foreign.note (alone : Prop) (others : List Stance) (s : CheckSite) (n : Note) :
    Foreign alone others others s (s.note n) where
  aloof := Crew.Quiet.aloof ⟨rfl, rfl, rfl⟩
  seats := rfl
  lasts := (Pool.Alike.refl _).lasts
  capacity := rfl
  booked := fun _ _ booked => booked

end Site

namespace Disposal
variable {d : Disposal CheckWork} {size : Nat} {n : Next (Disposal CheckWork) (Except WorkerError Unit)}

theorem movesForeign (fits : d.Fits s.pool) (whole : s.pool.capacity = size)
    (begins : d.Begins fun _ _ => False) (move : (s', n) ∈ Disposal.moves d s) :
    Site.Foreign (s'.pool.permits.closed = true ∧ mostAwaited < size) (d.stances size)
      (n.elim (stances size) (fun _ => d.stances size) (d.stances size)) s s' ∧
      n.elim (Fits s'.pool) (fun _ => d.Fits s'.pool) (d.Fits s'.pool) := by
  obtain ⟨lasts, capacity, seats⟩ := movesAlike fits move
  refine ⟨⟨⟨_, _, movesTurn begins move⟩, seats, lasts, capacity, fun own only booked => ?_⟩,
    movesFits fits move⟩
  refine movesBooked fits whole ?_ booked move
  cases closed : s'.pool.permits.closed with
  | false => exact .inl rfl
  | true => exact .inr ((Nat.lt_or_ge mostAwaited size).symm.imp_right fun many => only ⟨closed, many⟩)

end Disposal

namespace Role

def visits (size : Nat) : Role → List Stance
  | .releasing _ (.disposing d) => d.stances size
  | _ => []

def Waits (p : Pool) : Role → Prop
  | .releasing _ (.disposing d) => d.Fits p
  | _ => True

/-- It does not touch the pool of the checkers. -/
def Apart : Role → Prop
  | .checking .. | .releasing .. => False
  | _ => True

variable {role : Role} {place size : Nat} {f f' : Floor} {n : Next Role (Except RunError Unit)}

theorem sendCheckers {α : Type} {channel : Part Floor (Channel α)} {name : String} {x : α}
    {sent : Except RunError Unit} (aside : ∀ c f, (channel.set c f).checkers = f.checkers)
    (move : (f', sent) ∈ f.send channel name x) : f'.checkers = f.checkers := by
  obtain ⟨⟨c, taken⟩, -, same⟩ := List.mem_map.mp move
  cases same
  exact aside c f

theorem receiveCheckers {x : Option CoveredMutant} (move : (f', x) ∈ f.receive (Floor.input place)) :
    f'.checkers = f.checkers := by
  obtain ⟨⟨c, found⟩, -, same⟩ := List.mem_map.mp move
  cases same
  rfl

theorem runTestsCheckers {planOf : CoveredMutant → RunPlan} {t : Testing}
    {o : Next Testing (Except RunError Unit)} (move : (f', o) ∈ runTests planOf place t f) :
    f'.checkers = f.checkers := by
  cases t with
  | running g =>
    refine Machine.withinState (fun u => u.checkers = f.checkers) move (fun u o inner => ?_)
      fun r u same => ?_
    · rcases (Schedule.movesMoved inner).state with rfl | ⟨s, rfl⟩ | ⟨item, more⟩
      · rfl
      · rfl
      · exact receiveCheckers more
    · obtain ⟨y, g⟩ := r
      cases y with
      | none => exact same
      | some y =>
        obtain ⟨m, result⟩ := y
        cases result with
        | error e => exact same
        | ok answer => cases answer <;> exact same
  | reporting x g =>
    obtain ⟨⟨g, sent⟩, sending, same⟩ := List.mem_map.mp move
    have kept : g.checkers = f.checkers := sendCheckers (fun _ _ => rfl) sending
    cases sent <;> cases same <;> exact kept

theorem movesApart (apart : role.Apart) (move : (f', n) ∈ role.moves place f) :
    f'.checkers = f.checkers ∧ ∀ next, n = .go next → next.Apart := by
  cases role with
  | ignoring rest =>
    cases rest with
    | nil =>
      obtain ⟨rfl, rfl⟩ := memFinish.mp move
      exact ⟨rfl, fun next same => by cases same⟩
    | cons m rest =>
      obtain ⟨sent, sending, after⟩ := afterSendCases move
      refine ⟨?_, fun next go => ?_⟩
      · split at sending
        · exact sendCheckers (fun _ _ => rfl) sending
        · exact sendCheckers (fun _ _ => rfl) sending
      · rcases after with ⟨-, same⟩ | ⟨e, -, same⟩ <;> cases go <;> cases same
        trivial
  | covering held =>
    cases held with
    | none =>
      obtain ⟨⟨g, found⟩, received, same⟩ := List.mem_map.mp move
      have kept : g.checkers = f.checkers := receiveCheckers received
      cases found <;> obtain ⟨rfl, rfl⟩ := Prod.mk.inj same
      · exact ⟨kept, fun next same => by cases same⟩
      · exact ⟨kept, fun next same => by (cases same; trivial)⟩
    | some m =>
      obtain ⟨sent, sending, after⟩ := afterSendCases move
      refine ⟨?_, fun next go => ?_⟩
      · split at sending
        · exact sendCheckers (fun _ _ => rfl) sending
        · exact sendCheckers (fun _ _ => rfl) sending
      · rcases after with ⟨-, same⟩ | ⟨e, -, same⟩ <;> cases go <;> cases same
        trivial
  | testing planOf t =>
    refine ⟨Machine.withinState (fun u => u.checkers = f.checkers) move
      (fun u o inner => runTestsCheckers inner) fun _ _ same => same, fun next go => ?_⟩
    rcases Machine.withinCases move with ⟨later, -, same⟩ | ⟨u, r, -, same⟩ | ⟨-, same⟩ <;>
      cases go <;> cases same
    trivial
  | checking plan stage => exact apart.elim
  | releasing share h => exact apart.elim

end Role

namespace Stage
variable {plan : StagePlan} {stage : Stage} {v v' : StageView}
  {n : Next Stage (Except RunError Unit)}

theorem drainingSite (drains : stage.isDraining = true) (move : (v', n) ∈ moves plan stage v) :
    v'.site = v.site ∨ ∃ note, v'.site = v.site.note note := by
  cases stage with
  | draining batch =>
    obtain ⟨⟨input, found⟩, -, same⟩ := List.mem_map.mp move
    cases found with
    | some m => cases same; exact .inl rfl
    | none =>
      simp only at same
      split at same
      · cases same; exact .inr ⟨_, rfl⟩
      · cases same; exact .inl rfl
  | _ => cases drains

end Stage

namespace Role

theorem visitsServed (size : Nat) (role : Role) : Served (role.visits size) := by
  have none : Served [] := fun x member => by cases member
  cases role with
  | releasing share h =>
    cases h with
    | disposing d => exact d.served size
    | _ => exact none
  | _ => exact none

theorem visitsCalm (size : Nat) (role : Role) :
    (role.visits size).countP Stance.isMaking = 0 := by
  cases role with
  | releasing share h =>
    cases h with
    | disposing d => exact d.calm size
    | _ => rfl
  | _ => rfl

theorem Waits.level {p q : Pool} {role : Role} (waits : role.Waits p) (level : p.Level q) :
    role.Waits q := by
  cases role with
  | releasing share h =>
    cases h with
    | disposing d =>
      cases d with
      | asking | closing ticket => trivial
      | waiting ticket wanted =>
        have wanted : wanted = min p.capacity mostAwaited := waits
        exact wanted.trans (by rw [level.capacity])
      | _ => exact level.closed.trans waits
    | _ => trivial
  | _ => trivial

theorem handoverForeign {share : Nat} {h : Handover} {o : Next Handover (Except RunError Unit)}
    (waits : (Role.releasing share h).Waits f.checkers.pool)
    (whole : f.checkers.pool.capacity = size) (modest : (Role.releasing share h).Modest)
    (move : (f', o) ∈ handover share place h f) :
    Site.Foreign
        ((f'.checkers.pool.permits.closed = true ∧ mostAwaited < size) ∧
          (Role.releasing share h).Disposes)
        ((Role.releasing share h).visits size)
        (o.elim (fun later => (Role.releasing share later).visits size)
          (fun _ => (Role.releasing share h).visits size) ((Role.releasing share h).visits size))
        f.checkers f'.checkers ∧
      o.elim (fun later => (Role.releasing share later).Waits f'.checkers.pool)
        (fun _ => (Role.releasing share h).Waits f'.checkers.pool)
        ((Role.releasing share h).Waits f'.checkers.pool) := by
  cases h with
  | forwarding held =>
    cases held with
    | none =>
      obtain ⟨⟨g, found⟩, received, same⟩ := List.mem_map.mp move
      have kept : g.checkers = f.checkers := receiveCheckers received
      cases found <;> cases same
      · exact ⟨kept ▸ .refl _ _ _, trivial⟩
      · exact ⟨kept ▸ .refl _ _ _, trivial⟩
    | some m =>
      obtain ⟨⟨g, sent⟩, sending, same⟩ := List.mem_map.mp move
      have kept : g.checkers = f.checkers := sendCheckers (fun _ _ => rfl) sending
      cases sent <;> cases same
      · exact ⟨kept ▸ .refl _ _ _, trivial⟩
      · exact ⟨kept ▸ .refl _ _ _, trivial⟩
  | disposing d =>
    have fits : d.Fits f.checkers.pool := waits
    rcases Machine.withinCases move with ⟨later, inner, rfl⟩ | ⟨u, r, inner, same⟩ | ⟨inner, rfl⟩
    · obtain ⟨s, moved, rfl⟩ := Machine.onCases inner
      obtain ⟨foreign, fits⟩ := Disposal.movesForeign fits whole modest moved
      exact ⟨foreign.when fun many => ⟨many, trivial⟩, fits⟩
    · obtain ⟨s, moved, rfl⟩ := Machine.onCases inner
      obtain ⟨foreign, fits⟩ := Disposal.movesForeign fits whole modest moved
      have foreign := foreign.when fun many => And.intro many trivial
      cases r with
      | ok r =>
        cases same
        have nothing : d.stances size = [] := Disposal.movesOver moved
        rw [Next.elim, nothing] at foreign
        have none : (Role.releasing share (.disposing d)).visits size = [] := nothing
        rw [none]
        exact ⟨foreign, trivial⟩
      | error e =>
        cases same
        exact ⟨foreign, fits⟩
    · obtain ⟨s, moved, rfl⟩ := Machine.onCases inner
      obtain ⟨foreign, fits⟩ := Disposal.movesForeign fits whole modest moved
      exact ⟨foreign.when fun many => ⟨many, trivial⟩, fits⟩
  | growing =>
    obtain ⟨rfl, rfl⟩ := memFinish.mp move
    exact ⟨.refl _ _ _, trivial⟩

theorem handoverAloof {share : Nat} {h : Handover} {n : Next Handover (Except RunError Unit)}
    (modest : (Role.releasing share h).Modest) (move : (f', n) ∈ handover share place h f) :
    f.checkers.crew.Aloof f'.checkers.crew := by
  have same (kept : f'.checkers = f.checkers) : f.checkers.crew.Aloof f'.checkers.crew :=
    kept ▸ Crew.Quiet.aloof ⟨rfl, rfl, rfl⟩
  cases h with
  | forwarding held =>
    cases held with
    | none =>
      obtain ⟨⟨g, found⟩, received, after⟩ := List.mem_map.mp move
      have kept : g.checkers = f.checkers := receiveCheckers received
      cases found <;> cases after <;> exact same kept
    | some m =>
      obtain ⟨⟨g, sent⟩, sending, after⟩ := List.mem_map.mp move
      have kept : g.checkers = f.checkers := sendCheckers (fun _ _ => rfl) sending
      cases sent <;> cases after <;> exact same kept
  | disposing d =>
    refine Machine.withinState (fun u => f.checkers.crew.Aloof u.checkers.crew) move
      (fun u o inner => ?_) fun r u kept => ?_
    · obtain ⟨s, moved, rfl⟩ := Machine.onCases inner
      exact ⟨_, _, Disposal.movesTurn modest moved⟩
    · cases r <;> exact kept
  | growing =>
    obtain ⟨rfl, -⟩ := memFinish.mp move
    exact same rfl

theorem handoverFewer {share : Nat} {h : Handover} {n : Next Handover (Except RunError Unit)}
    (move : (f', n) ∈ handover share place h f) : f.checkers.pool.Onward f'.checkers.pool ∧
      f'.checkers.pool.members.length ≤ f.checkers.pool.members.length := by
  have same (kept : f'.checkers = f.checkers) : f.checkers.pool.Onward f'.checkers.pool ∧
      f'.checkers.pool.members.length ≤ f.checkers.pool.members.length :=
    kept ▸ ⟨(Pool.Level.refl _).onward, Nat.le_refl _⟩
  cases h with
  | forwarding held =>
    cases held with
    | none =>
      obtain ⟨⟨g, found⟩, received, after⟩ := List.mem_map.mp move
      have kept : g.checkers = f.checkers := receiveCheckers received
      cases found <;> cases after <;> exact same kept
    | some m =>
      obtain ⟨⟨g, sent⟩, sending, after⟩ := List.mem_map.mp move
      have kept : g.checkers = f.checkers := sendCheckers (fun _ _ => rfl) sending
      cases sent <;> cases after <;> exact same kept
  | disposing d =>
    refine Machine.withinState (fun u => f.checkers.pool.Onward u.checkers.pool ∧
      u.checkers.pool.members.length ≤ f.checkers.pool.members.length) move (fun u o inner => ?_)
      fun r u kept => ?_
    · obtain ⟨s, moved, rfl⟩ := Machine.onCases inner
      exact Disposal.movesOnward moved
    · cases r <;> exact kept
  | growing =>
    obtain ⟨rfl, -⟩ := memFinish.mp move
    exact same rfl

theorem closeCheckers (place : Nat) (role : Role) (f : Floor) :
    (role.close place f).checkers = f.checkers := by
  unfold close
  dsimp only
  split <;> rfl

end Role

namespace Task
variable {t u : Task} {place size : Nat} {f f' : Floor} {o : Orders}

def visits (size : Nat) : Task → List Stance
  | .working role | .leaving role _ => role.visits size
  | _ => []

def Waits (p : Pool) : Task → Prop
  | .working role | .leaving role _ => role.Waits p
  | _ => True

theorem visitsServed (size : Nat) (t : Task) : Served (t.visits size) := by
  cases t with
  | working role => exact role.visitsServed size
  | leaving role outcome => exact role.visitsServed size
  | _ => exact fun x member => by cases member

theorem visitsCalm (size : Nat) (t : Task) : (t.visits size).countP Stance.isMaking = 0 := by
  cases t with
  | working role => exact role.visitsCalm size
  | leaving role outcome => exact role.visitsCalm size
  | _ => rfl

theorem visitsAside (aside : ∀ share h, t.role? ≠ some (.releasing share h)) (size : Nat) :
    t.visits size = [] := by
  cases t with
  | working role =>
    cases role with
    | releasing share h => exact absurd rfl (aside share h)
    | _ => rfl
  | leaving role outcome =>
    cases role with
    | releasing share h => exact absurd rfl (aside share h)
    | _ => rfl
  | _ => rfl

theorem waitsAside (aside : ∀ share h, t.role? ≠ some (.releasing share h)) (p : Pool) :
    t.Waits p := by
  cases t with
  | working role =>
    cases role with
    | releasing share h => exact absurd rfl (aside share h)
    | _ => trivial
  | leaving role outcome =>
    cases role with
    | releasing share h => exact absurd rfl (aside share h)
    | _ => trivial
  | _ => trivial

theorem Waits.level {p q : Pool} (waits : t.Waits p) (level : p.Level q) : t.Waits q := by
  cases t with
  | working role => exact Role.Waits.level waits level
  | leaving role outcome => exact Role.Waits.level waits level
  | _ => trivial

def Checks : Task → Prop
  | .working (.checking ..) | .leaving (.checking ..) _ => True
  | _ => False

def Strands : Task → Prop
  | .leaving (.checking _ stage) _ => stage.isFilling = true
  | _ => False

def Holds (active : String → Nat → Prop) (others : List Stance) (s : CheckSite) : Task → Prop
  | .working (.checking plan stage) => stage.Sound plan.checker (active plan.checker) others s
  | .leaving (.checking plan stage) _ => stage.Left plan.checker (active plan.checker) others s
  | _ => s.Still ∧ s.Booked [] others

theorem Busy.checks (busy : t.Busy) : t.Checks := by
  cases t with
  | working role =>
    cases role with
    | checking plan stage => trivial
    | _ => exact busy.elim
  | leaving role outcome =>
    cases role with
    | checking plan stage => trivial
    | _ => exact busy.elim
  | _ => exact busy.elim

theorem Strands.found (strands : t.Strands) :
    ∃ plan batch f outcome, t = .leaving (.checking plan (.filling batch f)) outcome := by
  cases t with
  | leaving role outcome =>
    cases role with
    | checking plan stage =>
      cases stage with
      | filling batch f => exact ⟨plan, batch, f, outcome, rfl⟩
      | _ => cases strands
    | _ => exact strands.elim
  | _ => exact strands.elim

theorem Checks.role (checks : t.Checks) :
    ¬t.Gone ∧ ∃ plan stage, t.role? = some (.checking plan stage) := by
  cases t with
  | working role =>
    cases role with
    | checking plan stage => exact ⟨id, plan, stage, rfl⟩
    | _ => exact checks.elim
  | leaving role outcome =>
    cases role with
    | checking plan stage => exact ⟨id, plan, stage, rfl⟩
    | _ => exact checks.elim
  | _ => exact checks.elim

theorem Holds.idle (idle : ¬t.Busy) :
    t.Holds active others s ↔ s.Still ∧ s.Booked [] others := by
  cases t with
  | working role =>
    cases role with
    | checking plan stage =>
      cases stage with
      | draining batch =>
        refine ⟨fun sound => ⟨Site.stillOf sound.numbered sound.attended, sound.booked⟩, ?_⟩
        exact fun ⟨still, booked⟩ => ⟨still.numbered, still.attended, booked, trivial⟩
      | _ => exact absurd rfl idle
    | _ => exact Iff.rfl
  | leaving role outcome =>
    cases role with
    | checking plan stage =>
      cases stage with
      | draining batch =>
        refine ⟨fun left => ?_, fun ⟨still, booked⟩ => ⟨still.numbered, still.attended, fun _ => ?_⟩⟩
        · obtain ⟨numbered, attended, booked⟩ := left.vacate
          exact ⟨Site.stillOf numbered attended, booked rfl⟩
        · exact booked.left (fun x member => by cases member) (.refl _)
      | _ => exact absurd rfl idle
    | _ => exact Iff.rfl
  | _ => exact Iff.rfl

theorem Holds.foreign {alone : Prop} (holds : t.Holds active others s)
    (foreign : Site.Foreign alone others others' s s') (apart : alone → ¬t.Busy) :
    t.Holds active others' s' := by
  by_cases busy : t.Busy
  · have together (own : List Stance) (booked : s.Booked own others) : s'.Booked own others' :=
      foreign.booked own (fun only => absurd busy (apart only)) booked
    obtain ⟨old, new, turn⟩ := foreign.aloof
    cases t with
    | working role =>
      cases role with
      | checking plan stage =>
        have sound : stage.Sound plan.checker (active plan.checker) others s := holds
        exact sound.drift foreign.lasts (turn.drift fun _ _ => by rw [foreign.seats])
          (foreign.aloof.numbered sound.numbered) (foreign.aloof.attended sound.attended)
          (together _ sound.booked)
      | _ => exact busy.elim
    | leaving role outcome =>
      cases role with
      | checking plan stage =>
        have left : stage.Left plan.checker (active plan.checker) others s := holds
        refine ⟨foreign.aloof.numbered left.numbered, foreign.aloof.attended left.attended, ?_⟩
        intro filled
        rcases left.left filled with closed | ⟨own, same, served, kept⟩
        · refine .inl ?_
          by_contra opened
          rw [Bool.not_eq_true] at opened
          rw [← (foreign.lasts opened).closed, opened] at closed
          cases closed
        · exact (together own (.inr kept)).left served same
      | _ => exact busy.elim
    | _ => exact busy.elim
  · obtain ⟨still, booked⟩ := (Holds.idle busy).mp holds
    exact (Holds.idle busy).mpr
      ⟨still.aloof foreign.aloof, foreign.booked [] (fun _ => rfl) booked⟩

section Moves
variable (move : (f', u) ∈ t.moves place f)
include move

theorem movesHolds (checks : t.Checks) (stays : ∀ role, t.role? = some role → role.At o place)
    (served : Served others) (calm : others.countP Stance.isMaking = 0)
    (holds : t.Holds active others f.checkers) :
    f.checkers.pool.Level f'.checkers.pool ∧
      (u.Holds active others f'.checkers ∨ (t.Strands ∧ ¬u.Busy ∧ f'.checkers.Still)) := by
  cases t with
  | working role =>
    cases role with
    | checking plan stage =>
      obtain ⟨-, -, recovers⟩ : (Role.checking plan stage).At o place := stays _ rfl
      have sound : stage.Sound plan.checker (active plan.checker) others f.checkers := holds
      obtain ⟨⟨g, n⟩, inner, same⟩ := List.mem_map.mp move
      rcases Machine.withinCases inner with ⟨q, moved, rfl⟩ | ⟨w, r, moved, ended⟩ | ⟨moved, rfl⟩
      · obtain ⟨v, own, rfl⟩ := Machine.onCases moved
        cases same
        exact ⟨Stage.movesLevel own,
          .inl (Stage.movesFollows recovers served calm sound own)⟩
      · obtain ⟨v, own, rfl⟩ := Machine.onCases moved
        cases ended
        cases same
        exact ⟨Stage.movesLevel own,
          .inl (Stage.movesFollows recovers served calm sound own)⟩
      · obtain ⟨v, own, rfl⟩ := Machine.onCases moved
        cases same
        exact ⟨Stage.movesLevel own,
          .inl (Stage.movesFollows recovers served calm sound own)⟩
    | _ => exact checks.elim
  | leaving role outcome =>
    cases role with
    | checking plan stage =>
      have left : stage.Left plan.checker (active plan.checker) others f.checkers := holds
      cases List.mem_singleton.mp move
      obtain ⟨numbered, attended, booked⟩ := left.vacate
      have still := Site.stillOf numbered attended
      refine ⟨(f.checkers.pool.forgetAllAlike stage.tickets).level, ?_⟩
      cases filling : stage.isFilling with
      | true => exact .inr ⟨filling, id, still⟩
      | false => exact .inl ⟨still, booked filling⟩
    | _ => exact checks.elim
  | _ => exact checks.elim

theorem movesAside (idle : ¬t.Busy) (aside : ∀ share h, t.role? ≠ some (.releasing share h)) :
    (f'.checkers = f.checkers ∨ ∃ note, f'.checkers = f.checkers.note note) ∧
      ∀ share h, u.role? ≠ some (.releasing share h) := by
  cases t with
  | working role =>
    obtain ⟨⟨g, n⟩, inner, same⟩ := List.mem_map.mp move
    have apart (apart : role.Apart) :
        (f'.checkers = f.checkers ∨ ∃ note, f'.checkers = f.checkers.note note) ∧
          ∀ share h, u.role? ≠ some (.releasing share h) := by
      obtain ⟨kept, stays⟩ := Role.movesApart apart inner
      cases n with
      | go next =>
        cases same
        refine ⟨.inl kept, fun share h same => ?_⟩
        cases same
        exact (stays _ rfl).elim
      | done r => cases same; exact ⟨.inl kept, aside⟩
      | panicked => cases same; exact ⟨.inl kept, aside⟩
    cases role with
    | checking plan stage =>
      have drains : stage.isDraining = true := by simpa [Busy, Role.Busy] using idle
      rcases Machine.withinCases inner with ⟨q, moved, rfl⟩ | ⟨w, r, moved, ended⟩ | ⟨moved, rfl⟩
      · obtain ⟨v, own, rfl⟩ := Machine.onCases moved
        cases same
        exact ⟨Stage.drainingSite drains own, fun share h same => by cases same⟩
      · obtain ⟨v, own, rfl⟩ := Machine.onCases moved
        cases ended
        cases same
        exact ⟨Stage.drainingSite drains own, aside⟩
      · obtain ⟨v, own, rfl⟩ := Machine.onCases moved
        cases same
        exact ⟨Stage.drainingSite drains own, aside⟩
    | releasing share h => exact absurd rfl (aside share h)
    | ignoring rest => exact apart trivial
    | covering held => exact apart trivial
    | testing planOf t => exact apart trivial
  | leaving role outcome =>
    cases List.mem_singleton.mp move
    refine ⟨.inl ?_, aside⟩
    cases role with
    | checking plan stage =>
      cases stage with
      | draining batch => rfl
      | _ => exact absurd rfl idle
    | releasing share h => exact absurd rfl (aside share h)
    | testing planOf t => cases t <;> rfl
    | _ => rfl
  | closing role outcome =>
    cases List.mem_singleton.mp move
    exact ⟨.inl (role.closeCheckers place f), fun _ _ none => by cases none⟩
  | closed outcome =>
    cases List.mem_singleton.mp move
    exact ⟨.inl rfl, aside⟩
  | _ => cases move

theorem movesForeign {share : Nat} {h : Handover} (own : t.role? = some (.releasing share h))
    (waits : t.Waits f.checkers.pool) (whole : f.checkers.pool.capacity = size)
    (modest : t.Modest) :
    Site.Foreign
      ((f'.checkers.pool.permits.closed = true ∧ mostAwaited < size) ∧ t.Disposes)
      (t.visits size) (u.visits size) f.checkers f'.checkers ∧ u.Waits f'.checkers.pool := by
  cases t with
  | working role =>
    cases own
    obtain ⟨⟨g, n⟩, inner, same⟩ := List.mem_map.mp move
    rcases Machine.withinCases inner with ⟨later, moved, rfl⟩ | ⟨w, r, moved, ended⟩ |
      ⟨moved, rfl⟩
    · cases same
      exact Role.handoverForeign waits whole modest moved
    · cases ended
      cases same
      exact Role.handoverForeign waits whole modest moved
    · cases same
      exact Role.handoverForeign waits whole modest moved
  | leaving role outcome =>
    cases own
    cases List.mem_singleton.mp move
    cases h with
    | disposing d =>
      have alike := f.checkers.pool.forgetAllAlike d.tickets
      refine ⟨⟨f.checkers.crew.abandonAllAloof d.tokens, Crew.abandonAllSeats _ _,
        alike.lasts, alike.capacity, fun own _ booked => ?_⟩, trivial⟩
      exact Disposal.vacateBooked waits booked d.tokens
    | _ => exact ⟨.refl _ _ _, trivial⟩
  | closing role outcome =>
    cases List.mem_singleton.mp move
    exact ⟨role.closeCheckers place f ▸ .refl _ _ _, trivial⟩
  | _ => cases own

theorem movesAloof (idle : ¬t.Busy) (modest : t.Modest) :
    f.checkers.crew.Aloof f'.checkers.crew := by
  by_cases releasing : ∃ share h, t.role? = some (.releasing share h)
  · obtain ⟨share, h, own⟩ := releasing
    cases t with
    | working role =>
      cases own
      obtain ⟨⟨g, n⟩, inner, same⟩ := List.mem_map.mp move
      have aloof := Machine.withinState (fun u => f.checkers.crew.Aloof u.checkers.crew) inner
        (fun _ _ moved => Role.handoverAloof modest moved) fun _ _ kept => kept
      cases n <;> cases same <;> exact aloof
    | leaving role outcome =>
      cases own
      cases List.mem_singleton.mp move
      cases h with
      | disposing d => exact f.checkers.crew.abandonAllAloof d.tokens
      | _ => exact Crew.Quiet.aloof ⟨rfl, rfl, rfl⟩
    | closing role outcome =>
      cases List.mem_singleton.mp move
      exact role.closeCheckers place f ▸ Crew.Quiet.aloof ⟨rfl, rfl, rfl⟩
    | _ => cases own
  · have aside (share : Nat) (h : Handover) : t.role? ≠ some (.releasing share h) :=
      fun own => releasing ⟨share, h, own⟩
    rcases (Task.movesAside move idle aside).1 with same | ⟨note, same⟩ <;> rw [same] <;>
      exact Crew.Quiet.aloof ⟨rfl, rfl, rfl⟩

theorem movesFewer (idle : ¬t.Busy) : f.checkers.pool.Onward f'.checkers.pool ∧
    f'.checkers.pool.members.length ≤ f.checkers.pool.members.length := by
  have same (alike : f.checkers.pool.Alike f'.checkers.pool) :
      f.checkers.pool.Onward f'.checkers.pool ∧
        f'.checkers.pool.members.length ≤ f.checkers.pool.members.length :=
    ⟨alike.level.onward, Nat.le_of_eq (congrArg List.length alike.members)⟩
  by_cases releasing : ∃ share h, t.role? = some (.releasing share h)
  · obtain ⟨share, h, own⟩ := releasing
    cases t with
    | working role =>
      cases own
      obtain ⟨⟨g, n⟩, inner, after⟩ := List.mem_map.mp move
      have onward := Machine.withinState (fun u => f.checkers.pool.Onward u.checkers.pool ∧
        u.checkers.pool.members.length ≤ f.checkers.pool.members.length) inner
        (fun _ _ => Role.handoverFewer) fun _ _ kept => kept
      cases n <;> cases after <;> exact onward
    | leaving role outcome =>
      cases own
      cases List.mem_singleton.mp move
      cases h with
      | disposing d => exact same (f.checkers.pool.forgetAllAlike d.tickets)
      | _ => exact same (.refl _)
    | closing role outcome =>
      cases List.mem_singleton.mp move
      exact same (role.closeCheckers place f ▸ .refl _)
    | _ => cases own
  · have aside (share : Nat) (h : Handover) : t.role? ≠ some (.releasing share h) :=
      fun own => releasing ⟨share, h, own⟩
    rcases (Task.movesAside move idle aside).1 with kept | ⟨note, kept⟩ <;>
      exact same (kept ▸ .refl _)

theorem movesOnward : f.checkers.pool.Onward f'.checkers.pool := by
  by_cases busy : t.Busy
  · cases t with
    | working role =>
      cases role with
      | checking plan stage =>
        obtain ⟨⟨g, n⟩, inner, after⟩ := List.mem_map.mp move
        have level := Machine.withinState (fun u => f.checkers.pool.Level u.checkers.pool) inner
          (fun u o moved => by
            obtain ⟨v, own, rfl⟩ := Machine.onCases moved
            exact Stage.movesLevel own) fun _ _ kept => kept
        cases n <;> cases after <;> exact level.onward
      | _ => exact busy.elim
    | leaving role outcome =>
      cases role with
      | checking plan stage =>
        cases List.mem_singleton.mp move
        exact (f.checkers.pool.forgetAllAlike stage.tickets).level.onward
      | _ => exact busy.elim
    | _ => exact busy.elim
  · exact (Task.movesFewer move busy).1

end Moves

end Task

end MutationPipeline
