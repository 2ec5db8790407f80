import MutationPipeline.Proofs.Pipeline.Roles
import MutationPipeline.Proofs.Worker.Orders

/-! The stages of the checkers one after the other. A stage begins its work only when nothing more can
come to it, and so only when all tasks before it are gone: each of them sends as long as it is there,
and whoever was sent something has received it from a task that began its work itself. -/
namespace MutationPipeline

theorem Channel.receiveEnded {α : Type} {c d : Channel α} (received : (d, none) ∈ c.receive) :
    c.senders = 0 ∧ c.items = [] ∧ d = c := by
  unfold Channel.receive at received
  split at received
  · cases List.mem_singleton.mp received
  · next items =>
    split at received
    · next senders =>
      cases List.mem_singleton.mp received
      exact ⟨senders, items, rfl⟩
    · cases received

theorem Channel.receiveSenders {α : Type} {c d : Channel α} {x : Option α}
    (received : (d, x) ∈ c.receive) : d.senders = c.senders := by
  unfold Channel.receive at received
  split at received
  · cases List.mem_singleton.mp received
    rfl
  · split at received
    · cases List.mem_singleton.mp received
      rfl
    · cases received

theorem Channel.sendSenders {α : Type} {c d : Channel α} {x : α} {taken : Bool}
    (sent : (d, taken) ∈ c.send x) : d.senders = c.senders := by
  unfold Channel.send at sent
  split at sent
  · cases List.mem_singleton.mp sent
    rfl
  · split at sent
    · cases List.mem_singleton.mp sent
      rfl
    · cases sent

namespace Floor
variable {place p : Nat} {sends : Prop} {f f' g : Floor} {c : Channel CoveredMutant}

/-- What a task at a place does with channels: it may take something from the one in front of it,
and if it `sends`, put something into the one behind it. -/
structure Passed (place : Nat) (sends : Prop) (f f' : Floor) : Prop where
  length : f'.links.length = f.links.length
  senders : ∀ p, (f'.link p).senders = (f.link p).senders
  items : ∀ p, (f'.link p).items ≠ [] → (f.link p).items ≠ [] ∨ (p = place + 1 ∧ sends)

theorem Passed.same (links : f'.links = f.links) : Passed place sends f f' where
  length := by rw [links]
  senders := fun p => by rw [link, link, links]
  items := fun p some => .inl (by rwa [link, links] at some)

theorem Passed.trans (first : Passed place sends f g) (second : Passed place sends g f') :
    Passed place sends f f' where
  length := second.length.trans first.length
  senders := fun p => (second.senders p).trans (first.senders p)
  items := fun p some => (second.items p some).elim (first.items p) .inr

theorem Passed.set (senders : c.senders = (f.link p).senders)
    (items : c.items ≠ [] → (f.link p).items ≠ [] ∨ (p = place + 1 ∧ sends)) :
    Passed place sends f (setLink p c f) := by
  refine ⟨List.length_set, fun q => ?_, fun q some => ?_⟩
  · by_cases same : q = p
    · subst same
      by_cases inside : q < f.links.length
      · simpa [setLink, link, List.getD_eq_getElem?_getD, inside] using senders
      · simp [setLink, link, List.getD_eq_getElem?_getD, inside]
    · rw [linkSetOther same]
  · by_cases same : q = p
    · subst same
      rcases linkSetSelf q c f with here | ⟨none, -⟩
      · exact items (here ▸ some)
      · exact absurd none some
    · rw [linkSetOther same] at some
      exact .inl some

theorem Passed.receive {x : Option CoveredMutant} (move : (f', x) ∈ f.receive (input place)) :
    Passed place sends f f' := by
  obtain ⟨⟨c, found⟩, received, same⟩ := List.mem_map.mp move
  cases same
  refine .set (Channel.receiveSenders received) fun some => .inl ?_
  rcases Channel.receiveCases received with ⟨y, -, items⟩ | ⟨-, rfl⟩
  · have before : (f.link place).items = y :: c.items := items
    rw [before]
    exact List.cons_ne_nil _ _
  · exact some

theorem Passed.send {name : String} {m : CoveredMutant} {sent : Except RunError Unit}
    (move : (f', sent) ∈ f.send (output place) name m) : Passed place True f f' := by
  obtain ⟨⟨c, taken⟩, sending, same⟩ := List.mem_map.mp move
  cases same
  exact .set (Channel.sendSenders sending) fun _ => .inr ⟨rfl, trivial⟩

theorem Passed.result {name : String} {x : MutantResult} {sent : Except RunError Unit}
    (move : (f', sent) ∈ f.send onResults name x) : Passed place sends f f' := by
  obtain ⟨⟨c, taken⟩, -, same⟩ := List.mem_map.mp move
  cases same
  exact .same rfl

end Floor

namespace Stage
variable {plan : StagePlan} {stage : Stage} {v v' : StageView}
  {n : Next Stage (Except RunError Unit)}

def isDraining : Stage → Bool
  | .draining _ => true
  | _ => false

def sends : Stage → Bool
  | .checking _ | .routing .. => true
  | _ => false

def Fed (c : Channel CoveredMutant) : Stage → Prop
  | .draining batch => batch ≠ [] ∨ c.items ≠ []
  | _ => True

structure Passed (stage : Stage) (v v' : StageView) : Prop where
  input : v'.input.senders = v.input.senders
  emptier : v'.input.items ≠ [] → v.input.items ≠ []
  passed : v'.passed.senders = v.passed.senders
  sent : v'.passed.items ≠ [] → v.passed.items ≠ [] ∨ stage.sends = true

theorem Passed.aside (input : v'.input = v.input) (passed : v'.passed = v.passed) :
    Passed stage v v' :=
  ⟨by rw [input], by rw [input]; exact id, by rw [passed], by rw [passed]; exact .inl⟩

theorem onSiteAside {φ ρ : Type} {m : Machine CheckSite φ ρ} {p : φ} {embed : φ → Stage}
    {after : ρ → StageView → StageView × Next Stage (Except RunError Unit)}
    (move : (v', n) ∈ (onSite m).within embed after p v) (still : ∀ r u, (after r u).1 = u) :
    v'.input = v.input ∧ v'.passed = v.passed := by
  refine Machine.withinState (fun u => u.input = v.input ∧ u.passed = v.passed) move
    (fun u o inner => ?_) fun r u same => (still r u).symm ▸ same
  obtain ⟨w, -, rfl⟩ := Machine.onCases inner
  exact ⟨rfl, rfl⟩

theorem notesAside (notes : List Note) (v : StageView) :
    (notes.foldl StageView.note v).input = v.input ∧
      (notes.foldl StageView.note v).passed = v.passed := by
  induction notes generalizing v with
  | nil => exact ⟨rfl, rfl⟩
  | cons first rest ih => exact ih (v.note first)

theorem routePassed {m : CoveredMutant} {verdict : Verdict} {sent : Except RunError Unit}
    (sends : stage.sends = true) (move : (v', sent) ∈ route v m verdict) : Passed stage v v' := by
  unfold route at move
  split at move
  · obtain ⟨⟨channel, taken⟩, sending, same⟩ := List.mem_map.mp move
    cases same
    exact ⟨rfl, id, Channel.sendSenders sending, fun _ => .inr sends⟩
  · obtain ⟨⟨channel, taken⟩, -, same⟩ := List.mem_map.mp move
    cases same
    exact .aside rfl rfl

theorem movesPassed (move : (v', n) ∈ moves plan stage v) : Passed stage v v' := by
  cases stage with
  | draining batch =>
    obtain ⟨⟨input, found⟩, received, same⟩ := List.mem_map.mp move
    have taken : Passed (.draining batch) v { v with input } := by
      refine ⟨Channel.receiveSenders received, fun some => ?_, rfl, .inl⟩
      rcases Channel.receiveCases received with ⟨y, -, items⟩ | ⟨-, rfl⟩
      · rw [items]
        exact List.cons_ne_nil _ _
      · exact some
    cases found with
    | some m => cases same; exact taken
    | none =>
      simp only at same
      split at same
      · cases same
        exact ⟨taken.input, taken.emptier, taken.passed, taken.sent⟩
      · cases same
        exact taken
  | filling batch f =>
    obtain ⟨input, passed⟩ := onSiteAside move fun r u => by cases r <;> rfl
    exact .aside input passed
  | activating batch b =>
    obtain ⟨input, passed⟩ := onSiteAside move fun r u => by cases r <;> rfl
    exact .aside input passed
  | borrowing batch a =>
    obtain ⟨input, passed⟩ := onSiteAside move fun r u => by cases r <;> rfl
    exact .aside input passed
  | asking batch ticket c =>
    obtain ⟨input, passed⟩ := onSiteAside move fun r u => rfl
    exact .aside input passed
  | returning batch ticket answer r =>
    obtain ⟨input, passed⟩ := onSiteAside move fun r u => by cases answer <;> rfl
    exact .aside input passed
  | grouping batch own =>
    obtain ⟨input, passed⟩ := notesAside (groupsOf plan batch own).2 v
    simp only [moves] at move
    split at move
    · obtain ⟨rfl, -⟩ := memStep.mp move
      exact .aside input passed
    · obtain ⟨rfl, -⟩ := memFinish.mp move
      exact .aside input passed
  | checking f =>
    have same : v'.input = v.input ∧ v'.passed = v.passed := by
      refine Machine.withinState (fun u => u.input = v.input ∧ u.passed = v.passed) move
        (fun u o inner => ?_) fun r u same => ?_
      · rcases (Schedule.movesMoved inner).state with rfl | ⟨w, rfl⟩ | ⟨item, more⟩
        · exact ⟨rfl, rfl⟩
        · exact ⟨rfl, rfl⟩
        · cases List.mem_singleton.mp more
          exact ⟨rfl, rfl⟩
      · obtain ⟨y, g⟩ := r
        cases y with
        | none => exact same
        | some y =>
          obtain ⟨group, result⟩ := y
          cases result with
          | error e => exact same
          | ok answer => cases answer <;> exact same
    exact .aside same.1 same.2
  | routing group verdicts f =>
    cases group with
    | nil =>
      obtain ⟨rfl, -⟩ := memStep.mp move
      exact .aside rfl rfl
    | cons m rest =>
      simp only [moves] at move
      split at move
      · obtain ⟨rfl, -⟩ := memFinish.mp move
        exact .aside rfl rfl
      · obtain ⟨⟨u, sent⟩, routed, same⟩ := List.mem_map.mp move
        have passed : Passed (.routing (m :: rest) verdicts f) v u := routePassed rfl routed
        cases sent <;> cases same <;> exact passed

structure Onward (stage : Stage) (v v' : StageView) (next : Stage) : Prop where
  fed : next.Fed v'.input → stage.Fed v.input
  sends : stage.sends = true → next.sends = true
  begins : next.isDraining = false → stage.isDraining = true →
    v.input.senders = 0 ∧ stage.Fed v.input

theorem Onward.later {next : Stage} (begun : stage.isDraining = false)
    (sends : stage.sends = true → next.sends = true) : Onward stage v v' next where
  fed := by
    intro _
    cases stage with
    | draining batch => cases begun
    | _ => trivial
  sends := sends
  begins := fun _ drains => absurd (begun.symm.trans drains) (by decide)

theorem Onward.quiet {next : Stage} (begun : stage.isDraining = false)
    (quiet : stage.sends = false) : Onward stage v v' next :=
  .later begun fun sends => absurd (quiet.symm.trans sends) (by decide)

theorem movesOnward {next : Stage} (move : (v', .go next) ∈ moves plan stage v) :
    Onward stage v v' next := by
  cases stage with
  | draining batch =>
    obtain ⟨⟨input, found⟩, received, same⟩ := List.mem_map.mp move
    cases found with
    | some m =>
      cases same
      refine ⟨fun _ => .inr ?_, (fun sends => by cases sends), fun drains => by cases drains⟩
      rcases Channel.receiveCases received with ⟨y, -, items⟩ | ⟨same, -⟩
      · rw [items]
        exact List.cons_ne_nil _ _
      · cases same
    | none =>
      obtain ⟨senders, -, -⟩ := Channel.receiveEnded received
      simp only at same
      split at same
      · cases same
      · next some =>
        cases same
        have fed : (Stage.draining batch).Fed v.input := .inl (by simpa using some)
        exact ⟨fun _ => fed, (fun sends => by cases sends), fun _ _ => ⟨senders, fed⟩⟩
  | filling batch f => exact .quiet rfl rfl
  | activating batch b => exact .quiet rfl rfl
  | borrowing batch a => exact .quiet rfl rfl
  | asking batch ticket c => exact .quiet rfl rfl
  | returning batch ticket answer r => exact .quiet rfl rfl
  | grouping batch own => exact .quiet rfl rfl
  | checking f =>
    refine .later rfl fun _ => ?_
    rcases Machine.withinCases move with ⟨g, -, same⟩ | ⟨u, ⟨y, g⟩, -, same⟩ | ⟨-, same⟩
    · cases same
      rfl
    · cases y with
      | none => cases same
      | some y =>
        obtain ⟨group, result⟩ := y
        cases result with
        | error e => cases same
        | ok answer =>
          cases answer with
          | error e => cases same
          | ok verdicts => cases same; rfl
    · cases same
  | routing group verdicts f =>
    refine .later rfl fun _ => ?_
    cases group with
    | nil =>
      cases (memStep.mp move).2
      rfl
    | cons m rest =>
      simp only [moves] at move
      split at move
      · cases (memFinish.mp move).2
      · obtain ⟨⟨u, sent⟩, -, same⟩ := List.mem_map.mp move
        cases sent <;> cases same
        rfl

theorem movesEnds (move : (v', n) ∈ moves plan stage v) (ended : ∀ next, n ≠ .go next)
    (drains : stage.isDraining = true) : v.input.senders = 0 := by
  cases stage with
  | draining batch =>
    obtain ⟨⟨input, found⟩, received, same⟩ := List.mem_map.mp move
    cases found with
    | some m =>
      cases same
      exact absurd rfl (ended _)
    | none => exact (Channel.receiveEnded received).1
  | _ => cases drains

end Stage

def Orders.last (o : Orders) : Nat :=
  o.config.checkers.length + if o.hasCheckers then 3 else 2

namespace Role
variable {role next : Role} {place : Nat} {f f' : Floor} {n : Next Role (Except RunError Unit)}

def At (o : Orders) (place : Nat) : Role → Prop
  | .ignoring _ => place = 0
  | .checking plan _ => 0 < place ∧ o.config.checkers[place - 1]? = some plan.checker ∧
      plan.staffing.recovers = true
  | .releasing share _ => place = o.config.checkers.length + 1 ∧ share = o.budget.checkers ∧
      o.hasCheckers = true
  | .covering _ => place + 1 = o.last
  | .testing .. => place = o.last

theorem At.behind {o : Orders} (here : place + 1 = o.last ∨ place = o.last) :
    o.config.checkers.length < place := by
  rw [Orders.last] at here
  split at here <;> omega

def Sends : Role → Prop
  | .checking _ stage => stage.sends = true
  | _ => True

def Fed (c : Channel CoveredMutant) : Role → Prop
  | .checking _ stage => stage.Fed c
  | _ => False

def Busy : Role → Prop
  | .checking _ stage => stage.isDraining = false
  | _ => False

def Disposes : Role → Prop
  | .releasing _ (.disposing _) | .releasing _ .growing => True
  | _ => False

def Modest : Role → Prop
  | .releasing _ (.disposing d) => d.Begins fun _ _ => False
  | _ => True

theorem afterSendCases {moves : List (Floor × Except RunError Unit)}
    (move : (f', n) ∈ afterSend next moves) : ∃ sent, (f', sent) ∈ moves ∧
      ((sent = .ok () ∧ n = .go next) ∨ ∃ e, sent = .error e ∧ n = .done (.error e)) := by
  obtain ⟨⟨g, sent⟩, sending, same⟩ := List.mem_map.mp move
  cases sent with
  | ok u => cases same; exact ⟨_, sending, .inl ⟨rfl, rfl⟩⟩
  | error e => cases same; exact ⟨_, sending, .inr ⟨e, rfl, rfl⟩⟩

theorem stagePassed {stage : Stage} {v : StageView}
    (passed : stage.Passed ((Floor.onStage place).get f) v) :
    Floor.Passed place (stage.sends = true) f ((Floor.onStage place).set v f) := by
  have behind : (Floor.setLink place v.input f).link (place + 1) = f.link (place + 1) :=
    Floor.linkSetOther (Nat.succ_ne_self place)
  have first : Floor.Passed place (stage.sends = true) f (Floor.setLink place v.input f) :=
    .set passed.input fun some => .inl (passed.emptier some)
  refine first.trans ((Floor.Passed.set (passed.passed.trans (by rw [behind]; rfl)) ?_).trans
    (.same rfl))
  rw [behind]
  exact fun some => (passed.sent some).imp_right fun sends => ⟨rfl, sends⟩

theorem handoverPassed {share : Nat} {h : Handover} {o : Next Handover (Except RunError Unit)}
    (move : (f', o) ∈ handover share place h f) : Floor.Passed place True f f' := by
  cases h with
  | forwarding held =>
    cases held with
    | none =>
      obtain ⟨⟨g, found⟩, received, same⟩ := List.mem_map.mp move
      have passed : Floor.Passed place True f g := .receive received
      cases found <;> cases same
      · exact passed.trans (.same rfl)
      · exact passed
    | some m =>
      obtain ⟨⟨g, sent⟩, sending, same⟩ := List.mem_map.mp move
      have passed : Floor.Passed place True f g := .send sending
      cases sent <;> cases same <;> exact passed
  | disposing d =>
    refine Machine.withinState (Floor.Passed place True f) move (fun u o inner => ?_)
      fun r u passed => ?_
    · obtain ⟨s, -, rfl⟩ := Machine.onCases inner
      exact .same rfl
    · cases r <;> exact passed
  | growing =>
    obtain ⟨rfl, -⟩ := memFinish.mp move
    exact .same rfl

theorem runTestsPassed {planOf : CoveredMutant → RunPlan} {t : Testing}
    {o : Next Testing (Except RunError Unit)} (move : (f', o) ∈ runTests planOf place t f) :
    Floor.Passed place True f f' := by
  cases t with
  | running g =>
    refine Machine.withinState (Floor.Passed place True f) move (fun u o inner => ?_)
      fun r u passed => ?_
    · rcases (Schedule.movesMoved inner).state with rfl | ⟨s, rfl⟩ | ⟨item, more⟩
      · exact .same rfl
      · exact .same rfl
      · exact .receive more
    · obtain ⟨y, g⟩ := r
      cases y with
      | none => exact passed
      | some y =>
        obtain ⟨m, result⟩ := y
        cases result with
        | error e => exact passed
        | ok answer => cases answer <;> exact passed
  | reporting x g =>
    obtain ⟨⟨g, sent⟩, sending, same⟩ := List.mem_map.mp move
    have passed : Floor.Passed place True f g := .result sending
    cases sent <;> cases same <;> exact passed

theorem movesPassed (move : (f', n) ∈ role.moves place f) :
    Floor.Passed place role.Sends f f' := by
  cases role with
  | ignoring rest =>
    cases rest with
    | nil =>
      obtain ⟨rfl, -⟩ := memFinish.mp move
      exact .same rfl
    | cons m rest =>
      obtain ⟨sent, sending, -⟩ := afterSendCases move
      split at sending
      · exact .result sending
      · exact .send sending
  | checking plan stage =>
    refine Machine.withinState (Floor.Passed place _ f) move (fun u o inner => ?_)
      fun _ _ passed => passed
    obtain ⟨v, moved, rfl⟩ := Machine.onCases inner
    exact stagePassed (Stage.movesPassed moved)
  | releasing share h =>
    exact Machine.withinState (Floor.Passed place True f) move
      (fun u o inner => handoverPassed inner) fun _ _ passed => passed
  | covering held =>
    cases held with
    | none =>
      obtain ⟨⟨g, found⟩, received, same⟩ := List.mem_map.mp move
      have passed : Floor.Passed place True f g := .receive received
      cases found <;> obtain ⟨rfl, -⟩ := Prod.mk.inj same <;> exact passed
    | some m =>
      obtain ⟨sent, sending, -⟩ := afterSendCases move
      split at sending
      · exact .result sending
      · exact .send sending
  | testing planOf t =>
    exact Machine.withinState (Floor.Passed place True f) move
      (fun u o inner => runTestsPassed inner) fun _ _ passed => passed

structure Onward (place : Nat) (f f' : Floor) (role next : Role) : Prop where
  stays : ∀ o, role.At o place → next.At o place
  fed : next.Fed (f'.link place) → role.Fed (f.link place)
  sends : role.Sends → next.Sends
  begins : next.Busy → role.Busy ∨ ((f.link place).senders = 0 ∧ role.Fed (f.link place))
  disposes : next.Disposes → role.Disposes ∨ (f.link place).senders = 0
  modest : role.Modest → next.Modest

theorem stageFed {stage : Stage} {v : StageView}
    (fed : stage.Fed (((Floor.onStage place).set v f).link place)) : stage.Fed v.input := by
  have here : ((Floor.onStage place).set v f).link place =
      (Floor.setLink place v.input f).link place :=
    Floor.linkSetOther (Nat.ne_of_lt (Nat.lt_succ_self place))
  rw [here] at fed
  cases stage with
  | draining batch =>
    refine fed.imp_right fun some => ?_
    rcases Floor.linkSetSelf place v.input f with same | ⟨none, -⟩
    · exact same ▸ some
    · exact absurd none some
  | _ => trivial

theorem stageOnward {plan : StagePlan} {stage later : Stage} {v : StageView}
    (onward : stage.Onward ((Floor.onStage place).get f) v later) :
    Onward place f ((Floor.onStage place).set v f) (.checking plan stage) (.checking plan later) where
  stays := fun _ here => here
  fed := fun fed => onward.fed (stageFed fed)
  sends := onward.sends
  begins := by
    intro begun
    cases drains : stage.isDraining with
    | true => exact .inr (onward.begins begun drains)
    | false => exact .inl drains
  disposes := fun disposes => disposes.elim
  modest := fun _ => trivial

theorem Onward.aside (stays : ∀ o, role.At o place → next.At o place) (unfed : ∀ c, ¬next.Fed c)
    (sends : next.Sends) (idle : ¬next.Busy)
    (disposes : next.Disposes → role.Disposes ∨ (f.link place).senders = 0)
    (modest : role.Modest → next.Modest) : Onward place f f' role next :=
  ⟨stays, fun fed => absurd fed (unfed _), fun _ => sends, fun busy => absurd busy idle, disposes,
    modest⟩

theorem handoverOnward {share : Nat} {h later : Handover}
    (move : (f', .go later) ∈ handover share place h f) :
    Onward place f f' (.releasing share h) (.releasing share later) := by
  have aside (disposes : (Role.releasing share later).Disposes →
        (Role.releasing share h).Disposes ∨ (f.link place).senders = 0)
      (modest : (Role.releasing share h).Modest → (Role.releasing share later).Modest) :
      Onward place f f' (.releasing share h) (.releasing share later) :=
    .aside (fun _ here => here) (fun _ => id) trivial id disposes modest
  cases h with
  | forwarding held =>
    cases held with
    | none =>
      obtain ⟨⟨g, found⟩, received, same⟩ := List.mem_map.mp move
      cases found with
      | some m =>
        cases same
        exact aside (fun disposes => disposes.elim) fun _ => trivial
      | none =>
        cases same
        obtain ⟨⟨c, x⟩, taken, ended⟩ := List.mem_map.mp received
        cases ended
        exact aside (fun _ => .inr (Channel.receiveEnded taken).1) fun _ => trivial
    | some m =>
      obtain ⟨⟨g, sent⟩, -, same⟩ := List.mem_map.mp move
      cases sent <;> cases same
      exact aside (fun disposes => disposes.elim) fun _ => trivial
  | disposing d =>
    rcases Machine.withinCases move with ⟨e, inner, same⟩ | ⟨u, r, -, same⟩ | ⟨-, same⟩
    · cases same
      obtain ⟨s, moved, -⟩ := Machine.onCases inner
      exact aside (fun _ => .inl trivial) fun _ => Disposal.movesBegins moved e rfl
    · cases r <;> cases same
      exact aside (fun _ => .inl trivial) fun _ => trivial
    · cases same
  | growing => cases (memFinish.mp move).2

theorem movesOnward (move : (f', .go next) ∈ role.moves place f) :
    Onward place f f' role next := by
  cases role with
  | ignoring rest =>
    cases rest with
    | nil => cases (memFinish.mp move).2
    | cons m rest =>
      obtain ⟨sent, -, ⟨-, same⟩ | ⟨e, -, same⟩⟩ := afterSendCases move
      · cases same
        exact .aside (fun _ here => here) (fun _ => id) trivial id (fun disposes => disposes.elim)
          fun _ => trivial
      · cases same
  | checking plan stage =>
    rcases Machine.withinCases move with ⟨later, inner, same⟩ | ⟨u, r, -, same⟩ | ⟨-, same⟩
    · cases same
      obtain ⟨v, moved, rfl⟩ := Machine.onCases inner
      exact stageOnward (Stage.movesOnward moved)
    · cases same
    · cases same
  | releasing share h =>
    rcases Machine.withinCases move with ⟨later, inner, same⟩ | ⟨u, r, -, same⟩ | ⟨-, same⟩
    · cases same
      exact handoverOnward inner
    · cases same
    · cases same
  | covering held =>
    cases held with
    | none =>
      obtain ⟨⟨g, found⟩, -, same⟩ := List.mem_map.mp move
      cases found with
      | some m =>
        obtain ⟨-, same⟩ := Prod.mk.inj same
        cases same
        exact .aside (fun _ here => here) (fun _ => id) trivial id (fun disposes => disposes.elim)
          fun _ => trivial
      | none => cases (Prod.mk.inj same).2
    | some m =>
      obtain ⟨sent, -, ⟨-, same⟩ | ⟨e, -, same⟩⟩ := afterSendCases move
      · cases same
        exact .aside (fun _ here => here) (fun _ => id) trivial id (fun disposes => disposes.elim)
          fun _ => trivial
      · cases same
  | testing planOf t =>
    rcases Machine.withinCases move with ⟨later, -, same⟩ | ⟨u, r, -, same⟩ | ⟨-, same⟩
    · cases same
      exact .aside (fun _ here => here) (fun _ => id) trivial id (fun disposes => disposes.elim)
        fun _ => trivial
    · cases same
    · cases same

theorem movesEnds {plan : StagePlan} {stage : Stage}
    (move : (f', n) ∈ (Role.checking plan stage).moves place f) (ended : ∀ next, n ≠ .go next)
    (drains : stage.isDraining = true) : (f.link place).senders = 0 := by
  rcases Machine.withinCases move with ⟨later, -, rfl⟩ | ⟨u, r, inner, same⟩ | ⟨inner, rfl⟩
  · exact absurd rfl (ended _)
  · obtain ⟨v, moved, rfl⟩ := Machine.onCases inner
    exact Stage.movesEnds moved (fun _ same => by cases same) drains
  · obtain ⟨v, moved, rfl⟩ := Machine.onCases inner
    exact Stage.movesEnds moved (fun _ same => by cases same) drains

end Role

end MutationPipeline
