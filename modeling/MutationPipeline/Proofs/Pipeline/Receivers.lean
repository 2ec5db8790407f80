import MutationPipeline.Proofs.Pipeline.Reach

/-! Who sends and who receives in a run. While tasks are at work all senders and receivers stay, and a task
fails with a symptom only when nobody receives any more what it sends. -/
namespace MutationPipeline
variable {o : Orders} {place : Nat} {f f' g : Floor}

structure Channel.Alike {α : Type} (c d : Channel α) : Prop where
  capacity : d.capacity = c.capacity
  senders : d.senders = c.senders
  receiving : d.receiving = c.receiving

theorem Channel.Alike.refl {α : Type} (c : Channel α) : c.Alike c := ⟨rfl, rfl, rfl⟩

theorem Channel.Alike.trans {α : Type} {c d e : Channel α} (first : c.Alike d) (second : d.Alike e) :
    c.Alike e :=
  ⟨second.capacity.trans first.capacity, second.senders.trans first.senders,
    second.receiving.trans first.receiving⟩

theorem Channel.sendAlike {α : Type} {c d : Channel α} {x : α} {taken : Bool}
    (sent : (d, taken) ∈ c.send x) : c.Alike d ∧ (taken = false → c.receiving = false) := by
  unfold Channel.send at sent
  split at sent
  · next closed =>
    cases List.mem_singleton.mp sent
    exact ⟨.refl _, fun _ => by simpa using closed⟩
  · split at sent
    · cases List.mem_singleton.mp sent
      exact ⟨⟨rfl, rfl, rfl⟩, Bool.noConfusion⟩
    · cases sent

theorem Channel.receiveAlike {α : Type} {c d : Channel α} {x : Option α}
    (received : (d, x) ∈ c.receive) : c.Alike d := by
  unfold Channel.receive at received
  split at received
  · cases List.mem_singleton.mp received
    exact ⟨rfl, rfl, rfl⟩
  · split at received
    · cases List.mem_singleton.mp received
      exact .refl _
    · cases received

def Next.Genuine {φ : Type} (n : Next φ (Except RunError Unit)) : Prop :=
  ∀ e, n = .done (.error e) → Run.isSymptom e = false

theorem Next.Genuine.going {φ : Type} {p : φ} :
    (Next.go p : Next φ (Except RunError Unit)).Genuine := fun _ same => by cases same

theorem Next.Genuine.fine {φ : Type} :
    (Next.done (.ok ()) : Next φ (Except RunError Unit)).Genuine := fun _ same => by cases same

theorem Next.Genuine.failed {φ : Type} {e : RunError} (genuine : Run.isSymptom e = false) :
    (Next.done (.error e) : Next φ (Except RunError Unit)).Genuine := fun _ same => by
  cases same
  exact genuine

theorem Machine.withinGenuine {σ φ φ' ρ : Type} {m : Machine σ φ ρ} {p : φ} {s s' : σ}
    {embed : φ → φ'} {after : ρ → σ → σ × Next φ' (Except RunError Unit)}
    {n : Next φ' (Except RunError Unit)} (move : (s', n) ∈ m.within embed after p s)
    (genuine : ∀ r u, (after r u).2.Genuine) : n.Genuine := by
  rcases Machine.withinCases move with ⟨q, -, rfl⟩ | ⟨u, r, -, same⟩ | ⟨-, rfl⟩
  · exact .going
  · have last := genuine r u
    rwa [← same] at last
  · exact fun _ same => by cases same

theorem Machine.withinEnds {σ φ φ' : Type} {m : Machine σ φ (Except RunError Unit)} {p : φ} {s s' : σ}
    {embed : φ → φ'} {n : Next φ' (Except RunError Unit)}
    (move : (s', n) ∈ m.within embed (fun r s => (s, .done r)) p s) :
    ∃ later, (s', later) ∈ m p s ∧ (later.Genuine → n.Genuine) := by
  rcases Machine.withinCases move with ⟨q, inner, rfl⟩ | ⟨u, r, inner, same⟩ | ⟨inner, rfl⟩
  · exact ⟨_, inner, fun _ => .going⟩
  · cases same
    refine ⟨_, inner, fun genuine e failed => genuine e ?_⟩
    cases failed
    rfl
  · exact ⟨_, inner, fun _ _ same => by cases same⟩

namespace Stage
variable {plan : StagePlan} {stage : Stage} {v v' : StageView}
  {n : Next Stage (Except RunError Unit)}

/-- What a move of a stage does to the channels around it, and what a failure says about them. -/
structure Attached (v v' : StageView) (n : Next Stage (Except RunError Unit)) : Prop where
  input : v.input.Alike v'.input
  passed : v.passed.Alike v'.passed
  failed : v.failed.Alike v'.failed
  genuine : n.Genuine ∨ v.passed.receiving = false ∨ v.failed.receiving = false

theorem Attached.aside (input : v'.input = v.input) (passed : v'.passed = v.passed)
    (failed : v'.failed = v.failed) (genuine : n.Genuine) : Attached v v' n :=
  ⟨input ▸ .refl _, passed ▸ .refl _, failed ▸ .refl _, .inl genuine⟩

theorem onSiteAttached {φ ρ : Type} {m : Machine CheckSite φ ρ} {p : φ} {embed : φ → Stage}
    {after : ρ → StageView → StageView × Next Stage (Except RunError Unit)}
    (move : (v', n) ∈ (onSite m).within embed after p v) (still : ∀ r u, (after r u).1 = u)
    (genuine : ∀ r u, (after r u).2.Genuine) : Attached v v' n := by
  obtain ⟨input, passed⟩ := onSiteAside move still
  refine .aside input passed ?_ (Machine.withinGenuine move genuine)
  refine Machine.withinState (fun u => u.failed = v.failed) move (fun u o inner => ?_)
    fun r u same => (still r u).symm ▸ same
  obtain ⟨w, -, rfl⟩ := Machine.onCases inner
  rfl

theorem notesFailed (notes : List Note) (v : StageView) :
    (notes.foldl StageView.note v).failed = v.failed := by
  induction notes generalizing v with
  | nil => rfl
  | cons first rest ih => exact ih (v.note first)

theorem checkingAttached {f : GroupSchedule}
    (move : (v', n) ∈ moves plan (.checking f) v) : Attached v v' n := by
  have same : v'.input = v.input ∧ v'.passed = v.passed ∧ v'.failed = v.failed := by
    refine Machine.withinState
      (fun u => u.input = v.input ∧ u.passed = v.passed ∧ u.failed = v.failed) move
      (fun u o inner => ?_) fun r u same => ?_
    · rcases (Schedule.movesMoved inner).state with rfl | ⟨w, rfl⟩ | ⟨item, more⟩
      · exact ⟨rfl, rfl, rfl⟩
      · exact ⟨rfl, rfl, rfl⟩
      · cases List.mem_singleton.mp more
        exact ⟨rfl, rfl, rfl⟩
    · obtain ⟨y, g⟩ := r
      cases y with
      | none => exact same
      | some y =>
        obtain ⟨group, result⟩ := y
        cases result with
        | error e => exact same
        | ok answer => cases answer <;> exact same
  refine .aside same.1 same.2.1 same.2.2 (Machine.withinGenuine move fun r u => ?_)
  obtain ⟨y, g⟩ := r
  cases y with
  | none => exact .fine
  | some y =>
    obtain ⟨group, result⟩ := y
    cases result with
    | error e => exact .failed rfl
    | ok answer =>
      cases answer with
      | error e => exact .failed rfl
      | ok verdicts => exact .going

theorem routingAttached {m : CoveredMutant} {rest : Group} {verdicts : Verdicts}
    {f : GroupSchedule}
    (move : (v', n) ∈ moves plan (.routing (m :: rest) verdicts f) v) : Attached v v' n := by
  simp only [moves] at move
  split at move
  · obtain ⟨rfl, rfl⟩ := memFinish.mp move
    exact .aside rfl rfl rfl (.failed rfl)
  · obtain ⟨⟨u, sent⟩, routed, same⟩ := List.mem_map.mp move
    unfold route at routed
    split at routed
    · obtain ⟨⟨channel, taken⟩, sending, passes⟩ := List.mem_map.mp routed
      obtain ⟨kept, closed⟩ := Channel.sendAlike sending
      cases taken with
      | true => cases passes; cases same; exact ⟨.refl _, kept, .refl _, .inl .going⟩
      | false => cases passes; cases same; exact ⟨.refl _, kept, .refl _, .inr (.inl (closed rfl))⟩
    · obtain ⟨⟨channel, taken⟩, sending, fails⟩ := List.mem_map.mp routed
      obtain ⟨kept, closed⟩ := Channel.sendAlike sending
      cases taken with
      | true => cases fails; cases same; exact ⟨.refl _, .refl _, kept, .inl .going⟩
      | false => cases fails; cases same; exact ⟨.refl _, .refl _, kept, .inr (.inr (closed rfl))⟩

theorem movesAttached (move : (v', n) ∈ moves plan stage v) : Attached v v' n := by
  cases stage with
  | draining batch =>
    obtain ⟨⟨input, found⟩, received, same⟩ := List.mem_map.mp move
    have kept : v.input.Alike input := Channel.receiveAlike received
    cases found with
    | some m => cases same; exact ⟨kept, .refl _, .refl _, .inl .going⟩
    | none =>
      simp only at same
      split at same
      · cases same; exact ⟨kept, .refl _, .refl _, .inl .fine⟩
      · cases same; exact ⟨kept, .refl _, .refl _, .inl .going⟩
  | filling batch f =>
    refine onSiteAttached move (fun r u => by cases r <;> rfl) fun r u => ?_
    cases r with
    | ok seats => exact .going
    | error e => exact .failed rfl
  | activating batch b =>
    refine onSiteAttached move (fun r u => by cases r <;> rfl) fun r u => ?_
    cases r with
    | ok u => exact .going
    | error e => exact .failed rfl
  | borrowing batch a =>
    refine onSiteAttached move (fun r u => by cases r <;> rfl) fun r u => ?_
    cases r with
    | ok got => exact .going
    | error e => exact .failed rfl
  | asking batch ticket c => exact onSiteAttached move (fun r u => rfl) fun r u => .going
  | returning batch ticket answer r =>
    refine onSiteAttached move (fun r u => by cases answer <;> rfl) fun r u => ?_
    cases answer with
    | ok own => exact .going
    | error e => exact .failed rfl
  | grouping batch own =>
    obtain ⟨input, passed⟩ := notesAside (groupsOf plan batch own).2 v
    have failed := notesFailed (groupsOf plan batch own).2 v
    simp only [moves] at move
    split at move
    · obtain ⟨rfl, rfl⟩ := memStep.mp move
      exact .aside input passed failed .going
    · next e cause =>
      obtain ⟨rfl, rfl⟩ := memFinish.mp move
      obtain ⟨id, rfl⟩ := groupsOfError cause
      exact .aside input passed failed (.failed rfl)
  | checking f => exact checkingAttached move
  | routing group verdicts f =>
    cases group with
    | nil =>
      obtain ⟨rfl, rfl⟩ := memStep.mp move
      exact .aside rfl rfl rfl .going
    | cons m rest => exact routingAttached move

end Stage

namespace Floor
variable {c : Channel CoveredMutant} {p : Nat}

/-- All who sent or received still do. -/
structure Attached (f f' : Floor) : Prop where
  results : f.results.Alike f'.results
  links : ∀ p, (f.link p).Alike (f'.link p)

theorem Attached.same (results : f'.results = f.results) (links : f'.links = f.links) :
    f.Attached f' where
  results := results ▸ .refl _
  links := fun p => by
    rw [link, link, links]
    exact .refl _

theorem Attached.trans (first : f.Attached g) (second : g.Attached f') : f.Attached f' where
  results := first.results.trans second.results
  links := fun p => (first.links p).trans (second.links p)

theorem Attached.set (alike : (f.link p).Alike c) : f.Attached (setLink p c f) where
  results := .refl _
  links := by
    intro q
    by_cases same : q = p
    · subst same
      by_cases inside : q < f.links.length
      · simpa [setLink, link, List.getD_eq_getElem?_getD, inside] using alike
      · simpa [setLink, link, List.getD_eq_getElem?_getD, inside] using .refl _
    · rw [linkSetOther same]
      exact .refl _

theorem Attached.receive {x : Option CoveredMutant} (move : (f', x) ∈ f.receive (input place)) :
    f.Attached f' := by
  obtain ⟨⟨c, found⟩, received, same⟩ := List.mem_map.mp move
  cases same
  exact .set (Channel.receiveAlike received)

theorem Attached.send {name : String} {m : CoveredMutant} {sent : Except RunError Unit}
    (move : (f', sent) ∈ f.send (output place) name m) :
    f.Attached f' ∧ ∀ e, sent = .error e → (f.link (place + 1)).receiving = false := by
  obtain ⟨⟨c, taken⟩, sending, same⟩ := List.mem_map.mp move
  obtain ⟨kept, closed⟩ := Channel.sendAlike sending
  cases same
  refine ⟨.set kept, fun e failed => closed ?_⟩
  cases taken with
  | true => cases failed
  | false => rfl

theorem Attached.result {name : String} {x : MutantResult} {sent : Except RunError Unit}
    (move : (f', sent) ∈ f.send onResults name x) :
    f.Attached f' ∧ ∀ e, sent = .error e → f.results.receiving = false := by
  obtain ⟨⟨c, taken⟩, sending, same⟩ := List.mem_map.mp move
  obtain ⟨kept, closed⟩ := Channel.sendAlike sending
  cases same
  refine ⟨⟨kept, fun p => .refl _⟩, fun e failed => closed ?_⟩
  cases taken with
  | true => cases failed
  | false => rfl

theorem linkSetOwn {g : Channel CoveredMutant → Channel CoveredMutant} (none : g noLink = noLink)
    (p : Nat) (f : Floor) : (setLink p (g (f.link p)) f).link p = g (f.link p) := by
  by_cases inside : p < f.links.length
  · simp [setLink, link, List.getD_eq_getElem?_getD, inside]
  · simp [setLink, link, List.getD_eq_getElem?_getD, inside, none]

end Floor

namespace Role
variable {role : Role} {n : Next Role (Except RunError Unit)}

theorem closeLink (place : Nat) (role : Role) (f : Floor) (p : Nat) :
    (role.close place f).link p =
      if p = place + 1 then (f.link p).dropSender
      else if p = place then (f.link p).dropReceiver else f.link p := by
  let front := Floor.setLink place (f.link place).dropReceiver f
  have links : (role.close place f).links =
      (Floor.setLink (place + 1) (front.link (place + 1)).dropSender front).links := by
    unfold Role.close
    dsimp only
    split <;> rfl
  have same : (role.close place f).link p =
      (Floor.setLink (place + 1) (front.link (place + 1)).dropSender front).link p := by
    rw [Floor.link, Floor.link, links]
  rw [same]
  by_cases behind : p = place + 1
  · subst behind
    rw [if_pos rfl, Floor.linkSetOwn rfl, Floor.linkSetOther (Nat.succ_ne_self place)]
  · rw [if_neg behind, Floor.linkSetOther behind]
    by_cases here : p = place
    · subst here
      rw [if_pos rfl]
      exact Floor.linkSetOwn rfl p f
    · rw [if_neg here]
      exact Floor.linkSetOther here

def Unheard (place : Nat) (f : Floor) (role : Role) : Prop :=
  f.results.receiving = false ∨ (¬role.Tests ∧ (f.link (place + 1)).receiving = false)

theorem stageAttached {plan : StagePlan} {stage : Stage} {v : StageView}
    {later : Next Stage (Except RunError Unit)}
    (attached : Stage.Attached ((Floor.onStage place).get f) v later) :
    f.Attached ((Floor.onStage place).set v f) ∧
      (later.Genuine ∨ (Role.checking plan stage).Unheard place f) := by
  have behind : (Floor.setLink place v.input f).link (place + 1) = f.link (place + 1) :=
    Floor.linkSetOther (Nat.succ_ne_self place)
  have first : f.Attached (Floor.setLink place v.input f) := .set attached.input
  have second : (Floor.setLink place v.input f).Attached
      (Floor.setLink (place + 1) v.passed (Floor.setLink place v.input f)) :=
    .set (by rw [behind]; exact attached.passed)
  refine ⟨⟨attached.failed, (first.trans second).links⟩, ?_⟩
  exact attached.genuine.imp_right fun closed => closed.symm.imp_right fun closed => ⟨id, closed⟩

theorem handoverAttached {share : Nat} {h : Handover} {n : Next Handover (Except RunError Unit)}
    (move : (f', n) ∈ handover share place h f) :
    f.Attached f' ∧ (n.Genuine ∨ (Role.releasing share h).Unheard place f) := by
  cases h with
  | forwarding held =>
    cases held with
    | none =>
      obtain ⟨⟨g, found⟩, received, same⟩ := List.mem_map.mp move
      have attached : f.Attached g := .receive received
      cases found with
      | none => cases same; exact ⟨⟨attached.results, attached.links⟩, .inl .going⟩
      | some m => cases same; exact ⟨attached, .inl .going⟩
    | some m =>
      obtain ⟨⟨g, sent⟩, sending, same⟩ := List.mem_map.mp move
      obtain ⟨attached, closed⟩ := Floor.Attached.send sending
      cases sent with
      | ok u => cases same; exact ⟨attached, .inl .going⟩
      | error e => cases same; exact ⟨attached, .inr (.inr ⟨id, closed e rfl⟩)⟩
  | disposing d =>
    refine ⟨Machine.withinState f.Attached move (fun u o inner => ?_) fun r u attached => ?_,
      .inl (Machine.withinGenuine move fun r u => ?_)⟩
    · obtain ⟨s, -, rfl⟩ := Machine.onCases inner
      exact .same rfl rfl
    · cases r <;> exact attached
    · cases r with
      | ok r => exact .going
      | error e => exact .failed rfl
  | growing =>
    obtain ⟨rfl, rfl⟩ := memFinish.mp move
    exact ⟨.same rfl rfl, .inl .fine⟩

theorem runTestsAttached {planOf : CoveredMutant → RunPlan} {t : Testing}
    {n : Next Testing (Except RunError Unit)} (move : (f', n) ∈ runTests planOf place t f) :
    f.Attached f' ∧ (n.Genuine ∨ f.results.receiving = false) := by
  cases t with
  | running g =>
    refine ⟨Machine.withinState f.Attached move (fun u o inner => ?_) fun r u attached => ?_,
      .inl (Machine.withinGenuine move fun r u => ?_)⟩
    · rcases (Schedule.movesMoved inner).state with rfl | ⟨s, rfl⟩ | ⟨item, more⟩
      · exact .same rfl rfl
      · exact .same rfl rfl
      · exact .receive more
    · obtain ⟨y, g⟩ := r
      cases y with
      | none => exact attached
      | some y =>
        obtain ⟨m, result⟩ := y
        cases result with
        | error e => exact attached
        | ok answer => cases answer <;> exact attached
    · obtain ⟨y, g⟩ := r
      cases y with
      | none => exact .fine
      | some y =>
        obtain ⟨m, result⟩ := y
        cases result with
        | error e => exact .failed rfl
        | ok answer =>
          cases answer with
          | error e => exact .failed rfl
          | ok run => exact .going
  | reporting x g =>
    obtain ⟨⟨g, sent⟩, sending, same⟩ := List.mem_map.mp move
    obtain ⟨attached, closed⟩ := Floor.Attached.result sending
    cases sent with
    | ok u => cases same; exact ⟨attached, .inl .going⟩
    | error e => cases same; exact ⟨attached, .inr (closed e rfl)⟩

/-- As long as a role is at work, the channels around it stay open; and it fails with a symptom only
when one of those is gone that it sends to. -/
theorem movesAttached (move : (f', n) ∈ role.moves place f) :
    f.Attached f' ∧ (n.Genuine ∨ role.Unheard place f) := by
  have passes {next : Role} {moves : List (Floor × Except RunError Unit)}
      (move : (f', n) ∈ afterSend next moves)
      (each : ∀ sent, (f', sent) ∈ moves →
        f.Attached f' ∧ ∀ e, sent = .error e → role.Unheard place f) :
      f.Attached f' ∧ (n.Genuine ∨ role.Unheard place f) := by
    obtain ⟨sent, sending, ⟨-, rfl⟩ | ⟨e, failed, rfl⟩⟩ := afterSendCases move
    · exact ⟨(each sent sending).1, .inl .going⟩
    · exact ⟨(each sent sending).1, .inr ((each sent sending).2 e failed)⟩
  cases role with
  | ignoring rest =>
    cases rest with
    | nil =>
      obtain ⟨rfl, rfl⟩ := memFinish.mp move
      exact ⟨.same rfl rfl, .inl .fine⟩
    | cons m rest =>
      refine passes move fun sent sending => ?_
      split at sending
      · exact (Floor.Attached.result sending).imp_right fun closed e failed => .inl (closed e failed)
      · exact (Floor.Attached.send sending).imp_right fun closed e failed =>
          .inr ⟨id, closed e failed⟩
  | checking plan stage =>
    obtain ⟨later, inner, genuine⟩ := Machine.withinEnds move
    obtain ⟨v, moved, rfl⟩ := Machine.onCases inner
    exact (stageAttached (Stage.movesAttached moved)).imp_right (Or.imp_left genuine)
  | releasing share h =>
    obtain ⟨later, inner, genuine⟩ := Machine.withinEnds move
    exact (handoverAttached inner).imp_right (Or.imp_left genuine)
  | covering held =>
    cases held with
    | none =>
      obtain ⟨⟨g, found⟩, received, same⟩ := List.mem_map.mp move
      have attached : f.Attached g := .receive received
      cases found <;> obtain ⟨rfl, rfl⟩ := Prod.mk.inj same
      · exact ⟨attached, .inl .fine⟩
      · exact ⟨attached, .inl .going⟩
    | some m =>
      refine passes move fun sent sending => ?_
      split at sending
      · exact (Floor.Attached.result sending).imp_right fun closed e failed => .inl (closed e failed)
      · exact (Floor.Attached.send sending).imp_right fun closed e failed =>
          .inr ⟨id, closed e failed⟩
  | testing planOf t =>
    obtain ⟨later, inner, genuine⟩ := Machine.withinEnds move
    exact (runTestsAttached inner).imp_right (Or.imp genuine .inl)

end Role

end MutationPipeline
