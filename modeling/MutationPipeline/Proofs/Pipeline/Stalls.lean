import MutationPipeline.Proofs.Pipeline.Shares
import MutationPipeline.Proofs.Pool.Stalls

/-! When a task of a run has no move it sleeps, and there is a reason for it: a worker has not answered,
permits are missing, nothing is in front of the task, or there is no room behind it. -/
namespace MutationPipeline
variable {W V α : Type}

namespace Channel
variable {c : Channel α} {x : α}

def Starved (c : Channel α) : Prop := c.items = [] ∧ c.senders ≠ 0

def Full (c : Channel α) : Prop := c.receiving = true ∧ c.capacity ≤ c.items.length

theorem receiveNone (none : c.receive = []) : c.Starved := by
  unfold receive at none
  split at none
  · cases none
  · next items =>
    split at none
    · cases none
    · next senders => exact ⟨items, senders⟩

theorem sendNone (none : c.send x = []) : c.Full := by
  unfold send at none
  split at none
  · cases none
  · next receives =>
    split at none
    · cases none
    · next full => exact ⟨by simpa using receives, Nat.le_of_not_lt full⟩

end Channel

section Moves
variable {c : Crew W V}

def Crew.Rests (c : Crew W V) (tokens : List Nat) (sleeps : Bool) : Prop :=
  c.Owes tokens ∧ sleeps = true

theorem Calling.rests {call : Calling W} (none : Calling.moves call c = []) :
    c.Rests call.tokens call.sleeps :=
  ⟨Calling.movesNone none, Calling.asleep none⟩

theorem Renewal.rests {label : String} {seat : Nat} {r : Renewal W}
    (none : Renewal.moves label seat r c = []) : c.Rests r.tokens r.sleeps := by
  cases r with
  | replacing => cases none
  | disposing fresh call => exact Calling.rests (Machine.withinNone none)
  | starting call => exact Calling.rests (Machine.withinNone none)

theorem Recovery.rests {job : Job W} {r : Recovery W} (none : Recovery.moves job r c = []) :
    c.Rests r.tokens r.sleeps := by
  cases r with
  | first call => exact Calling.rests (Machine.withinNone none)
  | renewing r => exact Renewal.rests (Machine.withinNone none)
  | restoring fresh call => exact Calling.rests (Machine.withinNone none)
  | second call => exact Calling.rests (Machine.withinNone none)

theorem Handling.rests {staffing : Staffing} {seat : Nat} {work : W} {h : Handling W}
    (none : Handling.moves staffing seat work h c = []) : c.Rests h.tokens h.sleeps := by
  cases h with
  | starting =>
    simp only [Handling.moves] at none
    split at none <;> cases none
  | direct call => exact Calling.rests (Machine.withinNone none)
  | recovering restore r => exact Recovery.rests (Machine.withinNone none)

theorem Running.rests {plan : RunPlan} {seat : Nat} {g : Running} {c : RunCrew}
    (none : Running.moves plan seat g c = []) : c.Rests g.tokens g.sleeps := by
  cases g with
  | handling h => exact Handling.rests (Machine.withinNone none)
  | replacing r => exact Renewal.rests (Machine.withinNone none)

theorem Activation.rests {staffing : Staffing} {name : String} {seat : Nat} {a : Activation}
    {c : CheckCrew} (none : Activation.moves staffing name seat a c = []) :
    c.Rests a.tokens a.sleeps := by
  cases a with
  | remembering => cases none
  | calling call => exact Calling.rests (Machine.withinNone none)

end Moves

section Schedule
variable {σ φ ρ : Type} {plan : Schedule.Plan W V σ α φ ρ} {f : Schedule W α φ ρ} {s : σ}

theorem Schedule.halts {of : φ → List Nat}
    (work : ∀ item seat p c, plan.work item seat p c = [] → c.Owes (of p))
    (none : moves plan f s = []) : (plan.site.get s).crew.Owes (f.tokens of) ∨
      (plan.more s = [] ∧ f.stances = []) ∨
      ∃ ticket, f.stances = [.waiting ticket 1] ∧ (plan.site.get s).pool.Unserved ticket := by
  obtain ⟨feed, flights⟩ := movesNone none
  cases airborne : f.flights with
  | cons x rest =>
    have member : x ∈ f.flights := airborne ▸ List.mem_cons_self
    obtain ⟨item, ticket, seat, p, rfl, stuck⟩ := flights x member
    refine .inl ((work item seat p _ stuck).more fun token own => ?_)
    exact List.mem_append_right _ (List.mem_flatMap.mpr ⟨_, member, own⟩)
  | nil =>
    rcases feed with ⟨shape, dry⟩ | ⟨item, a, known, shape, stuck⟩ | ⟨-, some⟩
    · exact .inr (.inl ⟨dry, by rw [stances, shape, airborne]; rfl⟩)
    · rcases Acquisition.movesNone stuck with owes | ⟨ticket, rfl, waits⟩
      · refine .inl (owes.more fun token own => List.mem_append_left _ ?_)
        rw [shape]
        exact own
      · exact .inr (.inr ⟨ticket, by rw [stances, shape, airborne]; rfl, waits⟩)
    · exact absurd airborne some

end Schedule

namespace Stage
variable {stage : Stage} {plan : StagePlan} {v : StageView}

inductive Halts (v : StageView) : Stage → Prop where
  | owing {stage : Stage} (owes : v.site.crew.Owes stage.tokens) : Halts v stage
  | starving {batch : List CoveredMutant} (starved : v.input.Starved) : Halts v (.draining batch)
  | claiming {stage : Stage} {ticket : Nat} (begun : stage.isDraining = false)
      (waits : stage.stances = [.waiting ticket 1]) (unserved : v.site.pool.Unserved ticket) :
      Halts v stage
  | blocked {stage : Stage} (full : v.passed.Full ∨ v.failed.Full) : Halts v stage

theorem movesHalts (none : moves plan stage v = []) : Halts v stage := by
  cases stage with
  | draining batch => exact .starving (Channel.receiveNone (List.map_eq_nil_iff.mp none))
  | filling batch f => exact .owing (Filling.movesNone (Machine.onNone (Machine.withinNone none)))
  | activating batch b =>
    obtain ⟨seat, a, member, stuck⟩ := Broadcast.movesNone (Machine.onNone (Machine.withinNone none))
    have owes := (Activation.rests (Machine.onNone stuck)).1
    exact .owing (owes.more fun token own => List.mem_flatMap.mpr ⟨a, member, own⟩)
  | borrowing batch a =>
    rcases Acquisition.movesNone (Machine.onNone (Machine.withinNone none)) with
      owes | ⟨ticket, rfl, waits⟩
    · exact .owing owes
    · exact .claiming rfl rfl waits
  | asking batch ticket c => exact .owing (callMovesNone (Machine.onNone (Machine.withinNone none)))
  | returning batch ticket answer r =>
    exact absurd (Machine.onNone (Machine.withinNone none)) (Release.movesSome ticket r)
  | grouping batch own =>
    simp only [moves] at none
    split at none <;> cases none
  | checking f =>
    have owes (item : Group) (seat : Nat) (p : Handling CheckWork) (c : CheckCrew)
        (stuck : (schedulePlan plan).work item seat p c = []) : c.Owes p.tokens :=
      (Handling.rests (Machine.withinNone stuck)).1
    rcases Schedule.halts owes (Machine.withinNone none) with owes | ⟨dry, -⟩ | ⟨ticket, waits, unserved⟩
    · exact .owing owes
    · cases dry
    · exact .claiming rfl waits unserved
  | routing group verdicts f =>
    cases group with
    | nil => cases none
    | cons m rest =>
      simp only [moves] at none
      split at none
      · cases none
      · have routed := List.map_eq_nil_iff.mp none
        unfold route at routed
        split at routed
        · exact .blocked (.inl (Channel.sendNone (List.map_eq_nil_iff.mp routed)))
        · exact .blocked (.inr (Channel.sendNone (List.map_eq_nil_iff.mp routed)))

theorem asleep (none : moves plan stage v = []) : stage.sleeps = true := by
  cases stage with
  | draining batch => rfl
  | filling batch f => exact Filling.asleep (Machine.onNone (Machine.withinNone none))
  | activating batch b =>
    exact Broadcast.asleep (fun seat a stuck => (Activation.rests (Machine.onNone stuck)).2)
      (Machine.onNone (Machine.withinNone none))
  | borrowing batch a => exact Acquisition.asleep (Machine.onNone (Machine.withinNone none))
  | asking batch ticket c => exact callAsleep (Machine.onNone (Machine.withinNone none))
  | returning batch ticket answer r =>
    exact absurd (Machine.onNone (Machine.withinNone none)) (Release.movesSome ticket r)
  | grouping batch own => rfl
  | checking f =>
    exact Schedule.asleep (fun item seat p c stuck => (Handling.rests (Machine.withinNone stuck)).2)
      (Machine.withinNone none)
  | routing group verdicts f =>
    cases group with
    | nil => cases none
    | cons m rest => rfl

end Stage

namespace Role
variable {role : Role} {place : Nat} {f : Floor}

def Claims (ticket wanted : Nat) : Role → Prop
  | .checking _ stage => stage.isDraining = false ∧ stage.stances = [.waiting ticket wanted]
  | .releasing _ (.disposing d) => d = .waiting ticket wanted
  | _ => False

inductive Lingers (place : Nat) (f : Floor) (role : Role) : Prop where
  | starving (starved : (f.link place).Starved) (later : role.rank ≠ 0) (idle : ¬role.Busy)
      (lazy : ¬role.Disposes) (none : role.runStances = [])
  | claiming (ticket wanted : Nat) (claims : role.Claims ticket wanted)
      (unserved : f.checkers.pool.Unserved ticket)
  | queueing (tests : role.Tests) (ticket : Nat) (waits : role.runStances = [.waiting ticket 1])
      (unserved : f.runners.pool.Unserved ticket)
  | blocked (aside : ¬role.Tests) (full : (f.link (place + 1)).Full)

inductive Halts (place : Nat) (f : Floor) (role : Role) : Prop where
  | checkers (owes : f.checkers.crew.Owes role.checkTokens)
  | runners (owes : f.runners.crew.Owes role.runTokens)
  | results (full : f.results.Full)
  | lingers (lingers : role.Lingers place f)

theorem receiveNone (none : f.receive (Floor.input place) = []) : (f.link place).Starved :=
  Channel.receiveNone (List.map_eq_nil_iff.mp none)

theorem sendNone {α : Type} {channel : Part Floor (Channel α)} {name : String} {x : α}
    (none : f.send channel name x = []) : (channel.get f).Full :=
  Channel.sendNone (List.map_eq_nil_iff.mp none)

theorem afterSendNone {later : Role} {moves : List (Floor × Except RunError Unit)}
    (none : afterSend later moves = []) : moves = [] :=
  List.map_eq_nil_iff.mp none

theorem handoverHalts {share : Nat} {h : Handover} (none : handover share place h f = []) :
    Halts place f (.releasing share h) := by
  cases h with
  | forwarding held =>
    cases held with
    | none =>
      exact .lingers <| .starving (receiveNone (List.map_eq_nil_iff.mp none)) (fun same => by cases same) id id rfl
    | some m => exact .lingers <| .blocked id (sendNone (List.map_eq_nil_iff.mp none))
  | disposing d =>
    rcases Disposal.movesNone (Machine.onNone (Machine.withinNone none)) with
      owes | ⟨ticket, wanted, rfl, unserved⟩
    · exact .checkers owes
    · exact .lingers <| .claiming ticket wanted rfl unserved
  | growing => cases none

theorem runTestsHalts {planOf : CoveredMutant → RunPlan} {t : Testing}
    (none : runTests planOf place t f = []) : Halts place f (.testing planOf t) := by
  cases t with
  | running g =>
    have owes (m : CoveredMutant) (seat : Nat) (p : Running) (c : RunCrew)
        (stuck : (testPlan planOf place).work m seat p c = []) : c.Owes p.tokens :=
      (Running.rests stuck).1
    rcases Schedule.halts owes (Machine.withinNone none) with owes | ⟨dry, idle⟩ | ⟨ticket, waits, unserved⟩
    · exact .runners owes
    · exact .lingers <| .starving (receiveNone dry) (fun same => by cases same) id id idle
    · exact .lingers <| .queueing trivial ticket waits unserved
  | reporting x g => exact .results (sendNone (List.map_eq_nil_iff.mp none))

theorem movesHalts (none : role.moves place f = []) : Halts place f role := by
  cases role with
  | ignoring rest =>
    cases rest with
    | nil => cases none
    | cons m rest =>
      have sent := afterSendNone none
      split at sent
      · exact .results (sendNone sent)
      · exact .lingers <| .blocked id (sendNone sent)
  | checking plan stage =>
    cases Stage.movesHalts (Machine.onNone (Machine.withinNone none)) with
    | owing owes => exact .checkers owes
    | starving starved =>
      exact .lingers <| .starving starved (fun same => by cases same) (fun busy => by cases busy) id rfl
    | @claiming _ ticket begun waits unserved => exact .lingers <| .claiming ticket 1 ⟨begun, waits⟩ unserved
    | blocked full =>
      rcases full with full | full
      · exact .lingers <| .blocked id full
      · exact .results full
  | releasing share h => exact handoverHalts (Machine.withinNone none)
  | covering held =>
    cases held with
    | none =>
      exact .lingers <| .starving (receiveNone (List.map_eq_nil_iff.mp none)) (fun same => by cases same) id id rfl
    | some m =>
      have sent := afterSendNone none
      split at sent
      · exact .results (sendNone sent)
      · exact .lingers <| .blocked id (sendNone sent)
  | testing planOf t => exact runTestsHalts (Machine.withinNone none)

theorem asleep (none : role.moves place f = []) : role.sleeps = true := by
  cases role with
  | ignoring rest =>
    cases rest with
    | nil => cases none
    | cons m rest => rfl
  | checking plan stage => exact Stage.asleep (Machine.onNone (Machine.withinNone none))
  | releasing share h =>
    cases h with
    | forwarding held => rfl
    | disposing d =>
      have stuck : handover share place (.disposing d) f = [] := Machine.withinNone none
      exact Disposal.asleep (Machine.onNone (Machine.withinNone stuck))
    | growing => cases Machine.withinNone none
  | covering held => rfl
  | testing planOf t =>
    cases t with
    | running g =>
      have stuck : runTests planOf place (.running g) f = [] := Machine.withinNone none
      have asleep (m : CoveredMutant) (seat : Nat) (p : Running) (c : RunCrew)
          (stuck : (testPlan planOf place).work m seat p c = []) : p.sleeps = true :=
        (Running.rests stuck).2
      exact Schedule.asleep asleep (Machine.withinNone stuck)
    | reporting x g => rfl

end Role

end MutationPipeline
