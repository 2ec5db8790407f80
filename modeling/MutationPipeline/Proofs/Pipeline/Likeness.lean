import MutationPipeline.Pipeline.Run
import MutationPipeline.Proofs.Pool.Likeness

/-!
The tasks of two runs that are alike. A task goes by what its workers answer to checks, to groupings
and to test runs, and by whether they start; only the task that hands the checkers over goes by
whether they could be disposed.
-/
namespace MutationPipeline
variable {loose loose' : Nat → Prop}

section
variable {c c' : CheckCrew}

namespace Activation

def decisive : Activation → List (Calling CheckWork)
  | .remembering => []
  | .calling call => [call]

theorem movesMirrored {staffing : Staffing} {name : String} {seat : Nat} {a : Activation}
    (like : c.AlikeBut loose c') (fixes : c.Fixes loose a.decisive) :
    (Crew.likeness loose).Mirrored (Onward fun c a => c.Fixes loose (decisive a)) Eq c
      (Activation.moves staffing name seat a c) (Activation.moves staffing name seat a c') := by
  cases a with
  | remembering =>
    have asks (u : CheckCrew) (worker : Nat) :
        u.Fixes loose [.ready worker (.work (.setActive name))] := Crew.fixesOne.mpr nofun
    obtain ⟨agree, begun, numbered⟩ := like
    simp only [Activation.moves]
    split
    · exact .one (.goes (Crew.Grows.same rfl rfl) (.of agree begun numbered) (asks _ _))
    · exact .one (.goes (Crew.Grows.same rfl rfl) (.of agree begun numbered) (asks _ _))
  | calling call =>
    exact (Calling.movesMirrored like (Crew.fixesOne.mp fixes)).within
      (fun _ _ _ => Crew.fixesOne.mpr)
      fun r u u' _ _ alike => .ends (Crew.Grows.same rfl rfl) alike

end Activation

theorem checkMirrored {staffing : Staffing} {mutants : List Mutant} {seat : Nat}
    {h : Handling CheckWork} (like : c.AlikeBut loose c') (fixes : c.Fixes loose h.decisive) :
    (Crew.likeness loose).Mirrored (Onward fun c h => c.Fixes loose (Handling.decisive h)) Eq c
      (checkMoves staffing mutants seat h c) (checkMoves staffing mutants seat h c') :=
  (Handling.movesMirrored like fixes).within (fun _ _ _ => id)
    fun _ _ _ _ _ alike => .ends (Crew.Grows.same rfl rfl) alike

end

namespace Running
variable {c c' : RunCrew}

def decisive : Running → List (Calling RunPlan)
  | .handling h => h.decisive
  | .replacing r => r.decisive

theorem movesMirrored {plan : RunPlan} {seat : Nat} {g : Running} (like : c.AlikeBut loose c')
    (fixes : c.Fixes loose g.decisive) :
    (Crew.likeness loose).Mirrored (Onward fun c g => c.Fixes loose (decisive g)) Eq c
      (Running.moves plan seat g c) (Running.moves plan seat g c') := by
  cases g with
  | handling h =>
    refine (Handling.movesMirrored like fixes).within (fun _ _ _ => id) fun r u u' _ _ alike => ?_
    cases r with
    | ok run =>
      cases run with
      | some run => exact .ends (Crew.Grows.same rfl rfl) alike
      | none => exact .goes (Crew.Grows.same rfl rfl) (alike.noted _ _) Crew.fixesNone
    | error e => exact .ends (Crew.Grows.same rfl rfl) alike
  | replacing r =>
    exact (Renewal.movesMirrored like fixes).within (fun _ _ _ => id)
      fun r u u' _ _ alike => .ends (Crew.Grows.same rfl rfl) alike

end Running

namespace StageView
variable {v v' : StageView}

structure AlikeBut (loose : Nat → Prop) (v v' : StageView) : Prop where
  input : v'.input = v.input
  passed : v'.passed = v.passed
  failed : v'.failed = v.failed
  site : v.site.AlikeBut loose v'.site

def likeness (loose : Nat → Prop) : Likeness StageView where
  like := AlikeBut loose
  grows v u := v.site.crew.Grows u.site.crew
  refl v := (Crew.likeness loose).refl v.site.crew
  trans := (Crew.likeness loose).trans

theorem onSiteAlike : Likeness.PartAlike onSite (Site.likeness loose) (likeness loose) where
  like := AlikeBut.site
  kept alike site := ⟨alike.input, alike.passed, alike.failed, site⟩
  grows := id
  grown := id
  placed := (Crew.likeness loose).refl _

theorem growsSame (tokens : v'.site.crew.tokens = v.site.crew.tokens)
    (orders : v'.site.crew.orders = v.site.crew.orders) : (likeness loose).grows v v' :=
  Crew.Grows.same tokens orders

theorem AlikeBut.noted (like : AlikeBut loose v v') (n : Note) : AlikeBut loose (v.note n) (v'.note n) :=
  ⟨like.input, like.passed, like.failed, like.site.noted _ _⟩

theorem AlikeBut.notedAll (like : AlikeBut loose v v') (notes : List Note) :
    AlikeBut loose (notes.foldl note v) (notes.foldl note v') ∧
      (likeness loose).grows v (notes.foldl note v) := by
  induction notes generalizing v v' with
  | nil => exact ⟨like, (likeness loose).refl v⟩
  | cons n rest ih =>
    obtain ⟨later, grows⟩ := ih (like.noted n)
    have first : (likeness loose).grows v (v.note n) := growsSame rfl rfl
    exact ⟨later, (likeness loose).trans first grows⟩

end StageView

namespace Stage
variable {v v' : StageView}

def decisive : Stage → List (Calling CheckWork)
  | .filling _ f => f.decisive
  | .activating _ b => b.phases.flatMap Activation.decisive
  | .borrowing _ a => a.decisive
  | .asking _ _ call => [call]
  | .checking f | .routing _ _ f => f.decisive Handling.decisive
  | _ => []

theorem planAlike (plan : StagePlan) :
    (schedulePlan plan).Alike (StageView.likeness loose) loose Handling.decisive where
  site := StageView.onSiteAlike
  start := rfl
  more like := .one ⟨StageView.growsSame rfl rfl, trivial, like, rfl⟩
  work _ _ _ _ _ := checkMirrored

theorem routeMirrored (like : v.AlikeBut loose v') (m : CoveredMutant) (verdict : Verdict) :
    (StageView.likeness loose).Mirrored (fun _ _ => True) Eq v (route v m verdict)
      (route v' m verdict) := by
  unfold route
  split
  · rw [like.passed]
    exact .common fun x _ => ⟨StageView.growsSame rfl rfl, trivial,
      ⟨like.input, rfl, like.failed, like.site⟩, rfl⟩
  · rw [like.failed]
    exact .common fun x _ => ⟨StageView.growsSame rfl rfl, trivial,
      ⟨like.input, like.passed, rfl, like.site⟩, rfl⟩

theorem activatingMirrored {plan : StagePlan} {batch : List CoveredMutant} {b : Broadcast Activation}
    (like : v.AlikeBut loose v') (fixes : v.site.crew.Fixes loose (Stage.activating batch b).decisive) :
    (StageView.likeness loose).Mirrored (Onward fun v stage => v.site.crew.Fixes loose (decisive stage))
      Eq v (Stage.moves plan (.activating batch b) v) (Stage.moves plan (.activating batch b) v') := by
  have idle : Activation.decisive .remembering = [] := rfl
  have each (seat : Nat) (p : Activation) {s s' : CheckSite} (alike : s.AlikeBut loose s')
      (here : s.crew.Fixes loose p.decisive) := Likeness.Mirrored.on Site.onCrewAlike alike
    (fun grows here => here.grow grows)
    (@Activation.movesMirrored _ _ _ plan.staffing plan.checker seat p alike.crew here)
  have inner := Broadcast.movesMirrored like.site idle each fixes
  refine (inner.on StageView.onSiteAlike like fun grows here => here.grow grows).within
    (fun _ _ _ => id) fun r u u' _ _ alike => ?_
  cases r with
  | ok _ => exact .goes (StageView.growsSame rfl rfl) alike Crew.fixesNone
  | error e => exact .ends (StageView.growsSame rfl rfl) alike

theorem routingMirrored {plan : StagePlan} {m : CoveredMutant} {rest : Group} {verdicts : Verdicts}
    {f : GroupSchedule} (like : v.AlikeBut loose v')
    (fixes : v.site.crew.Fixes loose (Stage.routing (m :: rest) verdicts f).decisive) :
    (StageView.likeness loose).Mirrored (Onward fun v stage => v.site.crew.Fixes loose (decisive stage))
      Eq v (Stage.moves plan (.routing (m :: rest) verdicts f) v) (Stage.moves plan (.routing (m :: rest) verdicts f) v') := by
  simp only [Stage.moves]
  split
  · exact .one (.ends (StageView.growsSame rfl rfl) like)
  · refine (routeMirrored like m _).map fun ⟨u, r⟩ ⟨u', r'⟩ ⟨grows, _, alike, same⟩ => ?_
    cases same
    cases r with
    | ok _ => exact .goes grows alike (fixes.grow grows)
    | error e => exact .ends grows alike

theorem movesMirrored {plan : StagePlan} {stage : Stage} (like : v.AlikeBut loose v')
    (fixes : v.site.crew.Fixes loose stage.decisive) :
    (StageView.likeness loose).Mirrored (Onward fun v stage => v.site.crew.Fixes loose (decisive stage))
      Eq v (Stage.moves plan stage v) (Stage.moves plan stage v') := by
  cases stage with
  | draining batch =>
    simp only [Stage.moves, like.input]
    refine .common fun ⟨input, received⟩ _ => ?_
    have alike : StageView.AlikeBut loose { v with input } { v' with input } :=
      ⟨rfl, like.passed, like.failed, like.site⟩
    cases received with
    | some m => exact .goes (StageView.growsSame rfl rfl) alike Crew.fixesNone
    | none =>
      dsimp only
      split
      · exact .ends (StageView.growsSame rfl rfl) (alike.noted _)
      · exact .goes (StageView.growsSame rfl rfl) alike Crew.fixesNone
  | filling batch f =>
    have inner := Filling.movesMirrored like.site fixes
    refine (inner.on StageView.onSiteAlike like fun grows here => here.grow grows).within
      (fun _ _ _ => id) fun r u u' _ _ alike => ?_
    cases r with
    | ok _ => exact .goes (StageView.growsSame rfl rfl) alike Crew.fixesNone
    | error e => exact .ends (StageView.growsSame rfl rfl) alike
  | activating batch b => exact activatingMirrored like fixes
  | borrowing batch a =>
    have inner := Acquisition.movesMirrored like.site fixes
    refine (inner.on StageView.onSiteAlike like fun grows here => here.grow grows).within
      (fun _ _ _ => id) fun r u u' _ _ alike => ?_
    cases r with
    | ok held =>
      dsimp only
      rw [alike.site.seated]
      exact .goes (StageView.growsSame rfl rfl) alike (Crew.fixesOne.mpr nofun)
    | error e => exact .ends (StageView.growsSame rfl rfl) alike
  | asking batch ticket call =>
    have inner := callMirrored like.site (Crew.fixesOne.mp fixes)
    exact (inner.on StageView.onSiteAlike like fun grows here => here.grow grows).within
      (fun _ _ _ => Crew.fixesOne.mpr)
      fun r u u' _ _ alike => .goes (StageView.growsSame rfl rfl) alike Crew.fixesNone
  | returning batch ticket answer r =>
    have inner := Release.movesMirrored (r := r) ticket like.site
    refine (inner.on StageView.onSiteAlike like fun _ => id).within
      (fun _ _ _ _ => Crew.fixesNone) fun _ u u' _ _ alike => ?_
    cases answer with
    | ok own => exact .goes (StageView.growsSame rfl rfl) alike Crew.fixesNone
    | error e => exact .ends (StageView.growsSame rfl rfl) alike
  | grouping batch own =>
    simp only [Stage.moves]
    obtain ⟨alike, grows⟩ := like.notedAll (groupsOf plan batch own).2
    split
    · exact .one (.goes ((StageView.likeness loose).trans grows (StageView.growsSame rfl rfl))
        (alike.noted _) Crew.fixesNone)
    · exact .one (.ends grows alike)
  | checking f =>
    refine (Schedule.movesMirrored (planAlike plan) like fixes).within (fun _ _ _ => id)
      fun ⟨y, g⟩ u u' _ here alike => ?_
    match y with
    | none => exact .ends (StageView.growsSame rfl rfl) alike
    | some ⟨_, .error e⟩ => exact .ends (StageView.growsSame rfl rfl) alike
    | some ⟨_, .ok (.error e)⟩ => exact .ends (StageView.growsSame rfl rfl) alike
    | some ⟨group, .ok (.ok verdicts)⟩ =>
      exact .goes (StageView.growsSame rfl rfl) alike here
  | routing group verdicts f =>
    cases group with
    | nil => exact .one (.goes (StageView.growsSame rfl rfl) like fixes)
    | cons m rest => exact routingMirrored like fixes

end Stage

namespace Floor
variable {f f' : Floor}

structure AlikeBut (loose loose' : Nat → Prop) (f f' : Floor) : Prop where
  results : f'.results = f.results
  links : f'.links = f.links
  checkers : f.checkers.AlikeBut loose f'.checkers
  runners : f.runners.AlikeBut loose' f'.runners

def likeness (loose loose' : Nat → Prop) : Likeness Floor where
  like := AlikeBut loose loose'
  grows f u := f.checkers.crew.Grows u.checkers.crew ∧ f.runners.crew.Grows u.runners.crew
  refl f := ⟨(Crew.likeness loose).refl f.checkers.crew, (Crew.likeness loose').refl f.runners.crew⟩
  trans first second :=
    ⟨(Crew.likeness loose).trans first.1 second.1, (Crew.likeness loose').trans first.2 second.2⟩

theorem growsSame (checkers : f'.checkers.crew = f.checkers.crew)
    (runners : f'.runners.crew = f.runners.crew) : (likeness loose loose').grows f f' := by
  have same := (likeness loose loose').refl f
  exact ⟨checkers ▸ same.1, runners ▸ same.2⟩

theorem AlikeBut.noted (like : f.AlikeBut loose loose' f') (notes notes' : List Note) :
    AlikeBut loose loose' { f with notes := notes } { f' with notes := notes' } :=
  ⟨like.results, like.links, like.checkers, like.runners⟩

theorem onCheckersAlike :
    Likeness.PartAlike onCheckers (Site.likeness loose) (likeness loose loose') where
  like := AlikeBut.checkers
  kept alike site := ⟨alike.results, alike.links, site, alike.runners⟩
  grows grow := ⟨grow, (Crew.likeness loose').refl _⟩
  grown := And.left
  placed := (Crew.likeness loose).refl _

theorem onRunnersAlike :
    Likeness.PartAlike onRunners (Site.likeness loose') (likeness loose loose') where
  like := AlikeBut.runners
  kept alike site := ⟨alike.results, alike.links, alike.checkers, site⟩
  grows grow := ⟨(Crew.likeness loose).refl _, grow⟩
  grown := And.right
  placed := (Crew.likeness loose').refl _

theorem onStageAlike (place : Nat) :
    Likeness.PartAlike (onStage place) (StageView.likeness loose) (likeness loose loose') where
  like alike := by
    refine ⟨?_, ?_, alike.results, alike.checkers⟩
    · exact congrArg (fun ls => List.getD ls place noLink) alike.links
    · exact congrArg (fun ls => List.getD ls (place + 1) noLink) alike.links
  kept alike view := by
    refine ⟨view.failed, ?_, view.site, alike.runners⟩
    simp only [onStage, setLink, alike.links, view.input, view.passed]
  grows grow := ⟨grow, (Crew.likeness loose').refl _⟩
  grown := And.left
  placed := (Crew.likeness loose).refl _

structure Shared {α : Type} (channel : Part Floor (Channel α)) : Prop where
  same : ∀ {loose loose' f f'}, AlikeBut loose loose' f f' → channel.get f' = channel.get f
  kept : ∀ {loose loose' f f'} (c : Channel α), AlikeBut loose loose' f f' →
    AlikeBut loose loose' (channel.set c f) (channel.set c f')
  checkers : ∀ (c : Channel α) f, (channel.set c f).checkers = f.checkers
  runners : ∀ (c : Channel α) f, (channel.set c f).runners = f.runners

theorem linkShared (place : Nat) : Shared (input place) where
  same alike := congrArg (fun ls => List.getD ls place noLink) alike.links
  kept c alike := ⟨alike.results, by simp only [input, setLink, alike.links], alike.checkers,
    alike.runners⟩
  checkers _ _ := rfl
  runners _ _ := rfl

theorem resultsShared : Shared onResults where
  same alike := alike.results
  kept _ alike := ⟨rfl, alike.links, alike.checkers, alike.runners⟩
  checkers _ _ := rfl
  runners _ _ := rfl

section
variable {α : Type} {channel : Part Floor (Channel α)} (shared : Shared channel)
  (like : f.AlikeBut loose loose' f')
include shared like

theorem updatePair (g : Channel α → Channel α) :
    AlikeBut loose loose' (channel.update g f) (channel.update g f') ∧
      (likeness loose loose').grows f (channel.update g f) := by
  refine ⟨?_, growsSame (congrArg Site.crew (shared.checkers _ f))
    (congrArg Site.crew (shared.runners _ f))⟩
  simp only [Part.update, shared.same like]
  exact shared.kept _ like

theorem sendMirrored (name : String) (x : α) :
    (likeness loose loose').Mirrored (fun _ _ => True) Eq f (f.send channel name x)
      (f'.send channel name x) := by
  unfold send
  rw [shared.same like]
  exact .common fun ⟨c, taken⟩ _ => ⟨growsSame (congrArg Site.crew (shared.checkers c f))
    (congrArg Site.crew (shared.runners c f)), trivial, shared.kept c like, rfl⟩

theorem receiveMirrored :
    (likeness loose loose').Mirrored (fun _ _ => True) Eq f (f.receive channel)
      (f'.receive channel) := by
  unfold receive
  rw [shared.same like]
  exact .common fun ⟨c, x⟩ _ => ⟨growsSame (congrArg Site.crew (shared.checkers c f))
    (congrArg Site.crew (shared.runners c f)), trivial, shared.kept c like, rfl⟩

end

end Floor

def Testing.decisive : Testing → List (Calling RunPlan)
  | .running g | .reporting _ g => g.decisive Running.decisive

def Handover.Fixed (loose : Nat → Prop) (f : Floor) : Handover → Prop
  | .disposing d => d.Fixed loose f.checkers.crew
  | _ => True

namespace Role
variable {f f' : Floor} {place : Nat}

def Fixed (loose loose' : Nat → Prop) (f : Floor) : Role → Prop
  | .checking _ stage => f.checkers.crew.Fixes loose stage.decisive
  | .releasing _ h => h.Fixed loose f
  | .testing _ t => f.runners.crew.Fixes loose' t.decisive
  | _ => True

theorem handoverMirrored {share : Nat} {h : Handover} (like : f.AlikeBut loose loose' f')
    (settled : h.Fixed loose f) :
    (Floor.likeness loose loose').Mirrored (Onward (Handover.Fixed loose)) Eq f
      (handover share place h f) (handover share place h f') := by
  cases h with
  | forwarding held =>
    cases held with
    | none =>
      refine (Floor.receiveMirrored (Floor.linkShared place) like).map
        fun ⟨u, x⟩ ⟨u', x'⟩ ⟨grows, _, alike, same⟩ => ?_
      cases same
      cases x with
      | some m => exact .goes grows alike trivial
      | none => exact .goes grows (alike.noted _ _) trivial
    | some m =>
      refine (Floor.sendMirrored (Floor.linkShared (place + 1)) like _ _).map
        fun ⟨u, r⟩ ⟨u', r'⟩ ⟨grows, _, alike, same⟩ => ?_
      cases same
      cases r with
      | ok _ => exact .goes grows alike trivial
      | error e => exact .ends grows alike
  | disposing d =>
    have inner := Disposal.movesMirrored like.checkers settled
    refine (inner.on Floor.onCheckersAlike like fun grows here => here.grow grows).within
      (fun _ _ _ => id) fun r u u' _ _ alike => ?_
    cases r with
    | ok _ => exact .goes (Floor.growsSame rfl rfl) alike trivial
    | error e => exact .ends (Floor.growsSame rfl rfl) alike
  | growing =>
    exact .one (.ends (Floor.growsSame rfl rfl)
      ⟨like.results, like.links, like.checkers, like.runners.pooled fun p => p.grow share⟩)

theorem testPlanAlike (planOf : CoveredMutant → RunPlan) (place : Nat) :
    (testPlan planOf place).Alike (Floor.likeness loose loose') loose' Running.decisive where
  site := Floor.onRunnersAlike
  start := rfl
  more like := Floor.receiveMirrored (Floor.linkShared place) like
  work _ _ _ _ _ := Running.movesMirrored

theorem runTestsMirrored {planOf : CoveredMutant → RunPlan} {t : Testing}
    (like : f.AlikeBut loose loose' f') (fixes : f.runners.crew.Fixes loose' t.decisive) :
    (Floor.likeness loose loose').Mirrored
      (Onward fun f t => f.runners.crew.Fixes loose' (Testing.decisive t)) Eq f
      (runTests planOf place t f) (runTests planOf place t f') := by
  cases t with
  | running g =>
    refine (Schedule.movesMirrored (testPlanAlike planOf place) like fixes).within
      (fun _ _ _ => id) fun ⟨y, g⟩ u u' _ here alike => ?_
    match y with
    | none => exact .ends (Floor.growsSame rfl rfl) alike
    | some ⟨_, .error e⟩ => exact .ends (Floor.growsSame rfl rfl) alike
    | some ⟨_, .ok (.error e)⟩ => exact .ends (Floor.growsSame rfl rfl) alike
    | some ⟨m, .ok (.ok run)⟩ => exact .goes (Floor.growsSame rfl rfl) alike here
  | reporting r g =>
    refine (Floor.sendMirrored Floor.resultsShared like _ _).map
      fun ⟨u, r⟩ ⟨u', r'⟩ ⟨grows, _, alike, same⟩ => ?_
    cases same
    cases r with
    | ok _ => exact .goes grows alike (Crew.Fixes.grow fixes grows.2)
    | error e => exact .ends grows alike

theorem afterSendMirrored {next : Role} {xs ys : List (Floor × Except RunError Unit)}
    (free : ∀ u, next.Fixed loose loose' u)
    (sent : (Floor.likeness loose loose').Mirrored (fun _ _ => True) Eq f xs ys) :
    (Floor.likeness loose loose').Mirrored (Onward (Fixed loose loose')) Eq f
      (afterSend next xs) (afterSend next ys) := by
  refine sent.map fun ⟨u, r⟩ ⟨u', r'⟩ ⟨grows, _, alike, same⟩ => ?_
  cases same
  cases r with
  | ok _ => exact .goes grows alike (free u)
  | error e => exact .ends grows alike

theorem movesMirrored {role : Role} (like : f.AlikeBut loose loose' f')
    (settled : role.Fixed loose loose' f) :
    (Floor.likeness loose loose').Mirrored (Onward (Fixed loose loose')) Eq f
      (role.moves place f) (role.moves place f') := by
  cases role with
  | ignoring rest =>
    cases rest with
    | nil => exact .one (.ends (Floor.growsSame rfl rfl) like)
    | cons m rest =>
      simp only [Role.moves, ignore]
      split
      · exact afterSendMirrored (fun _ => trivial) (Floor.sendMirrored Floor.resultsShared like _ _)
      · exact afterSendMirrored (fun _ => trivial)
          (Floor.sendMirrored (Floor.linkShared (place + 1)) like _ _)
  | checking plan stage =>
    have inner := @Stage.movesMirrored _ _ _ plan stage
      ((Floor.onStageAlike place).like like) settled
    exact (inner.on (Floor.onStageAlike place) like fun grows here => here.grow grows).within
      (fun _ _ _ => id) fun _ _ _ _ _ alike => .ends (Floor.growsSame rfl rfl) alike
  | releasing share h =>
    exact (handoverMirrored like settled).within (fun _ _ _ => id)
      fun _ _ _ _ _ alike => .ends (Floor.growsSame rfl rfl) alike
  | covering held =>
    cases held with
    | none =>
      refine (Floor.receiveMirrored (Floor.linkShared place) like).map
        fun ⟨u, x⟩ ⟨u', x'⟩ ⟨grows, _, alike, same⟩ => ?_
      cases same
      cases x with
      | some m => exact .goes grows alike trivial
      | none => exact .ends grows alike
    | some m =>
      simp only [Role.moves, cover]
      split
      · exact afterSendMirrored (fun _ => trivial) (Floor.sendMirrored Floor.resultsShared like _ _)
      · exact afterSendMirrored (fun _ => trivial)
          (Floor.sendMirrored (Floor.linkShared (place + 1)) like _ _)
  | testing planOf t =>
    exact (runTestsMirrored like settled).within (fun _ _ _ => id)
      fun _ _ _ _ _ alike => .ends (Floor.growsSame rfl rfl) alike

theorem Fixed.grow {role : Role} {u : Floor} (settled : role.Fixed loose loose' f)
    (grows : (Floor.likeness loose loose').grows f u) : role.Fixed loose loose' u := by
  cases role with
  | checking plan stage => exact Crew.Fixes.grow settled grows.1
  | releasing share h =>
    cases h with
    | disposing d => exact Disposal.Fixed.grow settled grows.1
    | _ => trivial
  | testing planOf t => exact Crew.Fixes.grow settled grows.2
  | _ => trivial

theorem vacatePair (role : Role) (like : f.AlikeBut loose loose' f') :
    (role.vacate f).AlikeBut loose loose' (role.vacate f') ∧
      (Floor.likeness loose loose').grows f (role.vacate f) := by
  have checks (tickets tokens : List Nat) := like.checkers.vacatePair tickets tokens
  have runs (tickets tokens : List Nat) := like.runners.vacatePair tickets tokens
  have still := (Floor.likeness loose loose').refl f
  cases role with
  | checking plan stage =>
    obtain ⟨alike, grows⟩ := checks stage.tickets stage.tokens
    exact ⟨⟨like.results, like.links, alike, like.runners⟩, grows, still.2⟩
  | releasing share h =>
    cases h with
    | disposing d =>
      obtain ⟨alike, grows⟩ := checks d.tickets d.tokens
      exact ⟨⟨like.results, like.links, alike, like.runners⟩, grows, still.2⟩
    | _ => exact ⟨like, still⟩
  | testing planOf t =>
    cases t with
    | running g | reporting x g =>
      obtain ⟨alike, grows⟩ := runs g.tickets (g.tokens Running.tokens)
      exact ⟨⟨like.results, like.links, like.checkers, alike⟩, still.1, grows⟩
  | _ => exact ⟨like, still⟩

theorem closePair (place : Nat) (role : Role) (like : f.AlikeBut loose loose' f') :
    (role.close place f).AlikeBut loose loose' (role.close place f') ∧
      (Floor.likeness loose loose').grows f (role.close place f) := by
  obtain ⟨first, grows⟩ := Floor.updatePair (Floor.linkShared place) like Channel.dropReceiver
  obtain ⟨second, grows'⟩ :=
    Floor.updatePair (Floor.linkShared (place + 1)) first Channel.dropSender
  have both := (Floor.likeness loose loose').trans grows grows'
  unfold close
  split
  · obtain ⟨third, grows''⟩ := Floor.updatePair Floor.resultsShared second Channel.dropSender
    exact ⟨third, (Floor.likeness loose loose').trans both grows''⟩
  · exact ⟨second, both⟩

end Role

namespace Task
variable {f f' u : Floor} {place : Nat} {t : Task}

def Fixed (loose loose' : Nat → Prop) (f : Floor) : Task → Prop
  | .working role => role.Fixed loose loose' f
  | _ => True

theorem Fixed.grow (settled : t.Fixed loose loose' f)
    (grows : (Floor.likeness loose loose').grows f u) : t.Fixed loose loose' u := by
  cases t with
  | working role => exact Role.Fixed.grow settled grows
  | _ => trivial

theorem movesMirrored (like : f.AlikeBut loose loose' f') (settled : t.Fixed loose loose' f) :
    (Floor.likeness loose loose').Mirrored (Fixed loose loose') Eq f (t.moves place f)
      (t.moves place f') := by
  cases t with
  | working role =>
    refine (Role.movesMirrored like settled).map fun ⟨u, n⟩ ⟨u', n'⟩ ⟨grows, here, alike, same⟩ => ?_
    cases same
    cases n with
    | go next => exact ⟨grows, here, alike, rfl⟩
    | done outcome => exact ⟨grows, trivial, alike, rfl⟩
    | panicked => exact ⟨grows, trivial, alike, rfl⟩
  | leaving role outcome =>
    obtain ⟨alike, grows⟩ := role.vacatePair like
    exact .one ⟨grows, trivial, alike, rfl⟩
  | closing role outcome =>
    obtain ⟨alike, grows⟩ := role.closePair place like
    exact .one ⟨grows, trivial, alike, rfl⟩
  | closed outcome => exact .one ⟨Floor.growsSame rfl rfl, trivial, like, rfl⟩
  | left outcome => exact .nil
  | joined => exact .nil

theorem cutMirrored (like : f.AlikeBut loose loose' f') :
    (Floor.likeness loose loose').Mirrored (Fixed loose loose') Eq f (t.cut f) (t.cut f') := by
  cases t with
  | working role =>
    simp only [cut]
    split
    · exact .one ⟨Floor.growsSame rfl rfl, trivial, like, rfl⟩
    · exact .nil
  | _ => exact .nil

end Task

end MutationPipeline
