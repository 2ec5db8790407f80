import MutationPipeline.Proofs.Pipeline.Stages

/-! What a task does to the mutants it holds, in front of it and behind it. What a mutant in a
channel has gone through depends on the place of the channel alone; `label` says it. -/
namespace MutationPipeline

namespace Floor
variable {label : Nat → CoveredMutant → Parcel} {place p q : Nat} {f f' : Floor}
  {c : Channel CoveredMutant}

def window (label : Nat → CoveredMutant → Parcel) (place : Nat) (f : Floor) : List Parcel :=
  (f.link place).items.map (label place) ++ (f.link (place + 1)).items.map (label (place + 1)) ++
    f.results.items.map .settled

def Near (place : Nat) (f f' : Floor) : Prop :=
  ∀ q, q ≠ place → q ≠ place + 1 → f'.link q = f.link q

theorem linkSetOther (differs : q ≠ p) : (setLink p c f).link q = f.link q := by
  simp [setLink, link, List.getD_eq_getElem?_getD, List.getElem?_set_ne differs.symm]

theorem linkSetSelf (p : Nat) (c : Channel CoveredMutant) (f : Floor) :
    (setLink p c f).link p = c ∨
      ((setLink p c f).link p).items = [] ∧ (f.link p).items = [] := by
  by_cases inside : p < f.links.length
  · exact .inl (by simp [setLink, link, List.getD_eq_getElem?_getD, inside])
  · have outside : f.links.length ≤ p := Nat.le_of_not_lt inside
    refine .inr ⟨?_, ?_⟩ <;>
      simp [setLink, link, List.getD_eq_getElem?_getD, outside, noLink]

theorem setLinkSame (p : Nat) (f : Floor) : setLink p (f.link p) f = f := by
  have same : f.links.set p (f.link p) = f.links := by
    refine List.ext_getElem? fun i => ?_
    rw [List.getElem?_set]
    split
    · next here =>
      cases here
      by_cases inside : p < f.links.length
      · simp [link, List.getD_eq_getElem?_getD, inside]
      · simp [inside]
    · rfl
  rw [setLink, same]

theorem nearSet (place : Nat) (c d : Channel CoveredMutant) (f : Floor) :
    Near place f (setLink (place + 1) d (setLink place c f)) :=
  fun _ here behind => (linkSetOther behind).trans (linkSetOther here)

theorem setOutput (label : Nat → CoveredMutant → Parcel) (place : Nat)
    (c : Channel CoveredMutant) (f : Floor) :
    ((setLink (place + 1) c f).window label place).Subperm
      ((f.link place).items.map (label place) ++ c.items.map (label (place + 1)) ++
        f.results.items.map .settled) := by
  have front : (setLink (place + 1) c f).link place = f.link place :=
    linkSetOther (Nat.ne_of_lt (Nat.lt_succ_self place))
  rw [window, front]
  refine ((List.subperm_append_left _).mpr ?_).append (.refl _)
  rcases linkSetSelf (place + 1) c f with same | ⟨none, -⟩
  · rw [same]
  · rw [none]
    exact List.nil_subperm

theorem sendOutput {m : CoveredMutant} {name : String} {sent : Except RunError Unit}
    (move : (f', sent) ∈ f.send (output place) name m) :
    (f'.window label place).Subperm (label (place + 1) m :: f.window label place) ∧
      Near place f f' := by
  obtain ⟨⟨c, taken⟩, sending, same⟩ := List.mem_map.mp move
  cases same
  rcases Channel.sendCases sending with ⟨-, more⟩ | ⟨-, rfl⟩
  · refine ⟨(setOutput label place c f).trans (List.Perm.subperm ?_),
      fun _ _ behind => linkSetOther behind⟩
    rw [more, List.map_append, List.map_singleton, ← List.append_assoc, List.append_assoc _ [_]]
    exact List.perm_middle
  · have same : (output place).set ((output place).get f) f = f := setLinkSame (place + 1) f
    rw [same]
    exact ⟨(List.sublist_cons_self _ _).subperm, fun _ _ _ => rfl⟩

theorem sendResults {x : MutantResult} {name : String} {sent : Except RunError Unit}
    (move : (f', sent) ∈ f.send onResults name x) :
    (f'.window label place).Subperm (.settled x :: f.window label place) ∧ Near place f f' := by
  obtain ⟨⟨c, taken⟩, sending, same⟩ := List.mem_map.mp move
  cases same
  rcases Channel.sendCases sending with ⟨-, more⟩ | ⟨-, rfl⟩
  · refine ⟨List.Perm.subperm ?_, fun _ _ _ => rfl⟩
    rw [window]
    simp only [onResults, more, List.map_append, List.map_cons, List.map_nil]
    rw [← List.append_assoc]
    exact List.perm_append_comm
  · exact ⟨(List.sublist_cons_self _ _).subperm, fun _ _ _ => rfl⟩

theorem receiveInput (label : Nat → CoveredMutant → Parcel) {x : Option CoveredMutant}
    (move : (f', x) ∈ f.receive (input place)) :
    (∃ m, x = some m ∧ (label place m :: f'.window label place).Perm (f.window label place) ∧
      Near place f f') ∨ (x = none ∧ f' = f) := by
  obtain ⟨⟨c, found⟩, received, same⟩ := List.mem_map.mp move
  cases same
  rcases Channel.receiveCases received with ⟨m, rfl, items⟩ | ⟨rfl, rfl⟩
  · refine .inl ⟨m, rfl, ?_, fun _ here _ => linkSetOther here⟩
    have items : (f.link place).items = m :: c.items := items
    have back : ((input place).set c f).link (place + 1) = f.link (place + 1) :=
      linkSetOther (Nat.ne_of_gt (Nat.lt_succ_self place))
    rcases linkSetSelf place c f with same | ⟨-, none⟩
    · have front : ((input place).set c f).link place = c := same
      rw [window, window, front, back, items]
      exact .refl _
    · rw [none] at items
      cases items
  · exact .inr ⟨rfl, setLinkSame place f⟩

end Floor

def Testing.ranOf (m : CoveredMutant) : Except WorkerError TestRun → List Parcel
  | .ok run => [.ran m run]
  | .error _ => [.covered m]

def Testing.content (f : TestSchedule) : List Parcel :=
  Schedule.content (fun m => [.covered m]) ranOf f

def Testing.parcels : Testing → List Parcel
  | .running f => content f
  | .reporting x f => .settled x :: content f

namespace Role

def parcels (label : Nat → CoveredMutant → Parcel) (place : Nat) : Role → List Parcel
  | .ignoring rest => rest.map .fresh
  | .checking _ s => s.parcels (place - 1)
  | .releasing _ (.forwarding (some m)) => [label place m]
  | .covering (some m) => [label place m]
  | .testing _ t => t.parcels
  | _ => []

/-- A task is where the channels around it say. -/
def Fits (n : Nat) (label : Nat → CoveredMutant → Parcel) (place : Nat) : Role → Prop
  | .ignoring _ => label (place + 1) = .cleared 0
  | .checking .. => place - 1 < n ∧ label place = .cleared (place - 1) ∧
      label (place + 1) = .cleared (place - 1 + 1)
  | .releasing .. => label (place + 1) = label place
  | .covering _ => label place = .cleared n ∧ label (place + 1) = .covered
  | .testing .. => label place = .covered

variable {mutants : List CoveredMutant} {n place : Nat} {label : Nat → CoveredMutant → Parcel}
  {f f' : Floor} {o : Next Role (Except RunError Unit)}

structure Moved (mutants : List CoveredMutant) (n : Nat) (label : Nat → CoveredMutant → Parcel)
    (place : Nat) (role : Role) (f f' : Floor) (o : Next Role (Except RunError Unit)) : Prop where
  trade : Trade mutants n (o.elim (role.told place) (fun _ => []) [])
    (role.parcels label place ++ f.window label place)
    (o.elim (parcels label place) (fun _ => []) [] ++ f'.window label place)
  fits : ∀ next, o = .go next → next.Fits n label place
  near : Floor.Near place f f'

theorem handOver {x : Parcel} {old new : List Parcel} (give : Trade mutants n [] old (x :: new))
    (arrive : (f'.window label place).Subperm (x :: f.window label place)) :
    Trade mutants n [] (old ++ f.window label place) (new ++ f'.window label place) :=
  (give.frame (f.window label place)).perm (.refl _)
    (((List.subperm_append_left new).mpr arrive).trans List.perm_middle.subperm)

theorem sentMoved {role next : Role} {x : Parcel} (sent : Except RunError Unit)
    (silent : ∀ other, role.told place other = [])
    (give : Trade mutants n [] (role.parcels label place) (x :: next.parcels label place))
    (arrive : (f'.window label place).Subperm (x :: f.window label place) ∧ Floor.Near place f f')
    (fits : next.Fits n label place) : Moved mutants n label place role f f'
      (match sent with
        | .ok _ => .go next
        | .error e => .done (.error e)) := by
  obtain ⟨fewer, near⟩ := arrive
  have trade := handOver give fewer
  cases sent with
  | ok r =>
    refine ⟨?_, fun other go => ?_, near⟩
    · rw [Next.elim, silent next]
      exact trade
    · cases go
      exact fits
  | error e =>
    refine ⟨trade.perm (.refl _) (List.sublist_append_right _ _).subperm, fun other go => ?_, near⟩
    cases go

theorem afterSendMoved {role next : Role} {x : Parcel}
    {moves : List (Floor × Except RunError Unit)} (silent : ∀ other, role.told place other = [])
    (give : Trade mutants n [] (role.parcels label place) (x :: next.parcels label place))
    (arrive : ∀ g sent, (g, sent) ∈ moves →
      (g.window label place).Subperm (x :: f.window label place) ∧ Floor.Near place f g)
    (fits : next.Fits n label place) (move : (f', o) ∈ afterSend next moves) :
    Moved mutants n label place role f f' o := by
  obtain ⟨⟨g, sent⟩, sending, same⟩ := List.mem_map.mp move
  have moved := sentMoved sent silent give (arrive g sent sending) fits
  cases sent <;> cases same <;> exact moved

theorem ignoreMoved {m : CoveredMutant} {rest : List CoveredMutant}
    (fits : Role.Fits n label place (.ignoring (m :: rest)))
    (move : (f', o) ∈ ignore place m rest f) :
    Moved mutants n label place (.ignoring (m :: rest)) f f' o := by
  have later : Role.Fits n label place (.ignoring rest) := fits
  unfold ignore at move
  split at move
  · next aside =>
    exact afterSendMoved (fun _ => rfl) ((setAside aside).frame (rest.map .fresh))
      (fun g sent sending => Floor.sendResults sending) later move
  · next taken =>
    have give : Trade mutants n [] [.fresh m] [label (place + 1) m] := by
      rw [show label (place + 1) = .cleared 0 from fits]
      exact takeIn taken
    refine afterSendMoved (fun _ => rfl) ?_ (fun g sent sending => Floor.sendOutput sending) later
      move
    exact give.frame (rest.map .fresh)

theorem coverMoved {m : CoveredMutant} (fits : Role.Fits n label place (.covering (some m)))
    (move : (f', o) ∈ cover place m f) :
    Moved mutants n label place (.covering (some m)) f f' o := by
  have held : (Role.covering (some m)).parcels label place = [.cleared n m] := by
    rw [Role.parcels, fits.1]
  have later : Role.Fits n label place (.covering none) := fits
  unfold cover at move
  split at move
  · next uncovered =>
    refine afterSendMoved (fun _ => rfl) ?_ (fun g sent sending => Floor.sendResults sending) later
      move
    rw [held]
    exact leaveOut (CoveredMutant.uncoveredIff.mp uncovered)
  · next covered =>
    refine afterSendMoved (fun _ => rfl) ?_ (fun g sent sending => Floor.sendOutput sending) later
      move
    rw [held, fits.2]
    exact reach (not_not.mp (mt CoveredMutant.uncoveredIff.mpr covered))

theorem stillMoved {role : Role} (silent : ∀ other, role.told place other = [])
    (links : f'.links = f.links) (results : f'.results = f.results)
    (fewer : (o.elim (parcels label place) (fun _ => []) []).Subperm (role.parcels label place))
    (fits : ∀ next, o = .go next → next.Fits n label place) :
    Moved mutants n label place role f f' o where
  trade := by
    have none : o.elim (role.told place) (fun _ => []) [] = [] := by
      cases o with
      | go next => exact silent next
      | _ => rfl
    have same : f'.window label place = f.window label place := by
      simp only [Floor.window, Floor.link, links, results]
    rw [none, same]
    exact .drop ((List.subperm_append_right _).mpr fewer)
  fits := fits
  near := fun q _ _ => by rw [Floor.link, Floor.link, links]

theorem receiveMoved {role next : Role} {m : CoveredMutant}
    (silent : ∀ other, role.told place other = [])
    (taken : (label place m :: f'.window label place).Perm (f.window label place))
    (near : Floor.Near place f f') (holds : next.parcels label place = [label place m])
    (fits : next.Fits n label place) : Moved mutants n label place role f f' (.go next) where
  trade := by
    rw [Next.elim, silent next, Next.elim, holds]
    exact .drop (taken.subperm.trans (List.sublist_append_right _ _).subperm)
  fits := fun other go => by
    cases go
    exact fits
  near := near

def handing (share : Nat) (o : Next Handover (Except RunError Unit)) :
    Next Role (Except RunError Unit) :=
  o.elim (fun h => .go (.releasing share h)) .done .panicked

theorem handoverMoved {share : Nat} {h : Handover} {o : Next Handover (Except RunError Unit)}
    (fits : label (place + 1) = label place) (move : (f', o) ∈ handover share place h f) :
    Moved mutants n label place (.releasing share h) f f' (handing share o) := by
  have still {h : Handover} {o : Next Handover (Except RunError Unit)}
      (links : f'.links = f.links) (results : f'.results = f.results)
      (empty : ∀ next, o = .go next → (Role.releasing share next).parcels label place = []) :
      Moved mutants n label place (.releasing share h) f f' (handing share o) := by
    cases o with
    | go next =>
      refine stillMoved (fun _ => rfl) links results ?_ fun other go => ?_
      · rw [handing, Next.elim, Next.elim, empty next rfl]
        exact List.nil_subperm
      · cases go
        exact fits
    | done r =>
      exact stillMoved (fun _ => rfl) links results List.nil_subperm fun _ go => by cases go
    | panicked =>
      exact stillMoved (fun _ => rfl) links results List.nil_subperm fun _ go => by cases go
  cases h with
  | forwarding held =>
    cases held with
    | none =>
      obtain ⟨⟨g, found⟩, received, same⟩ := List.mem_map.mp move
      rcases Floor.receiveInput label received with ⟨m, rfl, taken, near⟩ | ⟨rfl, rfl⟩
      · cases same
        exact receiveMoved (fun _ => rfl) taken near rfl fits
      · cases same
        exact still rfl rfl fun next go => by (cases go; rfl)
    | some m =>
      obtain ⟨⟨g, sent⟩, sending, same⟩ := List.mem_map.mp move
      have later : Role.Fits n label place (.releasing share (.forwarding none)) := fits
      have give : Trade mutants n [] ((releasing share (.forwarding (some m))).parcels label place)
          (label (place + 1) m :: (releasing share (.forwarding none)).parcels label place) := by
        rw [fits]
        exact .drop (.refl _)
      have moved := sentMoved sent (fun _ => rfl) give (Floor.sendOutput sending) later
      cases sent <;> cases same <;> exact moved
  | disposing d =>
    rcases Machine.withinCases move with ⟨e, inner, rfl⟩ | ⟨u, r, inner, same⟩ | ⟨inner, rfl⟩
    · obtain ⟨u, -, rfl⟩ := Machine.onCases inner
      exact still rfl rfl fun next go => by (cases go; rfl)
    · obtain ⟨u, -, rfl⟩ := Machine.onCases inner
      cases r with
      | ok r =>
        cases same
        exact still rfl rfl fun next go => by (cases go; rfl)
      | error e =>
        cases same
        exact still rfl rfl fun _ go => by cases go
    · obtain ⟨u, -, rfl⟩ := Machine.onCases inner
      exact still rfl rfl fun _ go => by cases go
  | growing =>
    obtain ⟨rfl, rfl⟩ := memFinish.mp move
    exact still rfl rfl fun _ go => by cases go

variable (mutants n) in
theorem runningTrade {planOf : CoveredMutant → RunPlan} {g : TestSchedule}
    {o : Next TestSchedule (Option _ × TestSchedule)} (fits : label place = .covered)
    (move : (f', o) ∈ Schedule.moves (testPlan planOf place) g f) :
    Trade mutants n (o.elim (fun h => Testing.told (.running g) (.running h)) (fun _ => []) [])
      (Testing.content g ++ f.window label place)
      (o.elim Testing.content (Schedule.left (fun m => [.covered m]) Testing.ranOf) [] ++
        f'.window label place) := by
  have turned : Schedule.Turned (fun m => [.covered m]) Testing.ranOf (Floor.window label place) g
      f f' o := by
    refine Schedule.movedTurned (fun _ _ => rfl) ?_ ?_ (Schedule.movesMoved move)
    · intro t u item more
      rcases Floor.receiveInput label more with ⟨m, same, taken, -⟩ | ⟨same, -⟩
      · cases same
        rwa [fits] at taken
      · cases same
    · intro t u more
      rcases Floor.receiveInput label more with ⟨m, same, -, -⟩ | ⟨-, rfl⟩
      · cases same
      · rfl
  refine Schedule.turnedTrade turned (fun h quiet => ?_) fun h m r heard => ?_
  · rw [Testing.told, quiet]
    rfl
  · rw [Testing.told, heard]
    cases r with
    | ok run => exact Trade.outcome m run
    | error e => exact .drop (.refl _)

theorem runningNear {planOf : CoveredMutant → RunPlan} {g : TestSchedule}
    {o : Next TestSchedule (Option _ × TestSchedule)}
    (move : (f', o) ∈ Schedule.moves (testPlan planOf place) g f) : Floor.Near place f f' := by
  rcases (Schedule.movesMoved move).state with rfl | ⟨u, rfl⟩ | ⟨item, more⟩
  · exact fun _ _ _ => rfl
  · exact fun _ _ _ => rfl
  · rcases Floor.receiveInput (fun _ => .fresh) more with ⟨m, -, -, near⟩ | ⟨-, rfl⟩
    · exact near
    · exact fun _ _ _ => rfl

def runningOn (planOf : CoveredMutant → RunPlan) (o : Next Testing (Except RunError Unit)) :
    Next Role (Except RunError Unit) :=
  o.elim (fun t => .go (.testing planOf t)) .done .panicked

theorem testingMoved {planOf : CoveredMutant → RunPlan} {t : Testing}
    {o : Next Testing (Except RunError Unit)} (fits : label place = .covered)
    (move : (f', o) ∈ runTests planOf place t f) :
    Moved mutants n label place (.testing planOf t) f f' (runningOn planOf o) := by
  cases t with
  | running g =>
    rcases Machine.withinCases move with ⟨h, inner, rfl⟩ | ⟨u, ⟨y, h⟩, inner, same⟩ | ⟨inner, rfl⟩
    · exact ⟨runningTrade mutants n fits inner, fun other go => by (cases go; exact fits),
        runningNear inner⟩
    · have ran := runningTrade mutants n fits inner
      have ended : Moved mutants n label place (.testing planOf (.running g)) f u
          (.done (.ok ())) :=
        ⟨ran.perm (.refl _) (List.sublist_append_right _ _).subperm, (fun _ go => by cases go),
          runningNear inner⟩
      cases y with
      | none => cases same; exact ended
      | some y =>
        obtain ⟨m, result⟩ := y
        cases result with
        | error e => cases same; exact { ended with fits := fun _ go => by cases go }
        | ok answer =>
          cases answer with
          | error e => cases same; exact { ended with fits := fun _ go => by cases go }
          | ok run =>
            cases same
            refine ⟨?_, fun other go => by (cases go; exact fits), runningNear inner⟩
            refine ((finishRun run).frame (Testing.content h ++ f'.window label place)).after ?_
            rw [← List.append_assoc [_]]
            exact ran
    · exact ⟨runningTrade mutants n fits inner, (fun _ go => by cases go), runningNear inner⟩
  | reporting x g =>
    obtain ⟨⟨h, sent⟩, sending, same⟩ := List.mem_map.mp move
    have later : Role.Fits n label place (.testing planOf (.running g)) := fits
    have give : Trade mutants n [] ((testing planOf (.reporting x g)).parcels label place)
        (.settled x :: (testing planOf (.running g)).parcels label place) := .drop (.refl _)
    have silent : ∀ other, (testing planOf (.reporting x g)).told place other = [] :=
      fun other => by cases other <;> rfl
    have moved := sentMoved sent silent give (Floor.sendResults sending) later
    cases sent <;> cases same <;> exact moved

theorem stageWindow (fits : Role.Fits n label place (.checking plan stage)) :
    ((Floor.onStage place).get f).parcels (place - 1) = f.window label place := by
  rw [Floor.window, fits.2.1, fits.2.2]
  rfl

theorem checkingMoved {plan : StagePlan} {stage : Stage} {o : Next Stage (Except RunError Unit)}
    (fits : Role.Fits n label place (.checking plan stage))
    (move : (f', o) ∈ (Stage.moves plan).on (Floor.onStage place) stage f) :
    Moved mutants n label place (.checking plan stage) f f'
      (o.elim (fun s => .go (.checking plan s)) .done .panicked) := by
  obtain ⟨v, inner, rfl⟩ := Machine.onCases move
  have trade := Stage.movesTrade mutants fits.1 inner
  rw [Stage.Traded, stageWindow fits] at trade
  have back : (((Floor.onStage place).set v f).window label place).Subperm
      (v.parcels (place - 1)) := by
    refine (Floor.setOutput label place v.passed
      { Floor.setLink place v.input f with results := v.failed }).trans ?_
    rw [fits.2.1, fits.2.2]
    refine (List.Subperm.append ?_ (.refl _)).append (.refl _)
    rcases Floor.linkSetSelf place v.input f with same | ⟨none, -⟩
    · change (((Floor.setLink place v.input f).link place).items.map _).Subperm _
      rw [same]
    · change (((Floor.setLink place v.input f).link place).items.map _).Subperm _
      rw [none]
      exact List.nil_subperm
  have near : Floor.Near place f ((Floor.onStage place).set v f) :=
    Floor.nearSet place v.input v.passed f
  cases o with
  | go s =>
    refine ⟨trade.perm (.refl _) ((List.subperm_append_left _).mpr back), fun other go => ?_, near⟩
    cases go
    exact fits
  | done r =>
    exact ⟨trade.perm (.refl _) ((List.subperm_append_left _).mpr back),
      (fun _ go => by cases go), near⟩
  | panicked =>
    exact ⟨trade.perm (.refl _) ((List.subperm_append_left _).mpr back),
      (fun _ go => by cases go), near⟩

theorem movesMoved {role : Role} (fits : role.Fits n label place)
    (move : (f', o) ∈ role.moves place f) : Moved mutants n label place role f f' o := by
  cases role with
  | ignoring rest =>
    cases rest with
    | nil =>
      obtain ⟨rfl, rfl⟩ := memFinish.mp move
      exact stillMoved (fun _ => rfl) rfl rfl List.nil_subperm fun _ go => by cases go
    | cons m rest => exact ignoreMoved fits move
  | checking plan stage =>
    rcases Machine.withinCases move with ⟨s, inner, rfl⟩ | ⟨u, r, inner, same⟩ | ⟨inner, rfl⟩
    · exact checkingMoved fits inner
    · cases same
      exact checkingMoved fits inner
    · exact checkingMoved fits inner
  | releasing share h =>
    rcases Machine.withinCases move with ⟨g, inner, rfl⟩ | ⟨u, r, inner, same⟩ | ⟨inner, rfl⟩
    · exact handoverMoved fits inner
    · cases same
      exact handoverMoved fits inner
    · exact handoverMoved fits inner
  | covering held =>
    cases held with
    | none =>
      obtain ⟨⟨g, found⟩, received, same⟩ := List.mem_map.mp move
      rcases Floor.receiveInput label received with ⟨m, rfl, taken, near⟩ | ⟨rfl, rfl⟩
      · obtain ⟨rfl, rfl⟩ := Prod.mk.inj same
        exact receiveMoved (fun _ => rfl) taken near rfl fits
      · obtain ⟨rfl, rfl⟩ := Prod.mk.inj same
        exact stillMoved (fun _ => rfl) rfl rfl List.nil_subperm fun _ go => by cases go
    | some m => exact coverMoved fits move
  | testing planOf t =>
    rcases Machine.withinCases move with ⟨u, inner, rfl⟩ | ⟨u, r, inner, same⟩ | ⟨inner, rfl⟩
    · exact testingMoved fits inner
    · cases same
      exact testingMoved fits inner
    · exact testingMoved fits inner

end Role

end MutationPipeline
