import MutationPipeline.Proofs.Pipeline.Errands
import MutationPipeline.Proofs.Pipeline.Runs

/-! What the task that runs the tests asks its workers for. It asks for one run for each mutant that comes
to it, and once more if the worker died; whom it has asked for has answered or is being waited for. -/
namespace MutationPipeline

theorem testsOfAppend (errands more : List Errand) (again : Bool) :
    testsOf (errands ++ more) again = testsOf errands again ++ testsOf more again :=
  List.filterMap_append

theorem testsOfAsked (again : Bool) (asked : List (CoveredMutant × Bool)) :
    testsOf (asked.map fun (m, again) => .test m again) again = Schedule.calls again asked := by
  rw [testsOf, List.filterMap_map]
  refine List.filterMap_congr fun x _ => ?_
  simp [Errand.testOf?]

theorem Floor.receiveItems {place : Nat} {f g : Floor} {x : Option CoveredMutant}
    (move : (g, x) ∈ f.receive (input place)) :
    (∃ m, x = some m ∧ m :: (g.link place).items = (f.link place).items) ∨ (x = none ∧ g = f) := by
  obtain ⟨⟨c, found⟩, received, same⟩ := List.mem_map.mp move
  cases same
  rcases Channel.receiveCases received with ⟨m, rfl, items⟩ | ⟨rfl, rfl⟩
  · have items : (f.link place).items = m :: c.items := items
    refine .inl ⟨m, rfl, ?_⟩
    rcases linkSetSelf place c f with same | ⟨-, none⟩
    · have front : ((input place).set c f).link place = c := same
      rw [front, items]
    · rw [none] at items
      cases items
  · exact .inr ⟨rfl, setLinkSame place f⟩

namespace Testing
variable {o : Orders} {mutants : List CoveredMutant} {n place : Nat}
  {label : Nat → CoveredMutant → Parcel} {f f' : Floor} {t next : Testing} {errands : List Errand}
  {log : List Answer}

structure Booked (errands : List Errand) (log : List Answer) (t : Testing) : Prop where
  done : ∀ again, ∀ m ∈ testsOf errands again, runs log m.id ≠ [] ∨
    m.id ∈ (t.schedule.given (Running.mayAsk again)).map (·.id)
  asked : t.schedule.given (Running.mayAsk false) ⊆ testsOf errands false

structure Books (around : List Parcel) (errands : List Errand) (log : List Answer) (t next : Testing) :
    Prop where
  booked : next.Booked (errands ++ t.asked next) (log ++ t.told next)
  single : ∀ again, ((testsOf errands again).map (·.id)).Nodup →
    ((testsOf (errands ++ t.asked next) again).map (·.id)).Nodup
  asked : ∀ e ∈ t.asked next, ∃ m again, e = .test m again ∧
    (again = true → m ∈ testsOf errands false) ∧ (again = false → .covered m ∈ around)
  told : ∀ x ∈ t.told next, ∃ m run, x = .outcome m run ∧ m ∈ testsOf errands false

theorem contentIds (g : TestSchedule) : (content g).map Parcel.id =
    (Schedule.content (fun m => [m]) (fun m _ => [m]) g).map (·.id) := by
  have each (known : List CoveredMutant) : (known.flatMap fun m => [Parcel.covered m]).map Parcel.id =
      (known.flatMap fun m => [m]).map (·.id) := by
    rw [List.map_flatMap, List.map_flatMap]
    rfl
  have feed : (g.feed.content fun m => [Parcel.covered m]).map Parcel.id =
      (g.feed.content fun m => [m]).map (·.id) := by
    cases g.feed with
    | «open» known => exact each known
    | acquiring m a known => exact congrArg (m.id :: ·) (each known)
    | ended => rfl
  rw [content, Schedule.content, Schedule.content, List.map_append, List.map_append, feed,
    List.map_flatMap, List.map_flatMap]
  refine congrArg _ (List.flatMap_congr fun x _ => ?_)
  cases x with
  | returning m ticket r b => cases r <;> rfl
  | _ => rfl

theorem apart (fits : label place = .covered) (g : TestSchedule) (may : Running → Bool)
    (single : ((content g ++ f.window label place).map Parcel.id).Nodup) :
    (((g.waiting may ++ (f.link place).items) ++ g.given may).map (·.id)).Nodup := by
  refine subpermNodup ?_ single
  have ahead : ((f.link place).items.map (·.id)).Sublist ((f.window label place).map Parcel.id) := by
    rw [Floor.window, fits, List.map_append, List.map_append, List.map_map, List.append_assoc]
    exact List.sublist_append_left _ _
  have own := subpermMap (f := fun m : CoveredMutant => m.id) (Schedule.waitingGiven may g)
  rw [← contentIds] at own
  have whole : (content g ++ f.window label place).map Parcel.id =
      (content g).map Parcel.id ++ (f.window label place).map Parcel.id := List.map_append
  rw [whole]
  refine List.Subperm.trans ?_ (own.append ahead.subperm)
  rw [List.map_append, List.map_append, List.map_append, List.append_assoc, List.append_assoc]
  exact ((List.perm_append_comm).append_left _).subperm

theorem freshCalls {g : TestSchedule} {around : List Parcel} {again : Bool}
    {calls : List CoveredMutant} (booked : Booked errands log (.running g))
    (apart : (((g.waiting (Running.mayAsk again) ++ (f.link place).items) ++
      g.given (Running.mayAsk again)).map (·.id)).Nodup)
    (inside : calls.Subperm (g.waiting (Running.mayAsk again) ++ (f.link place).items))
    (covered : ∀ m ∈ calls, .covered m ∈ around) (sound : ∀ x ∈ around, x.Sound mutants n log)
    (single : ((testsOf errands again).map (·.id)).Nodup) :
    ((testsOf errands again ++ calls).map (·.id)).Nodup := by
  rw [List.map_append] at apart ⊢
  obtain ⟨fresh, -, given⟩ := List.nodup_append.mp apart
  refine List.nodup_append.mpr ⟨single, subpermNodup (subpermMap inside) fresh, ?_⟩
  rintro id before id' now rfl
  obtain ⟨m, asked, rfl⟩ := List.mem_map.mp before
  obtain ⟨x, called, same⟩ := List.mem_map.mp now
  rcases booked.done again m asked with ran | flying
  · obtain ⟨-, -, -, -, idle⟩ := sound _ (covered x called)
    exact ran (same ▸ idle)
  · exact given x.id (List.mem_map_of_mem (inside.subset called)) m.id flying same

theorem runsMore {m : CoveredMutant} (more : List Answer) (ran : runs log m.id ≠ []) :
    runs (log ++ more) m.id ≠ [] := by
  rw [runsAppend]
  exact fun none => ran (List.append_eq_nil_iff.mp none).1

theorem runningBooks {g h : TestSchedule} (fits : label place = .covered)
    (suits : g.Fits some (RunFits o.planOf)) (discreet : f.runners.crew.Discreet some)
    (booked : Booked errands log (.running g))
    (single : ((content g ++ f.window label place).map Parcel.id).Nodup)
    (sound : ∀ x ∈ content g ++ f.window label place, x.Sound mutants n log)
    (move : Schedule.Moved (Role.testPlan o.planOf place) g f f' (.go h)) :
    Books (content g ++ f.window label place) errands log (.running g) (.running h) := by
  have advances := Schedule.movedAdvances (fun f => (f.link place).items)
    (Role.testPlanSpeaks o.planOf place) suits discreet (fun _ _ => rfl) (fun s u m more => by
      rcases Floor.receiveItems more with ⟨x, same, items⟩ | ⟨none, -⟩
      · cases same
        rw [items]
      · cases none) (fun s u more => by
      rcases Floor.receiveItems more with ⟨x, same, -⟩ | ⟨-, rfl⟩
      · cases same
      · rfl) move
  have calls (again : Bool) : testsOf ((Testing.running g).asked (.running h)) again =
      Schedule.calls again (g.asked Running.begun? h) := testsOfAsked again _
  have inside (again : Bool) : (Schedule.calls again (g.asked Running.begun? h)).Subperm
      (g.waiting (Running.mayAsk again) ++ (f.link place).items) := by
    exact (List.sublist_append_left _ _).subperm.trans (advances.waiting again)
  have covered (again : Bool) : ∀ m ∈ Schedule.calls again (g.asked Running.begun? h),
      .covered m ∈ content g ++ f.window label place := by
    intro m called
    rcases List.mem_append.mp ((inside again).subset called) with ready | ahead
    · exact List.mem_append_left _ (Schedule.waitingContent (fun m => [.covered m]) ranOf _ ready
        List.mem_cons_self)
    · refine List.mem_append_right _ ?_
      rw [Floor.window, fits, List.append_assoc]
      exact List.mem_append_left _ (List.mem_map_of_mem ahead)
  refine ⟨⟨fun again m asked => ?_, fun m given => ?_⟩, fun again before => ?_, fun e member => ?_,
    fun x member => ?_⟩
  · rw [testsOfAppend, calls] at asked
    rcases List.mem_append.mp asked with before | now
    · rcases booked.done again m before with ran | flying
      · exact .inl (runsMore _ ran)
      · obtain ⟨x, given, same⟩ := List.mem_map.mp flying
        exact .inr (List.mem_map.mpr ⟨x, advances.kept again given, same⟩)
    · exact .inr (List.mem_map_of_mem (advances.called again now))
  · rw [testsOfAppend, calls]
    rcases List.mem_append.mp (advances.given given) with before | now
    · exact List.mem_append_left _ (booked.asked before)
    · exact List.mem_append_right _ now
  · rw [testsOfAppend, calls]
    exact freshCalls booked (apart fits g _ single) (inside again) (covered again) sound before
  · obtain ⟨⟨m, again⟩, asked, rfl⟩ := List.mem_map.mp member
    have called : m ∈ Schedule.calls again (g.asked Running.begun? h) :=
      List.mem_filterMap.mpr ⟨(m, again), asked, if_pos rfl⟩
    refine ⟨m, again, rfl, fun same => ?_, fun _ => covered again m called⟩
    cases same
    exact booked.asked (advances.repeats called)
  · obtain ⟨⟨m, result⟩, told, heard⟩ := List.mem_filterMap.mp member
    cases result with
    | ok run =>
      cases heard
      exact ⟨m, run, rfl, booked.asked (advances.told (List.mem_map_of_mem told))⟩
    | error e => cases heard

theorem movesBooks (fits : label place = .covered) (suits : t.schedule.Fits some (RunFits o.planOf))
    (discreet : f.runners.crew.Discreet some) (booked : Booked errands log t)
    (single : ((t.parcels ++ f.window label place).map Parcel.id).Nodup)
    (sound : ∀ x ∈ t.parcels ++ f.window label place, x.Sound mutants n log)
    (move : (f', .go next) ∈ Role.runTests o.planOf place t f) :
    Books (t.parcels ++ f.window label place) errands log t next := by
  have still (asked : t.asked next = []) (told : t.told next = []) (booked : Booked errands log next) :
      Books (t.parcels ++ f.window label place) errands log t next := by
    refine ⟨?_, ?_, ?_, ?_⟩
    · rwa [asked, told, List.append_nil, List.append_nil]
    · rw [asked, List.append_nil]
      exact fun _ => id
    · simp [asked]
    · simp [told]
  cases t with
  | reporting x g =>
    obtain ⟨⟨h, sent⟩, sending, same⟩ := List.mem_map.mp move
    cases sent with
    | ok r => cases same; exact still rfl rfl ⟨booked.done, booked.asked⟩
    | error e => cases same
  | running g =>
    rcases Machine.withinCases move with ⟨h, inner, same⟩ | ⟨u, ⟨y, h⟩, inner, same⟩ | ⟨inner, same⟩
    · cases same
      exact runningBooks fits suits discreet booked single sound (Schedule.movesMoved inner)
    · cases y with
      | none => cases same
      | some y =>
        obtain ⟨m, result⟩ := y
        cases result with
        | error e => cases same
        | ok answer =>
          cases answer with
          | error e => cases same
          | ok run =>
            cases same
            have yields := Schedule.movedYields Running.mayAsk (Schedule.movesMoved inner)
            refine still rfl rfl ⟨fun again x asked => ?_, List.Subset.trans (yields false).2.1 booked.asked⟩
            obtain ⟨⟨ticket, b, flies⟩, kept⟩ := (yields again).2.2 _ rfl
            rcases booked.done again x asked with ran | flying
            · exact .inl ran
            · obtain ⟨z, given, id⟩ := List.mem_map.mp flying
              rcases List.mem_cons.mp (kept given) with rfl | later
              · have inside : Parcel.ran z run ∈ content g ++ f.window label place := by
                  refine List.mem_append_left _ (List.mem_append_right _ ?_)
                  exact List.mem_flatMap.mpr ⟨_, flies, List.mem_singleton_self _⟩
                obtain ⟨-, -, -, -, once⟩ := sound _ inside
                refine .inl ?_
                rw [← id, once]
                exact List.cons_ne_nil _ _
              · exact .inr (List.mem_map.mpr ⟨z, later, id⟩)
    · cases same

end Testing

end MutationPipeline
