import MutationPipeline.Proofs.Pipeline.Conducts
import MutationPipeline.Proofs.Pipeline.Roles

/-! All mutants in a run: with its tasks, in its channels, and those whose results were collected.
Each step trades some of them and leaves the others alone: a move of a task those of the other tasks and
those in the channels that are not next to it. -/
namespace MutationPipeline

namespace Floor
variable {label : Nat → CoveredMutant → Parcel} {place count : Nat} {f f' : Floor}

def aisle (label : Nat → CoveredMutant → Parcel) (count : Nat) (f : Floor) : List Parcel :=
  (List.range count).flatMap fun p => (f.link p).items.map (label p)

theorem aisleSplit (label : Nat → CoveredMutant → Parcel) (f : Floor)
    (inside : place + 1 < count) :
    ∃ rest, ∀ f', Near place f f' → (f'.aisle label count).Perm
      ((f'.link place).items.map (label place) ++
        (f'.link (place + 1)).items.map (label (place + 1)) ++ rest) := by
  let before := (List.range count).erase place
  let others := before.erase (place + 1)
  have here : place ∈ List.range count := List.mem_range.mpr (Nat.lt_of_succ_lt inside)
  have behind : place + 1 ∈ before :=
    (List.mem_erase_of_ne (Nat.succ_ne_self place)).mpr (List.mem_range.mpr inside)
  have single : before.Nodup := List.nodup_range.erase place
  have split : (List.range count).Perm (place :: (place + 1) :: others) :=
    (List.perm_cons_erase here).trans ((List.perm_cons_erase behind).cons place)
  refine ⟨others.flatMap fun p => (f.link p).items.map (label p), fun f' near => ?_⟩
  refine (split.flatMap_right _).trans ?_
  have same : (others.flatMap fun p => (f'.link p).items.map (label p)) =
      others.flatMap fun p => (f.link p).items.map (label p) := by
    refine List.flatMap_congr fun p other => ?_
    obtain ⟨after, remains⟩ := single.mem_erase_iff.mp other
    obtain ⟨front, -⟩ := List.nodup_range.mem_erase_iff.mp remains
    rw [near p front after]
  rw [List.flatMap_cons, List.flatMap_cons, same, List.append_assoc]

end Floor

namespace Task
variable {mutants : List CoveredMutant} {n place : Nat} {label : Nat → CoveredMutant → Parcel}
  {f f' : Floor} {t t' : Task}

def parcels (label : Nat → CoveredMutant → Parcel) (place : Nat) : Task → List Parcel
  | .working role => role.parcels label place
  | _ => []

def Fits (n : Nat) (label : Nat → CoveredMutant → Parcel) (place : Nat) : Task → Prop
  | .working role => role.Fits n label place
  | _ => True

theorem toldSelf (place : Nat) (t : Task) : t.told place t = [] := by
  cases t with
  | working role =>
    cases role with
    | checking plan stage =>
      cases stage with
      | checking g =>
        have none : g.told g = [] := Schedule.toldSame rfl
        simp only [told, Role.told, Stage.told, none, List.filterMap_nil]
      | _ => rfl
    | testing planOf u =>
      cases u with
      | running g =>
        have none : g.told g = [] := Schedule.toldSame rfl
        simp only [told, Role.told, Testing.told, none, List.filterMap_nil]
      | reporting x g => rfl
    | _ => rfl
  | _ => rfl

theorem vacateWindow (role : Role) (f : Floor) :
    (role.vacate f).links = f.links ∧ (role.vacate f).results = f.results := by
  cases role with
  | checking plan stage => exact ⟨rfl, rfl⟩
  | releasing share h => cases h <;> exact ⟨rfl, rfl⟩
  | testing planOf u => cases u <;> exact ⟨rfl, rfl⟩
  | _ => exact ⟨rfl, rfl⟩

theorem closeWindow (label : Nat → CoveredMutant → Parcel) (place : Nat) (role : Role)
    (f : Floor) : ((role.close place f).window label place).Subperm (f.window label place) ∧
      Floor.Near place f (role.close place f) := by
  let g := (Floor.input place).update Channel.dropReceiver f
  let h := (Floor.output place).update Channel.dropSender g
  have ends : (role.close place f).links = h.links ∧
      (role.close place f).results.items = f.results.items := by
    unfold Role.close
    split <;> exact ⟨rfl, rfl⟩
  obtain ⟨links, results⟩ := ends
  have front : ((g.link place).items.map (label place)).Subperm
      ((f.link place).items.map (label place)) := by
    have none : (g.link place).items = [] := by
      rcases Floor.linkSetSelf place (Channel.dropReceiver (f.link place)) f with same | ⟨same, -⟩
      · exact congrArg Channel.items same
      · exact same
    rw [none]
    exact List.nil_subperm
  have behind : g.link (place + 1) = f.link (place + 1) :=
    Floor.linkSetOther (Nat.ne_of_gt (Nat.lt_succ_self place))
  refine ⟨?_, fun q here after => ?_⟩
  · have same : (role.close place f).window label place = h.window label place := by
      simp only [Floor.window, Floor.link, links, results]
      rfl
    rw [same]
    refine (Floor.setOutput label place (Channel.dropSender (g.link (place + 1))) g).trans ?_
    rw [behind]
    exact (front.append (.refl _)).append (.refl _)
  · rw [Floor.link, links]
    exact (Floor.linkSetOther after).trans (Floor.linkSetOther here)

structure Moved (mutants : List CoveredMutant) (n : Nat) (label : Nat → CoveredMutant → Parcel)
    (place : Nat) (t : Task) (f f' : Floor) (t' : Task) : Prop where
  trade : Trade mutants n (t.told place t') (t.parcels label place ++ f.window label place)
    (t'.parcels label place ++ f'.window label place)
  fits : t'.Fits n label place
  near : Floor.Near place f f'

theorem movesMoved (fits : t.Fits n label place) (move : (f', t') ∈ t.moves place f) :
    Moved mutants n label place t f f' t' := by
  cases t with
  | working role =>
    obtain ⟨⟨g, o⟩, inner, same⟩ := List.mem_map.mp move
    have moved : Role.Moved mutants n label place role f g o := Role.movesMoved fits inner
    cases o with
    | go next =>
      cases same
      exact ⟨moved.trade, moved.fits next rfl, moved.near⟩
    | done outcome =>
      cases same
      exact ⟨moved.trade, trivial, moved.near⟩
    | panicked =>
      cases same
      exact ⟨moved.trade, trivial, moved.near⟩
  | leaving role outcome =>
    cases List.mem_singleton.mp move
    obtain ⟨links, results⟩ := vacateWindow role f
    have same : (role.vacate f).window label place = f.window label place := by
      simp only [Floor.window, Floor.link, links, results]
    refine ⟨.drop ?_, trivial, fun q _ _ => by rw [Floor.link, Floor.link, links]⟩
    rw [same]
    exact .refl _
  | closing role outcome =>
    cases List.mem_singleton.mp move
    obtain ⟨fewer, near⟩ := closeWindow label place role f
    exact ⟨.drop fewer, trivial, near⟩
  | closed outcome =>
    cases List.mem_singleton.mp move
    exact ⟨.drop (.refl _), trivial, fun q _ _ => rfl⟩
  | left outcome => cases move
  | joined => cases move

end Task

namespace Run
variable {mutants : List CoveredMutant} {n place : Nat} {label : Nat → CoveredMutant → Parcel}
  {r next : Run} {t u : Task}

def parcels (label : Nat → CoveredMutant → Parcel) (r : Run) : List Parcel :=
  (r.tasks.zipIdx.flatMap fun (t, place) => t.parcels label place) ++
    r.floor.aisle label (r.tasks.length + 1) ++ r.floor.results.items.map .settled ++
    r.collected.map .settled

/-- Every task is where the channels around it say. -/
def Fits (n : Nat) (label : Nat → CoveredMutant → Parcel) (r : Run) : Prop :=
  ∀ place (t : Task), r.tasks[place]? = some t → t.Fits n label place

theorem gather (held others around aside out done : List Parcel) :
    (held ++ others ++ (around ++ aside) ++ out ++ done).Perm
      (held ++ (around ++ out) ++ (others ++ aside ++ done)) := by
  simp only [List.append_assoc]
  refine .append_left held ((List.perm_append_comm_assoc others around _).trans ?_)
  refine .append_left around ?_
  rw [← List.append_assoc others, ← List.append_assoc others]
  exact List.perm_append_comm_assoc _ out done

theorem split (label : Nat → CoveredMutant → Parcel) (r : Run) (found : r.tasks[place]? = some t) :
    ∃ rest, ∀ next : Run, ∀ u, next.tasks = r.tasks.set place u → next.collected = r.collected →
      Floor.Near place r.floor next.floor →
      (next.parcels label).Perm
        (u.parcels label place ++ next.floor.window label place ++ rest) := by
  obtain ⟨bound, -⟩ := List.getElem?_eq_some_iff.mp found
  obtain ⟨others, staff⟩ := zipIdxSplit (fun (t, place) => t.parcels label place) found
  obtain ⟨aside, links⟩ := Floor.aisleSplit label r.floor (Nat.succ_lt_succ bound)
  refine ⟨others ++ aside ++ r.collected.map .settled, fun next u tasks collected near => ?_⟩
  have first := staff u
  have second := links next.floor near
  rw [parcels, Floor.window, tasks, collected, List.length_set]
  refine (((first.append second).append (.refl _)).append (.refl _)).trans ?_
  exact gather _ _ _ _ _ _

theorem toldSame (same : next.tasks = r.tasks) : r.told next = [] := by
  rw [told, same]
  exact zipIdxSelf (fun t u place => t.told place u) (fun t place => t.toldSelf place) r.tasks 0

theorem toldSet (found : r.tasks[place]? = some t) (tasks : next.tasks = r.tasks.set place u) :
    r.told next = t.told place u := by
  rw [told, tasks]
  exact zipIdxSet (fun t u place => t.told place u) (fun t place => t.toldSelf place) found u

structure Moved (mutants : List CoveredMutant) (n : Nat) (label : Nat → CoveredMutant → Parcel)
    (r next : Run) : Prop where
  trade : Trade mutants n (r.told next) (r.parcels label) (next.parcels label)
  fits : next.Fits n label

theorem setMoved {f : Floor} (fits : r.Fits n label) (found : r.tasks[place]? = some t)
    (moved : Task.Moved mutants n label place t r.floor f u)
    (tasks : next.tasks = r.tasks.set place u) (floor : next.floor = f)
    (collected : next.collected = r.collected) :
    Moved mutants n label r next := by
  cases floor
  obtain ⟨rest, split⟩ := r.split label found
  obtain ⟨bound, here⟩ := List.getElem?_eq_some_iff.mp found
  have same : r.tasks = r.tasks.set place t := by rw [← here, List.set_getElem_self]
  have before := split r t same rfl fun _ _ _ => rfl
  have after := split next u tasks collected moved.near
  refine ⟨?_, fun q v other => ?_⟩
  · rw [toldSet found tasks]
    exact (moved.trade.frame rest).perm before after.subperm
  · rw [tasks] at other
    by_cases same : place = q
    · cases same
      rw [List.getElem?_set_self bound] at other
      cases other
      exact moved.fits
    · rw [List.getElem?_set_ne same] at other
      exact fits q v other

theorem stillMoved (fits : r.Fits n label) (tasks : next.tasks = r.tasks)
    (links : next.floor.links = r.floor.links)
    (fewer : (next.floor.results.items ++ next.collected).Subperm
      (r.floor.results.items ++ r.collected)) : Moved mutants n label r next := by
  refine ⟨?_, fun place t found => fits place t (tasks ▸ found)⟩
  have aisle (count : Nat) : next.floor.aisle label count = r.floor.aisle label count := by
    simp only [Floor.aisle, Floor.link, links]
  rw [toldSame tasks, parcels, parcels, tasks, aisle]
  refine .drop ?_
  simp only [List.append_assoc _ (List.map _ _), ← List.map_append]
  exact (List.subperm_append_left _).mpr (subpermMap fewer)

theorem cutMoved {f : Floor} (fits : r.Fits n label) (found : r.tasks[place]? = some t)
    (cut : (f, u) ∈ t.cut r.floor) :
    Moved mutants n label r { r with floor := f, tasks := r.tasks.set place u } := by
  cases t with
  | working role =>
    by_cases sleeps : role.sleeps = true
    · rw [Task.cut, if_pos sleeps] at cut
      cases List.mem_singleton.mp cut
      have gone : Task.Moved mutants n label place (.working role) r.floor r.floor
          (.leaving role (.ok ())) :=
        ⟨.drop (List.sublist_append_right _ _).subperm, trivial, fun _ _ _ => rfl⟩
      exact setMoved fits found gone rfl rfl rfl
    · rw [Task.cut, if_neg sleeps] at cut
      cases cut
  | _ => cases cut

theorem ownMoved (fits : r.Fits n label) (move : next ∈ r.ownMoves) :
    Moved mutants n label r next := by
  cases ownActed move with
  | received collecting taken =>
    obtain ⟨⟨c, found⟩, taken, same⟩ := List.mem_map.mp taken
    cases same
    obtain ⟨y, same, rest⟩ := (Channel.receiveCases taken).resolve_right fun ended => by cases ended.1
    cases same
    have items : r.floor.results.items = _ :: c.items := rest
    refine stillMoved fits rfl rfl (List.Perm.subperm ?_)
    rw [items, ← List.append_assoc]
    exact List.perm_append_comm
  | @joined place outcome early found =>
    have gone : Task.Moved mutants n label place (.left outcome) r.floor r.floor .joined :=
      ⟨.drop (.refl _), trivial, fun _ _ _ => rfl⟩
    exact setMoved fits found gone rfl rfl rfl
  | cut aborting found cut => exact cutMoved fits found cut
  | concluded => exact stillMoved fits rfl rfl (List.sublist_append_right _ _).subperm
  | @checkersDone _ result => cases result <;> exact stillMoved fits rfl rfl (.refl _)
  | @runnersDone _ result => cases result <;> exact stillMoved fits rfl rfl (.refl _)
  | _ => exact stillMoved fits rfl rfl (.refl _)

variable (mutants) in
theorem stepMoved (fits : r.Fits n label) (step : Step r next) : Moved mutants n label r next := by
  cases step with
  | own move => exact ownMoved fits move
  | task place move =>
    obtain ⟨t, u, f, found, moved, rfl⟩ := taskActed move
    exact setMoved fits found (Task.movesMoved (fits place t found) moved) rfl rfl rfl
  | checker o outcome waits => exact stillMoved fits rfl rfl (.refl _)
  | runner o outcome waits => exact stillMoved fits rfl rfl (.refl _)

structure Tracked (mutants : List CoveredMutant) (n : Nat) (label : Nat → CoveredMutant → Parcel)
    (r : Run) (log : List Answer) : Prop where
  fits : r.Fits n label
  single : ((r.parcels label).map Parcel.id).Nodup
  sound : ∀ x ∈ r.parcels label, x.Sound mutants n log

theorem Tracked.step {log : List Answer} (tracked : Tracked mutants n label r log)
    (step : Step r next) : Tracked mutants n label next (log ++ r.told next) := by
  obtain ⟨trade, fits⟩ := stepMoved mutants tracked.fits step
  exact ⟨fits, subpermNodup trade.ids tracked.single,
    trade.sound log tracked.single tracked.sound⟩

theorem Tracked.traced {log : List Answer} (start : Tracked mutants n label r [])
    (traced : Traced r next log) : Tracked mutants n label next log := by
  induction traced with
  | refl => exact start
  | tail _ step before => exact before.step step

end Run

end MutationPipeline
