import MutationPipeline.Proofs.Checker.Assembly
import MutationPipeline.Proofs.Pipeline.Parcels
import MutationPipeline.Proofs.Pool.Content

/-! What the stage of a checker does to the mutants in it, in front of it and behind it. -/
namespace MutationPipeline

theorem Channel.receiveCases {α : Type} {c d : Channel α} {x : Option α}
    (received : (d, x) ∈ c.receive) :
    (∃ y, x = some y ∧ c.items = y :: d.items) ∨ (x = none ∧ d = c) := by
  unfold Channel.receive at received
  split at received
  · next y items shape =>
    cases List.mem_singleton.mp received
    exact .inl ⟨y, rfl, shape⟩
  · split at received
    · cases List.mem_singleton.mp received
      exact .inr ⟨rfl, rfl⟩
    · cases received

theorem Channel.sendCases {α : Type} {c d : Channel α} {x : α} {taken : Bool}
    (sent : (d, taken) ∈ c.send x) :
    (taken = true ∧ d.items = c.items ++ [x]) ∨ (taken = false ∧ d = c) := by
  unfold Channel.send at sent
  split at sent
  · cases List.mem_singleton.mp sent
    exact .inr ⟨rfl, rfl⟩
  · split at sent
    · cases List.mem_singleton.mp sent
      exact .inl ⟨rfl, rfl⟩
    · cases sent

theorem Schedule.turnedTrade {W α φ ρ σ : Type} {mutants : List CoveredMutant} {n : Nat}
    {raw : α → List Parcel} {worked : α → ρ → List Parcel} {look : σ → List Parcel}
    {f : Schedule W α φ ρ} {s s' : σ} {tell : Schedule W α φ ρ → List Answer}
    {o : Next (Schedule W α φ ρ) (Option (Yield α ρ) × Schedule W α φ ρ)}
    (turned : Turned raw worked look f s s' o) (silent : ∀ g, f.told g = [] → tell g = [])
    (answers : ∀ g item r, f.told g = [(item, r)] →
      Trade mutants n (tell g) (raw item) (worked item r)) :
    Trade mutants n (o.elim tell (fun _ => []) []) (f.content raw worked ++ look s)
      (o.elim (content raw worked) (left raw worked) [] ++ look s') := by
  cases turned with
  | @on g _ quiet same =>
    rw [Next.elim, silent g quiet]
    exact .drop same.subperm
  | @answer g _ item r rest told before after =>
    exact ((answers g item r told).frame rest).perm before after.subperm
  | yield same => exact .drop same.subperm
  | ended same =>
    refine .drop ?_
    rw [Next.elim, left, same]
    exact (List.sublist_append_right _ _).subperm
  | panicked same =>
    refine .drop ?_
    rw [Next.elim, same]
    exact (List.sublist_append_right _ _).subperm

namespace Stage

def raw (k : Nat) (group : Group) : List Parcel := group.map (.cleared k)

def judged (k : Nat) (group : Group) (vs : Verdicts) : List Parcel :=
  group.map fun m => .judged k (vs.get? m.id) m

def worked (k : Nat) (group : Group) : Except WorkerError Verdicts → List Parcel
  | .ok vs => judged k group vs
  | .error _ => raw k group

def parcels (k : Nat) : Stage → List Parcel
  | .draining batch | .filling batch _ | .activating batch _ | .borrowing batch _
  | .asking batch _ _ | .returning batch _ _ _ | .grouping batch _ => batch.map (.cleared k)
  | .checking f => f.content (raw k) (worked k)
  | .routing group vs f => judged k group vs ++ f.content (raw k) (worked k)

end Stage

def StageView.parcels (k : Nat) (v : StageView) : List Parcel :=
  v.input.items.map (.cleared k) ++ v.passed.items.map (.cleared (k + 1)) ++
    v.failed.items.map .settled

namespace Stage
variable {plan : StagePlan} {mutants : List CoveredMutant} {n k : Nat} {v v' : StageView}

theorem siteParcels {φ ρ : Type} {m : Machine CheckSite φ ρ} {p : φ} {o : Next φ ρ}
    (move : (v', o) ∈ onSite m p v) : v'.parcels k = v.parcels k := by
  obtain ⟨u, -, rfl⟩ := Machine.onCases move
  rfl

theorem notesParcels (notes : List Note) (v : StageView) :
    (notes.foldl StageView.note v).parcels k = v.parcels k := by
  induction notes generalizing v with
  | nil => rfl
  | cons first rest ih => exact ih (v.note first)

variable (mutants n k) in
theorem checkingTrade {f : GroupSchedule} {o : Next GroupSchedule (Option _ × GroupSchedule)}
    (move : (v', o) ∈ Schedule.moves (schedulePlan plan) f v) :
    Trade mutants n (o.elim (fun g => told k (.checking f) (.checking g)) (fun _ => []) [])
      (f.content (raw k) (worked k) ++ v.parcels k)
      (o.elim (Schedule.content (raw k) (worked k)) (Schedule.left (raw k) (worked k)) [] ++
        v'.parcels k) := by
  have turned : Schedule.Turned (raw k) (worked k) (StageView.parcels k) f v v' o := by
    refine Schedule.movedTurned (fun _ _ => rfl) ?_ ?_ (Schedule.movesMoved move)
    · intro t u item more
      cases List.mem_singleton.mp more
    · intro t u more
      cases List.mem_singleton.mp more
      rfl
  refine Schedule.turnedTrade turned (fun g quiet => ?_) fun g group r heard => ?_
  · rw [told, quiet]
    rfl
  · rw [told, heard]
    cases r with
    | ok vs => exact Trade.verdicts k group vs
    | error e => exact .drop (.refl _)

variable {stage : Stage} {o : Next Stage (Except RunError Unit)}

def staying (k : Nat) (o : Next Stage (Except RunError Unit)) : List Parcel :=
  o.elim (parcels k) (fun _ => []) []

def heard (k : Nat) (stage : Stage) (o : Next Stage (Except RunError Unit)) : List Answer :=
  o.elim (stage.told k) (fun _ => []) []

def Traded (mutants : List CoveredMutant) (n k : Nat) (stage : Stage) (v v' : StageView)
    (o : Next Stage (Except RunError Unit)) : Prop :=
  Trade mutants n (heard k stage o) (stage.parcels k ++ v.parcels k)
    (staying k o ++ v'.parcels k)

theorem quietTrade (silent : heard k stage o = []) (same : v'.parcels k = v.parcels k)
    (fewer : (staying k o).Subperm (stage.parcels k)) : Traded mutants n k stage v v' o := by
  rw [Traded, silent, same]
  exact .drop ((List.subperm_append_right _).mpr fewer)

theorem siteTrade {φ ρ : Type} {m : Machine CheckSite φ ρ} {p : φ} {embed : φ → Stage}
    {after : ρ → StageView → StageView × Next Stage (Except RunError Unit)}
    (move : (v', o) ∈ (onSite m).within embed after p v)
    (silent : ∀ next, stage.told k next = [])
    (still : ∀ q, (embed q).parcels k = stage.parcels k)
    (then' : ∀ r u, (after r u).1 = u ∧ (staying k (after r u).2).Subperm (stage.parcels k)) :
    Traded mutants n k stage v v' o := by
  have quiet : heard k stage o = [] := by
    cases o with
    | go next => exact silent next
    | _ => rfl
  rcases Machine.withinCases move with ⟨q, inner, rfl⟩ | ⟨u, r, inner, same⟩ | ⟨inner, rfl⟩
  · exact quietTrade quiet (siteParcels inner) (still q ▸ .refl _)
  · obtain ⟨kept, fewer⟩ := then' r u
    rw [← same] at kept fewer
    cases kept
    exact quietTrade quiet (siteParcels inner) fewer
  · exact quietTrade quiet (siteParcels inner) List.nil_subperm

theorem routeTrade {m : CoveredMutant} {verdict : Verdict} {sent : Except RunError Unit}
    (some : k < n) (move : (v', sent) ∈ route v m verdict) :
    Trade mutants n [] (.judged k (.some verdict) m :: v.parcels k) (v'.parcels k) := by
  have lost (same : v'.parcels k = v.parcels k) :
      Trade mutants n [] (.judged k (.some verdict) m :: v.parcels k) (v'.parcels k) := by
    rw [same]
    exact .drop (List.sublist_cons_self _ _).subperm
  unfold route at move
  split at move
  · next passed =>
    obtain ⟨⟨channel, taken⟩, sending, same⟩ := List.mem_map.mp move
    cases same
    rcases Channel.sendCases sending with ⟨-, more⟩ | ⟨-, rfl⟩
    · refine ((pass (Verdict.isPassedIff.mp passed)).frame (v.parcels k)).perm (.refl _) (List.Perm.subperm ?_)
      simp only [StageView.parcels, more, List.map_append, List.map_cons, List.map_nil,
        List.append_assoc, List.singleton_append]
      rw [← List.append_assoc, ← List.append_assoc]
      exact List.perm_middle
    · exact lost rfl
  · next refusal =>
    obtain ⟨⟨channel, taken⟩, sending, same⟩ := List.mem_map.mp move
    cases same
    rcases Channel.sendCases sending with ⟨-, more⟩ | ⟨-, rfl⟩
    · refine ((refuse (mt Verdict.isPassedIff.mpr refusal) some).frame (v.parcels k)).perm
        (.refl _) (List.Perm.subperm ?_)
      simp only [StageView.parcels, more, List.map_append, List.map_cons, List.map_nil]
      rw [← List.append_assoc]
      exact List.perm_append_comm
    · exact lost rfl

theorem eraseTrade {m : CoveredMutant} {rest : Group} {vs : Verdicts} {verdict : Verdict}
    (found : vs.get? m.id = some verdict) :
    Trade mutants n [] (judged k (m :: rest) vs)
      (.judged k (some verdict) m :: judged k rest (vs.erase m.id)) where
  imprints := by
    simp only [judged, List.map_cons, List.map_map]
    exact .refl _
  sound := by
    intro log single sound x member
    rw [judged, List.map_map] at single
    have fresh : m.id ∉ rest.map fun other => other.id := (List.nodup_cons.mp single).1
    have same : judged k rest (vs.erase m.id) = judged k rest vs := by
      refine List.map_congr_left fun other inside => ?_
      have differs : other.id ≠ m.id := fun same => fresh (same ▸ List.mem_map_of_mem inside)
      rw [Keyed.getErase differs]
    rw [List.append_nil]
    refine sound x ?_
    rw [same, ← found] at member
    exact member
  silent := fun _ _ => ⟨rfl, rfl⟩

theorem memberTrade {m : CoveredMutant} {rest : Group} {vs : Verdicts} {verdict : Verdict}
    {f : GroupSchedule} {sent : Except RunError Unit} (some : k < n)
    (found : vs.get? m.id = .some verdict) (move : (v', sent) ∈ route v m verdict) :
    Trade mutants n [] (parcels k (.routing (m :: rest) vs f) ++ v.parcels k)
      (parcels k (.routing rest (vs.erase m.id) f) ++ v'.parcels k) := by
  have erased : Trade mutants n [] (judged k (m :: rest) vs ++ _) _ :=
    (eraseTrade found).frame (f.content (raw k) (worked k) ++ v.parcels k)
  have routed : Trade mutants n [] _ _ := (routeTrade some move).frame
    (judged k rest (vs.erase m.id) ++ f.content (raw k) (worked k))
  rw [← List.append_assoc] at erased
  refine (routed.perm ?_ List.perm_append_comm.subperm).after erased
  rw [List.cons_append, List.cons_append, ← List.append_assoc]
  exact List.perm_append_comm.cons _

theorem drainingTrade {batch : List CoveredMutant}
    (move : (v', o) ∈ moves plan (.draining batch) v) :
    Traded mutants n k (.draining batch) v v' o := by
  obtain ⟨⟨input, found⟩, received, same⟩ := List.mem_map.mp move
  rcases Channel.receiveCases received with ⟨m, rfl, items⟩ | ⟨rfl, rfl⟩
  · cases same
    refine Trade.drop (List.Perm.of_eq ?_).subperm
    simp [staying, Next.elim, parcels, StageView.parcels, items]
  · simp only at same
    split at same
    · cases same
      exact quietTrade rfl rfl List.nil_subperm
    · cases same
      exact quietTrade rfl rfl (.refl _)

theorem groupingTrade {batch : List CoveredMutant} {own : Option (List (List Mutant))}
    (move : (v', o) ∈ moves plan (.grouping batch own) v) :
    Traded mutants n k (.grouping batch own) v v' o := by
  simp only [moves] at move
  split at move
  · next gs made =>
    obtain ⟨rfl, rfl⟩ := memStep.mp move
    refine quietTrade rfl (notesParcels _ v) ?_
    have whole : staying k (.go (.checking (.ofList gs))) = gs.flatten.map (.cleared k) := by
      simp [staying, Next.elim, parcels, Schedule.content, Schedule.ofList, Feed.content,
        List.map_flatten, List.flatMap_def]
      rfl
    rw [whole]
    exact subpermMap (groupsOfSubperm made)
  · obtain ⟨rfl, rfl⟩ := memFinish.mp move
    exact quietTrade rfl (notesParcels _ v) List.nil_subperm

theorem inspectingTrade {f : GroupSchedule} (move : (v', o) ∈ moves plan (.checking f) v) :
    Traded mutants n k (.checking f) v v' o := by
  rcases Machine.withinCases move with ⟨g, inner, rfl⟩ | ⟨u, ⟨y, g⟩, inner, same⟩ | ⟨inner, rfl⟩
  · exact checkingTrade mutants n k inner
  · have checked := checkingTrade mutants n k inner
    have ended (same : v' = u) : Trade mutants n [] (parcels k (.checking f) ++ v.parcels k)
        (v'.parcels k) :=
      same ▸ checked.perm (.refl _) (List.sublist_append_right _ _).subperm
    cases y with
    | none => cases same; exact ended rfl
    | some y =>
      obtain ⟨group, result⟩ := y
      cases result with
      | error e => cases same; exact ended rfl
      | ok answer =>
        cases answer with
        | error e => cases same; exact ended rfl
        | ok vs => cases same; exact checked
  · exact checkingTrade mutants n k inner

theorem routingTrade {group : Group} {vs : Verdicts} {f : GroupSchedule} (some : k < n)
    (move : (v', o) ∈ moves plan (.routing group vs f) v) :
    Traded mutants n k (.routing group vs f) v v' o := by
  cases group with
  | nil =>
    obtain ⟨rfl, rfl⟩ := memStep.mp move
    exact quietTrade rfl rfl (.refl _)
  | cons m rest =>
    simp only [moves] at move
    split at move
    · obtain ⟨rfl, rfl⟩ := memFinish.mp move
      exact quietTrade rfl rfl List.nil_subperm
    · next verdict found =>
      obtain ⟨⟨u, sent⟩, routed, same⟩ := List.mem_map.mp move
      have whole : Trade mutants n [] (parcels k (.routing (m :: rest) vs f) ++ _) _ :=
        memberTrade some found routed
      cases sent with
      | ok r => cases same; exact whole
      | error e =>
        cases same
        exact whole.perm (.refl _) (List.sublist_append_right _ _).subperm

variable (mutants) in
theorem movesTrade (some : k < n) (move : (v', o) ∈ moves plan stage v) :
    Traded mutants n k stage v v' o := by
  cases stage with
  | draining batch => exact drainingTrade move
  | filling batch f =>
    refine siteTrade move (fun _ => rfl) (fun _ => rfl) fun r u => ?_
    cases r with
    | ok r => exact ⟨rfl, .refl _⟩
    | error e => exact ⟨rfl, List.nil_subperm⟩
  | activating batch b =>
    refine siteTrade move (fun _ => rfl) (fun _ => rfl) fun r u => ?_
    cases r with
    | ok r => exact ⟨rfl, .refl _⟩
    | error e => exact ⟨rfl, List.nil_subperm⟩
  | borrowing batch a =>
    refine siteTrade move (fun _ => rfl) (fun _ => rfl) fun r u => ?_
    cases r with
    | ok r => exact ⟨rfl, .refl _⟩
    | error e => exact ⟨rfl, List.nil_subperm⟩
  | asking batch ticket c =>
    exact siteTrade move (fun _ => rfl) (fun _ => rfl) fun r u => ⟨rfl, .refl _⟩
  | returning batch ticket answer r =>
    refine siteTrade move (fun _ => rfl) (fun _ => rfl) fun _ u => ?_
    cases answer with
    | ok own => exact ⟨rfl, .refl _⟩
    | error e => exact ⟨rfl, List.nil_subperm⟩
  | grouping batch own => exact groupingTrade move
  | checking f => exact inspectingTrade move
  | routing group vs f => exact routingTrade some move

end Stage

end MutationPipeline
