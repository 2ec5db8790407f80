import MutationPipeline.Proofs.Checker.Attendance
import MutationPipeline.Proofs.Pipeline.Shares
import MutationPipeline.Proofs.Pool.Solvency

/-! The stage of a checker loses no permit of its pool. Whether it goes on or ends, each permit and each
claim of it is still its own, or came back. -/
namespace MutationPipeline
variable {s s' : CheckSite} {issued : Nat} {old xs ys : List Stance}

def Site.Remains {W V : Type} (issued : Nat) (old xs : List Stance) (s : Site W V) : Prop :=
  ∃ ys, (ys.flatMap Stance.tickets).Subperm (old.flatMap Stance.tickets) ∧ s.Solvent issued (ys ++ xs)

theorem Site.Solvent.remains {W V : Type} {s : Site W V} (solvent : s.Solvent issued xs)
    (old : List Stance) : s.Remains issued old xs :=
  ⟨[], List.nil_subperm, solvent⟩

theorem Site.Solvent.remainsAll {W V : Type} {s : Site W V} (solvent : s.Solvent issued (old ++ xs)) :
    s.Remains issued old xs :=
  ⟨old, .refl _, solvent⟩

theorem Schedule.stancesDone {σ α φ ρ W V : Type} {plan : Plan W V σ α φ ρ} {f g : Schedule W α φ ρ}
    {t t' : σ} {y : Option (Yield α ρ)} (move : Moved plan f t t' (.done (y, g))) :
    (g.stances.flatMap Stance.tickets).Subperm (f.stances.flatMap Stance.tickets) := by
  have fewer {before rest : List (Flight φ α ρ)} {x : Flight φ α ρ}
      (flights : f.flights = before ++ x :: rest) :
      (({ f with flights := before ++ rest } : Schedule ..).stances.flatMap Stance.tickets).Subperm
        (f.stances.flatMap Stance.tickets) := by
    have front := (stancesFront f before rest x).flatMap_right Stance.tickets
    rw [← flights, List.flatMap_append] at front
    exact (List.sublist_append_right _ _).subperm.trans front.symm.subperm
  cases move with
  | ended dry empty => exact .refl _
  | reject flights => exact fewer flights
  | land flights move => exact fewer flights

namespace Stage
variable {stage : Stage} {plan : StagePlan} {v v' : StageView}
  {n : Next Stage (Except RunError Unit)}

def Keeps (issued : Nat) (old xs : List Stance) (n : Next Stage (Except RunError Unit))
    (s : CheckSite) : Prop :=
  n.elim (fun next => s.Solvent issued (next.stances ++ xs)) (fun _ => s.Remains issued old xs)
    (s.Remains issued old xs)

theorem onSiteKeeps {φ ρ : Type} {m : Machine CheckSite φ ρ} {p : φ} {embed : φ → Stage}
    {after : ρ → StageView → StageView × Next Stage (Except RunError Unit)} (of : φ → List Stance)
    (last : ρ → CheckSite → Prop) (move : (v', n) ∈ (onSite m).within embed after p v)
    (inner : ∀ u o, (u, o) ∈ m p v.site →
      o.elim (fun q => u.Solvent issued (of q ++ xs)) (fun r => last r u) (u.Remains issued old xs))
    (same : ∀ q, (embed q).stances = of q)
    (still : ∀ r u, (after r u).1 = u ∧ ∀ s, last r s → Keeps issued old xs (after r u).2 s) :
    Keeps issued old xs n v'.site := by
  rcases Machine.withinCases move with ⟨q, moved, rfl⟩ | ⟨u, r, moved, result⟩ | ⟨moved, rfl⟩
  · obtain ⟨w, here, rfl⟩ := Machine.onCases moved
    rw [Keeps, Next.elim, same]
    exact inner w _ here
  · obtain ⟨w, here, rfl⟩ := Machine.onCases moved
    obtain ⟨site, keeps⟩ := still r (StageView.onSite.set w v)
    rw [← result] at site keeps
    obtain rfl : v' = _ := site
    exact keeps _ (inner w _ here)
  · obtain ⟨w, here, rfl⟩ := Machine.onCases moved
    exact inner w _ here

theorem notesSeats (notes : List Note) (s : CheckSite) :
    (notes.foldl Site.note s).crew.seats = s.crew.seats := by
  induction notes generalizing s with
  | nil => rfl
  | cons first rest ih => exact ih (s.note first)

theorem fillingKeeps {batch : List CoveredMutant} {f : Filling CheckWork}
    (solvent : v.site.Solvent issued (f.stances ++ xs))
    (move : (v', n) ∈ moves plan (.filling batch f) v) : Keeps issued f.stances xs n v'.site := by
  refine onSiteKeeps Filling.stances (fun _ s => s.Solvent issued xs) move (fun u o inner => ?_)
    (fun _ => rfl) fun r u => ?_
  · obtain ⟨ys, none, after, same⟩ := Filling.movesSolvent solvent inner
    cases o with
    | go g =>
      obtain rfl := same g rfl
      exact after
    | done r => exact after.drop none
    | panicked => exact (after.drop none).remains _
  · cases r with
    | ok r => exact ⟨rfl, fun s after => after⟩
    | error e => exact ⟨rfl, fun s after => after.remains _⟩

theorem activatingKeeps {batch : List CoveredMutant} {b : Broadcast Activation}
    (solvent : v.site.Solvent issued xs) (move : (v', n) ∈ moves plan (.activating batch b) v) :
    Keeps issued [] xs n v'.site := by
  refine onSiteKeeps (fun _ => []) (fun _ s => s.Solvent issued xs) move (fun u o inner => ?_)
    (fun _ => rfl) fun r u => ?_
  · have told : (u, o) ∈ Broadcast.tell plan.staffing plan.checker b v.site := inner
    obtain ⟨pool, size⟩ := Broadcast.tellQuiet told
    have after := solvent.more pool (Nat.le_of_eq size.symm)
    cases o with
    | go g => exact after
    | done r => exact after
    | panicked => exact after.remains _
  · cases r with
    | ok r => exact ⟨rfl, fun s after => after⟩
    | error e => exact ⟨rfl, fun s after => after.remains _⟩

theorem borrowingKeeps {batch : List CoveredMutant} {a : Acquisition CheckWork}
    (solvent : v.site.Solvent issued (a.stances ++ xs))
    (move : (v', n) ∈ moves plan (.borrowing batch a) v) : Keeps issued a.stances xs n v'.site := by
  refine onSiteKeeps Acquisition.stances (fun r s => s.Solvent issued (Acquisition.got r ++ xs)) move
    (fun u o inner => ?_) (fun _ => rfl) fun r u => ?_
  · have after := Acquisition.movesSolvent solvent inner
    cases o with
    | panicked => exact after.remainsAll
    | _ => exact after
  · cases r with
    | ok lent => exact ⟨rfl, fun s after => (solventBooks issued).leaves after⟩
    | error e => exact ⟨rfl, fun s after => after.remains _⟩

theorem askingKeeps {batch : List CoveredMutant} {ticket : Nat} {c : Calling CheckWork}
    (solvent : v.site.Solvent issued (.leaving ticket :: xs))
    (move : (v', n) ∈ moves plan (.asking batch ticket c) v) :
    Keeps issued [.leaving ticket] xs n v'.site := by
  refine onSiteKeeps (fun _ => [.leaving ticket]) (fun _ s => s.Solvent issued (.leaving ticket :: xs))
    move (fun u o inner => ?_) (fun _ => rfl) fun r u => ⟨rfl, fun s after => after⟩
  obtain ⟨w, moved, rfl⟩ := Machine.onCases inner
  have after : Site.Solvent issued { v.site with crew := w } (.leaving ticket :: xs) :=
    solvent.more rfl (Nat.le_of_eq (congrArg Array.size (Calling.movesSeats moved).symm))
  cases o with
  | panicked => exact ⟨[.leaving ticket], .refl _, after⟩
  | _ => exact after

theorem returningKeeps {batch : List CoveredMutant} {ticket : Nat}
    {answer : Except WorkerError (Option (List (List Mutant)))} {r : Release}
    (solvent : v.site.Solvent issued (r.stance ticket :: xs))
    (move : (v', n) ∈ moves plan (.returning batch ticket answer r) v) :
    Keeps issued [r.stance ticket] xs n v'.site := by
  refine onSiteKeeps (fun r => [r.stance ticket]) (fun _ s => s.Solvent issued xs) move
    (fun u o inner => ?_) (fun _ => rfl) fun _ u => ?_
  · have after := Release.movesSolvent solvent inner
    cases o with
    | panicked => exact after.remains _
    | _ => exact after
  · cases answer with
    | ok own => exact ⟨rfl, fun s after => after⟩
    | error e => exact ⟨rfl, fun s after => after.remains _⟩

theorem checkingKeeps {f : GroupSchedule} (solvent : v.site.Solvent issued (f.stances ++ xs))
    (move : (v', n) ∈ moves plan (.checking f) v) : Keeps issued f.stances xs n v'.site := by
  have after {u o} (inner : (u, o) ∈ Schedule.moves (schedulePlan plan) f v) :=
    Schedule.movedBooks (solventBooks issued) siteLawful (schedulePlanProper plan) (fun _ _ => trivial)
      solvent (Schedule.movesMoved inner)
  rcases Machine.withinCases move with ⟨q, inner, rfl⟩ | ⟨u, ⟨y, g⟩, inner, same⟩ | ⟨inner, rfl⟩
  · exact after inner
  · have ended : u.site.Remains issued f.stances xs :=
      ⟨g.stances, Schedule.stancesDone (Schedule.movesMoved inner), after inner⟩
    cases y with
    | none => cases same; exact ended
    | some y =>
      obtain ⟨group, result⟩ := y
      cases result with
      | error e => cases same; exact ended
      | ok answer =>
        cases answer with
        | error e => cases same; exact ended
        | ok verdicts => cases same; exact after inner
  · exact (after inner).remainsAll

theorem movesKeeps (solvent : v.site.Solvent issued (stage.stances ++ xs))
    (move : (v', n) ∈ moves plan stage v) : Keeps issued stage.stances xs n v'.site := by
  cases stage with
  | draining batch =>
    obtain ⟨⟨input, found⟩, -, same⟩ := List.mem_map.mp move
    cases found with
    | some m => cases same; exact solvent
    | none =>
      simp only at same
      split at same
      · cases same
        have noted : (v.site.note (emptyNote plan.checker)).Solvent issued xs :=
          solvent.more rfl (Nat.le_refl _)
        exact noted.remains _
      · cases same
        exact solvent
  | filling batch f => exact fillingKeeps solvent move
  | activating batch b => exact activatingKeeps solvent move
  | borrowing batch a => exact borrowingKeeps solvent move
  | asking batch ticket c => exact askingKeeps solvent move
  | returning batch ticket answer r => exact returningKeeps solvent move
  | grouping batch own =>
    have noted : ((groupsOf plan batch own).2.foldl StageView.note v).site.Solvent issued xs := by
      rw [notesSite]
      exact solvent.more (notesPool _ _) (Nat.le_of_eq (congrArg Array.size (notesSeats _ _).symm))
    simp only [moves] at move
    split at move
    · obtain ⟨rfl, rfl⟩ := memStep.mp move
      exact noted.more rfl (Nat.le_refl _)
    · obtain ⟨rfl, rfl⟩ := memFinish.mp move
      exact noted.remains _
  | checking f => exact checkingKeeps solvent move
  | routing group verdicts f =>
    cases group with
    | nil =>
      obtain ⟨rfl, rfl⟩ := memStep.mp move
      exact solvent
    | cons m rest =>
      simp only [moves] at move
      split at move
      · obtain ⟨rfl, rfl⟩ := memFinish.mp move
        exact solvent.remainsAll
      · obtain ⟨⟨u, sent⟩, routed, same⟩ := List.mem_map.mp move
        have site : u.site = v.site := routeSite routed
        cases sent <;> cases same <;> rw [site]
        · exact solvent.remainsAll
        · exact solvent

end Stage

end MutationPipeline

/-! The permits of both pools of a run. Each is free, or set aside for a claim, or some task has it or the
run itself that disposes the pool; a task that goes away gives back all that it has. -/
namespace MutationPipeline
variable {W V : Type} {place issued : Nat} {f f' : Floor} {xs ys : List Stance}

namespace Role
variable {role : Role} {n : Next Role (Except RunError Unit)}

def CheckStands : Role → List Stance → Prop
  | .checking _ stage, ys => ys = stage.stances
  | .releasing _ (.disposing d), ys => d.Stands ys
  | _, ys => ys = []

def RunStands (role : Role) (ys : List Stance) : Prop := ys = role.runStances

def Keeps (of : Role → List Stance → Prop) (issued : Nat) (old xs : List Stance)
    (n : Next Role (Except RunError Unit)) (s : Site W V) : Prop :=
  n.elim (fun next => ∃ zs, of next zs ∧ s.Solvent issued (zs ++ xs))
    (fun _ => s.Remains issued old xs) (s.Remains issued old xs)

structure Deals (of : Role → List Stance → Prop) (site : Part Floor (Site W V))
    (tickets tokens : Role → List Nat) : Prop where
  has : ∀ {role ys}, of role ys → ys.flatMap Stance.tickets = tickets role
  moves : ∀ {role place f f' n issued xs ys}, of role ys →
    (site.get f).Solvent issued (ys ++ xs) → (f', n) ∈ Role.moves place role f →
      Keeps of issued ys xs n (site.get f')
  vacates : ∀ role f, site.get (Role.vacate role f) =
    (site.get f).vacate (tickets role) (tokens role)
  closes : ∀ place role f, site.get (Role.close place role f) = site.get f

theorem handoverKeeps {share : Nat} {h : Handover} {n : Next Handover (Except RunError Unit)}
    (stands : (Role.releasing share h).CheckStands ys)
    (solvent : f.checkers.Solvent issued (ys ++ xs)) (move : (f', n) ∈ handover share place h f) :
    n.elim (fun later => ∃ zs, (Role.releasing share later).CheckStands zs ∧
        f'.checkers.Solvent issued (zs ++ xs))
      (fun _ => f'.checkers.Remains issued ys xs) (f'.checkers.Remains issued ys xs) := by
  cases h with
  | forwarding held =>
    cases stands
    cases held with
    | none =>
      obtain ⟨⟨g, found⟩, received, same⟩ := List.mem_map.mp move
      have kept : g.checkers = f.checkers := receiveCheckers received
      cases found <;> cases same <;> exact ⟨[], rfl, kept ▸ solvent⟩
    | some m =>
      obtain ⟨⟨g, sent⟩, sending, same⟩ := List.mem_map.mp move
      have kept : g.checkers = f.checkers := sendCheckers (fun _ _ => rfl) sending
      cases sent <;> cases same
      · exact (kept ▸ solvent : f'.checkers.Solvent issued xs).remains _
      · exact ⟨[], rfl, kept ▸ solvent⟩
  | disposing d =>
    have keeps {s o} (moved : (s, o) ∈ Disposal.moves d f.checkers) :=
      Disposal.movesSolvent stands solvent moved
    rcases Machine.withinCases move with ⟨later, inner, rfl⟩ | ⟨u, r, inner, same⟩ | ⟨inner, rfl⟩
    · obtain ⟨s, moved, rfl⟩ := Machine.onCases inner
      exact keeps moved
    · obtain ⟨s, moved, rfl⟩ := Machine.onCases inner
      have left : s.Solvent issued xs := (keeps moved).2
      cases r with
      | ok r => cases same; exact ⟨[], rfl, left⟩
      | error e => cases same; exact left.remains _
    · obtain ⟨s, moved, rfl⟩ := Machine.onCases inner
      exact (keeps moved).2.remains _
  | growing =>
    cases stands
    obtain ⟨rfl, rfl⟩ := memFinish.mp move
    exact (show Site.Solvent _ f.checkers xs from solvent).remains _

theorem apartStands {role : Role} (apart : role.Apart) : role.CheckStands ys ↔ ys = [] := by
  cases role with
  | checking plan stage => exact apart.elim
  | releasing share h => exact apart.elim
  | _ => exact Iff.rfl

theorem movesChecksKeep (stands : role.CheckStands ys)
    (solvent : f.checkers.Solvent issued (ys ++ xs)) (move : (f', n) ∈ role.moves place f) :
    Keeps CheckStands issued ys xs n f'.checkers := by
  have apart (apart : role.Apart) : Keeps CheckStands issued ys xs n f'.checkers := by
    obtain ⟨kept, stays⟩ := movesApart apart move
    obtain rfl := (apartStands apart).mp stands
    have after : f'.checkers.Solvent issued xs := kept ▸ solvent
    cases n with
    | go next => exact ⟨[], (apartStands (stays next rfl)).mpr rfl, after⟩
    | done r => exact after.remains _
    | panicked => exact after.remains _
  cases role with
  | checking plan stage =>
    cases stands
    rcases Machine.withinCases move with ⟨q, moved, rfl⟩ | ⟨u, r, moved, same⟩ | ⟨moved, rfl⟩
    · obtain ⟨v, own, rfl⟩ := Machine.onCases moved
      exact ⟨_, rfl, Stage.movesKeeps solvent own⟩
    · obtain ⟨v, own, rfl⟩ := Machine.onCases moved
      cases same
      exact Stage.movesKeeps solvent own
    · obtain ⟨v, own, rfl⟩ := Machine.onCases moved
      exact Stage.movesKeeps solvent own
  | releasing share h =>
    rcases Machine.withinCases move with ⟨q, moved, rfl⟩ | ⟨u, r, moved, same⟩ | ⟨moved, rfl⟩
    · exact handoverKeeps stands solvent moved
    · cases same
      exact handoverKeeps stands solvent moved
    · exact handoverKeeps stands solvent moved
  | ignoring rest => exact apart trivial
  | covering held => exact apart trivial
  | testing planOf t => exact apart trivial

theorem runTestsKeep {planOf : CoveredMutant → RunPlan} {t : Testing}
    {n : Next Testing (Except RunError Unit)}
    (solvent : f.runners.Solvent issued ((Role.testing planOf t).runStances ++ xs))
    (move : (f', n) ∈ runTests planOf place t f) :
    n.elim (fun later => f'.runners.Solvent issued ((Role.testing planOf later).runStances ++ xs))
      (fun _ => f'.runners.Remains issued (Role.testing planOf t).runStances xs)
      (f'.runners.Remains issued (Role.testing planOf t).runStances xs) := by
  cases t with
  | running g =>
    have after {u o} (inner : (u, o) ∈ Schedule.moves (testPlan planOf place) g f) :=
      Schedule.movedBooks (solventBooks issued) runnersLawful (testPlanProper planOf place)
        (fun _ _ => trivial) solvent (Schedule.movesMoved inner)
    rcases Machine.withinCases move with ⟨q, inner, rfl⟩ | ⟨u, ⟨y, k⟩, inner, same⟩ | ⟨inner, rfl⟩
    · exact after inner
    · have ended : u.runners.Remains issued g.stances xs :=
        ⟨k.stances, Schedule.stancesDone (Schedule.movesMoved inner), after inner⟩
      cases y with
      | none => cases same; exact ended
      | some y =>
        obtain ⟨m, result⟩ := y
        cases result with
        | error e => cases same; exact ended
        | ok answer =>
          cases answer with
          | error e => cases same; exact ended
          | ok run => cases same; exact after inner
    · exact (after inner).remainsAll
  | reporting x g =>
    obtain ⟨⟨u, sent⟩, sending, same⟩ := List.mem_map.mp move
    have kept : u.runners = f.runners := sendRunners (fun _ _ => rfl) sending
    have after : u.runners.Solvent issued (g.stances ++ xs) := kept ▸ solvent
    cases sent <;> cases same
    · exact after.remainsAll
    · exact after

theorem asideStances {role : Role} (aside : ¬role.Tests) : role.runStances = [] := by
  cases role with
  | testing planOf t => exact absurd trivial aside
  | _ => rfl

theorem movesRunsKeep (stands : role.RunStands ys) (solvent : f.runners.Solvent issued (ys ++ xs))
    (move : (f', n) ∈ role.moves place f) : Keeps RunStands issued ys xs n f'.runners := by
  cases stands
  by_cases tests : role.Tests
  · cases role with
    | testing planOf t =>
      rcases Machine.withinCases move with ⟨q, moved, rfl⟩ | ⟨u, r, moved, same⟩ | ⟨moved, rfl⟩
      · exact ⟨_, rfl, runTestsKeep solvent moved⟩
      · cases same
        exact runTestsKeep solvent moved
      · exact runTestsKeep solvent moved
    | _ => exact tests.elim
  · rw [asideStances tests] at solvent ⊢
    have after : f'.runners.Solvent issued xs := by
      rcases movesRunners tests move with kept | ⟨share, -, -, kept⟩ <;> rw [kept]
      · exact solvent
      · exact Site.Solvent.grow solvent share
    cases n with
    | go next => exact ⟨[], (asideStances (movesAside tests move)).symm, after⟩
    | done r => exact after.remains _
    | panicked => exact after.remains _

theorem checksDealt : Deals CheckStands Floor.onCheckers checkTickets checkTokens where
  has := by
    intro role ys stands
    cases role with
    | checking plan stage =>
      cases stands
      cases filling : stage.isFilling with
      | false => exact Stage.ticketsStances filling
      | true =>
        cases stage with
        | filling batch f => exact f.ticketsNone
        | _ => cases filling
    | releasing share h =>
      cases h with
      | disposing d => exact stands.tickets
      | _ => cases stands; rfl
    | _ => cases stands; rfl
  moves := movesChecksKeep
  vacates := by
    intro role f
    cases role with
    | releasing share h => cases h <;> rfl
    | testing planOf t => cases t <;> rfl
    | _ => rfl
  closes := closeCheckers

theorem runsDealt : Deals RunStands Floor.onRunners runTickets runTokens where
  has := by
    intro role ys stands
    cases stands
    cases role with
    | testing planOf t => cases t <;> exact (Schedule.ticketsStances _).symm
    | _ => rfl
  moves := movesRunsKeep
  vacates := by
    intro role f
    cases role with
    | releasing share h => cases h <;> rfl
    | testing planOf t => cases t <;> rfl
    | _ => rfl
  closes := closeRunners

end Role

namespace Task
variable {t u : Task} {of : Role → List Stance → Prop} {site : Part Floor (Site W V)}
  {tickets tokens : Role → List Nat}

def Stands (of : Role → List Stance → Prop) : Task → List Stance → Prop
  | .working role, ys => of role ys
  | .leaving role _, ys =>
    ∃ zs, of role zs ∧ (ys.flatMap Stance.tickets).Perm (zs.flatMap Stance.tickets)
  | _, ys => ys = []

theorem movesStands (deals : Role.Deals of site tickets tokens) (stands : t.Stands of ys)
    (solvent : (site.get f).Solvent 0 (ys ++ xs)) (move : (f', u) ∈ t.moves place f) :
    ∃ zs, u.Stands of zs ∧ (site.get f').Solvent 0 (zs ++ xs) := by
  cases t with
  | working role =>
    obtain ⟨⟨g, n⟩, inner, same⟩ := List.mem_map.mp move
    have current : (site.get f).Solvent (site.get f).pool.tickets (ys ++ xs) :=
      { solvent with issued := Nat.le_refl _ }
    have keeps := deals.moves stands current inner
    have leaves (ended : (site.get g).Remains (site.get f).pool.tickets ys xs) (outcome) :
        ∃ zs, (leaving role outcome).Stands of zs ∧ (site.get g).Solvent 0 (zs ++ xs) := by
      obtain ⟨left, fewer, after⟩ := ended
      obtain ⟨zs, same, all⟩ := Site.Solvent.leaving solvent.orderly after fewer
      exact ⟨zs, ⟨ys, stands, same⟩, { all with issued := Nat.zero_le _ }⟩
    cases n with
    | go next =>
      cases same
      obtain ⟨zs, goes, after⟩ := keeps
      exact ⟨zs, goes, { after with issued := Nat.zero_le _ }⟩
    | done r => cases same; exact leaves keeps _
    | panicked => cases same; exact leaves keeps _
  | leaving role outcome =>
    cases List.mem_singleton.mp move
    obtain ⟨zs, had, same⟩ := stands
    rw [deals.has had] at same
    refine ⟨[], rfl, ?_⟩
    rw [deals.vacates]
    exact solvent.vacate same _
  | closing role outcome =>
    cases List.mem_singleton.mp move
    cases stands
    refine ⟨[], rfl, ?_⟩
    rw [deals.closes]
    exact solvent
  | closed outcome =>
    cases List.mem_singleton.mp move
    cases stands
    exact ⟨[], rfl, solvent⟩
  | _ => cases move

end Task

namespace Conduct

def CheckStands : Conduct → List Stance → Prop
  | .disposingCheckers d _, ys => d.Stands ys
  | _, ys => ys = []

def RunStands : Conduct → List Stance → Prop
  | .disposingRunners d _, ys => d.Stands ys
  | _, ys => ys = []

theorem earlyStands {c : Conduct} (early : c.Early) :
    (c.CheckStands ys ↔ ys = []) ∧ (c.RunStands ys ↔ ys = []) := by
  cases c with
  | collecting => exact ⟨Iff.rfl, Iff.rfl⟩
  | searching cause => exact ⟨Iff.rfl, Iff.rfl⟩
  | aborting cause => exact ⟨Iff.rfl, Iff.rfl⟩
  | _ => exact early.elim

end Conduct

namespace Run
variable {r next : Run} {t u : Task} {o : Orders} {mutants : List CoveredMutant}

def Accounts (of : Role → List Stance → Prop) (own : Conduct → List Stance → Prop) (r : Run)
    (s : Site W V) : Prop :=
  ∃ (parts : List (Task × List Stance)) (ys : List Stance), parts.map Prod.fst = r.tasks ∧
    (∀ x ∈ parts, x.1.Stands of x.2) ∧ own r.conduct ys ∧ s.Solvent 0 (parts.flatMap Prod.snd ++ ys)

section Accounts
variable {of : Role → List Stance → Prop} {own : Conduct → List Stance → Prop} {s s' : Site W V}

theorem Accounts.same (accounts : Accounts of own r s) (tasks : next.tasks = r.tasks)
    (conduct : ∀ ys, own r.conduct ys → own next.conduct ys) (pool : s'.pool = s.pool)
    (seats : s.crew.seats.size ≤ s'.crew.seats.size) : Accounts of own next s' := by
  obtain ⟨parts, ys, all, stand, rest, solvent⟩ := accounts
  exact ⟨parts, ys, all.trans tasks.symm, stand, conduct ys rest, solvent.more pool seats⟩

theorem Accounts.step (accounts : Accounts of own r s) (found : r.tasks[place]? = some t)
    (tasks : next.tasks = r.tasks.set place u) (conduct : ∀ ys, own r.conduct ys → own next.conduct ys)
    (goes : ∀ xs ys, t.Stands of ys → s.Solvent 0 (ys ++ xs) →
      ∃ zs, u.Stands of zs ∧ s'.Solvent 0 (zs ++ xs)) : Accounts of own next s' := by
  obtain ⟨parts, rest, all, stand, last, solvent⟩ := accounts
  rw [← all, List.getElem?_map] at found
  obtain ⟨⟨t', ys⟩, here, rfl⟩ := Option.map_eq_some_iff.mp found
  obtain ⟨others, before, after⟩ := flatMapSplit Prod.snd here
  have front := solvent.perm ((before.append_right rest).trans (.of_eq (List.append_assoc ..)))
  obtain ⟨zs, stays, left⟩ := goes _ _ (stand _ (List.mem_of_getElem? here)) front
  refine ⟨parts.set place (u, zs), rest, ?_, fun x member => ?_, conduct rest last, ?_⟩
  · rw [List.map_set, all, tasks]
  · rcases List.mem_or_eq_of_mem_set member with old | rfl
    · exact stand x old
    · exact stays
  · refine left.perm (.trans (.of_eq (List.append_assoc ..).symm) ?_)
    exact (after (u, zs)).symm.append_right rest

theorem Accounts.dispose {d : Disposal W} {n : Next (Disposal W) (Except WorkerError Unit)}
    (accounts : Accounts of own r s) (tasks : next.tasks = r.tasks)
    (before : ∀ ys, own r.conduct ys → d.Stands ys)
    (after : ∀ ys, n.elim (fun e => e.Stands ys) (fun _ => ys = []) False → own next.conduct ys)
    (whole : n ≠ .panicked) (move : (s', n) ∈ Disposal.moves d s) : Accounts of own next s' := by
  obtain ⟨parts, ys, all, stand, rest, solvent⟩ := accounts
  have front := solvent.perm List.perm_append_comm
  have moved := Disposal.movesSolvent (before ys rest) front move
  cases n with
  | go e =>
    obtain ⟨zs, stays, left⟩ := moved
    exact ⟨parts, zs, all.trans tasks.symm, stand, after zs stays, left.perm List.perm_append_comm⟩
  | done result =>
    refine ⟨parts, [], all.trans tasks.symm, stand, after [] rfl, ?_⟩
    rw [List.append_nil]
    exact moved.2
  | panicked => exact absurd rfl whole

end Accounts

structure Solvent (o : Orders) (r : Run) : Prop where
  checkers : o.hasCheckers = true →
    Accounts Role.CheckStands Conduct.CheckStands r r.floor.checkers
  runners : Accounts Role.RunStands Conduct.RunStands r r.floor.runners

theorem freshSolvent {s : Site W V} {capacity : Nat} (room : 0 < capacity)
    (fresh : s.pool = .ofCapacity capacity) : s.Solvent 0 [] where
  orderly := by
    rw [Site.Orderly, fresh]
    exact .fresh _ _
  backed := by
    rw [fresh]
    refine ⟨⟨fun c member => (by cases member), fun some => absurd rfl some,
      fun c member => (by cases member), fun c member => by cases member⟩, fun _ => ⟨.refl _, ?_,
        fun c member => by cases member⟩⟩
    rfl
  room := by
    rw [fresh]
    exact room
  issued := Nat.zero_le _

theorem startSolvent (checkers : o.hasCheckers = true → 0 < o.budget.checkers)
    (runners : 0 < o.budget.testRunners) (mutants : List CoveredMutant) :
    Solvent o (start o mutants) := by
  have quiet {of : Role → List Stance → Prop} {own : Conduct → List Stance → Prop} {W V : Type}
      {s : Site W V} {capacity : Nat} (room : 0 < capacity) (fresh : s.pool = .ofCapacity capacity)
      (roles : ∀ role, Orders.Fresh role → of role []) (idle : own .collecting []) :
      Accounts of own (start o mutants) s := by
    refine ⟨(start o mutants).tasks.map fun t => (t, []), [], ?_, fun x member => ?_, idle, ?_⟩
    · rw [List.map_map]
      exact List.map_id _
    · obtain ⟨t, among, rfl⟩ := List.mem_map.mp member
      obtain ⟨role, here, rfl⟩ := List.mem_map.mp among
      obtain ⟨p, found⟩ := List.mem_iff_getElem?.mp here
      exact roles role (o.rolesAt found).2
    · have none : ((start o mutants).tasks.map fun t => ((t, []) : Task × List Stance)).flatMap
          Prod.snd = [] := List.flatMap_eq_nil_iff.mpr fun x member => by
        obtain ⟨t, -, rfl⟩ := List.mem_map.mp member
        rfl
      rw [none]
      exact freshSolvent room fresh
  refine ⟨fun has => quiet (checkers has) rfl (fun role fresh => ?_) rfl,
    quiet runners rfl (fun role fresh => ?_) rfl⟩
  · cases role with
    | checking plan stage =>
      obtain rfl : stage = .draining [] := fresh
      rfl
    | releasing share h =>
      obtain rfl : h = .forwarding none := fresh
      rfl
    | _ => rfl
  · cases role with
    | testing planOf t =>
      obtain rfl : t = .running { feed := .open [] } := fresh
      rfl
    | _ => rfl

theorem Solvent.same (solvent : Solvent o r) (tasks : next.tasks = r.tasks)
    (checks : ∀ ys, r.conduct.CheckStands ys → next.conduct.CheckStands ys)
    (runs : ∀ ys, r.conduct.RunStands ys → next.conduct.RunStands ys)
    (checkers : next.floor.checkers = r.floor.checkers)
    (runners : next.floor.runners = r.floor.runners) : Solvent o next where
  checkers := fun has =>
    (solvent.checkers has).same tasks checks (by rw [checkers]) (Nat.le_of_eq (by rw [checkers]))
  runners := solvent.runners.same tasks runs (by rw [runners]) (Nat.le_of_eq (by rw [runners]))

theorem Solvent.step (solvent : Solvent o r) (found : r.tasks[place]? = some t)
    (tasks : next.tasks = r.tasks.set place u) (early : r.conduct.Early ∧ next.conduct.Early)
    (goes : ∀ {W V : Type} {of site tickets tokens},
      Role.Deals (W := W) (V := V) of site tickets tokens → ∀ xs ys, t.Stands of ys →
        (site.get r.floor).Solvent 0 (ys ++ xs) →
          ∃ zs, u.Stands of zs ∧ (site.get next.floor).Solvent 0 (zs ++ xs)) : Solvent o next where
  checkers := fun has => (solvent.checkers has).step found tasks
    (fun _ => (Conduct.earlyStands early.2).1.mpr ∘ (Conduct.earlyStands early.1).1.mp)
    (goes Role.checksDealt)
  runners := solvent.runners.step found tasks
    (fun _ => (Conduct.earlyStands early.2).2.mpr ∘ (Conduct.earlyStands early.1).2.mp)
    (goes Role.runsDealt)

theorem Solvent.own (solvent : Solvent o r) (move : next ∈ r.ownMoves) : Solvent o next := by
  cases ownActed move with
  | received collecting taken =>
    obtain ⟨⟨c, found⟩, -, same⟩ := List.mem_map.mp taken
    cases same
    exact solvent.same rfl (fun _ => id) (fun _ => id) rfl rfl
  | joined early found =>
    exact solvent.step found rfl ⟨early, Conduct.joinedEarly early _⟩
      fun _ xs ys stands solvent => ⟨ys, stands, solvent⟩
  | aborted searching none =>
    refine solvent.same rfl ?_ ?_ rfl rfl <;> rw [searching] <;> exact fun _ => id
  | cut aborting found cut =>
    obtain ⟨role, rfl, rfl, rfl⟩ := Task.cutLeaves cut
    have early : r.conduct.Early := by rw [aborting]; trivial
    exact solvent.step found rfl ⟨early, early⟩
      fun _ xs ys stands solvent => ⟨ys, ⟨ys, stands, .refl _⟩, solvent⟩
  | concluded ended all =>
    obtain early := ended.early
    refine solvent.same rfl (fun ys stands => ?_) (fun ys stands => ?_) rfl rfl
    · rw [(Conduct.earlyStands early).1.mp stands, conclude]
      dsimp only
      split <;> rfl
    · rw [(Conduct.earlyStands early).2.mp stands, conclude]
      dsimp only
      split <;> rfl
  | onCheckers disposing moved =>
    refine ⟨fun has => (solvent.checkers has).dispose rfl ?_ (fun _ => id)
      (fun same => by cases same) moved, solvent.runners.same rfl ?_ rfl (Nat.le_refl _)⟩
    all_goals rw [disposing]; exact fun _ => id
  | checkersDone disposing moved =>
    obtain ⟨site, other, -⟩ := Floor.disposedSites checkerNote _ { r.floor with checkers := _ }
    refine ⟨fun has => ?_, solvent.runners.same rfl ?_ (by rw [other]) (Nat.le_of_eq (by rw [other]))⟩
    · rw [site]
      refine (solvent.checkers has).dispose rfl ?_ (fun _ => id) (fun same => by cases same) moved
      rw [disposing]
      exact fun _ => id
    · rw [disposing]
      exact fun _ => id
  | onRunners disposing moved =>
    refine ⟨fun has => (solvent.checkers has).same rfl ?_ rfl (Nat.le_refl _),
      solvent.runners.dispose rfl ?_ (fun _ => id) (fun same => by cases same) moved⟩
    all_goals rw [disposing]; exact fun _ => id
  | runnersDone disposing moved =>
    obtain ⟨other, site, -⟩ := Floor.disposedSites runnerNote _ { r.floor with runners := _ }
    refine ⟨fun has => (solvent.checkers has).same rfl ?_ (by rw [other]) (Nat.le_of_eq (by rw [other])), ?_⟩
    · rw [disposing]
      exact fun _ => id
    · rw [site]
      refine solvent.runners.dispose rfl ?_ (fun _ => id) (fun same => by cases same) moved
      rw [disposing]
      exact fun _ => id
  | reported reporting =>
    refine solvent.same rfl ?_ ?_ rfl rfl <;> rw [reporting] <;> exact fun _ => id

theorem Solvent.task (solvent : Solvent o r) (early : ∀ t u f, r.tasks[place]? = some t →
      (f, u) ∈ t.moves place r.floor → r.conduct.Early) (move : next ∈ r.taskMoves place) :
    Solvent o next := by
  obtain ⟨t, u, f, found, moved, rfl⟩ := taskActed move
  have now := early t u f found moved
  exact solvent.step found rfl ⟨now, now⟩
    fun deals xs ys stands solvent => Task.movesStands deals stands solvent moved

end Run

end MutationPipeline
