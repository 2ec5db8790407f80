import MutationPipeline.Proofs.Checker.Load
import MutationPipeline.Proofs.Pipeline.Custody

/-! Each call in flight in a run is waited for by one of its tasks, or by the run itself when it
disposes the pools; and each call that one of them waits for is in flight, or was answered. -/
namespace MutationPipeline
variable {place : Nat} {f f' : Floor}

namespace Role
variable {role : Role} {n : Next Role (Except RunError Unit)}

def checkTokens : Role → List Nat
  | .checking _ stage => stage.tokens
  | .releasing _ (.disposing d) => d.tokens
  | _ => []

def runTokens : Role → List Nat
  | .testing _ (.running g) | .testing _ (.reporting _ g) => g.tokens Running.tokens
  | _ => []

def Tests : Role → Prop
  | .testing .. => True
  | _ => False

theorem sendRunners {α : Type} {channel : Part Floor (Channel α)} {name : String} {x : α}
    {sent : Except RunError Unit} (aside : ∀ c f, (channel.set c f).runners = f.runners)
    (move : (f', sent) ∈ f.send channel name x) : f'.runners = f.runners := by
  obtain ⟨⟨c, taken⟩, -, same⟩ := List.mem_map.mp move
  cases same
  exact aside c f

theorem receiveRunners {x : Option CoveredMutant} (move : (f', x) ∈ f.receive (Floor.input place)) :
    f'.runners = f.runners := by
  obtain ⟨⟨c, found⟩, -, same⟩ := List.mem_map.mp move
  cases same
  rfl

theorem handoverRunners {share : Nat} {h : Handover} {n : Next Handover (Except RunError Unit)}
    (move : (f', n) ∈ handover share place h f) : f'.runners = f.runners ∨
      (h = .growing ∧ n = .done (.ok ()) ∧ f'.runners = f.runners.withPool (·.grow share)) := by
  cases h with
  | forwarding held =>
    refine .inl ?_
    cases held with
    | none =>
      obtain ⟨⟨g, found⟩, received, same⟩ := List.mem_map.mp move
      have kept : g.runners = f.runners := receiveRunners received
      cases found <;> cases same <;> exact kept
    | some m =>
      obtain ⟨⟨g, sent⟩, sending, same⟩ := List.mem_map.mp move
      have kept : g.runners = f.runners := sendRunners (fun _ _ => rfl) sending
      cases sent <;> cases same <;> exact kept
  | disposing d =>
    refine .inl (Machine.withinState (fun u => u.runners = f.runners) move (fun u o inner => ?_)
      fun r u kept => ?_)
    · obtain ⟨s, -, rfl⟩ := Machine.onCases inner
      rfl
    · cases r <;> exact kept
  | growing =>
    obtain ⟨rfl, rfl⟩ := memFinish.mp move
    exact .inr ⟨rfl, rfl, rfl⟩

theorem movesRunners (aside : ¬role.Tests) (move : (f', n) ∈ role.moves place f) :
    f'.runners = f.runners ∨ ∃ share, role = .releasing share .growing ∧ n = .done (.ok ()) ∧
      f'.runners = f.runners.withPool (·.grow share) := by
  cases role with
  | ignoring rest =>
    refine .inl ?_
    cases rest with
    | nil =>
      obtain ⟨rfl, -⟩ := memFinish.mp move
      rfl
    | cons m rest =>
      obtain ⟨sent, sending, -⟩ := afterSendCases move
      split at sending
      · exact sendRunners (fun _ _ => rfl) sending
      · exact sendRunners (fun _ _ => rfl) sending
  | checking plan stage =>
    refine .inl (Machine.withinState (fun u => u.runners = f.runners) move (fun u o inner => ?_)
      fun _ _ kept => kept)
    obtain ⟨v, -, rfl⟩ := Machine.onCases inner
    rfl
  | releasing share h =>
    rcases Machine.withinCases move with ⟨q, moved, rfl⟩ | ⟨u, r, moved, same⟩ | ⟨moved, rfl⟩
    · rcases handoverRunners moved with same | ⟨-, none, -⟩
      · exact .inl same
      · cases none
    · cases same
      refine (handoverRunners moved).imp_right fun ⟨growing, done, more⟩ => ?_
      cases done
      exact ⟨share, by rw [growing], rfl, more⟩
    · rcases handoverRunners moved with same | ⟨-, none, -⟩
      · exact .inl same
      · cases none
  | covering held =>
    refine .inl ?_
    cases held with
    | none =>
      obtain ⟨⟨g, found⟩, received, same⟩ := List.mem_map.mp move
      have kept : g.runners = f.runners := receiveRunners received
      cases found <;> obtain ⟨rfl, -⟩ := Prod.mk.inj same <;> exact kept
    | some m =>
      obtain ⟨sent, sending, -⟩ := afterSendCases move
      split at sending
      · exact sendRunners (fun _ _ => rfl) sending
      · exact sendRunners (fun _ _ => rfl) sending
  | testing planOf t => exact (aside trivial).elim

theorem handoverHeeds {share : Nat} {h : Handover} {n : Next Handover (Except RunError Unit)}
    (move : (f', n) ∈ handover share place h f) :
    Crew.Follows (fun later => (Role.releasing share later).checkTokens)
      (Role.releasing share h).checkTokens n f.checkers.crew f'.checkers.crew := by
  have quiet {g : Floor} (kept : g.checkers = f.checkers) :
      f.checkers.crew.Quiet g.checkers.crew := by
    rw [kept]
    exact ⟨rfl, rfl, rfl⟩
  have still {g : Floor} (kept : g.checkers = f.checkers) :
      Crew.Heeds [] [] f.checkers.crew g.checkers.crew := .same (quiet kept)
  cases h with
  | forwarding held =>
    cases held with
    | none =>
      obtain ⟨⟨g, found⟩, received, same⟩ := List.mem_map.mp move
      have kept : g.checkers = f.checkers := receiveCheckers received
      cases found <;> cases same <;> exact still kept
    | some m =>
      obtain ⟨⟨g, sent⟩, sending, same⟩ := List.mem_map.mp move
      have kept : g.checkers = f.checkers := sendCheckers (fun _ _ => rfl) sending
      cases sent <;> cases same
      · exact (still kept).leaves (.refl _)
      · exact still kept
  | disposing d =>
    have heeds {s o} (moved : (s, o) ∈ Disposal.moves d f.checkers) :=
      (Disposal.movesHeeds moved).ends
    rcases Machine.withinCases move with ⟨later, inner, rfl⟩ | ⟨u, r, inner, same⟩ | ⟨inner, rfl⟩
    · obtain ⟨s, moved, rfl⟩ := Machine.onCases inner
      exact heeds moved
    · obtain ⟨s, moved, rfl⟩ := Machine.onCases inner
      have ended : Crew.Heeds d.tokens [] f.checkers.crew s.crew := heeds moved
      cases r with
      | ok r => cases same; exact ended
      | error e => cases same; exact ended.leaves List.nil_subperm
    · obtain ⟨s, moved, rfl⟩ := Machine.onCases inner
      exact heeds moved
  | growing =>
    obtain ⟨rfl, rfl⟩ := memFinish.mp move
    have none : Crew.Heeds [] [] f.checkers.crew f.checkers.crew := .same ⟨rfl, rfl, rfl⟩
    exact none.leaves (.refl _)

theorem apartTokens {role : Role} (apart : role.Apart) : role.checkTokens = [] := by
  cases role with
  | checking plan stage => exact apart.elim
  | releasing share h => exact apart.elim
  | _ => rfl

theorem movesHeeds (move : (f', n) ∈ role.moves place f) :
    Crew.Follows checkTokens role.checkTokens n f.checkers.crew f'.checkers.crew := by
  have apart (apart : role.Apart) :
      Crew.Follows checkTokens role.checkTokens n f.checkers.crew f'.checkers.crew := by
    obtain ⟨kept, stays⟩ := movesApart apart move
    have still : Crew.Heeds [] [] f.checkers.crew f'.checkers.crew :=
      .same (by rw [kept]; exact ⟨rfl, rfl, rfl⟩)
    rw [apartTokens apart]
    cases n with
    | go next =>
      rw [Crew.Follows, Next.elim, apartTokens (stays next rfl)]
      exact still
    | done r => exact still.leaves (.refl _)
    | panicked => exact still.leaves (.refl _)
  cases role with
  | checking plan stage =>
    rcases Machine.withinCases move with ⟨q, moved, rfl⟩ | ⟨u, r, moved, same⟩ | ⟨moved, rfl⟩
    · obtain ⟨v, own, rfl⟩ := Machine.onCases moved
      exact Stage.movesHeeds own
    · obtain ⟨v, own, rfl⟩ := Machine.onCases moved
      cases same
      exact Stage.movesHeeds own
    · obtain ⟨v, own, rfl⟩ := Machine.onCases moved
      exact Stage.movesHeeds own
  | releasing share h =>
    rcases Machine.withinCases move with ⟨q, moved, rfl⟩ | ⟨u, r, moved, same⟩ | ⟨moved, rfl⟩
    · exact handoverHeeds moved
    · cases same
      exact handoverHeeds moved
    · exact handoverHeeds moved
  | ignoring rest => exact apart trivial
  | covering held => exact apart trivial
  | testing planOf t => exact apart trivial

theorem runnersLawful : Floor.onRunners.Lawful := fun _ _ => rfl

theorem testPlanProper (planOf : CoveredMutant → RunPlan) (place : Nat) :
    (testPlan planOf place).Proper Floor.onRunners where
  home := rfl
  aloof := by
    intro f g item more
    obtain ⟨⟨c, found⟩, received, same⟩ := List.mem_map.mp more
    cases same
    rfl
  stays := fun m seat p c u n move => Nat.le_of_eq (Running.movesSize move).symm

theorem runTestsHeeds {planOf : CoveredMutant → RunPlan} {t : Testing}
    {n : Next Testing (Except RunError Unit)} (move : (f', n) ∈ runTests planOf place t f) :
    Crew.Follows (fun later => (Role.testing planOf later).runTokens)
      (Role.testing planOf t).runTokens n f.runners.crew f'.runners.crew := by
  cases t with
  | running g =>
    have heeds {u o} (inner : (u, o) ∈ Schedule.moves (testPlan planOf place) g f) :=
      Schedule.movedHeeds runnersLawful (testPlanProper planOf place) rfl
        (fun _ _ _ _ _ _ => Running.movesHeeds) (Schedule.movesMoved inner)
    rcases Machine.withinCases move with ⟨q, inner, rfl⟩ | ⟨u, ⟨y, k⟩, inner, same⟩ | ⟨inner, rfl⟩
    · exact heeds inner
    · have left : Crew.Leaves (g.tokens Running.tokens) f.runners.crew u.runners.crew :=
        (heeds inner).leaves (Schedule.tokensDone _ (Schedule.movesMoved inner))
      cases y with
      | none => cases same; exact left
      | some y =>
        obtain ⟨m, result⟩ := y
        cases result with
        | error e => cases same; exact left
        | ok answer =>
          cases answer with
          | error e => cases same; exact left
          | ok run => cases same; exact heeds inner
    · exact heeds inner
  | reporting x g =>
    obtain ⟨⟨u, sent⟩, sending, same⟩ := List.mem_map.mp move
    have kept : u.runners = f.runners := sendRunners (fun _ _ => rfl) sending
    have still : Crew.Heeds (g.tokens Running.tokens) (g.tokens Running.tokens) f.runners.crew
        u.runners.crew := .same (by rw [kept]; exact ⟨rfl, rfl, rfl⟩)
    cases sent <;> cases same
    · exact still.leaves (.refl _)
    · exact still

theorem asideTokens {role : Role} (aside : ¬role.Tests) : role.runTokens = [] := by
  cases role with
  | testing planOf t => exact absurd trivial aside
  | _ => rfl

def rank : Role → Nat
  | .ignoring _ => 0
  | .checking .. => 1
  | .releasing .. => 2
  | .covering _ => 3
  | .testing .. => 4

theorem movesRank {next : Role} (move : (f', .go next) ∈ role.moves place f) :
    next.rank = role.rank := by
  have sends {later : Role} {moves : List (Floor × Except RunError Unit)}
      (move : (f', .go next) ∈ afterSend later moves) : next = later := by
    obtain ⟨sent, -, ⟨-, same⟩ | ⟨e, -, same⟩⟩ := afterSendCases move <;> cases same
    rfl
  cases role with
  | ignoring rest =>
    cases rest with
    | nil => cases (memFinish.mp move).2
    | cons m rest => rw [sends move]; rfl
  | covering held =>
    cases held with
    | none =>
      obtain ⟨⟨g, found⟩, -, same⟩ := List.mem_map.mp move
      cases found <;> cases (Prod.mk.inj same).2
      rfl
    | some m => rw [sends move]; rfl
  | _ =>
    rcases Machine.withinCases move with ⟨q, -, same⟩ | ⟨u, r, -, same⟩ | ⟨-, same⟩ <;> cases same
    rfl

theorem Tests.rank {role : Role} : role.Tests ↔ role.rank = 4 := by
  cases role <;> simp [Tests, Role.rank]

theorem movesAside {next : Role} (aside : ¬role.Tests) (move : (f', .go next) ∈ role.moves place f) :
    ¬next.Tests := by
  rw [Tests.rank, movesRank move]
  exact aside ∘ Tests.rank.mpr

theorem movesRunnersHeed (move : (f', n) ∈ role.moves place f) :
    Crew.Follows runTokens role.runTokens n f.runners.crew f'.runners.crew := by
  by_cases tests : role.Tests
  · cases role with
    | testing planOf t =>
      rcases Machine.withinCases move with ⟨q, moved, rfl⟩ | ⟨u, r, moved, same⟩ | ⟨moved, rfl⟩
      · exact runTestsHeeds moved
      · cases same
        exact runTestsHeeds moved
      · exact runTestsHeeds moved
    | _ => exact tests.elim
  · have still : Crew.Heeds [] [] f.runners.crew f'.runners.crew := by
      refine .same ?_
      rcases movesRunners tests move with kept | ⟨share, -, -, kept⟩ <;> rw [kept] <;>
        exact ⟨rfl, rfl, rfl⟩
    rw [asideTokens tests]
    cases n with
    | go next =>
      rw [Crew.Follows, Next.elim, asideTokens (movesAside tests move)]
      exact still
    | done r => exact still.leaves (.refl _)
    | panicked => exact still.leaves (.refl _)

theorem vacateCalls (role : Role) (f : Floor) :
    (role.vacate f).checkers.crew = role.checkTokens.foldl Crew.abandon f.checkers.crew ∧
      (role.vacate f).runners.crew = role.runTokens.foldl Crew.abandon f.runners.crew := by
  cases role with
  | releasing share h => cases h <;> exact ⟨rfl, rfl⟩
  | testing planOf t => cases t <;> exact ⟨rfl, rfl⟩
  | _ => exact ⟨rfl, rfl⟩

theorem closeRunners (place : Nat) (role : Role) (f : Floor) :
    (role.close place f).runners = f.runners := by
  unfold close
  dsimp only
  split <;> rfl

end Role

namespace Task
variable {t u : Task}

def checkTokens : Task → List Nat
  | .working role | .leaving role _ => role.checkTokens
  | _ => []

def runTokens : Task → List Nat
  | .working role | .leaving role _ => role.runTokens
  | _ => []

def due (of : Role → List Nat) : Task → List Nat
  | .working role => of role
  | _ => []

def late (of : Role → List Nat) : Task → List Nat
  | .leaving role _ => of role
  | _ => []

def Heeds {W V : Type} (of : Role → List Nat) (t u : Task) (c d : Crew W V) : Prop :=
  ∀ others late, c.Live (t.due of ++ others) (t.late of ++ late) →
    d.Live (u.due of ++ others) (u.late of ++ late)

theorem Heeds.idle {W V : Type} {of : Role → List Nat} {c d : Crew W V} (quiet : c.Quiet d)
    (due : u.due of = t.due of) (late : u.late of = t.late of) : Heeds of t u c d := by
  intro others rest live
  rw [due, late]
  exact (Crew.Heeds.same quiet).live others _ live

theorem movesHeeds (move : (f', u) ∈ t.moves place f) :
    Heeds Role.checkTokens t u f.checkers.crew f'.checkers.crew ∧
      Heeds Role.runTokens t u f.runners.crew f'.runners.crew := by
  have works {W V : Type} {of : Role → List Nat} {c d : Crew W V} {role : Role}
      {n : Next Role (Except RunError Unit)} (follows : Crew.Follows of (of role) n c d)
      (after : (∃ next, n = .go next ∧ u = .working next) ∨
        ((∀ next, n ≠ .go next) ∧ ∃ outcome, u = .leaving role outcome)) :
      Heeds of (.working role) u c d := by
    intro others late live
    rcases after with ⟨next, rfl, rfl⟩ | ⟨ended, outcome, rfl⟩
    · have heeds : Crew.Heeds (of role) (of next) c d := follows
      exact heeds.live others late live
    · cases n with
      | go next => exact absurd rfl (ended next)
      | done r => exact follows others late live
      | panicked => exact follows others late live
  cases t with
  | working role =>
    obtain ⟨⟨g, n⟩, inner, same⟩ := List.mem_map.mp move
    have both (after : (∃ next, n = .go next ∧ u = .working next) ∨
        ((∀ next, n ≠ .go next) ∧ ∃ outcome, u = .leaving role outcome)) :
        Heeds Role.checkTokens (.working role) u f.checkers.crew g.checkers.crew ∧
          Heeds Role.runTokens (.working role) u f.runners.crew g.runners.crew :=
      ⟨works (Role.movesHeeds inner) after, works (Role.movesRunnersHeed inner) after⟩
    cases n with
    | go next => cases same; exact both (.inl ⟨_, rfl, rfl⟩)
    | done r => cases same; exact both (.inr ⟨fun _ same => (by cases same), _, rfl⟩)
    | panicked => cases same; exact both (.inr ⟨fun _ same => (by cases same), _, rfl⟩)
  | leaving role outcome =>
    cases List.mem_singleton.mp move
    obtain ⟨checkers, runners⟩ := role.vacateCalls f
    refine ⟨fun others late live => ?_, fun others late live => ?_⟩
    · rw [checkers]
      exact live.abandoned
    · rw [runners]
      exact live.abandoned
  | closing role outcome =>
    cases List.mem_singleton.mp move
    rw [role.closeCheckers, role.closeRunners]
    exact ⟨.idle ⟨rfl, rfl, rfl⟩ rfl rfl, .idle ⟨rfl, rfl, rfl⟩ rfl rfl⟩
  | closed outcome =>
    cases List.mem_singleton.mp move
    exact ⟨.idle ⟨rfl, rfl, rfl⟩ rfl rfl, .idle ⟨rfl, rfl, rfl⟩ rfl rfl⟩
  | _ => cases move

theorem cutHeeds {W V : Type} {of : Role → List Nat} {c : Crew W V} (cut : (f', u) ∈ t.cut f) :
    Heeds of t u c c := by
  obtain ⟨role, rfl, rfl, rfl⟩ := Task.cutLeaves cut
  exact ((Crew.Heeds.same ⟨rfl, rfl, rfl⟩).leaves (.refl _) : Crew.Leaves (of role) c c)

end Task

namespace Conduct

def checkTokens : Conduct → List Nat
  | .disposingCheckers d _ => d.tokens
  | _ => []

def runTokens : Conduct → List Nat
  | .disposingRunners d _ => d.tokens
  | _ => []

theorem earlyTokens {c : Conduct} (early : c.Early) : c.checkTokens = [] ∧ c.runTokens = [] := by
  cases c with
  | collecting => exact ⟨rfl, rfl⟩
  | searching cause => exact ⟨rfl, rfl⟩
  | aborting cause => exact ⟨rfl, rfl⟩
  | _ => exact early.elim

end Conduct

namespace Run
variable {r next : Run} {t u : Task} {o : Orders} {mutants : List CoveredMutant}

def checkTokens (r : Run) : List Nat := r.tasks.flatMap Task.checkTokens ++ r.conduct.checkTokens

def runTokens (r : Run) : List Nat := r.tasks.flatMap Task.runTokens ++ r.conduct.runTokens

structure Awaited (r : Run) : Prop where
  checkers : r.floor.checkers.crew.Awaited r.checkTokens
  runners : r.floor.runners.crew.Awaited r.runTokens

def Waits {W V : Type} (of : Role → List Nat) (own : Conduct → List Nat) (r : Run)
    (c : Crew W V) : Prop :=
  c.Live (r.tasks.flatMap (Task.due of) ++ own r.conduct) (r.tasks.flatMap (Task.late of))

structure Live (r : Run) : Prop where
  checkers : Waits Role.checkTokens Conduct.checkTokens r r.floor.checkers.crew
  runners : Waits Role.runTokens Conduct.runTokens r r.floor.runners.crew

theorem startLive (o : Orders) (mutants : List CoveredMutant) : (start o mutants).Live := by
  have quiet {W V : Type} {of : Role → List Nat} (own : Conduct → List Nat) {c : Crew W V}
      (fresh : c.orders = []) (idle : own .collecting = [])
      (roles : ∀ role, Orders.Fresh role → of role = []) :
      Waits of own (start o mutants) c := by
    have due : (start o mutants).tasks.flatMap (Task.due of) = [] := by
      refine flatMapNone .joined fun p => ?_
      rcases startTask o mutants p with none | ⟨role, here, -, begins⟩
      · exact congrArg (Task.due of) none
      · exact (congrArg (Task.due of) here).trans (roles role begins)
    have late : (start o mutants).tasks.flatMap (Task.late of) = [] := by
      refine flatMapNone .joined fun p => ?_
      rcases startTask o mutants p with none | ⟨role, here, -, -⟩
      · exact congrArg (Task.late of) none
      · exact congrArg (Task.late of) here
    have own : own (start o mutants).conduct = [] := idle
    rw [Waits, due, late, own]
    refine ⟨?_, List.nodup_nil, fun t member => (by cases member), fun t member => by cases member⟩
    rw [Crew.Awaited, fresh]
    exact .refl _
  refine ⟨quiet _ rfl rfl fun role fresh => ?_, quiet _ rfl rfl fun role fresh => ?_⟩
  · cases role with
    | checking plan stage =>
      obtain rfl : stage = .draining [] := fresh
      rfl
    | releasing share h =>
      obtain rfl : h = .forwarding none := fresh
      rfl
    | _ => rfl
  · cases role with
    | testing planOf t =>
      obtain rfl : t = .running { feed := .open [] } := fresh
      rfl
    | _ => rfl

section Waits
variable {W V : Type} {of : Role → List Nat} {own : Conduct → List Nat} {c d : Crew W V}

theorem Waits.same (waits : Waits of own r c) (tasks : next.tasks = r.tasks)
    (conduct : own next.conduct = own r.conduct) (quiet : c.Quiet d) : Waits of own next d := by
  have none : Crew.Heeds [] [] c d := .same quiet
  rw [Waits, tasks, conduct]
  exact none.live _ _ waits

theorem Waits.step (waits : Waits of own r c) (found : r.tasks[place]? = some t)
    (tasks : next.tasks = r.tasks.set place u) (conduct : own next.conduct = own r.conduct)
    (heeds : Task.Heeds of t u c d) : Waits of own next d := by
  obtain ⟨dues, before, after⟩ := flatMapSplit (Task.due of) found
  obtain ⟨lates, before', after'⟩ := flatMapSplit (Task.late of) found
  have all := heeds (dues ++ own r.conduct) lates
    (Crew.Live.perm waits ((before.append_right _).trans (.of_eq (List.append_assoc ..))) before')
  rw [Waits, tasks, conduct]
  refine all.perm ?_ (after' u).symm
  rw [← List.append_assoc]
  exact ((after u).append_right _).symm

end Waits

theorem Live.same (live : r.Live) (tasks : next.tasks = r.tasks)
    (checks : next.conduct.checkTokens = r.conduct.checkTokens)
    (runs : next.conduct.runTokens = r.conduct.runTokens)
    (checkers : next.floor.checkers.crew = r.floor.checkers.crew)
    (runners : next.floor.runners.crew = r.floor.runners.crew) : next.Live where
  checkers := live.checkers.same tasks checks (checkers ▸ ⟨rfl, rfl, rfl⟩)
  runners := live.runners.same tasks runs (runners ▸ ⟨rfl, rfl, rfl⟩)

theorem Waits.dispose {W V : Type} {of : Role → List Nat} {own : Conduct → List Nat}
    {s s' : Site W V} {d : Disposal W} {n : Next (Disposal W) (Except WorkerError Unit)}
    (waits : Waits of own r s.crew) (tasks : next.tasks = r.tasks) (before : own r.conduct = d.tokens)
    (after : own next.conduct = n.elim Disposal.tokens (fun _ => []) [])
    (move : (s', n) ∈ Disposal.moves d s) : Waits of own next s'.crew := by
  rw [Waits, before] at waits
  rw [Waits, tasks, after]
  exact (Disposal.movesHeeds move).behind waits

theorem Live.own (live : r.Live) (move : next ∈ r.ownMoves) : next.Live := by
  cases ownActed move with
  | received collecting taken =>
    obtain ⟨⟨c, found⟩, -, same⟩ := List.mem_map.mp taken
    cases same
    exact live.same rfl rfl rfl rfl rfl
  | joined early found =>
    obtain ⟨checks, runs⟩ := Conduct.earlyTokens early
    obtain ⟨checks', runs'⟩ := Conduct.earlyTokens (Conduct.joinedEarly early _)
    exact ⟨live.checkers.step found rfl (checks'.trans checks.symm) (.idle ⟨rfl, rfl, rfl⟩ rfl rfl),
      live.runners.step found rfl (runs'.trans runs.symm) (.idle ⟨rfl, rfl, rfl⟩ rfl rfl)⟩
  | aborted searching none =>
    refine live.same rfl ?_ ?_ rfl rfl <;> rw [searching] <;> rfl
  | cut aborting found cut =>
    have floor := (Task.cutLeaves cut).choose_spec.2.2
    subst floor
    exact ⟨live.checkers.step found rfl rfl (Task.cutHeeds cut),
      live.runners.step found rfl rfl (Task.cutHeeds cut)⟩
  | concluded ended all =>
    obtain ⟨checks, runs⟩ := Conduct.earlyTokens ended.early
    refine live.same rfl ?_ ?_ rfl rfl
    · rw [checks, conclude]
      dsimp only
      split <;> rfl
    · rw [runs, conclude]
      dsimp only
      split <;> rfl
  | onCheckers disposing moved =>
    exact ⟨live.checkers.dispose rfl (by rw [disposing]; rfl) rfl moved,
      live.runners.same rfl (by rw [disposing]; rfl) ⟨rfl, rfl, rfl⟩⟩
  | checkersDone disposing moved =>
    obtain ⟨site, other, -⟩ := Floor.disposedSites checkerNote _ { r.floor with checkers := _ }
    refine ⟨?_, live.runners.same rfl (by rw [disposing]; rfl) (by rw [other]; exact ⟨rfl, rfl, rfl⟩)⟩
    rw [site]
    exact live.checkers.dispose rfl (by rw [disposing]; rfl) rfl moved
  | onRunners disposing moved =>
    exact ⟨live.checkers.same rfl (by rw [disposing]; rfl) ⟨rfl, rfl, rfl⟩,
      live.runners.dispose rfl (by rw [disposing]; rfl) rfl moved⟩
  | runnersDone disposing moved =>
    obtain ⟨other, site, -⟩ := Floor.disposedSites runnerNote _ { r.floor with runners := _ }
    refine ⟨live.checkers.same rfl (by rw [disposing]; rfl) (by rw [other]; exact ⟨rfl, rfl, rfl⟩), ?_⟩
    rw [site]
    exact live.runners.dispose rfl (by rw [disposing]; rfl) rfl moved
  | reported reporting => refine live.same rfl ?_ ?_ rfl rfl <;> rw [reporting] <;> rfl

theorem Live.task (live : r.Live) (move : next ∈ r.taskMoves place) : next.Live := by
  obtain ⟨t, u, f, found, moved, rfl⟩ := taskActed move
  obtain ⟨checks, runs⟩ := Task.movesHeeds moved
  exact ⟨live.checkers.step found rfl rfl checks, live.runners.step found rfl rfl runs⟩

theorem liveSteps (steps : Steps (start o mutants) r) : r.Live := by
  induction steps with
  | refl => exact startLive o mutants
  | tail _ step before =>
    cases step with
    | own move => exact before.own move
    | task place move => exact before.task move
    | checker x outcome waits => exact ⟨Crew.Live.answer before.checkers _ _, before.runners⟩
    | runner x outcome waits => exact ⟨before.checkers, Crew.Live.answer before.runners _ _⟩

theorem awaitedSteps (steps : Steps (start o mutants) r) : r.Awaited := by
  obtain ⟨checkers, runners⟩ := liveSteps steps
  have all {of : Role → List Nat} {g : Task → List Nat} (parts : ∀ t : Task, t.due of ++ t.late of = g t)
      (own : List Nat) : (r.tasks.flatMap (Task.due of) ++ own ++
        r.tasks.flatMap (Task.late of)).Perm (r.tasks.flatMap g ++ own) := by
    rw [← funext parts]
    refine .trans ?_ ((List.flatMap_append_perm _ _ _).append_right own)
    rw [List.append_assoc, List.append_assoc]
    exact List.perm_append_comm.append_left _
  exact ⟨checkers.awaited.perm (all (fun t => by cases t <;> simp [Task.due, Task.late, Task.checkTokens]) _),
    runners.awaited.perm (all (fun t => by cases t <;> simp [Task.due, Task.late, Task.runTokens]) _)⟩

end Run

end MutationPipeline
