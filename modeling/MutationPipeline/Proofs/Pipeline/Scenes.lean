import MutationPipeline.Pipeline.Hosting
import MutationPipeline.Proofs.Checker.Broadcasts
import Mathlib.Logic.Relation

/-! Activities at the checking workers while nothing else goes on: their moves, and the answers to the
calls they make. What goes on in a part of an activity goes on in the same way in the whole, up to a
stage of a run. So a stage fills its pool up and tells all workers its checker however many they are,
by induction on the workers. -/
namespace MutationPipeline

namespace Crew

/-- The first workers sit in the seats with their numbers, there are no others, and no call is in
flight. -/
structure Resting {W V : Type} (size tokens : Nat) (c : Crew W V) : Prop where
  seated : ∀ seat < size, c.occupant seat = seat
  seats : c.seats.size = size
  made : c.made = size
  tokens : c.tokens = tokens
  orders : c.orders = []
  answers : c.answers = []

namespace Resting
variable {W V : Type} {size tokens : Nat} {c : Crew W V}

theorem hired (resting : c.Resting size tokens) : c.hire.1.Resting (size + 1) tokens where
  seated := by
    intro seat inside
    simp only [hire, make, occupant, Array.getElem?_push, resting.seats]
    by_cases last : seat = size
    · rw [if_pos last, resting.made, last]
    · rw [if_neg last]
      exact resting.seated seat (by omega)
  seats := by simp [hire, make, resting.seats]
  made := by simp [hire, make, resting.made]
  tokens := resting.tokens
  orders := resting.orders
  answers := resting.answers

theorem noted (resting : c.Resting size tokens) (n : Note) : (c.note n).Resting size tokens :=
  { resting with }

theorem remembered {c : CheckCrew} (resting : c.Resting size tokens) (seat : Nat) (w : CheckWork) :
    (c.remember seat w).Resting size tokens where
  seated s inside := (rememberOccupant c seat s w).trans (resting.seated s inside)
  seats := by simp [remember, resting.seats]
  made := resting.made
  tokens := resting.tokens
  orders := resting.orders
  answers := resting.answers

theorem begun (resting : c.Resting size tokens) (worker : Nat) (call : Call W) :
    ((c.start worker call).1, .go (.waiting tokens)) ∈ Calling.moves (.ready worker call) c :=
  List.mem_singleton.mpr (by rw [← resting.tokens]; rfl)

theorem order (resting : c.Resting size tokens) (worker : Nat) (call : Call W) :
    ⟨tokens, worker, call⟩ ∈ (c.start worker call).1.orders := by
  simp [start, resting.orders, resting.tokens]

theorem ended (resting : c.Resting size tokens) (worker : Nat) (call : Call W) (v : V) :
    (((c.start worker call).1.answer tokens (.ok v)).abandon tokens, .done (.ok v)) ∈
      Calling.moves (.waiting tokens) ((c.start worker call).1.answer tokens (.ok v)) := by
  have found : ((c.start worker call).1.answer tokens (.ok v)).answers.lookup tokens =
      some (.ok v) := by
    simp [start, answer, resting.answers]
  simp only [Calling.moves, found]
  exact List.mem_singleton_self _

theorem called (resting : c.Resting size tokens) (worker : Nat) (call : Call W) (o : Outcome V) :
    (((c.start worker call).1.answer tokens o).abandon tokens).Resting size (tokens + 1) where
  seated := resting.seated
  seats := resting.seats
  made := resting.made
  tokens := congrArg (· + 1) resting.tokens
  orders := by simp [start, answer, abandon, resting.orders, resting.tokens]
  answers := by simp [start, answer, abandon, resting.answers]

end Resting
end Crew

/-- An activity at the checking workers, with the workers. -/
structure Scene (ω φ : Type) where
  site : CheckSite
  hosts : Nat → Host (StateM ω)
  phase : φ

namespace Scene
variable {ω φ ψ ρ ρ' ε α : Type} {registry : Registry (StateM ω)} {names : List String}
  {m : Machine CheckSite φ ρ} {a b : Scene ω φ}

inductive Step (registry : Registry (StateM ω)) (names : List String) (m : Machine CheckSite φ ρ) :
    Scene ω φ → Scene ω φ → Prop where
  | move {a s q} (move : (s, .go q) ∈ m a.phase a.site) :
      Step registry names m a { a with site := s, phase := q }
  | answer {a result host} (x : Order CheckWork) (world : ω) (waits : x ∈ a.site.crew.orders)
      (performed : (a.hosts x.worker).perform registry names x.call world = (result, host)) :
      Step registry names m a { a with
        site := { a.site with crew := a.site.crew.answer x.token (.ofResult result) }
        hosts := fun worker => if worker = x.worker then host else a.hosts worker }

abbrev Steps (registry : Registry (StateM ω)) (names : List String) (m : Machine CheckSite φ ρ) :
    Scene ω φ → Scene ω φ → Prop :=
  Relation.ReflTransGen (Step registry names m)

def map (embed : φ → ψ) (a : Scene ω φ) : Scene ω ψ := { a with phase := embed a.phase }

theorem inside {m' : Machine CheckSite ψ ρ'} (embed : φ → ψ)
    (goes : ∀ p s s' q, (s', .go q) ∈ m p s → (s', .go (embed q)) ∈ m' (embed p) s)
    (steps : Steps registry names m a b) :
    Steps registry names m' (a.map embed) (b.map embed) := by
  refine steps.lift (map embed) fun c d step => ?_
  cases step with
  | move move => exact .move (goes _ _ _ _ move)
  | answer x world waits performed => exact .answer x world waits performed

/-- Members that can end one after the other, each from where the one before it has ended, all end. -/
theorem rounds {m : Machine CheckSite φ (Except ε α)} {p : Nat → φ} {x : Nat → α} {most : Nat}
    {holds : Nat → CheckSite → (Nat → Host (StateM ω)) → Prop}
    (each : ∀ k < most, ∀ site hosts, holds k site hosts → ∃ (b : Scene ω φ) (after : CheckSite),
      Steps registry names m ⟨site, hosts, p k⟩ b ∧ (after, .done (.ok (x k))) ∈ m b.phase b.site ∧
        holds (k + 1) after b.hosts)
    (n k : Nat) (fits : k + n = most) (before : List (Member φ α)) (site : CheckSite)
    (hosts : Nat → Host (StateM ω)) (now : holds k site hosts) :
    ∃ after later, Steps registry names (Member.moves m)
      ⟨site, hosts, before ++ (List.range' k n).map fun i => .running (p i)⟩
      ⟨after, later, before ++ (List.range' k n).map fun i => .ended (x i)⟩ ∧
        holds most after later := by
  induction n generalizing k before site hosts with
  | zero => exact ⟨site, hosts, .refl, fits ▸ now⟩
  | succ n ih =>
    obtain ⟨b, middle, steps, last, next⟩ := each k (by omega) site hosts now
    obtain ⟨after, later, rest, ends⟩ := ih (k + 1) (by omega) (before ++ [.ended (x k)]) middle
      b.hosts next
    refine ⟨after, later, ?_, ends⟩
    rw [List.range'_succ]
    simp only [List.map_cons]
    have first : Steps registry names (Member.moves m) _ _ := inside
      (fun q => before ++ .running q :: (List.range' (k + 1) n).map fun i => .running (p i))
      (fun q s s' r move => Member.movesAt move before _) steps
    refine (first.tail (.move (Member.movesAt last before _))).trans ?_
    rwa [← List.append_cons, ← List.append_cons] at rest

/-! ### The workers of a scene -/

def replaced (hosts : Nat → Host (StateM ω)) (worker : Nat) (host : Host (StateM ω)) :
    Nat → Host (StateM ω) :=
  fun other => if other = worker then host else hosts other

/-- Some workers that come one after the other have become this one. -/
def overlaid (hosts : Nat → Host (StateM ω)) (first many : Nat) (host : Host (StateM ω)) :
    Nat → Host (StateM ω) :=
  fun worker => if first ≤ worker ∧ worker < first + many then host else hosts worker

section Workers
variable {size tokens many : Nat} {s : CheckSite} {hosts : Nat → Host (StateM ω)} {world : ω}
  {v : CheckAnswer} {host : Host (StateM ω)}

theorem replacedSame {worker : Nat} (same : hosts worker = host) :
    replaced hosts worker host = hosts := by
  funext other
  by_cases here : other = worker
  · rw [replaced, if_pos here, here, same]
  · rw [replaced, if_neg here]

theorem overlaidNone (hosts : Nat → Host (StateM ω)) (first : Nat) (host : Host (StateM ω)) :
    overlaid hosts first 0 host = hosts :=
  funext fun worker => if_neg (by omega)

theorem overlaidMore (hosts : Nat → Host (StateM ω)) (first many : Nat) (host : Host (StateM ω)) :
    replaced (overlaid hosts first many host) (first + many) host =
      overlaid hosts first (many + 1) host := by
  funext worker
  simp only [replaced, overlaid]
  by_cases last : worker = first + many
  · rw [if_pos last, if_pos (by omega)]
  · rw [if_neg last]
    exact if_congr (by omega) rfl rfl

theorem calls {call : Call CheckWork} {worker : Nat} (ready : φ) (waiting : Nat → φ)
    (begins : ∀ c t, (c, .go (.waiting t)) ∈ Calling.moves (.ready worker call) s.crew →
      ({ s with crew := c }, .go (waiting t)) ∈ m ready s)
    (resting : s.crew.Resting size tokens)
    (performed : (hosts worker).perform registry names call world = (.ok v, host)) :
    Steps registry names m ⟨s, hosts, ready⟩
      ⟨{ s with crew := (s.crew.start worker call).1.answer tokens (.ok v) },
        replaced hosts worker host, waiting tokens⟩ := by
  have answered := Step.answer (a := ⟨{ s with crew := (s.crew.start worker call).1 }, hosts,
      waiting tokens⟩) (m := m) ⟨tokens, worker, call⟩ world (resting.order worker call) performed
  exact .tail (.single (.move (begins _ _ (resting.begun worker call)))) answered

theorem creates (holder : Option Nat) (resting : s.crew.Resting size tokens)
    (performed : (hosts size).perform registry names .init world = (.ok v, host)) :
    ∃ b : Scene ω (Creation CheckWork), Steps registry names (Creation.moves holder)
      ⟨s, hosts, .hiring⟩ b ∧ b.phase = .enrolling size ∧ b.site.pool = s.pool ∧
        b.site.crew.Resting (size + 1) (tokens + 1) ∧ b.hosts = replaced hosts size host := by
  have hired := resting.hired
  have worker : s.crew.hire.1.occupant s.crew.seats.size = size := by
    rw [resting.seats]
    exact hired.seated size (Nat.lt_succ_self size)
  have begins : ({ s with crew := s.crew.hire.1 }, .go (.starting size (.ready size .init))) ∈
      Creation.moves (V := CheckAnswer) holder .hiring s := by
    change _ ∈ [({ s with crew := s.crew.hire.1 }, Next.go (Creation.starting s.crew.seats.size
      (Calling.ready (s.crew.hire.1.occupant s.crew.seats.size) Call.init)))]
    rw [worker, resting.seats]
    exact List.mem_singleton_self _
  have started : Steps registry names (Creation.moves holder)
      ⟨{ s with crew := s.crew.hire.1 }, hosts, .starting size (.ready size .init)⟩
      ⟨_, _, .starting size (.waiting tokens)⟩ :=
    calls (s := { s with crew := s.crew.hire.1 }) (Creation.starting size (.ready size .init))
      (fun t => Creation.starting size (.waiting t))
      (fun c t move => List.mem_map.mpr ⟨_, Machine.onMove move, rfl⟩) hired performed
  have ends : ({ s with
        crew := ((s.crew.hire.1.start size .init).1.answer tokens (.ok v)).abandon tokens },
      .go (.enrolling size)) ∈ Creation.moves holder (.starting size (.waiting tokens))
        { s with crew := (s.crew.hire.1.start size .init).1.answer tokens (.ok v) } :=
    List.mem_map.mpr ⟨_, Machine.onMove (hired.ended size .init v), rfl⟩
  exact ⟨_, (started.head (.move begins)).tail (.move ends), rfl, rfl, hired.called _ _ _, rfl⟩

theorem activates {staffing : Staffing} {name : String} {seat : Nat} (inside : seat < size)
    (resting : s.crew.Resting size tokens)
    (performed : (hosts seat).perform registry names (.work (.setActive name)) world =
      (.ok v, host)) :
    ∃ (b : Scene ω (Nat × Activation)) (after : CheckSite),
      Steps registry names (Broadcast.each staffing name) ⟨s, hosts, (seat, .remembering)⟩ b ∧
        (after, .done (.ok ())) ∈ Broadcast.each staffing name b.phase b.site ∧
          after.pool = s.pool ∧ after.crew.Resting size (tokens + 1) ∧
            b.hosts = replaced hosts seat host := by
  obtain ⟨c, told, noted⟩ : ∃ c : CheckCrew, c.Resting size tokens ∧
      (if staffing.recovers then s.crew.remember seat (.setActive name) else s.crew) = c := by
    refine ⟨_, ?_, rfl⟩
    split
    · exact resting.remembered seat _
    · exact resting
  have begins : (c, .go (.calling (.ready seat (.work (.setActive name))))) ∈
      Activation.moves staffing name seat .remembering s.crew := by
    simp only [Activation.moves, noted, told.seated seat inside]
    exact List.mem_singleton_self _
  have started : Steps registry names (Broadcast.each staffing name)
      ⟨{ s with crew := c }, hosts, (seat, .calling (.ready seat (.work (.setActive name))))⟩
      ⟨_, _, (seat, .calling (.waiting tokens))⟩ :=
    calls (s := { s with crew := c })
      (seat, Activation.calling (.ready seat (.work (.setActive name))))
      (fun t => (seat, Activation.calling (.waiting t)))
      (fun c t move => List.mem_map.mpr
        ⟨_, Machine.onMove (List.mem_map.mpr ⟨_, move, rfl⟩), rfl⟩) told performed
  have ends := told.ended seat (.work (.setActive name)) v
  exact ⟨_, _, started.head (.move (List.mem_map.mpr ⟨_, Machine.onMove begins, rfl⟩)),
    List.mem_map.mpr ⟨_, Machine.onMove (List.mem_map.mpr ⟨_, ends, rfl⟩), rfl⟩, rfl,
    told.called _ _ _, rfl⟩

theorem fills (resting : s.crew.Resting size tokens)
    (members : s.pool.members = List.range' 0 size) (many : Nat)
    (begun : ∀ worker, size ≤ worker →
      (hosts worker).perform registry names .init world = (.ok v, host)) :
    ∃ after : CheckSite, Steps registry names (Member.moves (Creation.moves none))
      ⟨s, hosts, List.replicate many (.running .hiring)⟩
      ⟨after, overlaid hosts size many host, (List.range' size many).map .ended⟩ ∧
        after.crew.Resting (size + many) (tokens + many) ∧
          after.pool = { s.pool with members := List.range' 0 (size + many) } := by
  have each : ∀ k < many, ∀ (site : CheckSite) later,
      (site.crew.Resting (size + k) (tokens + k) ∧ later = overlaid hosts size k host ∧
        site.pool = { s.pool with members := List.range' 0 (size + k) }) →
      ∃ (b : Scene ω (Creation CheckWork)) (after : CheckSite),
        Steps registry names (Creation.moves none) ⟨site, later, .hiring⟩ b ∧
          (after, .done (.ok (size + k))) ∈ Creation.moves none b.phase b.site ∧
            after.crew.Resting (size + (k + 1)) (tokens + (k + 1)) ∧
              b.hosts = overlaid hosts size (k + 1) host ∧
                after.pool = { s.pool with members := List.range' 0 (size + (k + 1)) } := by
    rintro k - site later ⟨rests, rfl, pool⟩
    have blank : overlaid hosts size k host (size + k) = hosts (size + k) := if_neg (by omega)
    obtain ⟨b, steps, phase, same, more, replaces⟩ := creates none rests
      (blank ▸ begun (size + k) (Nat.le_add_right size k))
    refine ⟨b, b.site.withPool (·.enroll (size + k)), steps, ?_, more,
      replaces.trans (overlaidMore hosts size k host), ?_⟩
    · rw [phase]
      exact List.mem_singleton_self _
    · simp only [Site.withPool, Pool.enroll, same, pool]
      rw [← Nat.add_assoc, List.range'_concat, Nat.one_mul, Nat.zero_add]
  obtain ⟨after, later, steps, rests, rfl, pool⟩ := rounds each many 0 (Nat.zero_add many) [] s hosts
    ⟨resting, (overlaidNone hosts size host).symm, by rw [Nat.add_zero, ← members]⟩
  refine ⟨after, ?_, rests, pool⟩
  have fresh : List.replicate many (.running .hiring : Member (Creation CheckWork) Nat) =
      (List.range' 0 many).map fun _ => .running .hiring := by
    rw [List.map_const', List.length_range']
  have seats : (List.range' size many).map (Member.ended (φ := Creation CheckWork)) =
      (List.range' 0 many).map fun k => .ended (size + k) := by
    rw [← Nat.add_zero size, ← List.map_add_range', List.map_map, Nat.add_zero]
    rfl
  rw [fresh, seats]
  exact steps

theorem tells (staffing : Staffing) {name : String} (resting : s.crew.Resting size tokens)
    (performed : ∀ worker < size,
      (hosts worker).perform registry names (.work (.setActive name)) world = (.ok v, host)) :
    ∃ after : CheckSite, Steps registry names (Member.moves (Broadcast.each staffing name))
      ⟨s, hosts, (List.range' 0 size).map fun seat => .running (seat, .remembering)⟩
      ⟨after, overlaid hosts 0 size host, (List.range' 0 size).map fun _ => .ended ()⟩ ∧
        after.crew.Resting size (tokens + size) ∧ after.pool = s.pool := by
  have each : ∀ k < size, ∀ (site : CheckSite) later,
      (site.crew.Resting size (tokens + k) ∧ later = overlaid hosts 0 k host ∧
        site.pool = s.pool) →
      ∃ (b : Scene ω (Nat × Activation)) (after : CheckSite),
        Steps registry names (Broadcast.each staffing name) ⟨site, later, (k, .remembering)⟩ b ∧
          (after, .done (.ok ())) ∈ Broadcast.each staffing name b.phase b.site ∧
            after.crew.Resting size (tokens + (k + 1)) ∧
              b.hosts = overlaid hosts 0 (k + 1) host ∧ after.pool = s.pool := by
    rintro k inside site later ⟨rests, rfl, pool⟩
    have untold : overlaid hosts 0 k host k = hosts k := if_neg (by omega)
    obtain ⟨b, after, steps, ends, same, more, replaces⟩ := activates inside rests
      (untold ▸ performed k inside)
    have next := overlaidMore hosts 0 k host
    rw [Nat.zero_add] at next
    exact ⟨b, after, steps, ends, more, replaces.trans next, same.trans pool⟩
  obtain ⟨after, later, steps, rests, rfl, pool⟩ := rounds each size 0 (Nat.zero_add size) [] s hosts
    ⟨resting, (overlaidNone hosts 0 host).symm, rfl⟩
  exact ⟨after, steps, rests, pool⟩

end Workers
end Scene

namespace Floor

theorem setLinkOwn (place : Nat) (f : Floor) : setLink place (f.link place) f = f := by
  have same : f.links.set place (f.links.getD place noLink) = f.links := by
    refine List.ext_getElem? fun i => ?_
    rw [List.getElem?_set]
    split
    · next here =>
      subst here
      split
      · next inside => rw [List.getD_eq_getElem?_getD, List.getElem?_eq_getElem inside]; rfl
      · next outside => rw [List.getElem?_eq_none (by omega)]
    · rfl
  rw [setLink, link, same]

theorem onStageSite (place : Nat) (f : Floor) (s : CheckSite) :
    (onStage place).set { (onStage place).get f with site := s } f = { f with checkers := s } := by
  simp only [onStage, setLinkOwn]

theorem onStageGet {place : Nat} {f : Floor} (room : place + 1 < f.links.length) (v : StageView) :
    (onStage place).get ((onStage place).set v f) = v := by
  have here : place < f.links.length := by omega
  simp [onStage, setLink, link, List.getD_eq_getElem?_getD, here, room]

theorem onStageSet (place : Nat) (f : Floor) (v u : StageView) :
    (onStage place).set u ((onStage place).set v f) = (onStage place).set u f := by
  simp only [onStage, setLink]
  rw [List.set_comm _ _ (Nat.succ_ne_self place), List.set_set, List.set_set]

end Floor

namespace Hosting
variable {ω : Type} {registry : Registry (StateM ω)} {names : List String} {g h i : Hosting ω}
  {place : Nat} {plan : StagePlan}

theorem Steps.append (steps : Steps registry names g h) (more : Steps registry names h i) :
    Steps registry names g i := by
  induction more with
  | refl => exact steps
  | tail _ step ih => exact .tail ih step

/-- The stage at a place has come this far, and nothing else has gone on. -/
def viewed (h : Hosting ω) (place : Nat) (plan : StagePlan) (hosts : Nat → Host (StateM ω))
    (v : StageView) (stage : Stage) : Hosting ω where
  run := { h.run with
    floor := (Floor.onStage place).set v h.run.floor
    tasks := h.run.tasks.set place (.working (.checking plan stage)) }
  hosts

/-- The stage has left its channels alone. -/
def staged (h : Hosting ω) (place : Nat) (plan : StagePlan) (a : Scene ω Stage) : Hosting ω where
  run := { h.run with
    floor := { h.run.floor with checkers := a.site }
    tasks := h.run.tasks.set place (.working (.checking plan a.phase)) }
  hosts := a.hosts

theorem viewedSite (a : Scene ω Stage) : h.viewed place plan a.hosts
    { (Floor.onStage place).get h.run.floor with site := a.site } a.phase =
      h.staged place plan a := by
  simp only [viewed, staged, Floor.onStageSite]

theorem viewedMove (inside : place < h.run.tasks.length)
    (room : place + 1 < h.run.floor.links.length) {hosts : Nat → Host (StateM ω)} {v u : StageView}
    {stage later : Stage} (move : (u, .go later) ∈ Stage.moves plan stage v) :
    Step registry names (h.viewed place plan hosts v stage)
      (h.viewed place plan hosts u later) := by
  have found : (h.viewed place plan hosts v stage).run.tasks[place]? =
      some (.working (.checking plan stage)) := List.getElem?_set_self inside
  rw [← Floor.onStageGet room v] at move
  have went : ((Floor.onStage place).set u (h.viewed place plan hosts v stage).run.floor,
      Task.working (.checking plan later)) ∈ Task.moves place (.working (.checking plan stage))
        (h.viewed place plan hosts v stage).run.floor :=
    List.mem_map.mpr ⟨_, List.mem_map.mpr ⟨_, Machine.onMove move, rfl⟩, rfl⟩
  have next : (h.viewed place plan hosts u later).run ∈
      (h.viewed place plan hosts v stage).run.taskMoves place := by
    rw [Run.taskMoves, found]
    refine List.mem_map.mpr ⟨_, went, ?_⟩
    simp only [viewed, Floor.onStageSet, List.set_set]
  exact .task place next

theorem stagedMove (inside : place < h.run.tasks.length)
    (room : place + 1 < h.run.floor.links.length) {a : Scene ω Stage} {s : CheckSite} {stage : Stage}
    (move : ∀ v : StageView,
      ({ v with site := s }, .go stage) ∈ Stage.moves plan a.phase { v with site := a.site }) :
    Step registry names (h.staged place plan a) (h.staged place plan ⟨s, a.hosts, stage⟩) := by
  rw [← viewedSite, ← viewedSite]
  exact viewedMove inside room (move ((Floor.onStage place).get h.run.floor))

theorem stagedSteps (plan : StagePlan) (inside : place < h.run.tasks.length)
    (room : place + 1 < h.run.floor.links.length) {φ ρ : Type} {m : Machine CheckSite φ ρ}
    {a b : Scene ω φ} (embed : φ → Stage)
    (goes : ∀ p q s' (v : StageView), (s', .go q) ∈ m p v.site →
      ({ v with site := s' }, .go (embed q)) ∈ Stage.moves plan (embed p) v)
    (steps : Scene.Steps registry names m a b) :
    Steps registry names (h.staged place plan (a.map embed))
      (h.staged place plan (b.map embed)) := by
  induction steps with
  | refl => exact .refl _
  | @tail c d _ step ih =>
    refine ih.tail ?_
    cases step with
    | move move => exact stagedMove inside room fun v => goes _ _ _ { v with site := c.site } move
    | answer x world waits performed => exact .checker x world waits performed

/-- A stage goes on by itself, each time with its first move. -/
def paced (plan : StagePlan) : Nat → StageView × Stage → Option (StageView × Stage)
  | 0, x => some x
  | n + 1, (v, stage) => match (Stage.moves plan stage v).head? with
    | some (u, .go later) => paced plan n (u, later)
    | _ => none

theorem viewedPaces (inside : place < h.run.tasks.length)
    (room : place + 1 < h.run.floor.links.length) (hosts : Nat → Host (StateM ω)) (n : Nat)
    {v u : StageView} {stage later : Stage} (paces : paced plan n (v, stage) = some (u, later)) :
    Steps registry names (h.viewed place plan hosts v stage)
      (h.viewed place plan hosts u later) := by
  induction n generalizing v stage with
  | zero =>
    cases paces
    exact .refl _
  | succ n ih =>
    rw [paced] at paces
    split at paces
    · next w middle first =>
      have step : Step registry names (h.viewed place plan hosts v stage)
          (h.viewed place plan hosts w middle) :=
        viewedMove inside room (List.mem_of_head? first)
      exact ((Steps.refl _).tail step).append (ih paces)
    · cases paces

theorem stagedPaces (inside : place < h.run.tasks.length)
    (room : place + 1 < h.run.floor.links.length) (hosts : Nat → Host (StateM ω)) (n : Nat)
    {s s' : CheckSite} {stage later : Stage}
    (paces : ∀ v : StageView,
      paced plan n ({ v with site := s }, stage) = some ({ v with site := s' }, later)) :
    Steps registry names (h.staged place plan ⟨s, hosts, stage⟩)
      (h.staged place plan ⟨s', hosts, later⟩) := by
  rw [← viewedSite, ← viewedSite]
  exact viewedPaces inside room hosts n (paces ((Floor.onStage place).get h.run.floor))

section Calls
variable {p : Pool} {c : CheckCrew} {s : CheckSite} {hosts : Nat → Host (StateM ω)} {world : ω}
  {v : CheckAnswer} {size many tokens worker : Nat} {call : Call CheckWork}
  {host started told : Host (StateM ω)} {later : Stage}

theorem stagedCall (inside : place < h.run.tasks.length)
    (room : place + 1 < h.run.floor.links.length) (embed : Calling CheckWork → Stage)
    (goes : ∀ p q c' (w : StageView), (c', .go q) ∈ Calling.moves p w.site.crew →
      ({ w with site := { w.site with crew := c' } }, .go (embed q)) ∈ Stage.moves plan (embed p) w)
    (ends : ∀ p c' (w : StageView), (c', .done (.ok v)) ∈ Calling.moves p w.site.crew →
      ({ w with site := { w.site with crew := c' } }, .go later) ∈ Stage.moves plan (embed p) w)
    (resting : c.Resting size tokens)
    (performed : (hosts worker).perform registry names call world = (.ok v, host)) :
    ∃ after : CheckCrew, Steps registry names
      (h.staged place plan ⟨⟨p, c⟩, hosts, embed (.ready worker call)⟩)
      (h.staged place plan ⟨⟨p, after⟩, Scene.replaced hosts worker host, later⟩) ∧
        after.Resting size (tokens + 1) := by
  have waits : Scene.Steps registry names callMoves
      ⟨⟨p, c⟩, hosts, .ready worker call⟩ ⟨_, _, .waiting tokens⟩ :=
    Scene.calls (s := ⟨p, c⟩) (Calling.ready worker call) Calling.waiting
      (fun c t move => Machine.onMove move) resting performed
  have steps := stagedSteps (h := h) plan inside room embed (fun p q s' w move => by
    obtain ⟨c', moved, rfl⟩ := Machine.onCases move
    exact goes p q c' w moved) waits
  have last : Step registry names
      (h.staged place plan ⟨⟨p, (c.start worker call).1.answer tokens (.ok v)⟩,
        Scene.replaced hosts worker host, embed (.waiting tokens)⟩)
      (h.staged place plan ⟨⟨p, ((c.start worker call).1.answer tokens (.ok v)).abandon tokens⟩,
        Scene.replaced hosts worker host, later⟩) :=
    stagedMove inside room fun w => ends _ _ _ (resting.ended worker call v)
  exact ⟨_, steps.tail last, resting.called worker call (.ok v)⟩

theorem stocks (place : Nat) (plan : StagePlan) (batch : List CoveredMutant)
    (inside : place < h.run.tasks.length) (room : place + 1 < h.run.floor.links.length)
    (resting : s.crew.Resting size tokens) (unclosed : s.pool.permits.closed = false)
    (capacity : s.pool.capacity = size + many) (members : s.pool.members = List.range' 0 size)
    (begun : ∀ worker, size ≤ worker →
      (hosts worker).perform registry names .init world = (.ok v, started)) :
    ∃ after : CheckSite, Steps registry names
      (h.staged place plan ⟨s, hosts, .filling batch .counting⟩)
      (h.staged place plan ⟨after, Scene.overlaid hosts size many started,
        .activating batch .listing⟩) ∧
      after.crew.Resting (size + many) (tokens + many) ∧
        after.pool = { s.pool with
          members := List.range' 0 (size + many)
          idle := s.pool.idle ++ List.range' size many } := by
  obtain ⟨filled, fills, rests, pool⟩ := Scene.fills resting members many begun
  have missing : s.pool.missing = many := by
    rw [Pool.missing, capacity, members, List.length_range', Nat.add_sub_cancel_left]
  have counted : (s, .go (.creating (List.replicate many (.running .hiring)))) ∈
      Filling.moves .counting s := by
    simp only [Filling.moves, Pool.isDisposed, unclosed, missing]
    exact List.mem_singleton_self _
  have stocked : (filled.withPool (·.stock (List.range' size many)), .done (.ok ())) ∈
      Filling.moves (.creating ((List.range' size many).map .ended)) filled :=
    List.mem_map.mpr ⟨_, Member.movesEnded (List.range' size many), rfl⟩
  have counting : Step registry names (h.staged place plan ⟨s, hosts, .filling batch .counting⟩)
      (h.staged place plan ⟨s, hosts, .filling batch
        (.creating (List.replicate many (.running .hiring)))⟩) :=
    stagedMove inside room fun v => List.mem_map.mpr ⟨_, Machine.onMove counted, rfl⟩
  have filling := stagedSteps (h := h) plan inside room
    (fun members => .filling batch (.creating members))
    (fun p q s' v move => List.mem_map.mpr
      ⟨_, Machine.onMove (List.mem_map.mpr ⟨_, move, rfl⟩), rfl⟩) fills
  have stocking : Step registry names
      (h.staged place plan ⟨filled, Scene.overlaid hosts size many started, .filling batch
        (.creating ((List.range' size many).map .ended))⟩)
      (h.staged place plan ⟨filled.withPool (·.stock (List.range' size many)),
        Scene.overlaid hosts size many started, .activating batch .listing⟩) :=
    stagedMove inside room fun v => List.mem_map.mpr ⟨_, Machine.onMove stocked, rfl⟩
  refine ⟨_, (((Steps.refl _).tail counting).append filling).tail stocking, rests, ?_⟩
  simp only [Site.withPool, Pool.stock, pool]

theorem spreads (place : Nat) (plan : StagePlan) (batch : List CoveredMutant)
    (inside : place < h.run.tasks.length) (room : place + 1 < h.run.floor.links.length)
    (resting : s.crew.Resting size tokens) (members : s.pool.members = List.range' 0 size)
    (activated : ∀ worker < size, (hosts worker).perform registry names
      (.work (.setActive plan.checker)) world = (.ok v, told)) :
    ∃ after : CheckSite, Steps registry names
      (h.staged place plan ⟨s, hosts, .activating batch .listing⟩)
      (h.staged place plan ⟨after, Scene.overlaid hosts 0 size told, .borrowing batch .asking⟩) ∧
      after.crew.Resting size (tokens + size) ∧ after.pool = s.pool := by
  obtain ⟨after, tells, rests, same⟩ := Scene.tells plan.staffing resting activated
  have listed : (s, .go (.running
      ((List.range' 0 size).map fun seat => .running (seat, .remembering)))) ∈
      Broadcast.tell plan.staffing plan.checker .listing s := by
    simp only [Broadcast.tell, Broadcast.moves, members]
    exact List.mem_singleton_self _
  have heard : (after, .done (.ok ())) ∈ Broadcast.tell plan.staffing plan.checker
      (.running ((List.range' 0 size).map fun _ => .ended ())) after := by
    have all := Member.movesEnded (m := Broadcast.each plan.staffing plan.checker) (s := after)
      ((List.range' 0 size).map fun _ => ())
    rw [List.map_map] at all
    exact List.mem_map.mpr ⟨_, all, rfl⟩
  have listing : Step registry names
      (h.staged place plan ⟨s, hosts, .activating batch .listing⟩)
      (h.staged place plan ⟨s, hosts, .activating batch (.running
        ((List.range' 0 size).map fun seat => .running (seat, .remembering)))⟩) :=
    stagedMove inside room fun v => List.mem_map.mpr ⟨_, Machine.onMove listed, rfl⟩
  have telling := stagedSteps (h := h) plan inside room
    (fun members => .activating batch (.running members))
    (fun p q s' v move => List.mem_map.mpr
      ⟨_, Machine.onMove (List.mem_map.mpr ⟨_, move, rfl⟩), rfl⟩) tells
  have hearing : Step registry names
      (h.staged place plan ⟨after, Scene.overlaid hosts 0 size told,
        .activating batch (.running ((List.range' 0 size).map fun _ => .ended ()))⟩)
      (h.staged place plan ⟨after, Scene.overlaid hosts 0 size told, .borrowing batch .asking⟩) :=
    stagedMove inside room fun v => List.mem_map.mpr ⟨_, Machine.onMove heard, rfl⟩
  exact ⟨after, (((Steps.refl _).tail listing).append telling).tail hearing, rests, same⟩

/-- A stage fills the pool up and tells every worker its checker. -/
theorem readies (place : Nat) (plan : StagePlan) (batch : List CoveredMutant)
    (inside : place < h.run.tasks.length) (room : place + 1 < h.run.floor.links.length)
    (resting : s.crew.Resting size tokens) (unclosed : s.pool.permits.closed = false)
    (capacity : s.pool.capacity = size + many) (members : s.pool.members = List.range' 0 size)
    (begun : ∀ worker, size ≤ worker →
      (hosts worker).perform registry names .init world = (.ok v, started))
    (activated : ∀ worker < size + many, (Scene.overlaid hosts size many started worker).perform
      registry names (.work (.setActive plan.checker)) world = (.ok v, told)) :
    ∃ after : CheckSite, Steps registry names
      (h.staged place plan ⟨s, hosts, .filling batch .counting⟩)
      (h.staged place plan ⟨after, Scene.overlaid (Scene.overlaid hosts size many started) 0
        (size + many) told, .borrowing batch .asking⟩) ∧
      after.crew.Resting (size + many) (tokens + many + (size + many)) ∧
        after.pool = { s.pool with
          members := List.range' 0 (size + many)
          idle := s.pool.idle ++ List.range' size many } := by
  obtain ⟨stocked, stocks, rests, pool⟩ :=
    stocks place plan batch inside room resting unclosed capacity members begun
  obtain ⟨after, spreads, rested, same⟩ :=
    spreads place plan batch inside room rests (by rw [pool]) activated
  exact ⟨after, stocks.append spreads, rested, same.trans pool⟩

end Calls
end Hosting

end MutationPipeline
