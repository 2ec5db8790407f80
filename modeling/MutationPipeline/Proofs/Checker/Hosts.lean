import MutationPipeline.Pipeline.Hosting

/-! Which checker of a host answers calls. Once that is known only setting it changes it, and it is
known after it was set. -/
namespace MutationPipeline.Host
variable {ω : Type} {registry : Registry (StateM ω)} {names : List String} {name : String}
  {call : Call CheckWork} {h host : Host (StateM ω)} {world : ω}
  {result : Except WorkerError CheckAnswer}

theorem setActiveName (name : String) (h : Host (StateM ω)) :
    (∃ e, setActive name h = (.error e, h)) ∨
      ∃ host, setActive name h = (.ok (), host) ∧ host.activeName? = some name := by
  unfold setActive
  split
  · next i found =>
    refine .inr ⟨_, rfl, ?_⟩
    obtain ⟨hosted, here, place⟩ := Option.bind_eq_some_iff.mp found
    obtain ⟨bound, same, -⟩ := List.findIdx?_eq_some_iff_getElem.mp place
    simp only [activeName?, here, Option.bind_eq_bind, Option.bind_some,
      List.getElem?_eq_getElem bound]
    exact congrArg some (of_decide_eq_true same)
  · exact .inl ⟨_, rfl⟩

theorem hostedOfActive (active : h.activeName? = some name) : ∃ hosted, h.hosted = some hosted := by
  obtain ⟨hosted, here, -⟩ := Option.bind_eq_some_iff.mp active
  exact ⟨hosted, here⟩

theorem delegateHost {α : Type} (ask : Plugin (StateM ω) → StateM ω (Except WorkerError α))
    (h : Host (StateM ω)) (world : ω) : ((delegate ask h).run world).1.2 = h := by
  unfold delegate
  split <;> rfl

theorem initHosted {hosted : List (Hosted (StateM ω))} (here : h.hosted = some hosted)
    (world : ω) : ((init registry names h).run world).1.2 = h := by
  unfold init
  rw [here]
  rfl

theorem performActive (active : h.activeName? = some name)
    (other : ∀ n, call = .work (.setActive n) → n = name)
    (performed : h.perform registry names call world = (result, host)) :
    host.activeName? = some name := by
  have same : (h.perform registry names call world).2 = host := by rw [performed]
  cases call with
  | init =>
    obtain ⟨hosted, here⟩ := hostedOfActive active
    have still : host = h := same.symm.trans (initHosted here world)
    rwa [still]
  | dispose =>
    have still : host = h := same.symm
    rwa [still]
  | work w =>
    cases w with
    | setActive n =>
      obtain rfl := other n rfl
      have set : host = (setActive n h).2 := same.symm
      rcases setActiveName n h with ⟨e, failed⟩ | ⟨after, done, now⟩
      · rwa [set, failed]
      · rwa [set, done]
    | check mutants =>
      have still : host = h := same.symm.trans (delegateHost (·.check mutants) h world)
      rwa [still]
    | createGroups mutants =>
      have still : host = h := same.symm.trans (delegateHost (·.createGroups mutants) h world)
      rwa [still]

theorem performSet {v : CheckAnswer}
    (performed : h.perform registry names (.work (.setActive name)) world = (.ok v, host)) :
    host.activeName? = some name := by
  have answer : (setActive name h).1.map (fun _ => CheckAnswer.done) = .ok v :=
    congrArg Prod.fst performed
  have left : (setActive name h).2 = host := congrArg Prod.snd performed
  rcases setActiveName name h with ⟨e, failed⟩ | ⟨after, done, now⟩
  · rw [failed] at answer
    cases answer
  · rw [done] at left
    rwa [← left]

end MutationPipeline.Host

/-! The history of a host. Its instances are those that its first successful start made, whatever
happened before it, and the one that answers is the first of them with the name that was set last.
All of this can be told from the calls and their answers alone. -/
namespace MutationPipeline.Host
variable {ω : Type} {registry : Registry (StateM ω)}

inductive Made (registry : Registry (StateM ω)) :
    List String → ω → List (Hosted (StateM ω)) → ω → Prop where
  | nil (world : ω) : Made registry [] world [] world
  | cons {name : String} {names : List String} {factory : StateM ω (Plugin (StateM ω))}
      {plugin : Plugin (StateM ω)} {more : List (Hosted (StateM ω))} {world created started after : ω}
      (known : registry.factories.get? name = some factory)
      (creates : factory.run world = (plugin, created))
      (starts : plugin.init.run created = (.ok (), started))
      (rest : Made registry names started more after) :
      Made registry (name :: names) world (⟨name, plugin⟩ :: more) after

inductive Unmade (registry : Registry (StateM ω)) :
    List String → ω → WorkerError → ω → Prop where
  | unknown {name : String} {names : List String} {world : ω}
      (absent : registry.factories.get? name = none) :
      Unmade registry (name :: names) world (.unknownChecker name) world
  | failed {name : String} {names : List String} {factory : StateM ω (Plugin (StateM ω))}
      {plugin : Plugin (StateM ω)} {world created after : ω} {cause : WorkerError}
      (known : registry.factories.get? name = some factory)
      (creates : factory.run world = (plugin, created))
      (fails : plugin.init.run created = (.error cause, after)) :
      Unmade registry (name :: names) world (cause.asInitOf name) after
  | later {name : String} {names : List String} {factory : StateM ω (Plugin (StateM ω))}
      {plugin : Plugin (StateM ω)} {world created started after : ω} {cause : WorkerError}
      (known : registry.factories.get? name = some factory)
      (creates : factory.run world = (plugin, created))
      (starts : plugin.init.run created = (.ok (), started))
      (rest : Unmade registry names started cause after) :
      Unmade registry (name :: names) world cause after

theorem Made.names {names : List String} {world after : ω} {made : List (Hosted (StateM ω))}
    (all : Made registry names world made after) : made.map (·.name) = names := by
  induction all with
  | nil => rfl
  | cons _ _ _ _ ih => rw [List.map_cons, ih]

theorem asInitOfInit (name : String) (cause : WorkerError) :
    ∃ checker reason, cause.asInitOf name = .init checker reason := by
  cases cause <;> exact ⟨_, _, rfl⟩

theorem Unmade.cause {names : List String} {world after : ω} {cause : WorkerError}
    (some : Unmade registry names world cause after) :
    (∃ name, cause = .unknownChecker name) ∨ ∃ checker reason, cause = .init checker reason := by
  induction some with
  | unknown => exact .inl ⟨_, rfl⟩
  | failed => exact .inr (asInitOfInit _ _)
  | later _ _ _ _ ih => exact ih

theorem bindRun {α β : Type} {first : StateM ω α} {next : α → StateM ω β} {a : α} {world after : ω}
    (ran : first.run world = (a, after)) : (first >>= next).run world = (next a).run after := by
  rw [StateT.run_bind, ran]
  rfl

theorem createRun {name : String} {factory : StateM ω (Plugin (StateM ω))}
    {plugin : Plugin (StateM ω)} {world created : ω}
    (known : registry.factories.get? name = some factory)
    (creates : factory.run world = (plugin, created)) :
    (registry.create name).run world = (.ok plugin, created) := by
  rw [Registry.create, known, StateT.run_map, creates]
  rfl

theorem startAllRuns (registry : Registry (StateM ω)) (names : List String) (world : ω) :
    (∃ made after, (startAll registry names).run world = (.ok made, after) ∧
      Made registry names world made after) ∨
    ∃ cause after, (startAll registry names).run world = (.error cause, after) ∧
      Unmade registry names world cause after := by
  induction names generalizing world with
  | nil => exact .inl ⟨[], world, rfl, .nil world⟩
  | cons name names ih =>
    cases known : registry.factories.get? name with
    | none =>
      refine .inr ⟨.unknownChecker name, world, ?_, .unknown known⟩
      rw [startAll, Registry.create, known]
      rfl
    | some factory =>
      rcases creates : factory.run world with ⟨plugin, created⟩
      have first := createRun known creates
      rcases starts : plugin.init.run created with ⟨cause | ⟨⟩, started⟩
      · exact .inr ⟨cause.asInitOf name, started, (bindRun first).trans (bindRun starts),
          .failed known creates starts⟩
      · rcases ih started with ⟨made, after, all, rest⟩ | ⟨cause, after, some, rest⟩
        · exact .inl ⟨⟨name, plugin⟩ :: made, after,
            (bindRun first).trans ((bindRun starts).trans (bindRun all)),
            .cons known creates starts rest⟩
        · exact .inr ⟨cause, after, (bindRun first).trans ((bindRun starts).trans (bindRun some)),
            .later known creates starts rest⟩

structure Dealing (ω : Type) where
  call : Call CheckWork
  before : ω
  answer : Except WorkerError CheckAnswer
  after : ω

namespace Dealing

def starts (d : Dealing ω) : Bool :=
  match d.call, d.answer with
  | .init, .ok _ => true
  | _, _ => false

def set? (d : Dealing ω) : Option String :=
  match d.call, d.answer with
  | .work (.setActive name), .ok _ => some name
  | _, _ => none

end Dealing

/-- The calls to a host from its beginning, and what it is after them. Between two calls anything
may happen to the world. -/
inductive History (registry : Registry (StateM ω)) (names : List String) :
    List (Dealing ω) → Host (StateM ω) → Prop where
  | start : History registry names [] {}
  | call {past : List (Dealing ω)} {h host : Host (StateM ω)} (history : History registry names past h)
      (d : Dealing ω)
      (performed : (((worker registry names).perform d.call).run h).run d.before =
        ((d.answer, host), d.after)) :
      History registry names (past ++ [d]) host

def started? (past : List (Dealing ω)) : Option (Dealing ω) := past.find? Dealing.starts

def lastSet? (past : List (Dealing ω)) : Option String := (past.filterMap Dealing.set?).getLast?

/-- The call is passed on to the instance with the name that was set last. It is the first one with
this name of those that the first start made. -/
def Delegated (registry : Registry (StateM ω)) (names : List String) (past : List (Dealing ω))
    (d : Dealing ω) (ask : Plugin (StateM ω) → StateM ω (Except WorkerError CheckAnswer)) : Prop :=
  match lastSet? past with
  | none => d.answer = .error .noActiveChecker ∧ d.after = d.before
  | some name => ∃ start made plugin, started? past = some start ∧
      Made registry names start.before made start.after ∧
      made.find? (·.name = name) = some ⟨name, plugin⟩ ∧
      (ask plugin).run d.before = (d.answer, d.after)

/-- What a call does and answers, told from the calls before it. -/
def Fits (registry : Registry (StateM ω)) (names : List String) (past : List (Dealing ω))
    (d : Dealing ω) : Prop :=
  match d.call with
  | .init =>
    if (started? past).isSome then d.answer = .ok .done ∧ d.after = d.before
    else
      (∃ made, Made registry names d.before made d.after ∧ d.answer = .ok .done) ∨
      ∃ cause, Unmade registry names d.before cause d.after ∧ d.answer = .error cause ∧
        ((∃ name, cause = .unknownChecker name) ∨ ∃ checker reason, cause = .init checker reason)
  | .dispose => d.answer = .ok .done ∧ d.after = d.before
  | .work (.setActive name) =>
    d.after = d.before ∧
      d.answer = if (started? past).isSome ∧ name ∈ names then .ok .done
        else .error (.unknownChecker name)
  | .work (.check mutants) =>
    Delegated registry names past d fun plugin => Except.map .verdicts <$> plugin.check mutants
  | .work (.createGroups mutants) =>
    Delegated registry names past d fun plugin => Except.map .groups <$> plugin.createGroups mutants

section Past
variable {names : List String} {past : List (Dealing ω)} {h : Host (StateM ω)} {d : Dealing ω}

structure Keeps (registry : Registry (StateM ω)) (names : List String) (past : List (Dealing ω))
    (h : Host (StateM ω)) : Prop where
  bare : started? past = none → h.hosted = none
  hosted : ∀ start, started? past = some start →
    ∃ made, h.hosted = some made ∧ Made registry names start.before made start.after
  active : h.active = (lastSet? past).bind h.placeOf?
  placed : ∀ name, lastSet? past = some name → ∃ i, h.placeOf? name = some i

theorem startedMore (past : List (Dealing ω)) (d : Dealing ω) :
    started? (past ++ [d]) = (started? past).or (if d.starts then some d else none) := by
  rw [started?, started?, List.find?_append, List.find?_singleton]

theorem lastSetMore (past : List (Dealing ω)) (d : Dealing ω) :
    lastSet? (past ++ [d]) = d.set?.or (lastSet? past) := by
  rw [lastSet?, lastSet?, List.filterMap_append]
  cases set : d.set? <;> simp [set]

theorem Keeps.start : Keeps registry names [] {} where
  bare _ := rfl
  hosted _ none := by cases none
  active := rfl
  placed _ none := by cases none

theorem Keeps.placeOf (keeps : Keeps registry names past h) (name : String) :
    (∃ i, h.placeOf? name = some i) ↔ (started? past).isSome ∧ name ∈ names := by
  rw [← Option.isSome_iff_exists]
  cases found : started? past with
  | none => simp [placeOf?, keeps.bare found]
  | some start =>
    obtain ⟨made, here, all⟩ := keeps.hosted start found
    rw [placeOf?, here, Option.bind_some, List.findIdx?_isSome, ← all.names]
    simp

theorem Keeps.unset (keeps : Keeps registry names past h) (found : started? past = none) :
    lastSet? past = none := by
  cases set : lastSet? past with
  | none => rfl
  | some name =>
    have there := ((keeps.placeOf name).mp (keeps.placed name set)).1
    rw [found] at there
    cases there

theorem Keeps.answers (keeps : Keeps registry names past h) {name : String}
    (set : lastSet? past = some name) : ∃ start made plugin, started? past = some start ∧
      Made registry names start.before made start.after ∧
      made.find? (·.name = name) = some ⟨name, plugin⟩ ∧ h.activePlugin? = some plugin := by
  obtain ⟨i, place⟩ := keeps.placed name set
  obtain ⟨start, found⟩ :=
    Option.isSome_iff_exists.mp ((keeps.placeOf name).mp ⟨i, place⟩).1
  obtain ⟨made, here, all⟩ := keeps.hosted start found
  have active : h.active = some i := by rw [keeps.active, set, Option.bind_some, place]
  rw [placeOf?, here, Option.bind_some] at place
  obtain ⟨bound, named, -⟩ := List.findIdx?_eq_some_iff_getElem.mp place
  have first : made.find? (·.name = name) = some made[i] := by
    rw [List.find?_eq_bind_findIdx?_getElem?, place, Option.bind_some, List.getElem?_eq_getElem bound]
  obtain rfl : made[i].name = name := of_decide_eq_true named
  refine ⟨start, made, made[i].plugin, found, all, first, ?_⟩
  simp only [activePlugin?, here, active, Option.bind_eq_bind, Option.bind_some,
    List.getElem?_eq_getElem bound]
  rfl

section Steps

theorem Keeps.same (keeps : Keeps registry names past h)
    (started : started? (past ++ [d]) = started? past) (unset : d.set? = none) :
    Keeps registry names (past ++ [d]) h := by
  have set : lastSet? (past ++ [d]) = lastSet? past := by rw [lastSetMore, unset, Option.none_or]
  exact ⟨started ▸ keeps.bare, started ▸ keeps.hosted, set ▸ keeps.active, set ▸ keeps.placed⟩

theorem Keeps.silent (keeps : Keeps registry names past h) (idle : d.starts = false)
    (unset : d.set? = none) : Keeps registry names (past ++ [d]) h := by
  refine keeps.same ?_ unset
  rw [startedMore, idle]
  exact Option.or_none

theorem Keeps.made (keeps : Keeps registry names past h) (found : started? past = none)
    {made : List (Hosted (StateM ω))} {before after : ω}
    (all : Made registry names before made after) :
    Keeps registry names (past ++ [⟨.init, before, .ok .done, after⟩])
      { h with hosted := some made } := by
  have started : started? (past ++ [⟨.init, before, .ok .done, after⟩]) =
      some ⟨.init, before, .ok .done, after⟩ := by
    rw [startedMore, found]
    rfl
  have unset := keeps.unset found
  have set : lastSet? (past ++ [⟨.init, before, .ok .done, after⟩]) = none := by
    rw [lastSetMore, unset]
    rfl
  have idle : h.active = none := by rw [keeps.active, unset, Option.bind_none]
  refine ⟨fun none => ?_, fun start same => ?_, ?_, fun name some => ?_⟩
  · cases started.symm.trans none
  · cases started.symm.trans same
    exact ⟨made, rfl, all⟩
  · rw [set]
    exact idle
  · cases set.symm.trans some

theorem Keeps.set (keeps : Keeps registry names past h) {name : String} {i : Nat}
    (place : h.placeOf? name = some i) (world : ω) :
    Keeps registry names (past ++ [⟨.work (.setActive name), world, .ok .done, world⟩])
      { h with active := some i } := by
  have started : started? (past ++ [⟨.work (.setActive name), world, .ok .done, world⟩]) =
      started? past := by
    rw [startedMore]
    exact Option.or_none
  have set : lastSet? (past ++ [⟨.work (.setActive name), world, .ok .done, world⟩]) =
      some name := by
    rw [lastSetMore]
    rfl
  refine ⟨started ▸ keeps.bare, started ▸ keeps.hosted, ?_, fun other same => ?_⟩
  · rw [set, Option.bind_some]
    exact place.symm
  · cases set.symm.trans same
    exact ⟨i, place⟩

theorem mapRun {α β : Type} (f : α → β) {x : StateT (Host (StateM ω)) (StateM ω) α} {a : α}
    {host : Host (StateM ω)} {world after : ω} (ran : (x h).run world = ((a, host), after)) :
    ((f <$> x).run h).run world = ((f a, host), after) := by
  rw [StateT.run_map, StateT.run_map]
  exact congrArg (fun r => ((f r.1.1, r.1.2), r.2)) ran

theorem initAgain {hosted : List (Hosted (StateM ω))} (here : h.hosted = some hosted) (world : ω) :
    (((worker registry names).perform .init).run h).run world = ((.ok .done, h), world) := by
  have run : (init registry names h).run world = ((.ok (), h), world) := by
    rw [init, here]
    rfl
  exact mapRun _ run

theorem initMade (bare : h.hosted = none) {made : List (Hosted (StateM ω))} {world after : ω}
    (ran : (startAll registry names).run world = (.ok made, after)) :
    (((worker registry names).perform .init).run h).run world =
      ((.ok .done, { h with hosted := some made }), after) := by
  have run : (init registry names h).run world =
      ((.ok (), { h with hosted := some made }), after) := by
    rw [init, bare]
    exact bindRun ran
  exact mapRun _ run

theorem initUnmade (bare : h.hosted = none) {cause : WorkerError} {world after : ω}
    (ran : (startAll registry names).run world = (.error cause, after)) :
    (((worker registry names).perform .init).run h).run world = ((.error cause, h), after) := by
  have run : (init registry names h).run world = ((.error cause, h), after) := by
    rw [init, bare]
    exact bindRun ran
  exact mapRun _ run

theorem setActiveRuns {name : String} {result : Except WorkerError Unit} {host : Host (StateM ω)}
    (run : setActive name h = (result, host)) (world : ω) :
    ((worker registry names).setActive name h).run world = ((result, host), world) := by
  rw [← run]
  rfl

theorem delegateRuns {α : Type} (ask : Plugin (StateM ω) → StateM ω (Except WorkerError α))
    (h : Host (StateM ω)) (world : ω) :
    (delegate ask h).run world =
      match h.activePlugin? with
      | none => ((.error .noActiveChecker, h), world)
      | some plugin => ((((ask plugin).run world).1, h), ((ask plugin).run world).2) := by
  rw [delegate]
  cases h.activePlugin? <;> rfl

theorem Keeps.idle (keeps : Keeps registry names past h) (unset : lastSet? past = none) :
    h.activePlugin? = none := by
  have idle : h.active = none := by rw [keeps.active, unset, Option.bind_none]
  cases here : h.hosted <;> simp [activePlugin?, here, idle]

end Steps

theorem Keeps.delegated (keeps : Keeps registry names past h) {host : Host (StateM ω)} {α : Type}
    (call : Call CheckWork) (result : α → CheckAnswer)
    (ask : Plugin (StateM ω) → StateM ω (Except WorkerError α))
    {x : StateT (Host (StateM ω)) (StateM ω) (Except WorkerError α)} (asks : x h = delegate ask h)
    {answer : Except WorkerError CheckAnswer} {before after : ω}
    (performed : ((Except.map result <$> x).run h).run before = ((answer, host), after)) :
    (Delegated registry names past ⟨call, before, answer, after⟩ fun plugin =>
      Except.map result <$> ask plugin) ∧ host = h := by
  have run := delegateRuns ask h before
  rw [← asks] at run
  unfold Delegated
  cases set : lastSet? past with
  | none =>
    rw [keeps.idle set] at run
    cases performed.symm.trans (mapRun (Except.map result) run)
    exact ⟨⟨rfl, rfl⟩, rfl⟩
  | some name =>
    obtain ⟨start, made, plugin, found, all, first, active⟩ := keeps.answers set
    rw [active] at run
    cases performed.symm.trans (mapRun (Except.map result) run)
    refine ⟨⟨start, made, plugin, found, all, first, ?_⟩, rfl⟩
    rw [StateT.run_map]
    rfl

theorem Keeps.deals (keeps : Keeps registry names past h) {host : Host (StateM ω)}
    (performed : (((worker registry names).perform d.call).run h).run d.before =
      ((d.answer, host), d.after)) :
    Fits registry names past d ∧ Keeps registry names (past ++ [d]) host := by
  obtain ⟨call, before, answer, after⟩ := d
  dsimp only at performed
  cases call with
  | init =>
    cases found : started? past with
    | some start =>
      obtain ⟨made, here, -⟩ := keeps.hosted start found
      cases (initAgain here before).symm.trans performed
      refine ⟨?_, keeps.same ?_ rfl⟩
      · simp [Fits, found]
      · rw [startedMore, found, Option.some_or]
    | none =>
      have bare := keeps.bare found
      rcases startAllRuns registry names before with ⟨made, last, ran, all⟩ | ⟨cause, last, ran, some⟩
      · cases (initMade bare ran).symm.trans performed
        refine ⟨?_, keeps.made found all⟩
        unfold Fits
        rw [found]
        exact .inl ⟨made, all, rfl⟩
      · cases (initUnmade bare ran).symm.trans performed
        refine ⟨?_, keeps.silent rfl rfl⟩
        unfold Fits
        rw [found]
        exact .inr ⟨cause, some, rfl, some.cause⟩
  | dispose =>
    cases performed
    exact ⟨⟨rfl, rfl⟩, keeps.silent rfl rfl⟩
  | work w =>
    cases w with
    | setActive name =>
      unfold Fits
      cases place : h.placeOf? name with
      | some i =>
        have known := (keeps.placeOf name).mp ⟨i, place⟩
        have run : setActive name h = (.ok (), { h with active := some i }) := by
          rw [setActive, place]
        cases (mapRun _ (setActiveRuns run before)).symm.trans performed
        exact ⟨⟨rfl, (if_pos known).symm⟩, keeps.set place before⟩
      | none =>
        have unknown : ¬ ((started? past).isSome ∧ name ∈ names) := fun known => by
          obtain ⟨i, there⟩ := (keeps.placeOf name).mpr known
          cases place.symm.trans there
        have run : setActive name h = (.error (.unknownChecker name), h) := by
          rw [setActive, place]
        cases (mapRun _ (setActiveRuns run before)).symm.trans performed
        exact ⟨⟨rfl, (if_neg unknown).symm⟩, keeps.silent rfl rfl⟩
    | check mutants =>
      obtain ⟨fits, rfl⟩ := keeps.delegated _ .verdicts (·.check mutants) rfl performed
      exact ⟨fits, keeps.silent rfl rfl⟩
    | createGroups mutants =>
      obtain ⟨fits, rfl⟩ := keeps.delegated _ .groups (·.createGroups mutants) rfl performed
      exact ⟨fits, keeps.silent rfl rfl⟩

theorem History.keeps {dealings : List (Dealing ω)} (history : History registry names dealings h) :
    Keeps registry names dealings h := by
  induction history with
  | start => exact .start
  | call _ d performed ih => exact (ih.deals performed).2

end Past

/-- Every call of a history does what it has to after the calls before it. -/
theorem callsDelegated {names : List String} {dealings past later : List (Dealing ω)}
    {d : Dealing ω} {h : Host (StateM ω)} (history : History registry names dealings h)
    (split : dealings = past ++ d :: later) : Fits registry names past d := by
  induction history generalizing later with
  | start => cases past <;> cases split
  | call history last performed ih =>
    rcases List.eq_nil_or_concat later with rfl | ⟨more, final, rfl⟩
    · obtain ⟨rfl, same⟩ := List.append_inj' split rfl
      obtain rfl := List.singleton_inj.mp same
      exact (history.keeps.deals performed).1
    · rw [List.concat_eq_append, ← List.cons_append, ← List.append_assoc] at split
      exact ih (List.append_inj' split rfl).1

/-- Instances are numbered as they are made. The one with number 1 does not start, the others tell
their number. -/
def numbered : StateM Nat (Plugin (StateM Nat)) := fun n => (
  { init := pure (if n = 1 then .error (.rejected "no") else .ok ())
    check := fun _ => pure (.ok (.ofList []))
    createGroups := fun mutants => pure (.ok (some (List.replicate n mutants))) }, n + 1)

def numberedPair : Registry (StateM Nat) := .ofList [("a", numbered), ("b", numbered)]

def rehearsal : List (Dealing Nat) := [
  ⟨.init, 0, .error (.init "b" "no"), 2⟩,
  ⟨.work (.setActive "a"), 2, .error (.unknownChecker "a"), 2⟩,
  ⟨.init, 2, .ok .done, 5⟩,
  ⟨.work (.setActive "a"), 5, .ok .done, 5⟩,
  ⟨.init, 5, .ok .done, 5⟩,
  ⟨.work (.setActive "c"), 5, .error (.unknownChecker "c"), 5⟩]

theorem callsDelegatedNumbered :
    (∃ h, History numberedPair ["a", "b", "a"]
      (rehearsal ++ [⟨.work (.createGroups []), 5, .ok (.groups (some [[], []])), 5⟩]) h) ∧
    Fits numberedPair ["a", "b", "a"] rehearsal
      ⟨.work (.createGroups []), 5, .ok (.groups (some [[], []])), 5⟩ := by
  have fresh : History numberedPair ["a", "b", "a"] [] {} := .start
  have failed := (fresh.call ⟨.init, 0, .error (.init "b" "no"), 2⟩ rfl).call
    ⟨.work (.setActive "a"), 2, .error (.unknownChecker "a"), 2⟩ rfl
  have set := (failed.call ⟨.init, 2, .ok .done, 5⟩ rfl).call
    ⟨.work (.setActive "a"), 5, .ok .done, 5⟩ rfl
  have kept := (set.call ⟨.init, 5, .ok .done, 5⟩ rfl).call
    ⟨.work (.setActive "c"), 5, .error (.unknownChecker "c"), 5⟩ rfl
  have history := kept.call ⟨.work (.createGroups []), 5, .ok (.groups (some [[], []])), 5⟩ rfl
  exact ⟨⟨_, history⟩, callsDelegated history rfl⟩

end MutationPipeline.Host
