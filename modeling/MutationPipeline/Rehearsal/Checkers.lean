import MutationPipeline.Checker.Host
import MutationPipeline.Rehearsal.Clock

/-!
Checkers of a rehearsal: workers that follow a script of their own, and scripted plugins for
workers that host them.
-/
namespace MutationPipeline.Rehearsal

abbrev Acting (E : Type) := OptionT (StateM E)

def Acting.outcome (value : α → V) (act : Acting E (Except WorkerError α)) :
    StateM E (Outcome V) := do
  match ← act.run with
  | some (.ok x) => return .ok (value x)
  | some (.error e) => return .failed e
  | none => return .panicked

def playOf (worker : Nat → CheckWorker (Acting E)) : Play E CheckWork CheckAnswer :=
  fun _ n call => return { outcome := ← Acting.outcome id ((worker n).perform call) }

/-! ### Workers with scripts -/

structure CheckScript where
  init : List (Option WorkerError) := []
  dispose : List (Option WorkerError) := []
  setActive : List (Option WorkerError) := []
  checks : List (Reaction CheckAnswer) := []
  groups : List (Reaction CheckAnswer) := []
  active : Option String := none

instance : Inhabited CheckScript := ⟨{}⟩

namespace CheckScript

def otherwise (worker : Nat) (active : Option String) (mutants : List Mutant) : Verdicts :=
  let reason := toString worker ++ " " ++ active.getD "-"
  .ofList (mutants.map fun m => (m.id, ⟨.passed, some reason⟩))

def takeNextOf (worker : Nat) : Call CheckWork → CheckScript → Reaction CheckAnswer × CheckScript
  | .init, s =>
    let (failure, init) := takeNext s.init
    ({ outcome := outcomeOf .done failure.join }, { s with init })
  | .dispose, s =>
    let (failure, dispose) := takeNext s.dispose
    ({ outcome := outcomeOf .done failure.join }, { s with dispose })
  | .work (.setActive name), s =>
    let (failure, setActive) := takeNext s.setActive
    ({ outcome := outcomeOf .done failure.join },
      { s with setActive, active := if failure.join.isNone then some name else s.active })
  | .work (.check mutants), s =>
    let (reaction, checks) := takeNext s.checks
    (reaction.getD { outcome := .ok (.verdicts (otherwise worker s.active mutants)) },
      { s with checks })
  | .work (.createGroups _), s =>
    let (reaction, groups) := takeNext s.groups
    (reaction.getD { outcome := .ok (.groups none) }, { s with groups })

def play : Play (Cast CheckScript) CheckWork CheckAnswer := fun _ worker call =>
  Cast.take worker (takeNextOf worker call)

/-- A scripted worker for a caller that calls directly. What happens to it is kept; a call that
never ends is a breakdown. -/
def worker (n : Nat) : CheckWorker (Acting (Cast CheckScript × List (Event CheckWork))) where
  init := (Except.map fun _ => ()) <$> call .init
  dispose := (Except.map fun _ => ()) <$> call .dispose
  setActive name := (Except.map fun _ => ()) <$> call (.work (.setActive name))
  check mutants := (Except.map CheckAnswer.verdictsOf) <$> call (.work (.check mutants))
  createGroups mutants := (Except.map CheckAnswer.groupsOf) <$> call (.work (.createGroups mutants))
where
  call (c : Call CheckWork) :
      Acting (Cast CheckScript × List (Event CheckWork)) (Except WorkerError CheckAnswer) := do
    let (cast, events) ← get
    let (reaction, cast) := play 0 n c cast
    set (cast, events ++ [Event.called n c])
    match reaction.delay, reaction.outcome with
    | some _, .ok answer => return .ok answer
    | some _, .failed e => return .error e
    | _, _ => failure

end CheckScript

/-! ### Plugins with scripts -/

structure PluginScript where
  name : String
  init : List (Option WorkerError) := []
  verdicts : List (String × Verdict) := []
  otherwise : Verdict := .passed
  skip : List String := []
  errors : List (String × List (Option WorkerError)) := []
  panics : List String := []
  groups : Except WorkerError (Option (List (List String))) := .ok none

structure PluginCast where
  scripts : List PluginScript
  checks : List (String × List String) := []

namespace PluginScript

def takeError (id : String) (s : PluginScript) : Option WorkerError × PluginScript :=
  let (failure, rest) := takeNext ((s.errors.lookup id).getD [])
  (failure.join, { s with errors := (id, rest) :: s.errors.filter fun e => e.1 ≠ id })

def visit : List Mutant → PluginScript → Option (Option WorkerError) × PluginScript
  | [], s => (some none, s)
  | m :: rest, s =>
    if m.id ∈ s.panics then (none, s)
    else
      match takeError m.id s with
      | (some e, s) => (some (some e), s)
      | (none, s) => visit rest s

def verdictsFor (s : PluginScript) (mutants : List Mutant) : Verdicts :=
  .ofList ((mutants.filter fun m => m.id ∉ s.skip).map fun m =>
    (m.id, (s.verdicts.lookup m.id).getD s.otherwise))

def named (id : String) : Mutant := { id, fileName := "" }

end PluginScript

namespace PluginCast

def take (place : Nat) (otherwise : α) (f : PluginScript → α × PluginScript) :
    StateM PluginCast α := fun cast =>
  match cast.scripts[place]? with
  | some s =>
    let (x, s) := f s
    (x, { cast with scripts := cast.scripts.set place s })
  | none => (otherwise, cast)

def plugin (place : Nat) (name : String) : Plugin (Acting PluginCast) where
  init := OptionT.lift do
    let failure ← take place none fun s =>
      let (failure, init) := takeNext s.init
      (failure.join, { s with init })
    return match failure with
      | some e => .error e
      | none => .ok ()
  check mutants := do
    modify fun cast => { cast with checks := cast.checks ++ [(name, mutants.map (·.id))] }
    match ← OptionT.lift (take place (some none) (PluginScript.visit mutants)) with
    | none => failure
    | some (some e) => return .error e
    | some none =>
      return .ok (← OptionT.lift (take place .empty fun s => (s.verdictsFor mutants, s)))
  createGroups _ := OptionT.lift do
    return (← take place (.ok none) fun s => (s.groups, s)).map fun groups =>
      groups.map fun gs => gs.map fun g => g.map PluginScript.named

def registry (cast : PluginCast) : Registry (Acting PluginCast) :=
  .ofList (cast.scripts.zipIdx.map fun (s, place) => (s.name, pure (plugin place s.name)))

end PluginCast

structure HostCast where
  plugins : PluginCast
  hosts : Nat → Host (Acting PluginCast) := fun _ => {}
  disposals : List (Option WorkerError) := []

namespace HostCast

def act (n : Nat) (call : StateT (Host (Acting PluginCast)) (Acting PluginCast) α) :
    Acting HostCast α := fun cast =>
  match (call (cast.hosts n)).run cast.plugins with
  | (some (x, host), plugins) =>
    (some x, { cast with plugins, hosts := fun k => if k = n then host else cast.hosts k })
  | (none, plugins) => (none, { cast with plugins })

def worker (registry : Registry (Acting PluginCast)) (names : List String) (n : Nat) :
    CheckWorker (Acting HostCast) :=
  let w := Host.worker registry names
  { init := act n w.init
    dispose := do
      let cast ← get
      let (failure, disposals) := takeNext cast.disposals
      set { cast with disposals }
      match failure.join with
      | some e => return .error e
      | none => act n w.dispose
    setActive := fun name => act n (w.setActive name)
    check := fun mutants => act n (w.check mutants)
    createGroups := fun mutants => act n (w.createGroups mutants) }

end HostCast

end MutationPipeline.Rehearsal
