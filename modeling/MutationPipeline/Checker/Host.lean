import MutationPipeline.Checker.Plugin

/-!
A worker that hosts checkers in its own process.

When it is started it makes one instance of each of its checkers and starts them in order; the
first failure ends that, and nothing is hosted then. Once it hosts, starting it again does nothing.
Calls go to the first instance that carries the name set last.
-/
namespace MutationPipeline

structure Hosted (m : Type → Type) where
  name : String
  plugin : Plugin m

structure Host (m : Type → Type) where
  hosted : Option (List (Hosted m)) := none
  active : Option Nat := none

def WorkerError.asInitOf (checker : String) : WorkerError → WorkerError
  | .init checker reason => .init checker reason
  | e => .init checker e.message

namespace Host

variable {m : Type → Type} [Monad m]

def startAll (registry : Registry m) : List String → m (Except WorkerError (List (Hosted m)))
  | [] => pure (.ok [])
  | name :: rest => do
    match ← registry.create name with
    | .error e => pure (.error e)
    | .ok plugin =>
      match ← plugin.init with
      | .error e => pure (.error (e.asInitOf name))
      | .ok _ => return (← startAll registry rest).map (⟨name, plugin⟩ :: ·)

def init (registry : Registry m) (names : List String) (h : Host m) :
    m (Except WorkerError Unit × Host m) :=
  match h.hosted with
  | some _ => pure (.ok (), h)
  | none => do
    match ← startAll registry names with
    | .ok hosted => pure (.ok (), { h with hosted := some hosted })
    | .error e => pure (.error e, h)

omit [Monad m] in
def placeOf? (h : Host m) (name : String) : Option Nat :=
  h.hosted.bind fun hosted => hosted.findIdx? fun x => x.name = name

omit [Monad m] in
def setActive (name : String) (h : Host m) : Except WorkerError Unit × Host m :=
  match h.placeOf? name with
  | some i => (.ok (), { h with active := some i })
  | none => (.error (.unknownChecker name), h)

omit [Monad m] in
def activePlugin? (h : Host m) : Option (Plugin m) := do
  let hosted ← h.hosted
  let i ← h.active
  return (← hosted[i]?).plugin

def delegate (call : Plugin m → m (Except WorkerError α)) (h : Host m) :
    m (Except WorkerError α × Host m) :=
  match h.activePlugin? with
  | some plugin => (·, h) <$> call plugin
  | none => pure (.error .noActiveChecker, h)

def worker (registry : Registry m) (names : List String) : CheckWorker (StateT (Host m) m) where
  init := init registry names
  dispose := pure (.ok ())
  setActive name h := pure (setActive name h)
  check mutants := delegate (·.check mutants)
  createGroups mutants := delegate (·.createGroups mutants)

end Host

end MutationPipeline
