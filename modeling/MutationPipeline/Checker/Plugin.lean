import MutationPipeline.Checker.Work
import MutationPipeline.Text.Quoted

/-!
Checkers, and the workers that run them, as their callers see them. What a call does beside its
answer is up to the monad `m`.
-/
namespace MutationPipeline

/-- A checker: it is started, checks mutants together, and may know groups of its own. -/
structure Plugin (m : Type → Type) where
  init : m (Except WorkerError Unit)
  check : List Mutant → m (Except WorkerError Verdicts)
  createGroups : List Mutant → m (Except WorkerError (Option (List (List Mutant))))

structure CheckWorker (m : Type → Type) where
  init : m (Except WorkerError Unit)
  dispose : m (Except WorkerError Unit)
  setActive : String → m (Except WorkerError Unit)
  check : List Mutant → m (Except WorkerError Verdicts)
  createGroups : List Mutant → m (Except WorkerError (Option (List (List Mutant))))

def CheckWorker.perform [Functor m] (w : CheckWorker m) :
    Call CheckWork → m (Except WorkerError CheckAnswer)
  | .init => (Except.map fun _ => .done) <$> w.init
  | .dispose => (Except.map fun _ => .done) <$> w.dispose
  | .work (.setActive name) => (Except.map fun _ => .done) <$> w.setActive name
  | .work (.check mutants) => (Except.map .verdicts) <$> w.check mutants
  | .work (.createGroups mutants) => (Except.map .groups) <$> w.createGroups mutants

def CheckWorker.lift [MonadLiftT m n] (w : CheckWorker m) : CheckWorker n where
  init := liftM w.init
  dispose := liftM w.dispose
  setActive name := liftM (w.setActive name)
  check mutants := liftM (w.check mutants)
  createGroups mutants := liftM (w.createGroups mutants)

structure Registry (m : Type → Type) where
  factories : Keyed (m (Plugin m))

namespace Registry

variable {m : Type → Type}

def ofList (factories : List (String × m (Plugin m))) : Registry m := ⟨.ofList factories⟩

def contains (r : Registry m) (name : String) : Bool := r.factories.contains name

def names (r : Registry m) : List String := r.factories.keys

def create [Monad m] (r : Registry m) (name : String) : m (Except WorkerError (Plugin m)) :=
  match r.factories.get? name with
  | some factory => .ok <$> factory
  | none => pure (.error (.unknownChecker name))

def text (r : Registry m) : String :=
  "CheckerRegistry \x7b checkers: [" ++ ", ".intercalate (r.names.map Text.quoted) ++ "] \x7d"

end Registry

end MutationPipeline
