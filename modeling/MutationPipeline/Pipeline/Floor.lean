import MutationPipeline.Checker.Stage
import MutationPipeline.Runner.Work

/-!
What the tasks of a run share: the channels between them, the channel of results, and the two pools
of workers.
-/
namespace MutationPipeline

structure Floor where
  results : Channel MutantResult
  /-- The channel in front of each task, in the order of the tasks. -/
  links : List (Channel CoveredMutant)
  checkers : CheckSite
  runners : RunSite
  notes : List Note := []

namespace Floor

def note (f : Floor) (n : Note) : Floor := { f with notes := f.notes ++ [n] }

def noLink : Channel CoveredMutant := { capacity := 0, senders := 0, receiving := false }

def link (f : Floor) (place : Nat) : Channel CoveredMutant := f.links.getD place noLink

def setLink (place : Nat) (c : Channel CoveredMutant) (f : Floor) : Floor :=
  { f with links := f.links.set place c }

def input (place : Nat) : Part Floor (Channel CoveredMutant) :=
  ⟨(·.link place), setLink place⟩

def output (place : Nat) : Part Floor (Channel CoveredMutant) :=
  ⟨(·.link (place + 1)), setLink (place + 1)⟩

def onResults : Part Floor (Channel MutantResult) :=
  ⟨(·.results), fun results f => { f with results }⟩

def onCheckers : Part Floor CheckSite := ⟨(·.checkers), fun checkers f => { f with checkers }⟩

def onRunners : Part Floor RunSite := ⟨(·.runners), fun runners f => { f with runners }⟩

def onStage (place : Nat) : Part Floor StageView where
  get f := ⟨f.link place, f.link (place + 1), f.results, f.checkers⟩
  set v f :=
    { setLink (place + 1) v.passed (setLink place v.input f) with
      results := v.failed, checkers := v.site }

/-- Sends an item, or fails because nobody receives it any more. -/
def send (channel : Part Floor (Channel α)) (name : String) (x : α) (f : Floor) :
    List (Floor × Except RunError Unit) :=
  ((channel.get f).send x).map fun (c, taken) =>
    (channel.set c f, if taken then .ok () else .error (.channelClosed name))

def receive (channel : Part Floor (Channel α)) (f : Floor) : List (Floor × Option α) :=
  (channel.get f).receive.map fun (c, x) => (channel.set c f, x)

end Floor

end MutationPipeline
