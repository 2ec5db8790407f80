import MutationPipeline.Rehearsal.Checkers
import MutationPipeline.Rehearsal.Turns

/-!
A stage by itself: its mutants are all there from the beginning, and there is room for all that it
sends on.
-/
namespace MutationPipeline.Rehearsal

abbrev StageScene := Scene HostCast StageView CheckAnswer

inductive Missing where
  | nothing
  | passed
  | failed
  | pool
  deriving DecidableEq, Repr

namespace StageScene

def ofMutants (capacity : Nat) (players : HostCast) (mutants : List CoveredMutant) :
    StageScene where
  state :=
    { input := { capacity := mutants.length, items := mutants, senders := 0 }
      passed := { capacity := mutants.length }
      failed := { capacity := mutants.length }
      site := { pool := .ofCapacity capacity } }
  players

def surroundings (hosted : List String) (plugins : PluginCast) : Surroundings StageScene :=
  Scene.surroundings (Site.onCrew.inside StageView.onSite)
    (playOf (HostCast.worker plugins.registry hosted))

def without (w : Surroundings StageScene) (s : StageScene) : Missing → StageScene
  | .nothing => s
  | .passed => { s with state := { s.state with passed := s.state.passed.dropReceiver } }
  | .failed => { s with state := { s.state with failed := s.state.failed.dropReceiver } }
  | .pool =>
    (w.play (Disposal.moves.on (StageView.onSite.inside Scene.onState)) patience .asking s).2

end StageScene

structure StageRun where
  scene : StageScene
  stage : Ending Stage (Except RunError Unit)

namespace StageRun

def stage? (r : StageRun) : Option Stage :=
  match r.stage with
  | .waiting stage => some stage
  | _ => none

def moves (plan : StagePlan) (lane : Option Nat) (r : StageRun) : List StageRun :=
  match r.stage? with
  | none => []
  | some stage =>
    stage.movesOf plan r.scene.state lane
      ((((Stage.moves plan).on Scene.onState) stage r.scene).map fun
        | (scene, .go stage) => ⟨scene, .waiting stage⟩
        | (scene, .done outcome) => ⟨scene, .done outcome⟩
        | (scene, .panicked) => ⟨scene, .panicked⟩)

def room (channel : Nat) (v : StageView) : Option Nat :=
  let free {α : Type} (c : Channel α) : Option Nat :=
    if c.receiving then some (c.capacity - c.items.length) else none
  if channel = 0 then free v.failed else free v.passed

def troupe (w : Surroundings StageScene) (plan : StagePlan) : Troupe StageRun where
  surroundings :=
    { attend := fun r => { r with scene := w.attend r.scene }
      next? := fun r => w.next? r.scene
      jump := fun moment r => { r with scene := w.jump moment r.scene } }
  isOver _ r := r.stage?.isNone
  awaits _ r := (r.stage?.bind Stage.awaited?).isSome
  flightTokens _ r := (r.stage?.map Stage.flightTokens).getD []
  dealing _ lane r :=
    (r.stage?.map (Stage.dealing plan (· ∈ r.scene.mail.arrived) 1 lane)).getD .nothing
  moves _ := moves plan
  room channel r := room channel r.scene.state
  signs before after :=
    (before.scene.state.site.pool.permits.served after.scene.state.site.pool.permits).map
      fun _ => .call .self
  arrived r := r.scene.mail.arrived

def play (w : Surroundings StageScene) (plan : StagePlan) (scene : StageScene) :
    Ending Stage (Except RunError Unit) × StageScene :=
  let r := (troupe w plan).play 0 ⟨scene, .waiting (.draining [])⟩
  (r.stage, r.scene)

end StageRun

end MutationPipeline.Rehearsal
