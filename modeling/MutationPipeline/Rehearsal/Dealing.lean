import MutationPipeline.Pipeline.Role

/-!
What the next move of an activity deals with.

Most moves concern the activity alone. Others take something that it shares: an item from a
channel, room in one, a permit, a worker that may be replaced by others, an answer that took time.
-/
namespace MutationPipeline.Rehearsal

inductive Dealing where
  | nothing
  | claim
  | receipt (channel : Nat)
  | sending (channel : Nat)
  | share
  | study
  deriving DecidableEq, Repr

namespace Dealing

def isRationed : Dealing → Bool
  | .nothing => false
  | _ => true

def cost : Dealing → Nat
  | .nothing | .claim => 0
  | _ => 1

end Dealing

abbrev Slow := Nat → Bool

end MutationPipeline.Rehearsal

namespace MutationPipeline

open Rehearsal (Dealing Slow)

variable {W V σ α φ ρ : Type}

def Calling.dealing (slow : Slow) (guarded : Bool) : Calling W → Dealing
  | .ready .. => if guarded then .share else .nothing
  | .waiting token => if slow token then .share else .nothing

def Renewal.dealing (slow : Slow) : Renewal W → Dealing
  | .replacing => .share
  | .disposing _ c | .starting c => c.dealing slow false

def Recovery.dealing (slow : Slow) (restores : Bool) : Recovery W → Dealing
  | .first c => c.dealing slow false
  | .renewing r => r.dealing slow
  | .restoring _ c => c.dealing slow true
  | .second c => c.dealing slow !restores

def Handling.dealing (slow : Slow) (recovers : Bool) : Handling W → Dealing
  | .starting => if recovers then .share else .nothing
  | .direct c => c.dealing slow false
  | .recovering restore r => r.dealing slow restore.isSome

def Creation.dealing (slow : Slow) (guarded : Bool) : Creation W → Dealing
  | .starting _ c | .clearing _ c => c.dealing slow guarded
  | _ => .nothing

def Acquisition.dealing (slow : Slow) (guarded : Bool) : Acquisition W → Dealing
  | .asking => .claim
  | .waiting _ => .share
  | .creating _ c => c.dealing slow guarded
  | _ => .nothing

def Filling.dealing (slow : Slow) (guarded : Bool) : Filling W → Dealing
  | .counting => .nothing
  | .creating members =>
    ((Member.phases members).head?.map (Creation.dealing slow guarded)).getD .nothing

def Disposal.dealing (slow : Slow) (guarded : Bool) : Disposal W → Dealing
  | .asking => .claim
  | .waiting .. => .share
  | .disposing (some c) _ _ => c.dealing slow guarded
  | _ => .nothing

def Activation.dealing (slow : Slow) (guarded : Bool) : Activation → Dealing
  | .remembering => .nothing
  | .calling c => c.dealing slow guarded

def Running.dealing (slow : Slow) : Running → Dealing
  | .handling h => h.dealing slow true
  | .replacing r => r.dealing slow

namespace Schedule

def feedDealing (slow : Slow) (guarded : Bool) (more : Dealing) (f : Schedule W α φ ρ) : Dealing :=
  match f.feed with
  | .open [] => more
  | .acquiring _ a _ => a.dealing slow guarded
  | _ => .nothing

def flightDealing (work : φ → Dealing) (f : Schedule W α φ ρ) (i : Nat) : Dealing :=
  match f.flights[i]? with
  | some (.working _ _ _ p) => work p
  | _ => .nothing

def dealing (slow : Slow) (guarded : Bool) (more : Dealing) (work : φ → Dealing)
    (f : Schedule W α φ ρ) : Option Nat → Dealing
  | none => f.feedDealing slow guarded more
  | some i => f.flightDealing work i

/-- Of all moves, those of the stream or of one item in flight. An item whose worker is on its way
back has all of them. The last move of all is the stream's. -/
def movesOf (plan : Plan W V σ α φ ρ) (f : Schedule W α φ ρ) (s : σ) (lane : Option Nat)
    (all : List β) : List β :=
  let feeding := (f.feedMoves plan s).length
  let flying := (List.range f.flights.length).map fun i => (f.flightMoves plan i s).length
  match f.landing?, lane with
  | some i, lane => if lane = some i then all else []
  | none, none => if f.flights.isEmpty then all else all.take feeding
  | none, some i => (all.drop (feeding + (flying.take i).foldl (· + ·) 0)).take (flying.getD i 0)

def flightTokens (work : φ → List Nat) (f : Schedule W α φ ρ) : List (List Nat) :=
  f.flights.map fun
    | .working _ _ _ p => work p
    | _ => []

end Schedule

namespace Stage

def dealing (plan : StagePlan) (slow : Slow) (place : Nat) (lane : Option Nat) : Stage → Dealing
  | .draining _ => .receipt place
  | .filling _ f => f.dealing slow plan.staffing.recovers
  | .activating _ b =>
    (b.phases.head?.map (Activation.dealing slow plan.staffing.recovers)).getD .nothing
  | .borrowing _ a => a.dealing slow plan.staffing.recovers
  | .asking _ _ c => c.dealing slow plan.staffing.recovers
  | .grouping _ own => if own.isNone && plan.byFiles.isSome then .study else .nothing
  | .checking f =>
    f.dealing slow plan.staffing.recovers .nothing
      (Handling.dealing slow plan.staffing.recovers) lane
  | .routing (m :: _) verdicts _ =>
    match verdicts.get? m.id with
    | none => .nothing
    | some verdict => .sending (if verdict.isPassed then place + 1 else 0)
  | _ => .nothing

def awaited? : Stage → Option GroupSchedule
  | .checking f => some f
  | _ => none

def flightTokens : Stage → List (List Nat)
  | .checking f | .routing _ _ f => f.flightTokens Handling.tokens
  | _ => []

def movesOf (plan : StagePlan) (stage : Stage) (v : StageView) (lane : Option Nat)
    (all : List β) : List β :=
  match stage.awaited? with
  | some f => f.movesOf (schedulePlan plan) v lane all
  | none => if lane.isNone then all else []

end Stage

namespace Role

def dealing (checkSlow runSlow : Slow) (place : Nat) (lane : Option Nat) : Role → Dealing
  | .ignoring [] => .nothing
  | .ignoring (m :: _) => .sending (if m.status = some .ignored then 0 else place + 1)
  | .checking plan stage => stage.dealing plan checkSlow place lane
  | .releasing _ (.forwarding none) => .receipt place
  | .releasing _ (.forwarding (some _)) => .sending (place + 1)
  | .releasing _ (.disposing d) => d.dealing checkSlow true
  | .releasing _ .growing => .nothing
  | .covering none => .receipt place
  | .covering (some m) => .sending (if m.isUncovered then 0 else place + 1)
  | .testing _ (.running g) =>
    g.dealing runSlow true (.receipt place) (Running.dealing runSlow) lane
  | .testing _ (.reporting ..) => .sending 0

def awaits : Role → Bool
  | .checking _ stage => stage.awaited?.isSome
  | .testing _ (.running _) => true
  | _ => false

def flightTokens : Role → List (List Nat)
  | .checking _ stage => stage.flightTokens
  | .testing _ (.running g) | .testing _ (.reporting _ g) => g.flightTokens Running.tokens
  | _ => []

def movesOf (place : Nat) (role : Role) (f : Floor) (lane : Option Nat) (all : List β) : List β :=
  match role with
  | .checking plan stage => stage.movesOf plan ((Floor.onStage place).get f) lane all
  | .testing planOf (.running g) => g.movesOf (testPlan planOf place) f lane all
  | _ => if lane.isNone then all else []

end Role

end MutationPipeline
