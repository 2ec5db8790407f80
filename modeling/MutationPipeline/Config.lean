import MutationPipeline.Json.Record
import MutationPipeline.Path

/-!
How a run is set up, and how its workers are shared out between checkers and test runners.
-/
namespace MutationPipeline

open Json

structure Config where
  /-- How many workers may be at work at once; none leaves it to the machine. -/
  concurrency : Option UInt64 := none
  checkers : List String := []
  timeoutFactor : Float := 1.5
  timeoutMs : UInt64 := 5000
  /-- How much more often a mutant may be reached than without it. It is high on purpose: a library
  that shrinks a failing case repeats it many times, which is no endless loop. -/
  hitLimitFactor : UInt64 := 100
  disableBail : Bool := false
  sandboxDir : Option String := none
  channelCapacity : UInt64 := 64

namespace Config

def codec : Codec Config :=
  ((Record.start Config.mk).defaulted "concurrency" none Codec.word64.option (·.concurrency)
    |>.defaulted "checkers" [] Codec.text.list (·.checkers)
    |>.defaulted "timeout_factor" 1.5 .double (·.timeoutFactor)
    |>.defaulted "timeout_ms" 5000 .word64 (·.timeoutMs)
    |>.defaulted "hit_limit_factor" 100 .word64 (·.hitLimitFactor)
    |>.defaulted "disable_bail" false .flag (·.disableBail)
    |>.defaulted "sandbox_dir" none Codec.text.option (·.sandboxDir)
    |>.defaulted "channel_capacity" 64 .word64 (·.channelCapacity)).codec

/-- Sets the channel capacity; a channel holds at least one mutant. -/
def withChannelCapacity (c : Config) (n : UInt64) : Config :=
  { c with channelCapacity := if n = 0 then 1 else n }

def sandboxFile (c : Config) (file : String) : String :=
  match c.sandboxDir with
  | some dir => Path.joined dir file
  | none => file

/-- The workers in total: as configured, at least one; else all processors but one, if there are
more than four. -/
def total (c : Config) (processors : Nat) : Nat :=
  match c.concurrency with
  | some n => max n.toNat 1
  | none => if processors > 4 then processors - 1 else max processors 1

end Config

/-- How many workers check and how many run tests at first. -/
structure Budget where
  checkers : Nat
  testRunners : Nat
  deriving DecidableEq, Repr

namespace Budget

/-- Shares out the workers. With checkers they get the larger half, and each side gets at least
one; without checkers all run tests. -/
def split (total : Nat) (hasCheckers : Bool) : Budget :=
  let total := max total 1
  if hasCheckers then ⟨(total + 1) / 2, max (total / 2) 1⟩ else ⟨0, total⟩

def ofConfig (c : Config) (processors : Nat) : Budget :=
  split (c.total processors) !c.checkers.isEmpty

end Budget

end MutationPipeline
