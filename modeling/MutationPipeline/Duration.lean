/-!
Lengths of time.
-/
namespace MutationPipeline

structure Duration where
  nanos : Nat
  deriving DecidableEq, Repr

namespace Duration

def ofMillis (n : Nat) : Duration := ⟨n * Nat.pow 10 6⟩

/-- The length in seconds: the whole seconds and the rest are turned to doubles one by one. -/
def seconds (d : Duration) : Float :=
  Float.ofNat (d.nanos / Nat.pow 10 9) +
    Float.ofNat (d.nanos % Nat.pow 10 9) / Float.ofNat (Nat.pow 10 9)

/-- The digits of a fraction with as many places as its denominator has zeros, without the zeros
at its end. -/
def places (count n : Nat) : List Char :=
  let digits := Nat.toDigits 10 n
  let padded := List.replicate (count - digits.length) '0' ++ digits
  (padded.reverse.dropWhile (· = '0')).reverse

/-- A number of small units as a decimal in the unit that is `10 ^ count` times as large. -/
def inUnits (count n : Nat) (name : String) : String :=
  let fraction := places count (n % Nat.pow 10 count)
  toString (n / Nat.pow 10 count) ++
    (if fraction.isEmpty then "" else "." ++ String.ofList fraction) ++ name

def text (d : Duration) : String :=
  if d.nanos ≥ Nat.pow 10 9 then inUnits 9 d.nanos "s"
  else if d.nanos ≥ Nat.pow 10 6 then inUnits 6 d.nanos "ms"
  else if d.nanos ≥ Nat.pow 10 3 then inUnits 3 d.nanos "µs"
  else toString d.nanos ++ "ns"

end Duration

end MutationPipeline
