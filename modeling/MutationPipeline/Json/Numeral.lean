import MutationPipeline.Json.Value

/-!
Numerals: a sign, digits, perhaps a fraction, perhaps an exponent.

The significand is the number its digits spell, as long as it stays below 2^64. A digit of the
integer part that would lead beyond it counts as one more power of ten; with the first digit after
the point that would lead beyond it, the remaining digits are ignored. The value is the significand
as a double, multiplied by or divided by one power of ten, or divided by several if the exponent is
below every power. It may therefore differ from the nearest double in its last place.
-/
namespace MutationPipeline.Json

def wordLimit : Nat := Nat.pow 2 64

def exponentLimit : Nat := Nat.pow 2 31 - 1

def powerOfTen (n : Nat) : Float := Float.ofScientific 1 false n

/-- Divides a significand by 10^n. Each further division is by the largest power; once nothing is
left, nothing more is divided. -/
def divideByPower (x : Float) (n : Nat) : Float :=
  if n ≤ 308 then x / powerOfTen n
  else if x == 0 then x
  else divideByPower (x / powerOfTen 308) (n - 308)
termination_by n

def scaled (significand : Nat) (exponent : Int) : Option Float :=
  let x := (UInt64.ofNat significand).toFloat
  if exponent < 0 then some (divideByPower x exponent.natAbs)
  else if exponent ≤ 308 then
    let y := x * powerOfTen exponent.toNat
    if y.isInf then none else some y
  else if x == 0 then some x else none

def digitValue (c : Char) : Nat := c.toNat - '0'.toNat

def takeDigits : List Char → List Char × List Char
  | [] => ([], [])
  | c :: rest =>
    if c.isDigit then
      let more := takeDigits rest
      (c :: more.1, more.2)
    else ([], c :: rest)

def gatherInteger : List Char → Nat → Nat × Nat
  | [], n => (n, 0)
  | c :: rest, n =>
    let m := 10 * n + digitValue c
    if m < wordLimit then gatherInteger rest m else (n, rest.length + 1)

def gatherFraction : List Char → Nat → Nat × Nat
  | [], n => (n, 0)
  | c :: rest, n =>
    let m := 10 * n + digitValue c
    if m < wordLimit then
      let more := gatherFraction rest m
      (more.1, more.2 + 1)
    else (n, 0)

def gatherExponent : List Char → Nat → Option Nat
  | [], n => some n
  | c :: rest, n =>
    let m := 10 * n + digitValue c
    if m ≤ exponentLimit then gatherExponent rest m else none

structure NumeralText where
  negative : Bool
  integer : List Char
  fraction : Option (List Char)
  exponent : Option (Bool × List Char)

def NumeralText.value (t : NumeralText) : Numeral :=
  let signed (x : Option Float) : Numeral :=
    match x with
    | some y => Numeral.real (if t.negative then -y else y)
    | none => .tooLarge
  let (whole, beyond) := gatherInteger t.integer 0
  let (significand, places) := gatherFraction (t.fraction.getD []) whole
  let power : Int := (beyond : Int) - places
  match t.exponent with
  | some (down, digits) =>
    match gatherExponent digits 0 with
    | none => if significand ≠ 0 && !down then .tooLarge else signed (some 0)
    | some e => signed (scaled significand (if down then power - e else power + e))
  | none =>
    if t.fraction.isNone && beyond = 0 then
      if !t.negative then .natural whole
      else if whole = 0 || whole > Nat.pow 2 63 then signed (scaled whole 0)
      else .negative whole
    else signed (scaled significand power)

def readNumeral (text : List Char) : Option (NumeralText × List Char) := do
  let (minus, text) := match text with
    | '-' :: rest => (true, rest)
    | _ => (false, text)
  let (integer, text) := takeDigits text
  match integer with
  | [] => none
  | '0' :: _ :: _ => none
  | _ =>
  let (fraction, text) ← match text with
    | '.' :: rest =>
      let (digits, rest) := takeDigits rest
      if digits = [] then none else some (some digits, rest)
    | _ => some (none, text)
  let (exponent, text) ← match text with
    | 'e' :: rest => readExponent rest
    | 'E' :: rest => readExponent rest
    | _ => some (none, text)
  some (⟨minus, integer, fraction, exponent⟩, text)
where
  readExponent (text : List Char) : Option (Option (Bool × List Char) × List Char) :=
    let (down, text) := match text with
      | '+' :: rest => (false, rest)
      | '-' :: rest => (true, rest)
      | _ => (false, text)
    let (digits, text) := takeDigits text
    if digits = [] then none else some (some (down, digits), text)

end MutationPipeline.Json
