/-!
Doubles as decimals: the shortest one that reads back as the double, and the one with two places
after the point.

A double other than zero is m·2^q. The reals that round to it form an interval around it, whose
ends belong to it when m is even. Among the decimals d·10^p in that interval the one with the
fewest digits is chosen, of several the one nearest to the double, and of two equally near ones
the one with the even last digit. All comparisons are exact, in natural numbers.

Two places after the point round the exact value of the double; a tie goes to the even neighbour.
-/
namespace MutationPipeline.Decimal

structure Binary where
  m : Nat
  q : Int
  deriving DecidableEq, Repr

structure Tens where
  d : Nat
  p : Int
  deriving DecidableEq, Repr

def Binary.ofBits (bits : UInt64) : Binary :=
  let exponent := ((bits >>> 52) &&& 0x7ff).toNat
  let fraction := (bits &&& 0xfffffffffffff).toNat
  if exponent = 0 then ⟨fraction, -1074⟩ else ⟨fraction + Nat.pow 2 52, (exponent : Int) - 1075⟩

def compareTo (x : Tens) (y : Binary) : Ordering :=
  compare (x.d * Nat.pow 10 x.p.toNat * Nat.pow 2 (-y.q).toNat)
    (y.m * Nat.pow 2 y.q.toNat * Nat.pow 10 (-x.p).toNat)

/-- Four times the distance is used for the ends, so that the lower gap below a power of two,
which is half as wide, needs no fraction. -/
def Binary.lowEnd (y : Binary) : Binary :=
  if y.m = Nat.pow 2 52 ∧ y.q > -1074 then ⟨4 * y.m - 1, y.q - 2⟩ else ⟨4 * y.m - 2, y.q - 2⟩

def Binary.highEnd (y : Binary) : Binary := ⟨4 * y.m + 2, y.q - 2⟩

def readsBack (y : Binary) (x : Tens) : Bool :=
  let even := y.m % 2 = 0
  let low := compareTo x y.lowEnd
  let high := compareTo x y.highEnd
  (low = .gt || (even && low = .eq)) && (high = .lt || (even && high = .eq))

def digitCount (n : Nat) : Nat := (Nat.toDigits 10 n).length

def leadingExponent (num den : Nat) : Int :=
  if den ≤ num then (digitCount (num / den) : Int) - 1
  else -(digitCount ((den + num - 1) / num - 1) : Int)

def floorAt (y : Binary) (p : Int) : Nat :=
  (y.m * Nat.pow 2 y.q.toNat * Nat.pow 10 (-p).toNat) /
    (Nat.pow 2 (-y.q).toNat * Nat.pow 10 p.toNat)

/-- The neighbour on the grid of width 10^p that is nearer to the double, the even one of two
equally near ones. -/
def nearer (y : Binary) (p : Int) : Tens :=
  let low := floorAt y p
  match compareTo ⟨2 * low + 1, p⟩ ⟨y.m, y.q + 1⟩ with
  | .lt => ⟨low + 1, p⟩
  | .gt => ⟨low, p⟩
  | .eq => if low % 2 = 0 then ⟨low, p⟩ else ⟨low + 1, p⟩

def onGrid (y : Binary) (p : Int) : Option Tens :=
  let first := nearer y p
  let low : Tens := ⟨floorAt y p, p⟩
  let other : Tens := if first = low then ⟨low.d + 1, p⟩ else low
  if readsBack y first then some first else if readsBack y other then some other else none

/-- The shortest decimal of at most seventeen digits; seventeen always suffice. The first grid is
the one above the leading digit, where only the next power of ten can be found. -/
def shortest (y : Binary) : Tens :=
  if y.m = 0 then ⟨0, 0⟩ else
  let lead := leadingExponent (y.m * Nat.pow 2 y.q.toNat) (Nat.pow 2 (-y.q).toNat)
  let grids := (List.range 18).map fun (n : Nat) => lead + 1 - (n : Int)
  match grids.findSome? (onGrid y) with
  | some x => x
  | none => nearer y (lead - 16)

/-- The natural number nearest to num/den, the even one of two equally near ones. -/
def roundHalfEven (num den : Nat) : Nat :=
  let low := num / den
  match compare (2 * (num % den)) den with
  | .lt => low
  | .gt => low + 1
  | .eq => if low % 2 = 0 then low else low + 1

def hundredths (n : Nat) : String :=
  let places := n % 100
  toString (n / 100) ++ "." ++ (if places < 10 then "0" else "") ++ toString places

def twoPlaces (x : Float) : String :=
  let y := Binary.ofBits x.toBits
  hundredths (roundHalfEven (100 * y.m * Nat.pow 2 y.q.toNat) (Nat.pow 2 (-y.q).toNat))

end MutationPipeline.Decimal
