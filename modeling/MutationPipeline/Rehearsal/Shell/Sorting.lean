import MutationPipeline.Rehearsal.Shell.Format
import MutationPipeline.Rehearsal.Shell.Inputs

/-!
Sorting lines, and finding lines that are repeated.

Lines are compared by their keys, one after the other, and at last as they are. Equal ones stay in
their order.
-/
namespace MutationPipeline.Rehearsal.Shell.Sorting

open Execution

def isBlank (c : Char) : Bool := c = ' ' || c = '\t'

/-! ### Comparing -/

structure Amount where
  digits : Int
  places : Nat := 0
  unit : Nat := 0
  deriving DecidableEq, Repr

def Amount.ofText (text : Octets) : Amount :=
  let text := text.dropWhile isBlank
  let (minus, text) := match text with
    | '-' :: rest => (true, rest)
    | rest => (false, rest)
  let whole := text.takeWhile Char.isDigit
  let behind := text.drop whole.length
  let places := match behind with
    | '.' :: rest => rest.takeWhile Char.isDigit
    | _ => []
  let after := behind.drop (if places = [] then 0 else places.length + 1)
  let n : Nat := Format.natOf (whole ++ places)
  { digits := if minus then -n else n
    places := places.length
    unit := ("KMGTPEZY".toList.idxOf? ((after.head?.map Char.toUpper).getD ' ')).elim 0 (· + 1) }

def Amount.compare (a b : Amount) : Ordering :=
  Ord.compare (a.digits * Int.pow 10 b.places) (b.digits * Int.pow 10 a.places)

def Amount.compareWithUnits (a b : Amount) : Ordering :=
  let rank (x : Amount) : Int := if x.digits = 0 then 0 else if x.digits < 0 then -(x.unit + 1 : Int)
    else x.unit + 1
  (Ord.compare (rank a) (rank b)).then (a.compare b)

def compareText : Octets → Octets → Ordering
  | [], [] => .eq
  | [], _ => .lt
  | _, [] => .gt
  | a :: as, b :: bs => (Ord.compare a.toNat b.toNat).then (compareText as bs)

def compareVersions (fuel : Nat) (a b : Octets) : Ordering :=
  match fuel, a, b with
  | _, [], [] => .eq
  | _, [], _ => .lt
  | _, _, [] => .gt
  | 0, _, _ => .eq
  | fuel + 1, x :: as, y :: bs =>
    if x.isDigit && y.isDigit then
      let m := a.takeWhile Char.isDigit
      let n := b.takeWhile Char.isDigit
      (Ord.compare (Format.natOf m) (Format.natOf n)).then
        (compareVersions fuel (a.drop m.length) (b.drop n.length))
    else
      let rank (c : Char) : Nat := if c.isDigit then 0 else if c.isAlpha then c.toNat
        else c.toNat + 256
      (Ord.compare (rank x) (rank y)).then (compareVersions fuel as bs)

def compareBy (letters : List Char) (a b : Octets) : Ordering :=
  let prepared (o : Octets) : Octets :=
    let o := if 'b' ∈ letters then o.dropWhile isBlank else o
    let o := if 'd' ∈ letters then o.filter fun c => c.isAlphanum || isBlank c else o
    let o := if 'i' ∈ letters then o.filter fun c => 32 ≤ c.toNat && c.toNat < 127 else o
    if 'f' ∈ letters then o.map Char.toUpper else o
  let order :=
    if 'n' ∈ letters then (Amount.ofText a).compare (.ofText b)
    else if 'h' ∈ letters then (Amount.ofText a).compareWithUnits (.ofText b)
    else if 'g' ∈ letters then
      let x := (Numeral.float a).1
      let y := (Numeral.float b).1
      if x < y then .lt else if y < x then .gt else .eq
    else if 'V' ∈ letters then compareVersions (a.length + b.length + 1) a b
    else compareText (prepared a) (prepared b)
  if 'r' ∈ letters then order.swap else order

/-! ### Keys -/

structure Spot where
  field : Nat
  char : Nat := 0
  deriving DecidableEq, Repr

structure Key where
  start : Spot
  finish : Option Spot := none
  letters : List Char := []

def behindFields (delimiter : Option Char) : Nat → Octets → Octets
  | 0, line => line
  | n + 1, line =>
    match delimiter with
    | some d => behindFields delimiter n ((line.dropWhile (· ≠ d)).drop 1)
    | none => behindFields delimiter n ((line.dropWhile isBlank).dropWhile (!isBlank ·))

def Key.part (delimiter : Option Char) (k : Key) (line : Octets) : Octets :=
  let skip (o : Octets) : Octets := if 'b' ∈ k.letters then o.dropWhile isBlank else o
  let rest := (skip (behindFields delimiter (k.start.field - 1) line)).drop (k.start.char - 1)
  match k.finish with
  | none => rest
  | some spot =>
    let left :=
      if spot.char ≠ 0 then
        (skip (behindFields delimiter (spot.field - 1) line)).length - spot.char
      else match delimiter with
        | some d =>
          ((behindFields delimiter (spot.field - 1) line).dropWhile (· ≠ d)).length
        | none => (behindFields delimiter spot.field line).length
    rest.take (rest.length - left)

def spot? (o : Octets) : Option (Spot × List Char) :=
  let field := o.takeWhile Char.isDigit
  let rest := o.drop field.length
  let (char, rest) := match rest with
    | '.' :: more => let n := more.takeWhile Char.isDigit; (Format.natOf n, more.drop n.length)
    | _ => (0, rest)
  if field = [] || !rest.all (· ∈ "bdfghinrV".toList) then none
  else some (⟨Format.natOf field, char⟩, rest)

def key (o : Octets) : Except Octets Key :=
  let (start, finish) := o.span (· ≠ ',')
  match spot? start, finish with
  | none, _ =>
    .error ("invalid number at field start: invalid count at start of '".toList ++ o ++ ['\''])
  | some (⟨0, _⟩, _), _ =>
    .error ("field number is zero: invalid field specification '".toList ++ o ++ ['\''])
  | some (s, letters), [] => .ok { start := s, letters }
  | some (s, letters), _ :: finish =>
    match spot? finish with
    | some (f, more) => .ok { start := s, finish := some f, letters := letters ++ more }
    | none =>
      .error ("invalid number after ',': invalid count at start of '".toList ++ finish ++ ['\''])

def compareKeys (delimiter : Option Char) (keys : List Key) (letters : List Char)
    (a b : Octets) : Ordering :=
  if keys.isEmpty then compareBy letters a b
  else keys.foldl (fun order k =>
    let ls := if k.letters.isEmpty then letters else k.letters
    order.then (compareBy ls (k.part delimiter a) (k.part delimiter b))) .eq

def options : Options where
  plain := "bdfghinrVucCmsz".toList
  valued := ['k', 't', 'o', 'S', 'T']
  long := [("unique", 'u'), ("reverse", 'r'), ("numeric-sort", 'n'), ("ignore-case", 'f'),
    ("key", 'k'), ("field-separator", 't'), ("output", 'o'), ("stable", 's'), ("check", 'c'),
    ("version-sort", 'V'), ("human-numeric-sort", 'h'), ("general-numeric-sort", 'g')]

def distinct (equal : Octets → Octets → Bool) : List Octets → List Octets
  | [] => []
  | a :: rest =>
    match distinct equal rest with
    | b :: more => if equal a b then a :: more else a :: b :: more
    | [] => [a]

def sort : Program := Program.withOptions "sort" options 2 fun g => do
  match (g.values 'k').mapM key with
  | .error text =>
    Program.say "sort" text
    return 2
  | .ok keys =>
    let letters := (g.options.map (·.1)).filter (· ∈ "bdfghinrV".toList)
    let delimiter := (g.value? 't').bind fun o => if o = ['\\', '0'] then some '\x00' else o.head?
    let complaint (path : Octets) (cause : String) : Octets :=
      if cause = aDirectory then "sort: read failed: ".toList ++ path ++ (": " ++ cause).toList
      else "sort: cannot read: ".toList ++ path ++ (": " ++ cause).toList
    let (text, all) ← textOf complaint g.operands
    if !all then return 2
    let lines := (linesOf text).map (·.1)
    let byKeys := compareKeys delimiter keys letters
    let order (a b : Octets) : Ordering :=
      if g.has 's' || g.has 'u' then byKeys a b
      else (byKeys a b).then (if 'r' ∈ letters then compareText b a else compareText a b)
    if g.has 'c' || g.has 'C' then
      let pairs := lines.zip (lines.drop 1)
      match pairs.findIdx? fun p => order p.1 p.2 = .gt || (g.has 'u' && order p.1 p.2 = .eq) with
      | none => return 0
      | some n =>
        let name := g.operands.headD ownInput
        if g.has 'c' then
          Program.say "sort" (name ++ [':'] ++ Octets.ofNat (n + 2) ++ ": disorder: ".toList ++
            lines.getD (n + 1) [])
        return 1
    let sorted := lines.mergeSort fun a b => order a b ≠ .gt
    let shown := if g.has 'u' then distinct (fun a b => byKeys a b = .eq) sorted else sorted
    let out := joinLines (shown.map fun l => (l, true))
    match g.value? 'o' with
    | some path => putFile path.text out
    | none => write 1 out
    return 0

/-! ### Repeated lines -/

def uniqKey (g : Given) (line : Octets) : Octets :=
  let number (c : Char) : Option Nat := (g.value? c).map Format.natOf
  let rest := (behindFields none ((number 'f').getD 0) line).drop ((number 's').getD 0)
  let rest := match number 'w' with
    | some n => rest.take n
    | none => rest
  if g.has 'i' then rest.map Char.toLower else rest

def groups (key : Octets → Octets) : List Octets → List (List Octets)
  | [] => []
  | a :: rest =>
    match groups key rest with
    | (b :: more) :: others =>
      if key a = key b then (a :: b :: more) :: others else [a] :: (b :: more) :: others
    | others => [a] :: others

def uniq : Program := Program.withOptions "uniq"
  { plain := ['c', 'd', 'u', 'i', 'D', 'z'], valued := ['f', 's', 'w']
    long := [("count", 'c'), ("repeated", 'd'), ("unique", 'u'), ("ignore-case", 'i'),
      ("skip-fields", 'f'), ("skip-chars", 's'), ("check-chars", 'w')] } 1 fun g => do
  if let extra :: _ := g.operands.drop 2 then
    return ← Program.refer "uniq" 1 ("extra operand '".toList ++ extra ++ ['\''])
  let complaint (path : Octets) (cause : String) : Octets :=
    if cause = aDirectory then unopened "uniq" path cause else naming "uniq" path cause
  let (text, all) ← textOf complaint (g.operands.take 1)
  let mut out : Octets := []
  for lines in groups (uniqKey g) ((linesOf text).map (·.1)) do
    let repeated := 1 < lines.length
    if !(g.has 'd' && !repeated) && !(g.has 'u' && repeated) then
      let count := if g.has 'c' then
          Format.pad false ' ' 7 (Octets.ofNat lines.length) ++ [' ']
        else []
      if g.has 'D' then
        if repeated then out := out ++ joinLines (lines.map fun l => (l, true))
      else out := out ++ count ++ lines.headD [] ++ ['\n']
  match g.operands[1]? with
  | some path => putFile path.text out
  | none => write 1 out
  return statusOf all

end MutationPipeline.Rehearsal.Shell.Sorting
