import MutationPipeline.Json.Value
import MutationPipeline.Decimal

/-!
Writing a document. The compact form has no gaps. The laid-out form puts every item and every
member on a line of its own, two spaces deeper than its container; an empty container stays on one
line. In the sorted form the members of every object are in the order of their keys' code points.
-/
namespace MutationPipeline.Json

def hexDigit (n : Nat) : Char :=
  if n < 10 then Char.ofNat ('0'.toNat + n) else Char.ofNat ('a'.toNat + (n - 10))

def escape (c : Char) : List Char :=
  match c with
  | '"' => ['\\', '"']
  | '\\' => ['\\', '\\']
  | '\n' => ['\\', 'n']
  | '\r' => ['\\', 'r']
  | '\t' => ['\\', 't']
  | c =>
    if c.toNat = 8 then ['\\', 'b']
    else if c.toNat = 12 then ['\\', 'f']
    else if c.toNat < 0x20 then
      ['\\', 'u', '0', '0', hexDigit (c.toNat / 16), hexDigit (c.toNat % 16)]
    else [c]

def quoted (s : String) : List Char := '"' :: (s.toList.flatMap escape ++ ['"'])

/-- Digits with the point after the first `before` of them; at least one digit stands on each side
of the point. -/
def pointed (digits : List Char) (before : Int) : List Char :=
  if before ≤ 0 then ['0', '.'] ++ List.replicate (-before).toNat '0' ++ digits
  else
    let n := before.toNat
    let whole := digits.take n ++ List.replicate (n - digits.length) '0'
    let part := digits.drop n
    whole ++ ['.'] ++ (if part = [] then ['0'] else part)

/-- A double with the digits of the shortest decimal. From 10^-5 on and below 10^16 it is written
with a point, else with one digit before the point and a signed exponent. What is no number is
written as `null`. -/
def float (x : Float) : List Char :=
  let bits := x.toBits
  if x.isNaN || x.isInf then "null".toList else
  let sign := if bits >>> 63 = 0 then [] else ['-']
  let y := Decimal.shortest (Decimal.Binary.ofBits bits)
  let digits := Nat.toDigits 10 y.d
  let before := y.p + digits.length
  if y.d = 0 then sign ++ ['0', '.', '0']
  else if -5 < before && before ≤ 16 then sign ++ pointed digits before
  else
    let mantissa := match digits with
      | [d] => [d]
      | d :: rest => d :: '.' :: rest
      | [] => []
    let e := before - 1
    sign ++ mantissa ++ ['e', if e < 0 then '-' else '+'] ++ Nat.toDigits 10 e.natAbs

def numeral : Numeral → List Char
  | .natural n => Nat.toDigits 10 n
  | .negative n => '-' :: Nat.toDigits 10 n
  | .real x => float x
  | .tooLarge => "null".toList

mutual

def chars : Json → List Char
  | .null => "null".toList
  | .bool b => if b then "true".toList else "false".toList
  | .number n => numeral n
  | .string text => quoted (text.getD "")
  | .array items _ => '[' :: charsItems items
  | .object members _ => '\x7b' :: charsMembers members
  | .broken => "null".toList

def charsItems : List Json → List Char
  | [] => [']']
  | [item] => item.chars ++ [']']
  | item :: rest => item.chars ++ ',' :: charsItems rest

def charsMembers : List (Option String × Json) → List Char
  | [] => ['\x7d']
  | [(key, value)] => quoted (key.getD "") ++ ':' :: (value.chars ++ ['\x7d'])
  | (key, value) :: rest => quoted (key.getD "") ++ ':' :: (value.chars ++ ',' :: charsMembers rest)

end

def compact (j : Json) : String := String.ofList j.chars

def newLine (depth : Nat) : List Char := '\n' :: List.replicate (2 * depth) ' '

mutual

def layout (depth : Nat) : Json → List Char
  | .array [] _ => ['[', ']']
  | .array items _ => '[' :: (layoutItems (depth + 1) items ++ newLine depth ++ [']'])
  | .object [] _ => ['\x7b', '\x7d']
  | .object members _ => '\x7b' :: (layoutMembers (depth + 1) members ++ newLine depth ++ ['\x7d'])
  | j => j.chars

def layoutItems (depth : Nat) : List Json → List Char
  | [] => []
  | [item] => newLine depth ++ item.layout depth
  | item :: rest => newLine depth ++ item.layout depth ++ ',' :: layoutItems depth rest

def layoutMembers (depth : Nat) : List (Option String × Json) → List Char
  | [] => []
  | [(key, value)] => newLine depth ++ quoted (key.getD "") ++ ':' :: ' ' :: value.layout depth
  | (key, value) :: rest =>
    newLine depth ++ quoted (key.getD "") ++ ':' :: ' ' :: (value.layout depth ++
      ',' :: layoutMembers depth rest)

end

def pretty (j : Json) : String := String.ofList (j.layout 0)

def insertMember (key : Option String) (value : Json) :
    List (Option String × Json) → List (Option String × Json)
  | [] => [(key, value)]
  | (k, v) :: rest =>
    if key.getD "" < k.getD "" then (key, value) :: (k, v) :: rest
    else if key = k then (key, value) :: rest
    else (k, v) :: insertMember key value rest

mutual

/-- The document with the members of every object in the order of their keys. Of the members
with one key the last stays. -/
def sorted : Json → Json
  | .array items complete => .array (sortedItems items) complete
  | .object members complete => .object (sortedMembers members []) complete
  | j => j

def sortedItems : List Json → List Json
  | [] => []
  | item :: rest => item.sorted :: sortedItems rest

def sortedMembers : List (Option String × Json) → List (Option String × Json) →
    List (Option String × Json)
  | [], done => done
  | (key, value) :: rest, done => sortedMembers rest (insertMember key value.sorted done)

end

end MutationPipeline.Json
