import MutationPipeline.Decimal
import MutationPipeline.Rehearsal.Shell.Syntax

/-!
Numbers as texts: how many digits stand behind the point can be chosen, a tie goes to the even
neighbour, and all is computed from the exact value of the double.
-/
namespace MutationPipeline.Rehearsal.Shell.Numeral

open Decimal

def pointed (places : Nat) (point : Bool) (digits : Octets) : Octets :=
  let digits := List.replicate (places + 1 - digits.length) '0' ++ digits
  let whole := digits.length - places
  digits.take whole ++ (if point || places ≠ 0 then ['.'] else []) ++ digits.drop whole

def digitsOf (n : Nat) : Octets := Nat.toDigits 10 n

def fixed (places : Nat) (point : Bool) (y : Binary) : Octets :=
  pointed places point (digitsOf (nearer y (-(places : Int))).d)

def significant (more : Nat) (y : Binary) : Octets × Int :=
  if y.m = 0 then (List.replicate (more + 1) '0', 0)
  else
    let lead := leadingExponent (y.m * Nat.pow 2 y.q.toNat) (Nat.pow 2 (-y.q).toNat)
    let x := nearer y (lead - more)
    if more + 1 < digitCount x.d then (digitsOf (nearer y (lead + 1 - more)).d, lead + 1)
    else (digitsOf x.d, lead)

def exponent (e : Int) : Octets :=
  let digits := digitsOf e.natAbs
  ['e', if e < 0 then '-' else '+'] ++ List.replicate (2 - digits.length) '0' ++ digits

def exponential (places : Nat) (point : Bool) (y : Binary) : Octets :=
  let (digits, e) := significant places y
  pointed places point digits ++ exponent e

def withoutZeros (o : Octets) : Octets :=
  if '.' ∈ o then
    let short := (o.reverse.dropWhile (· = '0')).reverse
    if short.getLast? = some '.' then short.dropLast else short
  else o

/-- A magnitude with so many digits in all, with an exponent only if it is very large or very
small. Zeros at the end are left out unless all is asked for. -/
def general (precision : Nat) (all : Bool) (y : Binary) : Octets :=
  let precision := max 1 precision
  let (digits, e) := significant (precision - 1) y
  let shorten (o : Octets) : Octets := if all then o else withoutZeros o
  if -4 ≤ e && e < precision then shorten (fixed (precision - 1 - e).toNat all y)
  else shorten (pointed (precision - 1) all digits) ++ exponent e

def isNegative (x : Float) : Bool := x.toBits >>> 63 = 1

def shown (kind : Char) (precision : Nat) (alternate : Bool) (x : Float) : Octets :=
  if x.isNaN then "nan".toList
  else if x.isInf then "inf".toList
  else
    let y := Binary.ofBits x.toBits
    match kind with
    | 'f' => fixed precision alternate y
    | 'e' => exponential precision alternate y
    | _ => general precision alternate y

/-! ### Reading -/

def float (text : Octets) : Float × Nat :=
  let blanks := (text.takeWhile fun c => c = ' ' || ('\t' ≤ c && c ≤ '\r')).length
  let rest := text.drop blanks
  let (minus, signs) := match rest with
    | '-' :: _ => (true, 1)
    | '+' :: _ => (false, 1)
    | _ => (false, 0)
  let rest := rest.drop signs
  let whole := rest.takeWhile Char.isDigit
  let behind := rest.drop whole.length
  let (places, point) := match behind with
    | '.' :: more => (more.takeWhile Char.isDigit, 1)
    | _ => ([], 0)
  let behind := behind.drop (places.length + point)
  let digits := whole ++ places
  if digits = [] then (0, 0)
  else
    let (e, n) : Int × Nat := match behind with
      | c :: more =>
        let (negative, k) := match more with
          | '-' :: _ => (true, 1)
          | '+' :: _ => (false, 1)
          | _ => (false, 0)
        let ds := (more.drop k).takeWhile Char.isDigit
        if c.toLower = 'e' ∧ ds ≠ [] then
          let m : Nat := min 9999 (((String.ofList ds).toNat?).getD 0)
          (if negative then -(m : Int) else m, ds.length + k + 1)
        else (0, 0)
      | [] => (0, 0)
    let scale := e - places.length
    let mantissa := ((String.ofList digits).toNat?).getD 0
    let x := Float.ofScientific mantissa (scale < 0) scale.natAbs
    (if minus then -x else x, blanks + signs + whole.length + places.length + point + n)

/-- The integer at the start of a text, and how many characters it takes; none if there is none. A
zero in front makes it octal, and an `x` behind that hexadecimal. -/
def integer? (text : Octets) : Option (Int × Nat) :=
  let blanks := (text.takeWhile fun c => c = ' ' || ('\t' ≤ c && c ≤ '\r')).length
  let rest := text.drop blanks
  let (minus, signs) := match rest with
    | '-' :: _ => (true, 1)
    | '+' :: _ => (false, 1)
    | _ => (false, 0)
  let rest := rest.drop signs
  let value (c : Char) : Nat := if c.isDigit then c.toNat - 48 else c.toLower.toNat - 87
  let isHex (c : Char) : Bool := c.isDigit || ('a' ≤ c.toLower && c.toLower ≤ 'f')
  let number (base : Nat) (p : Char → Bool) (skipped : Nat) : Option (Int × Nat) :=
    let digits := (rest.drop skipped).takeWhile p
    if digits = [] then none
    else
      let n : Nat := digits.foldl (fun n c => base * n + value c) 0
      some (if minus then -(n : Int) else n, blanks + signs + skipped + digits.length)
  match rest with
  | '0' :: x :: c :: _ =>
    if x.toLower = 'x' && isHex c then number 16 isHex 2
    else number 8 (fun c => '0' ≤ c && c ≤ '7') 0
  | '0' :: _ => number 8 (fun c => '0' ≤ c && c ≤ '7') 0
  | _ => number 10 Char.isDigit 0

end MutationPipeline.Rehearsal.Shell.Numeral

/-!
Writing formatted text: escapes with a backslash, and directives that take arguments. The two shells
and the programs beside them do not agree on all of it.
-/
namespace MutationPipeline.Rehearsal.Shell.Format

def natOf (digits : Octets) : Nat := (String.ofList digits).toNat?.getD 0

def int? (text : Octets) : Option Int := (String.ofList text).toInt?

def pad (left : Bool) (fill : Char) (width : Nat) (text : Octets) : Octets :=
  let filling := List.replicate (width - text.length) fill
  if left then text ++ filling else filling ++ text

inductive Manner where
  | sh
  | bash
  | program
  deriving DecidableEq, Repr

def Manner.ofDialect : Dialect → Manner
  | .sh => .sh
  | .bash => .bash

/-! ### Escapes -/

structure Escapes where
  zero : Bool := false
  bare : Bool := false
  hex : Bool := false
  characters : Bool := false
  quotes : List Char := []
  stop : Bool := false

namespace Escapes

def ofFormat : Manner → Escapes
  | .sh => { bare := true }
  | .bash => { bare := true, hex := true, characters := true, quotes := ['"', '\'', '?'] }
  | .program => { bare := true, hex := true, characters := true, quotes := ['"'], stop := true }

def ofArgument : Manner → Escapes
  | .sh => { zero := true, bare := true, stop := true }
  | .bash => { zero := true, bare := true, hex := true, characters := true,
               quotes := ['"', '\'', '?'], stop := true }
  | .program => { zero := true, bare := true, hex := true, characters := true, quotes := ['"'],
                  stop := true }

def ofEcho : Manner → Escapes
  | .sh => { zero := true, bare := true, stop := true }
  | .bash => { zero := true, hex := true, characters := true, stop := true }
  | .program => { zero := true, bare := true, hex := true, stop := true }

end Escapes

def plainEscapes : List (Char × Char) :=
  [('a', '\x07'), ('b', '\x08'), ('e', '\x1b'), ('f', '\x0c'), ('n', '\n'), ('r', '\r'),
    ('t', '\t'), ('v', '\x0b'), ('\\', '\\')]

def isOctal (c : Char) : Bool := '0' ≤ c && c ≤ '7'

def isHex (c : Char) : Bool := c.isDigit || ('a' ≤ c.toLower && c.toLower ≤ 'f')

def ofDigits (base : Nat) (digits : Octets) : Nat :=
  digits.foldl (fun n c =>
    base * n + if c.isDigit then c.toNat - 48 else c.toLower.toNat - 87) 0

def octal (digits : Octets) : Char := Char.ofNat (ofDigits 8 digits % 256)

def escape (e : Escapes) (text : Octets) : Octets × Nat :=
  match text with
  | [] => (['\\'], 0)
  | c :: rest =>
    let most := match c with
      | 'x' => if e.hex then 2 else 0
      | 'u' => if e.characters then 4 else 0
      | 'U' => if e.characters then 8 else 0
      | _ => 0
    let digits := (rest.take most).takeWhile isHex
    if e.zero && c = '0' then
      let digits := (rest.take 3).takeWhile isOctal
      ([octal digits], digits.length + 1)
    else if e.bare && isOctal c then
      let digits := (text.take 3).takeWhile isOctal
      ([octal digits], digits.length)
    else if digits ≠ [] then
      let n := ofDigits 16 digits
      (if c = 'x' then [Char.ofNat n] else Octets.ofText (String.singleton (Char.ofNat n)),
        digits.length + 1)
    else if c ∈ e.quotes then ([c], 1)
    else match plainEscapes.lookup c with
      | some d => ([d], 1)
      | none => (['\\'], 0)

def unescape (e : Escapes) (text : Octets) : Octets × Bool := go (text.length + 1) text
where
  go (fuel : Nat) (text : Octets) : Octets × Bool :=
    match fuel, text with
    | fuel + 1, '\\' :: rest =>
      if e.stop && rest.head? = some 'c' then ([], true)
      else
        let (meant, n) := escape e rest
        let (text, cut) := go fuel (rest.drop n)
        (meant ++ text, cut)
    | fuel + 1, c :: rest =>
      let (text, cut) := go fuel rest
      (c :: text, cut)
    | _, _ => ([], false)

def quoted (text : Octets) : Octets :=
  let isPlain (c : Char) : Bool := c.isAlphanum || c ∈ "%+,-./:=@_".toList || 127 < c.toNat
  let control (c : Char) : Bool := c.toNat < 32 || c.toNat = 127
  if text = [] then "''".toList
  else if text.any control then
    let letter (c : Char) : Octets :=
      if c = '\'' then ['\\', '\'']
      else match plainEscapes.find? fun p => p.2 = c with
        | some p => ['\\', if p.1 = 'e' then 'E' else p.1]
        | none =>
          if control c then '\\' :: pad false '0' 3 (Nat.toDigits 8 c.toNat) else [c]
    "$'".toList ++ text.flatMap letter ++ ['\'']
  else
    let body := text.flatMap fun c => if isPlain c then [c] else ['\\', c]
    match body with
    | '~' :: _ | '#' :: _ => '\\' :: body
    | _ => body

/-! ### Directives -/

inductive Size where
  | given (n : Nat)
  | taken
  deriving DecidableEq, Repr

inductive Directive where
  | text (o : Octets)
  | item (flags : List Char) (width : Size) (precision : Option Size) (kind : Char)
  | stop
  | wrong (o : Octets) (kind : Option Char)
  deriving DecidableEq, Repr

def kinds : Manner → List Char
  | .sh => "diuoxXcsbeEfFgGaA".toList
  | .bash => "diuoxXcsbqeEfFgGaA".toList
  | .program => "diuoxXcsbeEfFgGaA".toList

def directive (m : Manner) (text : Octets) : Directive × Nat :=
  let flags := text.takeWhile fun c => c ∈ ['-', '0', '+', ' ', '#']
  let size (text : Octets) : Size × Nat :=
    match text with
    | '*' :: _ => (.taken, 1)
    | text =>
      let digits := text.takeWhile Char.isDigit
      (.given (natOf digits), digits.length)
  let (width, n) := size (text.drop flags.length)
  let read := flags.length + n
  let (precision, n) := match text.drop read with
    | '.' :: rest => let (s, n) := size rest; (some s, n + 1)
    | _ => (none, 0)
  let read := read + n
  let lengths := if m = .sh then [] else (text.drop read).takeWhile fun c => c ∈ "hlLjzt".toList
  let read := read + lengths.length
  match (text.drop read).head? with
  | none => (.wrong ('%' :: text.take read) none, read)
  | some kind =>
    if kind ∈ kinds m then (.item flags width precision kind, read + 1)
    else (.wrong ('%' :: text.take (read + 1)) (some kind), read + 1)

def read (m : Manner) (text : Octets) : List Directive := go (text.length + 1) text
where
  go (fuel : Nat) (text : Octets) : List Directive :=
    match fuel, text with
    | fuel + 1, '%' :: '%' :: rest => .text ['%'] :: go fuel rest
    | fuel + 1, '%' :: rest =>
      let (d, n) := directive m rest
      d :: go fuel (rest.drop n)
    | fuel + 1, '\\' :: rest =>
      if (Escapes.ofFormat m).stop && rest.head? = some 'c' then [.stop]
      else
        let (meant, n) := escape (.ofFormat m) rest
        .text meant :: go fuel (rest.drop n)
    | fuel + 1, c :: rest => .text [c] :: go fuel rest
    | _, _ => []

/-! ### Arguments -/

inductive Piece where
  | text (o : Octets)
  | complaint (o : Octets)
  deriving DecidableEq, Repr

def largest : Int := Int.pow 2 63 - 1

def numberComplaint (m : Manner) (argument : Octets) (begun outside : Bool) : Octets :=
  let argument := if m = .program then ['\''] ++ argument ++ ['\''] else argument
  if outside then
    (if m = .bash then "warning: ".toList else []) ++ argument ++
      ": Numerical result out of range".toList
  else argument ++ (match m, begun with
    | .sh, true => ": not completely converted"
    | .sh, false => ": expected numeric value"
    | .bash, _ => ": invalid number"
    | .program, true => ": value not completely converted"
    | .program, false => ": expected a numeric value").toList

def characterOf? : Octets → Option Nat
  | '\'' :: c :: _ | '"' :: c :: _ => some c.toNat
  | ['\''] | ['"'] => some 0
  | _ => none

def integer (m : Manner) (argument : Octets) : Int × Option Octets :=
  match argument, characterOf? argument with
  | [], _ => (0, none)
  | _, some n => (n, none)
  | _, none =>
    match Numeral.integer? argument with
    | none => (0, some (numberComplaint m argument false false))
    | some (n, length) =>
      if n < -largest - 1 || largest < n then
        (max (-largest - 1) (min largest n), some (numberComplaint m argument true true))
      else (n, if length = argument.length then none
        else some (numberComplaint m argument true false))

def double (m : Manner) (argument : Octets) : Float × Option Octets :=
  match argument, characterOf? argument with
  | [], _ => (0, none)
  | _, some n => (n.toFloat, none)
  | _, none =>
    let (x, length) := Numeral.float argument
    (x, if length = argument.length then none
      else some (numberComplaint m argument (length ≠ 0) false))

def showInteger (flags : List Char) (width : Nat) (precision : Option Nat) (kind : Char) (n : Int) :
    Octets :=
  let isSigned := kind = 'd' || kind = 'i'
  let magnitude := if isSigned then n.natAbs else (n % Int.pow 2 64).toNat
  let digits := match kind with
    | 'x' => Nat.toDigits 16 magnitude
    | 'X' => (Nat.toDigits 16 magnitude).map Char.toUpper
    | 'o' => Nat.toDigits 8 magnitude
    | _ => Nat.toDigits 10 magnitude
  let digits := if magnitude = 0 ∧ precision = some 0 then [] else digits
  let digits := pad false '0' (precision.getD 0) digits
  let start := if isSigned then
      if n < 0 then ['-'] else if '+' ∈ flags then ['+'] else if ' ' ∈ flags then [' '] else []
    else if '#' ∈ flags && magnitude ≠ 0 then
      match kind with
      | 'x' => ['0', 'x']
      | 'X' => ['0', 'X']
      | 'o' => ['0']
      | _ => []
    else []
  let left := '-' ∈ flags
  if '0' ∈ flags && !left && precision.isNone then
    start ++ pad false '0' (width - start.length) digits
  else pad left ' ' width (start ++ digits)

def showDouble (flags : List Char) (width : Nat) (precision : Option Nat) (kind : Char) (x : Float) :
    Octets :=
  let body := Numeral.shown kind.toLower (precision.getD 6) ('#' ∈ flags) x
  let body := if kind.isUpper then body.map Char.toUpper else body
  let start := if Numeral.isNegative x then ['-'] else if '+' ∈ flags then ['+']
    else if ' ' ∈ flags then [' '] else []
  let left := '-' ∈ flags
  if '0' ∈ flags && !left && !(x.isNaN || x.isInf) then
    start ++ pad false '0' (width - start.length) body
  else pad left ' ' width (start ++ body)

def showItem (m : Manner) (flags : List Char) (width : Nat) (precision : Option Nat) (kind : Char)
    (argument : Octets) : Octets × Option Octets × Bool :=
  let left := '-' ∈ flags
  let cut (text : Octets) := match precision with
    | some n => text.take n
    | none => text
  if kind = 's' then (pad left ' ' width (cut argument), none, false)
  else if kind = 'q' then (pad left ' ' width (cut (quoted argument)), none, false)
  else if kind = 'b' then
    let (text, ended) := unescape (.ofArgument m) argument
    (pad left ' ' width (cut text), none, ended)
  else if kind = 'c' then
    (pad left ' ' width (if argument = [] then ['\x00'] else argument.take 1), none, false)
  else if kind ∈ "eEfFgGaA".toList then
    let (x, complaint) := double m argument
    (showDouble flags width precision kind x, complaint, false)
  else
    let (n, complaint) := integer m argument
    (showInteger flags width precision kind n, complaint, false)

def wrongDirective (m : Manner) (o : Octets) (kind : Option Char) : Octets × Nat :=
  match m, kind with
  | .sh, none => ("missing format character".toList, 2)
  | .sh, some _ => (o ++ ": invalid directive".toList, 2)
  | .bash, none => ("\x60%': missing format character".toList, 1)
  | .bash, some c => ('\x60' :: c :: "': invalid format character".toList, 1)
  | .program, _ => (o ++ ": invalid conversion specification".toList, 1)

structure Written where
  pieces : List Piece := []
  status : Nat := 0
  arguments : List Octets
  ended : Bool := false

def once (m : Manner) : List Directive → Written → Written
  | [], w => w
  | .text o :: rest, w => once m rest { w with pieces := w.pieces ++ [.text o] }
  | .stop :: _, w => { w with ended := true }
  | .wrong o kind :: _, w =>
    let (text, status) := wrongDirective m o kind
    { w with pieces := w.pieces ++ [.complaint text], status, ended := true }
  | .item flags width precision kind :: rest, w =>
    let sized (s : Size) (arguments : List Octets) : Int × List Octets :=
      match s with
      | .given n => (n, arguments)
      | .taken => ((integer m (arguments.headD [])).1, arguments.tail)
    let (width, arguments) := sized width w.arguments
    let flags := if width < 0 then '-' :: flags else flags
    let (precision, arguments) := match precision with
      | none => (none, arguments)
      | some s =>
        let (n, arguments) := sized s arguments
        (if n < 0 then none else some n.toNat, arguments)
    let (shown, complaint, ended) :=
      showItem m flags width.natAbs precision kind (arguments.headD [])
    let w := { w with
      pieces := w.pieces ++ (complaint.map Piece.complaint).toList ++ [.text shown]
      status := if complaint.isSome then 1 else w.status
      arguments := arguments.tail
      ended := ended }
    if ended then w else once m rest w

def write (m : Manner) (format : Octets) (arguments : List Octets) : Written :=
  let directives := read m format
  let takes := directives.any fun
    | .item .. => true
    | _ => false
  go directives takes arguments.length (once m directives { arguments })
where
  go (directives : List Directive) (takes : Bool) (fuel : Nat) (w : Written) : Written :=
    match fuel with
    | 0 => w
    | fuel + 1 =>
      if w.ended || !takes || w.arguments.isEmpty then w
      else go directives takes fuel (once m directives w)

end MutationPipeline.Rehearsal.Shell.Format
