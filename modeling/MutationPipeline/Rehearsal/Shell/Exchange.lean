import MutationPipeline.Rehearsal.Shell.Format
import MutationPipeline.Rehearsal.Shell.Inputs
import MutationPipeline.Rehearsal.Shell.Regex

/-!
Exchanging, deleting and squeezing characters. The characters are listed one by one, as ranges, by
their classes, or repeated.
-/
namespace MutationPipeline.Rehearsal.Shell.Exchange

open Execution

abbrev Listing := Except Octets

inductive Entry where
  | chars (cs : Octets)
  | class (name : String) (cs : Octets)
  | filling (c : Char)

def between (a b : Char) : Octets :=
  (List.range (b.toNat + 1 - a.toNat)).map fun n => Char.ofNat (a.toNat + n)

def char (text : Octets) : Char × Nat :=
  match text with
  | '\\' :: c :: rest =>
    if Format.isOctal c then
      let digits := ((c :: rest).take 3).takeWhile Format.isOctal
      (Format.octal digits, digits.length + 1)
    else ((Format.plainEscapes.lookup c).getD c, 2)
  | c :: _ => (c, 1)
  | [] => (' ', 0)

def entries (fuel : Nat) (text : Octets) : Listing (List Entry) :=
  match fuel, text with
  | fuel + 1, c :: rest =>
    match bracketed? text with
    | some found => do
      let (e, n) ← found
      return e :: (← entries fuel (text.drop n))
    | none => do
      let (a, n) := char (c :: rest)
      match text.drop n with
      | '-' :: d :: more =>
        let (b, k) := char (d :: more)
        if b < a then
          throw ("range-endpoints of '".toList ++ [a, '-', b] ++
            "' are in reverse collating sequence order".toList)
        return .chars (between a b) :: (← entries fuel ((d :: more).drop k))
      | rest => return .chars [a] :: (← entries fuel rest)
  | _, _ => return []
where
  bracketed? (text : Octets) : Option (Listing (Entry × Nat)) :=
    match text with
    | '[' :: ':' :: rest =>
      let name := rest.takeWhile (· ≠ ':')
      if ":]".toList.isPrefixOf (rest.drop name.length) then
        match Letter.classes.lookup (Octets.text name) with
        | some ranges =>
          some (.ok (.class (Octets.text name) (ranges.flatMap fun r => between r.1 r.2),
            name.length + 4))
        | none => some (.error ("invalid character class '".toList ++ name ++ ['\'']))
      else none
    | '[' :: c :: rest =>
      let (c, n) := char (c :: rest)
      match text.drop (n + 1) with
      | '*' :: more =>
        let digits := more.takeWhile Char.isDigit
        if (more.drop digits.length).head? = some ']' then
          let count := Format.natOf digits
          some (.ok (if count = 0 then .filling c else .chars (List.replicate count c),
            n + digits.length + 3))
        else none
      | _ => none
    | _ => none

def Entry.width : Entry → Nat
  | .chars cs | .class _ cs => cs.length
  | .filling _ => 0

def members (length : Nat) (es : List Entry) : Octets :=
  let open_ := length - (es.map Entry.width).foldl (· + ·) 0
  es.flatMap fun
    | .chars cs | .class _ cs => cs
    | .filling c => List.replicate open_ c

def complement (cs : Octets) : Octets :=
  ((List.range 256).map Char.ofNat).filter fun c => c ∉ cs

def squeeze (cs : Octets) : Octets → Octets
  | a :: b :: rest =>
    if a = b && a ∈ cs then squeeze cs (b :: rest) else a :: squeeze cs (b :: rest)
  | short => short

def exchange (old new : Octets) (c : Char) : Char :=
  match old.reverse.idxOf? c, new.getLast? with
  | some n, some last => new[old.length - 1 - n]?.getD last
  | _, _ => c

def options : Options where
  plain := ['c', 'C', 'd', 's', 't']
  long := [("complement", 'c'), ("delete", 'd'), ("squeeze-repeats", 's'), ("truncate-set1", 't')]

def miscounted (deletes squeezes : Bool) (lists : List Octets) : Option (Octets × Octets) :=
  let least := if deletes == squeezes then 2 else 1
  let most := if deletes && !squeezes then 1 else 2
  let why := if deletes then
      if squeezes then "Two strings must be given when both deleting and squeezing repeats."
      else "Only one string may be given when deleting without squeezing repeats."
    else "Two strings must be given when translating."
  if lists.isEmpty then some ("missing operand".toList, [])
  else if lists.length < least then
    some ("missing operand after '".toList ++ lists.getLastD [] ++ ['\''], why.toList)
  else match lists[most]? with
    | some extra => some ("extra operand '".toList ++ extra ++ ['\''],
        if most = 1 then why.toList else [])
    | none => none

def tr : Program := Program.withOptions "tr" { options with first := true } 1 fun g => do
  let deletes := g.has 'd'
  let squeezes := g.has 's'
  match miscounted deletes squeezes g.operands with
  | some (text, why) =>
    Program.say "tr" text
    if why ≠ [] then writeLine 2 why
    writeLine 2 "Try 'tr --help' for more information.".toList
    return 1
  | none =>
    match g.operands.mapM fun o => entries (o.length + 1) o with
    | .error text =>
      Program.say "tr" text
      return 1
    | .ok lists =>
      let first := members 0 (lists.headD [])
      let first := if g.has 'c' || g.has 'C' then complement first else first
      let second := members first.length (lists.getD 1 [])
      if lists.length = 2 && !deletes && second = [] then
        Program.say "tr" "when not truncating set1, string2 must be non-empty".toList
        return 1
      let text ← wholeInput
      let text := if deletes then text.filter (· ∉ first) else text
      let translates := lists.length = 2 && !deletes
      let first := if g.has 't' then first.take second.length else first
      let text := if translates then text.map (exchange first second) else text
      let kept := if lists.length = 2 then second else first
      write 1 (if squeezes then squeeze kept text else text)
      return 0

end MutationPipeline.Rehearsal.Shell.Exchange
