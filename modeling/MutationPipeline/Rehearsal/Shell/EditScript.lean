import MutationPipeline.Rehearsal.Shell.Format
import MutationPipeline.Rehearsal.Shell.Regex

/-!
Editing scripts: commands that are applied to each line of an input, perhaps only to chosen lines.
-/
namespace MutationPipeline.Rehearsal.Shell.Editing

structure Search where
  regex : Option Regex
  folded : Bool := false

inductive Address where
  | line (n : Nat)
  | last
  | found (s : Search)
  | every (first step : Nat)

inductive Finish where
  | at (a : Address)
  | after (n : Nat)
  | multiple (n : Nat)

inductive Selector where
  | all
  | one (a : Address)
  | range (a : Address) (f : Finish)

inductive Casing where
  | asIs
  | upper
  | lower
  deriving DecidableEq, Repr

inductive Piece where
  | text (o : Octets)
  | group (n : Nat)
  | casing (c : Casing)
  | once (c : Casing)
  deriving DecidableEq, Repr

structure Substitution where
  search : Search
  pieces : List Piece
  everywhere : Bool := false
  number : Nat := 1
  shown : Bool := false
  file : Option Octets := none

inductive Jump where
  | always
  | ifReplaced
  | ifNotReplaced
  deriving DecidableEq, Repr

inductive Action where
  | block (length : Nat)
  | nothing
  | label (name : Octets)
  | jump (when : Jump) (target : Octets)
  | replace (s : Substitution)
  | exchange (old new : Octets)
  | append (text : Octets)
  | insert (text : Octets)
  | change (text : Octets)
  | delete
  | deleteFirst
  | next
  | join
  | print
  | printFirst
  | number
  | keep (adding : Bool)
  | fetch (adding : Bool)
  | swap
  | empty
  | describe
  | quit (status : Nat) (silent : Bool)
  | readFile (path : Octets)
  | writeFile (path : Octets) (first : Bool)

structure Command where
  selector : Selector
  negated : Bool
  action : Action

/-! ### Reading -/

structure Flaw where
  place : Nat
  text : String

structure Rest where
  text : Octets
  read : Nat := 0
  extended : Bool := false

abbrev Reading := StateT Rest (Except Flaw)

def advance (n : Nat) : Reading Unit := modify fun r =>
  { r with text := r.text.drop n, read := r.read + min n r.text.length }

def fail (text : String) : Reading α := do throw ⟨(← get).read, text⟩

def peek : Reading (Option Char) := return (← get).text.head?

def take (p : Char → Bool) : Reading Octets := do
  let o := (← get).text.takeWhile p
  advance o.length
  return o

def skipBlanks : Reading Unit := discard (take fun c => c = ' ' || c = '\t')

def number : Reading Nat := return Format.natOf (← take Char.isDigit)

/-- Text up to a delimiter, which is read too. A delimiter between brackets is none, and one behind a
backslash stands for itself. -/
def delimited (delimiter : Char) (brackets : Bool) : Octets → Option (Octets × Nat) := go false
where
  go (inside : Bool) : Octets → Option (Octets × Nat)
    | [] => none
    | '\\' :: c :: rest =>
      let kept := if c = delimiter && !inside then [c]
        else if c = '\n' then ['\\', 'n'] else ['\\', c]
      (go inside rest).map fun (o, n) => (kept ++ o, n + 2)
    | '[' :: ']' :: rest =>
      if brackets && !inside then
        (go true rest).map fun (o, n) => ('[' :: ']' :: o, n + 2)
      else if delimiter = '[' then some ([], 1)
      else (go inside (']' :: rest)).map fun (o, n) => ('[' :: o, n + 1)
    | c :: rest =>
      if c = delimiter && !inside then some ([], 1)
      else
        let inside := if !brackets then false else if c = '[' then true
          else if c = ']' then false else inside
        (go inside rest).map fun (o, n) => (c :: o, n + 1)
  termination_by o => o.length

def takeDelimited (delimiter : Char) (brackets : Bool) (missing : String) : Reading Octets := do
  match delimited delimiter brackets (← get).text with
  | some (o, n) =>
    advance n
    return o
  | none =>
    advance (← get).text.length
    fail missing

def withCodes (text : Octets) : Octets :=
  match text with
  | '\\' :: 'x' :: a :: b :: rest =>
    if Format.isHex a && Format.isHex b then
      Char.ofNat (Format.ofDigits 16 [a, b]) :: withCodes rest
    else '\\' :: 'x' :: withCodes (a :: b :: rest)
  | '\\' :: c :: rest => '\\' :: c :: withCodes rest
  | c :: rest => c :: withCodes rest
  | [] => []

def regexOf (o : Octets) : Reading (Option Regex) := do
  if o = [] then return none
  match Regex.ofText { extended := (← get).extended, escapes := false } (withSigns (withCodes o)) with
  | .ok r => return some r
  | .error flaw => fail flaw.message
where
  withSigns (o : Octets) : Octets :=
    match o with
    | '\\' :: 'n' :: rest => '\\' :: 'n' :: withSigns rest
    | '[' :: rest => '[' :: within rest
    | '\\' :: c :: rest => '\\' :: c :: withSigns rest
    | c :: rest => c :: withSigns rest
    | [] => []
  within (o : Octets) : Octets :=
    match o with
    | ']' :: rest => ']' :: withSigns rest
    | '\\' :: 'n' :: rest => '\n' :: within rest
    | '\\' :: 't' :: rest => '\t' :: within rest
    | c :: rest => c :: within rest
    | [] => []

def address? : Reading (Option Address) := do
  match ← peek with
  | some '$' =>
    advance 1
    return some .last
  | some c =>
    if c.isDigit then
      let n ← number
      skipBlanks
      if (← peek) = some '~' then
        advance 1
        return some (.every n (← number))
      else return some (.line n)
    else if c = '/' || c = '\\' then
      if c = '\\' then advance 1
      let delimiter := ((← get).text.head?).getD '/'
      advance 1
      let o ← takeDelimited delimiter true "unterminated address regex"
      let r ← regexOf o
      let flags ← take fun c => c = 'I' || c = 'M'
      return some (.found ⟨r, 'I' ∈ flags⟩)
    else return none
  | none => return none

def selector : Reading Selector := do
  match ← address? with
  | none => return .all
  | some a =>
    skipBlanks
    if (← peek) ≠ some ',' then
      if let .line 0 := a then
        advance 1
        fail "invalid usage of line address 0"
      return .one a
    advance 1
    skipBlanks
    match ← peek with
    | some '+' =>
      advance 1
      return .range a (.after (← number))
    | some '~' =>
      advance 1
      return .range a (.multiple (← number))
    | _ =>
      match ← address? with
      | some b => return .range a (.at b)
      | none => fail "unexpected \x60,'"

def pieces : Octets → List Piece
  | '\\' :: c :: rest =>
    let piece : Piece :=
      if c.isDigit then .group (c.toNat - 48)
      else match c with
        | 'n' => .text ['\n']
        | 't' => .text ['\t']
        | 'r' => .text ['\r']
        | 'f' => .text ['\x0c']
        | 'v' => .text ['\x0b']
        | 'a' => .text ['\x07']
        | 'U' => .casing .upper
        | 'L' => .casing .lower
        | 'E' => .casing .asIs
        | 'u' => .once .upper
        | 'l' => .once .lower
        | c => .text [c]
    piece :: pieces rest
  | '&' :: rest => .group 0 :: pieces rest
  | c :: rest => .text [c] :: pieces rest
  | [] => []

def flags (fuel : Nat) (s : Substitution) (numbered : Bool) : Reading Substitution :=
  match fuel with
  | 0 => return s
  | fuel + 1 => do
    match ← peek with
    | some 'g' =>
      advance 1
      if s.everywhere then fail "multiple \x60g' options to \x60s' command"
      flags fuel { s with everywhere := true } numbered
    | some 'p' =>
      advance 1
      if s.shown then fail "multiple \x60p' options to \x60s' command"
      flags fuel { s with shown := true } numbered
    | some 'i' | some 'I' =>
      advance 1
      flags fuel { s with search := { s.search with folded := true } } numbered
    | some 'm' | some 'M' =>
      advance 1
      flags fuel s numbered
    | some 'w' =>
      advance 1
      skipBlanks
      let path ← take (· ≠ '\n')
      return { s with file := some path }
    | some c =>
      if c.isDigit then
        let n ← number
        if numbered then fail "multiple number options to \x60s' command"
        if n = 0 then fail "number option to \x60s' command may not be zero"
        flags fuel { s with number := n } true
      else if c ∈ [' ', '\t', '\n', ';', '\x7d', '#'] then return s
      else
        advance 1
        fail "unknown option to \x60s'"
    | none => return s

def groupCount : Regex → Nat
  | .both a b | .either a b => groupCount a + groupCount b
  | .repeated a _ _ => groupCount a
  | .group _ a => groupCount a + 1
  | _ => 0

def substitution : Reading Action := do
  let delimiter := ((← get).text.head?).getD '/'
  advance 1
  let old ← takeDelimited delimiter true "unterminated \x60s' command"
  let new ← takeDelimited delimiter false "unterminated \x60s' command"
  let s ← flags ((← get).text.length + 1) { search := ⟨none, false⟩, pieces := pieces (withCodes new) }
    false
  let r ← regexOf old
  if let some r := r then
    for p in s.pieces do
      if let .group n := p then
        if groupCount r < n then
          fail ("invalid reference \\" ++ toString n ++ " on \x60s' command's RHS")
  return .replace { s with search := { s.search with regex := r } }

/-- The text of a command that adds lines: what is left of the line, and the lines below it as long
as a backslash ends them. -/
def addedText : Reading Octets := do
  skipBlanks
  match ← peek with
  | none => fail "expected \\ after \x60a', \x60c' or \x60i'"
  | some '\\' =>
    advance 1
    skipBlanks'
    if (← peek) = some '\n' then advance 1
  | some _ => pure ()
  let (text, n) := go (← get).text
  advance n
  return if text = [] then [] else text ++ ['\n']
where
  skipBlanks' : Reading Unit := do
    let rest := (← get).text
    if (rest.dropWhile fun c => c = ' ' || c = '\t').head? = some '\n' then skipBlanks
  go : Octets → Octets × Nat
    | '\\' :: c :: rest =>
      let (o, n) := go rest
      let meant := [('n', '\n'), ('t', '\t')].lookup c
      (meant.getD c :: o, n + 2)
    | '\n' :: _ | [] => ([], 0)
    | c :: rest => let (o, n) := go rest; (c :: o, n + 1)

def label : Reading Octets := do
  skipBlanks
  let o ← take fun c => c ∉ ['\n', ';', '\x7d', ' ', '\t']
  return o

def path : Reading Octets := do
  skipBlanks
  let o ← take (· ≠ '\n')
  if o = [] then fail "missing filename in r/R/w/W commands"
  return o

def finish : Reading Unit := do
  skipBlanks
  match ← peek with
  | none | some '\x7d' => return
  | some '\n' | some ';' => advance 1
  | some '#' => discard (take (· ≠ '\n'))
  | some _ =>
    advance 1
    fail "extra characters after command"

def action (c : Char) : Reading Action := do
  let plainly (a : Action) : Reading Action := do
    finish
    return a
  match c with
  | 's' =>
    let a ← substitution
    plainly a
  | 'y' =>
    let delimiter := ((← get).text.head?).getD '/'
    advance 1
    let old ← takeDelimited delimiter false "unterminated \x60y' command"
    let new ← takeDelimited delimiter false "unterminated \x60y' command"
    let (old, new) := (plain old, plain new)
    if old.length ≠ new.length then
      fail "strings for \x60y' command are different lengths"
    plainly (.exchange old new)
  | 'a' => return .append (← addedText)
  | 'i' => return .insert (← addedText)
  | 'c' => return .change (← addedText)
  | ':' =>
    let name ← take fun c => c ∉ ['\n', ';']
    let name := (name.dropWhile (· = ' ')).reverse.dropWhile (· = ' ') |>.reverse
    if name = [] then fail "\":\" lacks a label"
    plainly (.label name)
  | 'b' => do plainly (.jump .always (← label))
  | 't' => do plainly (.jump .ifReplaced (← label))
  | 'T' => do plainly (.jump .ifNotReplaced (← label))
  | 'd' => plainly .delete
  | 'D' => plainly .deleteFirst
  | 'n' => plainly .next
  | 'N' => plainly .join
  | 'p' => plainly .print
  | 'P' => plainly .printFirst
  | '=' => plainly .number
  | 'h' => plainly (.keep false)
  | 'H' => plainly (.keep true)
  | 'g' => plainly (.fetch false)
  | 'G' => plainly (.fetch true)
  | 'x' => plainly .swap
  | 'z' => plainly .empty
  | 'l' => plainly .describe
  | 'q' | 'Q' =>
    skipBlanks
    let status ← number
    plainly (.quit (status % 256) (c = 'Q'))
  | 'r' => return .readFile (← path)
  | 'w' => return .writeFile (← path) false
  | 'W' => return .writeFile (← path) true
  | 'v' =>
    discard (take fun c => c ∉ ['\n', ';'])
    plainly .nothing
  | c => fail ("unknown command: \x60" ++ String.singleton c ++ "'")
where
  plain : Octets → Octets
    | '\\' :: c :: rest => (([('n', '\n'), ('t', '\t')].lookup c).getD c) :: plain rest
    | c :: rest => c :: plain rest
    | [] => []

def commands (fuel : Nat) (inside : Bool) : Reading (List Command) :=
  match fuel with
  | 0 => fail "unmatched \x60\x7b'"
  | fuel + 1 => do
    discard (take fun c => c ∈ [' ', '\t', '\n', ';'])
    match ← peek with
    | none => if inside then throw ⟨0, "unmatched \x60\x7b'"⟩ else return []
    | some '#' =>
      discard (take (· ≠ '\n'))
      commands fuel inside
    | some '\x7d' =>
      advance 1
      if inside then return [] else fail "unexpected \x60\x7d'"
    | some _ =>
      let selector ← selector
      skipBlanks
      let negations ← take fun c => c = '!' || c = ' '
      if 1 < negations.count '!' then fail "multiple \x60!'s"
      let negated := negations ≠ []
      match ← peek with
      | none => fail "missing command"
      | some '\x7b' =>
        advance 1
        let body ← commands fuel true
        finish
        let rest ← commands fuel inside
        return ⟨selector, negated, .block body.length⟩ :: body ++ rest
      | some c =>
        advance 1
        let a ← action c
        return ⟨selector, negated, a⟩ :: (← commands fuel inside)

def ofText (extended : Bool) (text : Octets) : Except Flaw (List Command) :=
  ((commands (2 * text.length + 2) false).run { text, extended }).map (·.1)

end MutationPipeline.Rehearsal.Shell.Editing
