import MutationPipeline.Rehearsal.Shell.Syntax

/-!
Regular expressions, basic and extended ones, over octets. Of all matches the one that begins first
is taken, and of those that begin there the longest one that is found by trying repetitions as often
as possible first.
-/
namespace MutationPipeline.Rehearsal.Shell

inductive Letter where
  | exactly (c : Char)
  | any
  | among (negated : Bool) (ranges : List (Char × Char))
  deriving DecidableEq, Repr

namespace Letter

def within (ranges : List (Char × Char)) (c : Char) : Bool :=
  ranges.any fun r => r.1 ≤ c && c ≤ r.2

def accepts (folded : Bool) : Letter → Char → Bool
  | .exactly d, c => c = d || (folded && c.toLower = d.toLower)
  | .any, _ => true
  | .among negated ranges, c =>
    (within ranges c || (folded && (within ranges c.toLower || within ranges c.toUpper))) != negated

def classes : List (String × List (Char × Char)) :=
  [("alpha", [('A', 'Z'), ('a', 'z')]), ("digit", [('0', '9')]),
    ("alnum", [('0', '9'), ('A', 'Z'), ('a', 'z')]), ("upper", [('A', 'Z')]),
    ("lower", [('a', 'z')]), ("space", [(' ', ' '), ('\t', '\r')]),
    ("blank", [(' ', ' '), ('\t', '\t')]), ("xdigit", [('0', '9'), ('A', 'F'), ('a', 'f')]),
    ("punct", [('!', '/'), (':', '@'), ('[', '\x60'), ('\x7b', '~')]), ("print", [(' ', '~')]),
    ("graph", [('!', '~')]), ("cntrl", [('\x00', '\x1f'), ('\x7f', '\x7f')])]

def class? (text : Octets) : Option (List (Char × Char) × Nat) :=
  match text with
  | '[' :: ':' :: rest =>
    let name := rest.takeWhile fun c => c ≠ ':'
    if (":]".toList).isPrefixOf (rest.drop name.length) then
      (classes.lookup (String.ofList name)).map fun rs => (rs, name.length + 4)
    else none
  | _ => none

/-- Ranges up to the bracket that ends them. The bracket may stand first. What is quoted stands for
itself, and `escapes` says that a backslash quotes. -/
def ranges (fuel : Nat) (escapes first : Bool) (text : List (Char × Bool)) :
    Option (List (Char × Char) × Nat) :=
  match fuel, text with
  | fuel + 1, (c, quoted) :: rest =>
    if c = ']' && !quoted && !first then some ([], 1)
    else
      match if quoted then none else class? (text.map (·.1)) with
      | some (rs, n) => (ranges fuel escapes false (text.drop n)).map fun (more, k) =>
          (rs ++ more, n + k)
      | none =>
        let (c, n, rest) := match c, quoted, rest with
          | '\\', false, (d, _) :: behind =>
            if escapes then (meaning d, 2, behind) else (c, 1, rest)
          | _, _, _ => (c, 1, rest)
        match rest with
        | ('-', false) :: (']', false) :: _ | [] =>
          (ranges fuel escapes false rest).map fun (more, k) => ((c, c) :: more, n + k)
        | ('-', false) :: ('\\', false) :: (d, _) :: behind =>
          if escapes then
            (ranges fuel escapes false behind).map fun (more, k) =>
              ((c, meaning d) :: more, n + 3 + k)
          else
            (ranges fuel escapes false ((d, false) :: behind)).map fun (more, k) =>
              ((c, '\\') :: more, n + 2 + k)
        | ('-', false) :: (d, _) :: behind =>
          (ranges fuel escapes false behind).map fun (more, k) => ((c, d) :: more, n + 2 + k)
        | rest => (ranges fuel escapes false rest).map fun (more, k) => ((c, c) :: more, n + k)
  | _, _ => none
where
  meaning (d : Char) : Char :=
    match d with
    | 'n' => '\n'
    | 't' => '\t'
    | d => d

def set? (escapes : Bool) (text : Octets) : Option (Letter × Nat) :=
  let plain (o : Octets) := o.map fun c => (c, false)
  let (negated, rest) := match text with
    | '^' :: rest => (true, rest)
    | rest => (false, rest)
  (ranges (rest.length + 1) escapes true (plain rest)).map fun (rs, n) =>
    (.among negated rs, n + text.length - rest.length)

def wordRanges : List (Char × Char) := [('0', '9'), ('A', 'Z'), ('_', '_'), ('a', 'z')]

def isWord (c : Char) : Bool := within wordRanges c

end Letter

inductive Border where
  | start
  | finish
  | wordStart
  | wordEnd
  | wordBorder
  | noWordBorder
  | noWordBefore
  | noWordBehind
  deriving DecidableEq, Repr

inductive Regex where
  | nothing
  | never
  | letter (l : Letter)
  | border (b : Border)
  | both (a b : Regex)
  | either (a b : Regex)
  | repeated (a : Regex) (least : Nat) (most : Option Nat)
  | group (n : Nat) (a : Regex)
  | again (n : Nat)
  deriving DecidableEq, Repr

structure Found where
  start : Nat
  stop : Nat
  groups : List (Nat × Nat × Nat) := []
  deriving DecidableEq, Repr

namespace Found

def span? (f : Found) (n : Nat) : Option (Nat × Nat) :=
  if n = 0 then some (f.start, f.stop) else f.groups.lookup n

def group (f : Found) (text : Octets) (n : Nat) : Octets :=
  match f.span? n with
  | some (start, stop) => (text.drop start).take (stop - start)
  | none => []

end Found

namespace Regex

/-! ### Matching -/

structure Matter where
  text : Array Char
  folded : Bool := false

namespace Matter

def isWordAt (m : Matter) (i : Nat) : Bool := m.text[i]?.any Letter.isWord

def bordersWord (m : Matter) (i : Nat) : Bool :=
  (i ≠ 0 && m.isWordAt (i - 1)) != m.isWordAt i

def holds (m : Matter) (i : Nat) : Border → Bool
  | .start => i = 0
  | .finish => i = m.text.size
  | .wordStart => m.bordersWord i && m.isWordAt i
  | .wordEnd => m.bordersWord i && !m.isWordAt i
  | .wordBorder => m.bordersWord i
  | .noWordBorder => !m.bordersWord i
  | .noWordBefore => i = 0 || !m.isWordAt (i - 1)
  | .noWordBehind => !m.isWordAt i

def run (m : Matter) (l : Letter) (i : Nat) : Nat → Nat
  | 0 => 0
  | n + 1 =>
    match m.text[i]? with
    | some c => if l.accepts m.folded c then run m l (i + 1) n + 1 else 0
    | none => 0

def equalAt (m : Matter) (i j : Nat) : Nat → Bool
  | 0 => true
  | n + 1 => m.text[i]? = m.text[j]? && equalAt m (i + 1) (j + 1) n

end Matter

abbrev Partial := Nat × List (Nat × Nat × Nat)

def better : Option Partial → Option Partial → Option Partial
  | some a, some b => if a.1 < b.1 then some b else some a
  | none, b => b
  | a, none => a

def go (m : Matter) (fuel : Nat) (r : Regex) (at_ : Partial) (next : Partial → Option Partial) :
    Option Partial :=
  match fuel with
  | 0 => none
  | fuel + 1 =>
    match r with
    | .nothing => next at_
    | .never => none
    | .letter l =>
      match m.text[at_.1]? with
      | some c => if l.accepts m.folded c then next (at_.1 + 1, at_.2) else none
      | none => none
    | .border b => if m.holds at_.1 b then next at_ else none
    | .both a b => go m fuel a at_ fun p => go m fuel b p next
    | .either a b => better (go m fuel a at_ next) (go m fuel b at_ next)
    | .group n a => go m fuel a at_ fun p => next (p.1, (n, at_.1, p.1) :: p.2)
    | .again n =>
      match at_.2.lookup n with
      | some (start, stop) =>
        let length := stop - start
        if at_.1 + length ≤ m.text.size && m.equalAt start at_.1 length then
          next (at_.1 + length, at_.2)
        else none
      | none => none
    | .repeated (.letter l) least most =>
      let longest := m.run l at_.1 (most.getD m.text.size)
      ((List.range (longest + 1 - least)).map (longest - ·)).findSome? fun n =>
        next (at_.1 + n, at_.2)
    | .repeated a least most =>
      let more := if most = some 0 then none
        else go m fuel a at_ fun p =>
          if p.1 = at_.1 && least = 0 then none
          else go m fuel (.repeated a (least - 1) (most.map (· - 1))) p next
      match more with
      | some p => some p
      | none => if least = 0 then next at_ else none

def depth : Nat := 1000000

def matchAt? (m : Matter) (r : Regex) (i : Nat) : Option Found :=
  (go m depth r (i, []) some).map fun (stop, groups) => ⟨i, stop, groups⟩

def search? (m : Matter) (r : Regex) (i : Nat) : Option Found :=
  (List.range (m.text.size + 1 - i)).findSome? fun n => r.matchAt? m (i + n)

def find? (r : Regex) (folded : Bool) (text : Octets) : Option Found :=
  r.search? ⟨text.toArray, folded⟩ 0

def fits (folded : Bool) (r : Regex) (text : Octets) : Bool :=
  let m : Matter := ⟨text.toArray, folded⟩
  (go m depth r (0, []) fun p => if p.1 = m.text.size then some p else none).isSome

def groupCount : Regex → Nat
  | .both a b | .either a b => a.groupCount + b.groupCount
  | .repeated a .. => a.groupCount
  | .group _ a => a.groupCount + 1
  | _ => 0

def findAll (r : Regex) (folded : Bool) (text : Octets) : List Found :=
  let m : Matter := ⟨text.toArray, folded⟩
  collect m (text.length + 2) 0 none
where
  collect (m : Matter) (fuel i : Nat) (last : Option Nat) : List Found :=
    match fuel with
    | 0 => []
    | fuel + 1 =>
      match r.search? m i with
      | none => []
      | some f =>
        if f.start = f.stop then
          if last = some f.start then collect m fuel (f.start + 1) none
          else f :: collect m fuel (f.start + 1) none
        else f :: collect m fuel f.stop (some f.stop)

def exactly (text : Octets) : Regex :=
  text.foldr (fun c r => .both (.letter (.exactly c)) r) .nothing

/-! ### Reading -/

structure Style where
  extended : Bool := false
  escapes : Bool := false
  digits : Bool := false
  deriving DecidableEq, Repr

inductive Flaw where
  | unmatchedParenthesis
  | unmatchedClosing
  | unmatchedBracket
  | unmatchedBrace
  | wrongInterval
  | wrongReference
  | trailingBackslash
  deriving DecidableEq, Repr

def Flaw.message : Flaw → String
  | .unmatchedParenthesis => "Unmatched ( or \\("
  | .unmatchedClosing => "Unmatched ) or \\)"
  | .unmatchedBracket => "Unmatched [, [^, [:, [., or [="
  | .unmatchedBrace => "Unmatched \\\x7b"
  | .wrongInterval => "Invalid content of \\\x7b\\\x7d"
  | .wrongReference => "Invalid back reference"
  | .trailingBackslash => "Trailing backslash"

structure Rest where
  text : Octets
  groups : Nat := 0
  ended : List Nat := []

abbrev Read := StateT Rest (Except Flaw)

inductive Sign where
  | opening
  | closing
  | bar
  | times (least : Nat) (most : Option Nat)
  deriving DecidableEq, Repr

def digits (text : Octets) : Octets := text.takeWhile Char.isDigit

def natOf (digits : Octets) : Nat := (String.ofList digits).toNat?.getD 0

def interval? (extended : Bool) (text : Octets) : Option (Nat × Option Nat × Nat) :=
  let closing := if extended then ['\x7d'] else ['\\', '\x7d']
  let least := digits text
  let rest := text.drop least.length
  let close (most : Option Nat) (rest : Octets) (n : Nat) : Option (Nat × Option Nat × Nat) :=
    if closing.isPrefixOf rest then some (natOf least, most, n + closing.length) else none
  match rest with
  | ',' :: rest =>
    let most := digits rest
    if least = [] ∧ most = [] then none
    else
      close (if most = [] then none else some (natOf most)) (rest.drop most.length)
        (least.length + most.length + 1)
  | rest => if least = [] then none else close (some (natOf least)) rest least.length

/-- The sign at the start of a text, and how many characters it takes. A repetition is none where
nothing stands in front of it. -/
def sign? (extended first : Bool) (text : Octets) : Except Flaw (Option (Sign × Nat)) :=
  let (marked, text) := match text with
    | '\\' :: rest => (true, rest)
    | text => (false, text)
  let offset := if marked then 1 else 0
  let found (s : Sign) (n : Nat) : Except Flaw (Option (Sign × Nat)) := .ok (some (s, n + offset))
  match text with
  | '*' :: _ => if marked || first then .ok none else found (.times 0 none) 1
  | c :: rest =>
    if marked = extended then .ok none
    else if c = '(' then found .opening 1
    else if c = ')' then found .closing 1
    else if c = '|' then found .bar 1
    else if first then .ok none
    else if c = '+' then found (.times 1 none) 1
    else if c = '?' then found (.times 0 (some 1)) 1
    else if c = '\x7b' then
      match interval? extended rest with
      | some (least, most, n) => found (.times least most) (n + 1)
      | none => if extended then .ok none else .error .unmatchedBrace
    else .ok none
  | [] => .ok none

def marked (c : Char) : Regex :=
  match c with
  | 'w' => .letter (.among false Letter.wordRanges)
  | 'W' => .letter (.among true Letter.wordRanges)
  | 's' => .letter (.among false [(' ', ' '), ('\t', '\r')])
  | 'S' => .letter (.among true [(' ', ' '), ('\t', '\r')])
  | 'b' => .border .wordBorder
  | 'B' => .border .noWordBorder
  | '<' => .border .wordStart
  | '>' => .border .wordEnd
  | '\x60' => .border .start
  | '\'' => .border .finish
  | 'n' => .letter (.exactly '\n')
  | 't' => .letter (.exactly '\t')
  | c => .letter (.exactly c)

def atEnd (extended : Bool) (rest : Octets) : Bool :=
  rest.isEmpty ||
    if extended then rest.head? ∈ [some ')', some '|']
    else ["\\)".toList, "\\|".toList].any fun s => s.isPrefixOf rest

mutual

def readChoice (style : Style) (fuel : Nat) : Read Regex :=
  match fuel with
  | 0 => throw .unmatchedParenthesis
  | fuel + 1 => do
    let first ← readRow style fuel true
    match ← (sign? style.extended true (← get).text : Except Flaw _) with
    | some (.bar, n) =>
      modify fun r => { r with text := r.text.drop n }
      return .either first (← readChoice style fuel)
    | _ => return first

def readRow (style : Style) (fuel : Nat) (first : Bool) : Read Regex :=
  match fuel with
  | 0 => throw .unmatchedParenthesis
  | fuel + 1 => do
    let text := (← get).text
    if text.isEmpty then return .nothing
    match ← (sign? style.extended true text : Except Flaw _) with
    | some (.closing, _) | some (.bar, _) => return .nothing
    | some (.opening, n) =>
      let number := (← get).groups + 1
      modify fun r => { r with text := r.text.drop n, groups := number }
      let inside ← readChoice style fuel
      match ← (sign? style.extended true (← get).text : Except Flaw _) with
      | some (.closing, n) =>
        modify fun r => { r with text := r.text.drop n, ended := number :: r.ended }
        let piece ← readTimes style fuel (.group number inside)
        return .both piece (← readRow style fuel false)
      | _ => throw .unmatchedParenthesis
    | _ =>
      let piece ← readSingle style first
      match piece with
      | .border .start => return .both piece (← readRow style fuel true)
      | _ =>
        let piece ← readTimes style fuel piece
        return .both piece (← readRow style fuel false)

def readTimes (style : Style) (fuel : Nat) (piece : Regex) : Read Regex :=
  match fuel with
  | 0 => throw .unmatchedParenthesis
  | fuel + 1 => do
    match ← (sign? style.extended false (← get).text : Except Flaw _) with
    | some (.times least most, n) =>
      if most.any (· < least) then throw .wrongInterval
      modify fun r => { r with text := r.text.drop n }
      readTimes style fuel (.repeated piece least most)
    | _ => return piece

def readSingle (style : Style) (first : Bool) : Read Regex := do
  match (← get).text with
  | [] => return .nothing
  | c :: rest =>
    modify fun r => { r with text := rest }
    match c with
    | '\\' =>
      match rest with
      | [] => throw .trailingBackslash
      | d :: rest =>
        modify fun r => { r with text := rest }
        if d.isDigit && d ≠ '0' then
          let n := d.toNat - '0'.toNat
          if n ∈ (← get).ended then return .again n else throw .wrongReference
        else if style.digits && d.toLower = 'd' then
          return .letter (.among (d = 'D') [('0', '9')])
        else return marked d
    | '.' => return .letter .any
    | '[' =>
      match Letter.set? style.escapes rest with
      | some (l, n) =>
        modify fun r => { r with text := rest.drop n }
        return .letter l
      | none => throw .unmatchedBracket
    | '^' =>
      if style.extended || first then return .border .start else return .letter (.exactly '^')
    | '$' =>
      if style.extended || atEnd false rest then return .border .finish
      else return .letter (.exactly '$')
    | c => return .letter (.exactly c)

end

def ofText (style : Style) (text : Octets) : Except Flaw Regex := do
  let (r, rest) ← (readChoice style (4 * text.length + 8)).run { text }
  if rest.text.isEmpty then return r else throw .unmatchedClosing

end Regex

end MutationPipeline.Rehearsal.Shell

/-!
Patterns that whole words are matched with: those of cases, and those that stand for the names of
files.
-/
namespace MutationPipeline.Rehearsal.Shell

structure Mark where
  char : Char
  quoted : Bool
  deriving DecidableEq, Repr

namespace Mark

def chars (marks : List Mark) : Octets := marks.map (·.char)

end Mark

abbrev Glob := Regex

namespace Glob

/-- How patterns are read: whether lists of patterns are understood, and whether a caret turns a set
round as well as an exclamation mark. -/
structure Rules where
  lists : Bool := false
  caret : Bool := true

def anything : Glob := .repeated (.letter .any) 0 none

def counts : List (Char × Nat × Option Nat) :=
  [('@', 1, some 1), ('?', 0, some 1), ('*', 0, none), ('+', 1, none)]

def alternatives (depth : Nat) (begun : List Mark) :
    List Mark → Option (List (List Mark) × List Mark)
  | [] => none
  | m :: rest =>
    if m.quoted then alternatives depth (begun ++ [m]) rest
    else if m.char = ')' then
      match depth with
      | 0 => some ([begun], rest)
      | depth + 1 => alternatives depth (begun ++ [m]) rest
    else if m.char = '|' ∧ depth = 0 then
      (alternatives 0 [] rest).map fun (others, rest) => (begun :: others, rest)
    else alternatives (if m.char = '(' then depth + 1 else depth) (begun ++ [m]) rest

def ofMarks (rules : Rules) (fuel : Nat) (marks : List Mark) : Glob :=
  match fuel, marks with
  | fuel + 1, m :: rest =>
    let plain : Glob := .both (.letter (.exactly m.char)) (ofMarks rules fuel rest)
    if m.quoted then plain
    else
      let list? := do
        let (least, most) ← if rules.lists then counts.lookup m.char else none
        let (patterns, behind) ← match rest with
          | ⟨'(', false⟩ :: inside => alternatives 0 [] inside
          | _ => none
        return (least, most, patterns, behind)
      match list?, m.char with
      | some (least, most, patterns, behind), _ =>
        let one := patterns.foldr (fun p r => Regex.either (ofMarks rules fuel p) r) .never
        .both (.repeated one least most) (ofMarks rules fuel behind)
      | none, '*' => .both anything (ofMarks rules fuel rest)
      | none, '?' => .both (.letter .any) (ofMarks rules fuel rest)
      | none, '[' =>
        match set? rules.caret rest with
        | some (letter, n) => .both (.letter letter) (ofMarks rules fuel (rest.drop n))
        | none => plain
      | none, '\\' =>
        match rest with
        | m :: rest => .both (.letter (.exactly m.char)) (ofMarks rules fuel rest)
        | [] => plain
      | none, _ => plain
  | _, _ => .nothing
where
  set? (caret : Bool) (marks : List Mark) : Option (Letter × Nat) :=
    let (negated, body) := match marks with
      | ⟨'!', false⟩ :: rest => (true, rest)
      | ⟨'^', false⟩ :: rest => if caret then (true, rest) else (false, marks)
      | rest => (false, rest)
    (Letter.ranges (body.length + 1) true true (body.map fun m => (m.char, m.quoted))).map
      fun (rs, n) => (.among negated rs, n + (if negated then 1 else 0))

def ofWord (rules : Rules) (marks : List Mark) : Glob := ofMarks rules (marks.length + 1) marks

def fits (p : Glob) (text : Octets) : Bool := Regex.fits false p text

def startLength? (p : Glob) (longest : Bool) (text : Octets) : Option Nat :=
  let lengths := (List.range (text.length + 1)).filter fun n => p.fits (text.take n)
  if longest then lengths.getLast? else lengths.head?

def endStart? (p : Glob) (longest : Bool) (text : Octets) : Option Nat :=
  let starts := (List.range (text.length + 1)).filter fun n => p.fits (text.drop n)
  if longest then starts.head? else starts.getLast?

/-- The first stretch of a text from a place on that matches: where it begins, and its length, which
is the largest. A stretch may be asked to begin at the start, or to go on to the end. -/
def find? (p : Glob) (atStart atEnd : Bool) (text : Octets) : Option (Nat × Nat) :=
  ((List.range (text.length + 1)).filter fun n => !atStart || n = 0).findSome? fun start =>
    let lengths := (List.range (text.length - start + 1)).filter fun n =>
      !atEnd || start + n = text.length
    (lengths.reverse.find? fun n => p.fits ((text.drop start).take n)).map fun n => (start, n)

def isPattern (marks : List Mark) : Bool :=
  marks.any fun m => !m.quoted && m.char ∈ ['*', '?', '[']

end Glob

end MutationPipeline.Rehearsal.Shell
