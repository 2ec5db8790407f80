import MutationPipeline.Rehearsal.Shell.Format
import MutationPipeline.Rehearsal.Shell.Inputs
import MutationPipeline.Rehearsal.Shell.Regex

/-!
Finding lines with a pattern.
-/
namespace MutationPipeline.Rehearsal.Shell.Search

open Execution

def options : Options where
  plain := "EFGPivclLonHhqswxbaIrRyZuU".toList
  valued := ['e', 'f', 'm', 'A', 'B', 'C', 'd', 'D', 'X']
  long := [("extended-regexp", 'E'), ("fixed-strings", 'F'), ("basic-regexp", 'G'),
    ("perl-regexp", 'P'), ("ignore-case", 'i'), ("invert-match", 'v'), ("count", 'c'),
    ("files-with-matches", 'l'), ("files-without-match", 'L'), ("only-matching", 'o'),
    ("line-number", 'n'), ("with-filename", 'H'), ("no-filename", 'h'), ("quiet", 'q'),
    ("silent", 'q'), ("no-messages", 's'), ("word-regexp", 'w'), ("line-regexp", 'x'),
    ("byte-offset", 'b'), ("text", 'a'), ("recursive", 'r'), ("regexp", 'e'), ("file", 'f'),
    ("max-count", 'm'), ("after-context", 'A'), ("before-context", 'B'), ("context", 'C'),
    ("line-buffered", 'u'), ("include", 'X'), ("exclude", 'X')]

structure Aim where
  regex : Regex
  folded : Bool
  inverted : Bool
  enough : Option Nat
  before : Nat
  after : Nat
  parts : Bool
  numbered : Bool
  placed : Bool
  silent : Bool

def refuse (text : Octets) : Execution Nat := do
  if text ≠ [] then Program.say "grep" text
  writeLine 2 "Usage: grep [OPTION]... PATTERNS [FILE]...".toList
  writeLine 2 "Try 'grep --help' for more information.".toList
  return 2

def regexOf (g : Given) (patterns : List Octets) : Except Regex.Flaw Regex := do
  let kind := (g.last? ['E', 'F', 'G', 'P']).getD 'G'
  let style : Regex.Style :=
    { extended := kind = 'E' || kind = 'P', escapes := kind = 'P', digits := kind = 'P' }
  let each ← patterns.mapM fun p =>
    if kind = 'F' then pure (Regex.exactly p) else Regex.ofText style p
  let any := match each with
    | [] => Regex.never
    | r :: rest => rest.foldl .either r
  return if g.has 'x' then .both (.border .start) (.both any (.border .finish))
    else if g.has 'w' then .both (.border .noWordBefore) (.both any (.border .noWordBehind))
    else any

/-- How a search comes along: the number of the line and its place, the lines in front that may
still be shown, how many lines behind the last match are still to be shown, the last line that was
shown, and how much was found. -/
structure Course where
  number : Nat := 0
  place : Nat := 0
  held : List (Nat × Nat × Octets) := []
  owed : Nat := 0
  shown : Nat := 0
  found : Nat := 0

def showLine (aim : Aim) (path : Option Octets) (sign : Char) (number place : Nat) (text : Octets) :
    Execution Unit := do
  let start := (path.map (· ++ [sign])).getD [] ++
    (if aim.numbered then Octets.ofNat number ++ [sign] else []) ++
    (if aim.placed then Octets.ofNat place ++ [sign] else [])
  writeLine 1 (start ++ text)

def present (aim : Aim) (path : Option Octets) (c : Course) (line : Octets) :
    Execution Unit := do
  if aim.parts then
    if !aim.inverted then
      for f in aim.regex.findAll aim.folded line do
        if f.start ≠ f.stop then
          showLine aim path ':' c.number (c.place + f.start) (f.group line 0)
  else
    if (aim.before ≠ 0 || aim.after ≠ 0) && c.shown ≠ 0 && c.shown + c.held.length + 1 < c.number then
      writeLine 1 "--".toList
    for (n, place, text) in c.held do showLine aim path '-' n place text
    showLine aim path ':' c.number c.place line

def search (aim : Aim) (path : Option Octets) (fuel : Nat) (c : Course) : Execution Nat :=
  match fuel with
  | 0 => return c.found
  | fuel + 1 => do
    if aim.enough.any (· ≤ c.found) && c.owed = 0 then
      leaveInput
      return c.found
    match ← nextLine? with
    | none => return c.found
    | some (line, _) =>
      let here := { c with number := c.number + 1 }
      let matched := (aim.regex.find? aim.folded line).isSome != aim.inverted &&
        !aim.enough.any (· ≤ c.found)
      let next := { here with place := here.place + line.length + 1 }
      if matched then
        if !aim.silent then present aim path here line
        search aim path fuel
          { next with
            held := [], owed := aim.after, shown := here.number, found := here.found + 1 }
      else if c.owed ≠ 0 then
        if !aim.silent && !aim.parts then showLine aim path '-' here.number here.place line
        search aim path fuel { next with owed := c.owed - 1, shown := here.number }
      else
        let held := c.held ++ [(here.number, here.place, line)]
        search aim path fuel { next with held := held.drop (held.length - aim.before) }

def searchOne (g : Given) (aim : Aim) (named : Bool) (path : Octets) :
    Execution (Option Bool) := do
  let name := if isOwnInput path then "(standard input)".toList else path
  let act : Execution Bool := do
    let found ← search aim (if named then some name else none) ((← inputOf 0).rest.length + 2) {}
    if g.has 'q' then return found ≠ 0
    else if g.has 'l' then
      if found ≠ 0 then writeLine 1 name
      return found ≠ 0
    else if g.has 'L' then
      if found = 0 then writeLine 1 name
      return found = 0
    else
      if g.has 'c' then
        writeLine 1 ((if named then name ++ [':'] else []) ++ Octets.ofNat found)
      return found ≠ 0
  if isOwnInput path then return some (← act)
  let complain (cause : String) : Execution (Option Bool) := do
    if !g.has 's' then writeLine 2 (namingPlainly "grep" path cause)
    return none
  match ← look path.text with
  | .ok (.file content) => return some (← fromText (Octets.ofBytes content.toList) act)
  | .ok .directory => complain aDirectory
  | .error e => complain (causeOf e)

def filesBelow : Nat → Octets → Execution (List Octets)
  | 0, path => return [path]
  | fuel + 1, path => do
    let place := if path = [] then "." else path.text
    match ← look place with
    | .ok .directory =>
      let names := (← get).files.names (← resolved place)
      let between := if path = [] ∨ path.getLast? = some '/' then [] else ['/']
      let each ← (names.map Octets.ofText).mapM fun n => filesBelow fuel (path ++ between ++ n)
      return each.flatten
    | _ => return [path]

def deepest : Nat := 64

def aimOf (g : Given) (patterns : List Octets) : Except Octets Aim := do
  let count (c : Char) (what : String) : Except Octets (Option Nat) :=
    match g.value? c with
    | none => .ok none
    | some o =>
      if o ≠ [] ∧ o.all Char.isDigit then .ok (some (Format.natOf o))
      else .error (if what = "" then "invalid max count".toList else o ++ what.toList)
  let context := ": invalid context length argument"
  let around ← count 'C' context
  let after ← count 'A' context
  let before ← count 'B' context
  let most ← count 'm' ""
  match regexOf g patterns with
  | .error flaw => throw flaw.message.toList
  | .ok regex =>
    let first := g.has 'q' || g.has 'l' || g.has 'L'
    return { regex
             folded := g.has 'i' || g.has 'y'
             inverted := g.has 'v'
             enough := if first then some (min 1 (most.getD 1)) else most
             before := (before.orElse fun _ => around).getD 0
             after := if first then 0 else (after.orElse fun _ => around).getD 0
             parts := g.has 'o'
             numbered := g.has 'n'
             placed := g.has 'b'
             silent := first || g.has 'c' }

def run (g : Given) (aim : Aim) (paths : List Octets) : Execution Nat := do
  let recursive := g.has 'r' || g.has 'R'
  let paths ←
    if recursive then do
      let each ← (if paths.isEmpty then [[]] else paths).mapM (filesBelow deepest)
      pure each.flatten
    else pure (if paths.isEmpty then [ownInput] else paths)
  let named := (g.last? ['H', 'h']).elim (1 < paths.length || recursive) (· = 'H')
  let mut wrong := false
  let mut found := false
  for path in paths do
    if !(found && g.has 'q') then
      match ← searchOne g aim named path with
      | some here => found := found || here
      | none => wrong := true
  return if found && g.has 'q' then 0 else if wrong then 2 else if found then 0 else 1

def withContext (arguments : List Octets) : List Octets :=
  arguments.flatMap fun
    | '-' :: c :: rest =>
      if (c :: rest).all Char.isDigit then [['-', 'C'], c :: rest] else ['-' :: c :: rest]
    | a => if "--color".toList.isPrefixOf a || "--colour".toList.isPrefixOf a then [] else [a]

def grep (extra : List Octets) : Program := fun arguments => do
  match options.ofArguments (extra ++ withContext arguments) with
  | .error objection => refuse objection.message
  | .ok g =>
    let files ← (g.values 'f').mapM fun path => return ((← fileText? path.text).getD [])
    let given := (g.values 'e' ++ files.map fun t =>
      if t.getLast? = some '\n' then t.dropLast else t)
    match given, g.operands with
    | [], [] => refuse []
    | given, operands =>
      let (patterns, paths) :=
        if given.isEmpty then (operands.take 1, operands.drop 1) else (given, operands)
      match aimOf g (patterns.flatMap fun p => p.splitOn '\n') with
      | .error text =>
        Program.say "grep" text
        return 2
      | .ok aim => run g aim paths

end MutationPipeline.Rehearsal.Shell.Search
