import MutationPipeline.Rehearsal.Shell.EditScript
import MutationPipeline.Rehearsal.Shell.Inputs

/-!
Running editing scripts. One line at a time is at hand; it can be changed, put aside, joined with the
next one, and is written at the end of the script.
-/
namespace MutationPipeline.Rehearsal.Shell.Editing

open Execution

inductive Due where
  | text (o : Octets)
  | file (path : Octets)

structure Desk where
  space : Octets := []
  ended : Bool := true
  hold : Octets := []
  line : Nat := 0
  replaced : Bool := false
  begun : List (Nat × Option Nat) := []
  due : List Due := []
  last : Option (Regex × Bool) := none
  unended : Bool := false

abbrev Session := StateT Desk Execution

inductive Course where
  | finished
  | dropped
  | repeated
  | quitting (status : Nat) (silent : Bool)
  deriving DecidableEq, Repr

def put (text : Octets) (ended : Bool) : Session Unit := do
  if (← get).unended then (write 1 ['\n'] : Execution Unit)
  (write 1 (text ++ if ended then ['\n'] else []) : Execution Unit)
  modify fun d => { d with unended := !ended }

def putSpace : Session Unit := do
  let d ← get
  put d.space d.ended

def follows : Session Bool := do
  let input ← (inputOf 0 : Execution _)
  if input.rest ≠ [] then return true
  else if input.closed then return false
  else (throw .blocked : Execution Bool)

def putDue : Session Unit := do
  for due in (← get).due do
    let (text, begins) ← match due with
      | .text o => pure (o, true)
      | .file path => do
        let text := ((← fileText? path.text)).getD []
        pure (text, text ≠ [])
    if (← get).unended && begins then
      (write 1 ['\n'] : Execution Unit)
      modify fun d => { d with unended := false }
    (write 1 text : Execution Unit)
  modify fun d => { d with due := [] }

def takeNext (joined : Bool) : Session Bool := do
  putDue
  match ← (nextLine? : Execution _) with
  | none => return false
  | some (line, ended) =>
    modify fun d =>
      { d with
        space := if joined then d.space ++ '\n' :: line else line
        ended
        line := d.line + 1 }
    return true

def regexFor (s : Search) : Session (Regex × Bool) := do
  match s.regex, (← get).last with
  | some r, _ =>
    modify fun d => { d with last := some (r, s.folded) }
    return (r, s.folded)
  | none, some last => return last
  | none, none => return (.nothing, false)

def matchesAt (a : Address) : Session Bool := do
  let d ← get
  match a with
  | .line n => return d.line = n
  | .last => return !(← follows)
  | .every first step =>
    return if step = 0 then d.line = first else first ≤ d.line && (d.line - first) % step = 0
  | .found s =>
    let (r, folded) ← regexFor s
    return (r.find? folded d.space).isSome

def setRange (n : Nat) (finish : Option (Option Nat)) : Session Unit := modify fun d =>
  let others := d.begun.filter fun b => b.1 ≠ n
  { d with begun := (finish.map fun f => (n, f)).toList ++ others }

def beginRange (n : Nat) (f : Finish) : Session Unit := do
  let line := (← get).line
  let upTo (last : Nat) : Session Unit :=
    if line < last then setRange n (some (some last)) else setRange n none
  match f with
  | .at (.line last) => upTo last
  | .after k => upTo (line + k)
  | .multiple k => upTo (if k = 0 then line else (line + k - 1) / k * k)
  | .at _ => setRange n (some none)

def isSelected (n : Nat) (s : Selector) : Session Bool := do
  match s with
  | .all => return true
  | .one a => matchesAt a
  | .range a f =>
    let d ← get
    let begun := match d.begun.lookup n, a with
      | none, .line 0 => if d.line = 1 then some none else none
      | b, _ => b
    match begun with
    | some (some last) =>
      if d.line < last then return true
      else
        setRange n none
        if d.line = last then return true
        else matchesFirst n a f
    | some none =>
      match f with
      | .at b => setRange n (if ← matchesAt b then none else some none)
      | _ => setRange n none
      return true
    | none => matchesFirst n a f
where
  matchesFirst (n : Nat) (a : Address) (f : Finish) : Session Bool := do
    if ← matchesAt a then
      beginRange n f
      return true
    else return false

def replacement (text : Octets) (f : Found) : List Piece → Octets := go .asIs none
where
  cased (c : Casing) (o : Octets) : Octets :=
    match c with
    | .asIs => o
    | .upper => o.map Char.toUpper
    | .lower => o.map Char.toLower
  put (c : Casing) (once : Option Casing) (o : Octets) : Octets :=
    match once, cased c o with
    | some c, x :: rest => cased c [x] ++ rest
    | _, o => o
  go (c : Casing) (once : Option Casing) : List Piece → Octets
    | [] => []
    | .casing c :: rest => go c once rest
    | .once c' :: rest => go c (some c') rest
    | .text o :: rest => put c once o ++ go c (if o = [] then once else none) rest
    | .group n :: rest =>
      let o := f.group text n
      put c once o ++ go c (if o = [] then once else none) rest

def replaced? (s : Substitution) (r : Regex) (folded : Bool) (text : Octets) : Option Octets :=
  let found := (if s.everywhere || s.number ≠ 1 then r.findAll folded text
    else (r.find? folded text).toList).drop (s.number - 1)
  let found := if s.everywhere then found else found.take 1
  if found.isEmpty then none
  else
    let (done, at_) := found.foldl (fun (done, at_) f =>
      (done ++ (text.drop at_).take (f.start - at_) ++ replacement text f s.pieces, f.stop))
      (([] : Octets), 0)
    some (done ++ text.drop at_)

def described (text : Octets) : Octets :=
  let signs := text.map fun c =>
    match Format.plainEscapes.find? fun p => p.2 = c && p.1 ≠ 'e' with
    | some p => ['\\', p.1]
    | none =>
      if c.toNat < 32 || 126 < c.toNat then
        '\\' :: Format.pad false '0' 3 (Nat.toDigits 8 c.toNat)
      else [c]
  let (line, lines) := signs.foldl (fun (line, lines) s =>
    if 69 < line.length + s.length then (s, lines ++ line ++ ['\\', '\n'])
    else (line ++ s, lines)) (([] : Octets), ([] : Octets))
  lines ++ line ++ ['$']

def writeTo (path text : Octets) : Execution Unit := do
  if path = "/dev/stdout".toList then write 1 text
  else if path = "/dev/stderr".toList then write 2 text
  else putFile path.text ((← fileText? path.text).getD [] ++ text)

def placeOf (script : Array Command) (name : Octets) : Nat :=
  if name = [] then script.size
  else (script.findIdx? fun c => match c.action with
    | .label n => n = name
    | _ => false).getD script.size

def run (script : Array Command) (quiet : Bool) (fuel i : Nat) : Session Course :=
  match fuel with
  | 0 => (throw .endless : Execution Course)
  | fuel + 1 => do
    match script[i]? with
    | none => return .finished
    | some c =>
      let selected ← isSelected i c.selector
      let goOn : Session Course := run script quiet fuel (i + 1)
      if selected == c.negated then
        match c.action with
        | .block length => run script quiet fuel (i + 1 + length)
        | _ => goOn
      else
        let d ← get
        match c.action with
        | .block _ | .nothing | .label _ => goOn
        | .jump when target =>
          let jumps := match when with
            | .always => true
            | .ifReplaced => d.replaced
            | .ifNotReplaced => !d.replaced
          if when ≠ .always then set { d with replaced := false }
          if jumps then run script quiet fuel (placeOf script target) else goOn
        | .replace s =>
          let (r, folded) ← regexFor s.search
          match replaced? s r (folded || s.search.folded) d.space with
          | none => goOn
          | some text =>
            modify fun d => { d with space := text, replaced := true }
            if s.shown then putSpace
            if let some path := s.file then
              if path = "/dev/stdout".toList then putSpace
              else (writeTo path (text ++ ['\n']) : Execution Unit)
            goOn
        | .exchange old new =>
          set { d with space := d.space.map fun x =>
            ((old.idxOf? x).bind fun n => new[n]?).getD x }
          goOn
        | .append text =>
          set { d with due := d.due ++ [Due.text text] }
          goOn
        | .insert text =>
          if text ≠ [] then put text.dropLast true
          goOn
        | .change text =>
          let last ← match c.selector, c.negated with
            | .range _ _, false => pure ((d.begun.lookup i).isNone)
            | _, _ => pure true
          if last && text ≠ [] then put text.dropLast true
          return .dropped
        | .delete => return .dropped
        | .deleteFirst =>
          if '\n' ∈ d.space then
            set { d with space := (d.space.dropWhile (· ≠ '\n')).drop 1 }
            return .repeated
          else return .dropped
        | .next =>
          if !(← follows) then return .quitting 0 false
          if !quiet then putSpace
          discard (takeNext false)
          goOn
        | .join =>
          if !(← follows) then return .quitting 0 false
          discard (takeNext true)
          goOn
        | .print =>
          putSpace
          goOn
        | .printFirst =>
          put (d.space.takeWhile (· ≠ '\n')) true
          goOn
        | .number =>
          put (Octets.ofNat d.line) true
          goOn
        | .keep adding =>
          set { d with hold := if adding then d.hold ++ '\n' :: d.space else d.space }
          goOn
        | .fetch adding =>
          set { d with space := if adding then d.space ++ '\n' :: d.hold else d.hold }
          goOn
        | .swap =>
          set { d with space := d.hold, hold := d.space }
          goOn
        | .empty =>
          set { d with space := [] }
          goOn
        | .describe =>
          put (described d.space) true
          goOn
        | .quit status silent => return .quitting status silent
        | .readFile path =>
          set { d with due := d.due ++ [Due.file path] }
          goOn
        | .writeFile path first =>
          let text := if first then d.space.takeWhile (· ≠ '\n') else d.space
          if path = "/dev/stdout".toList then put text (first || d.ended)
          else (writeTo path (text ++ ['\n']) : Execution Unit)
          goOn

def patience : Nat := 100000

def runAll (script : Array Command) (quiet : Bool) (fuel : Nat) (again : Bool) : Session Nat :=
  match fuel with
  | 0 => (throw .endless : Execution Nat)
  | fuel + 1 => do
    if !again && !(← takeNext false) then return 0
    modify fun d => { d with replaced := if again then d.replaced else false }
    match ← run script quiet patience 0 with
    | .finished =>
      if !quiet then putSpace
      putDue
      runAll script quiet fuel false
    | .dropped =>
      putDue
      runAll script quiet fuel false
    | .repeated =>
      putDue
      runAll script quiet fuel true
    | .quitting status silent =>
      if !silent then
        if !quiet then putSpace
        putDue
      (leaveInput : Execution Unit)
      return status

/-! ### The program -/

def options : Options where
  plain := ['n', 'E', 'r', 'u', 's', 'z', 'P', 'S', 'D']
  valued := ['e', 'f', 'l']
  long := [("quiet", 'n'), ("silent", 'n'), ("expression", 'e'), ("file", 'f'),
    ("regexp-extended", 'E'), ("unbuffered", 'u'), ("separate", 's'), ("posix", 'P'),
    ("null-data", 'z'), ("sandbox", 'S'), ("debug", 'D'), ("line-length", 'l')]

/-- The arguments without the option that asks for editing in place, whether it was there, and what
is added to the names of the files that are kept. -/
def inPlace (arguments : List Octets) : List Octets × Option Octets :=
  let asked? (a : Octets) : Option (Octets × Octets) :=
    match a with
    | '-' :: '-' :: _ =>
      if a = "--in-place".toList then some ([], [])
      else if "--in-place=".toList.isPrefixOf a then some ([], a.drop 11)
      else none
    | '-' :: letters =>
      if 'i' ∈ letters && (letters.takeWhile (· ≠ 'i')).all (· ∈ options.plain) then
        let before := letters.takeWhile (· ≠ 'i')
        some (if before = [] then [] else '-' :: before, (letters.dropWhile (· ≠ 'i')).drop 1)
      else none
    | _ => none
  let (before, rest) := arguments.span fun a => (asked? a).isNone && a ≠ ['-', '-']
  match rest with
  | a :: rest =>
    match asked? a with
    | some (left, kept) =>
      (before ++ (if left = [] then [] else [left]) ++ rest, some kept)
    | none => (arguments, none)
  | [] => (arguments, none)

def joinedText (texts : List Octets) : Octets :=
  match texts.filter (· ≠ []) with
  | [] => []
  | [text] => text
  | text :: rest =>
    rest.foldl (fun all t => all ++ (if all.getLast? = some '\n' then [] else ['\n']) ++ t) text

def usage : Execution Nat := do
  writeLine 2 "Usage: sed [OPTION]... \x7bscript-only-if-no-other-script\x7d [input-file]...".toList
  return 1

def runOn (script : Array Command) (g : Given) (kept : Option Octets) (paths : List Octets) :
    Execution Nat := do
  let quiet := g.has 'n'
  let one : Execution (Nat × Desk) := do
    (runAll script quiet ((← inputOf 0).rest.length + patience) false).run {}
  let complaint (path : Octets) (cause : String) : Octets :=
    if cause = aDirectory then
      (if kept.isSome then "sed: couldn't edit ".toList ++ path ++ ": not a regular file".toList
        else "sed: read error on ".toList ++ path ++ ": Is a directory".toList)
    else "sed: can't read ".toList ++ path ++ (": " ++ cause).toList
  for c in script do
    let file? := match c.action with
      | .writeFile path _ => some path
      | .replace s => s.file
      | _ => none
    if let some path := file? then
      if !"/dev/".toList.isPrefixOf path then putFile path.text []
  if paths.all isOwnInput then return (← one).1
  if kept.isSome || g.has 's' then
    let mut status := 0
    for path in paths do
      let (text, there) ← textOf complaint [path]
      if there then
        match kept with
        | none =>
          let (n, _) ← fromText text one
          status := max status n
        | some kept =>
          let ((n, _), out) ← holding (fromText text one)
          if kept ≠ [] then putFile (Octets.text (path ++ kept)) text
          putFile path.text out
          status := max status n
      else status := if kept.isSome then 4 else 2
    return status
  else
    let texts ← paths.mapM fun path => textOf complaint [path]
    let (status, _) ← fromText (joinedText (texts.map (·.1))) one
    return if status = 0 && !texts.all (·.2) then 2 else status

def sed : Program := fun arguments => do
  let (arguments, kept) := inPlace arguments
  match options.ofArguments arguments with
  | .error objection =>
    Program.say "sed" objection.message
    usage
  | .ok g =>
    let scripts ← (g.options.filter fun o => o.1 = 'e' || o.1 = 'f').mapM fun o => do
      if o.1 = 'e' then return o.2
      let text := (← fileText? o.2.text).getD []
      return if text.getLast? = some '\n' then text.dropLast else text
    let (scripts, paths) :=
      if scripts.isEmpty then (g.operands.take 1, g.operands.drop 1) else (scripts, g.operands)
    if scripts.isEmpty then return ← usage
    let text := ['\n'].intercalate scripts
    let silent := text = ['#', 'n'] || "#n\n".toList.isPrefixOf text
    match ofText (g.has 'E' || g.has 'r') text with
    | .error flaw =>
      Program.say "sed" ("-e expression #1, char ".toList ++ Octets.ofNat flaw.place ++
        (": " ++ flaw.text).toList)
      return 1
    | .ok script =>
      let script := script.toArray
      let missing := script.toList.filterMap fun c => match c.action with
        | .jump _ target => if target ≠ [] && !(script.any fun d => match d.action with
            | .label n => n = target
            | _ => false) then some target else none
        | _ => none
      match missing with
      | target :: _ =>
        Program.say "sed" ("can't find label for jump to \x60".toList ++ target ++ ['\''])
        return 4
      | [] =>
        let g := if silent then { g with options := ('n', []) :: g.options } else g
        runOn script g kept paths

end MutationPipeline.Rehearsal.Shell.Editing
