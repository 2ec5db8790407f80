import MutationPipeline.Rehearsal.Shell.Format
import MutationPipeline.Rehearsal.Shell.Inputs

/-!
Programs that show parts of a text, count what is in it, or set its lines out anew.
-/
namespace MutationPipeline.Rehearsal.Shell.Filter

open Execution

/-! ### The start and the end of a text -/

inductive Measure where
  | lines
  | octets
  deriving DecidableEq, Repr

inductive Share where
  | only (n : Nat)
  | allBut (n : Nat)
  | from (n : Nat)
  deriving DecidableEq, Repr

def Share.start : Share → List α → List α
  | .only n, xs => xs.take n
  | .allBut n, xs => xs.take (xs.length - n)
  | .from _, xs => xs

def Share.finish : Share → List α → List α
  | .only n, xs | .allBut n, xs => xs.drop (xs.length - n)
  | .from n, xs => xs.drop (n - 1)

def Share.ofText (measure : Measure) (atStart : Bool) (s : Share) (text : Octets) : Octets :=
  match measure with
  | .lines =>
    joinLines (if atStart then s.start (linesOf text) else s.finish (linesOf text))
  | .octets => if atStart then s.start text else s.finish text

def amount? (o : Octets) : Option Nat :=
  let digits := o.takeWhile Char.isDigit
  let units := [("", 1), ("b", 512), ("k", 1024), ("K", 1024), ("M", 1024 * 1024), ("kB", 1000)]
  if digits = [] then none
  else (units.lookup (Octets.text (o.drop digits.length))).map (Format.natOf digits * ·)

def share? (o : Octets) : Option Share :=
  match o with
  | '-' :: rest => (amount? rest).map .allBut
  | '+' :: rest => (amount? rest).map .from
  | rest => (amount? rest).map .only

def withCount (plus : Bool) : List Octets → List Octets
  | ('-' :: c :: rest) :: others =>
    if c.isDigit then ['-', 'n'] :: (c :: rest) :: others else ('-' :: c :: rest) :: others
  | ('+' :: c :: rest) :: others =>
    if plus && c.isDigit then ['-', 'n'] :: ('+' :: c :: rest) :: others
    else ('+' :: c :: rest) :: others
  | others => others

def shareOptions : Options where
  plain := ['q', 'v', 'f', 'F', 'z']
  valued := ['n', 'c', 's']
  long := [("lines", 'n'), ("bytes", 'c'), ("quiet", 'q'), ("silent", 'q'), ("verbose", 'v'),
    ("follow", 'f')]

def askedShare (program : String) (g : Given) : Except Octets (Measure × Share) :=
  match (g.options.filter fun o => o.1 ∈ ['n', 'c']).getLast? with
  | none => .ok (.lines, .only 10)
  | some (c, value) =>
    match share? value with
    | some s => .ok (if c = 'n' then .lines else .octets, s)
    | none =>
      let what := if c = 'n' then "lines" else "bytes"
      .error ((program ++ ": invalid number of " ++ what ++ ": '").toList ++ value ++ ['\''])

def showing (program : String) (g : Given) (act : Execution Unit) : Execution Nat := do
  let headed := (1 < g.operands.length && !g.has 'q') || g.has 'v'
  let all ← onInputs (unopened program) g.operands fun path => do
    if headed then
      if path ≠ g.operands.headD [] then writeLine 1 []
      let name := if isOwnInput path then "standard input".toList else path
      writeLine 1 ("==> ".toList ++ name ++ " <==".toList)
    act
  return statusOf all

def firstLines : Nat → Execution Unit
  | 0 => return
  | n + 1 => do
    match ← nextLine? with
    | some line =>
      write 1 (joinLines [line])
      firstLines n
    | none => return

def head : Program := fun arguments =>
  Program.withOptions "head" shareOptions 1 (fun g => do
    match askedShare "head" g with
    | .error complaint =>
      writeLine 2 complaint
      return 1
    | .ok (measure, share) =>
      showing "head" g do
        match measure, share with
        | .lines, .only n =>
          firstLines n
          leaveInput
        | .octets, .only n =>
          let input ← inputOf 0
          if input.rest.length < n && !input.closed then throw .blocked
          write 1 (input.rest.take n)
          setInput 0 (input.rest.drop n)
          leaveInput
        | _, _ => write 1 (share.ofText measure true (← wholeInput)))
    (withCount false arguments)

def tail : Program := fun arguments =>
  Program.withOptions "tail" shareOptions 1 (fun g => do
    match askedShare "tail" g with
    | .error complaint =>
      writeLine 2 complaint
      return 1
    | .ok (measure, share) =>
      showing "tail" g do
        match measure, share with
        | .lines, .from n =>
          for _ in List.range (n - 1) do discard nextLine?
          eachLine fun line => do
            write 1 (joinLines [line])
            return true
        | _, _ => write 1 (share.ofText measure false (← wholeInput)))
    (withCount true arguments)

/-! ### Counting -/

def wordCount (inside : Bool) : Octets → Nat
  | [] => 0
  | c :: rest =>
    if c = ' ' || ('\t' ≤ c && c ≤ '\r') then wordCount false rest
    else (if inside then 0 else 1) + wordCount true rest

def counters : List (Char × (Octets → Nat)) :=
  [('l', fun text => text.count '\n'), ('w', wordCount false), ('m', List.length),
    ('c', List.length), ('L', fun text => ((linesOf text).map (·.1.length)).foldl max 0)]

def wc : Program := Program.withOptions "wc"
  { plain := ['l', 'w', 'm', 'c', 'L']
    long := [("lines", 'l'), ("words", 'w'), ("chars", 'm'), ("bytes", 'c'),
      ("max-line-length", 'L')] } 1 fun g => do
  let asked := if g.options.isEmpty then ['l', 'w', 'c'] else g.options.map (·.1)
  let asked := counters.filter fun c => c.1 ∈ asked
  let paths := if g.operands.isEmpty then [ownInput] else g.operands
  let counted ← paths.mapM fun path => do
    let spring := (← inputOf 0).spring
    let (text, there) ← textOf (naming "wc") [path]
    let isFile := !isOwnInput path || spring = .file
    return (path, text, there || ((← look path.text) matches .ok _), there, isFile)
  let size := (counted.map fun c => c.2.1.length).foldl (· + ·) 0
  let width := if asked.length = 1 && paths.length = 1 then 1
    else if counted.all fun c => c.2.2.2.2 && c.2.2.1 then (Octets.ofNat size).length
    else 7
  let row (counts : List Nat) (name : Octets) : Octets :=
    List.intercalate [' '] (counts.map (fun n => Format.pad false ' ' width (Octets.ofNat n)) ++
      if name = [] then [] else [name])
  for (path, text, shown, _, _) in counted do
    if shown then
      writeLine 1 (row (asked.map fun c => c.2 text) (if g.operands.isEmpty then [] else path))
  if 1 < paths.length then
    let total (c : Char × (Octets → Nat)) : Nat :=
      let each := counted.map fun t => c.2 t.2.1
      if c.1 = 'L' then each.foldl max 0 else each.foldl (· + ·) 0
    writeLine 1 (row (asked.map total) "total".toList)
  return statusOf (counted.all fun c => c.2.2.2.1)

/-! ### Lines set out anew -/

def rev : Program := Program.withOptions "rev" {} 1 fun g => do
  let complaint (path : Octets) (cause : String) := unopenedPlainly path cause
  let all ← onInputs complaint g.operands fun _ => eachLine fun line => do
    write 1 (joinLines [(line.1.reverse, line.2)])
    return true
  return statusOf all
where
  unopenedPlainly (path : Octets) (cause : String) : Octets :=
    "rev: cannot open ".toList ++ path ++ (": " ++ cause).toList

def tac : Program := Program.withOptions "tac" {} 1 fun g => do
  let complaint (path : Octets) (cause : String) : Octets :=
    "tac: failed to open '".toList ++ path ++ ("' for reading: " ++ cause).toList
  let all ← onInputs complaint g.operands fun _ => do
    write 1 (joinLines (linesOf (← wholeInput)).reverse)
  return statusOf all

def nl : Program := Program.withOptions "nl"
  { valued := ['b', 'w', 's', 'v', 'i', 'n'] } 1 fun g => do
  let (text, all) ← textOf (naming "nl") g.operands
  let number (c : Char) (usual : Nat) : Nat := ((g.value? c).bind amount?).getD usual
  let width := number 'w' 6
  let between := (g.value? 's').getD ['\t']
  let form := (g.value? 'n').getD "rn".toList
  let rec go (n : Nat) : List Line → Execution Unit
    | [] => return
    | (line, _) :: rest => do
      let counts := match g.value? 'b' with
        | some ['a'] => true
        | some ['n'] => false
        | _ => line ≠ []
      if counts then
        let numeral := Format.pad (form = "ln".toList) (if form = "rz".toList then '0' else ' ')
          width (Octets.ofNat n)
        writeLine 1 (numeral ++ between ++ line)
        go (n + number 'i' 1) rest
      else
        writeLine 1 (List.replicate (width + between.length) ' ' ++ line)
        go n rest
  go (number 'v' 1) (linesOf text)
  return statusOf all

def paste : Program := Program.withOptions "paste"
  { plain := ['s'], valued := ['d'], long := [("serial", 's'), ("delimiters", 'd')] } 1 fun g => do
  let paths := if g.operands.isEmpty then [ownInput] else g.operands
  let texts ← paths.mapM fun path => textOf (naming "paste") [path]
  let columns := texts.map fun t => (linesOf t.1).map (·.1)
  let signs := (Format.unescape (.ofFormat .program) ((g.value? 'd').getD ['\t'])).1
  let joined (fields : List Octets) : Octets :=
    match fields with
    | [] => []
    | f :: rest => f ++ (rest.mapIdx fun n o =>
        (if signs = [] then [] else [signs.getD (n % signs.length) ' ']) ++ o).flatten
  if g.has 's' then for c in columns do writeLine 1 (joined c)
  else
    for n in List.range ((columns.map List.length).foldl max 0) do
      writeLine 1 (joined (columns.map fun c => c.getD n []))
  return statusOf (texts.all (·.2))

def fold : Program := Program.withOptions "fold"
  { plain := ['b', 's'], valued := ['w'], long := [("width", 'w')] } 1 fun g => do
  let (text, all) ← textOf (naming "fold") g.operands
  let width := max 1 (((g.value? 'w').bind amount?).getD 80)
  let rec pieces (fuel : Nat) (line : Octets) : List Octets :=
    match fuel with
    | 0 => [line]
    | fuel + 1 =>
      if line.length ≤ width then [line]
      else
        let most := line.take width
        let atBlank := (most.reverse.dropWhile (· ≠ ' ')).length
        let n := if g.has 's' && atBlank ≠ 0 then atBlank else width
        line.take n :: pieces fuel (line.drop n)
  for (line, ended) in linesOf text do
    write 1 (['\n'].intercalate (pieces line.length line) ++ if ended then ['\n'] else [])
  return statusOf all

end MutationPipeline.Rehearsal.Shell.Filter

/-!
Cutting columns out of lines: characters by their positions, or fields between delimiters.
-/
namespace MutationPipeline.Rehearsal.Shell.Columns

open Execution

structure Stretch where
  first : Nat
  last : Option Nat
  deriving DecidableEq, Repr

def Stretch.contains (s : Stretch) (n : Nat) : Bool := s.first ≤ n && s.last.all (n ≤ ·)

def merged (stretches : List Stretch) : List Stretch :=
  (stretches.mergeSort fun a b => a.first ≤ b.first).foldl (fun done s =>
    match done.getLast? with
    | some d =>
      if d.last.all (s.first ≤ ·) then
        done.dropLast ++ [⟨d.first, do return max (← d.last) (← s.last)⟩]
      else done ++ [s]
    | none => [s]) []

def objection (fields : Bool) (o : Octets) : Octets :=
  if o = ['-'] then "invalid range with no endpoint: -".toList
  else if (o.splitOn '-').length > 2 then
    (if fields then "invalid field range" else "invalid byte or character range").toList
  else if (o.splitOn '-').all fun n => n.all Char.isDigit then
    let numbers := (o.splitOn '-').filter (· ≠ [])
    if o = [] ∨ numbers.any fun n => Format.natOf n = 0 then
      (if fields then "fields are numbered from 1"
        else "byte/character positions are numbered from 1").toList
    else "invalid decreasing range".toList
  else
    (if fields then "invalid field value '" else "invalid byte/character position '").toList ++
      o ++ ['\'']

def stretch? (o : Octets) : Option Stretch :=
  let number? (n : Octets) : Option Nat :=
    if n ≠ [] && n.all Char.isDigit && Format.natOf n ≠ 0 then some (Format.natOf n) else none
  match o.splitOn '-' with
  | [n] => (number? n).map fun n => ⟨n, some n⟩
  | [[], m] => (number? m).map fun m => ⟨1, some m⟩
  | [n, []] => (number? n).map fun n => ⟨n, none⟩
  | [n, m] => do
    let n ← number? n
    let m ← number? m
    if n ≤ m then some ⟨n, some m⟩ else none
  | _ => none

def stretches (fields : Bool) (list : Octets) : Except Octets (List Stretch) :=
  (list.splitOnP fun c => c = ',' || c = ' ').mapM fun o =>
    match stretch? o with
    | some s => .ok s
    | none => .error (objection fields o)

structure Cut where
  stretches : List Stretch
  complement : Bool
  fields : Bool
  delimiter : Char
  only : Bool
  between : Octets

namespace Cut

def isAsked (c : Cut) (n : Nat) : Bool := c.stretches.any (·.contains n) != c.complement

def characters (c : Cut) (line : Octets) : Octets :=
  let kept := (line.mapIdx fun n x => (n + 1, x)).filter fun p => c.isAsked p.1
  if c.between = [] then kept.map (·.2)
  else
    let begins (n : Nat) : Bool :=
      !c.isAsked (n - 1) || (merged c.stretches).any (·.first = n)
    kept.mapIdx (fun k p => (if k ≠ 0 && begins p.1 then c.between else []) ++ [p.2]) |>.flatten

def ofLine (c : Cut) (line : Octets) : Option Octets :=
  if !c.fields then some (c.characters line)
  else if c.delimiter ∉ line then if c.only then none else some line
  else
    let parts := (line.splitOn c.delimiter).mapIdx fun n o => (n + 1, o)
    some (c.between.intercalate ((parts.filter fun p => c.isAsked p.1).map (·.2)))

end Cut

def options : Options where
  plain := ['s', 'n', 'z', 'C']
  valued := ['b', 'c', 'f', 'd', 'o']
  long := [("bytes", 'b'), ("characters", 'c'), ("fields", 'f'), ("delimiter", 'd'),
    ("only-delimited", 's'), ("output-delimiter", 'o'), ("complement", 'C')]

def asked (g : Given) : Except Octets Cut := do
  match g.options.filter fun o => o.1 ∈ ['b', 'c', 'f'] with
  | [] => throw "you must specify a list of bytes, characters, or fields".toList
  | [(kind, list)] =>
    let fields := kind = 'f'
    let delimiter ← match g.value? 'd' with
      | none => pure '\t'
      | some [c] => pure c
      | some [] => pure '\x00'
      | some _ => throw "the delimiter must be a single character".toList
    if !fields && g.has 'd' then
      throw "an input delimiter may be specified only when operating on fields".toList
    if !fields && g.has 's' then
      throw ("suppressing non-delimited lines makes sense\n\tonly when operating on fields").toList
    let stretches ← stretches fields list
    return { stretches, fields, delimiter
             complement := g.has 'C'
             only := g.has 's'
             between := (g.value? 'o').getD (if fields then [delimiter] else []) }
  | _ => throw "only one list may be specified".toList

def cut : Program := Program.withOptions "cut" options 1 fun g => do
  match asked g with
  | .error text => Program.refer "cut" 1 text
  | .ok c =>
    let all ← onInputs (naming "cut") g.operands fun _ => eachLine fun line => do
      if let some shown := c.ofLine line.1 then writeLine 1 shown
      return true
    return statusOf all

end MutationPipeline.Rehearsal.Shell.Columns
