import MutationPipeline.Rehearsal.Shell.Format
import MutationPipeline.Rehearsal.Shell.Inputs
import MutationPipeline.Rehearsal.Shell.Regex

/-!
Programs for files and directories: showing, making, moving and removing them, and what can be said
of their paths.
-/
namespace MutationPipeline.Rehearsal.Shell.Files

open Execution

def onEach (act : Octets → Execution Nat) : List Octets → Execution Nat
  | [] => return 0
  | path :: rest => do
    let status ← act path
    let others ← onEach act rest
    return max status others

def refuse (program what : String) (path : Octets) (cause : String) : Execution Nat := do
  writeLine 2 ((program ++ ": " ++ what ++ " '").toList ++ path ++ ("': " ++ cause).toList)
  return 1

def withOperands (program what : String) (g : Given) (act : Execution Nat) : Execution Nat :=
  if g.operands.isEmpty then Program.refer program 1 ("missing " ++ what).toList else act

/-! ### Showing -/

def visible (tabs : Bool) (c : Char) : Octets :=
  let low (n : Nat) : Octets :=
    if n < 32 then ['^', Char.ofNat (n + 64)] else if n = 127 then ['^', '?'] else [Char.ofNat n]
  if c = '\t' && !tabs then [c]
  else if c.toNat < 128 then low c.toNat
  else ['M', '-'] ++ low (c.toNat - 128)

/-- Writes the lines of the input with numbers and visible signs; returns the last number and
whether the last line was empty. -/
def showLines (g : Given) (number : Nat) (blank : Bool) : Execution (Nat × Bool) := do
  go ((← inputOf 0).rest.length + 1) number blank
where
  go : Nat → Nat → Bool → Execution (Nat × Bool)
    | 0, number, blank => return (number, blank)
    | fuel + 1, number, blank => do
      match ← nextLine? with
      | none => return (number, blank)
      | some (line, ended) =>
        if g.has 's' && blank && line = [] then go fuel number true
        else
          let counts := if g.has 'b' then line ≠ [] else g.has 'n'
          let number := if counts then number + 1 else number
          let shows (c : Char) : Bool := g.has 'A' || g.has c
          let body := if shows 'v' || g.has 'e' || g.has 't' then
              line.flatMap (visible (shows 'T' || g.has 't'))
            else if shows 'T' then line.flatMap fun c => if c = '\t' then ['^', 'I'] else [c]
            else line
          write 1 ((if counts then Format.pad false ' ' 6 (Octets.ofNat number) ++ ['\t'] else []) ++
            body ++ (if (shows 'E' || g.has 'e') && ended then ['$'] else []) ++
            if ended then ['\n'] else [])
          go fuel number (line = [])

def cat : Program := Program.withOptions "cat"
  { plain := "nbAETevstu".toList
    long := [("number", 'n'), ("number-nonblank", 'b'), ("show-all", 'A'), ("show-ends", 'E'),
      ("show-tabs", 'T'), ("squeeze-blank", 's'), ("show-nonprinting", 'v')] } 1 fun g => do
  let isPlain := g.options.all fun o => o.1 = 'u'
  let mut place := (0, false)
  let mut status := 0
  for path in if g.operands.isEmpty then [ownInput] else g.operands do
    if isPlain && isOwnInput path then
      let (text, closed) ← takeAll
      write 1 text
      if !closed then throw .blocked
    else if isOwnInput path then place ← showLines g place.1 place.2
    else
      let (text, there) ← textOf (naming "cat") [path]
      if !there then status := 1
      else if isPlain then write 1 text
      else place ← fromText text (showLines g place.1 place.2)
  return status

def sorted (names : List Octets) : List Octets := names.mergeSort Octets.inOrder

def namesIn (path : Octets) : Execution (List Octets) := do
  let path ← resolved path.text
  if Path.isAbsolute path then return []
  return sorted (((← get).files.names path).map Octets.ofText)

def ls : Program := Program.withOptions "ls"
  { plain := "1aAdprtFqCRSUx".toList
    long := [("all", 'a'), ("almost-all", 'A'), ("directory", 'd'), ("reverse", 'r')] } 2 fun g => do
  let paths : List Octets := if g.operands.isEmpty then [['.']] else sorted g.operands
  let mut status := 0
  let mut files : List Octets := []
  let mut directories : List Octets := []
  for path in paths do
    match ← look path.text with
    | .ok .directory =>
      if g.has 'd' then files := files ++ [path] else directories := directories ++ [path]
    | .ok _ => files := files ++ [path]
    | .error e =>
      discard (refuse "ls" "cannot access" path (causeOf e))
      status := 2
  let order (names : List Octets) : List Octets := if g.has 'r' then names.reverse else names
  let mark (path name : Octets) : Execution Octets := do
    if !(g.has 'p' || g.has 'F') then return name
    match ← look path.text with
    | .ok .directory => return name ++ ['/']
    | _ => return name
  for path in order files do writeLine 1 (← mark path path)
  let headed := 1 < paths.length
  for path in order directories do
    if headed then
      if path ≠ (order directories).headD [] || !files.isEmpty then writeLine 1 []
      writeLine 1 (path ++ [':'])
    let names ← namesIn path
    let names := if g.has 'a' then sorted (['.'] :: ['.', '.'] :: names)
      else if g.has 'A' then names
      else names.filter fun n => n.head? ≠ some '.'
    for name in order names do writeLine 1 (← mark (path ++ ['/'] ++ name) name)
  return status

/-! ### Paths -/

def withoutSlashes (path : Octets) : Octets :=
  let short := (path.reverse.dropWhile (· = '/')).reverse
  if short = [] ∧ path ≠ [] then ['/'] else short

def lastName (path : Octets) : Octets :=
  let short := withoutSlashes path
  if short = ['/'] then short else (short.reverse.takeWhile (· ≠ '/')).reverse

def basename : Program := Program.withOptions "basename"
  { plain := ['a', 'z'], valued := ['s'], long := [("multiple", 'a'), ("suffix", 's')]
    first := true } 1 fun g =>
  withOperands "basename" "operand" g do
    let several := g.has 'a' || g.has 's'
    match several, g.operands with
    | false, _ :: _ :: extra :: _ =>
      Program.refer "basename" 1 ("extra operand '".toList ++ extra ++ ['\''])
    | _, operands =>
      let ending := if several then (g.value? 's').getD [] else operands.getD 1 []
      for path in if several then operands else operands.take 1 do
        let name := lastName path
        let cut := if ending ≠ [] && ending ≠ name && ending.isSuffixOf name then
            name.take (name.length - ending.length)
          else name
        writeLine 1 cut
      return 0

def dirname : Program := Program.withOptions "dirname" { plain := ['z'] } 1 fun g =>
  withOperands "dirname" "operand" g do
    for path in g.operands do
      let short := withoutSlashes path
      let front := (short.reverse.dropWhile (· ≠ '/')).reverse
      writeLine 1 (if front = [] then if short = ['/'] then short else ['.']
        else withoutSlashes front)
    return 0

/-! ### Making and removing -/

def touch : Program := Program.withOptions "touch"
  { plain := ['a', 'c', 'm'], valued := ['d', 'r', 't'], long := [("no-create", 'c')] } 1 fun g =>
  withOperands "touch" "file operand" g do
    onEach (fun path => do
      match ← look path.text with
      | .ok _ => return 0
      | .error _ =>
        if g.has 'c' then return 0
        match path, ← openFile path.text true with
        | _ :: _, .ok _ => return 0
        | _, _ => refuse "touch" "cannot touch" path noFile) g.operands

def above (path : Octets) : String :=
  let parent := (Path.ofText path.text).parent.text
  if parent = "" then "." else parent

def putDirectory (path : Octets) : Execution Unit := do
  let path ← resolved path.text
  modify fun r => { r with files := r.files.put path none }

def mkdir : Program := Program.withOptions "mkdir"
  { plain := ['p', 'v'], valued := ['m'], long := [("parents", 'p'), ("mode", 'm')] } 1 fun g =>
  withOperands "mkdir" "operand" g do
    onEach (fun path => do
      let fail (cause : String) := refuse "mkdir" "cannot create directory" path cause
      match ← look path.text, path with
      | .ok .directory, _ => if g.has 'p' then return 0 else fail "File exists"
      | .ok _, _ => fail "File exists"
      | .error _, [] => fail noFile
      | .error .notDirectory, _ => fail "Not a directory"
      | .error _, _ =>
        if !g.has 'p' && !((← look (above path)) matches .ok .directory) then fail noFile
        else
          putDirectory path
          return 0) g.operands

def rmdir : Program := Program.withOptions "rmdir" { plain := ['p'] } 1 fun g =>
  withOperands "rmdir" "operand" g do
    onEach (fun path => do
      let fail (cause : String) := refuse "rmdir" "failed to remove" path cause
      match ← look path.text with
      | .ok .directory =>
        if (← namesIn path).isEmpty then
          eraseFile path.text
          return 0
        else fail "Directory not empty"
      | .ok _ => fail "Not a directory"
      | .error e => fail (causeOf e)) g.operands

def rm : Program := Program.withOptions "rm"
  { plain := ['r', 'R', 'f', 'd', 'v', 'i', 'I']
    long := [("recursive", 'r'), ("force", 'f'), ("dir", 'd')] } 1 fun g => do
  if g.operands.isEmpty && g.has 'f' then return 0
  withOperands "rm" "operand" g do
    onEach (fun path => do
      match ← look path.text with
      | .ok .directory =>
        if g.has 'r' || g.has 'R' then
          eraseFile path.text
          return 0
        else refuse "rm" "cannot remove" path aDirectory
      | .ok _ =>
        eraseFile path.text
        return 0
      | .error e =>
        if g.has 'f' then return 0 else refuse "rm" "cannot remove" path (causeOf e)) g.operands

/-! ### Copying and moving -/

def copyTree (old new : Octets) : Execution Unit := do
  let oldPath ← resolved old.text
  let newPath ← resolved new.text
  if Path.isAbsolute oldPath || Path.isAbsolute newPath then return
  match FileTree.placeOf oldPath, FileTree.placeOf newPath with
  | .at from_, .at target =>
    modify fun r =>
      let below := r.files.entries.filter fun e => from_.isPrefixOf e.1
      let copies := below.map fun e => (target ++ e.1.drop from_.length, e.2)
      let copies := if copies.isEmpty then [(target, none)] else copies
      let others := r.files.entries.filter fun e => !copies.any fun c => c.1 = e.1
      { r with files := ⟨copies ++ others⟩ }
  | _, _ => return

def transfer (program : String) (g : Given) (act : Octets → Octets → Execution Nat) :
    Execution Nat := do
  match g.operands.reverse with
  | [] => Program.refer program 1 "missing file operand".toList
  | [only] =>
    Program.refer program 1 ("missing destination file operand after '".toList ++ only ++ ['\''])
  | target :: olds =>
    let kind ← look target.text
    let into := kind matches .ok .directory
    if 1 < olds.length && !into then
      let cause := if kind matches .ok _ then "Not a directory" else noFile
      return ← refuse program "target" target cause
    onEach (fun old => act old (if into then
      (if target.getLast? = some '/' then target else target ++ ['/']) ++ lastName old
      else target)) olds.reverse

def cp : Program := Program.withOptions "cp"
  { plain := ['r', 'R', 'a', 'f', 'p', 'v', 'n', 'i', 'T', 'u']
    long := [("recursive", 'r'), ("archive", 'a'), ("force", 'f')] } 1 fun g =>
  transfer "cp" g fun old new => do
    match ← look old.text with
    | .error e => refuse "cp" "cannot stat" old (causeOf e)
    | .ok .directory =>
      if g.has 'r' || g.has 'R' || g.has 'a' then
        copyTree old new
        return 0
      else
        Program.say "cp" ("-r not specified; omitting directory '".toList ++ old ++ ['\''])
        return 1
    | .ok (.file content) =>
      match ← openFile new.text false with
      | .ok (.file path) =>
        putFile path (Octets.ofBytes content.toList)
        setExecutable path (← isExecutable old.text)
        return 0
      | .ok _ => return 0
      | .error _ => refuse "cp" "cannot create regular file" new noFile

def mv : Program := Program.withOptions "mv"
  { plain := ['f', 'n', 'v', 'i', 'T', 'u'], long := [("force", 'f')] } 1 fun g =>
  transfer "mv" g fun old new => do
    match ← look old.text with
    | .error e => refuse "mv" "cannot stat" old (causeOf e)
    | .ok _ =>
      if !((← look (above new)) matches .ok .directory) then
        writeLine 2 ("mv: cannot move '".toList ++ old ++ "' to '".toList ++ new ++
          "': No such file or directory".toList)
        return 1
      match ← fileText? old.text with
      | some text =>
        putFile new.text text
        setExecutable new.text (← isExecutable old.text)
      | none => copyTree old new
      eraseFile old.text
      return 0

/-! ### Other programs -/

def tee : Program := Program.withOptions "tee"
  { plain := ['a', 'i', 'p'], long := [("append", 'a'), ("ignore-interrupts", 'i')] } 1 fun g => do
  let mut status := 0
  let mut sinks : List Sink := []
  for path in g.operands do
    match path, ← openFile path.text (g.has 'a') with
    | _ :: _, .ok s => sinks := sinks ++ [s]
    | [], _ =>
      status := 1
      writeLine 2 (naming "tee" path noFile)
    | _, .error cause =>
      status := 1
      writeLine 2 (naming "tee" path (if cause = "Directory nonexistent" then noFile else cause))
  let (text, closed) ← takeAll
  write 1 text
  for s in sinks do
    restoring (fun before after => { after with sinks := before.sinks }) do
      setSink 1 (some s)
      write 1 text
  if !closed then throw .blocked
  return status

def pathsBelow : Nat → Nat → Octets → Execution (List (Nat × Octets))
  | 0, depth, path => return [(depth, path)]
  | fuel + 1, depth, path => do
    match ← look path.text with
    | .ok .directory =>
      let between := if path.getLast? = some '/' then [] else ['/']
      let each ← (← namesIn path).mapM fun n => pathsBelow fuel (depth + 1) (path ++ between ++ n)
      return (depth, path) :: each.flatten
    | _ => return [(depth, path)]

structure Wanted where
  glob : Option Octets := none
  path : Option Octets := none
  kind : Option Char := none
  least : Nat := 0
  most : Option Nat := none
  delete : Bool := false
  negated : Bool := false
  not : List (Option Octets × Option Char) := []

def wanted (w : Wanted) : List Octets → Except Octets Wanted
  | [] => .ok w
  | option :: rest =>
    match Octets.text option, rest with
    | "-name", g :: rest =>
      if w.negated then wanted { w with not := (some g, none) :: w.not, negated := false } rest
      else wanted { w with glob := some g } rest
    | "-path", g :: rest => wanted { w with path := some g } rest
    | "-type", k :: rest =>
      if w.negated then wanted { w with not := (none, k.head?) :: w.not, negated := false } rest
      else wanted { w with kind := k.head? } rest
    | "-maxdepth", n :: rest => wanted { w with most := some (Format.natOf n) } rest
    | "-mindepth", n :: rest => wanted { w with least := Format.natOf n } rest
    | "-print", rest => wanted w rest
    | "-delete", rest => wanted { w with delete := true } rest
    | "!", rest | "-not", rest => wanted { w with negated := true } rest
    | _, _ => .error ("unknown predicate \x60".toList ++ option ++ ['\''])

def find : Program := fun arguments => do
  let (starts, tests) := arguments.span fun a => a.head? ≠ some '-' && a ≠ ['!']
  match wanted {} tests with
  | .error text =>
    Program.say "find" text
    return 1
  | .ok w =>
    let fits (g : Octets) (o : Octets) : Bool :=
      (Glob.ofWord {} (g.map fun c => ⟨c, false⟩)).fits o
    onEach (fun start => do
      match ← look start.text with
      | .error e =>
        writeLine 2 ("find: '".toList ++ start ++ ("': " ++ causeOf e).toList)
        return 1
      | .ok _ =>
        for (depth, path) in ← pathsBelow 64 0 start do
          let kind := match ← look path.text with
            | .ok .directory => 'd'
            | _ => 'f'
          let name := lastName path
          let found := w.glob.all (fits · name) && w.path.all (fits · path) &&
            w.kind.all (· = kind) && w.least ≤ depth && w.most.all (depth ≤ ·) &&
            !w.not.any fun n => n.1.all (fits · name) && n.2.all (· = kind)
          if found then
            if w.delete then eraseFile path.text else writeLine 1 path
        return 0) (if starts.isEmpty then [['.']] else starts)

def cmp : Program := Program.withOptions "cmp"
  { plain := ['s', 'l', 'b'], long := [("silent", 's'), ("quiet", 's')] } 2 fun g => do
  let (first, second) := (g.operands.headD [], g.operands.getD 1 ownInput)
  let (a, there) ← textOf (naming "cmp") [first]
  if !there then return 2
  let (b, there) ← textOf (naming "cmp") [second]
  if !there then return 2
  let same := ((a.zip b).takeWhile fun p => p.1 = p.2).length
  if same = a.length && same = b.length then return 0
  if !g.has 's' then
    if same = a.length || same = b.length then
      Program.say "cmp" ("EOF on ".toList ++ (if same = a.length then first else second) ++
        if same = 0 then " which is empty".toList
        else " after byte ".toList ++ Octets.ofNat same ++ ", ".toList ++
          (if (a.take same).getLast? = some '\n' then [] else "in ".toList) ++ "line ".toList ++
          Octets.ofNat ((a.take same).count '\n' +
            if (a.take same).getLast? = some '\n' then 0 else 1))
    else writeLine 1 (first ++ [' '] ++ second ++ " differ: char ".toList ++
        Octets.ofNat (same + 1) ++ ", line ".toList ++ Octets.ofNat ((a.take same).count '\n' + 1))
  return 1

def lets? (mode : Octets) : Option Bool :=
  if mode.all Char.isDigit then some (mode.any fun c => c ∈ ['1', '3', '5', '7'])
  else if 'x' ∈ mode || 'X' ∈ mode then some ('-' ∉ mode)
  else if '=' ∈ mode then some false
  else none

def chmod : Program := fun arguments => do
  match arguments.filter fun a => a.head? ≠ some '-' || (a.drop 1).any (· ∈ ['x', 'w', 'r']) with
  | [] => Program.refer "chmod" 1 "missing operand".toList
  | [mode] => Program.refer "chmod" 1 ("missing operand after '".toList ++ mode ++ ['\''])
  | mode :: paths =>
    onEach (fun path => do
      match ← look path.text with
      | .ok _ =>
        if let some may := lets? mode then setExecutable path.text may
        return 0
      | .error e => refuse "chmod" "cannot access" path (causeOf e)) paths

end MutationPipeline.Rehearsal.Shell.Files
