import MutationPipeline.Rehearsal.Shell.Records.Evaluator
import MutationPipeline.Rehearsal.Shell.Variables
import MutationPipeline.Rehearsal.Shell.Wrapping

/-!
Execution of shell scripts: words are expanded and divided into fields, commands are performed, and
programs that run other programs get them.

Every step takes one from the steps that are left. A script that uses them up goes on for too long,
which is an outcome of its own.

The shell belongs to the outer layer. It stands in for programs that a pipeline calls, and neither
the pipeline nor any result about it depends on how it plays them.
-/
namespace MutationPipeline.Rehearsal.Shell.Execution

open Wrapping

/-! ### What needs no further steps -/

def withoutLineEnds (text : Octets) : Octets :=
  (text.reverse.dropWhile (· = '\n')).reverse

def halt : Execution α := do
  let r : Room ← get
  throw (.ended (.exited (match r.dialect with
    | .sh => 2
    | .bash => if r.origin = [] then 127 else 1)))

def unsetParameter (name : Octets) (index : Option Octets) : Execution α := do
  let place := match index with
    | some i => ['['] ++ i ++ [']']
    | none => []
  let dollar := if Reading.isName name then [] else ['$']
  objectAs (name ++ ": parameter not set".toList)
    (dollar ++ name ++ place ++ ": unbound variable".toList)
  halt

def contentGlyphs (quoted split : Bool) (c : Content) : Execution (List Glyph) :=
  match c with
  | .unset => valueGlyphs quoted split []
  | .one v => valueGlyphs quoted split v
  | .many joined vs => valuesGlyphs quoted split joined (vs.map (·.2))

def Content.mapValues (f : Octets → Octets) : Content → Content
  | .unset => .unset
  | .one v => .one (f v)
  | .many joined vs => .many joined (vs.map fun v => (v.1, f v.2))

def lengthOf (name : Octets) (c : Content) : Execution Nat := do
  match c with
  | .unset => return 0
  | .one v => return v.length
  | .many _ vs =>
    if (← get).dialect = .sh ∧ (name = ['@'] ∨ name = ['*']) then
      return (Octets.join " " (vs.map (·.2))).length
    else return vs.length

def sliced (name : Octets) (c : Content) (start : Int) (length : Option Int) (shown : Octets) :
    Execution Content := do
  let negative : Execution Content := do
    object (shown ++ ": substring expression < 0".toList)
    giveUp
  match c with
  | .unset => return .one []
  | .one v =>
    match Value.slice? v.length start length with
    | some (first, count) => return .one ((v.drop first).take count)
    | none => negative
  | .many joined vs =>
    let r : Room ← get
    let vs := if name = ['@'] ∨ name = ['*'] then (['0'], r.name) :: vs else vs
    match Value.sliceOfMany? true vs start length with
    | some vs => return .many joined vs
    | none => negative

def namesWith (start : Octets) : Execution (List Octets) := do
  let r : Room ← get
  return (Declaring.names r).filter fun n => start.isPrefixOf n

def tilde? (text : Octets) (whole : Bool) : Execution (Option (Octets × Octets)) := do
  match text with
  | '~' :: rest =>
    let (name, behind) := rest.span (· ≠ '/')
    if behind = [] && !whole then return none
    let home ← match name with
      | [] => valueOf? "HOME".toList
      | ['+'] => some <$> workingDirectory
      | ['-'] => valueOf? "OLDPWD".toList
      | _ => pure (if name = "root".toList then some "/root".toList else none)
    return home.map fun h => (h, behind)
  | _ => return none

def withTilde (word : Phrase) : Execution Phrase := do
  match word with
  | .literal false text :: rest =>
    match ← tilde? text rest.isEmpty with
    | some (home, behind) => return .literal true home :: .literal false behind :: rest
    | none => return word
  | _ => return word

def withTildes (value : Phrase) : Execution Phrase := do
  match value with
  | .literal false text :: rest =>
    let parts := text.splitOn ':'
    let each ← parts.mapIdxM fun n part => do
      let last := decide (n + 1 = parts.length)
      match ← tilde? part (!last || rest.isEmpty) with
      | some (home, behind) => return [Part.literal true home, .literal false behind]
      | none => return [Part.literal false part]
    return List.intercalate [.literal false [':']] each ++ rest
  | _ => return value

def expressionOf (marks : List Mark) : Octets :=
  marks.flatMap fun m =>
    if m.quoted && !m.char.isAlphanum && m.char ∉ ['_', ' '] then ['\\', m.char] else [m.char]

def unredirected (redirects : List Redirect) (before after : Room) : Room :=
  if redirects.isEmpty then after else withInputs before { after with sinks := before.sinks }

def unassigned (names : List Octets) (before after : Room) : Room :=
  if names.isEmpty then after
  else
    { after with
      bindings := before.bindings.filter (fun v => v.1 ∈ names) ++
        after.bindings.filter fun v => v.1 ∉ names
      elements := before.elements.filter (fun v => v.1 ∈ names) ++
        after.elements.filter fun v => v.1 ∉ names
      exported := before.exported.filter (· ∈ names) ++ after.exported.filter (· ∉ names) }

def nameOf : Assignment → Octets
  | .value name .. | .elements name .. => name

def failedRedirect (special : Bool) (wrong : Octets) : Execution Unit := do
  object wrong
  let r : Room ← get
  match r.dialect with
  | .bash => setStatus 1
  | .sh => if special then throw (.ended (.exited 2)) else setStatus 2

inductive Found where
  | at (path : Octets)
  | missing (status : Nat) (sh bash : Octets)

def locate (name : Octets) : Execution Found := do
  let text (cause : String) : Octets := name ++ (": " ++ cause).toList
  if '/' ∉ name then
    match ← Machine.found name with
    | path :: _ => return .at path
    | [] =>
      if name = [] then return .missing 127 (text "Permission denied") (text "command not found")
      let bare := (← get).bindings.lookup "PATH".toList = some []
      return .missing 127 (text "not found") (text (if bare then noFile else "command not found"))
  match ← look name.text with
  | .ok .directory => return .missing 126 (text "Permission denied") (text aDirectory)
  | .ok (.file _) =>
    if ← isExecutable name.text then return .at name
    else return .missing 126 (text "Permission denied") (text "Permission denied")
  | .error .notDirectory => return .missing 126 (text "not found") (text "Not a directory")
  | .error _ => return .missing 127 (text "not found") (text noFile)

def unrunnable : Found → String × Nat
  | .missing 126 _ bash =>
    (if "Not a directory".toList.isSuffixOf bash then "Not a directory" else "Permission denied", 126)
  | _ => (noFile, 127)

def asProcess (act : Execution Unit) : Execution Unit := do
  Signal.pass 1
  apart do
    modify fun r => { r with pid := r.nextPid, nextPid := r.nextPid + 1 }
    let died ← tryCatch (do act; return none) fun
      | .ended (.signalled n) => do
        setStatus (128 + n)
        return some n
      | stop => do
        modify fun r => { r with died := none }
        throw stop
    modify fun r => { r with died }

def asChild (act : Execution Unit) : Execution Unit := do
  asProcess act
  let r : Room ← get
  set { r with died := none }
  if let some n := r.died then Signal.bury n

def performBuiltin (name : Octets) (program : Program) (arguments : List Octets) :
    Execution Unit := do
  let r : Room ← get
  let special := name.text ∈ Builtin.special
  let status ← match r.dialect with
    | .sh =>
      restoring (fun before after => { after with context := before.context }) do
        modify fun r => { r with context := name }
        tryCatch (program arguments) fun
          | .ended (.exited 2) => if special then throw (.ended (.exited 2)) else return 2
          | stop => throw stop
    | .bash =>
      tryCatch (program arguments) fun
        | .abandoned => return 1
        | stop => throw stop
  setStatus status

def fullPath (path : Octets) : Execution Octets := do
  if path.head? = some '/' then return path
  let plain := if "./".toList.isPrefixOf path then path.drop 2 else path
  return (← workingDirectory) ++ ['/'] ++ plain

def forever : Nat := Nat.pow 10 18

def sourceFile? (file : Octets) : Execution (Option Octets) := do
  let r : Room ← get
  if '/' ∈ file || r.dialect = .bash then
    return if (← look file.text) matches .ok _ then some file else none
  (← Machine.candidates file).findM? fun path => return (← look path.text) matches .ok (.file _)

def interpreter? (script : Octets) : Option (List Octets) :=
  match script with
  | '#' :: '!' :: rest =>
    let line := (rest.takeWhile (· ≠ '\n')).dropWhile (· = ' ')
    let (path, behind) := line.span (· ≠ ' ')
    let argument := ((behind.dropWhile (· = ' ')).reverse.dropWhile (· = ' ')).reverse
    some (path :: if argument = [] then [] else [argument])
  | _ => none

mutual

-- Words

def expandPart (fuel : Nat) (split : Bool) (part : Part) : Execution (List Glyph) :=
  match fuel with
  | 0 => throw .endless
  | fuel + 1 =>
    match part with
    | .literal quoted text =>
      return (if quoted then [.trace] else []) ++ Glyph.plain quoted text
    | .parameter quoted name place change => do
      let (content, index) ← fetch fuel name place
      expandChange fuel quoted split name index content change
    | .indirect quoted name change => do
      match change with
      | some (.unknown, [[.literal _ [c]]]) =>
        if c = '@' ∨ c = '*' then
          valuesGlyphs quoted split (c = '*') (← namesWith name)
        else expandChange fuel quoted split name none .unset change
      | _ =>
        let target := (← parameter? name).getD []
        let content ← match Declaring.element? target with
          | some (base, index) =>
            let e ← allElements base
            if index = ['@'] ∨ index = ['*'] then pure (.many (index = ['*']) e.items)
            else pure (.ofValue (e.get? (← placeAt base index)))
          | none => if target = [] then pure .unset else contentOf target
        expandChange fuel quoted split target none content change
    | .arithmetic quoted expression => do
      let text := Glyph.text (← expandParts fuel false expression)
      valueGlyphs quoted split (← calculated text)
    | .substitution quoted body => do
      let text ← substituted fuel body
      valueGlyphs quoted split (withoutLineEnds (text.filter (· ≠ '\x00')))
    | .source body => do
      let text ← substituted fuel body
      let r : Room ← get
      let path := "/dev/fd/" ++ toString (63 - r.sources.length)
      modify fun r => { r with sources := (path, text) :: r.sources }
      return Glyph.plain true path.toList
termination_by structural fuel

def substituted (fuel : Nat) (body : List Command) : Execution Octets :=
  match fuel with
  | 0 => throw .endless
  | fuel + 1 => do
    let outer : Room ← get
    let lax := outer.dialect = .bash && "inherit_errexit" ∉ outer.settings
    let act : Execution Unit := do
      match outer.dialect, body with
      | .bash, [.simple _ [] [] [.mk 0 .read target _]] => do
        let path := Glyph.text (← expandParts fuel false target)
        match ← fileText? path.text with
        | some text =>
          write 1 text
          setStatus 0
        | none => failedRedirect false (path ++ (": " ++ noFile).toList)
      | _, body => runAll fuel body
    let (_, text) ← holding do
      subshell fuel do
        modify fun r =>
          { r with
            depth := r.depth + 1
            options := if lax then r.options.filter (· ≠ 'e') else r.options }
        act
    modify fun r => { r with substituted := some r.status, line := outer.line }
    return text
termination_by structural fuel

def fetch (fuel : Nat) (name : Octets) (place : Option Place) :
    Execution (Content × Option Octets) :=
  match fuel with
  | 0 => throw .endless
  | fuel + 1 => do
    match place with
    | none => return (← contentOf name, none)
    | some (.all joined) =>
      return (.many joined (← allElements (← meantBy name)).items, none)
    | some (.at index) =>
      let text := Glyph.text (← expandParts fuel false index)
      return (.ofValue (← elementValue? name (← placeAt name text)), some text)
termination_by structural fuel

def expandChange (fuel : Nat) (quoted split : Bool) (name : Octets) (index : Option Octets)
    (content : Content) (change : Option (Modifier × List Phrase)) : Execution (List Glyph) :=
  match fuel with
  | 0 => throw .endless
  | fuel + 1 => do
    let strict := 'u' ∈ (← get).options
    let isSet := !(content matches .unset)
    let plainly : Execution (List Glyph) := do
      if strict && !isSet then unsetParameter name index
      contentGlyphs quoted split content
    let instead (words : List Phrase) : Execution (List Glyph) := do
      let word ← withTilde (words.headD [])
      let gs ← expandParts fuel (split && !quoted) word
      return if quoted then .trace :: Glyph.plain true (Glyph.text gs) else gs
    let changed (words : List Phrase) (f : Glob → Content → Content) :
        Execution (List Glyph) := do
      if strict && !isSet then unsetParameter name index
      let pattern := Glyph.marks (← expandParts fuel false (words.headD []))
      contentGlyphs quoted split (f (Glob.ofWord (← globRules) pattern) content)
    match change with
    | none => plainly
    | some (m, words) =>
      match m with
      | .length =>
        if strict && !isSet then unsetParameter name index
        valueGlyphs quoted split (Octets.ofNat (← lengthOf name content))
      | .otherwise orEmpty =>
        if content.isMissing orEmpty then instead words else contentGlyphs quoted split content
      | .instead orEmpty =>
        if content.isMissing orEmpty then valueGlyphs quoted split [] else instead words
      | .assigned orEmpty =>
        if !content.isMissing orEmpty then contentGlyphs quoted split content
        else
          if !Reading.isName name then
            objectAs (name ++ ": bad variable name".toList)
              (['$'] ++ name ++ ": cannot assign in this way".toList)
            giveUp
          let value := Glyph.text (← expandParts fuel false (← withTilde (words.headD [])))
          match index with
          | none => give name value
          | some i => giveElement name (← placeAt name i) value
          valueGlyphs quoted split value
      | .required orEmpty =>
        if content.isMissing orEmpty then
          let reason := Glyph.text (← expandParts fuel false (words.headD []))
          let usual (sh bash : String) : Octets :=
            name ++ ": ".toList ++ if reason ≠ [] then reason else
              (if orEmpty then bash else sh).toList
          objectAs (usual "parameter not set" "parameter not set or null")
            (usual "parameter not set" "parameter null or not set")
          halt
        contentGlyphs quoted split content
      | .withoutStart _ | .withoutEnd _ =>
        changed words fun g c => c.mapValues (Value.trimmed g m)
      | .replaced spot =>
        let new := Glyph.marks (← expandParts fuel false (words.getD 1 []))
        changed words fun g c => c.mapValues (Value.replaced g spot new)
      | .cased upper all =>
        let none? := (words.headD []).isEmpty
        changed words fun g c =>
          c.mapValues (Value.cased (if none? then none else some g) upper all)
      | .sliced =>
        if strict && !isSet then unsetParameter name index
        let start := Glyph.text (← expandParts fuel false (words.headD []))
        let start ← if start = [] then pure 0 else calculatedInt start
        let (length, shown) ← match words[1]? with
          | some w => do
            let text := Glyph.text (← expandParts fuel false w)
            pure (some (← if text = [] then pure 0 else calculatedInt text), text)
          | none => pure (none, [])
        contentGlyphs quoted split (← sliced name content start length shown)
      | .named =>
        match content with
        | .many joined vs => valuesGlyphs quoted split joined (vs.map (·.1))
        | _ => contentGlyphs quoted split content
      | .unknown =>
        let rest := Glyph.text (← expandParts fuel false (words.headD []))
        objectAs "Bad substitution".toList
          ("$\x7b".toList ++ name ++ rest ++ "\x7d: bad substitution".toList)
        giveUp
termination_by structural fuel

def expandParts (fuel : Nat) (split : Bool) (parts : List Part) : Execution (List Glyph) :=
  match fuel, parts with
  | _, [] => return []
  | 0, _ => throw .endless
  | fuel + 1, p :: rest => do
    let first ← expandPart fuel split p
    return first ++ (← expandParts fuel split rest)
termination_by structural fuel

def expandWords (fuel : Nat) (words : List Phrase) : Execution (List Octets) :=
  match fuel, words with
  | _, [] => return []
  | 0, _ => throw .endless
  | fuel + 1, w :: rest => do
    let first ← wordsOf (← expandParts fuel true (← withTilde w))
    return first ++ (← expandWords fuel rest)
termination_by structural fuel

-- Assignments and redirections

def givingOf (fuel : Nat) (a : Assignment) : Execution Giving :=
  match fuel with
  | 0 => throw .endless
  | fuel + 1 => do
    match a with
    | .value name index append value =>
      let index ← match index with
        | some i => some <$> (Glyph.text <$> expandParts fuel false i)
        | none => pure none
      return .value name index append (Glyph.text (← expandParts fuel false (← withTildes value)))
    | .elements name append items => return .elements name append (← itemsOf fuel items)
termination_by structural fuel

def itemsOf (fuel : Nat) (items : List (Option Phrase × Phrase)) :
    Execution (List (Option Octets × Octets)) :=
  match fuel, items with
  | _, [] => return []
  | 0, _ => throw .endless
  | fuel + 1, (index, value) :: rest => do
    let first ← match index with
      | some i => do
        let i := Glyph.text (← expandParts fuel false i)
        pure [(some i, Glyph.text (← expandParts fuel false value))]
      | none => do pure ((← expandWords fuel [value]).map fun v => (none, v))
    return first ++ (← itemsOf fuel rest)
termination_by structural fuel

def assignAll (fuel : Nat) (assignments : List Assignment) : Execution (List Giving) :=
  match fuel, assignments with
  | _, [] => return []
  | 0, _ => throw .endless
  | fuel + 1, a :: rest => do
    let g ← givingOf fuel a
    if (← get).dialect = .bash then Tracing.show (g.shown Tracing.quotedValue)
    g.perform
    return g :: (← assignAll fuel rest)
termination_by structural fuel

def givingsOf (fuel : Nat) (assignments : List Assignment) : Execution (List Giving) :=
  match fuel, assignments with
  | _, [] => return []
  | 0, _ => throw .endless
  | fuel + 1, a :: rest => do
    let g ← givingOf fuel a
    return g :: (← givingsOf fuel rest)
termination_by structural fuel

def redirectAll (fuel : Nat) (redirects : List Redirect) : Execution (Except Octets Unit) :=
  match fuel, redirects with
  | _, [] => return .ok ()
  | 0, _ => throw .endless
  | fuel + 1, .mk descriptor kind target shown :: rest => do
    let target ← withTilde target
    let text? ←
      if kind = .document || (← get).dialect = .sh then
        pure (some (Glyph.text (← expandParts fuel false target)))
      else do
        match ← wordsOf (← expandParts fuel true target) with
        | [word] => pure (some word)
        | _ => pure none
    match text? with
    | none => return .error (shown ++ ": ambiguous redirect".toList)
    | some text =>
      match ← redirect descriptor kind text with
      | .ok _ => redirectAll fuel rest
      | .error wrong => return .error wrong
termination_by structural fuel

-- Commands

def performBare (fuel : Nat) (assignments : List Assignment) (redirects : List Redirect) :
    Execution Unit :=
  match fuel with
  | 0 => throw .endless
  | fuel + 1 =>
    restoring (unredirected redirects) do
      match ← redirectAll fuel redirects with
      | .error wrong => failedRedirect false wrong
      | .ok _ =>
        let givings ← assignAll fuel assignments
        if (← get).dialect = .sh && !givings.isEmpty then
          Tracing.show (Octets.join " " (givings.map (Giving.shown id)))
        setStatus ((← get).substituted.getD 0)
termination_by structural fuel

def performNamed (fuel : Nat) (assignments : List Assignment) (redirects : List Redirect)
    (name : Octets) (arguments : List Octets) : Execution Unit :=
  match fuel with
  | 0 => throw .endless
  | fuel + 1 => do
    let dialect := (← get).dialect
    let special := dialect = .sh && name.text ∈ Builtin.special
    let names := assignments.map nameOf
    restoring (unassigned (if special then [] else names)) do
      let givings ← tryCatch (assignAll fuel assignments) fun
        | .abandoned => return []
        | stop => throw stop
      if !special then modify fun r => { r with exported := names ++ r.exported }
      let shown ← (name :: arguments).mapM Tracing.asShown
      let before := if dialect = .sh then givings.map (Giving.shown id) else []
      Tracing.show (Octets.join " " (before ++ shown))
      if name = "exec".toList && arguments.isEmpty then
        match ← redirectAll fuel redirects with
        | .ok _ => setStatus 0
        | .error wrong => failedRedirect special wrong
      else
        restoring (unredirected redirects) do
          match ← redirectAll fuel redirects with
          | .ok _ => perform fuel name arguments
          | .error wrong => failedRedirect special wrong
termination_by structural fuel

def perform (fuel : Nat) (name : Octets) (arguments : List Octets) : Execution Unit :=
  match fuel with
  | 0 => throw .endless
  | fuel + 1 => do
    let r : Room ← get
    let special := r.dialect = .sh && name.text ∈ Builtin.special
    match if special then none else r.functions.lookup name with
    | some body => callFunction fuel name body arguments
    | none => performOwn fuel name arguments
termination_by structural fuel

def callFunction (fuel : Nat) (name : Octets) (body : Command) (arguments : List Octets) :
    Execution Unit :=
  match fuel with
  | 0 => throw .endless
  | fuel + 1 =>
    restoring unshadowed do
      modify fun r =>
        { r with
          arguments
          shadowed := []
          calls := r.calls + 1
          callers := name :: r.callers
          loops := 0
          optionsSeen := if r.dialect = .sh then (1, 0) else r.optionsSeen }
      tryCatch (runCommand fuel body) fun
        | .returning => return
        | stop => throw stop
termination_by structural fuel

def performOwn (fuel : Nat) (name : Octets) (arguments : List Octets) : Execution Unit :=
  match fuel with
  | 0 => throw .endless
  | fuel + 1 => do
    let dialect := (← get).dialect
    let rich := dialect = .bash
    match name.text, arguments with
    | "eval", words =>
      let words := if rich && words.head? = some ['-', '-'] then words.drop 1 else words
      let line := (← get).line
      match words.head?.filter fun _ => rich with
      | some ('-' :: c :: _) =>
        setStatus (← Declaring.unknownOption true "eval" c "eval [arg ...]")
      | _ =>
        restoring (fun before after =>
          { after with context := before.context, line := before.line, depth := before.depth }) do
          modify fun r => { r with context := if rich then [] else name, depth := r.depth + 1 }
          runText fuel (Octets.join " " words) (if rich then line else 1) "eval: ".toList
    | "exec", words =>
      match if rich then words else [] with
      | ['-', 'a'] :: _ :: words => replaceShell fuel words
      | ['-', c] :: words =>
        if c ∈ ['c', 'l'] then replaceShell fuel words
        else
          setStatus (← Declaring.unknownOption true "exec" c
            "exec [-cl] [-a name] [command [argument ...]] [redirection ...]")
      | _ => replaceShell fuel words
    | ".", file :: words => performSource fuel name file words
    | "source", file :: words =>
      if rich then performSource fuel name file words else launch fuel name arguments
    | ".", [] | "source", [] =>
      if rich then
        complain (name ++ ": filename argument required".toList)
        writeLine 2 (name ++ ": usage: ".toList ++ name ++ " filename [arguments]".toList)
        setStatus 2
      else if name = ['.'] then setStatus 0 else launch fuel name arguments
    | "command", words => performCommand fuel words
    | "builtin", words =>
      if !rich then launch fuel name arguments
      else match words with
        | [] => setStatus 0
        | own :: words =>
          if own.text ∈ Builtin.names dialect then performOwn fuel own words
          else
            complain ("builtin: ".toList ++ own ++ ": not a shell builtin".toList)
            setStatus 1
    | text, words =>
      match Builtin.program? dialect fuel text with
      | some program => performBuiltin name program words
      | none => launch fuel name words
termination_by structural fuel

def performCommand (fuel : Nat) (words : List Octets) : Execution Unit :=
  match fuel with
  | 0 => throw .endless
  | fuel + 1 => do
    let (letters, words) := Declaring.letters words
    match letters.find? (· ∉ ['v', 'V', 'p']), words with
    | some c, _ =>
      setStatus (← Declaring.unknownOption false "command" c
        "command [-pVv] command [arg ...]")
    | none, [] => setStatus 0
    | none, name :: arguments =>
      let rich := (← get).dialect = .bash
      if 'v' ∈ letters then
        setStatus (← if rich then locateAll (name :: arguments) else Builtin.locate name)
      else if 'V' ∈ letters then setStatus (← Builtin.describe "command" name false)
      else
        let special := name.text ∈ Builtin.special && name.text ∉ ["exit", "exec"]
        tryCatch (performOwn fuel name arguments) fun
          | .ended (.exited 2) =>
            if special && !rich then setStatus 2 else throw (.ended (.exited 2))
          | stop => throw stop
termination_by structural fuel
where
  locateAll : List Octets → Execution Nat
    | [] => return 1
    | name :: rest => do
      let status ← Builtin.locate name
      let others ← locateAll rest
      return min status others

def performSource (fuel : Nat) (name file : Octets) (words : List Octets) : Execution Unit :=
  match fuel with
  | 0 => throw .endless
  | fuel + 1 => do
    let rich := (← get).dialect = .bash
    let file := if file = ['-', '-'] then words.headD [] else file
    match ← sourceFile? file with
    | none =>
      if rich then
        complain (file ++ (": " ++ noFile).toList)
        setStatus 1
      else
        complain (if '/' ∈ file then ".: cannot open ".toList ++ file ++ ": No such file".toList
          else ".: ".toList ++ file ++ ": not found".toList)
        throw (.ended (.exited 2))
    | some path =>
      match ← fileText? path.text with
      | none =>
        if rich then
          complain (name ++ ": ".toList ++ file ++ ": is a directory".toList)
          setStatus 1
        else setStatus 0
      | some text =>
        restoring (fun before after =>
          { after with
            context := before.context
            origin := before.origin
            line := before.line
            sourced := before.sourced
            depth := before.depth
            arguments := if rich && !words.isEmpty then before.arguments else after.arguments }) do
          modify fun r =>
            { r with
              context := if rich then [] else file
              origin := if rich then file else r.origin
              sourced := r.sourced + 1
              depth := r.depth + 1
              arguments := if rich && !words.isEmpty then words else r.arguments }
          tryCatch (runText fuel text 1 []) fun
            | .returning => return
            | stop => throw stop
termination_by structural fuel

def replaceShell (fuel : Nat) (words : List Octets) : Execution Unit :=
  match fuel with
  | 0 => throw .endless
  | fuel + 1 => do
    match words with
    | [] => setStatus 0
    | name :: arguments =>
      match ← locate name with
      | .missing status sh bash =>
        match (← get).dialect with
        | .sh =>
          complain ("exec: ".toList ++ sh)
          throw (.ended (.exited (if name = [] then 126 else UInt8.ofNat status)))
        | .bash =>
          let cause := bash.drop name.length
          let path ← fullPath name
          if '/' ∉ name then complain ("exec: ".toList ++ name ++ ": not found".toList)
          else complain (path ++ cause)
          if status = 126 then
            complain ("exec: ".toList ++ path ++ ": cannot execute".toList ++ cause)
          throw (.ended (.exited (UInt8.ofNat status)))
      | .at path =>
        modify fun r => { r with traps := r.traps.filter fun t => t.2 = [] }
        execute fuel path name arguments
        throw (.ended (.exited (UInt8.ofNat (← get).status)))
termination_by structural fuel

-- Programs

def launch (fuel : Nat) (name : Octets) (arguments : List Octets) : Execution Unit :=
  match fuel with
  | 0 => throw .endless
  | fuel + 1 => do
    match ← locate name with
    | .missing status sh bash =>
      objectAs sh bash
      setStatus status
    | .at path => asChild (execute fuel path name arguments)
termination_by structural fuel

def execute (fuel : Nat) (path called : Octets) (arguments : List Octets) : Execution Unit :=
  match fuel with
  | 0 => throw .endless
  | fuel + 1 => do
    match programAt? path.text with
    | some name => runProgram fuel name called arguments
    | none =>
      let script := (← fileText? path.text).getD []
      match interpreter? script with
      | none => startShell fuel (← get).dialect called (path :: arguments)
      | some words =>
        match words, programAt? (words.headD []).text with
        | _ :: before, some name =>
          runProgram fuel name (words.headD []) (before ++ path :: arguments)
        | _, _ =>
          objectAs (called ++ ": not found".toList)
            (called ++ ": cannot execute: required file not found".toList)
          setStatus 127
termination_by structural fuel

def runProgram (fuel : Nat) (name : String) (called : Octets) (arguments : List Octets) :
    Execution Unit :=
  match fuel with
  | 0 => throw .endless
  | fuel + 1 => do
    match name with
    | "sh" | "dash" => startShell fuel .sh called arguments
    | "bash" => startShell fuel .bash called arguments
    | "awk" | "mawk" =>
      let shell (input : Option Octets) (text : Octets) : Execution Unit :=
        restoring withInputs do
          if let some input := input then openInput 0 { rest := input }
          asProcess (startShell fuel .sh "sh".toList ["-c".toList, text])
      setStatus (← Records.awk shell arguments)
    | "env" => runEnvironment fuel arguments
    | "xargs" => runDistribution fuel arguments
    | "timeout" => runLimit fuel arguments
    | _ =>
      match bystanders.find? fun b => b.name = name, Machine.program? name with
      | some b, _ => runBystander fuel b arguments
      | none, some program => setStatus (← program arguments)
      | none, none => setStatus 127
termination_by structural fuel

def become (fuel : Nat) (program : String) (unrunnable? : Octets → Octets)
    (command : List Octets) : Execution Unit :=
  match fuel with
  | 0 => throw .endless
  | fuel + 1 => do
    let name := command.headD []
    match ← locate name with
    | .at path => execute fuel path name command.tail
    | missing =>
      let (cause, status) := unrunnable missing
      Program.say program (unrunnable? name ++ (": " ++ cause).toList)
      setStatus status
termination_by structural fuel

def runEnvironment (fuel : Nat) (arguments : List Octets) : Execution Unit :=
  match fuel with
  | 0 => throw .endless
  | fuel + 1 => do
    match Environment.options.ofArguments arguments with
    | .error objection => setStatus (← Program.refer "env" 125 objection.message)
    | .ok g =>
      let e := Environment.ofGiven g
      e.establish
      if e.command.isEmpty then setStatus (← Machine.printenv [])
      else become fuel "env" (fun c => ['\''] ++ c ++ ['\'']) e.command
termination_by structural fuel

def runBystander (fuel : Nat) (b : Bystander) (arguments : List Octets) : Execution Unit :=
  match fuel with
  | 0 => throw .endless
  | fuel + 1 => do
    match b.options.ofArguments arguments with
    | .error objection => setStatus (← Program.refer b.name b.wrong objection.message)
    | .ok g =>
      if !g.operands.isEmpty then become fuel b.name b.unrunnable g.operands
      else if b.name = "nice" then
        writeLine 1 ['0']
        setStatus 0
      else setStatus (← Program.refer b.name b.wrong b.missing.toList)
termination_by structural fuel

def runLimit (fuel : Nat) (arguments : List Octets) : Execution Unit :=
  match fuel with
  | 0 => throw .endless
  | fuel + 1 => do
    let refuse (text : Octets) : Execution Unit := do
      setStatus (← Program.refer "timeout" 125 text)
    match Limit.options.ofArguments arguments with
    | .error objection => refuse objection.message
    | .ok g =>
      match g.operands with
      | time :: name :: rest =>
        match Numbers.time? time, Signal.ofText? ((g.value? 's').getD "TERM".toList) with
        | none, _ => refuse ("invalid time interval '".toList ++ time ++ ['\''])
        | _, none => refuse (((g.value? 's').getD []) ++ ": invalid signal".toList)
        | some time, some signal =>
          match ← locate name with
          | .missing status sh bash =>
            let (cause, status) := unrunnable (.missing status sh bash)
            Program.say "timeout"
              ("failed to run command '".toList ++ name ++ ("': " ++ cause).toList)
            setStatus status
          | .at path =>
            let r : Room ← get
            let limit := if time = 0 then none else some (r.clock + 1000 * time)
            let finished : Execution Bool := do
              asProcess do
                let r : Room ← get
                set { r with deadline := limit.map fun l => min l (r.deadline.getD l) }
                execute fuel path name rest
              return false
            let isOver ← tryCatch finished fun
              | .expired => return true
              | .endless | .blocked => do
                if limit.isNone then throw .endless
                modify fun r => { r with clock := max r.clock (limit.getD 0) }
                return true
              | stop => throw stop
            if isOver then
              if signal = 9 || g.has 'p' then throw (.ended (.signalled signal))
              setStatus 124
            else
              if let some n := (← get).died then throw (.ended (.signalled n))
      | _ =>
        writeLine 2 "Try 'timeout --help' for more information.".toList
        setStatus 125
termination_by structural fuel

def runDistribution (fuel : Nat) (arguments : List Octets) : Execution Unit :=
  match fuel with
  | 0 => throw .endless
  | fuel + 1 => do
    match Distribution.options.ofArguments arguments with
    | .error objection => setStatus (← Program.refer "xargs" 1 objection.message)
    | .ok g =>
      let d := Distribution.ofGiven g
      let text ← match g.value? 'a' with
        | some path => pure ((← fileText? path.text).getD [])
        | none => wholeInput
      match d.commands text with
      | .error q =>
        let kind := if q = '"' then "double" else "single"
        Program.say "xargs" ("unmatched " ++ kind ++ " quote; by default quotes are special to " ++
          "xargs unless you use the -0 option").toList
        setStatus 1
      | .ok commands => runDistributed fuel d.traced 0 commands
termination_by structural fuel

def runDistributed (fuel : Nat) (traced : Bool) (status : Nat) (commands : List (List Octets)) :
    Execution Unit :=
  match fuel, commands with
  | _, [] => setStatus status
  | 0, _ => throw .endless
  | fuel + 1, command :: rest => do
    let name := command.headD []
    if traced then writeLine 2 (Octets.join " " command)
    match ← locate name with
    | .missing status sh bash =>
      let (cause, status) := unrunnable (.missing status sh bash)
      Program.say "xargs" (name ++ (": " ++ cause).toList)
      setStatus status
    | .at path =>
      restoring withInputs do
        openInput 0 { rest := [] }
        asProcess (execute fuel path name command.tail)
      let r : Room ← get
      match r.died, r.status with
      | some n, _ =>
        Program.say "xargs" (name ++ ": terminated by signal ".toList ++ Octets.ofNat n)
        setStatus 125
      | none, 0 => runDistributed fuel traced status rest
      | none, 255 =>
        Program.say "xargs" (name ++ ": exited with status 255; aborting".toList)
        setStatus 124
      | none, _ => runDistributed fuel traced 123 rest
termination_by structural fuel

-- Shells

def startShell (fuel : Nat) (dialect : Dialect) (called : Octets) (arguments : List Octets) :
    Execution Unit :=
  match fuel with
  | 0 => throw .endless
  | fuel + 1 => do
    modify (freshRoom dialect called)
    assign "PWD".toList (← workingDirectory)
    let i := ({} : Invocation).ofWords dialect arguments
    let refuse (sh bash : Octets) : Execution Unit := do
      writeLine 2 (called ++ ": ".toList ++ if dialect = .sh then "0: ".toList ++ sh else bash)
      throw (.ended (.exited 2))
    let known := Declaring.optionLetters dialect ++
      if dialect = .sh then ['l'] else ['l', 'i', 'r', 'D', 's']
    for (on, c) in i.letters do
      if c ∉ known then
        refuse ("Illegal option -".toList ++ [c]) ("-".toList ++ [c] ++ ": invalid option".toList)
      Declaring.switch on c
    for (on, name) in i.named do
      if (← Declaring.switchNamed on name).isNone then
        refuse ("Illegal option -o ".toList ++ name)
          ("line 0: ".toList ++ called ++ ": ".toList ++ name ++ ": invalid option name".toList)
    modify fun r => { r with settings := i.settings.map Octets.text ++ r.settings }
    if i.command then
      match i.words with
      | [] => refuse "-c requires an argument".toList "-c: option requires an argument".toList
      | text :: words =>
        modify fun r =>
          { r with
            name := words.headD called
            arguments := words.tail
            options := if dialect = .bash then r.options ++ ['c'] else r.options }
        toEnd fuel (runText fuel text 1 "-c: ".toList)
    else if i.input || i.words.isEmpty then
      modify fun r => { r with arguments := i.words, options := r.options ++ ['s'] }
      toEnd fuel (runInput fuel [] 1)
    else
      let file := i.words.headD []
      match ← look file.text with
      | .ok (.file content) =>
        modify fun r =>
          { r with
            name := file
            arguments := i.words.tail
            origin := if dialect = .bash then file else [] }
        toEnd fuel (runText fuel (Octets.ofBytes content.toList) 1 [])
      | .ok .directory =>
        if dialect = .bash then
          writeLine 2 (file ++ ": ".toList ++ file ++ ": Is a directory".toList)
          setStatus 126
      | .error _ =>
        if dialect = .bash then
          writeLine 2 (called ++ ": ".toList ++ file ++ (": " ++ noFile).toList)
          throw (.ended (.exited 127))
        else refuse ("cannot open ".toList ++ file ++ ": No such file".toList) []
termination_by structural fuel

def toEnd (fuel : Nat) (act : Execution Unit) : Execution Unit :=
  match fuel with
  | 0 => throw .endless
  | fuel + 1 => do
    let ending ← tryCatch (do act; return none) fun
      | .ended (.exited code) => do
        setStatus code.toNat
        return some (Stop.ended (.exited code))
      | .ended (.signalled n) => do
        if (← get).dialect = .sh then throw (.ended (.signalled n))
        return some (.ended (.signalled n))
      | .returning | .leaving .. => return none
      | .abandoned => do
        setStatus 1
        return none
      | stop => throw stop
    match (← get).traps.lookup 0 with
    | none | some [] => if let some stop := ending then throw stop
    | some action =>
      let status := (← get).status
      modify fun r => { r with traps := r.traps.filter fun t => t.1 ≠ 0 }
      tryCatch (runText fuel action 1 []) fun
        | .returning | .leaving .. | .abandoned => return
        | stop => throw stop
      throw (ending.getD (.ended (.exited (UInt8.ofNat status))))
termination_by structural fuel

def subshell (fuel : Nat) (act : Execution Unit) : Execution Unit :=
  match fuel with
  | 0 => throw .endless
  | fuel + 1 =>
    apart do
      modify fun r => { r with loops := if r.dialect = .bash then 0 else r.loops }
      toEnd fuel act
termination_by structural fuel

def runText (fuel : Nat) (text : Octets) (line : Nat) (mark : Octets) : Execution Unit :=
  match fuel with
  | 0 => throw .endless
  | fuel + 1 => do
    if text.all fun c => c ∈ [' ', '\t', '\n'] then setStatus 0
    let dialect := (← get).dialect
    runLines fuel text line mark { rest := text, line, dialect }
termination_by structural fuel

def runLines (fuel : Nat) (text : Octets) (first : Nat) (mark : Octets) (s : Source) :
    Execution Unit :=
  match fuel with
  | 0 => throw .endless
  | fuel + 1 => do
    match s.nextLine with
    | .ok none => return
    | .ok (some (commands, s)) =>
      for (line, warning) in s.warnings do
        writeLine 2 ((← prologue line) ++ warning)
      runTogether fuel commands
      runLines fuel text first mark { s with warnings := [] }
    | .error mistake => reportMistake text first mark mistake
termination_by structural fuel
where
  reportMistake (text : Octets) (first : Nat) (mark : Octets) (mistake : Mistake) :
      Execution Unit := do
    let r : Room ← get
    match r.dialect with
    | .sh =>
      modify fun r => { r with line := mistake.line }
      object mistake.message
      throw (.ended (.exited 2))
    | .bash =>
      let name := if r.origin = [] then r.name else r.origin
      for (line, wrong) in mistake.lines first text do
        writeLine 2 (name ++ ": ".toList ++ mark ++ "line ".toList ++ Octets.ofNat line ++
          ": ".toList ++ wrong)
      if mark = "-c: ".toList || (mark = [] && r.sourced = 0) then throw (.ended (.exited 2))
      setStatus 2

def runTogether (fuel : Nat) (commands : List Command) : Execution Unit :=
  match fuel with
  | 0 => throw .endless
  | fuel + 1 => do
    if (← get).dialect = .sh then runAll fuel commands
    else
      tryCatch (runAll fuel commands) fun
        | .abandoned => setStatus 1
        | stop => throw stop
termination_by structural fuel

def runInput (fuel : Nat) (begun : Octets) (first : Nat) : Execution Unit :=
  match fuel with
  | 0 => throw .endless
  | fuel + 1 => do
    let input ← inputOf 0
    if input.closed && begun = [] then runText fuel (← wholeInput) first []
    else
      let (line, ended) ← takeLine
      let text := begun ++ line ++ ['\n']
      let dialect := (← get).dialect
      match ({ rest := text, line := first, dialect } : Source).nextLine with
      | .ok none => if ended then runInput fuel [] (first + 1) else return
      | .ok (some (commands, s)) =>
        runTogether fuel commands
        if ended then runInput fuel [] s.line else return
      | .error mistake =>
        let open_ := match mistake.wrong with
          | .unexpected [] _ | .unclosed _ => true
          | _ => false
        if open_ && ended then runInput fuel text first
        else runText fuel text first []
termination_by structural fuel

-- Control

def settle (fuel : Nat) : Execution Unit :=
  match fuel with
  | 0 => throw .endless
  | fuel + 1 => do
    runTraps fuel
    let r : Room ← get
    if r.status ≠ 0 && !r.tested then
      match (if r.calls = 0 || 'E' ∈ r.options then r.traps.lookup Signal.failure else none) with
      | some action =>
        let traps := r.traps
        set { r with traps := traps.filter fun t => t.1 ≠ Signal.failure }
        runText fuel action r.line []
        modify fun s => { s with traps, status := r.status }
      | none => pure ()
    strictly
termination_by structural fuel

def runTraps (fuel : Nat) : Execution Unit :=
  match fuel with
  | 0 => throw .endless
  | fuel + 1 => do
    let r : Room ← get
    if r.ancestors.any fun a => a.pid = r.pid then return
    match r.caught.find? fun c => c.1 = r.pid with
    | none => return
    | some (pid, n) =>
      set { r with caught := r.caught.erase (pid, n) }
      runText fuel ((r.traps.lookup n).getD []) 1 []
      modify fun s => { s with status := r.status, line := r.line }
      runTraps fuel
termination_by structural fuel

def runCommand (fuel : Nat) (c : Command) : Execution Unit :=
  match fuel with
  | 0 => throw .endless
  | fuel + 1 => do
    if 'n' ∈ (← get).options then return
    match c with
    | .simple line assignments words redirects =>
      modify fun r => { r with line, substituted := none }
      match ← expandWords fuel words with
      | [] => performBare fuel assignments redirects
      | name :: arguments =>
        performNamed fuel assignments redirects name arguments
        let r : Room ← get
        if r.dialect = .bash then
          let last := (name :: arguments).getLastD name
          set { r with bindings := (['_'], last) :: r.bindings.filter fun b => b.1 ≠ ['_'] }
      modify fun r => { r with pipeStatuses := [r.status] }
      settle fuel
    | .declare line words assignments redirects =>
      modify fun r => { r with line, substituted := none }
      runDeclaration fuel words assignments redirects
      modify fun r => { r with pipeStatuses := [r.status] }
      settle fuel
    | .negated c =>
      asTest (runCommand fuel c)
      setStatus (if (← get).status = 0 then 1 else 0)
    | .both first second =>
      asTest (runCommand fuel first)
      if (← get).status = 0 then runCommand fuel second
    | .either first second =>
      asTest (runCommand fuel first)
      if (← get).status ≠ 0 then runCommand fuel second
    | .pipe source sink =>
      let statuses ← runPipe fuel (.pipe source sink)
      let r : Room ← get
      let worst := (statuses.filter (· ≠ 0)).getLastD 0
      let status := if "pipefail" ∈ r.settings then worst else statuses.getLastD 0
      set { r with status, pipeStatuses := statuses }
      settle fuel
    | .group body => runAll fuel body
    | .apart body =>
      subshell fuel (runAll fuel body)
      modify fun r => { r with pipeStatuses := [r.status] }
      settle fuel
    | .background c => runBeside fuel c
    | .choice test body otherwise =>
      asTest (runAll fuel test)
      if (← get).status = 0 then runAll fuel body
      else
        setStatus 0
        runAll fuel otherwise
    | .loop asked test body => runLoop fuel asked test body 0
    | .each line name words shown body =>
      modify fun r => { r with line }
      if !Reading.isName name then
        complain ('\x60' :: name ++ "': not a valid identifier".toList)
        setStatus 1
        return
      let values ← match words with
        | some words => expandWords fuel words
        | none => pure (← get).arguments
      setStatus 0
      tryCatch (runEach fuel name shown values body) fun
        | .abandoned => do
          if name ∈ (← get).constant then setStatus 1 else throw .abandoned
        | stop => throw stop
    | .counting line first test step body =>
      modify fun r => { r with line }
      discard (count fuel true first)
      setStatus 0
      runCounting fuel test step body
    | .select subject shown cases =>
      let text := Glyph.text (← expandParts fuel false (← withTilde subject))
      if (← get).dialect = .bash then Tracing.show ("case ".toList ++ shown ++ " in".toList)
      setStatus 0
      runCases fuel text cases
    | .condition line condition =>
      modify fun r => { r with line }
      let holds ← tryCatch (holdsCondition fuel condition) fun
        | .abandoned => return none
        | stop => throw stop
      setStatus (match holds with
        | some true => 0
        | some false => 1
        | none => 2)
      settle fuel
    | .arithmetic line expression =>
      modify fun r => { r with line }
      let value ← count fuel false expression
      setStatus (if value = 0 then 1 else 0)
      settle fuel
    | .define name body =>
      modify fun r =>
        { r with functions := (name, body) :: r.functions.filter fun f => f.1 ≠ name }
      setStatus 0
    | .redirected line c redirects =>
      modify fun r => { r with line }
      restoring (unredirected redirects) do
        match ← redirectAll fuel redirects with
        | .ok _ => runCommand fuel c
        | .error wrong => failedRedirect false wrong
termination_by structural fuel

def runDeclaration (fuel : Nat) (words : List Phrase) (assignments : List Assignment)
    (redirects : List Redirect) : Execution Unit :=
  match fuel with
  | 0 => throw .endless
  | fuel + 1 => do
    let fields ← expandWords fuel words
    let name := fields.headD []
    let dialect := (← get).dialect
    let givings ← givingsOf fuel assignments
    let text := name.text
    if text ∉ Builtin.names dialect then
      performNamed fuel [] redirects name (fields.tail ++ givings.map (Giving.shown id))
    else
      let quote := if dialect = .sh then id else Tracing.quotedValue
      let shown ← fields.mapM Tracing.asShown
      let announced := text = "export" || text = "readonly"
      Tracing.show (Octets.join " " (shown ++ givings.map fun g =>
        if announced && dialect = .bash then Tracing.quoted (g.shown id) else g.shown quote))
      if announced && dialect = .bash then
        for g in givings do Tracing.show (g.shown quote)
      restoring (unredirected redirects) do
        match ← redirectAll fuel redirects with
        | .error wrong => failedRedirect (dialect = .sh) wrong
        | .ok _ =>
          let program (words : List Octets) : Execution Nat := match text with
            | "export" => Declaring.export words givings
            | "readonly" => Declaring.readonly words givings
            | "local" => Declaring.local words givings
            | _ => Declaring.declare text words givings
          performBuiltin name program fields.tail
termination_by structural fuel

def runPipe (fuel : Nat) (c : Command) : Execution (List Nat) :=
  match fuel with
  | 0 => throw .endless
  | fuel + 1 => do
    match c with
    | .pipe source sink =>
      let (stop, text) ← holding do
        tryCatch (do subshell fuel (runCommand fuel source); return none) fun stop =>
          return some stop
      let first := (← get).status
      let closed ← match stop with
        | none => pure true
        | some .blocked | some .endless => pure false
        | some stop => throw stop
      let others ← restoring withInputs do
        openInput 0 { rest := text, closed }
        runPipe fuel sink
      if stop = some .blocked then throw .blocked
      return first :: others
    | c =>
      let r : Room ← get
      if "lastpipe" ∈ r.settings then runCommand fuel c
      else subshell fuel (runCommand fuel c)
      return [(← get).status]
termination_by structural fuel

def runBeside (fuel : Nat) (c : Command) : Execution Unit :=
  match fuel with
  | 0 => throw .endless
  | fuel + 1 => do
    let r : Room ← get
    let pid := r.nextPid
    let held := ((r.held.map fun h => h.1 + 1).max?).getD 0
    set { r with
      nextPid := pid + 1
      clock := r.clock + 1
      beside := some (r.beside.getD (pid, held)) }
    let lasts ← restoring withInputs do
      openInput 0 { rest := [] }
      tryCatch (do subshell fuel (runCommand fuel c); return false) fun
        | .blocked | .endless => return true
        | stop => throw stop
    let after : Room ← get
    let job : Job := { pid, status := after.status, ends := if lasts then forever else after.clock }
    set { after with
      clock := r.clock
      beside := r.beside
      jobs := after.jobs ++ [job]
      lastJob := some pid
      status := 0 }
termination_by structural fuel

def runAll (fuel : Nat) (commands : List Command) : Execution Unit :=
  match fuel, commands with
  | _, [] => return
  | 0, _ => throw .endless
  | fuel + 1, c :: rest => do
    runCommand fuel c
    runAll fuel rest
termination_by structural fuel

def runBody (fuel : Nat) (body : List Command) : Execution Bool :=
  match fuel with
  | 0 => throw .endless
  | fuel + 1 =>
    restoring (fun before after => { after with loops := before.loops }) do
      modify fun r => { r with loops := r.loops + 1 }
      tryCatch (do runAll fuel body; return true) fun
        | .leaving (loops + 2) again => throw (.leaving (loops + 1) again)
        | .leaving _ again => return again
        | stop => throw stop
termination_by structural fuel

def runLoop (fuel : Nat) (asked : Bool) (test body : List Command) (status : Nat) :
    Execution Unit :=
  match fuel with
  | 0 => throw .endless
  | fuel + 1 => do
    let goes ← asTest (runBody fuel test)
    if goes && (((← get).status = 0) == asked) then
      if ← runBody fuel body then runLoop fuel asked test body (← get).status
    else setStatus (if goes then status else 0)
termination_by structural fuel

def runEach (fuel : Nat) (name shown : Octets) (values : List Octets) (body : List Command) :
    Execution Unit :=
  match fuel, values with
  | _, [] => return
  | 0, _ => throw .endless
  | fuel + 1, value :: rest => do
    if (← get).dialect = .bash then
      Tracing.show ("for ".toList ++ name ++ " in ".toList ++ shown)
    give name value
    if ← runBody fuel body then runEach fuel name shown rest body
termination_by structural fuel

/-- The value of an expression that is a command; one without a value counts as zero. An empty part
of a counting loop stands for one. -/
def count (fuel : Nat) (isPart : Bool) (expression : Phrase) : Execution Int :=
  match fuel with
  | 0 => throw .endless
  | fuel + 1 => do
    let text := Glyph.text (← expandParts fuel false expression)
    let text := if isPart then text.dropWhile Distribution.isBlank else text
    let text := if isPart && text = [] then ['1'] else text
    Tracing.show ("(( ".toList ++ text ++ " ))".toList)
    match ← calculate text with
    | .ok n => return intOf n
    | .error fault =>
      complain ("((: ".toList ++ fault.richMessage text)
      return 0
termination_by structural fuel

def runCounting (fuel : Nat) (test step : Phrase) (body : List Command) : Execution Unit :=
  match fuel with
  | 0 => throw .endless
  | fuel + 1 => do
    let status := (← get).status
    let goes ← count fuel true test
    setStatus status
    if goes ≠ 0 then
      if ← runBody fuel body then
        discard (count fuel true step)
        runCounting fuel test step body
termination_by structural fuel

def runCases (fuel : Nat) (text : Octets)
    (cases : List (List Phrase × List Command × CaseEnd)) : Execution Unit :=
  match fuel, cases with
  | _, [] => return
  | 0, _ => throw .endless
  | fuel + 1, (patterns, body, ending) :: rest => do
    if ← matchesAny fuel text patterns then runCase fuel text body ending rest
    else runCases fuel text rest
termination_by structural fuel

def runCase (fuel : Nat) (text : Octets) (body : List Command) (ending : CaseEnd)
    (rest : List (List Phrase × List Command × CaseEnd)) : Execution Unit :=
  match fuel with
  | 0 => throw .endless
  | fuel + 1 => do
    runAll fuel body
    match ending, rest with
    | .through, (_, body, ending) :: rest => runCase fuel text body ending rest
    | .further, rest => runCases fuel text rest
    | _, _ => return
termination_by structural fuel

def matchesAny (fuel : Nat) (text : Octets) (patterns : List Phrase) : Execution Bool :=
  match fuel, patterns with
  | _, [] => return false
  | 0, _ => throw .endless
  | fuel + 1, p :: rest => do
    let marks := Glyph.marks (← expandParts fuel false (← withTilde p))
    let folded := decide ("nocasematch" ∈ (← get).settings)
    if Regex.fits folded (Glob.ofWord (← globRules) marks) text then return true
    else matchesAny fuel text rest
termination_by structural fuel

-- Conditions

def holdsCondition (fuel : Nat) (c : Condition) : Execution (Option Bool) :=
  match fuel with
  | 0 => throw .endless
  | fuel + 1 => do
    match c with
    | .word w =>
      let text := Glyph.text (← expandParts fuel false w)
      showCondition ["-n".toList, Tracing.quoted text]
      return some (text ≠ [])
    | .unary operator w =>
      let text := Glyph.text (← expandParts fuel false (← withTilde w))
      showCondition [operator.toList, Tracing.quoted text]
      if operator = "-v" then
        match Declaring.element? text with
        | some (name, index) =>
          return some (← elementValue? name (← placeAt name index)).isSome
        | none => return some (← variableValue? text).isSome
      return some (← Conditions.holdsOf operator text)
    | .binary operator a b => do
      let left := Glyph.text (← expandParts fuel false (← withTilde a))
      let marks := Glyph.marks (← expandParts fuel false (← withTilde b))
      let right := Mark.chars marks
      let pattern := operator ∈ ["=", "==", "!=", "=~"]
      showCondition [Tracing.quoted left, operator.toList,
        if pattern then marks.flatMap fun m => if m.quoted then ['\\', m.char] else [m.char]
        else Tracing.quoted right]
      let r : Room ← get
      let folded := decide ("nocasematch" ∈ r.settings)
      let fits : Bool :=
        Regex.fits folded (Glob.ofWord { lists := true } marks) left
      match operator with
      | "=" | "==" => return some fits
      | "!=" => return some !fits
      | "<" => return some (decide (left < right))
      | ">" => return some (decide (right < left))
      | "=~" =>
        match Regex.ofText { extended := true } (expressionOf marks) with
        | .error _ => return none
        | .ok regex =>
          match regex.find? folded left with
          | none =>
            setElements "BASH_REMATCH".toList {}
            return some false
          | some found =>
            let groups := (List.range (regex.groupCount + 1)).map fun n => found.group left n
            setElements "BASH_REMATCH".toList (({} : Elements).add groups)
            return some true
      | _ =>
        match Conditions.numeric.lookup operator with
        | none => return some (← compareFiles operator left right)
        | some relation =>
          match ← calculate left, ← calculate right with
          | .ok x, .ok y =>
            return some (relation (intOf x) (intOf y))
          | .error fault, _ =>
            complain ("[[: ".toList ++ fault.richMessage left)
            return some false
          | _, .error fault =>
            complain ("[[: ".toList ++ fault.richMessage right)
            return some false
    | .negated c => return (← holdsCondition fuel c).map (!·)
    | .both a b =>
      match ← holdsCondition fuel a with
      | some true => holdsCondition fuel b
      | other => return other
    | .either a b =>
      match ← holdsCondition fuel a with
      | some false => holdsCondition fuel b
      | other => return other
termination_by structural fuel
where
  showCondition (words : List Octets) : Execution Unit :=
    Tracing.show ("[[ ".toList ++ Octets.join " " words ++ " ]]".toList)
  compareFiles (operator : String) (a b : Octets) : Execution Bool := do
    match ← (Conditions.holdsBetween operator a b).run with
    | .ok holds => return holds
    | .error _ => return false

end

end MutationPipeline.Rehearsal.Shell.Execution

/-!
How far a process comes: with which programs it can start, where it stops, and what those that it
has started do after that.
-/
namespace MutationPipeline.Rehearsal.Shell

structure Progress where
  room : Room
  status : Option ExitStatus

namespace Progress

def statusOf? (status : Nat) : Stop → Option ExitStatus
  | .blocked | .endless | .expired => none
  | .ended s => some s
  | .abandoned => some (.exited 1)
  | .leaving .. | .returning => some (.exited (UInt8.ofNat status))

def ofExecution (act : Execution Unit) (room : Room) : Progress :=
  let (result, reached) := act.run.run room
  let stop := match result with
    | .ok _ => Stop.returning
    | .error stop => stop
  let (later, settled) := Signal.finishJobs.run.run reached
  let room := { settled with clock := reached.clock }
  match stop, later with
  | .blocked, .error (.ended status) => ⟨room, some status⟩
  | stop, _ => ⟨room, statusOf? reached.status stop⟩

def outputEnded (p : Progress) : Bool :=
  p.status.isSome || !p.room.sinks.any fun s => s.2 = .output

end Progress

namespace Execution

def denied : String := "Permission denied (os error 13)"

def program? (name : Octets) : Execution (Except String Octets) := do
  if '/' ∈ name then
    match ← look name.text with
    | .ok (.file _) => return if ← isExecutable name.text then .ok name else .error denied
    | .ok .directory => return .error denied
    | .error e => return .error e.message
  match ← Machine.found name with
  | path :: _ => return .ok path
  | [] =>
    let there ← (← Machine.candidates name).anyM fun path => return (← look path.text) matches .ok _
    return .error (if there && name ≠ [] then denied else ReadError.notFound.message)

end Execution

end MutationPipeline.Rehearsal.Shell
