import MutationPipeline.Rehearsal.Shell.Options
import MutationPipeline.Rehearsal.Shell.Variables

/-!
Changes to the values of parameters: cutting, replacing, slicing, and other letters.
-/
namespace MutationPipeline.Rehearsal.Shell.Value

open Execution

def trimmed (g : Glob) (m : Modifier) (value : Octets) : Octets :=
  match m with
  | .withoutStart longest => value.drop ((g.startLength? longest value).getD 0)
  | .withoutEnd longest => value.take ((g.endStart? longest value).getD value.length)
  | _ => value

def inserted (new : List Mark) (stretch : Octets) : Octets :=
  new.flatMap fun m => if m.char = '&' && !m.quoted then stretch else [m.char]

def replacedAll (g : Glob) (new : List Mark) (fuel : Nat) (value : Octets) : Octets :=
  match fuel with
  | 0 => value
  | fuel + 1 =>
    match g.find? false false value with
    | none => value
    | some (_, 0) => value
    | some (start, length) =>
      value.take start ++ inserted new ((value.drop start).take length) ++
        replacedAll g new fuel (value.drop (start + length))

def replaced (g : Glob) (spot : Spot) (new : List Mark) (value : Octets) : Octets :=
  match spot with
  | .everywhere => replacedAll g new (value.length + 1) value
  | _ =>
    match g.find? (spot = .start) (spot = .finish) value with
    | none => value
    | some (start, length) =>
      if length = 0 ∧ spot = .first then value
      else value.take start ++ inserted new ((value.drop start).take length) ++
        value.drop (start + length)

def cased (g : Option Glob) (upper all : Bool) (value : Octets) : Octets :=
  let changed (c : Char) : Char :=
    if g.all (·.fits [c]) then if upper then c.toUpper else c.toLower else c
  if all then value.map changed
  else match value with
    | [] => []
    | c :: rest => changed c :: rest

def slice? (count : Nat) (start : Int) (length : Option Int) : Option (Nat × Nat) :=
  let first := if start < 0 then (count : Int) + start else start
  if first < 0 || (count : Int) < first then some (0, 0)
  else match length with
    | none => some (first.toNat, count - first.toNat)
    | some n =>
      if 0 ≤ n then some (first.toNat, n.toNat)
      else
        let last := (count : Int) + n
        if last < first then none else some (first.toNat, (last - first).toNat)

def sliceOfMany? (places : Bool) (values : List (Octets × Octets)) (start : Int)
    (length : Option Int) : Option (List (Octets × Octets)) :=
  let bound := if places then ((values.map fun v => Elements.number v.1 + 1).max?).getD 0
    else values.length
  let first := if start < 0 then (bound : Int) + start else start
  if first < 0 then some []
  else
    let behind := if places then values.filter fun v => first.toNat ≤ Elements.number v.1
      else values.drop first.toNat
    match length with
    | none => some behind
    | some n => if n < 0 then none else some (behind.take n.toNat)

end MutationPipeline.Rehearsal.Shell.Value

/-!
Commands that declare variables and set options: they give variables values, letters and bounds,
take them away, and tell what is set.
-/
namespace MutationPipeline.Rehearsal.Shell.Declaring

open Execution

def fail (special : Bool) (status : Nat) (sh bash : Octets) : Execution Nat := do
  complainAs sh bash
  if (← get).dialect = .bash then return status
  else if special then throw (.ended (.exited 2))
  else return 2

def unknownOption (special : Bool) (name : String) (c : Char) (usage : String) :
    Execution Nat := do
  let start := (name ++ ": ").toList
  let status ← fail special 2 (start ++ "Illegal option -".toList ++ [c])
    (start ++ ['-', c] ++ ": invalid option".toList)
  if (← get).dialect = .bash then writeLine 2 (start ++ ("usage: " ++ usage).toList)
  return status

def letters : List Octets → List Char × List Octets
  | ['-', '-'] :: rest => ([], rest)
  | ('-' :: c :: cs) :: rest =>
    let (more, operands) := letters rest
    (c :: cs ++ more, operands)
  | operands => ([], operands)

def withLetters (special : Bool) (name usage : String) (known : List Char)
    (act : List Char → List Octets → Execution Nat) : Program := fun words => do
  let (given, operands) := letters words
  match given.find? (· ∉ known) with
  | some c => unknownOption special name c usage
  | none => act given operands

def notIdentifier (name : String) (word : Octets) : Octets :=
  (name ++ ": \x60").toList ++ word ++ "': not a valid identifier".toList

def noName (name : String) (word : Octets) : Execution Nat :=
  fail true 1 ((name ++ ": ").toList ++ word.takeWhile (· ≠ '=') ++ ": bad variable name".toList)
    (notIdentifier name word)

/-! ### Telling -/

def marks (r : Room) (name : Octets) : Octets :=
  let has (c : Char) : Bool := r.natures.any fun n => n.1 = name && n.2 = c
  let kind := match r.elements.lookup name with
    | some e => if e.byName then ['A'] else ['a']
    | none => []
  let all := kind ++ (if has 'i' then ['i'] else []) ++ (if has 'n' then ['n'] else []) ++
    (if name ∈ r.constant then ['r'] else []) ++ (if name ∈ r.exported then ['x'] else []) ++
    (if has 'l' then ['l'] else []) ++ if has 'u' then ['u'] else []
  if all = [] then ['-'] else all

def told (r : Room) (name : Octets) : Octets :=
  let value := match r.elements.lookup name, r.bindings.lookup name with
    | some e, _ =>
      let items := e.items.map fun i => ['['] ++ i.1 ++ "]=".toList ++ doubly i.2
      "=(".toList ++ Octets.join " " items ++
        (if e.byName && !e.items.isEmpty then [' ', ')'] else [')'])
    | none, some v => '=' :: doubly v
    | none, none => []
  "declare -".toList ++ marks r name ++ [' '] ++ name ++ value

def names (r : Room) : List Octets :=
  ((r.bindings.map (·.1) ++ r.elements.map (·.1)).eraseDups).mergeSort Octets.inOrder

def tell (verb : String) (isMeant : Room → Octets → Bool) : Execution Nat := do
  let r : Room ← get
  for name in (names r).filter (isMeant r) do
    writeLine 1 (match r.dialect with
      | .bash => told r name
      | .sh => (verb ++ " ").toList ++ name ++ ['='] ++ singly ((r.bindings.lookup name).getD []))
  return 0

def tellAll : Execution Nat := do
  let r : Room ← get
  for name in names r do
    match r.elements.lookup name, r.bindings.lookup name with
    | some e, _ =>
      let items := e.items.map fun i => ['['] ++ i.1 ++ "]=".toList ++ doubly i.2
      writeLine 1 (name ++ "=(".toList ++ Octets.join " " items ++ [')'])
    | none, some v =>
      let value := match r.dialect with
        | .sh => singly v
        | .bash => if v = [] then [] else Format.quoted v
      writeLine 1 (name ++ ['='] ++ value)
    | none, none => pure ()
  return 0

/-! ### Declaring -/

abbrev Declared := Octets × Option Giving

def Declared.ofWord (word : Octets) : Declared :=
  match Giving.ofWord? word with
  | some g => (g.name, some g)
  | none => (word, none)

def eachDeclared (command : String) (act : Octets → Execution Unit) :
    List Declared → Execution Nat
  | [] => return 0
  | (name, value) :: rest => do
    let text := match value with
      | some g => g.shown id
      | none => name
    let status ← if !Reading.isName name then noName command text
      else tryCatch (do
        act name
        if let some g := value then g.perform
        return 0) fun
          | .abandoned => return 1
          | stop => throw stop
    let others ← eachDeclared command act rest
    return max status others

def «export» (words : List Octets) (givings : List Giving) : Execution Nat := do
  let known := if (← get).dialect = .sh then ['p'] else ['p', 'n', 'f']
  withLetters true "export" "export [-fn] [name[=value] ...] or export -p" known
    (fun letters operands => do
      let declared := operands.map Declared.ofWord ++ givings.map fun g => (g.name, some g)
      if declared.isEmpty then return ← tell "export" fun r n => decide (n ∈ r.exported)
      eachDeclared "export" (fun name => modify fun r =>
        { r with exported := if 'n' ∈ letters then r.exported.filter (· ≠ name)
            else r.exported.insert name }) declared) words

def readonly (words : List Octets) (givings : List Giving) : Execution Nat := do
  let known := if (← get).dialect = .sh then ['p'] else ['p', 'a', 'A', 'f']
  withLetters true "readonly" "readonly [-aAf] [name[=value] ...] or readonly -p" known
    (fun _ operands => do
      let declared := operands.map Declared.ofWord ++ givings.map fun g => (g.name, some g)
      if declared.isEmpty then return ← tell "readonly" fun r n => decide (n ∈ r.constant)
      let status ← eachDeclared "readonly" (fun _ => return) declared
      modify fun r => { r with constant := declared.map (·.1) ++ r.constant }
      return status) words

def setLetters (on off : List Char) (name : Octets) : Execution Unit := do
  if 'A' ∈ on || 'a' ∈ on then
    let r : Room ← get
    if (r.elements.lookup name).isNone then
      let e ← elementsOf name
      setElements name { e with byName := 'A' ∈ on }
  modify fun r =>
    let others := r.natures.filter fun n => !(n.1 = name && n.2 ∈ off)
    { r with
      natures := (on.filter (· ∈ ['i', 'l', 'u', 'n'])).map (fun c => (name, c)) ++ others
      exported := if 'x' ∈ on then r.exported.insert name
        else if 'x' ∈ off then r.exported.filter (· ≠ name) else r.exported }

def signedLetters : List Octets → List Char × List Char × List Octets
  | ['-', '-'] :: rest => ([], [], rest)
  | ('-' :: c :: cs) :: rest =>
    let (on, off, operands) := signedLetters rest
    (c :: cs ++ on, off, operands)
  | ('+' :: c :: cs) :: rest =>
    let (on, off, operands) := signedLetters rest
    (on, c :: cs ++ off, operands)
  | operands => ([], [], operands)

def tellNamed (command : String) : List Octets → Execution Nat
  | [] => return 0
  | name :: rest => do
    let r : Room ← get
    let known := (r.bindings.lookup name).isSome || (r.elements.lookup name).isSome ||
      name ∈ r.exported || name ∈ r.constant
    if known then writeLine 1 (told r name)
    else complain ((command ++ ": ").toList ++ name ++ ": not found".toList)
    let others ← tellNamed command rest
    return max (if known then 0 else 1) others

def declareUsage (command : String) : String :=
  command ++ " [-aAfFgiIlnrtux] [name[=value] ...] or " ++ command ++ " -p [-aAfFilnrtux] [name ...]"

def declare (command : String) (words : List Octets) (givings : List Giving) : Execution Nat := do
  let (on, off, operands) := signedLetters words
  let r : Room ← get
  match (on ++ off).find? (· ∉ "aAfFgiIlnrtuxp".toList) with
  | some c => unknownOption false command c (declareUsage command)
  | none =>
    if 'p' ∈ on && givings.isEmpty then
      if operands.isEmpty then return ← tell "declare" fun _ _ => true
      else return ← tellNamed command operands
    let declared := operands.map Declared.ofWord ++ givings.map fun g => (g.name, some g)
    if 'f' ∈ on || 'F' ∈ on then
      let unknown := operands.filter fun n => (r.functions.lookup n).isNone
      if 'F' ∈ on then
        for n in operands.filter (· ∉ unknown) do writeLine 1 n
      return if unknown.isEmpty then 0 else 1
    if declared.isEmpty then return ← tellAll
    let own := r.calls ≠ 0 && 'g' ∉ on
    let status ← eachDeclared command (fun name => do
      if own then
        if name ∈ r.constant then
          complain ((command ++ ": ").toList ++ name ++ ": readonly variable".toList)
          throw .abandoned
        shadow name
        forget name
      setLetters on off name) declared
    if 'r' ∈ on then modify fun r => { r with constant := declared.map (·.1) ++ r.constant }
    return status

def «local» (words : List Octets) (givings : List Giving) : Execution Nat := do
  let r : Room ← get
  match r.dialect, r.calls with
  | .sh, 0 => fail true 2 "local: not in a function".toList []
  | .bash, 0 => fail false 1 [] "local: can only be used in a function".toList
  | .bash, _ => declare "local" words givings
  | .sh, _ =>
    eachDeclared "local" shadow (words.map Declared.ofWord ++ givings.map fun g => (g.name, some g))

/-! ### Taking away -/

def element? (word : Octets) : Option (Octets × Octets) :=
  match word.span (· ≠ '[') with
  | (name, _ :: rest) =>
    if Reading.isName name && rest.getLast? = some ']' then some (name, rest.dropLast) else none
  | _ => none

def unsetOne (letters : List Char) (word : Octets) : Execution Nat := do
  let r : Room ← get
  let isFunction := (r.functions.lookup word).isSome
  if 'f' ∈ letters then
    modify fun r => { r with functions := r.functions.filter fun f => f.1 ≠ word }
    return 0
  match r.dialect, element? word with
  | .bash, some (name, index) =>
    let e ← elementsOf name
    if index = ['@'] || index = ['*'] then forget name
    else setElements name (e.erase (← placeAt name index))
    return 0
  | _, _ =>
    if !Reading.isName word && !isFunction then
      fail true 1 ("unset: ".toList ++ word ++ ": bad variable name".toList)
        (notIdentifier "unset" word)
    else if word ∈ r.constant then
      fail true 1 ("unset: ".toList ++ word ++ ": is read only".toList)
        ("unset: ".toList ++ word ++ ": cannot unset: readonly variable".toList)
    else
      let isVariable := (r.bindings.lookup word).isSome || (r.elements.lookup word).isSome
      if r.dialect = .bash && !isVariable && isFunction && 'v' ∉ letters then
        modify fun r => { r with functions := r.functions.filter fun f => f.1 ≠ word }
      else forget word
      return 0

def unset : Program :=
  withLetters true "unset" "unset [-f] [-v] [-n] [name ...]" ['v', 'f', 'n'] fun letters words => do
    let mut status := 0
    for word in words do
      let n ← unsetOne letters word
      status := max status n
    return status

def shift : Program := fun words => do
  let r : Room ← get
  match words with
  | [] => if r.arguments = [] then tooMany else move 1
  | word :: _ =>
    match (String.ofList word).toInt? with
    | none =>
      fail true 1 ("shift: Illegal number: ".toList ++ word)
        ("shift: ".toList ++ word ++ ": numeric argument required".toList)
    | some n =>
      if n < 0 then
        fail true 1 ("shift: Illegal number: ".toList ++ word)
          ("shift: ".toList ++ word ++ ": shift count out of range".toList)
      else if r.arguments.length < n.toNat then tooMany
      else move n.toNat
where
  move (n : Nat) : Execution Nat := do
    modify fun r => { r with arguments := r.arguments.drop n, optionsSeen := (1, 0) }
    return 0
  tooMany : Execution Nat := do
    if (← get).dialect = .bash then return 1
    fail true 1 "shift: can't shift that many".toList []

/-! ### Options -/

def optionNames : Dialect → List (String × Char)
  | .sh => [("errexit", 'e'), ("noglob", 'f'), ("ignoreeof", 'I'), ("interactive", 'i'),
      ("monitor", 'm'), ("noexec", 'n'), ("stdin", 's'), ("xtrace", 'x'), ("verbose", 'v'),
      ("vi", 'V'), ("emacs", 'E'), ("noclobber", 'C'), ("allexport", 'a'), ("notify", 'b'),
      ("nounset", 'u')]
  | .bash => [("allexport", 'a'), ("braceexpand", 'B'), ("errexit", 'e'), ("errtrace", 'E'),
      ("functrace", 'T'), ("hashall", 'h'), ("keyword", 'k'), ("monitor", 'm'), ("noclobber", 'C'),
      ("noexec", 'n'), ("noglob", 'f'), ("notify", 'b'), ("nounset", 'u'), ("onecmd", 't'),
      ("physical", 'P'), ("pipefail", 'p'), ("posix", 'o'), ("privileged", 'p'), ("verbose", 'v'),
      ("xtrace", 'x')]

def optionLetters : Dialect → List Char
  | .sh => "efImnsxvVECabui".toList
  | .bash => "abefhkmnptuvxBCEHPT".toList

def optionOrder : Dialect → List Char
  | .sh => "ubaCEVvxsnmIfe".toList
  | .bash => "aefhkmnptuvxBCHEPTc".toList

def switch (on : Bool) (c : Char) : Execution Unit := modify fun r =>
  let all := (optionOrder r.dialect).filter fun d => if d = c then on else d ∈ r.options
  { r with options := all }

def switchNamed (on : Bool) (name : Octets) : Execution (Option Unit) := do
  let dialect := (← get).dialect
  if dialect = .bash && name = "pipefail".toList then
    modify fun r =>
      let others := r.settings.filter (· ≠ "pipefail")
      { r with settings := if on then "pipefail" :: others else others }
    return some ()
  match (optionNames dialect).lookup name.text with
  | some c => return some (← switch on c)
  | none => return none

inductive Switched where
  | done
  | arguments (words : List Octets)
  | wrong (status : Nat)

def switchAll (object : Bool → Octets → Execution Nat) : List Octets → Execution Switched
  | [] => return .done
  | ['-', '-'] :: rest => return .arguments rest
  | ['-'] :: rest => do
    switch false 'x'
    switch false 'v'
    return if rest.isEmpty then .done else .arguments rest
  | ['+'] :: rest => return .arguments rest
  | (sign :: letters) :: rest => do
    if sign ≠ '-' ∧ sign ≠ '+' then return .arguments ((sign :: letters) :: rest)
    let on := decide (sign = '-')
    let known := optionLetters (← get).dialect
    let plain := letters.filter (· ≠ 'o')
    match plain.find? (· ∉ known) with
    | some c => return .wrong (← object false [c])
    | none =>
      for c in plain do switch on c
      match decide ('o' ∈ letters), rest with
      | true, name :: rest =>
        match ← switchNamed on name with
        | some _ => switchAll object rest
        | none => return .wrong (← object true name)
      | _, rest => switchAll object rest
  | [] :: rest => return .arguments ([] :: rest)

def tellOptions (asCommands : Bool) : Execution Nat := do
  let r : Room ← get
  if !asCommands && r.dialect = .sh then writeLine 1 "Current option settings".toList
  for (name, c) in optionNames r.dialect do
    let on := if name = "pipefail" then decide ("pipefail" ∈ r.settings) else decide (c ∈ r.options)
    if asCommands then writeLine 1 (("set " ++ (if on then "-o " else "+o ") ++ name).toList)
    else
      let state := if on then "on" else "off"
      let padded := Format.pad true ' ' (if r.dialect = .sh then 16 else 15) name.toList
      writeLine 1 (padded ++ (if r.dialect = .sh then [] else ['\t']) ++ state.toList)
  return 0

def set : Program := fun words => do
  match words with
  | [] => tellAll
  | [['-', 'o']] => tellOptions false
  | [['+', 'o']] => tellOptions true
  | _ =>
    match ← switchAll object words with
    | .done => return 0
    | .arguments words =>
      modify fun r => { r with arguments := words, optionsSeen := (1, 0) }
      return 0
    | .wrong status => return status
where
  object (named : Bool) (o : Octets) : Execution Nat := do
    if named then
      fail true 2 ("set: Illegal option -o ".toList ++ o)
        ("set: ".toList ++ o ++ ": invalid option name".toList)
    else
      unknownOption true "set" (o.headD ' ')
        "set [-abefhkmnptuvxBCEHPT] [-o option-name] [--] [-] [arg ...]"

def settingNames : List String :=
  ["autocd", "cdable_vars", "cdspell", "checkhash", "checkjobs", "checkwinsize", "cmdhist",
    "dotglob", "expand_aliases", "extglob", "extquote", "failglob", "force_fignore",
    "globasciiranges", "globskipdots", "globstar", "histappend", "inherit_errexit", "lastpipe",
    "lithist", "localvar_inherit", "localvar_unset", "nocaseglob", "nocasematch", "nullglob",
    "patsub_replacement", "sourcepath", "xpg_echo"]

def shopt : Program := fun words => do
  let (given, names) := letters words
  match given.find? (· ∉ ['s', 'u', 'q', 'p', 'o']) with
  | some c => unknownOption false "shopt" c "shopt [-pqsu] [-o] [optname ...]"
  | none =>
    let mut status := 0
    for name in names do
      if name.text ∉ settingNames then
        complain ("shopt: ".toList ++ name ++ ": invalid shell option name".toList)
        status := 1
      else if 's' ∈ given || 'u' ∈ given then
        modify fun r =>
          let others := r.settings.filter (· ≠ name.text)
          { r with settings := if 's' ∈ given then name.text :: others else others }
      else
        let on := decide (name.text ∈ (← get).settings)
        if !on then status := 1
        if 'q' ∉ given then
          writeLine 1 (Format.pad true ' ' 15 name ++ ['\t'] ++ (if on then "on" else "off").toList)
    return status

def «let» : Program := fun words => do
  if words.isEmpty then
    complain "let: expression expected".toList
    return 1
  let mut status := 0
  for word in words do
    match ← calculate word with
    | .ok n => status := if n = ['0'] then 1 else 0
    | .error fault =>
      complain ("let: ".toList ++ fault.richMessage word)
      return 1
  return status

/-! ### Options of scripts -/

def optionWrong (sh bash : Octets) : Execution Unit := do
  let r : Room ← get
  writeLine 2 (match r.dialect with
    | .sh => sh
    | .bash => r.name ++ ": ".toList ++ bash)

def getopts : Program := fun words => do
  match words with
  | known :: name :: others =>
    let r : Room ← get
    let arguments := if others.isEmpty then r.arguments else others
    let (index, behind) := r.optionsSeen
    let silent := known.head? = some ':'
    let current := arguments[index - 1]?.getD []
    let ended := behind = 0 && (current.head? ≠ some '-' || current.length < 2)
    if ended || (behind = 0 && current = ['-', '-']) then
      let index := if ended then index else index + 1
      store index 0
      forget "OPTARG".toList
      give name ['?']
      return 1
    let at_ := max behind 1
    let c := current.getD at_ ' '
    let rest := current.drop (at_ + 1)
    let (nextIndex, nextPlace) := if rest = [] then (index + 1, 0) else (index, at_ + 1)
    match if c = ':' then none else known.idxOf? c with
    | none =>
      store nextIndex nextPlace
      if silent then give "OPTARG".toList [c]
      else
        forget "OPTARG".toList
        optionWrong ("Illegal option -".toList ++ [c]) ("illegal option -- ".toList ++ [c])
      give name ['?']
      return 0
    | some n =>
      if known[n + 1]? ≠ some ':' then
        store nextIndex nextPlace
        forget "OPTARG".toList
        give name [c]
        return 0
      else if rest ≠ [] then
        store (index + 1) 0
        give "OPTARG".toList rest
        give name [c]
        return 0
      else
        match arguments[index]? with
        | some value =>
          store (index + 2) 0
          give "OPTARG".toList value
          give name [c]
        | none =>
          store (index + 1) 0
          if silent then
            give "OPTARG".toList [c]
            give name [':']
          else
            forget "OPTARG".toList
            optionWrong ("No arg for -".toList ++ [c] ++ " option".toList)
              ("option requires an argument -- ".toList ++ [c])
            give name ['?']
        return 0
  | _ =>
    if (← get).dialect = .bash then
      writeLine 2 "getopts: usage: getopts optstring name [arg ...]".toList
    else complain "getopts: Usage: getopts optstring var [arg...]".toList
    return 2
where
  store (index behind : Nat) : Execution Unit := do
    give "OPTIND".toList (Octets.ofNat index)
    modify fun r => { r with optionsSeen := (index, behind) }

end MutationPipeline.Rehearsal.Shell.Declaring
