import MutationPipeline.Rehearsal.Shell.Intake
import MutationPipeline.Rehearsal.Shell.Machine

/-!
The commands that the shells perform themselves and that run no others. Each shell has its own, and
says things in its own way.
-/
namespace MutationPipeline.Rehearsal.Shell.Builtin

open Execution Declaring

/-! ### Places -/

def followed (path : Octets) : Octets :=
  let doubled := "//".toList.isPrefixOf path && path[2]? ≠ some '/'
  (if doubled then ['/'] else []) ++ Octets.ofText (Path.ofText path.text).normal.text

def enter (path : Octets) : Execution Unit := do
  let old ← workingDirectory
  let new := if path.head? = some '/' then followed path
    else followed (old ++ ['/'] ++ path)
  let directory ← resolved new.text
  modify fun r =>
    { r with directory := if Path.isAbsolute directory then directory
        else (Path.ofText directory).normal.text }
  assign "OLDPWD".toList (((← valueOf? "PWD".toList)).getD old)
  assign "PWD".toList new

def cd : Program := withLetters false "cd" "cd [-L|[-P [-e]] [-@]] [dir]" ['L', 'P', 'e', '@']
    fun _ words => do
  let r : Room ← get
  let rich := decide (r.dialect = .bash)
  if rich && 1 < words.length then
    complain "cd: too many arguments".toList
    return 1
  match words with
  | [] =>
    match ← valueOf? "HOME".toList with
    | some home => go home
    | none =>
      if rich then
        complain "cd: HOME not set".toList
        return 1
      return 0
  | ['-'] :: _ =>
    match ← valueOf? "OLDPWD".toList with
    | some old =>
      let status ← go old
      if status = 0 then writeLine 1 (← workingDirectory)
      return status
    | none =>
      if rich then
        complain "cd: OLDPWD not set".toList
        return 1
      writeLine 1 (← workingDirectory)
      return 0
  | path :: _ => go path
where
  go (path : Octets) : Execution Nat := do
    if path = [] then return 0
    match ← look path.text with
    | .ok .directory =>
      enter path
      return 0
    | found =>
      let cause := match found with
        | .ok _ | .error .notDirectory => "Not a directory"
        | .error _ => noFile
      fail false 1 ("cd: can't cd to ".toList ++ path) ("cd: ".toList ++ path ++ (": " ++ cause).toList)

def pwd : Program := withLetters false "pwd" "pwd [-LP]" ['L', 'P'] fun _ _ => do
  writeLine 1 (← workingDirectory)
  return 0

def permissions (mask : Nat) : Octets :=
  let part (who : Char) (n : Nat) : Octets :=
    [who, '='] ++ (if n / 4 % 2 = 0 then ['r'] else []) ++ (if n / 2 % 2 = 0 then ['w'] else []) ++
      if n % 2 = 0 then ['x'] else []
  Octets.join "," [part 'u' (mask / 64 % 8), part 'g' (mask / 8 % 8), part 'o' (mask % 8)]

def umask : Program := withLetters false "umask" "umask [-p] [-S] [mode]" ['S', 'p']
    fun letters words => do
  match words with
  | [] =>
    let mask := (← get).mask
    writeLine 1 (if 'S' ∈ letters then permissions mask
      else Format.pad false '0' 4 (Nat.toDigits 8 mask))
    return 0
  | word :: _ =>
    if word ≠ [] && word.all Format.isOctal then
      modify fun r => { r with mask := Format.ofDigits 8 word % 512 }
      return 0
    else if word.head?.any Char.isDigit then
      fail false 1 ("umask: Illegal number: ".toList ++ word)
        ("umask: ".toList ++ word ++ ": octal number out of range".toList)
    else return 0

def ulimit : Program := fun words => do
  match words with
  | [] | [['-', _]] => writeLine 1 "unlimited".toList
  | _ => pure ()
  return 0

def times : Program := fun _ => do
  let time := if (← get).dialect = .sh then "0m0.000000s 0m0.000000s" else "0m0.000s 0m0.000s"
  for _ in [1, 2] do writeLine 1 time.toList
  return 0

/-! ### Names of commands -/

def sharedKeywords : List String :=
  ["!", "case", "do", "done", "elif", "else", "esac", "fi", "for", "if", "in", "then", "until",
    "while", "\x7b", "\x7d"]

def keywords : Dialect → List String
  | .sh => sharedKeywords
  | .bash => sharedKeywords ++ ["[[", "]]", "coproc", "function", "select", "time"]

def special : List String :=
  [".", ":", "break", "continue", "eval", "exec", "exit", "export", "local", "readonly", "return",
    "set", "shift", "times", "trap", "unset"]

def names : Dialect → List String
  | .sh => special ++ ["[", "alias", "bg", "cd", "chdir", "command", "echo", "false", "fg",
      "getopts", "hash", "jobs", "kill", "printf", "pwd", "read", "test", "true", "type", "ulimit",
      "umask", "unalias", "wait"]
  | .bash => special ++ ["[", "alias", "bg", "builtin", "caller", "cd", "command", "declare",
      "disown", "echo", "enable", "false", "fg", "getopts", "hash", "jobs", "kill", "let",
      "mapfile", "printf", "pwd", "read", "readarray", "shopt", "source", "test", "true", "type",
      "typeset", "ulimit", "umask", "unalias", "wait"]

inductive Meaning where
  | keyword
  | alias_ (text : Octets)
  | function
  | own
  | program (path : Octets)

def meanings (name : Octets) : Execution (List Meaning) := do
  let r : Room ← get
  let keyword := if name.text ∈ keywords r.dialect then [Meaning.keyword] else []
  let other := (r.aliases.lookup name).toList.map Meaning.alias_
  let function := if (r.functions.lookup name).isSome then [Meaning.function] else []
  let own := if name.text ∈ names r.dialect then [Meaning.own] else []
  let there ←
    if r.dialect = .sh && '/' ∈ name then pure ((← look name.text) matches .ok _) else pure false
  let paths ← if there then pure [name] else Machine.found name
  return keyword ++ other ++ function ++ own ++ paths.map Meaning.program

def describe (command : String) (name : Octets) (all : Bool) : Execution Nat := do
  let r : Room ← get
  match ← meanings name with
  | [] =>
    if r.dialect = .sh then
      writeLine 1 (name ++ ": not found".toList)
      return 127
    else
      complain ((command ++ ": ").toList ++ name ++ ": not found".toList)
      return 1
  | first :: others =>
    for m in first :: (if all then others else []) do
      let text := match m, r.dialect with
        | .keyword, _ => " is a shell keyword".toList
        | .alias_ text, .sh => " is an alias for ".toList ++ text
        | .alias_ text, .bash => " is aliased to \x60".toList ++ text ++ ['\'']
        | .function, .sh => " is a shell function".toList
        | .function, .bash => " is a function".toList
        | .own, .sh =>
          if name.text ∈ special then " is a special shell builtin".toList
          else " is a shell builtin".toList
        | .own, .bash => " is a shell builtin".toList
        | .program path, _ => " is ".toList ++ path
      writeLine 1 (name ++ text)
    return 0

def describeShortly (onlyPath : Bool) (name : Octets) : Execution Nat := do
  match ← meanings name with
  | [] => return 1
  | m :: _ =>
    match m, onlyPath with
    | .program path, true => writeLine 1 path
    | _, true => pure ()
    | .keyword, false => writeLine 1 "keyword".toList
    | .alias_ _, false => writeLine 1 "alias".toList
    | .function, false => writeLine 1 "function".toList
    | .own, false => writeLine 1 "builtin".toList
    | .program _, false => writeLine 1 "file".toList
    return 0

def eachWord (act : Octets → Execution Nat) : List Octets → Execution Nat
  | [] => return 0
  | word :: rest => do
    let status ← act word
    let others ← eachWord act rest
    return if others = 0 then status else others

def type : Program := fun words => do
  if (← get).dialect = .sh then eachWord (fun w => describe "type" w false) words
  else
    let (given, words) := letters words
    if 't' ∈ given || 'p' ∈ given || 'P' ∈ given then
      eachWord (describeShortly ('t' ∉ given)) words
    else eachWord (fun w => describe "type" w ('a' ∈ given)) words

def locate (name : Octets) : Execution Nat := do
  match ← meanings name with
  | [] => return if (← get).dialect = .sh then 127 else 1
  | m :: _ =>
    writeLine 1 (match m with
      | .program path => path
      | .alias_ text => "alias ".toList ++ name ++ "='".toList ++ text ++ ['\'']
      | _ => name)
    return 0

def hash : Program := fun words => do
  let (given, words) := letters words
  if words.isEmpty && given.isEmpty && (← get).dialect = .bash then
    writeLine 1 "hash: hash table empty".toList
  eachWord (fun w => do
    if (← meanings w).isEmpty then
      complain ("hash: ".toList ++ w ++ ": not found".toList)
      return 1
    return 0) words

/-! ### Other names -/

def tellAlias (a : Octets × Octets) : Execution Unit := do
  let start := if (← get).dialect = .sh then [] else "alias ".toList
  writeLine 1 (start ++ a.1 ++ ['='] ++ singly a.2)

def noAlias (command : String) (name : Octets) : Execution Nat := do
  if (← get).dialect = .sh then writeLine 2 ((command ++ ": ").toList ++ name ++ " not found".toList)
  else complain ((command ++ ": ").toList ++ name ++ ": not found".toList)
  return 1

def alias_ : Program := fun words => do
  let r : Room ← get
  let sorted := r.aliases.mergeSort fun a b => a.1.inOrder b.1
  if words.isEmpty then for a in sorted do tellAlias a
  eachWord (fun w => do
    match w.span (· ≠ '=') with
    | (name, _ :: text) =>
      modify fun r => { r with aliases := (name, text) :: r.aliases.filter fun a => a.1 ≠ name }
      return 0
    | (name, []) =>
      let r : Room ← get
      match r.aliases.lookup name with
      | some text =>
        tellAlias (name, text)
        return 0
      | none => noAlias "alias" name) (words.filter (· ≠ ['-', 'p']))

def unalias : Program := fun words => do
  if words.head? = some ['-', 'a'] then
    modify fun r => { r with aliases := [] }
    return 0
  eachWord (fun name => do
    let r : Room ← get
    if (r.aliases.lookup name).isNone then return ← noAlias "unalias" name
    modify fun r => { r with aliases := r.aliases.filter fun a => a.1 ≠ name }
    return 0) words

/-! ### Jobs -/

def await (job : Job) : Execution Nat := do
  let r : Room ← get
  Signal.pass (job.ends - r.clock)
  let r : Room ← get
  let job := (r.jobs.find? fun j => j.pid = job.pid).getD job
  if let some n := job.killed then if !job.told then Signal.bury n
  modify fun r =>
    let told (j : Job) : Job := if j.pid = job.pid then { j with told := true } else j
    { r with jobs := r.jobs.map told }
  return job.status

def waitFor (o : Octets) : Execution Nat := do
  match ← Signal.jobOf? o with
  | some job => await job
  | none =>
    if o.head? = some '%' then
      fail false 127 ("wait: No such job: ".toList ++ o) ("wait: ".toList ++ o ++ ": no such job".toList)
    else if !Signal.isNumber o then
      fail false 1 ("wait: Illegal number: ".toList ++ o)
        ("wait: \x60".toList ++ o ++ "': not a pid or valid job spec".toList)
    else
      if (← get).dialect = .bash then
        complain ("wait: pid ".toList ++ o ++ " is not a child of this shell".toList)
      return 127

def waitForAll (status : Nat) : List Octets → Execution Nat
  | [] => return status
  | o :: rest => do
    let status ← waitFor o
    waitForAll status rest

def wait : Program := fun words => do
  let (given, words) := letters words
  let r : Room ← get
  if given ≠ [] && (r.dialect = .sh || given.any (· ∉ ['n', 'f', 'p'])) then
    return ← unknownOption false "wait" (given.headD ' ') "wait [-fn] [-p var] [id ...]"
  let open_ := r.jobs.filter fun j => !j.told
  if 'n' ∈ given then
    match open_.mergeSort fun a b => a.ends ≤ b.ends with
    | [] => return 127
    | first :: _ => await first
  else if words.isEmpty then
    let last := (r.jobs.map (·.ends)).max?.getD 0
    Signal.pass (last - r.clock)
    modify fun r => { r with jobs := r.jobs.map fun j => { j with told := true } }
    return 0
  else waitForAll 0 words

def uncontrolled (name : String) : Program := fun _ =>
  fail false 1 (name ++ ": No current job").toList (name ++ ": no job control").toList

/-! ### Leaving -/

def status? (dialect : Dialect) (o : Octets) : Option Nat :=
  let trimmed := o.dropWhile fun c => c ∈ [' ', '\t', '\n']
  match dialect, trimmed with
  | .bash, '-' :: digits =>
    if Signal.isNumber digits then some ((256 - Format.natOf digits % 256) % 256) else none
  | _, digits => if Signal.isNumber digits then some (Format.natOf digits) else none

def exit : Program := fun words => do
  let r : Room ← get
  match words with
  | [] => throw (.ended (.exited (UInt8.ofNat r.status)))
  | o :: rest =>
    match status? r.dialect o with
    | none =>
      complainAs ("exit: Illegal number: ".toList ++ o)
        ("exit: ".toList ++ o ++ ": numeric argument required".toList)
      throw (.ended (.exited 2))
    | some n =>
      if r.dialect = .bash && !rest.isEmpty then
        complain "exit: too many arguments".toList
        throw (.ended (.exited 1))
      throw (.ended (.exited (UInt8.ofNat n)))

def «return» : Program := fun words => do
  let r : Room ← get
  if r.dialect = .bash && r.calls = 0 && r.sourced = 0 then
    complain "return: can only \x60return' from a function or sourced script".toList
    return 2
  match words with
  | [] => throw .returning
  | o :: _ =>
    match status? r.dialect o with
    | none =>
      let status ← fail true 2 ("return: Illegal number: ".toList ++ o)
        ("return: ".toList ++ o ++ ": numeric argument required".toList)
      setStatus status
      throw .returning
    | some n =>
      setStatus (if r.dialect = .sh then n else n % 256)
      throw .returning

def leave (name : String) (again : Bool) : Program := fun words => do
  let r : Room ← get
  let start := (name ++ ": ").toList
  if r.dialect = .bash && r.loops = 0 then
    complain (start ++ "only meaningful in a \x60for', \x60while', or \x60until' loop".toList)
    return 0
  let n? := match words with
    | [] => some 1
    | o :: _ => status? .sh o
  match n? with
  | some (n + 1) =>
    if r.loops = 0 then return 0
    setStatus 0
    throw (.leaving (min (n + 1) r.loops) again)
  | none =>
    complainAs (start ++ "Illegal number: ".toList ++ words.headD [])
      (start ++ words.headD [] ++ ": numeric argument required".toList)
    throw (.ended (.exited (if r.dialect = .sh then 2 else 128)))
  | some 0 =>
    discard (fail true 1 (start ++ "Illegal number: 0".toList)
      (start ++ "0: loop count out of range".toList))
    setStatus 1
    throw (.leaving r.loops false)

/-! ### All of them -/

def program? (dialect : Dialect) (fuel : Nat) (name : String) : Option Program :=
  let manner := Format.Manner.ofDialect dialect
  if name ∉ names dialect then none
  else match name with
  | ":" | "true" | "enable" => some fun _ => return 0
  | "false" | "caller" => some fun _ => return 1
  | "[" => some Conditions.bracket
  | "alias" => some alias_
  | "bg" => some (uncontrolled "bg")
  | "break" => some (leave "break" false)
  | "cd" | "chdir" => some cd
  | "continue" => some (leave "continue" true)
  | "disown" | "jobs" => some fun _ => return 0
  | "echo" => some (Printing.echo manner)
  | "exit" => some exit
  | "export" => some fun words => «export» words []
  | "fg" => some (uncontrolled "fg")
  | "getopts" => some getopts
  | "hash" => some hash
  | "kill" => some Signal.kill
  | "let" => some «let»
  | "local" => some fun words => «local» words []
  | "declare" | "typeset" => some fun words => declare name words []
  | "mapfile" | "readarray" => some (Intake.mapfile name)
  | "printf" => some (Printing.printf manner)
  | "pwd" => some pwd
  | "read" => some (Intake.read fuel)
  | "readonly" => some fun words => readonly words []
  | "return" => some «return»
  | "set" => some Declaring.set
  | "shift" => some shift
  | "shopt" => some shopt
  | "test" => some (Conditions.test "test".toList)
  | "times" => some times
  | "trap" => some Signal.trap
  | "type" => some type
  | "ulimit" => some ulimit
  | "umask" => some umask
  | "unalias" => some unalias
  | "unset" => some unset
  | "wait" => some wait
  | _ => none

end MutationPipeline.Rehearsal.Shell.Builtin
