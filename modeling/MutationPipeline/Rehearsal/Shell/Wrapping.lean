import MutationPipeline.Rehearsal.Shell.Builtins

/-!
Programs that run other programs, by what their arguments ask for: which command, with what
environment, on which words, for how long. Shells are among them.
-/
namespace MutationPipeline.Rehearsal.Shell.Wrapping

open Execution

/-! ### Environments -/

structure Environment where
  empty : Bool := false
  without : List Octets := []
  directory : Option Octets := none
  settings : List (Octets × Octets) := []
  command : List Octets := []

namespace Environment

def options : Options where
  plain := ['i', '0', 'v']
  valued := ['u', 'C', 'S']
  long := [("ignore-environment", 'i'), ("unset", 'u'), ("chdir", 'C'), ("split-string", 'S')]
  first := true

def ofWords : List Octets → List (Octets × Octets) × List Octets
  | [] => ([], [])
  | word :: rest =>
    match word.span (· ≠ '=') with
    | (name, _ :: value) =>
      let (settings, command) := ofWords rest
      ((name, value) :: settings, command)
    | _ => ([], word :: rest)

def ofGiven (g : Given) : Environment :=
  let (dash, words) := match g.operands with
    | ['-'] :: rest => (true, rest)
    | rest => (false, rest)
  let words := (((g.value? 'S').getD []).splitOn ' ').filter (· ≠ []) ++ words
  let (settings, command) := ofWords words
  { empty := dash || g.has 'i'
    without := g.values 'u'
    directory := g.value? 'C'
    settings
    command }

def establish (e : Environment) : Execution Unit := do
  modify fun r =>
    let kept (name : Octets) : Bool :=
      !e.empty && name ∉ e.without && !(e.settings.any fun s => s.1 = name)
    { r with
      bindings := e.settings.reverse ++ (r.bindings.filter fun b => kept b.1 && b.1 ∈ r.exported)
      exported := e.settings.map (·.1) ++ r.exported.filter kept }
  if let some directory := e.directory then Builtin.enter directory

end Environment

/-! ### Words from the input -/

structure Distribution where
  divider : Option Char := none
  replaced : Option Octets := none
  most : Option Nat := none
  lines : Option Nat := none
  lazy : Bool := false
  traced : Bool := false
  command : List Octets := []

namespace Distribution

def options : Options where
  plain := ['0', 'r', 't', 'p', 'x']
  valued := ['n', 'I', 'd', 'P', 'L', 's', 'a', 'E']
  long := [("null", '0'), ("no-run-if-empty", 'r'), ("verbose", 't'), ("max-args", 'n'),
    ("replace", 'I'), ("delimiter", 'd'), ("max-procs", 'P'), ("max-lines", 'L'),
    ("arg-file", 'a')]
  first := true

def ofGiven (g : Given) : Distribution :=
  let number (c : Char) : Option Nat := (g.value? c).map Format.natOf
  { divider :=
      if g.has '0' then some '\x00'
      else (g.value? 'd').bind fun o => (Format.unescape (.ofFormat .program) o).1.head?
    replaced := g.value? 'I'
    most := number 'n'
    lines := number 'L'
    lazy := g.has 'r'
    traced := g.has 't'
    command := if g.operands.isEmpty then ["echo".toList] else g.operands }

def isBlank (c : Char) : Bool := c = ' ' || c = '\t'

/-- The words of a text: blanks and line ends part them, unless they are quoted. `begun` is the word
that has begun, and `quote` the sign that quotes. The error is the quote that is not closed. -/
def words (begun : Option Octets) (quote : Option Char) : Octets → Except Char (List Octets)
  | [] => match quote with
    | some '\\' | none => .ok begun.toList
    | some q => .error q
  | c :: rest =>
    match quote with
    | some '\\' => words (some (begun.getD [] ++ [c])) none rest
    | some q =>
      if c = '\n' then .error q
      else if c = q then words begun none rest
      else words (some (begun.getD [] ++ [c])) quote rest
    | none =>
      if c ∈ ['\'', '"', '\\'] then words (some (begun.getD [])) (some c) rest
      else if isBlank c || c = '\n' then return begun.toList ++ (← words none none rest)
      else words (some (begun.getD [] ++ [c])) none rest

def parts (divider : Char) (text : Octets) : List Octets :=
  let all := text.splitOn divider
  if all.getLast? = some [] then all.dropLast else all

def groupsOf (n : Nat) (fuel : Nat) (ws : List Octets) : List (List Octets) :=
  match fuel, ws with
  | 0, _ | _, [] => []
  | fuel + 1, ws => ws.take (max n 1) :: groupsOf n fuel (ws.drop (max n 1))

def replacing (old new : Octets) (fuel : Nat) (word : Octets) : Octets :=
  match fuel, word with
  | 0, _ | _, [] => word
  | fuel + 1, c :: rest =>
    if old ≠ [] && old.isPrefixOf (c :: rest) then
      new ++ replacing old new fuel ((c :: rest).drop old.length)
    else c :: replacing old new fuel rest

def commands (d : Distribution) (text : Octets) : Except Char (List (List Octets)) := do
  match d.replaced, d.divider with
  | some old, divider =>
    let lines := (parts (divider.getD '\n') text).map fun l =>
      if divider.isNone then l.dropWhile isBlank else l
    return (lines.filter (· ≠ [])).map fun l =>
      d.command.map fun w => replacing old l (w.length + 1) w
  | none, divider =>
    let ws ← match divider with
      | some c => pure (parts c text)
      | none => words none none text
    match d.lines, divider with
    | some n, none =>
      let lines := (parts '\n' text).filter fun l => l.any fun c => !isBlank c
      let groups := groupsOf n (lines.length + 1) lines
      groups.mapM fun g => do return d.command ++ (← words none none (['\n'].intercalate g))
    | _, _ =>
      if ws.isEmpty then return if d.lazy then [] else [d.command]
      match d.most with
      | some n => return (groupsOf n (ws.length + 1) ws).map (d.command ++ ·)
      | none => return [d.command ++ ws]

end Distribution

/-! ### Limited time -/

structure Limit where
  time : Nat
  signal : Nat := 15
  preserving : Bool := false
  command : List Octets := []

namespace Limit

def options : Options where
  plain := ['v', 'f', 'p']
  valued := ['s', 'k']
  long := [("signal", 's'), ("kill-after", 'k'), ("preserve-status", 'p'), ("foreground", 'f')]
  first := true

end Limit

/-! ### Programs in front of others -/

/-- The programs that change nothing that can be seen: what they are called, which options they
have, the status of a mistake, and what is said of a command that cannot be run. -/
structure Bystander where
  name : String
  options : Options
  wrong : Nat
  missing : String
  unrunnable : Octets → Octets

def bystanders : List Bystander :=
  [{ name := "nohup", options := { first := true }, wrong := 125, missing := "missing operand"
     unrunnable := fun c => "failed to run command '".toList ++ c ++ ['\''] },
    { name := "nice", options := { valued := ['n'], first := true }, wrong := 125, missing := ""
      unrunnable := fun c => ['\''] ++ c ++ ['\''] },
    { name := "setsid", options := { plain := ['c', 'f', 'w'], first := true }, wrong := 1
      missing := "no command specified", unrunnable := fun c => "failed to execute ".toList ++ c },
    { name := "stdbuf", options := { valued := ['i', 'o', 'e'], first := true }, wrong := 125
      missing := "missing operand"
      unrunnable := fun c => "failed to run command '".toList ++ c ++ ['\''] }]

/-! ### Shells -/

structure Invocation where
  letters : List (Bool × Char) := []
  named : List (Bool × Octets) := []
  settings : List Octets := []
  command : Bool := false
  input : Bool := false
  words : List Octets := []

namespace Invocation

def withLetters (on : Bool) (i : Invocation) : Octets → Invocation × Bool
  | [] => (i, false)
  | c :: rest =>
    let i := if c = 'c' && on then { i with command := true }
      else if c = 's' && on then { i with input := true }
      else if c = 'o' then i
      else { i with letters := i.letters ++ [(on, c)] }
    let (i, waits) := withLetters on i rest
    (i, waits || c = 'o')

def ofWords (dialect : Dialect) (i : Invocation) : List Octets → Invocation
  | [] => i
  | ['-', '-'] :: rest | ['-'] :: rest => { i with words := rest }
  | ('-' :: '-' :: long) :: rest =>
    if dialect = .bash then i.ofWords dialect rest
    else { i with letters := i.letters ++ [(true, '-')], words := ('-' :: '-' :: long) :: rest }
  | (sign :: c :: cs) :: rest =>
    if sign ≠ '-' ∧ sign ≠ '+' then { i with words := (sign :: c :: cs) :: rest }
    else if dialect = .bash && c = 'O' then
      match rest with
      | name :: rest => { i with settings := name :: i.settings }.ofWords dialect rest
      | [] => i
    else
      let on := decide (sign = '-')
      let (i, waits) := i.withLetters on (c :: cs)
      match waits, rest with
      | true, name :: rest => { i with named := i.named ++ [(on, name)] }.ofWords dialect rest
      | _, rest => i.ofWords dialect rest
  | rest => { i with words := rest }

end Invocation

def ownVariables : Dialect → List (Octets × Octets)
  | .sh => [("IFS", " \t\n"), ("OPTIND", "1"), ("PS1", "# "), ("PS2", "> "), ("PS4", "+ ")].map
      fun v => (v.1.toList, v.2.toList)
  | .bash => [("IFS", " \t\n"), ("OPTIND", "1"), ("PS4", "+ "), ("BASH", "/usr/bin/bash"),
      ("BASH_VERSION", "5.2.21(1)-release"), ("UID", "0"), ("EUID", "0"), ("OSTYPE", "linux-gnu"),
      ("HOSTTYPE", "x86_64"), ("MACHTYPE", "x86_64-pc-linux-gnu")].map
      fun v => (v.1.toList, v.2.toList)

def freshRoom (dialect : Dialect) (name : Octets) (r : Room) : Room :=
  let given := r.bindings.filter fun b => b.1 ∈ r.exported && b.1 ∉ ["IFS", "OPTIND"].map String.toList
  let own := ownVariables dialect
  let missing := own.filter fun v => (given.lookup v.1).isNone
  let parent := (r.ancestors.head?.map fun a => Octets.ofNat a.pid).getD ['1']
  { r with
    name
    dialect
    origin := []
    context := []
    line := 1
    calls := 0
    sourced := 0
    loops := 0
    arguments := []
    bindings := ("PPID".toList, parent) :: given ++ missing
    elements := []
    constant := []
    natures := []
    functions := []
    shadowed := []
    options := if dialect = .bash then ['h', 'B'] else []
    settings := []
    tested := false
    traps := r.traps.filter fun t => t.2 = []
    status := 0
    jobs := []
    lastJob := none
    depth := 0
    aliases := []
    callers := []
    optionsSeen := (1, 0)
    pipeStatuses := []
    substituted := none }

end MutationPipeline.Rehearsal.Shell.Wrapping
