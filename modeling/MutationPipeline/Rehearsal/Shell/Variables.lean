import MutationPipeline.Rehearsal.Shell.Arithmetic
import MutationPipeline.Rehearsal.Shell.Format
import MutationPipeline.Rehearsal.Shell.Words

/-!
Variables and the other parameters of scripts: their values, giving them values, and the values of
expressions in which they stand.
-/
namespace MutationPipeline.Rehearsal.Shell.Execution

open Arithmetic

inductive Content where
  | unset
  | one (value : Octets)
  | many (joined : Bool) (values : List (Octets × Octets))

namespace Content

def ofValue (value : Option Octets) : Content :=
  match value with
  | some v => .one v
  | none => .unset

def values : Content → List Octets
  | .unset => []
  | .one v => [v]
  | .many _ vs => vs.map (·.2)

def isMissing (orEmpty : Bool) (c : Content) : Bool :=
  match c with
  | .unset => true
  | .one v => orEmpty && v = []
  | .many _ vs => vs.isEmpty || (orEmpty && vs.all fun v => v.2 = [])

end Content

def ownElements? (name : Octets) : Execution (Option Elements) := do
  let r : Room ← get
  if r.dialect = .sh then return none
  let listed (values : List Octets) : Option Elements := some (({} : Elements).add values)
  return match name.text with
    | "PIPESTATUS" => listed (r.pipeStatuses.map Octets.ofNat)
    | "FUNCNAME" => if r.callers.isEmpty then none else listed r.callers
    | _ => none

def allElements (name : Octets) : Execution Elements := do
  match ← ownElements? name with
  | some e => return e
  | none => elementsOf name

def meantBy (name : Octets) : Execution Octets := do
  if (name, 'n') ∈ (← get).natures then return (← valueOf? name).getD name else return name

def variableValue? (name : Octets) : Execution (Option Octets) := do
  let r : Room ← get
  let name ← meantBy name
  match r.dialect, name.text with
  | .bash, "LINENO" => return some (Octets.ofNat r.line)
  | .bash, "SECONDS" => return some (Octets.ofNat (r.clock / 1000000))
  | .bash, "RANDOM" => return some (Octets.ofNat ((r.clock * 1103515245 + 12345) % 32768))
  | .bash, "BASHPID" => return some (Octets.ofNat r.pid)
  | .bash, "BASH_SUBSHELL" =>
    return some (Octets.ofNat (r.ancestors.filter fun a => a.pid = r.pid).length)
  | _, _ =>
    match ← ownElements? name with
    | some e => return e.get? ['0']
    | none => valueOf? name

def parameter? (name : Octets) : Execution (Option Octets) := do
  let r : Room ← get
  match name with
  | ['?'] => return some (Octets.ofNat r.status)
  | ['#'] => return some (Octets.ofNat r.arguments.length)
  | ['$'] => return some (Octets.ofNat r.pid)
  | ['0'] => return some r.name
  | ['-'] => return some r.options
  | ['!'] => return r.lastJob.map Octets.ofNat
  | _ =>
    if name.all Char.isDigit then return r.arguments[Elements.number name - 1]?
    else variableValue? name

def contentOf (name : Octets) : Execution Content := do
  let r : Room ← get
  if name = ['@'] ∨ name = ['*'] then
    let places := r.arguments.mapIdx fun n a => (Octets.ofNat (n + 1), a)
    return .many (name = ['*']) places
  else return .ofValue (← parameter? name)

/-! ### Expressions -/

def elementValue? (name place : Octets) : Execution (Option Octets) :=
  return (← allElements (← meantBy name)).get? place

def setting : Execution Setting := do
  let r : Room ← get
  let value (slot : Slot) : Octets :=
    let act : Execution (Option Octets) := match slot with
      | (name, none) => variableValue? name
      | (name, some place) => elementValue? name place
    match (act.run.run r).1 with
    | .ok v => v.getD []
    | .error _ => []
  return { rich := r.dialect = .bash
           value
           isNamed := fun name => (r.elements.lookup name).any (·.byName) }

def shaped (letters : List Char) (value : Octets) : Execution Octets := do
  let value := if 'u' ∈ letters then value.map Char.toUpper
    else if 'l' ∈ letters then value.map Char.toLower else value
  if 'i' ∈ letters then
    match Arithmetic.eval (← setting) value with
    | .ok (n, _) => return n
    | .error fault =>
      object (fault.richMessage value)
      giveUp
  else return value

def lettersOf (name : Octets) : Execution (List Char) := do
  return ((← get).natures.filter fun n => n.1 = name).map (·.2)

def give (name value : Octets) : Execution Unit := do
  let name ← meantBy name
  assign name (← shaped (← lettersOf name) value)
  if 'a' ∈ (← get).options then modify fun r => { r with exported := r.exported.insert name }
  if name = "OPTIND".toList then
    modify fun r => { r with optionsSeen := (max 1 (Elements.number value), 0) }

def ensureVariable (name : Octets) : Execution Unit := do
  if name ∈ (← get).constant then
    object (name ++ ": readonly variable".toList)
    throw .abandoned

def giveElement (name place value : Octets) : Execution Unit := do
  ensureVariable name
  let value ← shaped (← lettersOf name) value
  setElements name ((← elementsOf name).set place value)

def calculate (text : Octets) : Execution (Except Fault Octets) := do
  match Arithmetic.eval (← setting) text with
  | .error fault => return .error fault
  | .ok (n, changes) =>
    for ((name, place), value) in changes.reverse do
      match place with
      | none => give name value
      | some p => giveElement name p value
    return .ok n

def calculated (text : Octets) : Execution Octets := do
  match ← calculate text with
  | .ok n => return n
  | .error fault =>
    objectAs (fault.message text) (fault.richMessage text)
    giveUp

def intOf (text : Octets) : Int := (String.ofList text).toInt?.getD 0

def calculatedInt (text : Octets) : Execution Int := return intOf (← calculated text)

def placeAt (name index : Octets) : Execution Octets := do
  let e ← allElements (← meantBy name)
  if e.byName then return index
  let n ← calculatedInt index
  if n < 0 then
    let m := (e.next : Int) + n
    if m < 0 then
      object (name ++ ": bad array subscript".toList)
      giveUp
    return (toString m).toList
  return (toString n).toList

/-! ### Assignments -/

inductive Giving where
  | value (name : Octets) (index : Option Octets) (append : Bool) (value : Octets)
  | elements (name : Octets) (append : Bool) (items : List (Option Octets × Octets))

namespace Giving

def name : Giving → Octets
  | .value name .. => name
  | .elements name .. => name

def ofWord? (word : Octets) : Option Giving :=
  match word.span (· ≠ '=') with
  | (name, _ :: text) =>
    if name.getLast? = some '+' then some (.value name.dropLast none true text)
    else some (.value name none false text)
  | _ => none

def shown (quote : Octets → Octets) : Giving → Octets
  | .value name index append text =>
    let place := match index with
      | some i => ['['] ++ i ++ [']']
      | none => []
    name ++ place ++ (if append then ['+'] else []) ++ ['='] ++ quote text
  | .elements name append items =>
    let item (i : Option Octets × Octets) : Octets := match i.1 with
      | some place => ['['] ++ place ++ "]=".toList ++ quote i.2
      | none => quote i.2
    name ++ (if append then ['+'] else []) ++ "=(".toList ++ Octets.join " " (items.map item) ++
      [')']

def giveAll (name : Octets) (e : Elements) : List (Option Octets × Octets) → Execution Elements
  | [] => return e
  | (index, text) :: rest => do
    let place ← match index with
      | none => pure (Octets.ofNat (after e))
      | some i => if e.byName then pure i else calculated i
    let text ← shaped (← lettersOf name) text
    giveAll name ({ e.set place text with latest := some place }) rest
where
  after (e : Elements) : Nat :=
    match e.latest with
    | some place => Elements.number place + 1
    | none => e.next

def perform (g : Giving) : Execution Unit := do
  match g with
  | .value name none append text =>
    let name ← meantBy name
    if !append then give name text
    else if 'i' ∈ (← lettersOf name) then
      give name (((← valueOf? name).getD []) ++ ['+'] ++ text)
    else give name ((← valueOf? name).getD [] ++ text)
  | .value name (some index) append text =>
    let name ← meantBy name
    let place ← placeAt name index
    let old ← if append then pure (((← elementsOf name).get? place).getD []) else pure []
    giveElement name place (old ++ text)
  | .elements name append items =>
    let name ← meantBy name
    ensureVariable name
    let old ← elementsOf name
    let start : Elements := if append then { old with latest := none } else { byName := old.byName }
    let e ← giveAll name start items
    setElements name { e with latest := none }

end Giving

/-! ### Taking away -/

def forget (name : Octets) : Execution Unit := modify fun r =>
  { r with
    bindings := r.bindings.filter fun v => v.1 ≠ name
    elements := r.elements.filter fun v => v.1 ≠ name
    natures := r.natures.filter fun v => v.1 ≠ name
    exported := r.exported.filter (· ≠ name) }

def shadow (name : Octets) : Execution Unit := modify fun r =>
  if r.shadowed.any fun s => s.1 = name then r
  else { r with shadowed := (name, r.bindings.lookup name, r.elements.lookup name) :: r.shadowed }

def unshadowed (before after : Room) : Room :=
  let mine (name : Octets) : Bool := after.shadowed.any fun s => s.1 = name
  let values := after.shadowed.filterMap fun s => s.2.1.map fun v => (s.1, v)
  let elements := after.shadowed.filterMap fun s => s.2.2.map fun e => (s.1, e)
  { after with
    name := before.name
    arguments := before.arguments
    callers := before.callers
    calls := before.calls
    loops := before.loops
    optionsSeen := if before.dialect = .sh then before.optionsSeen else after.optionsSeen
    bindings := values ++ after.bindings.filter fun v => !mine v.1
    elements := elements ++ after.elements.filter fun v => !mine v.1
    natures := before.natures.filter (fun v => mine v.1) ++
      after.natures.filter fun v => !mine v.1
    constant := before.constant.filter (fun v => mine v) ++ after.constant.filter fun v => !mine v
    exported := before.exported.filter (fun v => mine v) ++ after.exported.filter fun v => !mine v
    shadowed := before.shadowed }

/-! ### Telling values -/

def singly (value : Octets) : Octets :=
  ['\''] ++ value.flatMap (fun c => if c = '\'' then "'\"'\"'".toList else [c]) ++ ['\'']

def doubly (value : Octets) : Octets :=
  if value.any fun c => c.toNat < 32 then Format.quoted value
  else ['"'] ++ value.flatMap (fun c => if c ∈ ['"', '\\', '$', '\x60'] then ['\\', c] else [c]) ++
    ['"']

end MutationPipeline.Rehearsal.Shell.Execution

/-!
What a script that is watched shows of its commands before it performs them.
-/
namespace MutationPipeline.Rehearsal.Shell.Tracing

open Execution

def signs : List Char := " \t\n'\"\\|&;()<>!\x7b\x7d*[?]^$\x60".toList

def isHidden (c : Char) : Bool := c < ' ' || '~' < c

def escaped (c : Char) : Octets :=
  let named := [('\x07', 'a'), ('\x08', 'b'), ('\x0b', 'v'), ('\x0c', 'f'), ('\r', 'r'),
    ('\x1b', 'E')]
  match named.lookup c with
  | some letter => ['\\', letter]
  | none => if isHidden c then '\\' :: Format.pad false '0' 3 (Nat.toDigits 8 c.toNat) else [c]

def quoted (word : Octets) : Octets :=
  let begins (c : Char) : Bool := word.head? = some c
  if word = [] then "''".toList
  else if word.any (· ∈ signs) || begins '~' || begins '#' then
    ['\''] ++ word.flatMap (fun c => if c = '\'' then "'\\''".toList else [c]) ++ ['\'']
  else if word.any isHidden then "$'".toList ++ word.flatMap escaped ++ ['\'']
  else word

def quotedValue (value : Octets) : Octets := if value = [] then [] else quoted value

def asShown (word : Octets) : Execution Octets :=
  return if (← get).dialect = .sh then word else quoted word

def isOn : Execution Bool := return 'x' ∈ (← get).options

def «show» (text : Octets) : Execution Unit := do
  if !(← isOn) then return
  let mark := (← valueOf? "PS4".toList).getD []
  let r : Room ← get
  let deep := if r.dialect = .bash then List.replicate r.depth (mark.headD '+') else []
  writeLine 2 (deep ++ mark ++ text)

def showWords (words : List Octets) : Execution Unit := do
  let shown ← words.mapM asShown
  «show» (Octets.join " " shown)

end MutationPipeline.Rehearsal.Shell.Tracing
