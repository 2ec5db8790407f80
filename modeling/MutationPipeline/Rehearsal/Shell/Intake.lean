import MutationPipeline.Rehearsal.Shell.Declaring
import MutationPipeline.Rehearsal.Shell.Inputs

/-!
Commands that take input into variables: a line that is divided among names, or many lines at once.
-/
namespace MutationPipeline.Rehearsal.Shell.Intake

open Execution

/-! ### Dividing -/

structure Separation where
  separators : Octets

namespace Separation

def isSeparator (s : Separation) (m : Mark) : Bool := !m.quoted && m.char ∈ s.separators

def isSpace (s : Separation) (m : Mark) : Bool :=
  s.isSeparator m && m.char ∈ [' ', '\t', '\n']

def trimStart (s : Separation) (line : List Mark) : List Mark := line.dropWhile s.isSpace

def trimEnd (s : Separation) (line : List Mark) : List Mark :=
  (line.reverse.dropWhile s.isSpace).reverse

/-- The first field, and what is behind it: white space, and one other separator with white space
around it, stand between fields. -/
def next (s : Separation) (line : List Mark) : List Mark × List Mark :=
  let (field, rest) := line.span fun m => !s.isSeparator m
  let rest := s.trimStart rest
  match rest with
  | m :: more => if s.isSeparator m then (field, s.trimStart more) else (field, rest)
  | [] => (field, [])

def divide (s : Separation) : Nat → List Mark → List Octets
  | 0, _ => []
  | 1, line =>
    let (field, rest) := s.next line
    [Mark.chars (if rest = [] then field else s.trimEnd line)]
  | n + 1, line =>
    let (field, rest) := s.next line
    Mark.chars field :: s.divide n rest

def fields (s : Separation) (fuel : Nat) (line : List Mark) : List Octets :=
  match fuel, line with
  | _, [] | 0, _ => []
  | fuel + 1, line =>
    let (field, rest) := s.next line
    Mark.chars field :: s.fields fuel rest

end Separation

/-! ### Lines -/

def unquoted : Octets → List Mark × Bool
  | [] => ([], false)
  | ['\\'] => ([], true)
  | '\\' :: c :: rest => let (ms, more) := unquoted rest; (⟨c, true⟩ :: ms, more)
  | c :: rest => let (ms, more) := unquoted rest; (⟨c, false⟩ :: ms, more)

def plain (text : Octets) : List Mark := text.map fun c => ⟨c, false⟩

structure Portion where
  raw : Bool := false
  ending : Char := '\n'
  most : Option Nat := none
  descriptor : Nat := 0

def takeSome (p : Portion) (most : Nat) : Execution (Octets × Bool) := do
  let input ← inputOf p.descriptor
  let text := input.rest.take most
  let (line, behind) := text.span (· ≠ p.ending)
  if behind ≠ [] then
    setInput p.descriptor (input.rest.drop (line.length + 1))
    return (line, true)
  else if text.length = most then
    setInput p.descriptor (input.rest.drop most)
    return (text, true)
  else if input.closed then
    setInput p.descriptor []
    return (text, false)
  else throw .blocked

def takeMarks (p : Portion) : Nat → Execution (List Mark × Bool)
  | 0 => throw .endless
  | fuel + 1 => do
    let (line, ended) ← match p.most with
      | some n => takeSome p n
      | none => takeUntil p.descriptor p.ending
    let line := line.filter (· ≠ '\x00')
    if p.raw then return (plain line, ended)
    else
      match unquoted line with
      | (marks, true) =>
        if ended then
          let (more, ended) ← takeMarks p fuel
          return (marks ++ more, ended)
        else return (marks, ended)
      | (marks, false) => return (marks, ended)

/-! ### Reading -/

structure Request where
  portion : Portion := {}
  whole : Bool := false
  array : Option Octets := none
  patient : Bool := true
  names : List Octets := []

def usage : String :=
  "read [-ers] [-a array] [-d delim] [-i text] [-n nchars] [-N nchars] [-p prompt] [-t timeout] " ++
    "[-u fd] [name ...]"

def options : Dialect → Options
  | .sh => { plain := ['r'], valued := ['p', 't'], first := true }
  | .bash => { plain := ['r', 'e', 's'], valued := "adinNptu".toList, first := true }

def Request.ofGiven (g : Given) : Request :=
  let number (c : Char) : Option Nat := (g.value? c).map Format.natOf
  { portion :=
      { raw := g.has 'r'
        ending := match g.value? 'd' with
          | some (c :: _) => c
          | some [] => '\x00'
          | none => if g.has 'N' then '\x00' else '\n'
        most := (number 'n').or (number 'N')
        descriptor := (number 'u').getD 0 }
    whole := g.has 'N'
    array := g.value? 'a'
    patient := !g.has 't'
    names := g.operands }

def late : Nat := 142

def distribute (r : Request) (line : List Mark) : Execution Unit := do
  let s : Separation := ⟨← separators⟩
  match r.array with
  | some name =>
    setElements name (({} : Elements).add (s.fields (line.length + 1) (s.trimStart line)))
  | none =>
    let values := match r.names with
      | [] => [Mark.chars line]
      | [_] => if r.whole then [Mark.chars line] else s.divide 1 (s.trimStart line)
      | names => s.divide names.length (s.trimStart line)
    let names := if r.names.isEmpty then ["REPLY".toList] else r.names
    for (name, value) in names.zip values do
      if !Reading.isName name then
        objectAs (name ++ ": bad variable name".toList)
          ("read: \x60".toList ++ name ++ "': not a valid identifier".toList)
        giveUp
      give name value

def read (fuel : Nat) : Program := fun words => do
  let dialect := (← get).dialect
  match (options dialect).ofArguments words with
  | .error objection =>
    let c := match objection with
      | .unknown c | .noValue c => c
      | _ => '-'
    match dialect, objection with
    | .sh, .noValue _ => Declaring.fail false 2 ("read: No arg for -".toList ++ [c] ++ " option".toList) []
    | .bash, .noValue _ =>
      complain ("read: -".toList ++ [c] ++ ": option requires an argument".toList)
      writeLine 2 ("read: usage: " ++ usage).toList
      return 2
    | _, _ => Declaring.unknownOption false "read" c usage
  | .ok g =>
    let request := Request.ofGiven g
    if dialect = .sh && request.names.isEmpty then
      return ← Declaring.fail false 2 "read: arg count".toList []
    let r : Room ← get
    if dialect = .bash && (r.inputs.lookup request.portion.descriptor).isNone then
      let shown := Octets.ofNat request.portion.descriptor
      complain ("read: ".toList ++ shown ++ ": invalid file descriptor: Bad file descriptor".toList)
      return 1
    let taken ← tryCatch (some <$> takeMarks request.portion fuel) fun
      | .blocked => if request.patient then throw .blocked else return none
      | stop => throw stop
    match taken with
    | none =>
      distribute request []
      return late
    | some (line, ended) =>
      distribute request line
      return if ended then 0 else 1

def mapfile (command : String) : Program := fun words => do
  let known : Options := { plain := ['t'], valued := "dnOsucC".toList, first := true }
  match known.ofArguments words with
  | .error objection =>
    let c := match objection with
      | .unknown c | .noValue c => c
      | _ => '-'
    Declaring.unknownOption false command c (command ++
      " [-d delim] [-n count] [-O origin] [-s count] [-t] [-u fd] [-C callback] [-c quantum] [array]")
  | .ok g =>
    let number (c : Char) : Nat := ((g.value? c).map Format.natOf).getD 0
    let ending : Char := match g.value? 'd' with
      | some (c :: _) => c
      | some [] => '\x00'
      | none => '\n'
    let most := number 'n'
    let text ← restoring (fun before after => { after with inputs := before.inputs }) do
      copyInput 0 (some (number 'u'))
      wholeInput
    let parts := text.splitOn ending
    let (closed, rest) := (parts.dropLast, parts.getLastD [])
    let lines := closed.map (fun l => if g.has 't' then l else l ++ [ending]) ++
      if rest = [] then [] else [rest]
    let lines := lines.drop (number 's')
    let lines := if most = 0 then lines else lines.take most
    let name := g.operands.headD "MAPFILE".toList
    let start : Elements ← if g.has 'O' then elementsOf name else pure {}
    let placed := lines.mapIdx fun n l => (Octets.ofNat (number 'O' + n), l)
    setElements name (placed.foldl (fun e (place, l) => e.set place l) start)
    return 0

end MutationPipeline.Rehearsal.Shell.Intake
