import MutationPipeline.Rehearsal.Shell.Format
import MutationPipeline.Rehearsal.Shell.Options

/-!
Conditions that are given as words: facts about texts, numbers and files, and how they are joined.
The two shells find their way through the words in different manners.
-/
namespace MutationPipeline.Rehearsal.Shell.Conditions

open Execution

inductive Objection where
  | noNumber (o : Octets)
  | unexpected (o : Octets)
  | operandMissing (o : Octets)
  | unclosed (found : Option Octets)
  | noUnary (o : Octets)
  | noBinary (o : Octets)
  | nothingLeft
  | tooMany
  deriving DecidableEq, Repr

def Objection.message : Dialect → Objection → Octets
  | .sh, .noNumber o => "Illegal number: ".toList ++ o
  | .bash, .noNumber o => o ++ ": integer expression expected".toList
  | _, .unexpected o => o ++ ": unexpected operator".toList
  | _, .operandMissing o => o ++ ": argument expected".toList
  | .sh, .unclosed _ => "closing paren expected".toList
  | .bash, .unclosed none => "\x60)' expected".toList
  | .bash, .unclosed (some o) => "\x60)' expected, found ".toList ++ o
  | _, .noUnary o => o ++ ": unary operator expected".toList
  | _, .noBinary o => o ++ ": binary operator expected".toList
  | _, .nothingLeft => "argument expected".toList
  | _, .tooMany => "too many arguments".toList

abbrev Search := ExceptT Objection (StateT (List Octets) Execution)

def unaries : List String :=
  ["-r", "-w", "-x", "-e", "-f", "-d", "-c", "-b", "-p", "-u", "-g", "-k", "-s", "-t", "-z", "-n",
    "-h", "-O", "-G", "-L", "-S"]

def richUnaries : List String := ["-a", "-v", "-o", "-N", "-R"]

def numeric : List (String × (Int → Int → Bool)) :=
  [("-eq", fun a b => a = b), ("-ne", fun a b => a ≠ b), ("-lt", fun a b => a < b),
    ("-le", fun a b => a ≤ b), ("-gt", fun a b => b < a), ("-ge", fun a b => b ≤ a)]

def binaries : List String := ["=", "!=", "<", ">", "-nt", "-ot", "-ef"] ++ numeric.map (·.1)

def holdsOf (operator : String) (a : Octets) : Execution Bool := do
  let kind ← look a.text
  match operator with
  | "-n" => return !a.isEmpty
  | "-z" => return a.isEmpty
  | "-e" | "-a" | "-r" | "-w" | "-O" | "-G" => return (kind matches .ok _)
  | "-f" => return a.text ∉ devices && (kind matches .ok (.file _))
  | "-c" => return decide (a.text ∈ devices)
  | "-d" => return (kind matches .ok .directory)
  | "-x" =>
    let may ← isExecutable a.text
    return (kind matches .ok .directory) || may
  | "-s" => return match kind with
    | .ok (.file content) => content.size ≠ 0
    | .ok .directory => true
    | .error _ => false
  | "-v" => return (← valueOf? a).isSome
  | "-o" => return a = "errexit".toList && 'e' ∈ (← get).options
  | _ => return false

def number? (o : Octets) : Option Int :=
  let blank (c : Char) : Bool := c = ' ' || ('\t' ≤ c && c ≤ '\r')
  let o := ((o.dropWhile blank).reverse.dropWhile blank).reverse
  let digits := match o with
    | '-' :: rest | '+' :: rest => rest
    | rest => rest
  if digits ≠ [] && digits.all Char.isDigit then
    let n : Int := Format.natOf digits
    let n := if o.head? = some '-' then -n else n
    if -Int.pow 2 63 ≤ n && n < Int.pow 2 63 then some n else none
  else none

def holdsBetween (operator : String) (a b : Octets) : ExceptT Objection Execution Bool := do
  match operator, numeric.lookup operator with
  | _, some relation =>
    match number? a, number? b with
    | some x, some y => return relation x y
    | none, _ => throw (.noNumber a)
    | _, none => throw (.noNumber b)
  | "=", _ | "==", _ => return decide (a = b)
  | "!=", _ => return decide (a ≠ b)
  | "<", _ => return decide (a < b)
  | ">", _ => return decide (b < a)
  | "-ef", _ =>
    let x ← (resolved a.text : Execution _)
    let y ← (resolved b.text : Execution _)
    return FileTree.placeOf x = FileTree.placeOf y
  | _, _ => return false

/-! ### From left to right -/

inductive Sign where
  | none
  | operand
  | unary
  | binary
  | not
  | and
  | or
  | opening
  | closing
  deriving DecidableEq, Repr

def signOf : List Octets → Sign
  | [] => .none
  | o :: rest =>
    let word := Octets.text o
    if word ∈ unaries then
      match rest with
      | [] => .operand
      | [_] => .unary
      | next :: _ => if Octets.text next ∈ binaries then .operand else .unary
    else if word ∈ binaries then .binary
    else if word = "!" then .not
    else if word = "-a" then .and
    else if word = "-o" then .or
    else if word = "(" then if rest.isEmpty then .operand else .opening
    else if word = ")" then .closing
    else .operand

def words : Search (List Octets) := get

def drop (n : Nat) : Search Unit := modify (·.drop n)

mutual

def either (fuel : Nat) (s : Sign) : Search Bool :=
  match fuel with
  | 0 => throw .tooMany
  | fuel + 1 => do
    let first ← both fuel s
    if signOf ((← words).drop 1) = .or then
      drop 2
      let rest ← either fuel (signOf (← words))
      return first || rest
    else return first

def both (fuel : Nat) (s : Sign) : Search Bool :=
  match fuel with
  | 0 => throw .tooMany
  | fuel + 1 => do
    let first ← single fuel s
    if signOf ((← words).drop 1) = .and then
      drop 2
      let rest ← both fuel (signOf (← words))
      return first && rest
    else return first

def single (fuel : Nat) (s : Sign) : Search Bool :=
  match fuel with
  | 0 => throw .tooMany
  | fuel + 1 => do
    match s with
    | .not =>
      let next := signOf ((← words).drop 1)
      if next ≠ .none then drop 1
      return !(← single fuel next)
    | .none => return false
    | .opening =>
      drop 1
      let next := signOf (← words)
      if next = .closing then return false
      let holds ← either fuel next
      drop 1
      if signOf (← words) ≠ .closing then throw (.unclosed none)
      return holds
    | .unary =>
      match ← words with
      | operator :: a :: rest =>
        set (a :: rest)
        return (← (holdsOf operator.text a : Execution _))
      | _ => throw .nothingLeft
    | _ =>
      match ← words with
      | a :: operator :: b :: rest =>
        if signOf (operator :: b :: rest) = .binary then
          set (b :: rest)
          match ← ((holdsBetween operator.text a b).run : Execution _) with
          | .ok holds => return holds
          | .error objection => throw objection
        else return !a.isEmpty
      | [a, operator] =>
        if signOf [operator] = .binary then throw (.operandMissing operator)
        else return !a.isEmpty
      | a :: _ => return !a.isEmpty
      | [] => return false

end

def plain (ws : List Octets) : Search Bool := do
  let fuel := 2 * ws.length + 8
  match ws with
  | [] => return false
  | [_, operator, _] =>
    if operator.text ∈ binaries then whole fuel ws .operand else grouped fuel ws
  | _ => if ws.length = 4 then grouped fuel ws else whole fuel ws (signOf ws)
where
  whole (fuel : Nat) (ws : List Octets) (s : Sign) : Search Bool := do
    set ws
    let holds ← either fuel s
    match ← words with
    | o :: _ :: _ => throw (.unexpected o)
    | _ => return holds
  grouped (fuel : Nat) (ws : List Octets) : Search Bool := do
    if ws.head? = some ['('] && ws.getLast? = some [')'] then
      let inner := ws.tail.dropLast
      whole fuel inner (signOf inner)
    else if ws.head? = some ['!'] then return !(← whole fuel ws.tail (signOf ws.tail))
    else whole fuel ws (signOf ws)

/-! ### By the number of words -/

def isBinary (o : Octets) : Bool := decide (o.text ∈ "==" :: binaries)

def isUnary (o : Octets) : Bool := decide (o.text ∈ unaries ++ richUnaries)

def between (operator a b : Octets) : Search Bool := do
  match ← ((holdsBetween operator.text a b).run : Execution _) with
  | .ok holds => return holds
  | .error objection => throw objection

mutual

def eitherOf (fuel : Nat) : Search Bool :=
  match fuel with
  | 0 => throw .tooMany
  | fuel + 1 => do
    let first ← bothOf fuel
    if (← words).head? = some "-o".toList then
      drop 1
      let rest ← eitherOf fuel
      return first || rest
    else return first

def bothOf (fuel : Nat) : Search Bool :=
  match fuel with
  | 0 => throw .tooMany
  | fuel + 1 => do
    let first ← termOf fuel
    if (← words).head? = some "-a".toList then
      drop 1
      let rest ← bothOf fuel
      return first && rest
    else return first

def termOf (fuel : Nat) : Search Bool :=
  match fuel with
  | 0 => throw .tooMany
  | fuel + 1 => do
    match ← words with
    | [] => throw .nothingLeft
    | ['!'] :: rest =>
      set rest
      return !(← termOf fuel)
    | ['('] :: rest =>
      set rest
      let holds ← eitherOf fuel
      match ← words with
      | [')'] :: rest =>
        set rest
        return holds
      | o :: _ => throw (.unclosed (some o))
      | [] => throw (.unclosed none)
    | a :: operator :: b :: rest =>
      if isBinary operator then
        set rest
        between operator a b
      else if isUnary a then
        set (b :: rest)
        return (← (holdsOf a.text operator : Execution _))
      else
        set (operator :: b :: rest)
        return !a.isEmpty
    | [operator, a] =>
      if isUnary operator then
        set ([] : List Octets)
        return (← (holdsOf operator.text a : Execution _))
      else
        set [a]
        return !operator.isEmpty
    | [a] =>
      set ([] : List Octets)
      return !a.isEmpty

end

def rich (ws : List Octets) : Search Bool := do
  match ws with
  | [] => return false
  | [a] => return !a.isEmpty
  | [a, b] => two a b
  | [a, operator, b] => three a operator b
  | [['!'], a, operator, b] => return !(← three a operator b)
  | [['('], a, b, [')']] => two a b
  | _ =>
    set ws
    let holds ← eitherOf (2 * ws.length + 8)
    if (← words).isEmpty then return holds else throw .tooMany
where
  two (a b : Octets) : Search Bool := do
    if a = ['!'] then return b.isEmpty
    else if isUnary a then return (← (holdsOf a.text b : Execution _))
    else throw (.noUnary a)
  three (a operator b : Octets) : Search Bool := do
    if isBinary operator then between operator a b
    else if operator = "-a".toList then return !a.isEmpty && !b.isEmpty
    else if operator = "-o".toList then return !a.isEmpty || !b.isEmpty
    else if a = ['!'] then return !(← two operator b)
    else if a = ['('] && b = [')'] then return !operator.isEmpty
    else throw (.noBinary operator)

def test (name : Octets) : Program := fun arguments => do
  let dialect := (← get).dialect
  let act := if dialect = .sh then plain arguments else rich arguments
  match ← act.run.run [] with
  | (.ok true, _) => return 0
  | (.ok false, _) => return 1
  | (.error objection, _) =>
    complain (name ++ ": ".toList ++ objection.message dialect)
    return 2

def bracket : Program := fun arguments => do
  if arguments.getLast? = some [']'] then test ['['] arguments.dropLast
  else
    complainAs "[: missing ]".toList "[: missing \x60]'".toList
    return 2

end MutationPipeline.Rehearsal.Shell.Conditions
