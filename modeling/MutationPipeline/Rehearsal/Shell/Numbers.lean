import MutationPipeline.Rehearsal.Shell.Format
import MutationPipeline.Rehearsal.Shell.Options
import MutationPipeline.Rehearsal.Shell.Regex
import MutationPipeline.Rehearsal.Shell.Signals

/-!
Programs for numbers: the values of expressions that are given as words, and sequences.
-/
namespace MutationPipeline.Rehearsal.Shell.Numbers

open Execution

/-! ### Expressions -/

inductive Expr where
  | value (o : Octets)
  | binary (sign : String) (a b : Expr)
  | call (name : String) (arguments : List Expr)

inductive Objection where
  | missing (behind : Octets)
  | unexpected (o : Octets)
  | unclosed (behind : Octets)
  | noInteger
  | divisionByZero
  | noRegex (f : Regex.Flaw)
  deriving DecidableEq, Repr

def Objection.message : Objection → Octets
  | .missing o => "syntax error: missing argument after '".toList ++ o ++ ['\'']
  | .unexpected o => "syntax error: unexpected argument '".toList ++ o ++ ['\'']
  | .unclosed o => "syntax error: expecting ')' after '".toList ++ o ++ ['\'']
  | .noInteger => "non-integer argument".toList
  | .divisionByZero => "division by zero".toList
  | .noRegex f => f.message.toList

structure Place where
  rest : List Octets
  last : Octets := []

abbrev Parse := StateT Place (Except Objection)

def next? : Parse (Option Octets) := do
  let p ← get
  match p.rest with
  | [] => return none
  | o :: rest =>
    set { rest, last := o : Place }
    return some o

def accept (signs : List String) : Parse (Option String) := do
  match (← get).rest with
  | o :: _ =>
    if o.text ∈ signs then
      discard next?
      return some o.text
    else return none
  | [] => return none

def levels : List (List String) :=
  [["|"], ["&"], ["<", "<=", "=", "==", "!=", ">=", ">"], ["+", "-"], ["*", "/", "%"], [":"]]

def functions : List (String × Nat) := [("match", 2), ("substr", 3), ("index", 2), ("length", 1)]

mutual

def operand (fuel : Nat) : Parse Expr :=
  match fuel with
  | 0 => throw (.missing [])
  | fuel + 1 => do
    let last := (← get).last
    match ← next? with
    | none => throw (.missing last)
    | some ['('] =>
      let e ← level fuel levels
      let last := (← get).last
      match ← next? with
      | some [')'] => return e
      | none => throw (.unclosed last)
      | some o => throw (.unexpected o)
    | some [')'] => throw (.unexpected [')'])
    | some ['+'] =>
      match ← next? with
      | some o => return .value o
      | none => throw (.missing ['+'])
    | some o =>
      match functions.lookup o.text with
      | some n => return .call o.text (← operands fuel n)
      | none => return .value o

def operands (fuel n : Nat) : Parse (List Expr) :=
  match fuel, n with
  | _, 0 => return []
  | 0, _ => throw (.missing [])
  | fuel + 1, n + 1 => do
    let first ← operand fuel
    return first :: (← operands fuel n)

def level (fuel : Nat) (ls : List (List String)) : Parse Expr :=
  match fuel, ls with
  | 0, _ => throw (.missing [])
  | fuel + 1, [] => operand fuel
  | fuel + 1, l :: more => do following fuel l more (← level fuel more)

def following (fuel : Nat) (l : List String) (more : List (List String)) (a : Expr) : Parse Expr :=
  match fuel with
  | 0 => return a
  | fuel + 1 => do
    match ← accept l with
    | some sign => following fuel l more (.binary sign a (← level fuel more))
    | none => return a

end

def Expr.ofWords (ws : List Octets) : Except Objection Expr := do
  let (e, p) ← (level (16 * ws.length + 32) levels).run { rest := ws }
  match p.rest with
  | [] => return e
  | o :: _ => throw (.unexpected o)

def integer? (o : Octets) : Option Int :=
  let digits := match o with
    | '-' :: rest => rest
    | rest => rest
  if digits ≠ [] && digits.all Char.isDigit then
    some (if o.head? = some '-' then -(Format.natOf digits : Int) else Format.natOf digits)
  else none

def isNull (o : Octets) : Bool := o = [] || integer? o = some 0

def ofInt (n : Int) : Octets := (toString n).toList

def matched (text pattern : Octets) : Except Objection Octets :=
  match Regex.ofText {} pattern with
  | .error f => .error (.noRegex f)
  | .ok r =>
    let grouped : Bool := (List.range pattern.length).any fun n =>
      "\\(".toList.isPrefixOf (pattern.drop n)
    match r.matchAt? ⟨text.toArray, false⟩ 0 with
    | some f => .ok (if grouped then f.group text 1 else Octets.ofNat f.stop)
    | none => .ok (if grouped then [] else ['0'])

def compare (sign : String) (a b : Octets) : Bool :=
  let order : Ordering := match integer? a, integer? b with
    | some x, some y => Ord.compare x y
    | _, _ => if a < b then .lt else if b < a then .gt else .eq
  match sign with
  | "<" => order = .lt
  | "<=" => order ≠ .gt
  | ">" => order = .gt
  | ">=" => order ≠ .lt
  | "!=" => order ≠ .eq
  | _ => order = .eq

def operate (sign : String) (a b : Octets) : Except Objection Octets := do
  if sign = ":" then return ← matched a b
  if sign ∈ ["<", "<=", "=", "==", "!=", ">=", ">"] then
    return if compare sign a b then ['1'] else ['0']
  match integer? a, integer? b with
  | some x, some y =>
    match sign with
    | "+" => return ofInt (x + y)
    | "-" => return ofInt (x - y)
    | "*" => return ofInt (x * y)
    | "/" => if y = 0 then throw .divisionByZero else return ofInt (x.tdiv y)
    | _ => if y = 0 then throw .divisionByZero else return ofInt (x.tmod y)
  | _, _ => throw .noInteger

def apply (name : String) : List Octets → Except Objection Octets
  | [text, pattern] =>
    if name = "match" then matched text pattern
    else .ok (Octets.ofNat ((text.findIdx? (· ∈ pattern)).elim 0 (· + 1)))
  | [text, start, length] =>
    match integer? start, integer? length with
    | some s, some n =>
      if s ≤ 0 || n ≤ 0 then .ok [] else .ok ((text.drop (s.toNat - 1)).take n.toNat)
    | _, _ => .ok []
  | [text] => .ok (Octets.ofNat text.length)
  | _ => .ok []

def Expr.eval : Expr → Except Objection Octets
  | .value o => .ok o
  | .binary "|" a b => do
    let x ← a.eval
    if !isNull x then return x
    let y ← b.eval
    return if isNull y then ['0'] else y
  | .binary "&" a b => do
    let x ← a.eval
    if isNull x then return ['0']
    let y ← b.eval
    return if isNull y then ['0'] else x
  | .binary sign a b => do operate sign (← a.eval) (← b.eval)
  | .call name arguments => do apply name (← arguments.attach.mapM fun ⟨e, _⟩ => e.eval)

def expr : Program := fun arguments => do
  match if arguments.head? = some ['-', '-'] then arguments.drop 1 else arguments with
  | [] => Program.refer "expr" 2 "missing operand".toList
  | words =>
    match (Expr.ofWords words).bind Expr.eval with
    | .ok o =>
      writeLine 1 o
      return if isNull o then 1 else 0
    | .error (.unexpected [')']) =>
      Program.say "expr" "syntax error: unexpected ')'".toList
      return 2
    | .error objection =>
      Program.say "expr" objection.message
      return 2

/-! ### Sequences -/

structure Amount where
  digits : Int
  places : Nat
  deriving DecidableEq, Repr

def amount? (o : Octets) : Option Amount :=
  let (minus, rest) := match o with
    | '-' :: rest => (true, rest)
    | '+' :: rest => (false, rest)
    | rest => (false, rest)
  let whole := rest.takeWhile Char.isDigit
  let behind := rest.drop whole.length
  let places := match behind with
    | '.' :: more => more.takeWhile Char.isDigit
    | _ => []
  let behind := behind.drop (if behind.head? = some '.' then places.length + 1 else 0)
  let n : Nat := Format.natOf (whole ++ places)
  let n : Int := if minus then -n else n
  match behind with
  | [] => if whole ++ places = [] then none else some ⟨n, places.length⟩
  | 'e' :: e =>
    let e := Format.natOf e
    some ⟨n * Int.pow 10 (e - places.length), places.length - e⟩
  | _ => none

def Amount.at (a : Amount) (places : Nat) : Int := a.digits * Int.pow 10 (places - a.places)

def shown (places : Nat) (n : Int) : Octets :=
  (if n < 0 then ['-'] else []) ++ Numeral.pointed places false (Numeral.digitsOf n.natAbs)

def steps (first step last : Int) : List Int :=
  let count := if step > 0 then if first ≤ last then ((last - first) / step).toNat + 1 else 0
    else if last ≤ first then ((first - last) / (-step)).toNat + 1 else 0
  (List.range count).map fun (k : Nat) => first + step * k

def options : Options where
  plain := ['w']
  valued := ['s', 'f']
  long := [("equal-width", 'w'), ("separator", 's'), ("format", 'f')]
  first := true

def sequenceArguments : List Octets → List Octets
  | [] => []
  | ('-' :: c :: rest) :: others =>
    if c.isDigit || c = '.' then ['-', '-'] :: ('-' :: c :: rest) :: others
    else if c ∈ options.valued && rest = [] then
      ('-' :: c :: rest) :: others.take 1 ++ sequenceArguments (others.drop 1)
    else ('-' :: c :: rest) :: sequenceArguments others
  | others => others
  termination_by l => l.length

def seq : Program := fun arguments =>
  Program.withOptions "seq" options 1 (fun g => do
    match g.operands with
    | [] => Program.refer "seq" 1 "missing operand".toList
    | _ :: _ :: _ :: extra :: _ =>
      Program.refer "seq" 1 ("extra operand '".toList ++ extra ++ ['\''])
    | operands =>
      match operands.find? fun o => (amount? o).isNone with
      | some wrong =>
        Program.refer "seq" 1 ("invalid floating point argument: '".toList ++ wrong ++ ['\''])
      | none =>
        let one : Amount := ⟨1, 0⟩
        let (first, step, last) : Amount × Amount × Amount := match operands.filterMap amount? with
          | [a] => (one, one, a)
          | [a, b] => (a, one, b)
          | [a, b, c] => (a, b, c)
          | _ => (one, one, one)
        if step.digits = 0 then
          Program.refer "seq" 1 ("invalid Zero increment value: '".toList ++
            operands.getD 1 [] ++ ['\''])
        else
          let places := max first.places step.places
          let fine := max places last.places
          let unit := Int.pow 10 (fine - places)
          let numbers := (steps (first.at fine) (step.at fine) (last.at fine)).map (· / unit)
          let width := if g.has 'w' then
              max (shown places (first.at places)).length
                (shown places ((last.at fine) / unit)).length
            else 0
          let text (n : Int) : Octets :=
            match g.value? 'f' with
            | some format =>
              let written := Format.write .program format [shown places n]
              written.pieces.flatMap fun
                | .text o => o
                | .complaint _ => []
            | none =>
              let o := shown places n
              let sign := if n < 0 then ['-'] else []
              sign ++ Format.pad false '0' (width - sign.length) (o.drop sign.length)
          let texts := numbers.map text
          if !texts.isEmpty then
            writeLine 1 (List.intercalate ((g.value? 's').getD ['\n']) texts)
          return 0) (sequenceArguments arguments)

def time? (o : Octets) : Option Nat :=
  let (x, n) := Numeral.float o
  let units := [("", 1000), ("s", 1000), ("m", 60000), ("h", 3600000), ("d", 86400000)]
  if n = 0 || o.head? = some '-' then none
  else (units.lookup (Octets.text (o.drop n))).map fun unit => (x * unit).toUInt64.toNat

def sleep : Program := fun arguments => do
  match arguments, arguments.filter fun o => (time? o).isNone with
  | [], _ => Program.refer "sleep" 1 "missing operand".toList
  | _, [] =>
    Signal.pass (((arguments.filterMap time?).map (1000 * ·)).foldl (· + ·) 0)
    return 0
  | _, wrong =>
    for o in wrong do Program.say "sleep" ("invalid time interval '".toList ++ o ++ ['\''])
    writeLine 2 "Try 'sleep --help' for more information.".toList
    return 1

end MutationPipeline.Rehearsal.Shell.Numbers
