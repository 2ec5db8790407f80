import MutationPipeline.Rehearsal.Shell.Reader

/-!
Arithmetic in shell scripts: numbers of 64 bits, names of variables, and operators by their
strength. An expression is read as a whole before it has a value; what an operator does not need
stays without one.
-/
namespace MutationPipeline.Rehearsal.Shell.Arithmetic

abbrev Word := BitVec 64

inductive Fault where
  | expected (what : String) (part : Octets)
  | divisionByZero (part : Octets)
  | noNumber (value : Octets)
  | tooGreat (part : Octets)
  deriving DecidableEq, Repr

inductive Token where
  | number (n : Word)
  | name (o : Octets)
  | operator (s : String)
  | stray
  deriving DecidableEq, Repr

abbrev Slot := Octets × Option Octets

inductive Expr where
  | number (n : Word)
  | name (o : Octets)
  | element (o : Octets) (index : Expr)
  | named (slot : Slot)
  | unary (operator : String) (e : Expr)
  | binary (operator : String) (a b : Expr) (part : Octets)
  | choice (test a b : Expr)
  | assign (target : Expr) (change : Option String) (e : Expr) (part : Octets)
  | stepped (target : Expr) (operator : String) (before : Bool)

/-! ### Reading -/

def largest : Nat := Nat.pow 2 63 - 1

def digit (c : Char) : Nat :=
  if c.isDigit then c.toNat - '0'.toNat else c.toLower.toNat - 'a'.toNat + 10

def ofDigits (base : Nat) (digits : Octets) : Nat :=
  digits.foldl (fun n c => base * n + digit c) 0

def isHex (c : Char) : Bool := c.isDigit || c.toLower ∈ ['a', 'b', 'c', 'd', 'e', 'f']

def isOctal (c : Char) : Bool := '0' ≤ c && c ≤ '7'

/-- The number at the start of a text, with how many characters it takes. A zero in front makes it
octal, and an `x` behind that hexadecimal. -/
def numeral (text : Octets) : Nat × Nat :=
  let plain (base : Nat) (p : Char → Bool) (text : Octets) (skipped : Nat) : Nat × Nat :=
    let digits := text.takeWhile p
    (min (ofDigits base digits) largest, digits.length + skipped)
  match text with
  | '0' :: x :: c :: rest =>
    if x.toLower = 'x' ∧ isHex c then plain 16 isHex (c :: rest) 2 else plain 8 isOctal text 0
  | '0' :: _ => plain 8 isOctal text 0
  | _ => plain 10 Char.isDigit text 0

def operators : List String :=
  ["<<=", ">>=", "<<", ">>", "<=", ">=", "==", "!=", "&&", "||", "+=", "-=", "*=", "/=", "%=", "&=",
    "|=", "^=", "+", "-", "*", "/", "%", "<", ">", "=", "!", "(", ")", "&", "|", "^", "~", "?", ":"]

def richOperators : List String := ["**=", "**", "++", "--", ",", "[", "]"]

def tokens (rich : Bool) (fuel : Nat) (text : Octets) : List (Token × Octets) :=
  match fuel, text with
  | fuel + 1, c :: rest =>
    if c = ' ' || c = '\t' || c = '\n' then tokens rich fuel rest
    else if c.isDigit then
      let (n, length) := numeral text
      (.number (.ofNat 64 n), text) :: tokens rich fuel (text.drop length)
    else if Reading.isNameStart c then
      let name := text.takeWhile Reading.isNameChar
      (.name name, text) :: tokens rich fuel (text.drop name.length)
    else
      let known := if rich then richOperators ++ operators else operators
      match known.find? fun o => o.toList.isPrefixOf text with
      | some o => (.operator o, text) :: tokens rich fuel (text.drop o.length)
      | none => (.stray, text) :: tokens rich fuel rest
  | _, _ => []

def levels : List (List String) :=
  [["||"], ["&&"], ["|"], ["^"], ["&"], ["==", "!="], ["<", "<=", ">", ">="], ["<<", ">>"],
    ["+", "-"], ["*", "/", "%"], ["**"]]

def assignments : List (String × Option String) :=
  ("=", none) :: ["<<", ">>", "+", "-", "*", "/", "%", "&", "|", "^", "**"].map fun o =>
    (o ++ "=", some o)

structure Place where
  rest : List (Token × Octets)
  last : Octets := []
  isNamed : Octets → Bool

abbrev Parse := StateT Place (Except Fault)

def peek : Parse (Option Token) := return (← get).rest.head?.map (·.1)

def advance : Parse Unit := modify fun p =>
  { p with rest := p.rest.tail, last := (p.rest.head?.map (·.2)).getD p.last }

def part : Parse Octets := do
  let p ← get
  return (p.rest.head?.map (·.2)).getD p.last

def fail (what : String) : Parse α := do throw (.expected what (← part))

def accept (o : String) : Parse Bool := do
  if (← peek) = some (.operator o) then
    advance
    return true
  else return false

def expect (o : String) : Parse Unit := do
  if ← accept o then return () else fail ("'" ++ o ++ "'")

def acceptOf (os : List String) : Parse (Option String) := do
  match ← peek with
  | some (.operator o) =>
    if o ∈ os then
      advance
      return some o
    else return none
  | _ => return none

def takeName : Parse Octets := do
  let text ← part
  let name := text.takeWhile (· ≠ ']')
  modify fun p => { p with rest := p.rest.dropWhile fun t => t.1 ≠ .operator "]" }
  return name

def Expr.isTarget : Expr → Bool
  | .name _ | .element .. | .named _ => true
  | _ => false

mutual

def operand (fuel : Nat) : Parse Expr :=
  match fuel with
  | 0 => fail "primary"
  | fuel + 1 => do
    match ← peek with
    | some (.number n) =>
      advance
      return .number n
    | some (.name o) =>
      advance
      let e ← if ← accept "[" then
          if (← get).isNamed o then do
            let name ← takeName
            expect "]"
            pure (Expr.named (o, some name))
          else do
            let index ← whole fuel
            expect "]"
            pure (Expr.element o index)
        else pure (Expr.name o)
      match ← acceptOf ["++", "--"] with
      | some o => return .stepped e o true
      | none => return e
    | some (.operator "(") =>
      advance
      let e ← series fuel
      expect ")"
      return e
    | some (.operator o) =>
      if o ∈ ["-", "+", "!", "~"] then
        advance
        return .unary o (← operand fuel)
      else if o ∈ ["++", "--"] then
        advance
        let e ← operand fuel
        if e.isTarget then return .stepped e o false
        else return .unary (o.take 1).toString (.unary (o.take 1).toString e)
      else fail "primary"
    | _ => fail "primary"

def level (fuel : Nat) (ls : List (List String)) : Parse Expr :=
  match fuel, ls with
  | 0, _ => fail "primary"
  | fuel + 1, [] => operand fuel
  | fuel + 1, l :: more => do following fuel l more (← level fuel more)

def following (fuel : Nat) (l : List String) (more : List (List String)) (a : Expr) : Parse Expr :=
  match fuel with
  | 0 => return a
  | fuel + 1 => do
    match ← acceptOf l with
    | some o =>
      let begun ← part
      if o = "**" then return .binary o a (← level fuel (l :: more)) begun
      else following fuel l more (.binary o a (← level fuel more) begun)
    | none => return a

def whole (fuel : Nat) : Parse Expr :=
  match fuel with
  | 0 => fail "primary"
  | fuel + 1 => do
    let first ← conditional fuel
    if first.isTarget then
      match ← acceptOf (assignments.map (·.1)) with
      | some o =>
        let begun ← part
        return .assign first ((assignments.lookup o).join) (← whole fuel) begun
      | none => return first
    else return first

def conditional (fuel : Nat) : Parse Expr :=
  match fuel with
  | 0 => fail "primary"
  | fuel + 1 => do
    let test ← level fuel levels
    if ← accept "?" then
      let a ← whole fuel
      expect ":"
      return .choice test a (← conditional fuel)
    else return test

def series (fuel : Nat) : Parse Expr :=
  match fuel with
  | 0 => fail "primary"
  | fuel + 1 => do
    let first ← whole fuel
    if ← accept "," then
      let begun ← part
      return .binary "," first (← series fuel) begun
    else return first

end

structure Setting where
  rich : Bool := false
  value : Slot → Octets
  isNamed : Octets → Bool := fun _ => false

def Expr.ofText (s : Setting) (text : Octets) : Except Fault Expr := do
  let ts := tokens s.rich (text.length + 1) text
  if s.rich && ts.isEmpty then return .number 0
  let (e, p) ← (series (64 * (ts.length + 1))).run { rest := ts, isNamed := s.isNamed }
  match p.rest with
  | [] => return e
  | (_, part) :: _ => throw (.expected "EOF" part)

/-! ### Values -/

def truth (b : Bool) : Word := if b then 1 else 0

def operate (o : String) (a b : Word) (part : Octets) : Except Fault Word :=
  let shift := b.toNat % 64
  match o with
  | "+" => .ok (a + b)
  | "-" => .ok (a - b)
  | "*" => .ok (a * b)
  | "**" => .ok (.ofNat 64 (a.toNat.pow b.toNat))
  | "/" => if b = 0 then .error (.divisionByZero part) else .ok (a.sdiv b)
  | "%" => if b = 0 then .error (.divisionByZero part) else .ok (a.srem b)
  | "&" => .ok (a &&& b)
  | "|" => .ok (a ||| b)
  | "^" => .ok (a ^^^ b)
  | "<<" => .ok (a <<< shift)
  | ">>" => .ok (a.sshiftRight shift)
  | "==" => .ok (truth (a = b))
  | "!=" => .ok (truth (a ≠ b))
  | "<" => .ok (truth (a.slt b))
  | "<=" => .ok (truth (a.sle b))
  | ">" => .ok (truth (b.slt a))
  | ">=" => .ok (truth (b.sle a))
  | "," => .ok b
  | _ => .error (.expected "EOF" part)

def negate (o : String) (a : Word) : Word :=
  match o with
  | "-" => -a
  | "!" => truth (a = 0)
  | "~" => ~~~a
  | _ => a

def ofText (text : Octets) : Except Fault Word :=
  let trimmed := text.dropWhile fun c => c ∈ [' ', '\t', '\n']
  let (minus, digits) := match trimmed with
    | '-' :: rest => (true, rest)
    | '+' :: rest => (false, rest)
    | all => (false, all)
  let (n, length) := numeral digits
  if text = [] then .ok 0
  else if length = 0 ∨ !(digits.drop length).all fun c => c ∈ [' ', '\t', '\n'] then
    .error (.noNumber text)
  else .ok (if minus then -.ofNat 64 n else .ofNat 64 n)

def shown (n : Word) : Octets := (toString n.toInt).toList

abbrev Valuation := StateT (List (Slot × Octets)) (Except Fault)

mutual

def valueOf (s : Setting) (fuel : Nat) (slot : Slot) : Valuation Word :=
  match fuel with
  | 0 => throw (.expected "primary" [])
  | fuel + 1 => do
    let text := ((← get).lookup slot).getD (s.value slot)
    match ofText text with
    | .ok n => return n
    | .error fault =>
      if !s.rich then throw fault
      else if text.head?.any Char.isDigit && text.all Char.isDigit then throw (.tooGreat text)
      else
        let e ← (Expr.ofText s text : Except Fault Expr)
        valueOfExpr s fuel e

def slotOf (s : Setting) (fuel : Nat) (e : Expr) : Valuation Slot :=
  match fuel with
  | 0 => throw (.expected "primary" [])
  | fuel + 1 => do
    match e with
    | .name o => return (o, none)
    | .named slot => return slot
    | .element o index => return (o, some (shown (← valueOfExpr s fuel index)))
    | _ => throw (.expected "primary" [])

def valueOfExpr (s : Setting) (fuel : Nat) (e : Expr) : Valuation Word :=
  match fuel with
  | 0 => throw (.expected "primary" [])
  | fuel + 1 => do
    match e with
    | .number n => return n
    | .name _ | .element .. | .named _ => do valueOf s fuel (← slotOf s fuel e)
    | .unary o e => return negate o (← valueOfExpr s fuel e)
    | .binary "&&" a b _ =>
      if (← valueOfExpr s fuel a) = 0 then return 0
      else return truth ((← valueOfExpr s fuel b) ≠ 0)
    | .binary "||" a b _ =>
      if (← valueOfExpr s fuel a) ≠ 0 then return 1
      else return truth ((← valueOfExpr s fuel b) ≠ 0)
    | .binary o a b part =>
      let a ← valueOfExpr s fuel a
      let b ← valueOfExpr s fuel b
      operate o a b part
    | .choice test a b =>
      if (← valueOfExpr s fuel test) ≠ 0 then valueOfExpr s fuel a else valueOfExpr s fuel b
    | .assign target change e part =>
      let slot ← slotOf s fuel target
      let n ← valueOfExpr s fuel e
      let n ← match change with
        | some o => do operate o (← valueOf s fuel slot) n part
        | none => pure n
      modify ((slot, shown n) :: ·)
      return n
    | .stepped target o before =>
      let slot ← slotOf s fuel target
      let old ← valueOf s fuel slot
      let new := if o = "++" then old + 1 else old - 1
      modify ((slot, shown new) :: ·)
      return if before then old else new

end

def patience : Nat := 10000

def eval (s : Setting) (text : Octets) : Except Fault (Octets × List (Slot × Octets)) := do
  let e ← Expr.ofText s text
  let (n, changes) ← (valueOfExpr s patience e).run []
  return (shown n, changes)

namespace Fault

def message (text : Octets) : Fault → Octets
  | .expected what _ =>
    ("arithmetic expression: expecting " ++ what ++ ": \"").toList ++ text ++ ['"']
  | .divisionByZero _ => "arithmetic expression: division by zero: \"".toList ++ text ++ ['"']
  | .noNumber value | .tooGreat value => "Illegal number: ".toList ++ value

def richMessage (text : Octets) (f : Fault) : Octets :=
  let cause (part : Octets) : String := match f with
    | .expected "primary" _ => "syntax error: operand expected"
    | .expected "EOF" _ =>
      if (part.head?.any fun c => c.isAlphanum || c = '_') then "syntax error in expression"
      else if part.head? = some '=' then "attempted assignment to non-variable"
      else "syntax error: invalid arithmetic operator"
    | .expected "')'" _ => "missing \x60)'"
    | .expected _ _ => "syntax error in expression"
    | .divisionByZero _ => "division by 0"
    | .noNumber _ => "syntax error: operand expected"
    | .tooGreat _ => "value too great for base"
  let part := match f with
    | .expected _ part | .divisionByZero part | .noNumber part | .tooGreat part => part
  let text := match f with
    | .tooGreat part => part
    | _ => text.dropWhile (· = ' ')
  text ++ (": " ++ cause part ++ " (error token is \"").toList ++ part ++ "\")".toList

end Fault

end MutationPipeline.Rehearsal.Shell.Arithmetic
