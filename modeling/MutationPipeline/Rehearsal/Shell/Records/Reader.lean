import MutationPipeline.Rehearsal.Shell.Format
import MutationPipeline.Rehearsal.Shell.Syntax

/-!
Scripts for records: rules that say what is done with which records of an input, and functions. A
record is divided into fields.
-/
namespace MutationPipeline.Rehearsal.Shell.Records

mutual

inductive Expr where
  | number (x : Float)
  | text (o : Octets)
  | regex (o : Octets)
  | variable (name : Octets)
  | element (name : Octets) (places : List Expr)
  | field (e : Expr)
  | grouped (e : Expr)
  | assign (operator : Option Char) (target e : Expr)
  | choice (test a b : Expr)
  | either (a b : Expr)
  | both (a b : Expr)
  | member (places : List Expr) (name : Octets)
  | fits (negated : Bool) (a b : Expr)
  | compare (operator : String) (a b : Expr)
  | joined (a b : Expr)
  | arithmetic (operator : Char) (a b : Expr)
  | negative (e : Expr)
  | positive (e : Expr)
  | not (e : Expr)
  | step (target : Expr) (up before : Bool)
  | call (name : Octets) (arguments : List Expr)
  | take (origin : Origin) (target : Option Expr)

inductive Origin where
  | input
  | file (e : Expr)
  | command (e : Expr)

end

inductive Outlet where
  | plain
  | file (append : Bool) (e : Expr)
  | command (e : Expr)

inductive Statement where
  | print (arguments : List Expr) (outlet : Outlet)
  | format (arguments : List Expr) (outlet : Outlet)
  | expr (e : Expr)
  | choice (test : Expr) (a b : List Statement)
  | loop (test : Expr) (body : List Statement)
  | loopLate (test : Expr) (body : List Statement)
  | counting (first : Option Statement) (test : Option Expr) (step : Option Statement)
      (body : List Statement)
  | each (name array : Octets) (body : List Statement)
  | group (body : List Statement)
  | next (file : Bool)
  | stop (status : Option Expr)
  | give (value : Option Expr)
  | leave
  | again
  | erase (name : Octets) (places : Option (List Expr))

inductive Occasion where
  | first
  | last
  | always
  | when (e : Expr)
  | range (a b : Expr)

structure Rule where
  occasion : Occasion
  body : Option (List Statement)

structure Function where
  name : Octets
  parameters : List Octets
  body : List Statement

structure Script where
  rules : List Rule := []
  functions : List Function := []

end MutationPipeline.Rehearsal.Shell.Records

/-!
Reading scripts for records.
-/
namespace MutationPipeline.Rehearsal.Shell.Records

structure Rest where
  text : Octets
  line : Nat := 1

structure Mistake where
  line : Nat
  text : Octets

abbrev Reading := StateT Rest (Except Mistake)

namespace Reading

def peek : Reading (Option Char) := return (← get).text.head?

def advance (n : Nat) : Reading Unit := modify fun r =>
  { text := r.text.drop n, line := r.line + (r.text.take n).count '\n' }

def isNameStart (c : Char) : Bool := c.isAlpha || c = '_'

def isNameChar (c : Char) : Bool := c.isAlphanum || c = '_'

def fail : Reading α := do
  let r ← get
  let name := r.text.takeWhile isNameChar
  throw ⟨r.line, match r.text with
    | [] => "unexpected end of file".toList
    | c :: _ => "syntax error at or near ".toList ++ if name = [] then
        if c = '\n' then "end of line".toList else [c]
      else name⟩

def sees (text : String) : Reading Bool := return text.toList.isPrefixOf (← get).text

def gap (lines : Bool) : Octets → Nat
  | '\\' :: '\n' :: rest => gap lines rest + 2
  | '#' :: rest =>
    let n := (rest.takeWhile (· ≠ '\n')).length
    gap lines (rest.drop n) + n + 1
  | c :: rest =>
    if c = ' ' || c = '\t' || c = '\r' || (lines && c = '\n') then gap lines rest + 1 else 0
  | [] => 0
  termination_by o => o.length
  decreasing_by all_goals (simp only [List.length_cons, List.length_drop]; omega)

def skipBlanks : Reading Unit := do advance (gap false (← get).text)

def skipLines : Reading Unit := do advance (gap true (← get).text)

def accept (text : String) : Reading Bool := do
  skipBlanks
  if ← sees text then
    advance text.toList.length
    return true
  else return false

def expect (text : String) : Reading Unit := do if !(← accept text) then fail

def peekName : Reading Octets := do
  skipBlanks
  let rest := (← get).text
  return if rest.head?.any isNameStart then rest.takeWhile isNameChar else []

def acceptWord (word : String) : Reading Bool := do
  if (← peekName) = word.toList then
    advance word.toList.length
    return true
  else return false

def takeName : Reading Octets := do
  let name ← peekName
  if name = [] then fail
  advance name.length
  return name

def quoted : Octets → Option (Octets × Nat)
  | [] | '\n' :: _ => none
  | '"' :: _ => some ([], 1)
  | '\\' :: '\n' :: rest => (quoted rest).map fun (o, n) => (o, n + 2)
  | '\\' :: c :: rest =>
    if c = '"' || c = '/' then (quoted rest).map fun (o, n) => (c :: o, n + 2)
    else (quoted rest).map fun (o, n) => ('\\' :: c :: o, n + 2)
  | c :: rest => (quoted rest).map fun (o, n) => (c :: o, n + 1)

def slashed (inside : Bool) : Octets → Option (Octets × Nat)
  | [] | '\n' :: _ => none
  | '\\' :: '/' :: rest => (slashed inside rest).map fun (o, n) => ('/' :: o, n + 2)
  | '\\' :: c :: rest => (slashed inside rest).map fun (o, n) => ('\\' :: c :: o, n + 2)
  | c :: rest =>
    if c = '/' && !inside then some ([], 1)
    else
      let inside := if c = '[' then true else if c = ']' then false else inside
      (slashed inside rest).map fun (o, n) => (c :: o, n + 1)

def meant (o : Octets) : Octets := (Format.unescape { bare := true, quotes := ['"', '/'] } o).1

def keywords : List String :=
  ["in", "if", "else", "while", "for", "do", "print", "printf", "next", "nextfile", "exit",
    "return", "break", "continue", "delete", "function", "func", "BEGIN", "END", "getline"]

def functions : List String :=
  ["length", "substr", "index", "split", "sub", "gsub", "match", "sprintf", "sin", "cos", "atan2",
    "exp", "log", "sqrt", "int", "rand", "srand", "tolower", "toupper", "system", "close", "fflush"]

structure Limits where
  noFile : Bool := false
  noMember : Bool := false

def isTarget : Expr → Bool
  | .variable _ | .element .. | .field _ => true
  | _ => false

def beginsOperand : Reading Bool := do
  skipBlanks
  let name ← peekName
  match ← peek with
  | some c =>
    if name ≠ [] then return !(decide (Octets.text name ∈ keywords))
    else return c.isDigit || c ∈ ['"', '$', '(', '.']
  | none => return false

def assignments : List (String × Option Char) :=
  [("+=", some '+'), ("-=", some '-'), ("*=", some '*'), ("/=", some '/'), ("%=", some '%'),
    ("^=", some '^'), ("=", none)]

mutual

def expression (fuel : Nat) (l : Limits) : Reading Expr :=
  match fuel with
  | 0 => fail
  | fuel + 1 => do
    let e ← conditional fuel l
    if isTarget e then
      skipBlanks
      if ← sees "==" then return e
      let rest := (← get).text
      match assignments.find? fun a => a.1.toList.isPrefixOf rest with
      | some (sign, operator) =>
        advance sign.toList.length
        skipLines
        return .assign operator e (← expression fuel l)
      | none => return e
    else return e

def conditional (fuel : Nat) (l : Limits) : Reading Expr :=
  match fuel with
  | 0 => fail
  | fuel + 1 => do
    let test ← disjunction fuel l
    if ← accept "?" then
      skipLines
      let a ← expression fuel l
      skipLines
      expect ":"
      skipLines
      return .choice test a (← expression fuel l)
    else return test

def disjunction (fuel : Nat) (l : Limits) : Reading Expr :=
  match fuel with
  | 0 => fail
  | fuel + 1 => do
    let a ← conjunction fuel l
    if ← accept "||" then
      skipLines
      return .either a (← disjunction fuel l)
    else return a

def conjunction (fuel : Nat) (l : Limits) : Reading Expr :=
  match fuel with
  | 0 => fail
  | fuel + 1 => do
    let a ← membership fuel l (← matching fuel l)
    if ← accept "&&" then
      skipLines
      return .both a (← conjunction fuel l)
    else return a

def membership (fuel : Nat) (l : Limits) (a : Expr) : Reading Expr :=
  match fuel with
  | 0 => fail
  | fuel + 1 => do
    if l.noMember then return a
    if ← acceptWord "in" then
      let name ← takeName
      membership fuel l (.member [a] name)
    else return a

def matching (fuel : Nat) (l : Limits) : Reading Expr :=
  match fuel with
  | 0 => fail
  | fuel + 1 => do
    let a ← comparison fuel l
    matchingOf fuel l a

def matchingOf (fuel : Nat) (l : Limits) (a : Expr) : Reading Expr :=
  match fuel with
  | 0 => fail
  | fuel + 1 => do
    if ← accept "!~" then matchingOf fuel l (.fits true a (← comparison fuel l))
    else if ← accept "~" then matchingOf fuel l (.fits false a (← comparison fuel l))
    else return a

def comparison (fuel : Nat) (l : Limits) : Reading Expr :=
  match fuel with
  | 0 => fail
  | fuel + 1 => do
    let a ← taking fuel l (← juxtaposition fuel l)
    skipBlanks
    let signs := if l.noFile then ["<=", "==", "!=", "<"] else ["<=", "==", "!=", ">=", "<", ">"]
    if ← sees ">>" then return a
    let rest := (← get).text
    match signs.find? fun s => s.toList.isPrefixOf rest with
    | some s =>
      advance s.toList.length
      skipLines
      return .compare s a (← juxtaposition fuel l)
    | none => return a

def taking (fuel : Nat) (l : Limits) (a : Expr) : Reading Expr :=
  match fuel with
  | 0 => fail
  | fuel + 1 => do
    let before ← get
    if (← accept "|") && (← acceptWord "getline") then
      let target ← target? fuel
      taking fuel l (.take (.command a) target)
    else
      set before
      return a

def juxtaposition (fuel : Nat) (l : Limits) : Reading Expr :=
  match fuel with
  | 0 => fail
  | fuel + 1 => do juxtapositionOf fuel l (← additive fuel l)

def juxtapositionOf (fuel : Nat) (l : Limits) (a : Expr) : Reading Expr :=
  match fuel with
  | 0 => fail
  | fuel + 1 => do
    if ← beginsOperand then juxtapositionOf fuel l (.joined a (← additive fuel l)) else return a

def additive (fuel : Nat) (l : Limits) : Reading Expr :=
  match fuel with
  | 0 => fail
  | fuel + 1 => do additiveOf fuel l (← multiplicative fuel l)

def additiveOf (fuel : Nat) (l : Limits) (a : Expr) : Reading Expr :=
  match fuel with
  | 0 => fail
  | fuel + 1 => do
    skipBlanks
    match (← get).text with
    | c :: d :: _ =>
      if (c = '+' || c = '-') && d ≠ '=' && d ≠ c then
        advance 1
        additiveOf fuel l (.arithmetic c a (← multiplicative fuel l))
      else return a
    | _ => return a

def multiplicative (fuel : Nat) (l : Limits) : Reading Expr :=
  match fuel with
  | 0 => fail
  | fuel + 1 => do multiplicativeOf fuel l (← unary fuel l)

def multiplicativeOf (fuel : Nat) (l : Limits) (a : Expr) : Reading Expr :=
  match fuel with
  | 0 => fail
  | fuel + 1 => do
    skipBlanks
    match (← get).text with
    | c :: d :: _ =>
      if (c = '*' || c = '/' || c = '%') && d ≠ '=' && d ≠ '*' then
        advance 1
        multiplicativeOf fuel l (.arithmetic c a (← unary fuel l))
      else return a
    | _ => return a

def unary (fuel : Nat) (l : Limits) : Reading Expr :=
  match fuel with
  | 0 => fail
  | fuel + 1 => do
    skipBlanks
    match (← get).text with
    | '!' :: _ =>
      advance 1
      return .not (← unary fuel l)
    | '-' :: '-' :: _ | '+' :: '+' :: _ => power fuel
    | '-' :: _ =>
      advance 1
      return .negative (← unary fuel l)
    | '+' :: _ =>
      advance 1
      return .positive (← unary fuel l)
    | _ => power fuel

def power (fuel : Nat) : Reading Expr :=
  match fuel with
  | 0 => fail
  | fuel + 1 => do
    let a ← stepped fuel
    skipBlanks
    if (← sees "^") && !(← sees "^=") then
      advance 1
      skipBlanks
      if ← accept "-" then return .arithmetic '^' a (.negative (← power fuel))
      else return .arithmetic '^' a (← power fuel)
    else return a

def stepped (fuel : Nat) : Reading Expr :=
  match fuel with
  | 0 => fail
  | fuel + 1 => do
    let e ← primary fuel
    if !isTarget e then return e
    else if ← sees "++" then
      advance 2
      return .step e true true
    else if ← sees "--" then
      advance 2
      return .step e false true
    else return e

def target? (fuel : Nat) : Reading (Option Expr) :=
  match fuel with
  | 0 => fail
  | fuel + 1 => do
    skipBlanks
    let name ← peekName
    if (← peek) = some '$' || (name ≠ [] && !decide (Octets.text name ∈ keywords ++ functions)) then
      return some (← primary fuel)
    else return none

def arguments (fuel : Nat) (ending : String) : Reading (List Expr) :=
  match fuel with
  | 0 => fail
  | fuel + 1 => do
    skipLines
    if ← accept ending then return []
    let first ← expression fuel {}
    skipLines
    if ← accept "," then
      skipLines
      return first :: (← arguments fuel ending)
    else
      expect ending
      return [first]

def primary (fuel : Nat) : Reading Expr :=
  match fuel with
  | 0 => fail
  | fuel + 1 => do
    skipBlanks
    let rest := (← get).text
    match rest with
    | [] => fail
    | '"' :: more =>
      match quoted more with
      | some (o, n) =>
        advance (n + 1)
        return .text (meant o)
      | none => fail
    | '/' :: more =>
      match slashed false more with
      | some (o, n) =>
        advance (n + 1)
        return .regex o
      | none => fail
    | '$' :: _ =>
      advance 1
      if ← accept "++" then
        let e ← primary fuel
        return .field (.step e true false)
      else if ← accept "-" then return .field (.negative (← primary fuel))
      else return .field (← primary fuel)
    | '+' :: '+' :: _ =>
      advance 2
      return .step (← primary fuel) true false
    | '-' :: '-' :: _ =>
      advance 2
      return .step (← primary fuel) false false
    | '(' :: _ =>
      advance 1
      match ← arguments fuel ")" with
      | [e] => return .grouped e
      | es =>
        if ← acceptWord "in" then return .member es (← takeName) else fail
    | c :: _ =>
      if c.isDigit || c = '.' then
        let (x, n) := Numeral.float rest
        if n = 0 then fail
        advance n
        return .number x
      else if isNameStart c then
        let name ← takeName
        let word := Octets.text name
        if word = "getline" then
          let target ← target? fuel
          if (← accept "<") then return .take (.file (← primary fuel)) target
          else return .take .input target
        else if word ∈ keywords then fail
        else if word ∈ functions then
          if ← accept "(" then return .call name (← arguments fuel ")")
          else return .call name []
        else if (← peek) = some '(' then
          advance 1
          return .call name (← arguments fuel ")")
        else if (← peek) = some '[' then
          advance 1
          return .element name (← arguments fuel "]")
        else return .variable name
      else fail

end

def atEnd : Reading Bool := do
  skipBlanks
  match ← peek with
  | none | some ';' | some '\n' | some '\x7d' => return true
  | _ => return false

def finish : Reading Unit := do
  skipBlanks
  match ← peek with
  | some ';' | some '\n' => advance 1
  | some '\x7d' | none => return
  | _ => fail

def printed (fuel : Nat) : Reading (List Expr) := do
  if (← atEnd) || (← sees ">") || (← sees "|") then return []
  let before ← get
  let grouped? : Reading (Option (List Expr)) := do
    if !(← accept "(") then return none
    let es ← arguments fuel ")"
    if (← atEnd) || (← sees ">") || ((← sees "|") && !(← sees "||")) then return some es
    else return none
  match (grouped?.run before) with
  | .ok (some es, after) =>
    set after
    return es
  | _ => several fuel
where
  several : Nat → Reading (List Expr)
    | 0 => fail
    | n + 1 => do
      let first ← expression fuel { noFile := true }
      if ← accept "," then
        skipLines
        return first :: (← several n)
      else return [first]

def outlet (fuel : Nat) : Reading Outlet := do
  if ← accept ">>" then return .file true (← juxtaposition fuel { noFile := true })
  else if ← accept ">" then return .file false (← juxtaposition fuel { noFile := true })
  else if ← accept "|" then return .command (← juxtaposition fuel { noFile := true })
  else return .plain

mutual

def simple (fuel : Nat) : Reading Statement :=
  match fuel with
  | 0 => fail
  | fuel + 1 => do
    if ← acceptWord "print" then
      let es ← printed fuel
      return .print es (← outlet fuel)
    else if ← acceptWord "printf" then
      let es ← printed fuel
      return .format es (← outlet fuel)
    else if ← acceptWord "delete" then
      let name ← takeName
      if ← accept "[" then return .erase name (some (← arguments fuel "]"))
      else return .erase name none
    else return .expr (← expression fuel {})

def statement (fuel : Nat) : Reading Statement :=
  match fuel with
  | 0 => fail
  | fuel + 1 => do
    skipBlanks
    if ← accept "\x7b" then return .group (← block fuel)
    else if ← accept ";" then return .group []
    else if ← acceptWord "if" then
      expect "("
      let test ← expression fuel {}
      expect ")"
      skipLines
      let a ← statement fuel
      let before ← get
      skipLines
      discard (accept ";")
      skipLines
      if ← acceptWord "else" then
        skipLines
        return .choice test [a] [← statement fuel]
      else
        set before
        return .choice test [a] []
    else if ← acceptWord "while" then
      expect "("
      let test ← expression fuel {}
      expect ")"
      if ← accept ";" then return .loop test []
      skipLines
      return .loop test [← statement fuel]
    else if ← acceptWord "do" then
      skipLines
      let body ← statement fuel
      skipLines
      if !(← acceptWord "while") then fail
      expect "("
      let test ← expression fuel {}
      expect ")"
      finish
      return .loopLate test [body]
    else if ← acceptWord "for" then
      expect "("
      let before ← get
      let each? : Reading (Option (Octets × Octets)) := do
        let name ← peekName
        if name = [] then return none
        advance name.length
        if !(← acceptWord "in") then return none
        let array ← takeName
        if ← accept ")" then return some (name, array) else return none
      match each?.run before with
      | .ok (some (name, array), after) =>
        set after
        skipLines
        return .each name array [← statement fuel]
      | _ =>
        let first ← if ← sees ";" then pure none else some <$> simple fuel
        expect ";"
        skipLines
        let test ← if ← accept ";" then pure none else do
          let e ← expression fuel {}
          expect ";"
          pure (some e)
        skipLines
        let step ← if ← sees ")" then pure none else some <$> simple fuel
        expect ")"
        if ← accept ";" then return .counting first test step []
        skipLines
        return .counting first test step [← statement fuel]
    else if ← acceptWord "nextfile" then finish; return .next true
    else if ← acceptWord "next" then finish; return .next false
    else if ← acceptWord "break" then finish; return .leave
    else if ← acceptWord "continue" then finish; return .again
    else if ← acceptWord "exit" then
      let e ← if ← atEnd then pure none else some <$> expression fuel {}
      finish
      return .stop e
    else if ← acceptWord "return" then
      let e ← if ← atEnd then pure none else some <$> expression fuel {}
      finish
      return .give e
    else
      let s ← simple fuel
      finish
      return s

def block (fuel : Nat) : Reading (List Statement) :=
  match fuel with
  | 0 => fail
  | fuel + 1 => do
    skipLines
    if ← accept "\x7d" then return []
    if (← peek).isNone then throw ⟨(← get).line + 1, "missing \x7d near end of file".toList⟩
    let first ← statement fuel
    return first :: (← block fuel)

end

def parameters : Nat → Reading (List Octets)
  | 0 => fail
  | fuel + 1 => do
    skipLines
    if ← accept ")" then return []
    let name ← takeName
    skipLines
    if ← accept "," then return name :: (← parameters fuel)
    else
      expect ")"
      return [name]

def script (fuel : Nat) (s : Script) : Reading Script :=
  match fuel with
  | 0 => fail
  | fuel + 1 => do
    skipLines
    discard (accept ";")
    skipLines
    if (← peek).isNone then return s
    let depth := 64 * ((← get).text.length + 4)
    let body : Reading (List Statement) := do
      expect "\x7b"
      block depth
    if (← acceptWord "function") || (← acceptWord "func") then
      let name ← takeName
      expect "("
      let parameters ← parameters depth
      skipLines
      let f : Function := ⟨name, parameters, ← body⟩
      script fuel { s with functions := s.functions ++ [f] }
    else
      let rule : Rule ←
        if ← acceptWord "BEGIN" then do pure ⟨.first, some (← body)⟩
        else if ← acceptWord "END" then do pure ⟨.last, some (← body)⟩
        else if ← sees "\x7b" then do pure ⟨.always, some (← body)⟩
        else do
          let a ← expression depth {}
          let occasion ← if ← accept "," then
              skipLines
              pure (Occasion.range a (← expression depth {}))
            else pure (.when a)
          skipBlanks
          if ← sees "\x7b" then pure ⟨occasion, some (← body)⟩
          else
            if !(← atEnd) then fail
            pure ⟨occasion, none⟩
      script fuel { s with rules := s.rules ++ [rule] }

end Reading

def Script.ofText (text : Octets) : Except Mistake Script :=
  ((Reading.script (text.length + 2) {}).run { text }).map (·.1)

end MutationPipeline.Rehearsal.Shell.Records
