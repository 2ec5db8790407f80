import MutationPipeline.Rehearsal.Shell.Syntax

/-!
Words that mean several words: lists between braces and sequences of numbers or letters.
-/
namespace MutationPipeline.Rehearsal.Shell.Brace

abbrev Item := Char ⊕ Part

def items (parts : Phrase) : List Item :=
  parts.flatMap fun
    | .literal false text => text.map .inl
    | p => [.inr p]

def phrase (is : List Item) : Phrase :=
  is.foldr (fun i parts =>
    match i, parts with
    | .inl c, .literal false text :: rest => .literal false (c :: text) :: rest
    | .inl c, parts => .literal false [c] :: parts
    | .inr p, parts => p :: parts) []

def char? : Item → Option Char
  | .inl c => some c
  | .inr _ => none

def inside (depth : Nat) (begun : List Item) : List Item → Option (List (List Item) × List Item)
  | [] => none
  | i :: rest =>
    match char? i, depth with
    | some '\x7d', 0 => some ([begun], rest)
    | some '\x7d', depth + 1 => inside depth (begun ++ [i]) rest
    | some '\x7b', depth => inside (depth + 1) (begun ++ [i]) rest
    | some ',', 0 => (inside 0 [] rest).map fun (others, rest) => (begun :: others, rest)
    | _, depth => inside depth (begun ++ [i]) rest

def bounds (text : Octets) : List Octets :=
  match text.splitOn '.' with
  | [a, [], b] => [a, b]
  | [a, [], b, [], s] => [a, b, s]
  | _ => []

def padded (width : Nat) (n : Int) : Octets :=
  let digits := (toString n.natAbs).toList
  let sign := if n < 0 then ['-'] else []
  sign ++ List.replicate (width - sign.length - digits.length) '0' ++ digits

def steps (a b : Int) (step : Nat) : List Int :=
  (List.range ((b - a).natAbs / max step 1 + 1)).map fun k =>
    if a ≤ b then a + (k * max step 1 : Nat) else a - (k * max step 1 : Nat)

def sequence? (is : List Item) : Option (List Octets) := do
  let text ← is.mapM char?
  let (a, b, step) ← match bounds text with
    | [a, b] => some (a, b, 1)
    | [a, b, s] => do some (a, b, (← (String.ofList s).toInt?).natAbs)
    | _ => none
  match (String.ofList a).toInt?, (String.ofList b).toInt?, a, b with
  | some x, some y, _, _ =>
    let isPadded (o : Octets) : Bool :=
      let digits := o.dropWhile (· = '-')
      digits.head? = some '0' && digits.length > 1
    let width := if isPadded a || isPadded b then max a.length b.length else 0
    some ((steps x y step).map (padded width))
  | none, none, [c], [d] =>
    if c.isAlpha && d.isAlpha then
      some ((steps c.toNat d.toNat step).map fun n => [Char.ofNat n.toNat])
    else none
  | _, _, _, _ => none

def expand (fuel : Nat) (is : List Item) : List (List Item) :=
  match fuel, is with
  | 0, is => [is]
  | _, [] => [[]]
  | fuel + 1, i :: rest =>
    let plainly := (expand fuel rest).map (i :: ·)
    if char? i ≠ some '\x7b' then plainly
    else match inside 0 [] rest with
      | none => plainly
      | some (choices, behind) =>
        let members? : Option (List (List Item)) := match choices with
          | [one] => (sequence? one).map fun texts => texts.map fun t => t.map .inl
          | many => some (many.flatMap (expand fuel))
        match members? with
        | none => plainly
        | some members => members.flatMap fun m => (expand fuel behind).map (m ++ ·)

def words (w : Phrase) : List Phrase :=
  let is := items w
  if is.any fun i => char? i = some '\x7b' then (expand (is.length + 1) is).map phrase else [w]

end MutationPipeline.Rehearsal.Shell.Brace

/-!
Reading shell scripts. A script is read line by line, and a line only when all in front of it has
run, so a mistake in it shows no earlier.
-/
namespace MutationPipeline.Rehearsal.Shell

structure Source where
  rest : Octets
  line : Nat := 1
  dialect : Dialect := .sh
  skipped : Nat := 0
  warnings : List (Nat × Octets) := []

inductive Wrong where
  | unexpected (rest : Octets) (expected : Option String)
  | unclosed (ending : String)
  | forVariable
  | functionName
  | tooLong
  deriving DecidableEq, Repr

structure Mistake where
  line : Nat
  wrong : Wrong
  deriving DecidableEq, Repr

abbrev Reading := StateT Source (Except Mistake)

namespace Reading

def isMeta (c : Char) : Bool := c ∈ [' ', '\t', '\n', ';', '&', '|', '<', '>', '(', ')']

def isNameStart (c : Char) : Bool := c.isAlpha || c = '_'

def isNameChar (c : Char) : Bool := c.isAlphanum || c = '_'

def isSpecial (c : Char) : Bool := c.isDigit || c ∈ ['?', '#', '$', '*', '@', '!', '-']

def isName (o : Octets) : Bool :=
  match o with
  | [] => false
  | c :: rest => isNameStart c && rest.all isNameChar

def closers : List Octets :=
  ["then", "else", "elif", "fi", "do", "done", "esac", "\x7d"].map String.toList

def openers : List String :=
  ["\x7b", "if", "while", "until", "for", "case", "[[", "select"]

def isPlain (word : Octets) : Bool :=
  word ≠ [] && word.all (fun c => c ∉ ['\'', '"', '\\', '$', '\x60', '=']) || isParameter word
where
  isParameter (word : Octets) : Bool :=
    match word with
    | '$' :: name => isName name
    | _ => false

def peek : Reading (Option Char) := return (← get).rest.head?

def advance (n : Nat) : Reading Unit := modify fun s =>
  let lines := (s.rest.take n).count '\n'
  if lines = 0 then { s with rest := s.rest.drop n }
  else { s with rest := s.rest.drop n, line := s.line + lines + s.skipped, skipped := 0 }

def fail (wrong : Wrong) : Reading α := do throw ⟨(← get).line, wrong⟩

def failUnclosed (line : Nat) (ending : String) : Reading α := do
  let s ← get
  throw ⟨if s.dialect = .bash then line else s.line, .unclosed ending⟩

def isBash : Reading Bool := return (← get).dialect = .bash

def sees (text : String) : Reading Bool := return text.toList.isPrefixOf (← get).rest

def accept (text : String) : Reading Bool := do
  if ← sees text then
    advance text.toList.length
    return true
  else return false

def acceptRich (text : String) : Reading Bool := do
  if ← isBash then accept text else return false

def acceptParting (c : Command) : Reading (Option Command) := do
  if ← accept ";" then return some c
  else if ← accept "&" then return some (.background c)
  else return none

def atCaseEnd : Reading Bool := do
  return (← sees ";;") || ((← isBash) && (← sees ";&"))

def takeWhile (p : Char → Bool) : Reading Octets := do
  let taken := (← get).rest.takeWhile p
  advance taken.length
  return taken

def gap (lines comment : Bool) : Octets → Nat
  | [] => 0
  | c :: rest =>
    if comment then if c = '\n' then gapEnd lines c rest else gap lines true rest + 1
    else if c = ' ' || c = '\t' then gap lines false rest + 1
    else if c = '#' then gap lines true rest + 1
    else if c = '\\' then match rest with
      | '\n' :: rest => gap lines false rest + 2
      | _ => 0
    else gapEnd lines c rest
where
  gapEnd (lines : Bool) (c : Char) (rest : Octets) : Nat :=
    if lines && c = '\n' then gap lines false rest + 1 else 0

def skipBlanks : Reading Unit := do advance (gap false false (← get).rest)

def skipLines : Reading Unit := do advance (gap true false (← get).rest)

def peekWord : Reading Octets := return (← get).rest.takeWhile fun c => !isMeta c

def unexpected (expected : Option String) : Reading α := do
  skipBlanks
  let s ← get
  let line := if s.dialect = .sh && s.rest.head? = some '\n' then s.line + 1 else s.line
  throw ⟨line, .unexpected s.rest expected⟩

def written (act : Reading α) : Reading (α × Octets) := do
  let before := (← get).rest
  let x ← act
  let after := (← get).rest
  return (x, before.take (before.length - after.length))

def expect (text : String) : Reading Unit := do
  if ← accept text then return () else unexpected (some text)

def merge : List Part → List Part
  | [] => []
  | .literal q s :: rest =>
    match merge rest with
    | .literal q' s' :: more => if q = q' then .literal q (s ++ s') :: more
        else .literal q s :: .literal q' s' :: more
    | more => .literal q s :: more
  | p :: rest => p :: merge rest

inductive Edge where
  | word
  | quote (line : Nat)
  | brace (quoted : Bool) (line : Nat)
  | until (stops : List Char)
  | document
  | parentheses (opened line : Nat)
  | operand (opened : Nat)
  deriving DecidableEq, Repr

def backquoted : Octets → Option (Octets × Nat)
  | [] => none
  | '\x60' :: _ => some ([], 1)
  | '\\' :: c :: rest =>
    (backquoted rest).map fun (text, n) =>
      ((if c ∈ ['\x60', '\\', '$'] then [c] else ['\\', c]) ++ text, n + 2)
  | c :: rest => (backquoted rest).map fun (text, n) => (c :: text, n + 1)

def modifiers : List (String × Modifier) :=
  [(":-", .otherwise true), ("-", .otherwise false), (":=", .assigned true), ("=", .assigned false),
    (":?", .required true), ("?", .required false), (":+", .instead true), ("+", .instead false),
    ("##", .withoutStart true), ("#", .withoutStart false), ("%%", .withoutEnd true),
    ("%", .withoutEnd false)]

def richModifiers : List (String × Modifier × Char) :=
  [("//", .replaced .everywhere, '/'), ("/#", .replaced .start, '/'), ("/%", .replaced .finish, '/'),
    ("/", .replaced .first, '/'), (":", .sliced, ':'), ("^^", .cased true true, '^'),
    ("^", .cased true false, '^'), (",,", .cased false true, ','), (",", .cased false false, ',')]

def acceptFirst : List (String × α) → Reading (Option α)
  | [] => return none
  | (text, x) :: rest => do if ← accept text then return some x else acceptFirst rest

def readName : Reading Octets := do
  match ← peek with
  | some c =>
    if isNameStart c then takeWhile isNameChar
    else if c.isDigit then takeWhile Char.isDigit
    else if isSpecial c then
      advance 1
      return [c]
    else return []
  | none => return []

def redirectOperators : List (String × RedirectKind × Nat) :=
  [("<<-", .document, 0), ("<<", .document, 0), (">>", .append, 1), (">&", .copy, 1),
    ("<&", .copy, 0), ("<>", .read, 0), (">|", .write, 1), (">", .write, 1), ("<", .read, 0)]

structure Document where
  body : Octets := []
  rest : Octets := []
  lines : Nat := 0
  ended : Bool := false

def document (fuel : Nat) (tabs : Bool) (ending text : Octets) : Document :=
  match fuel, text with
  | fuel + 1, _ :: _ =>
    let line := text.takeWhile (· ≠ '\n')
    let rest := text.drop (line.length + 1)
    let kept := if tabs then line else line.dropWhile (· = '\t')
    if kept = ending then { rest, lines := 1, ended := true }
    else
      let d := document fuel tabs ending rest
      let lineEnd := if line.length < text.length then ['\n'] else []
      { d with body := kept ++ lineEnd ++ d.body, lines := d.lines + 1 }
  | _, _ => {}

def takeDocument (tabs : Bool) (ending : Octets) : Reading Octets := do
  let s ← get
  let (line, below) := s.rest.span (· ≠ '\n')
  let d := document (below.length + 1) tabs ending (below.drop 1)
  let here := s.line + s.skipped
  let warning := "warning: here-document at line ".toList ++ Octets.ofNat here ++
    " delimited by end-of-file (wanted \x60".toList ++ ending ++ "')".toList
  let isBad := s.dialect = .bash && !d.ended
  set { s with
    rest := if below.isEmpty then line else line ++ '\n' :: d.rest
    skipped := s.skipped + d.lines
    warnings := if isBad then s.warnings ++ [(here + d.lines, warning)] else s.warnings }
  let open_ := isBad && d.body.getLast?.any (· ≠ '\n')
  return if open_ then d.body ++ ['\n'] else d.body

def plainWord (parts : List Part) : Octets × Bool :=
  (parts.flatMap fun
      | .literal _ text => text
      | _ => [],
    parts.any fun
      | .literal quoted _ => quoted
      | _ => false)

def errorsToOutput : Redirect := .mk 2 .copy [.literal true ['1']] ['1']

def atRedirect : Reading Bool := do
  if (← isBash) && ((← sees "&>") || (← sees "<(")) then return (← sees "&>")
  match (← get).rest.dropWhile Char.isDigit with
  | '<' :: _ | '>' :: _ => return true
  | _ => return false

structure Target where
  name : Octets
  indexed : Bool

def atEquals (rich : Bool) (text : Octets) : Bool :=
  match text with
  | '=' :: _ => true
  | '+' :: '=' :: _ => rich
  | _ => false

def target? : Reading (Option Target) := do
  let rest := (← get).rest
  let rich ← isBash
  let name := rest.takeWhile isNameChar
  let behind := rest.drop name.length
  if !isName name then return none
  if atEquals rich behind then return some ⟨name, false⟩
  match rich, behind with
  | true, '[' :: inside =>
    let index := inside.takeWhile fun c => c ∉ [']', ' ', '\n']
    if index ≠ [] ∧ atEquals true (inside.drop (index.length + 1)) then return some ⟨name, true⟩
    else return none
  | _, _ => return none

def declarers : List String := ["declare", "typeset", "local", "export", "readonly"]

def escaped (fuel : Nat) (text : Octets) : Option (Octets × Nat) :=
  match fuel, text with
  | _ + 1, '\'' :: _ => some ([], 1)
  | fuel + 1, '\\' :: c :: rest =>
    let (meant, n) := meaning c rest
    (escaped fuel (rest.drop n)).map fun (more, k) => (meant ++ more, n + 2 + k)
  | fuel + 1, c :: rest => (escaped fuel rest).map fun (more, k) => (c :: more, k + 1)
  | _, _ => none
where
  number (base : Nat) (digits : Octets) : Nat :=
    digits.foldl (fun n c => base * n + (if c.isDigit then c.toNat - 48 else c.toLower.toNat - 87)) 0
  isHex (c : Char) : Bool := c.isDigit || ('a' ≤ c.toLower && c.toLower ≤ 'f')
  meaning (c : Char) (rest : Octets) : Octets × Nat :=
    let simple := [('n', '\n'), ('t', '\t'), ('r', '\r'), ('a', '\x07'), ('b', '\x08'),
      ('e', '\x1b'), ('E', '\x1b'), ('f', '\x0c'), ('v', '\x0b'), ('\\', '\\'), ('\'', '\''),
      ('"', '"'), ('?', '?')]
    match simple.lookup c with
    | some d => ([d], 0)
    | none =>
      if '0' ≤ c && c ≤ '7' then
        let digits := c :: (rest.take 2).takeWhile fun d => '0' ≤ d && d ≤ '7'
        ([Char.ofNat (number 8 digits % 256)], digits.length - 1)
      else
        let most := [('x', 2), ('u', 4), ('U', 8)].lookup c
        let digits := (rest.take (most.getD 0)).takeWhile isHex
        if digits = [] then (['\\', c], 0)
        else if c = 'x' then ([Char.ofNat (number 16 digits)], digits.length)
        else (Octets.ofText (String.singleton (Char.ofNat (number 16 digits))), digits.length)

def partsOfLoop (parts : List Part) : List Phrase :=
  parts.foldl (fun phrases p =>
    match p with
    | .literal q text =>
      match text.splitOn ';' with
      | first :: others => phrases.dropLast ++
          [phrases.getLastD [] ++ [.literal q first]] ++ others.map fun o => [.literal q o]
      | [] => phrases
    | p => phrases.dropLast ++ [phrases.getLastD [] ++ [p]]) [[]]

def comparisons : List String :=
  ["==", "=~", "=", "!=", "<", ">", "-eq", "-ne", "-lt", "-le", "-gt", "-ge", "-nt", "-ot", "-ef"]

mutual

def readPart (fuel : Nat) (quoted : Bool) : Reading (List Part) :=
  match fuel with
  | 0 => fail .tooLong
  | fuel + 1 => do
    let c := ((← get).rest.head?).getD ' '
    let line := (← get).line
    advance 1
    if c = '\\' then
      match ← peek with
      | none => return [.literal quoted ['\\']]
      | some d =>
        if d = '\n' then advance 1; return []
        else if !quoted || d ∈ ['$', '\x60', '"', '\\'] then advance 1; return [.literal true [d]]
        else return [.literal true ['\\']]
    else if c = '\'' && !quoted then
      let text ← takeWhile (· ≠ '\'')
      if !(← accept "'") then failUnclosed line "'"
      return [.literal true text]
    else if c = '"' && !quoted then
      return .literal true [] :: (← readParts fuel (.quote line))
    else if c = '$' then readDollar fuel quoted
    else if c = '\x60' then
      match backquoted (← get).rest with
      | none => failUnclosed line "\x60"
      | some (text, n) =>
        let s ← get
        set { s with rest := text }
        let body ← readList fuel
        if !(← get).rest.isEmpty then unexpected none
        set s
        advance n
        return [.substitution quoted body]
    else return [.literal quoted [c]]

def readDollar (fuel : Nat) (quoted : Bool) : Reading (List Part) :=
  match fuel with
  | 0 => fail .tooLong
  | fuel + 1 => do
    let line := (← get).line
    if ← accept "((" then return [.arithmetic quoted (← readParts fuel (.parentheses 0 line))]
    else if ← accept "(" then
      let body ← tryCatch (readSubstitution fuel) fun m => do
        match m.wrong, (← get).dialect with
        | .unexpected [] _, .bash => throw { m with wrong := .unclosed ")" }
        | _, _ => throw m
      return [.substitution quoted body]
    else if ← accept "\x7b" then readBraced fuel quoted
    else if ← if quoted then pure false else acceptRich "'" then
      let s := (← get).rest
      match escaped (s.length + 1) s with
      | some (text, n) =>
        advance n
        return [.literal true text]
      | none => failUnclosed line "'"
    else if (← isBash) && !quoted && (← sees "\"") then return []
    else
      match ← peek with
      | some c =>
        if isNameStart c then return [.parameter quoted (← takeWhile isNameChar) none none]
        else if isSpecial c then
          advance 1
          return [.parameter quoted [c] none none]
        else return [.literal quoted ['$']]
      | none => return [.literal quoted ['$']]

def readBraced (fuel : Nat) (quoted : Bool) : Reading (List Part) :=
  match fuel with
  | 0 => fail .tooLong
  | fuel + 1 => do
    let rich ← isBash
    let line := (← get).line
    let rest := (← get).rest
    if rest.head? = some '#' && rest[1]? ≠ some '\x7d' then
      advance 1
      let name ← readName
      let place ← readPlace fuel
      return [.parameter quoted name place (some (.length, [← readParts fuel (.brace quoted line)]))]
    else if rich && rest.head? = some '!' && rest[1]?.any (fun c => isNameStart c || c.isDigit) then
      advance 1
      let name ← readName
      match ← readPlace fuel with
      | some place =>
        return [.parameter quoted name (some place) (some (.named, [← readParts fuel (.brace quoted line)]))]
      | none => return [.indirect quoted name (← readChange fuel quoted name)]
    else
      let name ← readName
      let place ← readPlace fuel
      return [.parameter quoted name place (← readChange fuel quoted name)]

def readPlace (fuel : Nat) : Reading (Option Place) :=
  match fuel with
  | 0 => fail .tooLong
  | fuel + 1 => do
    if !((← isBash) && (← sees "[")) then return none
    else if ← accept "[@]" then return some (.all false)
    else if ← accept "[*]" then return some (.all true)
    else
      advance 1
      let index ← readParts fuel (.until [']'])
      expect "]"
      return some (.at index)

def readChange (fuel : Nat) (quoted : Bool) (name : Octets) :
    Reading (Option (Modifier × List Phrase)) :=
  match fuel with
  | 0 => fail .tooLong
  | fuel + 1 => do
    let line := (← get).line
    match ← acceptFirst modifiers with
    | some m => return some (m, [← readParts fuel (.brace quoted line)])
    | none =>
      match ← if ← isBash then acceptFirst richModifiers else pure none with
      | some (m, between) =>
        let first ← readParts fuel (.until [between, '\x7d'])
        let others ← if ← accept (String.singleton between) then
            pure [← readParts fuel (.until ['\x7d'])]
          else pure []
        if !(← accept "\x7d") then failUnclosed line "\x7d"
        return some (m, first :: others)
      | none =>
        let wrong := name.isEmpty || !(← sees "\x7d")
        let rest ← readParts fuel (.brace quoted line)
        return if wrong then some (.unknown, [rest]) else none

def readParts (fuel : Nat) (edge : Edge) : Reading (List Part) :=
  match fuel with
  | 0 => fail .tooLong
  | fuel + 1 => do
    match ← peek, edge with
    | none, .word | none, .document | none, .until _ | none, .operand _ => return []
    | none, .quote line => failUnclosed line "\""
    | none, .brace quoted line =>
      let plain := quoted && !(← isBash)
      failUnclosed line (if plain then "\"" else "\x7d")
    | none, .parentheses _ line => failUnclosed line "))"
    | some c, .document =>
      if c = '\\' && (← sees "\\\"") then
        advance 2
        return .literal true ['\\', '"'] :: (← readParts fuel .document)
      else more fuel edge true
    | some c, .word =>
      if isMeta c then return []
      else more fuel edge false
    | some c, .quote _ => if c = '"' then advance 1; return [] else more fuel edge true
    | some c, .brace quoted _ =>
      if c = '\x7d' then advance 1; return []
      else if quoted && c = '\'' then
        advance 1
        return merge (.literal true ['\''] :: (← readParts fuel edge))
      else more fuel edge false
    | some c, .until stops => if c ∈ stops then return [] else more fuel edge false
    | some c, .operand n =>
      if c ∈ [' ', '\t', '\n', ';', '&'] && n = 0 then return []
      else if c = ')' && n = 0 then return []
      else if (← sees "||") && n = 0 then return []
      else if c = '(' || c = ')' then
        advance 1
        let n := if c = '(' then n + 1 else n - 1
        return merge (.literal false [c] :: (← readParts fuel (.operand n)))
      else more fuel edge false
    | some c, .parentheses n line =>
      if c = '(' then
        advance 1
        return .literal true ['('] :: (← readParts fuel (.parentheses (n + 1) line))
      else if c = ')' then
        if n = 0 then
          if ← accept "))" then return [] else failUnclosed line "))"
        else
          advance 1
          return .literal true [')'] :: (← readParts fuel (.parentheses (n - 1) line))
      else more fuel edge true

def more (fuel : Nat) (edge : Edge) (quoted : Bool) : Reading (List Part) :=
  match fuel with
  | 0 => fail .tooLong
  | fuel + 1 => do
    let first ← readPart fuel quoted
    return merge (first ++ (← readParts fuel edge))

def readSubstitution (fuel : Nat) : Reading (List Command) :=
  match fuel with
  | 0 => fail .tooLong
  | fuel + 1 => do
    let body ← readList fuel
    expect ")"
    return body

def readWord (fuel : Nat) : Reading (List Phrase) :=
  match fuel with
  | 0 => fail .tooLong
  | fuel + 1 => do
    if !(← isBash) then return [← readParts fuel .word]
    else if ← accept "<(" then
      return [[.source (← readSubstitution fuel)]]
    else return Brace.words (← readParts fuel .word)

def readTarget (fuel : Nat) : Reading (Phrase × Octets) :=
  match fuel with
  | 0 => fail .tooLong
  | fuel + 1 => do
    skipBlanks
    if ← acceptRich "<(" then return ([.source (← readSubstitution fuel)], [])
    let s ← get
    let (word, shown) ← written (readParts fuel .word)
    if !word.isEmpty then return (word, shown)
    if s.rest.isEmpty && s.dialect = .bash then fail (.unexpected ['\n'] none)
    unexpected none

def readRedirect (fuel : Nat) : Reading (List Redirect) :=
  match fuel with
  | 0 => fail .tooLong
  | fuel + 1 => do
    let rich ← isBash
    if ← acceptRich "&>" then
      let kind := if ← accept ">" then RedirectKind.append else .write
      let (word, shown) ← readTarget fuel
      return [.mk 1 kind word shown, errorsToOutput]
    let digits ← takeWhile Char.isDigit
    let descriptor (otherwise : Nat) : Nat := (String.ofList digits).toNat?.getD otherwise
    if ← acceptRich "<<<" then
      let (word, shown) ← readTarget fuel
      return [.mk (descriptor 0) .document (word ++ [.literal true ['\n']]) shown]
    let tabs := !(← sees "<<-")
    match ← acceptFirst redirectOperators with
    | some (kind, otherwise) =>
      let (word, shown) ← readTarget fuel
      if rich && kind = .copy && digits = [] && otherwise = 1 && !isCopy word then
        return [.mk 1 .write word shown, errorsToOutput]
      else if kind ≠ .document then return [.mk (descriptor otherwise) kind word shown]
      else
        let (ending, quoted) := plainWord word
        let body ← takeDocument tabs ending
        if quoted then return [.mk (descriptor otherwise) kind [.literal true body] shown]
        else
          let s ← get
          set { s with rest := body, line := s.line + 1, skipped := 0 }
          let parts ← readParts fuel .document
          set s
          return [.mk (descriptor otherwise) kind parts shown]
    | none => unexpected none
where
  isCopy (word : Phrase) : Bool :=
    let text := (plainWord word).1
    text = ['-'] || text.all Char.isDigit

def readRedirects (fuel : Nat) : Reading (List Redirect) :=
  match fuel with
  | 0 => fail .tooLong
  | fuel + 1 => do
    skipBlanks
    if ← atRedirect then
      let first ← readRedirect fuel
      return first ++ (← readRedirects fuel)
    else return []

def readWords (fuel : Nat) : Reading (List Phrase × List Octets) :=
  match fuel with
  | 0 => fail .tooLong
  | fuel + 1 => do
    skipBlanks
    match ← peek with
    | none => return ([], [])
    | some c =>
      if isMeta c && !((← isBash) && (← sees "<(")) then return ([], [])
      else
        let (first, shown) ← written (readWord fuel)
        let (others, all) ← readWords fuel
        return (first ++ others, shown :: all)

def readElements (fuel : Nat) : Reading (List (Option Phrase × Phrase)) :=
  match fuel with
  | 0 => fail .tooLong
  | fuel + 1 => do
    skipLines
    if ← accept ")" then return []
    else if ← sees "[" then
      advance 1
      let index ← readParts fuel (.until [']'])
      expect "]"
      expect "="
      let value ← readParts fuel .word
      return (some index, value) :: (← readElements fuel)
    else
      let words ← readWord fuel
      if words.all List.isEmpty then unexpected (some ")")
      return words.map (fun w => (none, w)) ++ (← readElements fuel)

def readAssignment (fuel : Nat) (t : Target) : Reading Assignment :=
  match fuel with
  | 0 => fail .tooLong
  | fuel + 1 => do
    advance t.name.length
    let index ← if t.indexed then do
        advance 1
        let index ← readParts fuel (.until [']'])
        expect "]"
        pure (some index)
      else pure none
    let append ← accept "+"
    expect "="
    if ← acceptRich "(" then return .elements t.name append (← readElements fuel)
    else return .value t.name index append (← readParts fuel .word)

/-- The parts of a simple command, of which some were read. One of the shells counts it as on the
line on which its second part ends. -/
def readSimple (fuel line count : Nat) (assignments : List Assignment) (words : List Phrase)
    (redirects : List Redirect) : Reading Command :=
  match fuel with
  | 0 => fail .tooLong
  | fuel + 1 => do
    skipBlanks
    let s ← get
    let counts := count = 1 && s.dialect = .bash
    if ← atRedirect then
      let line := if counts then s.line else line
      let r ← readRedirect fuel
      readSimple fuel line (count + 1) assignments words (redirects ++ r)
    else
      match ← peek with
      | some c =>
        if isMeta c && !((← isBash) && (← sees "<(")) then finish (if counts then s.line else line)
        else
          match words.isEmpty || declares words, ← target? with
          | true, some t =>
            let a ← readAssignment fuel t
            let after : Source ← get
            let line := if counts && !words.isEmpty then after.line else line
            readSimple fuel line (count + 1) (assignments ++ [a]) words redirects
          | _, _ =>
            let word ← readWord fuel
            let after : Source ← get
            let line := if counts then after.line else line
            readSimple fuel line (count + 1) assignments (words ++ word) redirects
      | none => finish (if counts then s.line else line)
where
  declares (words : List Phrase) : Bool :=
    match words with
    | [.literal false name] :: _ => String.ofList name ∈ declarers
    | _ => false
  finish (line : Nat) : Reading Command :=
    if assignments.isEmpty && words.isEmpty && redirects.isEmpty then unexpected none
    else if declares words then return .declare line words assignments redirects
    else return .simple line assignments words redirects

def readBranches (fuel : Nat) : Reading Command :=
  match fuel with
  | 0 => fail .tooLong
  | fuel + 1 => do
    let test ← readBody fuel
    expect "then"
    let body ← readBody fuel
    if ← accept "elif" then return .choice test body [← readBranches fuel]
    else if ← accept "else" then
      let otherwise ← readBody fuel
      expect "fi"
      return .choice test body otherwise
    else
      expect "fi"
      return .choice test body []

def readPatterns (fuel : Nat) : Reading (List Phrase) :=
  match fuel with
  | 0 => fail .tooLong
  | fuel + 1 => do
    skipBlanks
    let first ← readParts fuel .word
    skipBlanks
    if first.isEmpty then unexpected (some ")")
    if ← accept "|" then return first :: (← readPatterns fuel)
    else
      expect ")"
      return [first]

def readCases (fuel : Nat) : Reading (List (List Phrase × List Command × CaseEnd)) :=
  match fuel with
  | 0 => fail .tooLong
  | fuel + 1 => do
    skipLines
    if (← peekWord) = "esac".toList then
      advance 4
      return []
    else
      discard (accept "(")
      let patterns ← readPatterns fuel
      let body ← readList fuel
      let ending ← if ← acceptRich ";;&" then pure CaseEnd.further
        else if ← accept ";;" then pure .stop
        else if ← acceptRich ";&" then pure .through
        else if (← peekWord) = "esac".toList then pure .stop
        else unexpected (some ";;")
      return (patterns, body, ending) :: (← readCases fuel)

def readLoop (fuel : Nat) : Reading (List Command) :=
  match fuel with
  | 0 => fail .tooLong
  | fuel + 1 => do
    skipLines
    if (← isBash) && (← peekWord) = ['\x7b'] then
      advance 1
      let body ← readBody fuel
      expect "\x7d"
      return body
    else
      expect "do"
      let body ← readBody fuel
      expect "done"
      return body

def readEither (fuel : Nat) : Reading Condition :=
  match fuel with
  | 0 => fail .tooLong
  | fuel + 1 => do
    let first ← readBoth fuel
    skipLines
    if ← accept "||" then return .either first (← readEither fuel) else return first

def readBoth (fuel : Nat) : Reading Condition :=
  match fuel with
  | 0 => fail .tooLong
  | fuel + 1 => do
    let first ← readCondition fuel
    skipLines
    if ← accept "&&" then return .both first (← readBoth fuel) else return first

def readCondition (fuel : Nat) : Reading Condition :=
  match fuel with
  | 0 => fail .tooLong
  | fuel + 1 => do
    skipLines
    let word := (← get).rest.takeWhile fun c => !isMeta c
    if word = ['!'] then
      advance 1
      return .negated (← readCondition fuel)
    else if ← accept "(" then
      let c ← readEither fuel
      skipLines
      expect ")"
      return c
    else
      let behind := ((← get).rest.drop word.length).dropWhile fun c => c = ' '
      let alone := "]]".toList.isPrefixOf behind || (match behind with
        | c :: _ => isMeta c
        | [] => true) || comparisons.any fun o => (o ++ " ").toList.isPrefixOf behind
      match word, alone with
      | ['-', _], false =>
        advance word.length
        skipBlanks
        return .unary (String.ofList word) (← readParts fuel (.operand 0))
      | _, _ =>
        let a ← readParts fuel (.operand 0)
        if a.isEmpty then unexpected none
        skipBlanks
        match ← if ← sees "]]" then pure none
          else acceptFirst (comparisons.map fun o => (o, o)) with
        | some o =>
          skipBlanks
          return .binary o a (← readParts fuel (.operand 0))
        | none => return .word a

def readFunction (fuel : Nat) : Reading Command :=
  match fuel with
  | 0 => fail .tooLong
  | fuel + 1 => do
    skipLines
    let word ← peekWord
    let plain := String.ofList word ∉ openers && !(← sees "(")
    if (← isBash) && plain then unexpected none else readCommand fuel

def readPlain (fuel : Nat) : Reading (Command × Bool) :=
  match fuel with
  | 0 => fail .tooLong
  | fuel + 1 => do
    let line := (← get).line
    let word := String.ofList (← peekWord)
    let after := ((← get).rest.drop word.length).dropWhile fun c => c = ' ' || c = '\t'
    let rich ← isBash
    if ← acceptRich "((" then
      return (.arithmetic line (← readParts fuel (.parentheses 0 line)), true)
    else if ← accept "(" then
      let body ← readBody fuel
      expect ")"
      return (.apart body, true)
    else if rich && word = "[[" then
      advance 2
      let c ← readEither fuel
      skipLines
      expect "]]"
      return (.condition line c, true)
    else if word = "\x7b" then
      advance 1
      let body ← readBody fuel
      expect "\x7d"
      return (.group body, true)
    else if word = "if" then
      advance 2
      return (← readBranches fuel, true)
    else if word = "while" ∨ word = "until" then
      advance 5
      let test ← readBody fuel
      expect "do"
      let body ← readBody fuel
      expect "done"
      return (.loop (word = "while") test body, true)
    else if word = "for" then
      advance 3
      skipBlanks
      if ← acceptRich "((" then
        let header := partsOfLoop (← readParts fuel (.parentheses 0 line))
        skipBlanks
        discard (accept ";")
        let body ← readLoop fuel
        return (.counting line (header.getD 0 []) (header.getD 1 []) (header.getD 2 []) body, true)
      let name ← if rich then peekWord else pure ((← get).rest.takeWhile isNameChar)
      if rich && name = [] then unexpected none
      advance name.length
      if !rich && (!isName name || (← peekWord) ≠ []) then fail .forVariable
      skipLines
      let (words, shown) ← if ← accept "in" then do
          let (words, shown) ← readWords fuel
          pure (some words, shown)
        else pure (none, ["\"$@\"".toList])
      skipBlanks
      if !(← accept ";") && words.isSome && (← peek) ≠ some '\n' then unexpected none
      let shown := Octets.join " " shown
      return (.each line name words shown (← readLoop fuel), true)
    else if word = "case" then
      advance 4
      skipBlanks
      let (subject, shown) ← written (readParts fuel .word)
      if subject.isEmpty then unexpected (some "word")
      skipLines
      expect "in"
      return (.select subject shown (← readCases fuel), true)
    else if word = "in" || word ∈ closers.map String.ofList then unexpected none
    else if rich && word = "function" then
      advance 8
      skipBlanks
      let name ← peekWord
      advance name.length
      skipBlanks
      if ← accept "(" then
        skipBlanks
        expect ")"
      return (.define name (← readFunction fuel), false)
    else if isPlain word.toList && after.head? = some '(' then
      advance word.length
      skipBlanks
      advance 1
      skipBlanks
      expect ")"
      if !rich && !isName word.toList then fail .functionName
      return (.define word.toList (← readFunction fuel), false)
    else return (← readSimple fuel line 0 [] [] [], false)

def readCommand (fuel : Nat) : Reading Command :=
  match fuel with
  | 0 => fail .tooLong
  | fuel + 1 => do
    let line := (← get).line
    let (c, redirectable) ← readPlain fuel
    if redirectable then
      match ← readRedirects fuel with
      | [] => return c
      | redirects => return .redirected line c redirects
    else return c

def readPipes (fuel : Nat) : Reading Command :=
  match fuel with
  | 0 => fail .tooLong
  | fuel + 1 => do
    skipBlanks
    if (← peekWord) = ['!'] then
      advance 1
      skipBlanks
      if (← peekWord) = ['!'] && !(← isBash) then unexpected none
      return .negated (← readPipes fuel)
    else
      let line := (← get).line
      let first ← readCommand fuel
      skipBlanks
      if (← sees "|") && !(← sees "||") then
        advance 1
        let both ← if ← isBash then accept "&" else pure false
        skipLines
        let first := if both then .redirected line first [errorsToOutput] else first
        return .pipe first (← readPipes fuel)
      else return first

def readJoined (fuel : Nat) (first : Command) : Reading Command :=
  match fuel with
  | 0 => fail .tooLong
  | fuel + 1 => do
    skipBlanks
    if ← accept "&&" then
      skipLines
      readJoined fuel (.both first (← readPipes fuel))
    else if ← accept "||" then
      skipLines
      readJoined fuel (.either first (← readPipes fuel))
    else return first

def readList (fuel : Nat) : Reading (List Command) :=
  match fuel with
  | 0 => fail .tooLong
  | fuel + 1 => do
    skipLines
    match ← peek with
    | none => return []
    | some c =>
      if c = ')' || (← atCaseEnd) || (← peekWord) ∈ closers then return []
      else
        let first ← readJoined fuel (← readPipes fuel)
        skipBlanks
        if ← atCaseEnd then return [first]
        else match ← acceptParting first with
          | some first => return first :: (← readList fuel)
          | none =>
            let here := (← get).rest
            if here.isEmpty || here.head? ∈ [some '\n', some ')'] || (← peekWord) ∈ closers then
              return first :: (← readList fuel)
            else unexpected none

def readBody (fuel : Nat) : Reading (List Command) :=
  match fuel with
  | 0 => fail .tooLong
  | fuel + 1 => do
    let body ← readList fuel
    if body.isEmpty && (← peek).isSome then unexpected none else return body

end

def readLine (fuel : Nat) : Reading (List Command) :=
  match fuel with
  | 0 => fail .tooLong
  | fuel + 1 => do
    let first ← readJoined fuel (← readPipes fuel)
    skipBlanks
    let parted ← if ← atCaseEnd then pure none else acceptParting first
    skipBlanks
    match ← peek with
    | none => return [parted.getD first]
    | some c =>
      if c = '\n' then
        advance 1
        return [parted.getD first]
      else match parted with
        | some first => return first :: (← readLine fuel)
        | none => unexpected none

end Reading

def Source.nextLine (s : Source) : Except Mistake (Option (List Command × Source)) :=
  let reading : Reading (Option (List Command)) := do
    Reading.skipLines
    if (← get).rest.isEmpty then return none
    else some <$> Reading.readLine (16 * s.rest.length + 64)
  (reading.run s).map fun (line, s) => line.map fun commands => (commands, s)

/-! ### Telling mistakes -/

namespace Mistake

def quote (text : String) : String := "\"" ++ text ++ "\""

def signs : List String := [";;", "&&", "||", ";", "&", "|", "(", ")"]

def described (text : Octets) : String :=
  match text, signs.find? fun o => o.toList.isPrefixOf text with
  | [], _ => "end of file"
  | _, some o => quote o
  | '\n' :: _, none => "newline"
  | '<' :: _, none | '>' :: _, none => "redirection"
  | text, none =>
    let word := text.takeWhile fun c => !Reading.isMeta c
    if word ∈ Reading.closers ++ [['i', 'n'], ['!']] then quote (String.ofList word) else "word"

def begun (text : Octets) : Octets :=
  match text, (signs ++ ["<<", ">>", "<", ">"]).find? fun o => o.toList.isPrefixOf text with
  | _, some o => o.toList
  | '\n' :: _, none => "newline".toList
  | text, none => text.takeWhile fun c => !Reading.isMeta c

def unclosed (ending : String) : String :=
  if ending = "'" ∨ ending = "\"" then "Unterminated quoted string"
  else if ending = "\x60" then "EOF in backquote substitution"
  else "Missing '" ++ ending ++ "'"

def message (m : Mistake) : Octets :=
  ("Syntax error: " ++ match m.wrong with
    | .unexpected rest expected =>
      described rest ++ " unexpected" ++ match expected with
        | some e => " (expecting " ++ (if e = "word" then e else quote e) ++ ")"
        | none => ""
    | .unclosed ending => unclosed ending
    | .forVariable => "Bad for loop variable"
    | .functionName => "Bad function name"
    | .tooLong => "too long").toList

/-- What the other shell says of a script whose first line has a number: one line or two, with the
number of the line that each concerns. -/
def lines (first : Nat) (script : Octets) (m : Mistake) : List (Nat × Octets) :=
  let whole := script.splitOn '\n'
  let count := first - 1 + whole.length + (if script.getLast? = some '\n' then 0 else 1)
  match m.wrong with
  | .unexpected [] _ | .forVariable | .functionName | .tooLong => [(count, "syntax error: unexpected end of file".toList)]
  | .unexpected rest _ =>
    [(m.line, "syntax error near unexpected token \x60".toList ++ begun rest ++ ['\'']),
      (m.line, '\x60' :: whole.getD (m.line - first) [] ++ ['\''])]
  | .unclosed ending =>
    [(if ending = ")" then count else m.line, ("unexpected EOF while looking for matching \x60" ++
      (if ending = "))" then ")" else ending) ++ "'").toList)]

end Mistake

end MutationPipeline.Rehearsal.Shell
