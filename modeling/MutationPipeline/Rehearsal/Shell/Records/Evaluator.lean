import MutationPipeline.Rehearsal.Shell.Records.Sheet

/-!
Running scripts for records. Variables are there as soon as they are used.
-/
namespace MutationPipeline.Rehearsal.Shell.Records

open Execution
open Run

/-! ### Functions that are always there -/

def formatted (format : Octets) (arguments : List Value) : Octets :=
  go (Format.read .program format) arguments
where
  go : List Format.Directive → List Value → Octets
    | [], _ | .stop :: _, _ | .wrong .. :: _, _ => []
    | .text o :: rest, arguments => o ++ go rest arguments
    | .item flags width precision kind :: rest, arguments =>
      let sized (s : Format.Size) (arguments : List Value) : Int × List Value :=
        match s with
        | .given n => (n, arguments)
        | .taken => ((arguments.headD .unset).toNumber.toInt64.toInt, arguments.tail)
      let (width, arguments) := sized width arguments
      let flags := if width < 0 then '-' :: flags else flags
      let (precision, arguments) := match precision with
        | none => (none, arguments)
        | some s => let (n, arguments) := sized s arguments; (some n.toNat, arguments)
      let v := arguments.headD .unset
      let width := width.natAbs
      let shown := match kind with
        | 's' => (Format.showItem .program flags width precision 's' v.toText).1
        | 'c' =>
          let o := match v with
            | .number x => [Char.ofNat (x.toUInt64.toNat % 256)]
            | v => v.toText.take 1
          Format.pad ('-' ∈ flags) ' ' width o
        | kind =>
          if kind ∈ "eEfFgGaA".toList then Format.showDouble flags width precision kind v.toNumber
          else Format.showInteger flags width precision kind v.toNumber.toInt64.toInt
      shown ++ go rest arguments.tail

def inserted (match_ : Octets) : Octets → Octets
  | '\\' :: '&' :: rest => '&' :: inserted match_ rest
  | '\\' :: '\\' :: rest => '\\' :: inserted match_ rest
  | '&' :: rest => match_ ++ inserted match_ rest
  | c :: rest => c :: inserted match_ rest
  | [] => []

def replaced (r : Regex) (everywhere : Bool) (new o : Octets) : Octets × Nat :=
  let found := if everywhere then r.findAll false o else (r.find? false o).toList
  let (done, at_) := found.foldl (fun (done, at_) f =>
    (done ++ (o.drop at_).take (f.start - at_) ++ inserted (f.group o 0) new, f.stop))
    (([] : Octets), 0)
  (done ++ o.drop at_, found.length)

def part (o : Octets) (start : Float) (length : Option Float) : Octets :=
  let first := start.round.toInt64.toInt
  let last : Int := match length with
    | some n => (start.round + n.round).toInt64.toInt - 1
    | none => o.length
  let from_ := (max first 1).toNat
  (o.drop (from_ - 1)).take (last - (max first 1) + 1).toNat

def random (seed : Nat) : Float × Nat :=
  let next := (seed * 1103515245 + 12345) % 2147483648
  (next.toFloat / 2147483648, next)

/-! ### Expressions and statements -/

mutual

def eval (shell : Launcher) (script : Script) (fuel : Nat) (e : Expr) : Run Value :=
  match fuel with
  | 0 => doing (throw .endless)
  | fuel + 1 => do
    match e with
    | .number x => return .number x
    | .text o => return .text o
    | .regex o => return .ofBool (((← regexOf o).find? false (← sheet).record).isSome)
    | .grouped e => eval shell script fuel e
    | .variable name => variableOf name
    | .element name places => do
      entry (← arrayName name) (← key shell script fuel places)
    | .field e => do field (← eval shell script fuel e).toNumber.toUInt64.toNat
    | .assign operator target e =>
      let v ← eval shell script fuel e
      let v ← match operator with
        | none => pure v
        | some o => do
          let old ← eval shell script fuel target
          calculate o old.toNumber v.toNumber
      store shell script fuel target v
      return v
    | .choice test a b =>
      if (← eval shell script fuel test).truth then eval shell script fuel a
      else eval shell script fuel b
    | .either a b =>
      if (← eval shell script fuel a).truth then return .ofBool true
      else return .ofBool (← eval shell script fuel b).truth
    | .both a b =>
      if (← eval shell script fuel a).truth then
        return .ofBool (← eval shell script fuel b).truth
      else return .ofBool false
    | .member places name =>
      let k ← key shell script fuel places
      return .ofBool (((← entries (← arrayName name)).lookup k).isSome)
    | .fits negated a b =>
      let o := (← eval shell script fuel a).toText
      let r ← regexFor shell script fuel b
      return .ofBool ((r.find? false o).isSome != negated)
    | .compare operator a b =>
      let x ← eval shell script fuel a
      let y ← eval shell script fuel b
      let c := x.compare y
      return .ofBool (match operator with
        | "<" => c = .lt
        | "<=" => c ≠ .gt
        | ">" => c = .gt
        | ">=" => c ≠ .lt
        | "!=" => c ≠ .eq
        | _ => c = .eq)
    | .joined a b =>
      let x ← eval shell script fuel a
      let y ← eval shell script fuel b
      return .text (x.toText ++ y.toText)
    | .arithmetic o a b =>
      let x ← eval shell script fuel a
      let y ← eval shell script fuel b
      calculate o x.toNumber y.toNumber
    | .negative e => return .number (-(← eval shell script fuel e).toNumber)
    | .positive e => return .number (← eval shell script fuel e).toNumber
    | .not e => return .ofBool !(← eval shell script fuel e).truth
    | .step target up before =>
      let old := (← eval shell script fuel target).toNumber
      let new := if up then old + 1 else old - 1
      store shell script fuel target (.number new)
      return .number (if before then old else new)
    | .call name arguments =>
      match script.functions.find? fun f => f.name = name with
      | some f => callOwn shell script fuel f arguments
      | none => call shell script fuel name arguments
    | .take origin target => take shell script fuel origin target
where
  calculate (o : Char) (x y : Float) : Run Value :=
    match o with
    | '+' => return .number (x + y)
    | '-' => return .number (x - y)
    | '*' => return .number (x * y)
    | '/' =>
      if y == 0 then throw (.failed 2 "division by zero".toList) else return .number (x / y)
    | '%' =>
      if y == 0 then throw (.failed 2 "division by zero in %".toList)
      else
        let q := x / y
        return .number (x - y * (if q < 0 then q.ceil else q.floor))
    | _ => return .number (Float.pow x y)

def key (shell : Launcher) (script : Script) (fuel : Nat) (places : List Expr) : Run Octets :=
  match fuel with
  | 0 => doing (throw .endless)
  | fuel + 1 => do
    let vs ← values shell script fuel places
    return (← globalText "SUBSEP").intercalate (vs.map Value.toText)

def values (shell : Launcher) (script : Script) (fuel : Nat) (es : List Expr) : Run (List Value) :=
  match fuel, es with
  | _, [] => return []
  | 0, _ => doing (throw .endless)
  | fuel + 1, e :: rest => do
    let v ← eval shell script fuel e
    return v :: (← values shell script fuel rest)

def store (shell : Launcher) (script : Script) (fuel : Nat) (target : Expr) (v : Value) : Run Unit :=
  match fuel with
  | 0 => doing (throw .endless)
  | fuel + 1 => do
    match target with
    | .variable name => setVariable name v
    | .element name places =>
      let k ← key shell script fuel places
      setEntry (← arrayName name) k v
    | .field e => setField (← eval shell script fuel e).toNumber.toUInt64.toNat v
    | .grouped e => store shell script fuel e v
    | _ => return

def regexFor (shell : Launcher) (script : Script) (fuel : Nat) (e : Expr) : Run Regex :=
  match fuel with
  | 0 => doing (throw .endless)
  | fuel + 1 => do
    match e with
    | .regex o => regexOf o
    | e => do regexOf (← eval shell script fuel e).toText

def callOwn (shell : Launcher) (script : Script) (fuel : Nat) (f : Function) (arguments : List Expr) :
    Run Value :=
  match fuel with
  | 0 => doing (throw .endless)
  | fuel + 1 => do
    let bound ← bindAll shell script fuel f.parameters arguments
    modify fun s => { s with frames := bound :: s.frames }
    let result ← tryCatch (do execAll shell script fuel f.body; return Value.unset) fun
      | .give v => return v
      | leave => throw leave
    modify fun s => { s with frames := s.frames.tail }
    return result

def bindAll (shell : Launcher) (script : Script) (fuel : Nat) (names : List Octets) (es : List Expr) :
    Run (List (Octets × Local)) :=
  match fuel, names, es with
  | _, [], _ => return []
  | 0, _, _ => doing (throw .endless)
  | fuel + 1, name :: names, [] => do
    return (name, .value .unset) :: (← bindAll shell script fuel names [])
  | fuel + 1, name :: names, e :: es => do
    let l : Local ← match e with
      | .variable other => do
        let isArray := ((← sheet).arrays.lookup other).isSome
        match ← local? other with
        | some (.array a) => pure (.array a)
        | some (.value .unset) => do pure (.array (← arrayName other))
        | some (.value v) => pure (.value v)
        | none =>
          match ← variableOf other, isArray with
          | .unset, _ | _, true => pure (.array other)
          | v, false => pure (.value v)
      | e => do pure (.value (← eval shell script fuel e))
    return (name, l) :: (← bindAll shell script fuel names es)

def call (shell : Launcher) (script : Script) (fuel : Nat) (name : Octets) (arguments : List Expr) :
    Run Value :=
  match fuel with
  | 0 => doing (throw .endless)
  | fuel + 1 => do
    match Octets.text name, arguments with
    | "length", [] => return .number (← sheet).record.length.toFloat
    | "length", [.variable a] =>
      let isArray := ((← sheet).arrays.lookup (← arrayNameOf a)).isSome
      if isArray then return .number (← entries (← arrayName a)).length.toFloat
      else return .number (← variableOf a).toText.length.toFloat
    | "split", o :: .variable a :: rest =>
      let o := (← eval shell script fuel o).toText
      let parts ← match rest with
        | [] => do divide (← globalText "FS") o
        | .regex r :: _ => if o = [] then pure [] else do pure (between (← regexOf r) o)
        | e :: _ => do divide (← eval shell script fuel e).toText o
      setEntries (← arrayName a)
        (parts.mapIdx fun n p => (Octets.ofNat (n + 1), .ofInput p))
      return .number parts.length.toFloat
    | "sub", r :: new :: rest => substitute shell script fuel false r new rest
    | "gsub", r :: new :: rest => substitute shell script fuel true r new rest
    | "match", [o, r] =>
      let o := (← eval shell script fuel o).toText
      let r ← regexFor shell script fuel r
      let (start, length) := match r.find? false o with
        | some f => ((f.start + 1).toFloat, (f.stop - f.start).toFloat)
        | none => ((0 : Float), -1)
      setGlobal "RSTART".toList (.number start)
      setGlobal "RLENGTH".toList (.number length)
      return .number start
    | function, arguments =>
      let vs ← values shell script fuel arguments
      plain function vs
where
  arrayNameOf (a : Octets) : Run Octets := do
    match ← local? a with
    | some (.array other) => return other
    | _ => return a
  plain (function : String) (vs : List Value) : Run Value := do
    let first := vs.headD .unset
    let second := vs.getD 1 .unset
    let x := first.toNumber
    match function with
    | "length" => return .number first.toText.length.toFloat
    | "substr" => return .text (part first.toText second.toNumber (vs[2]?.map Value.toNumber))
    | "index" =>
      let o := first.toText
      let found := (List.range (o.length + 1)).find? fun n =>
        second.toText.isPrefixOf (o.drop n)
      return .number (match found with
        | some n => if second.toText = [] then 0 else (n + 1).toFloat
        | none => 0)
    | "sprintf" => return .text (formatted first.toText vs.tail)
    | "tolower" => return .text (first.toText.map Char.toLower)
    | "toupper" => return .text (first.toText.map Char.toUpper)
    | "int" => return .number (if x < 0 then x.ceil else x.floor)
    | "sqrt" => return .number x.sqrt
    | "exp" => return .number x.exp
    | "log" => return .number x.log
    | "sin" => return .number x.sin
    | "cos" => return .number x.cos
    | "atan2" => return .number (Float.atan2 x second.toNumber)
    | "rand" =>
      let (r, seed) := random (← sheet).seed
      modify fun s => { s with seed }
      return .number r
    | "srand" =>
      let old := (← sheet).seed
      modify fun s => { s with seed := x.toUInt64.toNat }
      return .number old.toFloat
    | "system" =>
      doing (shell none first.toText)
      return .number (← doing (do return (← get).status)).toFloat
    | "close" =>
      let known ← close shell first.toText
      return .number (if known then 0 else -1)
    | _ => return .number 0

def substitute (shell : Launcher) (script : Script) (fuel : Nat) (everywhere : Bool) (r new : Expr)
    (rest : List Expr) : Run Value :=
  match fuel with
  | 0 => doing (throw .endless)
  | fuel + 1 => do
    let r ← regexFor shell script fuel r
    let new := (← eval shell script fuel new).toText
    let target := rest.headD (.field (.number 0))
    let o := (← eval shell script fuel target).toText
    let (text, n) := replaced r everywhere new o
    if n ≠ 0 then store shell script fuel target (.text text)
    return .number n.toFloat

def take (shell : Launcher) (script : Script) (fuel : Nat) (origin : Origin) (target : Option Expr) :
    Run Value :=
  match fuel with
  | 0 => doing (throw .endless)
  | fuel + 1 => do
    let found : Option (Option Octets) ← match origin with
      | .input => do
        let o ← nextRecord? ((← sheet).operands.length + 3)
        if o.isSome then
          count "NR"
          count "FNR"
        pure (some o)
      | .file e => do
        let path := (← eval shell script fuel e).toText
        if isOwnInput path then
          let o ← takeOwn (← globalText "RS")
          pure (some o)
        else
          from_ path (do return (← doing (fileText? path.text)))
      | .command e => do
        let command := (← eval shell script fuel e).toText
        let o ← from_ command (do
          let (_, text) ← doing (holding (shell none command))
          return some text)
        if let some (some _) := o then count "NR"
        pure o
    match found with
    | none => return .number (-1)
    | some none => return .number 0
    | some (some o) =>
      match target with
      | none => setRecord o
      | some t => store shell script fuel t (.ofInput o)
      return .number 1
where
  from_ (name : Octets) (read : Run (Option Octets)) : Run (Option (Option Octets)) := do
    let text? ← match (← sheet).readers.find? fun r => r.name = name with
      | some r => pure (some r.text)
      | none => read
    match text? with
    | none => return none
    | some text =>
      let keep (text : Octets) : Run Unit := modify fun s =>
        { s with readers := ⟨name, text⟩ :: s.readers.filter fun r => r.name ≠ name }
      match ← cut (← globalText "RS") text with
      | some (o, rest) =>
        keep rest
        return some (some o)
      | none =>
        keep []
        return some none

def put (shell : Launcher) (script : Script) (fuel : Nat) (outlet : Outlet) (o : Octets) : Run Unit :=
  match fuel with
  | 0 => doing (throw .endless)
  | fuel + 1 => do
    match outlet with
    | .plain => doing (write 1 o)
    | .file append e => do writeTo (← eval shell script fuel e).toText append o
    | .command e =>
      let command := (← eval shell script fuel e).toText
      let s ← sheet
      if s.commands.any (·.name = command) then
        modify fun s => { s with commands := s.commands.map fun c =>
          if c.name = command then { c with text := c.text ++ o } else c }
      else modify fun s => { s with commands := s.commands ++ [⟨command, o⟩] }

def exec (shell : Launcher) (script : Script) (fuel : Nat) (st : Statement) : Run Unit :=
  match fuel with
  | 0 => doing (throw .endless)
  | fuel + 1 => do
    match st with
    | .print es outlet =>
      let ending ← globalText "ORS"
      if es.isEmpty then put shell script fuel outlet ((← sheet).record ++ ending)
      else
        let vs ← values shell script fuel es
        let between ← globalText "OFS"
        put shell script fuel outlet (between.intercalate (vs.map Value.toText) ++ ending)
    | .format es outlet =>
      let vs ← values shell script fuel es
      put shell script fuel outlet (formatted (vs.headD .unset).toText vs.tail)
    | .expr e => discard (eval shell script fuel e)
    | .choice test a b =>
      if (← eval shell script fuel test).truth then execAll shell script fuel a
      else execAll shell script fuel b
    | .loop test body => repeating shell script fuel (some test) none body
    | .loopLate test body =>
      if ← turn shell script fuel body then repeating shell script fuel (some test) none body
    | .counting first test step body =>
      if let some st := first then exec shell script fuel st
      repeating shell script fuel test step body
    | .each name array body =>
      let keys := order ((← entries (← arrayName array)).map (·.1))
      through shell script fuel name keys body
    | .group body => execAll shell script fuel body
    | .next file => throw (.next file)
    | .stop status =>
      if let some e := status then
        let v ← eval shell script fuel e
        setGlobal exitName v
      throw .stop
    | .give value =>
      let v ← match value with
        | some e => eval shell script fuel e
        | none => pure .unset
      throw (.give v)
    | .leave => throw .broken
    | .again => throw .again
    | .erase name places =>
      let array ← arrayName name
      match places with
      | none => setEntries array []
      | some places =>
        let k ← key shell script fuel places
        setEntries array ((← entries array).filter fun e => e.1 ≠ k)
where
  exitName : Octets := [' ']

def execAll (shell : Launcher) (script : Script) (fuel : Nat) (sts : List Statement) : Run Unit :=
  match fuel, sts with
  | _, [] => return
  | 0, _ => doing (throw .endless)
  | fuel + 1, st :: rest => do
    exec shell script fuel st
    execAll shell script fuel rest

def turn (shell : Launcher) (script : Script) (fuel : Nat) (body : List Statement) : Run Bool :=
  match fuel with
  | 0 => doing (throw .endless)
  | fuel + 1 =>
    tryCatch (do execAll shell script fuel body; return true) fun
      | .broken => return false
      | .again => return true
      | leave => throw leave

def repeating (shell : Launcher) (script : Script) (fuel : Nat) (test : Option Expr)
    (step : Option Statement) (body : List Statement) : Run Unit :=
  match fuel with
  | 0 => doing (throw .endless)
  | fuel + 1 => do
    let goes ← match test with
      | some e => do pure (← eval shell script fuel e).truth
      | none => pure true
    if goes then
      if ← turn shell script fuel body then
        if let some st := step then exec shell script fuel st
        repeating shell script fuel test step body

def through (shell : Launcher) (script : Script) (fuel : Nat) (name : Octets) (keys : List Octets)
    (body : List Statement) : Run Unit :=
  match fuel, keys with
  | _, [] => return
  | 0, _ => doing (throw .endless)
  | fuel + 1, k :: rest => do
    setVariable name (.ofInput k)
    if ← turn shell script fuel body then through shell script fuel name rest body

end

/-! ### Scripts -/

def patience : Nat := 100000

def perform (shell : Launcher) (script : Script) (rule : Rule) : Run Unit :=
  match rule.body with
  | some body => execAll shell script patience body
  | none => exec shell script patience (.print [] .plain)

def concerns (shell : Launcher) (script : Script) (n : Nat) (o : Occasion) : Run Bool := do
  let holds (e : Expr) : Run Bool := return (← eval shell script patience e).truth
  match o with
  | .always => return true
  | .when e => holds e
  | .range a b =>
    let begun ← if n ∈ (← sheet).begun then pure true else holds a
    if begun then
      let ends ← holds b
      modify fun s => { s with
        begun := if ends then s.begun.filter (· ≠ n) else n :: s.begun.filter (· ≠ n) }
    return begun
  | .first | .last => return false

def eachRule (shell : Launcher) (script : Script) : Nat → List Rule → Run Unit
  | _, [] => return
  | n, rule :: rest => do
    if ← concerns shell script n rule.occasion then perform shell script rule
    eachRule shell script (n + 1) rest

def eachRecord (shell : Launcher) (script : Script) : Nat → Run Unit
  | 0 => doing (throw .endless)
  | fuel + 1 => do
    match ← nextRecord? ((← sheet).operands.length + 3) with
    | none => return
    | some o =>
      count "NR"
      count "FNR"
      setRecord o
      tryCatch (eachRule shell script 0 script.rules) fun
        | .next false => return
        | .next true => modify fun s => { s with opened := false }
        | leave => throw leave
      eachRecord shell script fuel

def runScript (shell : Launcher) (script : Script) : Run Unit := do
  let those (first : Bool) : List Rule := script.rules.filter fun r =>
    match r.occasion, first with
    | .first, true | .last, false => true
    | _, _ => false
  let onlyFirst := script.rules.all fun r => r.occasion matches .first
  let stopped ← tryCatch (do
      for r in those true do perform shell script r
      if !onlyFirst then
        let lines := (← doing (inputOf 0)).rest.length
        eachRecord shell script (lines + patience)
      return false) fun
    | .stop => return true
    | .next _ => return false
    | leave => throw leave
  if !(stopped && onlyFirst) then
    tryCatch (for r in those false do perform shell script r) fun
      | .stop => return
      | leave => throw leave
  for c in (← sheet).commands do discard (close shell c.name)
  doing leaveInput

def initial : List (Octets × Value) :=
  [("FS", " "), ("OFS", " "), ("ORS", "\n"), ("RS", "\n"), ("SUBSEP", "\x1c"),
    ("CONVFMT", "%.6g"), ("OFMT", "%.6g")].map fun v => (v.1.toList, .text v.2.toList)

def separator (o : Octets) : Octets := if o = ['t'] then ['\t'] else Reading.meant o

def failed (text : Octets) : Execution Nat := do
  writeLine 2 ("mawk: ".toList ++ text)
  return 2

def options : Options where
  plain := ['i']
  valued := ['F', 'v', 'f', 'W']
  first := true

def awk (shell : Launcher) : Program := fun arguments => do
  match options.ofArguments arguments with
  | .error objection => failed objection.message
  | .ok g =>
    let files ← (g.values 'f').mapM fun path => do
      return (path, ← if isOwnInput path then some <$> wholeInput else fileText? path.text)
    if let some (path, _) := files.find? fun f => f.2.isNone then
      return ← failed ("cannot open \"".toList ++ path ++ "\" (No such file or directory)".toList)
    let (texts, operands) := if files.isEmpty then (g.operands.take 1, g.operands.drop 1)
      else (files.filterMap (·.2), g.operands)
    if texts.isEmpty then
      writeLine 2 ("Usage: mawk [Options] [Program] [file ...]").toList
      return 2
    match Script.ofText (['\n'].intercalate texts) with
    | .error mistake =>
      failed ("line ".toList ++ Octets.ofNat mistake.line ++ ": ".toList ++ mistake.text)
    | .ok script =>
      let r : Room ← get
      let environment := r.bindings.filter fun v => v.1 ∈ r.exported
      let given := (g.values 'v').map fun v =>
        (v.takeWhile (· ≠ '='), Value.ofInput (Reading.meant ((v.dropWhile (· ≠ '=')).drop 1)))
      let fs := (g.value? 'F').toList.map fun o => ("FS".toList, Value.text (separator o))
      let named := ("mawk".toList :: operands).mapIdx fun n o =>
        (Octets.ofNat n, Value.ofInput o)
      let start : Sheet :=
        { globals := given.reverse ++ fs ++ initial ++
            [("ARGC".toList, .number (operands.length + 1).toFloat)]
          arrays := [("ENVIRON".toList, environment.map fun v => (v.1, .ofInput v.2)),
            ("ARGV".toList, named)]
          operands }
      let (result, after) ← ((runScript shell script).run.run start)
      let status : Nat := match after.globals.lookup (exec.exitName) with
        | some v => v.toNumber.toUInt64.toNat % 256
        | none => 0
      match result with
      | .error (.failed n text) =>
        discard (failed text)
        return n
      | _ => return status

end MutationPipeline.Rehearsal.Shell.Records
