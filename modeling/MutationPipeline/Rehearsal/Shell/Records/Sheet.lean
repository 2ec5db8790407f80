import MutationPipeline.Rehearsal.Shell.Inputs
import MutationPipeline.Rehearsal.Shell.Records.Reader
import MutationPipeline.Rehearsal.Shell.Regex

/-!
What scripts for records work with: values, variables, the record at hand and its fields, and the
texts that are read and written. A value is a number or a text; what comes from outside and looks
like a number is both.
-/
namespace MutationPipeline.Rehearsal.Shell.Records

open Execution

inductive Value where
  | number (x : Float)
  | text (o : Octets)
  | both (o : Octets) (x : Float)
  | unset

namespace Value

def blank (c : Char) : Bool := c = ' ' || ('\t' ≤ c && c ≤ '\r')

def ofInput (o : Octets) : Value :=
  let (x, n) := Numeral.float o
  if n ≠ 0 && (o.drop n).all blank then .both o x else .text o

def toNumber : Value → Float
  | .number x | .both _ x => x
  | .text o => (Numeral.float o).1
  | .unset => 0

def wholeBound : Float := 9223372036854775808.0

def shown (x : Float) : Octets :=
  if x == x.floor && x.abs < wholeBound then
    (if x < 0 then ['-'] else []) ++ Octets.ofNat x.abs.toUInt64.toNat
  else (if Numeral.isNegative x then ['-'] else []) ++ Numeral.shown 'g' 6 false x

def toText : Value → Octets
  | .number x => shown x
  | .text o | .both o _ => o
  | .unset => []

def truth : Value → Bool
  | .number x | .both _ x => x != 0
  | .text o => !o.isEmpty
  | .unset => false

def ofBool (b : Bool) : Value := .number (if b then 1 else 0)

def compare (a b : Value) : Ordering :=
  let numbers := match a, b with
    | .text _, _ | _, .text _ => false
    | _, _ => true
  if numbers then
    let x := a.toNumber
    let y := b.toNumber
    if x < y then .lt else if y < x then .gt else .eq
  else
    let x := a.toText
    let y := b.toText
    if x < y then .lt else if y < x then .gt else .eq

end Value

inductive Local where
  | value (v : Value)
  | array (name : Octets)

structure Strand where
  name : Octets
  text : Octets := []

structure Sheet where
  record : Octets := []
  fields : List Octets := []
  globals : List (Octets × Value) := []
  arrays : List (Octets × List (Octets × Value)) := []
  frames : List (List (Octets × Local)) := []
  made : Nat := 0
  operands : List Octets := []
  file : Option Octets := none
  opened : Bool := false
  sawFile : Bool := false
  readers : List Strand := []
  commands : List Strand := []
  files : List Octets := []
  begun : List Nat := []
  seed : Nat := 0

inductive Leave where
  | next (file : Bool)
  | stop
  | give (v : Value)
  | broken
  | again
  | failed (status : Nat) (text : Octets)

abbrev Run := ExceptT Leave (StateT Sheet Execution)

abbrev Launcher := Option Octets → Octets → Execution Unit

namespace Run

def doing (act : Execution α) : Run α := ExceptT.lift (StateT.lift act)

def sheet : Run Sheet := get

/-! ### Variables -/

def global (name : String) : Run Value := do
  return ((← sheet).globals.lookup name.toList).getD .unset

def globalText (name : String) : Run Octets := return (← global name).toText

def setGlobal (name : Octets) (v : Value) : Run Unit := modify fun s =>
  { s with globals := (name, v) :: s.globals.filter fun p => p.1 ≠ name }

def local? (name : Octets) : Run (Option Local) := do
  return (← sheet).frames.head?.bind fun f => f.lookup name

def setLocal (name : Octets) (l : Local) : Run Unit := modify fun s =>
  match s.frames with
  | f :: rest => { s with frames := ((name, l) :: f.filter fun p => p.1 ≠ name) :: rest }
  | [] => s

def arrayName (name : Octets) : Run Octets := do
  match ← local? name with
  | some (.array other) => return other
  | some (.value _) =>
    let s ← sheet
    let fresh := '#' :: Octets.ofNat s.made
    modify fun s => { s with made := s.made + 1 }
    setLocal name (.array fresh)
    return fresh
  | none => return name

def entries (array : Octets) : Run (List (Octets × Value)) := do
  return ((← sheet).arrays.lookup array).getD []

def setEntries (array : Octets) (es : List (Octets × Value)) : Run Unit := modify fun s =>
  { s with arrays := (array, es) :: s.arrays.filter fun a => a.1 ≠ array }

def setEntry (array key : Octets) (v : Value) : Run Unit := do
  let es ← entries array
  if (es.lookup key).isSome then
    setEntries array (es.map fun e => if e.1 = key then (key, v) else e)
  else setEntries array (es ++ [(key, v)])

def entry (array key : Octets) : Run Value := do
  match (← entries array).lookup key with
  | some v => return v
  | none =>
    setEntry array key .unset
    return .unset

/-- The keys of an array in the order in which they are gone through: by a number below 64 that is
made of their characters. -/
def order (keys : List Octets) : List Octets :=
  let mixed (o : Octets) : Nat :=
    (o.foldl (fun h c => (h ^^^ c.toNat) * 16777619 % 4294967296) 2166136261) % 64
  keys.reverse.mergeSort fun a b => mixed a ≤ mixed b

/-! ### Fields -/

def regexOf (o : Octets) : Run Regex := do
  match Regex.ofText { extended := true, escapes := true } o with
  | .ok r => return r
  | .error f =>
    throw (.failed 2 ("regular expression compile failed (".toList ++ f.message.toList ++
      ")\n".toList ++ o))

def between (r : Regex) (o : Octets) : List Octets :=
  let found := (r.findAll false o).filter fun f => f.start ≠ f.stop
  let (parts, at_) := found.foldl (fun (parts, at_) f =>
    (parts ++ [(o.drop at_).take (f.start - at_)], f.stop)) (([] : List Octets), 0)
  parts ++ [o.drop at_]

/-- A text divided at a separator: a blank stands for any white space, a single character for
itself, and all else is an expression. -/
def divide (separator o : Octets) : Run (List Octets) := do
  if o = [] then return []
  match separator with
  | [' '] => return (o.splitOnP fun c => c = ' ' || c = '\t' || c = '\n').filter (· ≠ [])
  | [] => return o.map fun c => [c]
  | [c] => if c = '\\' then return o.splitOn c else
    if c = '|' || c.isAlphanum || c ∈ [',', ':', ';', '\t', '-', '/', '=', '_', '"', '\''] then
      return o.splitOn c
    else return between (← regexOf (if c ∈ ['[', '('] then ['\\', c] else [c])) o
  | separator => return between (← regexOf separator) o

def setRecord (o : Octets) : Run Unit := do
  let separator ← globalText "FS"
  let paragraphs := (← globalText "RS") = []
  let parts ← if paragraphs && separator ≠ [' '] then do
      let lines ← (o.splitOn '\n').mapM (divide separator)
      pure lines.flatten
    else divide separator o
  modify fun s => { s with record := o, fields := parts }

def rebuild (fields : List Octets) : Run Unit := do
  let between ← globalText "OFS"
  modify fun s => { s with fields, record := between.intercalate fields }

def field (n : Nat) : Run Value := do
  let s ← sheet
  if n = 0 then return .ofInput s.record
  match s.fields[n - 1]? with
  | some o => return .ofInput o
  | none => return .unset

def setField (n : Nat) (v : Value) : Run Unit := do
  if n = 0 then setRecord v.toText
  else
    let fields := (← sheet).fields
    let fields := fields ++ List.replicate (n - fields.length) []
    rebuild (fields.set (n - 1) v.toText)

def variableOf (name : Octets) : Run Value := do
  match ← local? name with
  | some (.value v) => return v
  | some (.array _) => return .unset
  | none =>
    if name = "NF".toList then return .number (← sheet).fields.length.toFloat
    else return ((← sheet).globals.lookup name).getD .unset

def setVariable (name : Octets) (v : Value) : Run Unit := do
  match ← local? name with
  | some _ => setLocal name (.value v)
  | none =>
    if name = "NF".toList then
      let n := v.toNumber.toUInt64.toNat
      let fields := (← sheet).fields
      rebuild (fields.take n ++ List.replicate (n - fields.length) [])
    else setGlobal name v

/-! ### Input -/

def cut (separator o : Octets) : Run (Option (Octets × Octets)) := do
  match separator with
  | [] =>
    let o := o.dropWhile (· = '\n')
    if o = [] then return none
    let r ← regexOf "\n\n+".toList
    match r.find? false o with
    | some f => return some (o.take f.start, o.drop f.stop)
    | none => return some (if o.getLast? = some '\n' then o.dropLast else o, [])
  | [c] =>
    if o = [] then return none
    let line := o.takeWhile (· ≠ c)
    return some (line, o.drop (line.length + 1))
  | separator =>
    if o = [] then return none
    match (← regexOf separator).find? false o with
    | some f => return some (o.take f.start, o.drop f.stop)
    | none => return some (if o.getLast? = some '\n' then o.dropLast else o, [])

def openNext : Nat → Run Bool
  | 0 => return false
  | fuel + 1 => do
    let s ← sheet
    match s.operands with
    | [] =>
      if s.sawFile then return false
      set { s with opened := true, file := none, sawFile := true }
      return true
    | o :: rest =>
      set { s with operands := rest }
      let name := o.takeWhile Reading.isNameChar
      match o.drop name.length with
      | '=' :: value =>
        if name.head?.any Reading.isNameStart then
          setVariable name (.ofInput (Reading.meant value))
          openNext fuel
        else openFile o
      | _ => if o = [] then openNext fuel else openFile o
where
  openFile (path : Octets) : Run Bool := do
    setGlobal "FILENAME".toList (.text path)
    setGlobal "FNR".toList (.number 0)
    if isOwnInput path then
      modify fun s => { s with opened := true, file := none, sawFile := true }
      return true
    match ← doing (fileText? path.text) with
    | some text =>
      modify fun s => { s with opened := true, file := some text, sawFile := true }
      return true
    | none =>
      throw (.failed 2 ("cannot open \"".toList ++ path ++ "\" (No such file or directory)".toList))

def takeOwn (separator : Octets) : Run (Option Octets) := do
  match separator with
  | [c] =>
    let (line, ended) ← doing (takeUntil 0 c)
    if line = [] ∧ !ended then return none
    return some (if !ended && line.getLast? = some '\n' && c ≠ '\n' then line.dropLast else line)
  | _ =>
    let text ← doing wholeInput
    match ← cut separator text with
    | some (o, rest) =>
      doing (setInput 0 rest)
      return some o
    | none => return none

def nextRecord? : Nat → Run (Option Octets)
  | 0 => return none
  | fuel + 1 => do
    let s ← sheet
    if !s.opened then
      if ← openNext (s.operands.length + 1) then nextRecord? fuel else return none
    else
      let separator ← globalText "RS"
      let found ← match s.file with
        | none => takeOwn separator
        | some text => do
          match ← cut separator text with
          | some (o, rest) =>
            modify fun s => { s with file := some rest }
            pure (some o)
          | none => pure none
      match found with
      | some o => return some o
      | none =>
        modify fun s => { s with opened := false }
        nextRecord? fuel

def count (name : String) : Run Unit := do
  setGlobal name.toList (.number ((← global name).toNumber + 1))

/-! ### Output -/

def writeTo (path : Octets) (append : Bool) (o : Octets) : Run Unit := do
  match path.text with
  | "/dev/stdout" | "-" => doing (write 1 o)
  | "/dev/stderr" => doing (write 2 o)
  | _ =>
    let s ← sheet
    if path ∉ s.files then
      set { s with files := path :: s.files }
      match ← doing (Execution.openFile path.text append) with
      | .ok _ => pure ()
      | .error cause =>
        let cause := if cause = "Directory nonexistent" then noFile else cause
        throw (.failed 2 ("cannot open \"".toList ++ path ++ ("\" (" ++ cause ++ ") for output").toList))
    doing do
      restoring (fun before after => { after with sinks := before.sinks }) do
        setSink 1 (some (if path = "/dev/null".toList then .nowhere else .file path.text))
        write 1 o

def close (shell : Launcher) (name : Octets) : Run Bool := do
  let s ← sheet
  let known := s.readers.any (·.name = name) || s.commands.any (·.name = name) || name ∈ s.files
  set { s with
    readers := s.readers.filter fun r => r.name ≠ name
    commands := s.commands.filter fun r => r.name ≠ name
    files := s.files.filter (· ≠ name) }
  for c in s.commands.filter fun c => c.name = name do doing (shell (some c.text) c.name)
  return known

end Run

end MutationPipeline.Rehearsal.Shell.Records
