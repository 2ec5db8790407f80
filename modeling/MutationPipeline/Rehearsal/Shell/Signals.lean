import MutationPipeline.Rehearsal.Shell.Format
import MutationPipeline.Rehearsal.Shell.Options

/-!
Signals in shell scripts: sending them, and what is to be done when one comes.

A signal that a script has something to do for waits until the command at hand has ended. The
number zero stands for the end of the script.
-/
namespace MutationPipeline.Rehearsal.Shell.Signal

open Execution

def bound : Nat := 65

def name? (n : Nat) : Option String := if n = 0 then some "EXIT" else ExitStatus.signalName? n

def ofText? (o : Octets) : Option Nat :=
  if o ≠ [] ∧ o.all Char.isDigit then
    let n := Format.natOf o
    if n < bound then some n else none
  else (List.range bound).find? fun n => (name? n).map String.toList = some (o.map Char.toUpper)

def obituaries : List (Nat × String) :=
  [(1, "Hangup"), (3, "Quit"), (4, "Illegal instruction"), (5, "Trace/breakpoint trap"),
    (6, "Aborted"), (7, "Bus error"), (8, "Floating point exception"), (9, "Killed"),
    (10, "User defined signal 1"), (11, "Segmentation fault"), (12, "User defined signal 2"),
    (14, "Alarm clock"), (15, "Terminated")]

def bury (n : Nat) : Execution Unit := do
  if (← get).dialect = .sh then
    if let some text := obituaries.lookup n then writeLine 2 text.toList
  setStatus (128 + n)

def unnoticed : List Nat := [0, 17, 18, 23, 28]

def holding : List Nat := [19, 20, 21, 22]

def absolute : List Nat := [9, 19]

def fell (pid n : Nat) : Execution Unit := do
  let r : Room ← get
  if r.ancestors.any fun a => a.pid = pid then set { r with doomed := r.doomed ++ [(pid, n)] }
  else throw (.ended (.signalled n))

def arrive (pid n : Nat) : Execution Unit := do
  let r : Room ← get
  let traps := ((r.ancestors.reverse.find? fun a => a.pid = pid).map (·.traps)).getD r.traps
  match (traps.lookup n).filter fun _ => n ∉ absolute with
  | some [] => return
  | some _ => set { r with caught := r.caught ++ [(pid, n)] }
  | none =>
    if n ∈ unnoticed then return
    else if n ∈ holding then throw .endless
    else fell pid n

def strike (n pid : Nat) : Execution Bool := do
  let r : Room ← get
  match r.jobs.find? fun j => j.pid = pid with
  | none => return false
  | some job =>
    if job.ends ≤ r.clock then return false
    if n ∉ unnoticed then
      let ended : Job := { job with status := 128 + n, ends := r.clock, killed := some n }
      set { r with
        jobs := r.jobs.map fun (j : Job) => if j.pid = pid then ended else j
        events := r.events.filter fun e => e.job ≠ pid || e.time ≤ r.clock }
    return true

/-! ### Time -/

def happen : List Event → Execution Unit
  | [] => return
  | e :: rest => do
    match e.deed with
    | .write s text => deliver text s
    | .strike pid n => arrive pid n
    happen rest

def pass (time : Nat) : Execution Unit := do
  let r : Room ← get
  let late := r.deadline.any fun d => d < r.clock + time
  let reached := if late then r.deadline.getD 0 else r.clock + time
  set { r with clock := reached }
  let r : Room ← get
  if r.beside.isNone then
    let (due, later) := r.events.partition fun e => e.time ≤ r.clock
    set { r with events := later }
    happen (due.mergeSort fun a b => a.time ≤ b.time)
  if late then throw .expired

def finishJobs : Execution Unit := do
  let r : Room ← get
  pass (((r.events.map (·.time)).max?).getD 0 - r.clock)

/-! ### Sending signals -/

inductive Request where
  | send (signal : Nat) (targets : List Octets)
  | explain (words : List Octets)
  | wrong (status : Nat) (complaint : Octets)

namespace Request

def usage (dialect : Dialect) : Octets :=
  (match dialect with
    | .sh => "Usage: kill [-s sigspec | -signum | -sigspec] [pid | job]... or\n" ++
        "kill -l [exitstatus]"
    | .bash => "usage: kill [-s sigspec | -n signum | -sigspec] pid | jobspec ... or " ++
        "kill -l [sigspec]").toList

def ofOption (dialect : Dialect) (o : Octets) (rest : List Octets) : Request :=
  let unknown (signal : Octets) : Request := match dialect with
    | .sh => .wrong 2 ("invalid signal number or name: ".toList ++ signal)
    | .bash => .wrong 1 (signal ++ ": invalid signal specification".toList)
  let named (signal : Octets) (targets : List Octets) : Request :=
    match ofText? signal with
    | some n => .send n targets
    | none => unknown signal
  match o, rest with
  | ['l'], words => .explain words
  | ['s'], signal :: targets => named signal targets
  | ['s'], [] => match dialect with
    | .sh => .wrong 2 "No arg for -s option".toList
    | .bash => .wrong 1 "-s: option requires an argument".toList
  | [], targets | ['-'], targets => .send 15 targets
  | c :: more, targets => match dialect with
    | .sh => if c = 's' then named more targets
      else .wrong 2 ("Illegal option -".toList ++ [c])
    | .bash => if [c] = ['n'] ∧ more = [] then named (targets.headD []) targets.tail
      else unknown (c :: more)

def ofWords (dialect : Dialect) : List Octets → Request
  | ('-' :: o) :: rest =>
    match ofText? o with
    | some n => .send n rest
    | none => .ofOption dialect o rest
  | targets => .send 15 targets

end Request

def isNumber (o : Octets) : Bool := !o.isEmpty && o.all Char.isDigit

def jobOf? (o : Octets) : Execution (Option Job) := do
  let r : Room ← get
  match o with
  | '%' :: digits =>
    if isNumber digits then return r.jobs[Format.natOf digits - 1]?
    else if digits ∈ [[], ['%'], ['+']] then return r.jobs.getLast?
    else return none
  | _ => return r.jobs.find? fun j => isNumber o && j.pid = Format.natOf o

def sendAll (complain : Octets → Execution Unit) (n : Nat) : List Octets → Execution Nat
  | [] => return 0
  | target :: rest => do
    let rich := (← get).dialect = .bash
    if target.head? = some '%' then
      match ← jobOf? target with
      | some job =>
        if ← strike n job.pid then return ← sendAll complain n rest
        complain (if rich then target ++ ": no such job".toList else "No such process\n".toList)
        return 1
      | none =>
        complain (if rich then target ++ ": no such job".toList
          else "No such job: ".toList ++ target)
        return if rich then 1 else 2
    if !isNumber target then
      complain (if rich then target ++ ": arguments must be process or job IDs".toList
        else "Illegal number: ".toList ++ target)
      if !rich then return 2
      discard (sendAll complain n rest)
      return 1
    let pid := Format.natOf target
    let r : Room ← get
    if pid = r.pid || r.ancestors.any fun a => a.pid = pid then
      match r.beside with
      | some (job, _) => if pid < job then schedule job (.strike pid n) else arrive pid n
      | none => arrive pid n
      sendAll complain n rest
    else if ← strike n pid then sendAll complain n rest
    else
      complain (if rich then ['('] ++ target ++ ") - No such process".toList
        else "No such process\n".toList)
      discard (sendAll complain n rest)
      return 1

def explain (complain : Octets → Execution Unit) (word : Octets) : Execution Nat := do
  let rich := (← get).dialect = .bash
  let n := Format.natOf word
  let signal := if 128 < n then n - 128 else n
  match isNumber word, if signal = 0 then none else name? signal with
  | true, some name =>
    writeLine 1 name.toList
    return 0
  | true, none =>
    complain (if rich then word ++ ": invalid signal specification".toList
      else "invalid signal number or exit status: ".toList ++ word)
    return if rich then 1 else 2
  | false, _ =>
    if !rich then
      complain ("Illegal number: ".toList ++ word)
      return 2
    match ofText? word with
    | some n =>
      writeLine 1 (Octets.ofNat n)
      return 0
    | none =>
      complain (word ++ ": invalid signal specification".toList)
      return 1

def kill : Program := fun arguments => do
  let say (text : Octets) : Execution Unit := complain ("kill: ".toList ++ text)
  let dialect := (← get).dialect
  match Request.ofWords dialect arguments with
  | .send _ [] =>
    if dialect = .bash then writeLine 2 ("kill: ".toList ++ Request.usage dialect)
    else say (Request.usage dialect)
    return 2
  | .send n targets => sendAll say n targets
  | .explain [] =>
    for n in List.range 31 do
      if let some name := name? (n + 1) then writeLine 1 name.toList
    return 0
  | .explain words =>
    let mut status := 0
    for word in words do
      let n ← explain say word
      status := max status n
    return status
  | .wrong status text =>
    say text
    return status

def failure : Nat := 1000

def occasion? (dialect : Dialect) (o : Octets) : Option Nat :=
  let name := o.map Char.toUpper
  let name := if "SIG".toList.isPrefixOf name && dialect = .bash then name.drop 3 else name
  if dialect = .bash && name = "ERR".toList then some failure else ofText? name

def provide (action : Option Octets) : List Octets → Execution Nat
  | [] => return 0
  | o :: rest => do
    let dialect := (← get).dialect
    match occasion? dialect o with
    | none =>
      match dialect with
      | .sh => writeLine 2 ("trap: ".toList ++ o ++ ": bad trap".toList)
      | .bash =>
        complain ("trap: ".toList ++ o ++ ": invalid signal specification".toList)
        discard (provide action rest)
      return 1
    | some n =>
      modify fun r =>
        { r with traps := (action.map fun a => (n, a)).toList ++ r.traps.filter fun t => t.1 ≠ n }
      provide action rest

def list : Execution Nat := do
  let r : Room ← get
  for n in List.range bound ++ [failure] do
    if let some action := r.traps.lookup n then
      let name := if n = failure then "ERR" else (name? n).getD ""
      let name := if r.dialect = .bash ∧ n ≠ 0 ∧ n ≠ failure then "SIG" ++ name else name
      let quoted := action.flatMap fun c => if c = '\'' then "'\\''".toList else [c]
      writeLine 1 ("trap -- '".toList ++ quoted ++ ("' " ++ name).toList)
  return 0

def trap : Program := fun arguments => do
  let r : Room ← get
  match r.dialect, arguments with
  | .sh, ('-' :: c :: _) :: _ =>
    if c ≠ '-' then
      complain ("trap: Illegal option -".toList ++ [c])
      throw (.ended (.exited 2))
  | _, _ => pure ()
  let arguments := if arguments.head? = some ['-', '-'] then arguments.drop 1 else arguments
  match arguments with
  | [] | ['-', 'p'] :: _ => list
  | [o] => provide none [o]
  | action :: signals =>
    if isNumber action then provide none arguments
    else if action = ['-'] then provide none signals
    else provide (some action) signals

end MutationPipeline.Rehearsal.Shell.Signal
