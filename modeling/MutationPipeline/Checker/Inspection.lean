import MutationPipeline.Checker.Message
import MutationPipeline.Text.Quoted

/-!
Replies spelled out for a developer: each part with its name, texts between quotes. Of the replies
only those that are no failure are ever shown so.
-/
namespace MutationPipeline

namespace Inspection

def named (name : String) (parts : List (String × String)) : String :=
  name ++ " \x7b " ++ ", ".intercalate (parts.map fun p => p.1 ++ ": " ++ p.2) ++ " \x7d"

def list (items : List String) : String := "[" ++ ", ".intercalate items ++ "]"

def entries (items : List (String × String)) : String :=
  "\x7b" ++ ", ".intercalate (items.map fun e => Text.quoted e.1 ++ ": " ++ e.2) ++ "\x7d"

def option (inspect : α → String) : Option α → String
  | none => "None"
  | some x => "Some(" ++ inspect x ++ ")"

end Inspection

open Inspection

def Position.inspect (p : Position) : String :=
  named "Position" [("line", toString p.line), ("column", toString p.column)]

def Location.inspect (l : Location) : String :=
  named "Location" [("start", l.start.inspect), ("end", l.stop.inspect)]

def Status.inspect : Status → String
  | .killed => "Killed"
  | .survived => "Survived"
  | .noCoverage => "NoCoverage"
  | .compileError => "CompileError"
  | .runtimeError => "RuntimeError"
  | .timeout => "Timeout"
  | .ignored => "Ignored"

def Mutant.inspect (m : Mutant) : String :=
  named "Mutant" [("id", Text.quoted m.id), ("file_name", Text.quoted m.fileName),
    ("location", m.location.inspect), ("mutator_name", Text.quoted m.mutator),
    ("replacement", Text.quoted m.replacement), ("status", option Status.inspect m.status),
    ("status_reason", option Text.quoted m.statusReason)]

def Standing.inspect : Standing → String
  | .passed => "Passed"
  | .compileError => "CompileError"
  | .timeout => "Timeout"

def Verdict.inspect (v : Verdict) : String :=
  named "CheckResult" [("status", v.standing.inspect), ("reason", option Text.quoted v.reason)]

def Reply.inspect : Reply → String
  | .done => "Done"
  | .checked verdicts =>
    named "Checked" [("results", entries (verdicts.entries.map fun e => (e.1, e.2.inspect)))]
  | .groups gs =>
    named "Groups"
      [("groups", option (fun gs => list (gs.map fun g => list (g.map Mutant.inspect))) gs)]
  | .failed message => named "Failed" [("message", Text.quoted message)]
  | .initFailed checker reason =>
    named "InitFailed" [("checker", Text.quoted checker), ("reason", Text.quoted reason)]

end MutationPipeline
