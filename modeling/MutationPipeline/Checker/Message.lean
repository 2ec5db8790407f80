import MutationPipeline.Mutant.Document
import MutationPipeline.Worker.Error

/-!
What is said between a checker's process and the process that uses it: one request a line, and one
reply a line to each.
-/
namespace MutationPipeline

open Json

abbrev Verdicts := Keyed Verdict

inductive Request where
  | init
  | setActive (name : String)
  | check (mutants : List Mutant)
  | createGroups (mutants : List Mutant)
  deriving DecidableEq

inductive Reply where
  | done
  | checked (verdicts : Verdicts)
  | groups (gs : Option (List (List Mutant)))
  | failed (message : String)
  | initFailed (checker reason : String)

namespace Request

def nameRecord : Record String Request :=
  (Record.start Request.setActive).required "name" .text id

def checkRecord : Record (List Mutant) Request :=
  (Record.start Request.check).required "mutants" Mutant.codec.list id

def groupsRecord : Record (List Mutant) Request :=
  (Record.start Request.createGroups).required "mutants" Mutant.codec.list id

def tagged : Tagged Request where
  tag := "kind"
  variants := [("init", .unit .init), ("set_active_checker", .record nameRecord),
    ("check", .record checkRecord), ("create_groups", .record groupsRecord)]

def write : Request → Json
  | .init => Tagged.document "kind" "init" []
  | .setActive name => Tagged.document "kind" "set_active_checker" (nameRecord.members name)
  | .check mutants => Tagged.document "kind" "check" (checkRecord.members mutants)
  | .createGroups mutants => Tagged.document "kind" "create_groups" (groupsRecord.members mutants)

def codec : Codec Request := ⟨fun _ => tagged.read, write⟩

end Request

namespace Reply

def checkedRecord : Record Verdicts Reply :=
  (Record.start Reply.checked).required "results" Verdict.codec.keyed id

def groupsRecord : Record (Option (List (List Mutant))) Reply :=
  (Record.start Reply.groups).nullable "groups" Mutant.codec.list.list id

def failedRecord : Record String Reply :=
  (Record.start Reply.failed).required "message" .text id

def initFailedRecord : Record (String × String) Reply :=
  (Record.start Reply.initFailed).required "checker" .text (·.1) |>.required "reason" .text (·.2)

def tagged : Tagged Reply where
  tag := "kind"
  variants := [("done", .unit .done), ("checked", .record checkedRecord),
    ("groups", .record groupsRecord), ("failed", .record failedRecord),
    ("init_failed", .record initFailedRecord)]

def write : Reply → Json
  | .done => Tagged.document "kind" "done" []
  | .checked verdicts => Tagged.document "kind" "checked" (checkedRecord.members verdicts)
  | .groups gs => Tagged.document "kind" "groups" (groupsRecord.members gs)
  | .failed message => Tagged.document "kind" "failed" (failedRecord.members message)
  | .initFailed checker reason =>
    Tagged.document "kind" "init_failed" (initFailedRecord.members (checker, reason))

def codec : Codec Reply := ⟨fun _ => tagged.read, write⟩

/-- The reply to a call that failed. Only a failed start keeps its parts, all else is sent as its
text. -/
def ofError : WorkerError → Reply
  | .init checker reason => .initFailed checker reason
  | e => .failed e.message

def result : Reply → Except WorkerError Reply
  | .failed message => .error (.rejected message)
  | .initFailed checker reason => .error (.init checker reason)
  | r => .ok r

end Reply

end MutationPipeline
