import MutationPipeline.Mutant.Result
import MutationPipeline.Json.Tagged

/-!
Mutants, verdicts, test runs and results as documents.
-/
namespace MutationPipeline

open Json

def Status.all : List Status :=
  [.killed, .survived, .noCoverage, .compileError, .runtimeError, .timeout, .ignored]

def Status.codec : Codec Status := Codec.oneOf (Status.all.map fun s => (s.name, s)) Status.name

def Position.codec : Codec Position :=
  ((Record.start Position.mk).required "line" .word32 (·.line)
    |>.required "column" .word32 (·.column)).codec

def Location.codec : Codec Location :=
  ((Record.start Location.mk).required "start" Position.codec (·.start)
    |>.required "end" Position.codec (·.stop)).codec

def Mutant.record : Record Mutant Mutant :=
  (Record.start Mutant.mk).required "id" .text (·.id)
    |>.required "file_name" .text (·.fileName)
    |>.defaulted "location" .nowhere Location.codec (·.location)
    |>.defaulted "mutator_name" "" .text (·.mutator)
    |>.defaulted "replacement" "" .text (·.replacement)
    |>.defaulted "status" none Status.codec.option (·.status)
    |>.defaulted "status_reason" none Codec.text.option (·.statusReason)

def Mutant.codec : Codec Mutant := Mutant.record.codec

def CoveredMutant.coverage : Record CoveredMutant (Mutant → CoveredMutant) :=
  (Record.start fun coveredBy isStatic netTime hits m =>
      CoveredMutant.mk m coveredBy isStatic netTime hits).defaulted
      "covered_by" [] Codec.text.list (·.coveredBy)
    |>.defaulted "static" false .flag (·.isStatic)
    |>.defaulted "estimated_net_time_ms" 0 .double (·.netTime)
    |>.defaulted "hit_count" none Codec.word64.option (·.hits)

def CoveredMutant.codec : Codec CoveredMutant :=
  Flattened.codec ⟨CoveredMutant.coverage, Mutant.record, (·.toMutant)⟩

def Standing.all : List Standing := [.passed, .compileError, .timeout]

def Standing.codec : Codec Standing :=
  Codec.oneOf (Standing.all.map fun s => (s.name, s)) Standing.name

def Verdict.codec : Codec Verdict :=
  ((Record.start Verdict.mk).required "status" Standing.codec (·.standing)
    |>.defaulted "reason" none Codec.text.option (·.reason)).codec

namespace TestRun

def killedRecord : Record (List String × String × UInt32) TestRun :=
  (Record.start TestRun.killed).required "killed_by" Codec.text.list (·.1)
    |>.required "failure_message" .text (·.2.1)
    |>.required "nr_of_tests" .word32 (·.2.2)

def survivedRecord : Record UInt32 TestRun :=
  (Record.start TestRun.survived).required "nr_of_tests" .word32 id

def timeoutRecord : Record (Option String) TestRun :=
  (Record.start TestRun.timeout).defaulted "reason" none Codec.text.option id

def errorRecord : Record String TestRun :=
  (Record.start TestRun.error).required "error_message" .text id

def tagged : Tagged TestRun where
  tag := "status"
  variants := [("killed", .record killedRecord), ("survived", .record survivedRecord),
    ("timeout", .record timeoutRecord), ("error", .record errorRecord)]

def write : TestRun → Json
  | .killed killers message tests =>
    Tagged.document "status" "killed" (killedRecord.members (killers, message, tests))
  | .survived tests => Tagged.document "status" "survived" (survivedRecord.members tests)
  | .timeout reason => Tagged.document "status" "timeout" (timeoutRecord.members reason)
  | .error message => Tagged.document "status" "error" (errorRecord.members message)

def codec : Codec TestRun := ⟨fun _ => tagged.read, write⟩

end TestRun

def MutantResult.codec : Codec MutantResult :=
  ((Record.start MutantResult.mk).required "id" .text (·.id)
    |>.required "file_name" .text (·.fileName)
    |>.required "location" Location.codec (·.location)
    |>.required "mutator_name" .text (·.mutator)
    |>.required "replacement" .text (·.replacement)
    |>.required "status" Status.codec (·.status)
    |>.defaulted "status_reason" none Codec.text.option (·.statusReason)
    |>.defaulted "covered_by" [] Codec.text.list (·.coveredBy)
    |>.defaulted "killed_by" [] Codec.text.list (·.killedBy)
    |>.defaulted "tests_completed" none Codec.word32.option (·.testsCompleted)
    |>.defaulted "static" false .flag (·.isStatic)).codec

end MutationPipeline
