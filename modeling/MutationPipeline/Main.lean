import MutationPipeline.CommandLine.Command

/-!
The program: a command line is run on the files of the machine.
-/
namespace MutationPipeline

open CommandLine

def readFile (path : String) : IO (Except ReadError String) := do
  try
    match String.fromUTF8? (← IO.FS.readBinFile path) with
    | some text => return .ok text
    | none => return .error .notText
  catch e => return .error (.other (toString e))

def isReadable (path : String) : IO Bool := do
  try
    discard (IO.FS.readBinFile path)
    return true
  catch _ => return false

def countProcessors : IO Nat := do
  match ← readFile "/proc/cpuinfo" with
  | .ok text => return max 1 ((text.splitOn "\n").countP fun line => line.startsWith "processor")
  | .error _ => return 1

end MutationPipeline

open MutationPipeline CommandLine in
def main (words : List String) : IO UInt32 := do
  let setting : Setting IO :=
    { disk := { isFile := isReadable, read := readFile }
      processors := ← countProcessors
      fileLimit := 1000000 }
  let c ← run setting words
  (← IO.getStdout).putStr c.output
  for remark in c.remarks do (← IO.getStderr).putStrLn remark
  return c.code
