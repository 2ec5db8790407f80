/-!
What is noted while the program works: warnings, and details that help to find a fault.
-/
namespace MutationPipeline

inductive Level where
  | warn
  | debug
  deriving DecidableEq, Repr

structure Note where
  level : Level
  text : String
  deriving DecidableEq, Repr

namespace Note

def warn (text : String) : Note := ⟨.warn, text⟩

def debug (text : String) : Note := ⟨.debug, text⟩

def line (n : Note) : String :=
  match n.level with
  | .warn => "WARN " ++ n.text
  | .debug => "DEBUG " ++ n.text

end Note

end MutationPipeline
