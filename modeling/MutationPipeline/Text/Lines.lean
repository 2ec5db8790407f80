/-!
Streams of bytes as lines. A line ends with a line feed; what follows the last line feed is a line
too unless it is empty. A carriage return in front of a line feed belongs to the end of the line.
-/
namespace MutationPipeline.Text

structure Line where
  bytes : List UInt8
  ended : Bool := true
  deriving DecidableEq, Repr

def lineFeed : UInt8 := 10

def carriageReturn : UInt8 := 13

namespace Line

def content (l : Line) : List UInt8 :=
  if l.ended && l.bytes.getLast? = some carriageReturn then l.bytes.dropLast else l.bytes

def text? (l : Line) : Option String := String.fromUTF8? ⟨l.content.toArray⟩

def ofText (s : String) : Line := ⟨s.toUTF8.toList, true⟩

end Line

/-- The next line of a stream and what comes after it; none at the end. -/
def nextLine (bytes : List UInt8) : Option (Line × List UInt8) :=
  match bytes.span (· ≠ lineFeed) with
  | ([], []) => none
  | (line, []) => some (⟨line, false⟩, [])
  | (line, _ :: rest) => some (⟨line, true⟩, rest)

def lines : List UInt8 → List Line
  | [] => []
  | b :: rest =>
    if b = lineFeed then ⟨[], true⟩ :: lines rest
    else match lines rest with
      | [] => [⟨[b], false⟩]
      | line :: more => { line with bytes := b :: line.bytes } :: more

/-- What is read of a stream. A line that is no text cannot be read. Of a stream that breaks off
nothing is read behind its last line feed. -/
def reads (bytes : List UInt8) (broken : Bool) : List (Option String) :=
  if broken then ((lines bytes).filter Line.ended).map Line.text? ++ [none]
  else (lines bytes).map Line.text?

end MutationPipeline.Text
