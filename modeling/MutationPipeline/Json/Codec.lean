import MutationPipeline.Json.Reader
import MutationPipeline.Json.Printer
import MutationPipeline.Keyed

/-!
Values of a type as documents: a codec reads and writes them.

Reading walks the document in the order in which it is written, so of two complaints the one whose
cause stands first is made. Only a complaint about a name has a text: a field that is missing, a
field that is repeated, a variant that is not known.
-/
namespace MutationPipeline

inductive Complaint where
  | missingField (name : String)
  | duplicateField (name : String)
  | unknownVariant (name : String) (known : List String)
  | malformed
  deriving DecidableEq, Repr

namespace Complaint

def marked (name : String) : String := "`" ++ name ++ "`"

def expected : List String → String
  | [a] => "expected " ++ marked a
  | [a, b] => "expected " ++ marked a ++ " or " ++ marked b
  | names => "expected one of " ++ ", ".intercalate (names.map marked)

def message? : Complaint → Option String
  | .missingField name => some ("missing field " ++ marked name)
  | .duplicateField name => some ("duplicate field " ++ marked name)
  | .unknownVariant name known =>
    some ("unknown variant " ++ marked name ++ ", " ++ expected known)
  | .malformed => none

def text (c : Complaint) : String := c.message?.getD "<json>"

end Complaint

namespace Json

/-- How a document comes to its reader: straight from its text, as a value that stands on its own,
or as a part that was held back until the type of its container was known. -/
inductive Origin where
  | text
  | value
  | held
  deriving DecidableEq, Repr

structure Codec (α : Type) where
  read : Origin → Json → Except Complaint α
  write : α → Json

namespace Codec

def text : Codec String where
  read _
    | .string (some s) => .ok s
    | _ => .error .malformed
  write := ofText

def flag : Codec Bool where
  read _
    | .bool b => .ok b
    | _ => .error .malformed
  write := .bool

def word32 : Codec UInt32 where
  read _
    | .number (.natural n) => if n < Nat.pow 2 32 then .ok (UInt32.ofNat n) else .error .malformed
    | _ => .error .malformed
  write n := ofNat n.toNat

def word64 : Codec UInt64 where
  read _
    | .number (.natural n) => if n < Nat.pow 2 64 then .ok (UInt64.ofNat n) else .error .malformed
    | _ => .error .malformed
  write n := ofNat n.toNat

def double : Codec Float where
  read _
    | .number (.natural n) => .ok (UInt64.ofNat n).toFloat
    | .number (.negative n) => .ok (-(UInt64.ofNat n).toFloat)
    | .number (.real x) => .ok x
    | _ => .error .malformed
  write := ofFloat

def option (c : Codec α) : Codec (Option α) where
  read origin
    | .null => .ok none
    | j => (c.read origin j).map some
  write := ofOption c.write

def list (c : Codec α) : Codec (List α) where
  read origin
    | .array items complete => do
      let xs ← items.mapM (c.read origin)
      if complete then .ok xs else .error .malformed
    | _ => .error .malformed
  write xs := ofList (xs.map c.write)

def readEntry (c : Codec α) (origin : Origin) :
    Option String × Json → Except Complaint (String × α)
  | (some key, j) => do .ok (key, ← c.read origin j)
  | (none, _) => .error .malformed

def keyed (c : Codec α) : Codec (Keyed α) where
  read origin
    | .object members complete => do
      let entries ← members.mapM (c.readEntry origin)
      if complete then .ok (Keyed.ofList entries) else .error .malformed
    | _ => .error .malformed
  write xs := ofMembers (xs.entries.map fun e => (e.1, c.write e.2))

def variant (variants : List (String × α)) (name : String) : Except Complaint α :=
  match variants.lookup name with
  | some x => .ok x
  | none => .error (.unknownVariant name (variants.map (·.1)))

/-- What may stand beside the name of a variant without content. -/
def isUnit (origin : Origin) : Json → Bool
  | .null => true
  | .object [] complete => complete && origin = .held
  | _ => false

/-- One of several names, also written as an object with the name as its only key. In a text the
name is looked up as soon as it is read, else only once it is known to be the only one. -/
def oneOf (variants : List (String × α)) (name : α → String) : Codec α where
  read origin
    | .string (some s) => variant variants s
    | .object ((some s, j) :: rest) complete => do
      if origin ≠ .text ∧ rest ≠ [] then .error .malformed else
      let x ← variant variants s
      if isUnit origin j && rest.isEmpty && complete then .ok x else .error .malformed
    | _ => .error .malformed
  write x := ofText (name x)

def parse (c : Codec α) (text : String) : Except Complaint α := do
  let reading := Json.read text
  let x ← c.read .text reading.value
  if reading.ends then .ok x else .error .malformed

def print (c : Codec α) (x : α) : String := (c.write x).compact

end Codec

end Json

end MutationPipeline
