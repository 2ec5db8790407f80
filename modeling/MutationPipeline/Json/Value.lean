/-!
JSON documents as they are read.

A document may be faulty. Its faults stay at the place where they stand, so that whoever walks the
document in reading order meets a fault exactly when a reader of the text would: a value that is
not written out is `broken`, and a container whose end is not reached as it should be is not
`complete`. A document without faults is `intact`.

Two things a value may hold are well written and still not usable: a number beyond every double,
and a string with half of a surrogate pair. They are faults only for those who use the value.
-/
namespace MutationPipeline

/-- A numeral by its value: natural numbers below 2^64 and negative integers from -2^63 on keep
their value, all others are doubles, and some are too large even for that. -/
inductive Numeral where
  | natural (n : Nat)
  | negative (n : Nat)
  | real (x : Float)
  | tooLarge

inductive Json where
  | null
  | bool (b : Bool)
  | number (n : Numeral)
  | string (text : Option String)
  | array (items : List Json) (complete : Bool)
  | object (members : List (Option String × Json)) (complete : Bool)
  | broken

namespace Json

instance : Inhabited Json := ⟨.null⟩

def ofText (s : String) : Json := .string (some s)

def ofNat (n : Nat) : Json := .number (.natural n)

def ofFloat (x : Float) : Json := .number (.real x)

def ofList (items : List Json) : Json := .array items true

def ofMembers (members : List (String × Json)) : Json :=
  .object (members.map fun m => (some m.1, m.2)) true

def ofOption (write : α → Json) : Option α → Json
  | none => .null
  | some x => write x

mutual

def intact : Json → Bool
  | .array items complete => intactItems items && complete
  | .object members complete => intactMembers members && complete
  | .broken => false
  | _ => true

def intactItems : List Json → Bool
  | [] => true
  | item :: rest => item.intact && intactItems rest

def intactMembers : List (Option String × Json) → Bool
  | [] => true
  | (_, value) :: rest => value.intact && intactMembers rest

end

/-- How many containers may stand in each other in a document that is kept. -/
def depthLimit : Nat := 127

mutual

/-- A document can be kept in memory when it is intact, all its strings are text, all its numbers
are in range and no more than `room` containers stand in each other. -/
def keepable (room : Nat) : Json → Bool
  | .array items complete => room ≠ 0 && keepableItems (room - 1) items && complete
  | .object members complete => room ≠ 0 && keepableMembers (room - 1) members && complete
  | .string text => text.isSome
  | .number n => match n with
    | .tooLarge => false
    | _ => true
  | .broken => false
  | _ => true

def keepableItems (room : Nat) : List Json → Bool
  | [] => true
  | item :: rest => item.keepable room && keepableItems room rest

def keepableMembers (room : Nat) : List (Option String × Json) → Bool
  | [] => true
  | (key, value) :: rest => key.isSome && value.keepable room && keepableMembers room rest

end

end Json

end MutationPipeline
