import MutationPipeline.Json.Codec

/-!
Records: a fixed list of named fields, written as an object in the order of their declaration.

An object is read member by member. A member with a field's name is read as that field, and a
second one is refused; any other member only has to be well written. A field that was not met gets
its default or, if it has none, is missing; of several missing fields the first declared is named.
So the order of the members and members of other names do not matter for what is read.

A record may also come as an array of its fields in order. At its end, fields with a default of
their own may be left out.
-/
namespace MutationPipeline.Json

/-- A field as the members of an object are checked against it. `omissible` says whether it may be
left out of an array. -/
structure Field where
  name : String
  omissible : Bool
  check : Origin → Json → Except Complaint Unit

/-- A record with fields taken from `σ` that are put together to an `α`. `build` puts it together
from the documents that were found under the names of its fields. -/
structure Record (σ α : Type) where
  fields : List Field
  build : Origin → (String → Option Json) → Except Complaint α
  members : σ → List (String × Json)

namespace Record

def start (make : α) : Record σ α where
  fields := []
  build _ _ := .ok make
  members _ := []

/-- Adds a field; `absent` says what its value is when it was not met. -/
def field (r : Record σ (β → α)) (name : String) (c : Codec β) (part : σ → β)
    (omissible : Bool) (absent : Except Complaint β) : Record σ α where
  fields := r.fields ++ [⟨name, omissible, fun origin j => (c.read origin j).map fun _ => ()⟩]
  build origin found := do
    let make ← r.build origin found
    let x ← match found name with
      | some j => c.read origin j
      | none => absent
    .ok (make x)
  members s := r.members s ++ [(name, c.write (part s))]

def required (r : Record σ (β → α)) (name : String) (c : Codec β) (part : σ → β) : Record σ α :=
  r.field name c part false (.error (.missingField name))

def defaulted (r : Record σ (β → α)) (name : String) (default : β) (c : Codec β) (part : σ → β) :
    Record σ α :=
  r.field name c part true (.ok default)

/-- A field that may be absent from an object but has its place in an array. -/
def nullable (r : Record σ (Option β → α)) (name : String) (c : Codec β) (part : σ → Option β) :
    Record σ α :=
  r.field name c.option part false (.ok none)

def field? (fields : List Field) (name : String) : Option Field :=
  fields.find? fun f => f.name = name

/-- Checks the members of an object in order; `met` are the fields met so far. -/
def checkMembers (fields : List Field) (origin : Origin) :
    List String → List (Option String × Json) → Except Complaint Unit
  | _, [] => .ok ()
  | _, (none, _) :: _ => .error .malformed
  | met, (some key, j) :: rest =>
    match field? fields key with
    | none => if j.intact then checkMembers fields origin met rest else .error .malformed
    | some f =>
      if key ∈ met then .error (.duplicateField key) else do
        f.check origin j
        checkMembers fields origin (key :: met) rest

def checkItems (origin : Origin) : List Field → List Json → Except Complaint Unit
  | [], [] => .ok ()
  | [], _ :: _ => .error .malformed
  | f :: fields, [] => if f.omissible then checkItems origin fields [] else .error .malformed
  | f :: fields, j :: rest => do
    f.check origin j
    checkItems origin fields rest

def memberNamed (members : List (Option String × Json)) (name : String) : Option Json :=
  members.lookup (some name)

def named (fields : List Field) (items : List Json) : List (Option String × Json) :=
  (fields.zip items).map fun p => (some p.1.name, p.2)

def readMembers (r : Record σ α) (origin : Origin) (members : List (Option String × Json))
    (complete : Bool) : Except Complaint α := do
  checkMembers r.fields origin [] members
  if complete then r.build origin (memberNamed members) else .error .malformed

def readItems (r : Record σ α) (origin : Origin) (items : List Json) (complete : Bool) :
    Except Complaint α := do
  checkItems origin r.fields items
  if complete then r.build origin (memberNamed (named r.fields items)) else .error .malformed

def read (r : Record σ α) (origin : Origin) : Json → Except Complaint α
  | .object members complete => r.readMembers origin members complete
  | .array items complete => r.readItems origin items complete
  | _ => .error .malformed

def codec (r : Record α α) : Codec α where
  read := r.read
  write x := ofMembers (r.members x)

end Record

end MutationPipeline.Json
