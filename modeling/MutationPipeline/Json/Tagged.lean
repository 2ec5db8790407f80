import MutationPipeline.Json.Record

/-!
Objects some of whose members are held back until the object has ended, and have to be fit to be
kept.

Variants are told apart by a tag: the member under the tag's name says which variant the other
members belong to, wherever in the object it stands. Only in the end the tag is known for sure, so
all others are held back. An array holds the tag first and then the fields in order.

A record may have another record's members among its own, in one object. The members that are not
its own are held back and then read as the other record, which ignores those that neither of the
two knows. Such a record has no array form.
-/
namespace MutationPipeline.Json

structure Content (α : Type) where
  ofMembers : List (Option String × Json) → Except Complaint α
  ofItems : List Json → Except Complaint α

namespace Content

def unit (x : α) : Content α where
  ofMembers _ := .ok x
  ofItems
    | [] => .ok x
    | _ :: _ => .error .malformed

def record (r : Record σ α) : Content α where
  ofMembers members := r.readMembers .held members true
  ofItems items := r.readItems .held items true

end Content

structure Tagged (α : Type) where
  tag : String
  variants : List (String × Content α)

namespace Tagged

def heldRoom : Nat := depthLimit - 1

def named (t : Tagged α) : Json → Except Complaint (Content α)
  | .string (some s) => Codec.variant t.variants s
  | _ => .error .malformed

/-- Goes through the members of an object: the variant once the tag was met, and all others. -/
def gather (t : Tagged α) : Option (Content α) → List (Option String × Json) →
    Except Complaint (Option (Content α) × List (Option String × Json))
  | content, [] => .ok (content, [])
  | _, (none, _) :: _ => .error .malformed
  | content, (some key, j) :: rest =>
    if key = t.tag then
      if content.isSome then .error (.duplicateField key) else do
        let c ← t.named j
        t.gather (some c) rest
    else if j.keepable heldRoom then do
      let (content, others) ← t.gather content rest
      .ok (content, (some key, j) :: others)
    else .error .malformed

def missing (t : Tagged α) : Except Complaint β := .error (.missingField t.tag)

def readMembers (t : Tagged α) (members : List (Option String × Json)) (complete : Bool) :
    Except Complaint α := do
  match ← t.gather none members with
  | (content, others) =>
    if !complete then .error .malformed else
    match content with
    | none => t.missing
    | some c => c.ofMembers others

def readItems (t : Tagged α) (items : List Json) (complete : Bool) : Except Complaint α :=
  match items with
  | [] => if complete then t.missing else .error .malformed
  | tag :: rest => do
    let c ← t.named tag
    if rest.all (keepable heldRoom) && complete then c.ofItems rest else .error .malformed

def read (t : Tagged α) : Json → Except Complaint α
  | .object members complete => t.readMembers members complete
  | .array items complete => t.readItems items complete
  | _ => .error .malformed

def document (tag name : String) (members : List (String × Json)) : Json :=
  ofMembers ((tag, ofText name) :: members)

end Tagged

structure Flattened (σ τ α : Type) where
  own : Record σ (τ → α)
  inner : Record τ τ
  part : σ → τ

namespace Flattened

/-- Goes through the members of an object: checks those of its own fields and returns the others. -/
def gather (fields : List Field) (origin : Origin) :
    List String → List (Option String × Json) → Except Complaint (List (Option String × Json))
  | _, [] => .ok []
  | _, (none, _) :: _ => .error .malformed
  | met, (some key, j) :: rest =>
    match Record.field? fields key with
    | none =>
      if j.keepable Tagged.heldRoom then do
        let others ← gather fields origin met rest
        .ok ((some key, j) :: others)
      else .error .malformed
    | some f =>
      if key ∈ met then .error (.duplicateField key) else do
        f.check origin j
        gather fields origin (key :: met) rest

def read (r : Flattened σ τ α) (origin : Origin) : Json → Except Complaint α
  | .object members complete => do
    let others ← gather r.own.fields origin [] members
    if complete then
      let make ← r.own.build origin (Record.memberNamed members)
      let x ← r.inner.readMembers .held others true
      .ok (make x)
    else .error .malformed
  | _ => .error .malformed

def codec (r : Flattened α τ α) : Codec α where
  read := r.read
  write x := ofMembers (r.inner.members (r.part x) ++ r.own.members x)

end Flattened

end MutationPipeline.Json
