/-!
Shell scripts as they are understood here: commands, joined by operators and control structures,
and the words they are made of. A text is a list of octets, each of which is kept as the character
with its number.
-/
namespace MutationPipeline.Rehearsal.Shell

abbrev Octets := List Char

instance octetsLawful : LawfulBEq Octets := inferInstance

instance charLawful : LawfulBEq (Option Char) := inferInstance

namespace Octets

def inOrder (a b : Octets) : Bool := !b.lex a fun c d => c < d

def ofBytes (bytes : List UInt8) : Octets := bytes.map fun b => Char.ofNat b.toNat

def toBytes (o : Octets) : List UInt8 := o.map fun c => UInt8.ofNat c.toNat

def ofText (s : String) : Octets := ofBytes s.toUTF8.toList

def text (o : Octets) : String := (String.fromUTF8? ⟨(toBytes o).toArray⟩).getD ""

def ofNat (n : Nat) : Octets := (toString n).toList

def join (between : String) (texts : List Octets) : Octets := between.toList.intercalate texts

end Octets

inductive Dialect where
  | sh
  | bash
  deriving DecidableEq, Repr

inductive Spot where
  | first
  | everywhere
  | start
  | finish
  deriving DecidableEq, Repr

inductive Modifier where
  | length
  | otherwise (orEmpty : Bool)
  | assigned (orEmpty : Bool)
  | required (orEmpty : Bool)
  | unknown
  | instead (orEmpty : Bool)
  | withoutStart (longest : Bool)
  | withoutEnd (longest : Bool)
  | replaced (spot : Spot)
  | sliced
  | cased (upper all : Bool)
  | named
  deriving DecidableEq, Repr

inductive RedirectKind where
  | write
  | append
  | read
  | copy
  | document
  deriving DecidableEq, Repr

inductive CaseEnd where
  | stop
  | through
  | further
  deriving DecidableEq, Repr

mutual

inductive Part where
  | literal (quoted : Bool) (text : Octets)
  | parameter (quoted : Bool) (name : Octets) (place : Option Place)
      (change : Option (Modifier × List (List Part)))
  | indirect (quoted : Bool) (name : Octets) (change : Option (Modifier × List (List Part)))
  | arithmetic (quoted : Bool) (expression : List Part)
  | substitution (quoted : Bool) (body : List Command)
  | source (body : List Command)

inductive Place where
  | at (index : List Part)
  | all (joined : Bool)

inductive Assignment where
  | value (name : Octets) (index : Option (List Part)) (append : Bool) (value : List Part)
  | elements (name : Octets) (append : Bool) (items : List (Option (List Part) × List Part))

inductive Redirect where
  | mk (descriptor : Nat) (kind : RedirectKind) (target : List Part) (shown : Octets)

inductive Condition where
  | word (w : List Part)
  | unary (operator : String) (w : List Part)
  | binary (operator : String) (a b : List Part)
  | negated (c : Condition)
  | both (a b : Condition)
  | either (a b : Condition)

inductive Command where
  | simple (line : Nat) (assignments : List Assignment) (words : List (List Part))
      (redirects : List Redirect)
  | declare (line : Nat) (words : List (List Part)) (assignments : List Assignment)
      (redirects : List Redirect)
  | negated (c : Command)
  | pipe (source sink : Command)
  | both (first second : Command)
  | either (first second : Command)
  | group (body : List Command)
  | apart (body : List Command)
  | background (c : Command)
  | choice (test body otherwise : List Command)
  | loop (asked : Bool) (test body : List Command)
  | each (line : Nat) (name : Octets) (words : Option (List (List Part))) (shown : Octets)
      (body : List Command)
  | counting (line : Nat) (first test step : List Part) (body : List Command)
  | select (subject : List Part) (shown : Octets)
      (cases : List (List (List Part) × List Command × CaseEnd))
  | condition (line : Nat) (c : Condition)
  | arithmetic (line : Nat) (expression : List Part)
  | define (name : Octets) (body : Command)
  | redirected (line : Nat) (c : Command) (redirects : List Redirect)

end

abbrev Phrase := List Part

instance : Inhabited Command := ⟨.group []⟩

end MutationPipeline.Rehearsal.Shell
