import MutationPipeline.Rehearsal.Shell.Room

/-!
The options of programs: letters behind a dash, several of them together, some with a value, and
long names behind two dashes. Options may stand among the operands, unless a program takes all that
follows its first operand for operands.
-/
namespace MutationPipeline.Rehearsal.Shell

structure Options where
  plain : List Char := []
  valued : List Char := []
  long : List (String × Char) := []
  first : Bool := false

structure Given where
  options : List (Char × Octets) := []
  operands : List Octets := []

namespace Given

def has (g : Given) (c : Char) : Bool := g.options.any fun o => o.1 = c

def values (g : Given) (c : Char) : List Octets :=
  (g.options.filter fun o => o.1 = c).map (·.2)

def value? (g : Given) (c : Char) : Option Octets := (g.values c).getLast?

def last? (g : Given) (cs : List Char) : Option Char :=
  ((g.options.map (·.1)).filter (· ∈ cs)).getLast?

end Given

inductive Objection where
  | unknown (c : Char)
  | unknownName (text : Octets)
  | noValue (c : Char)
  | noValueFor (name : String)
  | needless (name : String)
  deriving DecidableEq, Repr

def Objection.message : Objection → Octets
  | .unknown c => "invalid option -- '".toList ++ [c, '\'']
  | .unknownName text => "unrecognized option '--".toList ++ text ++ ['\'']
  | .noValue c => "option requires an argument -- '".toList ++ [c, '\'']
  | .noValueFor name => ("option '--" ++ name ++ "' requires an argument").toList
  | .needless name => ("option '--" ++ name ++ "' doesn't allow an argument").toList

namespace Options

def letters (o : Options) : Octets → Except Objection (List (Char × Octets) × Bool)
  | [] => .ok ([], false)
  | c :: rest =>
    if c ∈ o.valued then .ok ([(c, rest)], rest = [])
    else if c ∈ o.plain then
      (o.letters rest).map fun (more, waits) => ((c, []) :: more, waits)
    else .error (.unknown c)

def name? (o : Options) (text : String) : Option (String × Char) :=
  match o.long.find? fun n => n.1 = text with
  | some n => some n
  | none =>
    match o.long.filter fun n => text.toList.isPrefixOf n.1.toList with
    | n :: others => if others.all fun m => m.2 = n.2 then some n else none
    | [] => none

def ofArguments (o : Options) : List Octets → Except Objection Given
  | [] => .ok {}
  | ['-', '-'] :: rest => .ok { operands := rest }
  | ('-' :: '-' :: text) :: rest => do
    let (name, value) := text.span (· ≠ '=')
    match o.name? (Octets.text name) with
    | none => throw (.unknownName name)
    | some (name, c) =>
      match decide (c ∈ o.valued), value, rest with
      | false, [], rest => add [(c, [])] (← o.ofArguments rest)
      | false, _ :: _, _ => throw (.needless name)
      | true, _ :: value, rest => add [(c, value)] (← o.ofArguments rest)
      | true, [], value :: rest => add [(c, value)] (← o.ofArguments rest)
      | true, [], [] => throw (.noValueFor name)
  | ('-' :: c :: cs) :: rest => do
    let (found, waits) ← o.letters (c :: cs)
    match waits, rest with
    | false, rest => add found (← o.ofArguments rest)
    | true, value :: rest =>
      let found := found.dropLast ++ (found.getLast?.map fun f => (f.1, value)).toList
      add found (← o.ofArguments rest)
    | true, [] => throw (.noValue ((found.getLast?.map (·.1)).getD c))
  | operand :: rest => do
    if o.first then return { operands := operand :: rest }
    let more ← o.ofArguments rest
    return { more with operands := operand :: more.operands }
where
  add (found : List (Char × Octets)) (more : Given) : Except Objection Given :=
    .ok { more with options := found ++ more.options }

end Options

abbrev Program := List Octets → Execution Nat

namespace Program

open Execution

def say (program : String) (text : Octets) : Execution Unit :=
  writeLine 2 ((program ++ ": ").toList ++ text)

def refer (program : String) (status : Nat) (text : Octets) : Execution Nat := do
  say program text
  writeLine 2 ("Try '" ++ program ++ " --help' for more information.").toList
  return status

/-- A program with options: what it knows of them, its status if it does not know one, and what it
does with those that are given. -/
def withOptions (program : String) (o : Options) (wrong : Nat) (act : Given → Execution Nat) :
    Program := fun arguments =>
  match o.ofArguments arguments with
  | .ok given => act given
  | .error objection => refer program wrong objection.message

end Program

end MutationPipeline.Rehearsal.Shell
