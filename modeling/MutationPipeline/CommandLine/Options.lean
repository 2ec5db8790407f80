/-!
The words of a command line as options with values.

An option is given as `--name value` or `--name=value`, at most once. A word after an option is its
value unless it starts with a dash; a dash alone is a value. Words are read from left to right, so a
request for help counts only if nothing in front of it was wrong.
-/
namespace MutationPipeline.CommandLine

inductive ValueKind where
  | path
  | number
  | oneOf (choices : List (String × String))

structure OptionSpec where
  name : String
  kind : ValueKind
  about : String
  required : Bool := false
  otherwise : Option String := none

inductive Refusal where
  | misuse
  | help (long : Bool)
  deriving DecidableEq, Repr

inductive Word where
  | plain
  | short (letter : Char)
  | long (name : String) (value : Option String)
  | barrier
  deriving DecidableEq, Repr

namespace Word

def ofText (s : String) : Word :=
  match s.toList with
  | ['-', '-'] => .barrier
  | '-' :: '-' :: rest =>
    match rest.span (· ≠ '=') with
    | (name, _ :: value) => .long (String.ofList name) (some (String.ofList value))
    | (name, []) => .long (String.ofList name) none
  | '-' :: letter :: _ => .short letter
  | _ => .plain

end Word

def number? (s : String) : Option UInt64 :=
  let digits := match s.toList with
    | '+' :: rest => rest
    | all => all
  if digits ≠ [] ∧ digits.all Char.isDigit then
    let n := digits.foldl (fun n c => 10 * n + (c.toNat - '0'.toNat)) 0
    if n < Nat.pow 2 64 then some (UInt64.ofNat n) else none
  else none

def ValueKind.accepts : ValueKind → String → Bool
  | .path, value => !value.isEmpty
  | .number, value => (number? value).isSome
  | .oneOf choices, value => choices.any fun c => c.1 = value

abbrev Given := List (String × String)

def complete (options : List OptionSpec) (given : Given) : Except Refusal Given :=
  if options.all fun o => !o.required || (given.lookup o.name).isSome then .ok given
  else .error .misuse

def take (options : List OptionSpec) (given : Given) (name value : String) :
    Except Refusal Given :=
  match options.find? fun o => o.name = name with
  | some o =>
    if (given.lookup name).isNone ∧ o.kind.accepts value then .ok (given ++ [(name, value)])
    else .error .misuse
  | none => .error .misuse

def readOptions (options : List OptionSpec) (given : Given) : List String → Except Refusal Given
  | [] => complete options given
  | word :: rest =>
    match Word.ofText word with
    | .plain => .error .misuse
    | .short letter => .error (if letter = 'h' then .help false else .misuse)
    | .barrier => if rest.isEmpty then complete options given else .error .misuse
    | .long "help" value => .error (if value.isNone then .help true else .misuse)
    | .long name (some value) => do readOptions options (← take options given name value) rest
    | .long name none =>
      match rest with
      | [] => .error .misuse
      | value :: rest => do
        if Word.ofText value = .plain then
          readOptions options (← take options given name value) rest
        else .error .misuse

end MutationPipeline.CommandLine
