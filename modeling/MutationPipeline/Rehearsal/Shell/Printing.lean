import MutationPipeline.Rehearsal.Shell.Format
import MutationPipeline.Rehearsal.Shell.Options

/-!
Commands that write their arguments: plainly, or as a format says. Both shells have such commands,
and there are programs with the same names; each of the three has a manner of its own.
-/
namespace MutationPipeline.Rehearsal.Shell.Printing

open Execution

structure Plainly where
  escapes : Bool
  ended : Bool := true

namespace Plainly

def adjust (p : Plainly) : Octets → Plainly
  | [] => p
  | 'n' :: rest => adjust { p with ended := false } rest
  | 'e' :: rest => adjust { p with escapes := true } rest
  | _ :: rest => adjust { p with escapes := false } rest

def ofArguments (p : Plainly) : List Octets → Plainly × List Octets
  | ('-' :: letters) :: rest =>
    if letters ≠ [] && letters.all fun c => c ∈ ['n', 'e', 'E'] then
      (p.adjust letters).ofArguments rest
    else (p, ('-' :: letters) :: rest)
  | rest => (p, rest)

end Plainly

def echo (m : Format.Manner) : Program := fun arguments => do
  let (how, words) : Plainly × List Octets := match m, arguments with
    | .sh, ['-', 'n'] :: rest => ({ escapes := true, ended := false }, rest)
    | .sh, rest => ({ escapes := true }, rest)
    | _, rest => Plainly.ofArguments { escapes := false } rest
  let text := Octets.join " " words
  let (text, cut) := if how.escapes then Format.unescape (.ofEcho m) text else (text, false)
  write 1 (if how.ended && !cut then text ++ ['\n'] else text)
  return 0

def present (m : Format.Manner) (pieces : List Format.Piece) : Execution Unit := do
  let complaints : Octets → Execution Unit :=
    if m = .program then Program.say "printf" else fun o => complain ("printf: ".toList ++ o)
  if m = .program then
    for p in pieces do
      match p with
      | .text o => write 1 o
      | .complaint o => complaints o
  else
    for p in pieces do
      if let .complaint o := p then complaints o
    write 1 (textOf pieces)
where
  textOf (pieces : List Format.Piece) : Octets :=
    pieces.flatMap fun
      | .text o => o
      | .complaint _ => []

def usage : Octets := "printf: usage: printf [-v var] format [arguments]".toList

def printf (m : Format.Manner) : Program := fun arguments => do
  let arguments := if arguments.head? = some ['-', '-'] then arguments.drop 1 else arguments
  match m, arguments with
  | .sh, [] =>
    complain "printf: usage: printf format [arg ...]".toList
    return 2
  | .bash, [] =>
    writeLine 2 usage
    return 2
  | .program, [] => Program.refer "printf" 1 "missing operand".toList
  | .sh, ('-' :: c :: _) :: _ =>
    complain ("printf: Illegal option -".toList ++ [c])
    return 2
  | .bash, ['-', 'v'] :: name :: format :: rest =>
    let w := Format.write m format rest
    present m (w.pieces.filter fun p => p matches .complaint _)
    assign name (present.textOf w.pieces)
    return w.status
  | .bash, ('-' :: c :: _) :: _ =>
    complain ("printf: -".toList ++ [c] ++ ": invalid option".toList)
    writeLine 2 usage
    return 2
  | _, format :: rest =>
    let w := Format.write m format rest
    present m w.pieces
    if let (.program, false, next :: _) := (m, w.ended, w.arguments) then
      Program.say "printf" ("warning: ignoring excess arguments, starting with '".toList ++ next ++
        ['\''])
    return w.status

def patience : Nat := 1000

def yes : Program := fun arguments => do
  let line := if arguments.isEmpty then ['y'] else Octets.join " " arguments
  write 1 (List.replicate patience (line ++ ['\n'])).flatten
  throw .endless

end MutationPipeline.Rehearsal.Shell.Printing
