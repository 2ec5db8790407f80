import MutationPipeline.CommandLine.Options

/-!
The help on a program with subcommands, laid out from what is known about their options.

In the short form each option is one line, and the texts start in one column. The long form, used
where the choices of an option are described, puts the text below the option.
-/
namespace MutationPipeline.CommandLine

structure Subcommand where
  name : String
  about : String
  options : List OptionSpec

structure Program where
  name : String
  about : String
  subcommands : List Subcommand

structure Section where
  heading : String
  body : String

namespace Help

def spaces (n : Nat) : String := String.ofList (List.replicate n ' ')

def padded (width : Nat) (s : String) : String := s ++ spaces (width - s.length)

def width (texts : List String) : Nat := texts.foldl (fun n s => max n s.length) 0

def page (about usage : String) (sections : List Section) : String :=
  about ++ "\n\nUsage: " ++ usage ++ "\n" ++
    String.join (sections.map fun s => "\n" ++ s.heading ++ ":\n" ++ s.body ++ "\n")

def listing (entries : List (String × String)) : String :=
  let w := width (entries.map (·.1))
  "\n".intercalate (entries.map fun e => "  " ++ padded w e.1 ++ "  " ++ e.2)

def signature (o : OptionSpec) : String :=
  "--" ++ o.name ++ " <" ++ String.ofList (o.name.toList.map Char.toUpper) ++ ">"

def default? (o : OptionSpec) : Option String := o.otherwise.map fun v => "[default: " ++ v ++ "]"

def choices (o : OptionSpec) : List (String × String) :=
  match o.kind with
  | .oneOf choices => choices
  | _ => []

def hasLongForm (options : List OptionSpec) : Bool := options.any fun o => !(choices o).isEmpty

def shortText (o : OptionSpec) : String :=
  let possible := match choices o with
    | [] => []
    | cs => ["[possible values: " ++ ", ".intercalate (cs.map (·.1)) ++ "]"]
  " ".intercalate ([o.about] ++ (default? o).toList ++ possible)

def margin : String := spaces 10

def longText (o : OptionSpec) : String :=
  let otherwise := match default? o with
    | some d => "\n" ++ margin ++ "\n" ++ margin ++ d
    | none => ""
  let possible := match choices o with
    | [] => ""
    | cs =>
      let w := width (cs.map (·.1))
      "\n\n" ++ margin ++ "Possible values:" ++
        String.join (cs.map fun c =>
          "\n" ++ margin ++ "- " ++ c.1 ++ ": " ++ spaces (w - c.1.length) ++ c.2)
  o.about ++ possible ++ otherwise

def helpText (options : List OptionSpec) (long : Bool) : String :=
  if !hasLongForm options then "Print help"
  else if long then "Print help (see a summary with '-h')"
  else "Print help (see more with '--help')"

def optionList (options : List OptionSpec) (long : Bool) : String :=
  if long && hasLongForm options then
    "\n\n".intercalate
      (options.map (fun o => "      " ++ signature o ++ "\n" ++ margin ++ longText o) ++
        ["  -h, --help\n" ++ margin ++ helpText options long])
  else
    let w := width ("--help" :: options.map signature)
    "\n".intercalate
      (options.map (fun o => "      " ++ padded w (signature o) ++ "  " ++ shortText o) ++
        ["  -h, " ++ padded w "--help" ++ "  " ++ helpText options long])

def usage (options : List OptionSpec) : String :=
  let (required, free) := options.partition (·.required)
  String.join ((if free.isEmpty then [] else [" [OPTIONS]"]) ++
    required.map fun o => " " ++ signature o)

end Help

namespace Program

open Help

def helpAbout : String := "Print this message or the help of the given subcommand(s)"

def help (p : Program) : String :=
  page p.about (p.name ++ " <COMMAND>")
    [⟨"Commands", listing (p.subcommands.map (fun c => (c.name, c.about)) ++
        [("help", helpAbout)])⟩,
      ⟨"Options", optionList [] false⟩]

def helpOn (p : Program) (c : Subcommand) (long : Bool) : String :=
  page c.about (p.name ++ " " ++ c.name ++ usage c.options) [⟨"Options", optionList c.options long⟩]

def helpOnHelp (p : Program) : String :=
  page helpAbout (p.name ++ " help [COMMAND]...")
    [⟨"Arguments", listing [("[COMMAND]...", "Print help for the subcommand(s)")]⟩]

inductive Choice where
  | subcommand (name : String) (given : Given)
  | help (text : String)
  | misuse

def chooseHelp (p : Program) : List String → Choice
  | [] => .help p.help
  | ["help"] => .help p.helpOnHelp
  | [name] =>
    match p.subcommands.find? fun c => c.name = name with
    | some c => .help (p.helpOn c true)
    | none => .misuse
  | _ => .misuse

def choose (p : Program) : List String → Choice
  | [] => .misuse
  | "help" :: rest => p.chooseHelp rest
  | name :: rest =>
    match p.subcommands.find? fun c => c.name = name with
    | some c =>
      match readOptions c.options [] rest with
      | .ok given => .subcommand name given
      | .error (.help long) => .help (p.helpOn c long)
      | .error .misuse => .misuse
    | none =>
      match readOptions [] [] [name] with
      | .error (.help _) => .help p.help
      | _ => .misuse

end Program

end MutationPipeline.CommandLine
