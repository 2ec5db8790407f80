import MutationPipeline.CommandLine.Help
import MutationPipeline.Config
import MutationPipeline.Dependency.Grouping
import MutationPipeline.Report

/-!
The commands: dividing mutants into groups, reporting on results, and sharing out workers. Their
input comes from files, and each prints one text or fails.
-/
namespace MutationPipeline.CommandLine

open Json

inductive Layout where
  | markdown
  | document
  deriving DecidableEq, Repr

inductive Command where
  | groups (mutants : String) (manifest : Option String)
  | summary (results : String) (layout : Layout)
  | budget (config : Option String) (concurrency : Option UInt64)
  deriving DecidableEq, Repr

def layouts : List (String × Layout) := [("md", .markdown), ("json", .document)]

def program : Program where
  name := "mutant-sieve"
  about := "Inspect mutant grouping and summarize mutation test results"
  subcommands := [
    { name := "groups"
      about := "Partition mutants into groups that can be checked together"
      options := [
        { name := "mutants", kind := .path, about := "JSON array of mutants", required := true },
        { name := "manifest", kind := .path,
          about := "JSON object mapping each file to its direct dependencies. " ++
            "Without it, source files are read from disk and their relative imports followed" }] },
    { name := "summary"
      about := "Summarize a JSON array of mutant results"
      options := [
        { name := "results", kind := .path, about := "JSON array of mutant results",
          required := true },
        { name := "format", kind := .oneOf [("md", "Markdown"), ("json", "JSON")],
          about := "Output format", otherwise := some "md" }] },
    { name := "budget"
      about := "Show how a worker budget splits between checkers and test runners"
      options := [
        { name := "config", kind := .path,
          about := "Executor configuration (JSON). Defaults apply to missing fields" },
        { name := "concurrency", kind := .number, about := "Override the total concurrency" }] }]

def Command.ofGiven? (name : String) (given : Given) : Option Command :=
  match name with
  | "groups" => do return .groups (← given.lookup "mutants") (given.lookup "manifest")
  | "summary" => do
    return .summary (← given.lookup "results")
      (← layouts.lookup ((given.lookup "format").getD "md"))
  | "budget" => some (.budget (given.lookup "config") ((given.lookup "concurrency").bind number?))
  | _ => none

inductive Invocation where
  | command (c : Command)
  | help (text : String)
  | misuse

def Invocation.ofWords (words : List String) : Invocation :=
  match program.choose words with
  | .subcommand name given =>
    match Command.ofGiven? name given with
    | some c => .command c
    | none => .misuse
  | .help text => .help text
  | .misuse => .misuse

structure Setting (m : Type → Type) where
  disk : Disk m
  processors : Nat
  fileLimit : Nat

abbrev Printing := ExceptT String

namespace Command

variable {m : Type → Type} [Monad m]

def load (disk : Disk m) (codec : Codec α) (path : String) : Printing m α := do
  match ← disk.read path with
  | .error e => throw ("reading " ++ path ++ ": " ++ e.message)
  | .ok text =>
    match codec.parse text with
    | .ok x => return x
    | .error c => throw ("parsing " ++ path ++ ": " ++ c.text)

def groupsText (groups : List (List Mutant)) : String :=
  (ofList (groups.map fun g => ofList (g.map fun x => ofText x.id))).pretty ++ "\n"

def budgetText (total : Nat) (b : Budget) : String :=
  "total: " ++ toString total ++ "\ncheckers: " ++ toString b.checkers ++ "\ntest runners: " ++
    toString b.testRunners ++ "\n"

def groupsByImports (s : Setting m) (mutants : List Mutant) :
    Printing m (List (List Mutant) × List Note) := do
  let resolver := Dependency.ImportSearch.resolve {} s.disk
  match ← (Dependency.Grouping.build resolver s.fileLimit mutants : m _) with
  | some found => return found
  | none => throw "too many files"

/-- Performs a command; returns what it prints and what was noted. -/
def perform (s : Setting m) : Command → Printing m (String × List Note)
  | .groups mutants manifest => do
    let mutants ← load s.disk Mutant.codec.list mutants
    let found ← match manifest with
      | some path => do pure ((← load s.disk Dependency.Manifest.codec path).groups mutants)
      | none => groupsByImports s mutants
    return (groupsText found.1, found.2)
  | .summary results layout => do
    let results ← load s.disk MutantResult.codec.list results
    match layout with
    | .markdown => return (Report.markdown results, [])
    | .document => return (Report.document results, [])
  | .budget config concurrency => do
    let config ← match config with
      | some path => load s.disk Config.codec path
      | none => pure {}
    let config := if concurrency.isSome then { config with concurrency } else config
    return (budgetText (config.total s.processors) (.ofConfig config s.processors), [])

end Command

/-- What a command line comes to: its exit code, what is printed, and what is said beside it. -/
structure Completion where
  code : UInt32
  output : String := ""
  remarks : List String := []

def run {m : Type → Type} [Monad m] (s : Setting m) (words : List String) : m Completion := do
  match Invocation.ofWords words with
  | .misuse => return { code := 2, remarks := [program.help] }
  | .help text => return { code := 0, output := text }
  | .command c =>
    match ← (c.perform s).run with
    | .ok (output, notes) =>
      return { code := 0, output, remarks := (notes.filter (·.level = .warn)).map Note.line }
    | .error e => return { code := 1, remarks := ["Error: " ++ e] }

end MutationPipeline.CommandLine
