import MutationPipeline.Mutant.Document
import MutationPipeline.Decimal

/-!
The report on a run: how many mutants ended in which status, and the share of those that were
detected among those that could have been.
-/
namespace MutationPipeline

open Json

def Status.isUndetected : Status → Bool
  | .survived | .noCoverage => true
  | _ => false

structure Summary where
  total : Nat
  killed : Nat
  survived : Nat
  timeout : Nat
  noCoverage : Nat
  compileError : Nat
  runtimeError : Nat
  ignored : Nat
  deriving DecidableEq, Repr

namespace Summary

def countOf (results : List MutantResult) (s : Status) : Nat := results.countP fun r => r.status = s

def ofResults (results : List MutantResult) : Summary where
  total := results.length
  killed := countOf results .killed
  survived := countOf results .survived
  timeout := countOf results .timeout
  noCoverage := countOf results .noCoverage
  compileError := countOf results .compileError
  runtimeError := countOf results .runtimeError
  ignored := countOf results .ignored

def detected (s : Summary) : Nat := s.killed + s.timeout

def undetected (s : Summary) : Nat := s.survived + s.noCoverage

def valid (s : Summary) : Nat := s.detected + s.undetected

def scoreRatio (s : Summary) : Nat × Nat :=
  if s.valid = 0 then (100, 1) else (s.detected * 100, s.valid)

def score (s : Summary) : Float :=
  Float.ofNat s.scoreRatio.1 / Float.ofNat s.scoreRatio.2

def toJson (s : Summary) : Json :=
  ofMembers [("total", ofNat s.total), ("mutation_score", ofFloat s.score),
    ("killed", ofNat s.killed), ("survived", ofNat s.survived), ("timeout", ofNat s.timeout),
    ("no_coverage", ofNat s.noCoverage), ("compile_error", ofNat s.compileError),
    ("runtime_error", ofNat s.runtimeError), ("ignored", ofNat s.ignored)]

def rows (s : Summary) : List (String × Nat) :=
  [("total", s.total), ("killed", s.killed), ("survived", s.survived), ("timeout", s.timeout),
    ("no coverage", s.noCoverage), ("compile error", s.compileError),
    ("runtime error", s.runtimeError), ("ignored", s.ignored)]

end Summary

namespace Report

def table (s : Summary) : String :=
  "# Mutation Test Results\n\n## Summary\n\n| metric | count |\n|---|---:|\n" ++
    String.join (s.rows.map fun row => "| " ++ row.1 ++ " | " ++ toString row.2 ++ " |\n") ++
    "| mutation score | " ++ Decimal.twoPlaces s.score ++ "% |\n"

def undetectedLine (r : MutantResult) : String :=
  "- `" ++ r.id ++ "` " ++ r.fileName ++ ":" ++ toString r.location.start.line ++ ":" ++
    toString r.location.start.column ++ " " ++ r.mutator ++ " (" ++ r.status.name ++ ")\n"

/-- The report as Markdown: the table, and a list of the undetected mutants if there are any. -/
def markdown (results : List MutantResult) : String :=
  let undetected := results.filter (·.status.isUndetected)
  table (.ofResults results) ++
    if undetected.isEmpty then ""
    else "\n## Undetected mutants\n\n" ++ String.join (undetected.map undetectedLine)

def document (results : List MutantResult) : String :=
  (ofMembers [("summary", (Summary.ofResults results).toJson),
    ("mutants", ofList (results.map MutantResult.codec.write))]).sorted.pretty

end Report

end MutationPipeline
