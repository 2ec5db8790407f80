import Mathlib
import MutationPipeline.Report

/-! What the numbers of a run and its report say together. Every result is counted once, whatever the
order; a result moves the score only in the direction of its status, also where there was no score to
speak of before; and the report lists exactly the results that the numbers call undetected. The score
is the ratio that is divided in the end, not the double that comes of it. -/
namespace MutationPipeline

namespace Summary

instance : Add Summary where
  add s t :=
    { total := s.total + t.total
      killed := s.killed + t.killed
      survived := s.survived + t.survived
      timeout := s.timeout + t.timeout
      noCoverage := s.noCoverage + t.noCoverage
      compileError := s.compileError + t.compileError
      runtimeError := s.runtimeError + t.runtimeError
      ignored := s.ignored + t.ignored }

def exactScore (s : Summary) : ℚ := s.scoreRatio.1 / s.scoreRatio.2

variable {results others front back : List MutantResult} {r : MutantResult} {s t : Summary}

theorem countsAdd (results others : List MutantResult) :
    ofResults (results ++ others) = ofResults results + ofResults others := by
  simp only [ofResults, countOf, List.countP_append, List.length_append]
  rfl

theorem countsPerm (same : results.Perm others) : ofResults results = ofResults others := by
  have counts (status : Status) : countOf results status = countOf others status :=
    same.countP_eq _
  simp only [ofResults, counts, same.length_eq]

theorem countsTotal (results : List MutantResult) :
    (ofResults results).killed + (ofResults results).survived + (ofResults results).timeout +
      (ofResults results).noCoverage + (ofResults results).compileError +
      (ofResults results).runtimeError + (ofResults results).ignored =
      (ofResults results).total := by
  induction results with
  | nil => rfl
  | cons r rest ih =>
    simp only [ofResults, countOf, List.countP_cons, List.length_cons] at ih ⊢
    cases r.status <;> simp <;> omega

/-- What is missing to a full score is the share of what is undetected. Nothing is missing where there
is nothing that could be detected, as nothing divided by nothing is nothing. -/
theorem scoreMissing (s : Summary) :
    s.exactScore = 100 - 100 * (s.undetected / (s.detected + s.undetected)) := by
  rw [exactScore, scoreRatio, valid]
  by_cases none : s.detected + s.undetected = 0
  · have nothing : (s.detected + s.undetected : ℚ) = 0 := by exact_mod_cast none
    simp [none, nothing]
  · have something : (s.detected + s.undetected : ℚ) ≠ 0 := by exact_mod_cast none
    rw [if_neg none]
    push_cast
    field_simp
    ring

theorem scoreRange (s : Summary) : 0 ≤ s.exactScore ∧ s.exactScore ≤ 100 := by
  have share : (s.undetected / (s.detected + s.undetected) : ℚ) ≤ 1 :=
    div_le_one_of_le₀ (le_add_of_nonneg_left (Nat.cast_nonneg _)) (by positivity)
  have positive : (0 : ℚ) ≤ s.undetected / (s.detected + s.undetected) := by positivity
  rw [scoreMissing]
  constructor <;> linarith

theorem scoreFull (s : Summary) : s.exactScore = 100 ↔ s.undetected = 0 := by
  have whole : (s.undetected / (s.detected + s.undetected) : ℚ) = 0 ↔ s.undetected = 0 := by
    rw [div_eq_zero_iff]
    constructor
    · rintro (none | none)
      · exact_mod_cast none
      · have none : s.detected + s.undetected = 0 := by exact_mod_cast none
        omega
    · exact fun none => .inl (by exact_mod_cast none)
  rw [scoreMissing, ← whole]
  constructor <;> intro <;> linarith

theorem scoreBetter (more : s.detected ≤ t.detected) (same : t.undetected = s.undetected) :
    s.exactScore ≤ t.exactScore := by
  have share : (t.undetected / (t.detected + t.undetected) : ℚ) ≤
      s.undetected / (s.detected + s.undetected) := by
    rw [same]
    rcases Nat.eq_zero_or_pos s.undetected with none | some
    · simp [none]
    · gcongr
  rw [scoreMissing, scoreMissing]
  linarith

theorem scoreWorse (same : t.detected = s.detected) (more : s.undetected ≤ t.undetected) :
    t.exactScore ≤ s.exactScore := by
  have share : (s.undetected / (s.detected + s.undetected) : ℚ) ≤
      t.undetected / (t.detected + t.undetected) := by
    rw [same]
    rcases Nat.eq_zero_or_pos s.undetected with none | some
    · rw [none, Nat.cast_zero, zero_div]
      positivity
    · have some : (0 : ℚ) < s.undetected := by exact_mod_cast some
      have more : (s.undetected : ℚ) ≤ t.undetected := by exact_mod_cast more
      rw [div_le_div_iff₀ (by positivity) (by linarith [s.detected.cast_nonneg (α := ℚ)])]
      have gap : (s.detected : ℚ) * s.undetected ≤ s.detected * t.undetected := by gcongr
      linarith
  rw [scoreMissing, scoreMissing]
  linarith

theorem countsInsert (front back : List MutantResult) (r : MutantResult) :
    (ofResults (front ++ r :: back)).detected = (ofResults (front ++ back)).detected +
        (if r.status = .killed ∨ r.status = .timeout then 1 else 0) ∧
      (ofResults (front ++ r :: back)).undetected = (ofResults (front ++ back)).undetected +
        if r.status.isUndetected then 1 else 0 := by
  rw [countsPerm (@List.perm_middle _ r front back)]
  simp only [detected, undetected, ofResults, countOf, List.countP_cons]
  cases r.status <;> simp [Status.isUndetected] <;> omega

theorem undetectedCount (results : List MutantResult) :
    (results.filter (·.status.isUndetected)).length = (ofResults results).undetected := by
  induction results with
  | nil => rfl
  | cons r rest ih =>
    rw [List.filter_cons, ← List.nil_append (r :: rest), (countsInsert [] rest r).2,
      List.nil_append, ← ih]
    split <;> simp

end Summary

namespace Report

def lines (text : String) : List String := (text.toList.splitOn '\n').map String.ofList

def entry (r : MutantResult) : String :=
  "- `" ++ r.id ++ "` " ++ r.fileName ++ ":" ++ toString r.location.start.line ++ ":" ++
    toString r.location.start.column ++ " " ++ r.mutator ++ " (" ++ r.status.name ++ ")"

def heading : String := "## Undetected mutants"

def isEntry (line : String) : Bool := line.startsWith "- `"

structure OneLine (r : MutantResult) : Prop where
  id : '\n' ∉ r.id.toList
  fileName : '\n' ∉ r.fileName.toList
  mutator : '\n' ∉ r.mutator.toList

theorem linesBreak (a b : String) : lines (a ++ "\n" ++ b) = lines a ++ lines b := by
  have text : (a ++ "\n" ++ b).toList = a.toList ++ '\n' :: b.toList := by simp
  rw [lines, text, List.splitOn_append_cons_self, List.map_append]
  rfl

theorem linesWhole {line : String} (whole : '\n' ∉ line.toList) : lines line = [line] := by
  rw [lines, List.splitOn_eq_singleton whole, List.map_singleton, String.ofList_toList]

theorem linesEnded {ended : List String} (whole : ∀ line ∈ ended, '\n' ∉ line.toList)
    (rest : String) : lines (String.join (ended.map (· ++ "\n")) ++ rest) = ended ++ lines rest := by
  induction ended with
  | nil => simp
  | cons line more ih =>
    rw [List.map_cons, String.join_cons, String.append_assoc, linesBreak,
      linesWhole (whole line List.mem_cons_self),
      ih fun other member => whole other (List.mem_cons_of_mem line member)]
    rfl

def tableLines (s : Summary) : List String :=
  ["# Mutation Test Results", "", "## Summary", "", "| metric | count |", "|---|---:|"] ++
    s.rows.map (fun row => "| " ++ row.1 ++ " | " ++ toString row.2 ++ " |") ++
    ["| mutation score | " ++ Decimal.twoPlaces s.score ++ "% |"]

theorem tableEnded (s : Summary) : table s = String.join ((tableLines s).map (· ++ "\n")) := by
  have opening : String.join
      (["# Mutation Test Results", "", "## Summary", "", "| metric | count |", "|---|---:|"].map
        (· ++ "\n")) =
      "# Mutation Test Results\n\n## Summary\n\n| metric | count |\n|---|---:|\n" := by decide
  have row : " |" ++ "\n" = " |\n" := by decide
  have last : "% |" ++ "\n" = "% |\n" := by decide
  unfold table
  rw [tableLines, List.map_append, List.map_append, String.join_append, String.join_append, opening]
  simp only [List.map_map, Function.comp_def, String.append_assoc, row, last, List.map_cons,
    List.map_nil, String.join_cons, String.join_nil, String.append_empty]

theorem digitsPlain {n : Nat} {c : Char} (member : c ∈ (toString n).toList) : c.isDigit = true := by
  rw [Nat.toString_eq_repr, Nat.repr_eq_ofList_toDigits, String.toList_ofList] at member
  exact Nat.isDigit_of_mem_toDigits (by decide) (by decide) member

/-- A text in which there is neither the end of a line nor the first letter of the heading. -/
def Plain (text : String) : Prop := ∀ c ∈ text.toList, c ≠ '\n' ∧ c ≠ 'U'

theorem Plain.append {a b : String} (front : Plain a) (back : Plain b) : Plain (a ++ b) := by
  intro c member
  rw [String.toList_append] at member
  exact (List.mem_append.mp member).elim (front c) (back c)

theorem plainNumber (n : Nat) : Plain (toString n) := by
  intro c member
  have digit := digitsPlain member
  constructor <;> rintro rfl <;> exact absurd digit (by decide)

theorem plainHundredths (n : Nat) : Plain (Decimal.hundredths n) := by
  have point : Plain "." := by simp [Plain]
  have zero : Plain (if n % 100 < 10 then "0" else "") := by split <;> simp [Plain]
  exact (((plainNumber _).append point).append zero).append (plainNumber _)

theorem noEntry {line : String} (other : line.toList.head? ≠ some '-') : isEntry line = false := by
  refine Bool.eq_false_iff.mpr fun opens => other ?_
  obtain ⟨rest, same⟩ := String.startsWith_string_iff.mp opens
  rw [← same]
  rfl

theorem noEntries {others : List String} (other : ∀ line ∈ others, line.toList.head? ≠ some '-') :
    others.filter isEntry = [] :=
  List.filter_eq_nil_iff.mpr fun line among => by simp [noEntry (other line among)]

theorem tableLinePlain {s : Summary} {line : String} (member : line ∈ tableLines s) :
    Plain line ∧ line.toList.head? ≠ some '-' := by
  rcases List.mem_append.mp member with front | last
  · rcases List.mem_append.mp front with opening | row
    · simp only [List.mem_cons, List.not_mem_nil, or_false] at opening
      rcases opening with rfl | rfl | rfl | rfl | rfl | rfl <;> simp [Plain]
    · obtain ⟨⟨name, n⟩, among, rfl⟩ := List.mem_map.mp row
      have name : Plain name := by
        simp only [Summary.rows, List.mem_cons, Prod.mk.injEq, List.not_mem_nil, or_false] at among
        rcases among with h | h | h | h | h | h | h | h <;> simp [h.1, Plain]
      have sides : Plain "| " ∧ Plain " | " ∧ Plain " |" := by simp [Plain]
      exact ⟨(((sides.1.append name).append sides.2.1).append (plainNumber n)).append sides.2.2,
        by simp⟩
  · rw [List.mem_singleton.mp last]
    have sides : Plain "| mutation score | " ∧ Plain "% |" := by simp [Plain]
    exact ⟨(sides.1.append (plainHundredths _)).append sides.2, by simp⟩

theorem Plain.whole {text : String} (plain : Plain text) : '\n' ∉ text.toList :=
  fun broken => (plain _ broken).1 rfl

theorem entryWhole {r : MutantResult} (one : OneLine r) : '\n' ∉ (entry r).toList := by
  have line : '\n' ∉ (toString r.location.start.line).toList :=
    (plainNumber r.location.start.line.toNat).whole
  have column : '\n' ∉ (toString r.location.start.column).toList :=
    (plainNumber r.location.start.column.toNat).whole
  have status : '\n' ∉ r.status.name.toList := by cases r.status <;> simp [Status.name]
  unfold entry
  simp [one.id, one.fileName, one.mutator, line, column, status]

theorem entryIs (r : MutantResult) : isEntry (entry r) = true := by
  rw [isEntry, String.startsWith_string_iff]
  unfold entry
  simp only [String.append_assoc, String.toList_append]
  exact List.prefix_append _ _

theorem lineEnded (r : MutantResult) : undetectedLine r = entry r ++ "\n" := by
  have last : ")" ++ "\n" = ")\n" := by decide
  unfold undetectedLine entry
  simp only [String.append_assoc, last]

theorem markdownLines (results : List MutantResult) :
    markdown results = String.join ((tableLines (.ofResults results)).map (· ++ "\n")) ++
      if results.filter (·.status.isUndetected) = [] then ""
      else String.join (["", heading, ""].map (· ++ "\n")) ++
        String.join (((results.filter (·.status.isUndetected)).map entry).map (· ++ "\n")) := by
  have opening : String.join (["", heading, ""].map (· ++ "\n")) =
      "\n## Undetected mutants\n\n" := by decide
  have entries : ((results.filter (·.status.isUndetected)).map entry).map (· ++ "\n") =
      (results.filter (·.status.isUndetected)).map undetectedLine := by
    rw [List.map_map]
    exact List.map_congr_left fun r _ => (lineEnded r).symm
  rw [opening, entries, ← tableEnded]
  unfold markdown
  simp only [List.isEmpty_iff]

theorem headingIff (results : List MutantResult) :
    heading ∈ lines (markdown results) ↔
      0 < (Summary.ofResults results).survived + (Summary.ofResults results).noCoverage := by
  have apart : heading ∉ tableLines (.ofResults results) := fun among => by
    have plain := (tableLinePlain among).1 'U' (by simp [heading])
    exact plain.2 rfl
  have listed : results.filter (·.status.isUndetected) ≠ [] ↔
      0 < (Summary.ofResults results).survived + (Summary.ofResults results).noCoverage := by
    rw [← List.length_pos_iff, Summary.undetectedCount]
    rfl
  have opening : ∀ line ∈ ["", heading, ""], '\n' ∉ line.toList := by simp [heading]
  rw [markdownLines, linesEnded fun line among => (tableLinePlain among).1.whole,
    List.mem_append, or_iff_right apart, ← listed]
  split
  · next none => simp [none, lines, heading]
  · next some =>
    rw [linesEnded opening]
    simp [some]

/-- The lines of the report that look like entries are those of what is undetected, in order, as long
as no text of theirs goes over to another line. -/
theorem entriesListed {results : List MutantResult}
    (one : ∀ r ∈ results, r.status.isUndetected = true → OneLine r) :
    (lines (markdown results)).filter isEntry =
      (results.filter (·.status.isUndetected)).map entry := by
  have table : (tableLines (.ofResults results)).filter isEntry = [] :=
    noEntries fun line among => (tableLinePlain among).2
  have ending : (lines "").filter isEntry = [] := noEntries (by simp [lines])
  have entries : ((results.filter (·.status.isUndetected)).map entry).filter isEntry =
      (results.filter (·.status.isUndetected)).map entry :=
    List.filter_eq_self.mpr (List.forall_mem_map.mpr fun r _ => entryIs r)
  have whole : ∀ line ∈ (results.filter (·.status.isUndetected)).map entry, '\n' ∉ line.toList :=
    List.forall_mem_map.mpr fun r among =>
      entryWhole (one r (List.mem_of_mem_filter among) (List.mem_filter.mp among).2)
  have opening : ∀ line ∈ ["", heading, ""], '\n' ∉ line.toList := by simp [heading]
  have first : ["", heading, ""].filter isEntry = [] := noEntries (by simp [heading])
  rw [markdownLines, linesEnded fun line among => (tableLinePlain among).1.whole,
    List.filter_append, table, List.nil_append]
  split
  · next none => rw [none, ending, List.map_nil]
  · rw [linesEnded opening, List.filter_append, first, List.nil_append]
    rw [← String.append_empty (s := String.join _), linesEnded whole, List.filter_append, entries,
      ending, List.append_nil]

end Report

open Summary Report

/-- What the numbers of a run and its report say of its results. -/
structure Reported (results : List MutantResult) : Prop where
  counted : (ofResults results).killed + (ofResults results).survived + (ofResults results).timeout +
    (ofResults results).noCoverage + (ofResults results).compileError +
    (ofResults results).runtimeError + (ofResults results).ignored = (ofResults results).total
  total : (ofResults results).total = results.length
  unordered : ∀ others, results.Perm others → ofResults others = ofResults results
  together : ∀ others, ofResults (results ++ others) = ofResults results + ofResults others
  bounded : 0 ≤ (ofResults results).exactScore ∧ (ofResults results).exactScore ≤ 100
  full : (ofResults results).exactScore = 100 ↔
    ∀ r ∈ results, r.status ≠ .survived ∧ r.status ≠ .noCoverage
  better : ∀ front back r, results = front ++ back → r.status = .killed ∨ r.status = .timeout →
    (ofResults results).exactScore ≤ (ofResults (front ++ r :: back)).exactScore
  worse : ∀ front back r, results = front ++ back → r.status = .survived ∨ r.status = .noCoverage →
    (ofResults (front ++ r :: back)).exactScore ≤ (ofResults results).exactScore
  unmoved : ∀ front back r, results = front ++ back →
    r.status = .compileError ∨ r.status = .runtimeError ∨ r.status = .ignored →
    (ofResults (front ++ r :: back)).exactScore = (ofResults results).exactScore
  headed : heading ∈ lines (markdown results) ↔
    0 < (ofResults results).survived + (ofResults results).noCoverage
  listed : ∃ undetected,
    undetected = results.filter (fun r => r.status = .survived ∨ r.status = .noCoverage) ∧
    undetected.length = (ofResults results).survived + (ofResults results).noCoverage ∧
    (undetected ≠ [] → markdown results = table (ofResults results) ++ ("\n" ++ heading ++ "\n\n") ++
      String.join (undetected.map fun r => entry r ++ "\n")) ∧
    ((∀ r ∈ undetected, OneLine r) →
      (lines (markdown results)).filter isEntry = undetected.map entry)

theorem undetectedFilter (results : List MutantResult) :
    results.filter (·.status.isUndetected) =
      results.filter (fun r => r.status = .survived ∨ r.status = .noCoverage) :=
  List.filter_congr fun r _ => by cases r.status <;> rfl

theorem resultsReported (results : List MutantResult) : Reported results where
  counted := countsTotal results
  total := rfl
  unordered others same := (countsPerm same).symm
  together := countsAdd results
  bounded := scoreRange _
  full := by
    rw [scoreFull, ← undetectedCount, List.length_eq_zero_iff, undetectedFilter,
      List.filter_eq_nil_iff]
    simp
  better front back r same detected := by
    obtain ⟨more, beside⟩ := countsInsert front back r
    have apart : r.status.isUndetected = false := by rcases detected with h | h <;> rw [h] <;> rfl
    rw [apart] at beside
    rw [same]
    exact scoreBetter (more ▸ Nat.le_add_right _ _) beside
  worse front back r same undetected := by
    obtain ⟨beside, more⟩ := countsInsert front back r
    have apart : ¬(r.status = .killed ∨ r.status = .timeout) := by
      rcases undetected with h | h <;> simp [h]
    rw [if_neg apart] at beside
    rw [same]
    exact scoreWorse beside (more ▸ Nat.le_add_right _ _)
  unmoved front back r same neither := by
    obtain ⟨detected, undetected⟩ := countsInsert front back r
    have apart : ¬(r.status = .killed ∨ r.status = .timeout) ∧ r.status.isUndetected = false := by
      rcases neither with h | h | h <;> simp [h, Status.isUndetected]
    rw [if_neg apart.1] at detected
    rw [apart.2] at undetected
    rw [same]
    exact le_antisymm (scoreWorse detected undetected.ge) (scoreBetter detected.ge undetected)
  headed := headingIff results
  listed := by
    refine ⟨_, rfl, ?_, fun some => ?_, fun one => ?_⟩
    · rw [← undetectedFilter, undetectedCount]
      rfl
    · have opening : "\n" ++ heading ++ "\n\n" = "\n## Undetected mutants\n\n" := by decide
      rw [← undetectedFilter] at some ⊢
      rw [opening, ← funext lineEnded]
      unfold markdown
      simp only [List.isEmpty_iff, if_neg some, String.append_assoc]
    · rw [entriesListed, undetectedFilter]
      intro r among status
      exact one r (undetectedFilter results ▸ List.mem_filter.mpr ⟨among, status⟩)

end MutationPipeline
