import MutationPipeline.Text.Word

/-!
Module specifiers in a source text: the texts in quotes after `from`, `import` and `require`.

The word has to stand at the start of the text or after a character that neither belongs to a word
nor is `$` or `.`. Blanks may follow it, and an opening parenthesis with more blanks. The specifier
ends at the next quote of any kind and does not reach beyond its line. The text is read once from
its start; what was taken for one specifier is not looked at again, so the character in front of
the next word must come after it.
-/
namespace MutationPipeline.Dependency

open Text

def isQuote (c : Char) : Bool := c = '"' || c = '\'' || c = '`'

def continues (c : Char) : Bool := isWord c || c = '$' || c = '.'

def words : List (List Char) := ["from".toList, "import".toList, "require".toList]

def dropWord : List Char → List Char → Option (List Char)
  | [], text => some text
  | _ :: _, [] => none
  | w :: word, c :: text => if w = c then dropWord word text else none

def afterWord (text : List Char) : Option (List Char) := words.findSome? (dropWord · text)

def skipBlanks (text : List Char) : List Char := text.dropWhile isBlank

def skipOpening : List Char → List Char
  | '(' :: rest => skipBlanks rest
  | text => text

def inSpecifier (c : Char) : Bool := !isQuote c && c ≠ '\r' && c ≠ '\n'

def quotedSpecifier : List Char → Option (List Char × List Char)
  | [] => none
  | c :: rest =>
    if isQuote c then
      let s := rest.takeWhile inSpecifier
      match rest.dropWhile inSpecifier with
      | [] => none
      | q :: after => if isQuote q && !s.isEmpty then some (s, after) else none
    else none

def specifierAt (text : List Char) : Option (List Char × List Char) := do
  quotedSpecifier (skipOpening (skipBlanks (← afterWord text)))

theorem dropWordLength {word text rest : List Char} (h : dropWord word text = some rest) :
    rest.length ≤ text.length := by
  induction word generalizing text with
  | nil => simp [dropWord] at h; simp [h]
  | cons w word ih =>
    cases text with
    | nil => simp [dropWord] at h
    | cons c text =>
      simp only [dropWord] at h
      split at h
      · exact Nat.le_succ_of_le (ih h)
      · simp at h

theorem dropWhileLength (p : Char → Bool) (text : List Char) :
    (text.dropWhile p).length ≤ text.length :=
  (List.dropWhile_sublist p).length_le

theorem skipOpeningLength (text : List Char) : (skipOpening text).length ≤ text.length := by
  unfold skipOpening
  split
  · exact Nat.le_succ_of_le (dropWhileLength _ _)
  · exact Nat.le_refl _

theorem quotedSpecifierLength {text s rest : List Char}
    (h : quotedSpecifier text = some (s, rest)) :
    rest.length < text.length := by
  cases text with
  | nil => simp [quotedSpecifier] at h
  | cons c text =>
    simp only [quotedSpecifier] at h
    split at h
    · split at h
      · simp at h
      · next q after e =>
        split at h
        · have short := dropWhileLength inSpecifier text
          rw [e] at short
          obtain ⟨_, rfl⟩ := Prod.mk.inj (Option.some.inj h)
          simp only [List.length_cons] at short ⊢
          omega
        · simp at h
    · simp at h

theorem specifierAtLength {text s rest : List Char} (h : specifierAt text = some (s, rest)) :
    rest.length < text.length := by
  simp only [specifierAt, bind, Option.bind_eq_some_iff, afterWord] at h
  obtain ⟨after, found, h⟩ := h
  obtain ⟨word, _, found⟩ := List.exists_of_findSome?_eq_some found
  have a := quotedSpecifierLength h
  have b := skipOpeningLength (skipBlanks after)
  have c : (skipBlanks after).length ≤ after.length := dropWhileLength isBlank after
  have d := dropWordLength found
  omega

def specifiersAfter (text : List Char) : List (List Char) :=
  match text with
  | [] => []
  | c :: rest =>
    if continues c then specifiersAfter rest
    else match h : specifierAt rest with
      | some (s, after) =>
        have : after.length < rest.length := specifierAtLength h
        s :: specifiersAfter after
      | none => specifiersAfter rest
termination_by text.length

def specifiers (text : List Char) : List (List Char) :=
  match specifierAt text with
  | some (s, after) => s :: specifiersAfter after
  | none => specifiersAfter text

/-- A specifier that leads from one file to another; all others name packages. -/
def isRelative (s : List Char) : Bool :=
  s = ['.'] || s = ['.', '.'] || ['.', '/'].isPrefixOf s || ['.', '.', '/'].isPrefixOf s

def firsts [DecidableEq α] (xs : List α) : List α :=
  xs.foldl (fun seen x => if x ∈ seen then seen else seen ++ [x]) []

theorem firstsSnoc [DecidableEq α] (xs : List α) (x : α) :
    firsts (xs ++ [x]) = if x ∈ firsts xs then firsts xs else firsts xs ++ [x] := by
  rw [firsts, List.foldl_append]
  rfl

theorem memFirsts [DecidableEq α] {x : α} {xs : List α} : x ∈ firsts xs ↔ x ∈ xs := by
  have general : ∀ seen : List α,
      x ∈ xs.foldl (fun seen x => if x ∈ seen then seen else seen ++ [x]) seen ↔
        x ∈ seen ∨ x ∈ xs := by
    induction xs with
    | nil => simp
    | cons y rest ih =>
      intro seen
      rw [List.foldl_cons, ih]
      split
      · next old => grind
      · grind
  simpa [firsts] using general []

theorem firstsOnce [DecidableEq α] (xs : List α) : (firsts xs).Nodup := by
  have general : ∀ seen : List α, seen.Nodup →
      (xs.foldl (fun seen x => if x ∈ seen then seen else seen ++ [x]) seen).Nodup := by
    induction xs with
    | nil => exact fun _ => id
    | cons y rest ih =>
      intro seen once
      rw [List.foldl_cons]
      refine ih _ ?_
      split
      · exact once
      · grind
  exact general [] .nil

/-- The relative specifiers of a source text, each once, in the order in which they appear. -/
def relativeSpecifiers (source : String) : List String :=
  firsts (((specifiers source.toList).filter isRelative).map String.ofList)

end MutationPipeline.Dependency
