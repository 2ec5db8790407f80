import Mathlib.Data.List.TakeWhile
import MutationPipeline.Proofs.Dependency.Groups

/-!
Which phrases of a source text its specifiers are taken from. A text is read from its start and what
was taken is not looked at again, so a phrase is missed where one that was taken before reaches into
it. Such a one ends with the character in front of the phrase or with the first quote in it.
-/
namespace MutationPipeline.Dependency
open Text

/-- A word that names a module, and the specifier in quotes behind it. -/
structure Phrase where
  word : List Char
  blanks : List Char
  opening : Option (List Char)
  quote : Char
  specifier : List Char
  ending : Char
  known : word ∈ words
  apart : ∀ c ∈ blanks, isBlank c = true
  inside : ∀ more ∈ opening, ∀ c ∈ more, isBlank c = true
  opens : isQuote quote = true
  closes : isQuote ending = true
  inhabited : specifier ≠ []
  within : ∀ c ∈ specifier, inSpecifier c = true

namespace Phrase

def gap (p : Phrase) : List Char :=
  p.blanks ++ match p.opening with
    | none => []
    | some more => '(' :: more

def front (p : Phrase) : List Char := p.word ++ p.gap ++ [p.quote]

def text (p : Phrase) : List Char := p.front ++ p.specifier ++ [p.ending]

end Phrase

/-- A word may follow: it is not the rest of another one, nor the name of a member. -/
def Parted (before : List Char) : Prop := ∀ c ∈ before.getLast?, continues c = false

instance (before : List Char) : Decidable (Parted before) :=
  decidable_of_iff (before.getLast?.all (!continues ·) = true) (by
    cases last : before.getLast? <;> simp [Parted, last])

structure Phrase.Stands (p : Phrase) (text before : List Char) : Prop where
  parted : Parted before
  there : before ++ p.text <+: text

/-- The phrase is taken where it stands: what comes behind it is read next. -/
structure Phrase.Taken (p : Phrase) (text before : List Char) : Prop
    extends p.Stands text before where
  next : ∃ found after, text = before ++ p.text ++ after ∧
    specifiers text = found ++ p.specifier :: specifiersAfter after

def Phrase.Hidden (p : Phrase) (text before : List Char) : Prop :=
  ∃ q earlier, Phrase.Taken q text earlier ∧
    (earlier ++ q.text = before ∨ earlier ++ q.text = before ++ p.front)

section Characters

theorem quoteCases {c : Char} (quote : isQuote c = true) : c = '"' ∨ c = '\'' ∨ c = '`' := by
  simpa [isQuote, or_assoc] using quote

theorem quoteNoBlank {c : Char} (quote : isQuote c = true) : isBlank c = false := by
  rcases quoteCases quote with rfl | rfl | rfl <;> decide

theorem quoteEnds {c : Char} (quote : isQuote c = true) : inSpecifier c = false := by
  simp [inSpecifier, quote]

theorem blankNoQuote {c : Char} (blank : isBlank c = true) : isQuote c = false := by
  refine Bool.eq_false_iff.mpr fun quote => ?_
  rw [quoteNoBlank quote] at blank
  cases blank

theorem wordContinues {word : List Char} (known : word ∈ words) :
    ∀ c ∈ word, continues c = true := by
  have all : words.all (·.all continues) = true := by decide
  exact List.all_eq_true.mp (List.all_eq_true.mp all word known)

theorem wordPlain {word : List Char} (known : word ∈ words) :
    ∀ c ∈ word, isBlank c = false ∧ isQuote c = false ∧ c ≠ '(' := by
  have all : words.all (·.all fun c => !isBlank c && !isQuote c && c != '(') = true := by decide
  simpa [and_assoc] using List.all_eq_true.mp (List.all_eq_true.mp all word known)

theorem wordInhabited {word : List Char} (known : word ∈ words) : word ≠ [] := by
  rintro rfl
  exact absurd known (by decide)

theorem firstQuote {xs ys us vs : List Char} {c d : Char} (plain : ∀ x ∈ xs, isQuote x = false)
    (too : ∀ y ∈ ys, isQuote y = false) (quote : isQuote c = true) (other : isQuote d = true)
    (same : xs ++ c :: us = ys ++ d :: vs) : xs = ys ∧ c = d ∧ us = vs := by
  have cut {zs ws : List Char} {e : Char} (none : ∀ z ∈ zs, isQuote z = false)
      (ends : isQuote e = true) : (zs ++ e :: ws).takeWhile (fun z => !isQuote z) = zs := by
    rw [List.takeWhile_append_of_pos (by simpa using none),
      List.takeWhile_cons_of_neg (by simp [ends]), List.append_nil]
  have fronts : xs = ys := by rw [← cut plain quote, same, cut too other]
  subst fronts
  exact ⟨rfl, List.cons.inj (List.append_cancel_left same)⟩

end Characters

section Phrases

variable {p q : Phrase} {text before after : List Char}

theorem textApart (p : Phrase) (after : List Char) :
    p.text ++ after = (p.word ++ p.gap) ++ p.quote :: (p.specifier ++ p.ending :: after) := by
  simp [Phrase.text, Phrase.front]

theorem gapPlain : ∀ c ∈ p.gap, isBlank c = true ∨ c = '(' := by
  intro c among
  have inside := p.inside
  rcases List.mem_append.mp among with blank | opened
  · exact .inl (p.apart c blank)
  · cases h : p.opening with
    | none => rw [h] at opened; cases opened
    | some more =>
      rw [h] at opened inside
      rcases List.mem_cons.mp opened with rfl | blank
      · exact .inr rfl
      · exact .inl (inside more rfl c blank)

theorem stemPlain : ∀ c ∈ p.word ++ p.gap, isQuote c = false := by
  intro c among
  rcases List.mem_append.mp among with own | between
  · exact (wordPlain p.known c own).2.1
  · rcases gapPlain c between with blank | rfl
    · exact blankNoQuote blank
    · rfl

theorem specifierPlain : ∀ c ∈ p.specifier, isQuote c = false := by
  intro c among
  have inner := p.within c among
  simp only [inSpecifier, Bool.and_eq_true, Bool.not_eq_true'] at inner
  exact inner.1.1

theorem afterWordOf {word : List Char} (known : word ∈ words) (rest : List Char) :
    afterWord (word ++ rest) = some rest := by
  simp only [words, List.mem_cons, List.not_mem_nil, or_false] at known
  rcases known with rfl | rfl | rfl <;> simp [afterWord, words, dropWord]

theorem skipBlanksOf {blanks : List Char} (blank : ∀ c ∈ blanks, isBlank c = true) {c : Char}
    (other : isBlank c = false) (rest : List Char) :
    skipBlanks (blanks ++ c :: rest) = c :: rest := by
  rw [skipBlanks, List.dropWhile_append_of_pos blank, List.dropWhile_cons_of_neg (by simp [other])]

theorem specifierAtPhrase (p : Phrase) (after : List Char) :
    specifierAt (p.text ++ after) = some (p.specifier, after) := by
  have quoted : quotedSpecifier (p.quote :: (p.specifier ++ p.ending :: after)) =
      some (p.specifier, after) := by
    have stops : ¬ inSpecifier p.ending = true := by simp [quoteEnds p.closes]
    simp only [quotedSpecifier, p.opens, if_true, List.takeWhile_append_of_pos p.within,
      List.dropWhile_append_of_pos p.within, List.takeWhile_cons_of_neg stops,
      List.dropWhile_cons_of_neg stops, List.append_nil, p.closes]
    simp [p.inhabited]
  have reached : skipOpening (skipBlanks (p.gap ++ p.quote :: (p.specifier ++ p.ending :: after))) =
      p.quote :: (p.specifier ++ p.ending :: after) := by
    have inside := p.inside
    have between := quoteNoBlank p.opens
    rw [Phrase.gap]
    cases h : p.opening with
    | none =>
      rw [List.append_nil, skipBlanksOf p.apart between]
      rcases quoteCases p.opens with same | same | same <;> rw [same] <;> rfl
    | some more =>
      rw [h] at inside
      rw [List.append_assoc, List.cons_append, skipBlanksOf p.apart (by decide), skipOpening,
        skipBlanksOf (inside more rfl) between]
  rw [specifierAt, textApart, List.append_assoc, afterWordOf p.known]
  simp only [Option.bind_eq_bind, Option.bind_some, reached, quoted]

theorem dropWordFound {word rest : List Char} (found : dropWord word text = some rest) :
    text = word ++ rest := by
  induction word generalizing text with
  | nil => exact Option.some.inj found
  | cons w word ih =>
    cases text with
    | nil => cases found
    | cons c text =>
      rw [dropWord] at found
      split at found
      · next same => rw [same, ih found, List.cons_append]
      · cases found

theorem skipBlanksFound (text : List Char) :
    ∃ blanks, (∀ c ∈ blanks, isBlank c = true) ∧ text = blanks ++ skipBlanks text :=
  ⟨text.takeWhile isBlank, fun _ among => List.mem_takeWhile_imp among,
    List.takeWhile_append_dropWhile.symm⟩

theorem skipOpeningFound (text : List Char) :
    ∃ opening : Option (List Char), (∀ more ∈ opening, ∀ c ∈ more, isBlank c = true) ∧
      text = (match opening with
        | none => []
        | some more => '(' :: more) ++ skipOpening text := by
  unfold skipOpening
  split
  · next rest =>
    obtain ⟨blanks, blank, same⟩ := skipBlanksFound rest
    refine ⟨some blanks, fun more chosen => Option.some.inj chosen ▸ blank, ?_⟩
    rw [List.cons_append, ← same]
  · exact ⟨none, nofun, rfl⟩

theorem quotedFound {s : List Char} (found : quotedSpecifier text = some (s, after)) :
    ∃ quote ending, isQuote quote = true ∧ isQuote ending = true ∧ s ≠ [] ∧
      (∀ c ∈ s, inSpecifier c = true) ∧ text = quote :: (s ++ ending :: after) := by
  cases text with
  | nil => cases found
  | cons quote rest =>
    rw [quotedSpecifier] at found
    split at found
    · next opens =>
      dsimp only at found
      split at found
      · cases found
      · next ending others ends =>
        split at found
        · next closed =>
          obtain ⟨closes, inhabited⟩ := Bool.and_eq_true_iff.mp closed
          obtain ⟨rfl, rfl⟩ := Prod.mk.inj (Option.some.inj found)
          refine ⟨quote, ending, opens, closes, by simpa using inhabited,
            fun c among => List.mem_takeWhile_imp among, ?_⟩
          rw [← ends, List.takeWhile_append_dropWhile]
        · cases found
    · cases found

theorem specifierAtFound {s : List Char} (found : specifierAt text = some (s, after)) :
    ∃ p : Phrase, p.specifier = s ∧ text = p.text ++ after := by
  simp only [specifierAt, bind, Option.bind_eq_some_iff, afterWord] at found
  obtain ⟨behind, named, found⟩ := found
  obtain ⟨word, known, dropped⟩ := List.exists_of_findSome?_eq_some named
  obtain ⟨blanks, apart, first⟩ := skipBlanksFound behind
  obtain ⟨opening, inside, second⟩ := skipOpeningFound (skipBlanks behind)
  obtain ⟨quote, ending, opens, closes, inhabited, within, third⟩ := quotedFound found
  refine ⟨⟨word, blanks, opening, quote, s, ending, known, apart, inside, opens, closes, inhabited,
    within⟩, rfl, ?_⟩
  rw [dropWordFound dropped, first, second, third]
  simp [Phrase.text, Phrase.front, Phrase.gap]

theorem frontApart {word rest : List Char} {c : Char} (known : word ∈ words) (first : c ∈ word)
    (inhabited : before ≠ []) (parted : Parted before) : q.front ≠ before ++ c :: rest := by
  intro same
  rw [Phrase.front, List.append_assoc] at same
  rcases List.append_eq_append_iff.mp same with ⟨between, -, behind⟩ | ⟨more, short, -⟩
  · have among : c ∈ q.gap ++ [q.quote] := by rw [behind]; simp
    obtain ⟨plain, unquoted, closed⟩ := wordPlain known c first
    rcases List.mem_append.mp among with inner | last
    · rcases gapPlain c inner with blank | opening
      · rw [plain] at blank; cases blank
      · exact closed opening
    · rw [List.mem_singleton.mp last, q.opens] at unquoted; cases unquoted
  · have last : before.getLast inhabited ∈ q.word := by
      rw [short]
      exact List.mem_append_left _ (List.getLast_mem inhabited)
    have stops := parted _ (List.getLast?_eq_some_getLast inhabited)
    rw [wordContinues q.known _ last] at stops
    cases stops

theorem specifierCut (shown : List Char) {more rest : List Char}
    (inner : q.specifier ++ [q.ending] = shown ++ more) (same : p.text ++ after = more ++ rest) :
    q.text = q.front ++ shown ∨ q.text = q.front ++ shown ++ p.front := by
  rw [Phrase.text, List.append_assoc, inner]
  rcases List.eq_nil_or_concat more with rfl | ⟨kept, ending, rfl⟩
  · exact .inl (by rw [List.append_nil])
  · rw [List.concat_eq_append] at *
    rw [← List.append_assoc] at inner
    obtain ⟨whole, ends⟩ := List.append_inj' inner rfl
    have last : ending = q.ending := (List.cons.inj ends).1.symm
    rw [last, textApart, List.append_assoc kept, List.singleton_append] at same
    have plain : ∀ c ∈ kept, isQuote c = false := fun c among =>
      specifierPlain (p := q) c (whole ▸ List.mem_append_right _ among)
    obtain ⟨stem, quote, -⟩ := firstQuote stemPlain plain p.opens q.closes same
    refine .inr ?_
    rw [Phrase.front, Phrase.front, stem, quote, last]
    simp

/-- Of two phrases the later one stands behind the other one, or begins behind its last character or
in its specifier, which then ends at the first quote of the later one. -/
theorem passed {rest : List Char} (inhabited : before ≠ []) (parted : Parted before)
    (same : q.text ++ rest = before ++ (p.text ++ after)) :
    (∃ between, between ≠ [] ∧ before = q.text ++ between ∧ rest = between ++ (p.text ++ after)) ∨
      q.text = before ∨ q.text = before ++ p.front := by
  rcases List.append_eq_append_iff.mp same with ⟨between, long, short⟩ | ⟨more, long, short⟩
  · cases between with
    | nil => exact .inr (.inl (by simpa using long.symm))
    | cons c cs => exact .inl ⟨c :: cs, List.cons_ne_nil c cs, long, short⟩
  · rw [Phrase.text, List.append_assoc] at long
    rcases List.append_eq_append_iff.mp long with ⟨shown, rfl, inner⟩ | ⟨shown, fronts, others⟩
    · exact .inr (specifierCut shown inner short)
    · cases shown with
      | nil =>
        rw [List.append_nil] at fronts
        rw [← fronts]
        exact .inr (by simpa using specifierCut [] others.symm short)
      | cons d shown =>
        obtain ⟨c, word, named⟩ := List.exists_cons_of_ne_nil (wordInhabited p.known)
        rw [others, textApart, named] at short
        obtain rfl : c = d := (List.cons.inj short).1
        exact absurd fronts (frontApart p.known (named ▸ List.mem_cons_self) inhabited parted)

theorem partedAppend (front : List Char) (inhabited : before ≠ []) :
    Parted (front ++ before) ↔ Parted before := by
  rw [Parted, Parted, List.getLast?_append_of_ne_nil front inhabited]

section Scan

variable {c : Char} {rest : List Char}

theorem scanOn (on : continues c = true) : specifiersAfter (c :: rest) = specifiersAfter rest := by
  rw [specifiersAfter, if_pos on]

theorem scanTaken {s : List Char} (off : ¬ continues c = true)
    (found : specifierAt rest = some (s, after)) :
    specifiersAfter (c :: rest) = s :: specifiersAfter after := by
  rw [specifiersAfter, if_neg off]
  split
  · next found' => cases found.symm.trans found'; rfl
  · next none => cases found.symm.trans none

theorem scanNone (off : ¬ continues c = true) (none : specifierAt rest = none) :
    specifiersAfter (c :: rest) = specifiersAfter rest := by
  rw [specifiersAfter, if_neg off]
  split
  · next found => cases none.symm.trans found
  · rfl

end Scan

structure Phrase.Read (p : Phrase) (text before : List Char) : Prop where
  inhabited : before ≠ []
  parted : Parted before
  next : ∃ found after, text = before ++ (p.text ++ after) ∧
    specifiersAfter text = found ++ p.specifier :: specifiersAfter after

def Decided (p : Phrase) (text before : List Char) : Prop :=
  p.Read text before ∨ ∃ q earlier, Phrase.Read q text earlier ∧
    (earlier ++ q.text = before ∨ earlier ++ q.text = before ++ p.front)

section Later

variable (front : List Char) (known : List (List Char))
  (same : specifiersAfter (front ++ text) = known ++ specifiersAfter text)
include same

theorem Phrase.Read.later (read : p.Read text before) :
    p.Read (front ++ text) (front ++ before) := by
  obtain ⟨inhabited, parted, found, after, whole, next⟩ := read
  refine ⟨by simp [inhabited], (partedAppend front inhabited).mpr parted, known ++ found, after,
    ?_, ?_⟩
  · rw [whole, List.append_assoc]
  · rw [same, next, List.append_assoc]

theorem Decided.later (settled : Decided p text before) :
    Decided p (front ++ text) (front ++ before) := by
  rcases settled with own | ⟨q, earlier, other, reaches⟩
  · exact .inl (own.later front known same)
  · refine .inr ⟨q, front ++ earlier, other.later front known same, ?_⟩
    simpa [List.append_assoc] using reaches

end Later

theorem settled (inhabited : before ≠ []) (parted : Parted before)
    (whole : text = before ++ (p.text ++ after)) : Decided p text before := by
  -- the induction follows the reading; `before` loses what was read
  induction text using specifiersAfter.induct generalizing before with
  | case1 => exact absurd (List.append_eq_nil_iff.mp whole.symm).1 inhabited
  | case2 c rest on ih =>
    obtain ⟨d, front, rfl⟩ := List.exists_cons_of_ne_nil inhabited
    obtain ⟨rfl, behind⟩ : c = d ∧ rest = front ++ (p.text ++ after) := List.cons.inj whole
    have more : front ≠ [] := by
      rintro rfl
      exact absurd (parted c rfl) (by simp [on])
    exact (ih more ((partedAppend [c] more).mp parted) behind).later [c] [] (scanOn on)
  | case3 c rest off s behind found shorter ih =>
    obtain ⟨d, front, rfl⟩ := List.exists_cons_of_ne_nil inhabited
    obtain ⟨rfl, onward⟩ : c = d ∧ rest = front ++ (p.text ++ after) := List.cons.inj whole
    have step := scanTaken off found
    by_cases none : front = []
    · subst none
      rw [onward, List.nil_append, specifierAtPhrase] at found
      obtain ⟨rfl, rfl⟩ := Prod.mk.inj (Option.some.inj found)
      exact .inl ⟨inhabited, parted, [], after, whole, step⟩
    · obtain ⟨q, rfl, rfl⟩ := specifierAtFound found
      have parted := (partedAppend [c] none).mp parted
      rcases passed none parted onward with ⟨between, more, rfl, further⟩ | reaches
      · exact (ih more ((partedAppend q.text more).mp parted) further).later (c :: q.text)
          [q.specifier] step
      · have alone : Parted [c] := by simpa [Parted] using off
        refine .inr ⟨q, [c], ⟨List.cons_ne_nil c [], alone, [], behind, rfl, step⟩, ?_⟩
        simpa using reaches
  | case4 c rest off none ih =>
    obtain ⟨d, front, rfl⟩ := List.exists_cons_of_ne_nil inhabited
    obtain ⟨rfl, behind⟩ : c = d ∧ rest = front ++ (p.text ++ after) := List.cons.inj whole
    have more : front ≠ [] := by
      rintro rfl
      rw [behind, List.nil_append, specifierAtPhrase] at none
      cases none
    exact (ih more ((partedAppend [c] more).mp parted) behind).later [c] [] (scanNone off none)

theorem scanFirst {c : Char} (off : ¬ continues c = true) (text : List Char) :
    specifiersAfter (c :: text) = specifiers text := by
  cases found : specifierAt text with
  | none => rw [specifiers, found, scanNone off found]
  | some pair => rw [specifiers, found, scanTaken off found]

theorem specifiersBehind (text : List Char) : specifiers text = specifiersAfter (' ' :: text) :=
  (scanFirst (by decide) text).symm

theorem partedBehind (before : List Char) : Parted (' ' :: before) ↔ Parted before := by
  cases before with
  | nil => simp [Parted, show continues ' ' = false by decide]
  | cons c before => exact partedAppend [' '] (List.cons_ne_nil c before)

theorem Phrase.Read.taken (read : p.Read (' ' :: text) (' ' :: before)) : p.Taken text before := by
  obtain ⟨-, parted, found, after, whole, next⟩ := read
  obtain ⟨-, whole⟩ : _ ∧ text = before ++ (p.text ++ after) := List.cons.inj whole
  rw [← specifiersBehind] at next
  rw [← List.append_assoc] at whole
  exact ⟨⟨(partedBehind before).mp parted, after, whole.symm⟩, found, after, whole, next⟩

theorem takenOrHidden (stands : p.Stands text before) :
    p.Taken text before ∨ p.Hidden text before := by
  obtain ⟨parted, after, whole⟩ := stands
  have behind : ' ' :: text = ' ' :: before ++ (p.text ++ after) := by
    rw [← whole, List.append_assoc, List.cons_append]
  rcases settled (List.cons_ne_nil _ _) ((partedBehind before).mpr parted) behind with
    own | ⟨q, earlier, other, reaches⟩
  · exact .inl own.taken
  · obtain ⟨c, earlier, rfl⟩ := List.exists_cons_of_ne_nil other.inhabited
    obtain ⟨_, _, same, -⟩ := other.next
    obtain ⟨rfl, -⟩ := List.cons.inj same
    exact .inr ⟨q, earlier, other.taken, by simpa using reaches⟩

theorem Phrase.Taken.kept (taken : p.Taken text before) : p.specifier ∈ specifiers text := by
  obtain ⟨found, after, -, next⟩ := taken.next
  rw [next]
  simp

theorem hiddenQuoted (hidden : p.Hidden text before) : before.any isQuote = true := by
  obtain ⟨q, earlier, -, reaches⟩ := hidden
  have twice : 2 ≤ (earlier ++ q.text).countP isQuote := by
    simp [Phrase.text, Phrase.front, q.opens, q.closes]
    omega
  have once : p.front.countP isQuote = 1 := by
    rw [Phrase.front, List.countP_append, List.countP_eq_zero.mpr (by simpa using stemPlain)]
    simp [p.opens]
  refine List.any_eq_true.mpr (List.countP_pos_iff.mp ?_)
  rcases reaches with same | same
  · rw [same] at twice
    omega
  · rw [same, List.countP_append, once] at twice
    omega

end Phrases

/-- A relative specifier in quotes behind a word is known, or a phrase that was taken hides it. -/
theorem relativeKept {source : String} {p : Phrase} {before : List Char}
    (stands : p.Stands source.toList before) (relative : isRelative p.specifier = true) :
    String.ofList p.specifier ∈ relativeSpecifiers source ∨ p.Hidden source.toList before :=
  (takenOrHidden stands).imp_left fun taken =>
    memFirsts.mpr (List.mem_map_of_mem (List.mem_filter.mpr ⟨taken.kept, relative⟩))

def required : Phrase where
  word := "require".toList
  blanks := []
  opening := some []
  quote := '\''
  specifier := "./a".toList
  ending := '\''
  known := by decide
  apart := by simp
  inside := by simp
  opens := by decide
  closes := by decide
  inhabited := by decide
  within := List.all_eq_true.mp (by decide)

theorem relativeKeptRequired :
    required.Stands "a = require('./a')".toList "a = ".toList ∧
      isRelative required.specifier = true ∧
      "./a" ∈ relativeSpecifiers "a = require('./a')" := by
  have stands : required.Stands "a = require('./a')".toList "a = ".toList :=
    ⟨by decide, by decide⟩
  refine ⟨stands, by decide, (relativeKept stands (by decide)).resolve_right fun hidden => ?_⟩
  exact absurd (hiddenQuoted hidden) (by decide)

theorem stubTaken :
    specifiers "stub('require', require('./a'))".toList = [", require(".toList] := by
  have taken : specifierAt "require', require('./a'))".toList =
      some (", require(".toList, "./a'))".toList) := by decide
  rw [specifiersBehind]
  simp only [String.reduceToList] at taken ⊢
  simp (disch := decide) only [scanOn, scanNone]
  rw [scanTaken (by decide) taken]
  simp (disch := decide) only [scanOn, scanNone, specifiersAfter]

theorem stubHidden :
    required.Stands "stub('require', require('./a'))".toList "stub('require', ".toList ∧
      required.ending = required.quote ∧ isRelative required.specifier = true ∧
      "./a" ∉ relativeSpecifiers "stub('require', require('./a'))" := by
  refine ⟨⟨by decide, by decide⟩, rfl, by decide, ?_⟩
  rw [relativeSpecifiers, stubTaken, List.filter_cons_of_neg (by decide)]
  simp [firsts]

end MutationPipeline.Dependency

/-! Two texts with a line break between them are read one after the other. A phrase can reach over a
break only in the gap between its word and its first quote, so the second text would begin with that
quote or with the opening parenthesis in front of it. -/
namespace MutationPipeline.Dependency
open Text

def Restarts (text : List Char) : Prop :=
  ∀ c ∈ (skipBlanks text).head?, isQuote c = false ∧ c ≠ '('

instance (text : List Char) : Decidable (Restarts text) :=
  decidable_of_iff ((skipBlanks text).head?.all fun c => !isQuote c && c != '(') (by
    cases first : (skipBlanks text).head? <;> simp [Restarts, first])

section Break
variable {p : Phrase} {front rest after : List Char}

theorem gapGoesOn {gap : List Char} {quote : Char}
    (plain : ∀ c ∈ gap, isBlank c = true ∨ c = '(') (opens : isQuote quote = true) :
    ¬ Restarts (gap ++ quote :: after) := by
  induction gap with
  | nil =>
    intro restarts
    rw [List.nil_append, Restarts, skipBlanks,
      List.dropWhile_cons_of_neg (by simp [quoteNoBlank opens])] at restarts
    have closed := (restarts quote rfl).1
    rw [opens] at closed
    cases closed
  | cons c gap ih =>
    intro restarts
    rw [List.cons_append, Restarts, skipBlanks] at restarts
    by_cases blank : isBlank c = true
    · rw [List.dropWhile_cons_of_pos blank] at restarts
      exact ih (fun d among => plain d (List.mem_cons_of_mem c among)) restarts
    · rw [List.dropWhile_cons_of_neg blank] at restarts
      exact (restarts c rfl).2 ((plain c List.mem_cons_self).resolve_left blank)

theorem breakApart {c : Char} (among : c ∈ p.specifier ++ [p.ending]) : c ≠ '\n' := by
  rintro rfl
  rcases List.mem_append.mp among with inner | last
  · exact absurd (p.within '\n' inner) (by decide)
  · exact absurd ((List.mem_singleton.mp last) ▸ p.closes) (by decide)

theorem breakBehindWord {word tail more : List Char} (known : word ∈ words)
    (cut : word ++ tail = front ++ '\n' :: more) : ∃ shown, tail = shown ++ '\n' :: more := by
  rcases List.append_eq_append_iff.mp cut with ⟨shown, -, behind⟩ | ⟨shown, inWord, ahead⟩
  · exact ⟨shown, behind⟩
  · cases shown with
    | nil => exact ⟨[], ahead.symm⟩
    | cons c shown =>
      obtain ⟨rfl, -⟩ := List.cons.inj ahead
      exact absurd (wordPlain known '\n' (inWord ▸ by simp)).1 (by decide)

theorem breakInGap {more : List Char} (cut : p.text = front ++ '\n' :: more) :
    ∃ gap, (∀ c ∈ gap, isBlank c = true ∨ c = '(') ∧
      more = gap ++ p.quote :: (p.specifier ++ [p.ending]) := by
  have parts : p.text = p.word ++ (p.gap ++ p.quote :: (p.specifier ++ [p.ending])) := by
    simp [Phrase.text, Phrase.front]
  obtain ⟨shown, behind⟩ := breakBehindWord p.known (parts.symm.trans cut)
  rcases List.append_eq_append_iff.mp behind with ⟨quoted, -, late⟩ | ⟨left, early, within⟩
  · have among : '\n' ∈ p.quote :: (p.specifier ++ [p.ending]) := by rw [late]; simp
    rcases List.mem_cons.mp among with first | later
    · exact absurd (first ▸ p.opens) (by decide)
    · exact absurd rfl (breakApart later)
  · cases left with
    | nil =>
      have first : '\n' = p.quote := (List.cons.inj within).1
      exact absurd (first ▸ p.opens) (by decide)
    | cons c left =>
      obtain ⟨rfl, rest⟩ := List.cons.inj within
      refine ⟨left, fun d among => gapPlain (p := p) d ?_, rest⟩
      rw [early]
      exact List.mem_append_right _ (List.mem_cons_of_mem _ among)

variable (restarts : Restarts rest)
include restarts

theorem textInFront (whole : front ++ '\n' :: rest = p.text ++ after) :
    ∃ more, front = p.text ++ more := by
  rcases List.append_eq_append_iff.mp whole with ⟨more, long, behind⟩ | ⟨more, short, -⟩
  · cases more with
    | nil => exact ⟨[], by rw [long, List.append_nil, List.append_nil]⟩
    | cons c more =>
      rw [List.cons_append] at behind
      obtain ⟨rfl, ahead⟩ := List.cons.inj behind
      obtain ⟨gap, plain, rfl⟩ := breakInGap long
      rw [ahead, List.append_assoc, List.cons_append] at restarts
      exact absurd restarts (gapGoesOn plain p.opens)
  · exact ⟨more, short⟩

theorem specifierAtBreak (front : List Char) :
    specifierAt (front ++ '\n' :: rest) =
      (specifierAt front).map fun (s, after) => (s, after ++ '\n' :: rest) := by
  cases found : specifierAt front with
  | some pair =>
    obtain ⟨s, after⟩ := pair
    obtain ⟨p, rfl, rfl⟩ := specifierAtFound found
    rw [List.append_assoc, specifierAtPhrase]
    rfl
  | none =>
    cases other : specifierAt (front ++ '\n' :: rest) with
    | none => rfl
    | some pair =>
      obtain ⟨s, after⟩ := pair
      obtain ⟨p, -, whole⟩ := specifierAtFound other
      obtain ⟨more, rfl⟩ := textInFront restarts whole
      rw [specifierAtPhrase] at found
      cases found

theorem specifiersAfterBreak (front : List Char) :
    specifiersAfter (front ++ '\n' :: rest) = specifiersAfter front ++ specifiers rest := by
  induction front using specifiersAfter.induct with
  | case1 => rw [List.nil_append, scanFirst (by decide), specifiersAfter, List.nil_append]
  | case2 c front on ih => rw [List.cons_append, scanOn on, scanOn on, ih]
  | case3 c front off s behind found shorter ih =>
    have there := specifierAtBreak restarts front
    rw [found] at there
    rw [List.cons_append, scanTaken off there, scanTaken off found, ih, List.cons_append]
  | case4 c front off none ih =>
    have there := specifierAtBreak restarts front
    rw [none] at there
    rw [List.cons_append, scanNone off there, scanNone off none, ih]

theorem specifiersBreak (front : List Char) :
    specifiers (front ++ '\n' :: rest) = specifiers front ++ specifiers rest := by
  rw [specifiersBehind, specifiersBehind front, ← List.cons_append,
    specifiersAfterBreak restarts]

end Break

theorem foldlFirsts {α : Type} [DecidableEq α] (seen xs : List α) :
    xs.foldl (fun seen x => if x ∈ seen then seen else seen ++ [x]) seen =
      seen ++ (firsts xs).filter (· ∉ seen) := by
  induction xs using List.reverseRecOn with
  | nil => simp [firsts]
  | append_singleton xs x ih =>
    rw [firsts] at ih ⊢
    simp only [List.foldl_append, List.foldl_cons, List.foldl_nil, ih]
    generalize xs.foldl _ [] = kept
    by_cases old : x ∈ kept <;> by_cases earlier : x ∈ seen <;> simp [old, earlier]

theorem firstsAppend {α : Type} [DecidableEq α] (xs ys : List α) :
    firsts (xs ++ ys) = firsts xs ++ (firsts ys).filter (· ∉ firsts xs) := by
  rw [firsts, List.foldl_append]
  exact foldlFirsts (firsts xs) ys

/-- The specifiers in front of a line break stay as they are, and those behind it follow unless they
were there before. -/
theorem relativeOverBreak {source more : String} (restarts : Restarts more.toList) :
    relativeSpecifiers (source ++ "\n" ++ more) =
      relativeSpecifiers source ++
        (relativeSpecifiers more).filter (· ∉ relativeSpecifiers source) := by
  have joined : (source ++ "\n" ++ more).toList = source.toList ++ '\n' :: more.toList := by simp
  rw [relativeSpecifiers, joined, specifiersBreak restarts, List.filter_append, List.map_append,
    firstsAppend]
  rfl

theorem relativeOverBreakRepeated :
    Restarts "\texport * from './b'\nimport './a'".toList ∧
      relativeSpecifiers ("import './a'" ++ "\n" ++ "\texport * from './b'\nimport './a'") =
        ["./a", "./b"] := by
  have restarts : Restarts "\texport * from './b'\nimport './a'".toList := by decide
  refine ⟨restarts, (relativeOverBreak restarts).trans ?_⟩
  decide +kernel

example : ¬ Restarts " './a'".toList ∧ relativeSpecifiers ("import" ++ "\n" ++ " './a'") = ["./a"] ∧
    relativeSpecifiers "import" = [] ∧ relativeSpecifiers " './a'" = [] := by
  decide +kernel

end MutationPipeline.Dependency
