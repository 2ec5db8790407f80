import Mathlib.Data.Nat.Digits.Defs
import MutationPipeline.Json.Printer
import MutationPipeline.Json.Reader
import MutationPipeline.Proofs.Text.Lines

/-! The compact form of a document is read as the document it was made from, wherever it stands in
a text. This holds for documents whose numbers are words and whose containers are complete. -/
namespace MutationPipeline.Json

section Numerals

def Ends (rest : List Char) : Prop :=
  ∀ c tail, rest = c :: tail → c.isDigit = false ∧ c ≠ '.' ∧ c ≠ 'e' ∧ c ≠ 'E'

theorem takeDigitsAppend {digits rest : List Char} (all : ∀ c ∈ digits, c.isDigit = true)
    (ends : Ends rest) : takeDigits (digits ++ rest) = (digits, rest) := by
  induction digits with
  | nil =>
    cases rest with
    | nil => rfl
    | cons c tail => simp [takeDigits, (ends c tail rfl).1]
  | cons c digits ih =>
    have first := all c List.mem_cons_self
    have later := ih fun d member => all d (List.mem_cons_of_mem c member)
    simp [takeDigits, first, later]

theorem digitCharValue : ∀ d < 10, digitValue (Nat.digitChar d) = d ∧
    (Nat.digitChar d = '0' → d = 0) := by decide

theorem toDigitsHead {n : Nat} (positive : 0 < n) :
    ∃ c tail, Nat.toDigits 10 n = c :: tail ∧ c ≠ '0' := by
  induction n using Nat.strongRecOn with
  | ind n ih =>
    by_cases small : n < 10
    · refine ⟨_, [], Nat.toDigits_of_lt_base small, fun zero => ?_⟩
      have none := (digitCharValue n small).2 zero
      omega
    · obtain ⟨c, tail, shape, nonzero⟩ := ih (n / 10) (by omega) (by omega)
      refine ⟨c, tail ++ [(n % 10).digitChar], ?_, nonzero⟩
      rw [Nat.toDigits_of_base_le (by decide) (Nat.le_of_not_lt small), shape, List.cons_append]

theorem gatherIntegerAppend {digits more : List Char} {start n : Nat}
    (gathered : gatherInteger digits start = (n, 0)) :
    gatherInteger (digits ++ more) start = gatherInteger more n := by
  induction digits generalizing start with
  | nil =>
    cases gathered
    rfl
  | cons c digits ih =>
    simp only [gatherInteger, List.cons_append] at gathered ⊢
    split at gathered
    · next room => rw [if_pos room, ih gathered]
    · simp at gathered

theorem gatherIntegerToDigits {n : Nat} (word : n < wordLimit) :
    gatherInteger (Nat.toDigits 10 n) 0 = (n, 0) := by
  induction n using Nat.strongRecOn with
  | ind n ih =>
    by_cases small : n < 10
    · rw [Nat.toDigits_of_lt_base small]
      simp [gatherInteger, (digitCharValue n small).1, word]
    · have front := ih (n / 10) (by omega) (by omega)
      have whole : 10 * (n / 10) + n % 10 = n := Nat.div_add_mod n 10
      rw [Nat.toDigits_of_base_le (by decide) (Nat.le_of_not_lt small), gatherIntegerAppend front]
      simp [gatherInteger, (digitCharValue (n % 10) (Nat.mod_lt n (by decide))).1, whole, word]

theorem readNumeralToDigits {n : Nat} {rest : List Char} (word : n < wordLimit)
    (ends : Ends rest) : ∃ t, readNumeral (Nat.toDigits 10 n ++ rest) = some (t, rest) ∧
      t.value = .natural n := by
  refine ⟨⟨false, Nat.toDigits 10 n, none, none⟩, ?_, ?_⟩
  · have digits : ∀ c ∈ Nat.toDigits 10 n, c.isDigit = true :=
      fun c member => Nat.isDigit_of_mem_toDigits (by decide) (by decide) member
    have taken := takeDigitsAppend digits ends
    obtain ⟨c, tail, shape, solid⟩ : ∃ c tail, Nat.toDigits 10 n = c :: tail ∧
        (c = '0' → tail = []) := by
      rcases Nat.eq_zero_or_pos n with rfl | positive
      · exact ⟨'0', [], by decide, fun _ => rfl⟩
      · obtain ⟨c, tail, shape, nonzero⟩ := toDigitsHead positive
        exact ⟨c, tail, shape, fun zero => absurd zero nonzero⟩
    have first : c.isDigit = true := digits c (shape ▸ List.mem_cons_self)
    rw [shape] at taken ⊢
    have unsigned : c ≠ '-' := by
      rintro rfl
      cases first
    unfold readNumeral
    split
    next minus text sign =>
      split at sign
      · next same => exact absurd (List.cons.inj same).1 unsigned
      · cases sign
        simp only [taken]
        split
        · next same => cases same
        · next same =>
          obtain ⟨rfl, more⟩ := List.cons.inj same
          rw [solid rfl] at more
          cases more
        · cases rest with
          | nil => rfl
          | cons d more =>
            obtain ⟨-, point, small, large⟩ := ends d more rfl
            simp [point, small, large]
  · simp [NumeralText.value, gatherIntegerToDigits word]

end Numerals

section Strings

theorem hexDigitRead : ∀ n < 16, hexDigit? (hexDigit n) = some n := by decide

theorem hexNumberControl {n : Nat} (control : n < 0x20) :
    hexNumber? '0' '0' (hexDigit (n / 16)) (hexDigit (n % 16)) = some n := by
  have zero : hexDigit? '0' = some 0 := by decide
  simp only [hexNumber?, zero, hexDigitRead (n / 16) (by omega), hexDigitRead (n % 16) (by omega),
    Option.bind_eq_bind, Option.bind_some, Option.some.injEq]
  omega

theorem readUnitsEscape (c : Char) (rest : List Char) :
    readUnits (escape c ++ rest) =
      (readUnits rest).map fun read => (.char c :: read.1, read.2) := by
  have again (d : Char) (named : simpleEscape? d = some c) (plain : d ≠ 'u') :
      readUnits ('\\' :: d :: rest) =
        (readUnits rest).map fun read => (.char c :: read.1, read.2) := by
    rw [readUnits]
    · rw [named]
      cases readUnits rest <;> rfl
    · rintro a b c d rest same -
      exact plain same
  unfold escape
  split
  · exact again '"' rfl (by decide)
  · exact again '\\' rfl (by decide)
  · exact again 'n' rfl (by decide)
  · exact again 'r' rfl (by decide)
  · exact again 't' rfl (by decide)
  · next quote backslash _ _ _ =>
    split
    · next eight => exact again 'b' (by rw [← c.ofNat_toNat, eight]; rfl) (by decide)
    · split
      · next twelve => exact again 'f' (by rw [← c.ofNat_toNat, twelve]; rfl) (by decide)
      · split
        · next control =>
          have character : Unit16.ofNat c.toNat = .char c := by
            rw [Unit16.ofNat, if_neg (by omega), if_neg (by omega), c.ofNat_toNat]
          simp only [List.cons_append, List.nil_append, readUnits, hexNumberControl control,
            Option.bind_eq_bind, Option.bind_some, character]
          cases readUnits rest <;> rfl
        · next free =>
          rw [List.cons_append, List.nil_append, readUnits]
          · have allowed : (decide (c = '\\') || decide (c.toNat < 0x20)) = false := by
              rw [decide_eq_false backslash, decide_eq_false free, Bool.or_false]
            rw [allowed]
            cases readUnits rest <;> rfl
          · exact quote
          · exact fun _ _ _ _ _ same _ => backslash same
          · exact fun _ _ same _ => backslash same

theorem readStringQuoted (s : String) (rest : List Char) :
    readString (s.toList.flatMap escape ++ '"' :: rest) = some (some s, rest) := by
  have units (cs : List Char) : readUnits (cs.flatMap escape ++ '"' :: rest) =
      some (cs.map .char, rest) := by
    induction cs with
    | nil => rfl
    | cons c cs ih =>
      rw [List.flatMap_cons, List.append_assoc, readUnitsEscape, ih]
      rfl
  have joined (cs : List Char) : joinUnits (cs.map .char) = some cs := by
    induction cs with
    | nil => rfl
    | cons c cs ih => rw [List.map_cons, joinUnits, ih, Option.map_some]
  rw [readString, units]
  simp [joined]

end Strings

section Documents

mutual

def plain (room : Nat) : Json → Bool
  | .array items complete => room ≠ 0 && plainItems (room - 1) items && complete
  | .object members complete => room ≠ 0 && plainMembers (room - 1) members && complete
  | .string text => text.isSome
  | .number (.natural n) => n < wordLimit
  | .number _ => false
  | .broken => false
  | _ => true

def plainItems (room : Nat) : List Json → Bool
  | [] => true
  | item :: rest => item.plain room && plainItems room rest

def plainMembers (room : Nat) : List (Option String × Json) → Bool
  | [] => true
  | (key, value) :: rest => key.isSome && value.plain room && plainMembers room rest

end

def Opens (text : List Char) : Prop :=
  ∃ c tail, text = c :: tail ∧ isGap c = false ∧ c ≠ ']' ∧ c ≠ '\x7d'

theorem digitOpens {c : Char} (digit : c.isDigit = true) :
    isGap c = false ∧ c ≠ ']' ∧ c ≠ '\x7d' := by
  have apart (d : Char) (other : d.isDigit = false) : c ≠ d := by
    rintro rfl
    rw [digit] at other
    cases other
  refine ⟨?_, apart ']' rfl, apart '\x7d' rfl⟩
  simp [isGap, apart ' ' rfl, apart '\n' rfl, apart '\t' rfl, apart '\r' rfl]

theorem charsOpens {room : Nat} {j : Json} (good : j.plain room = true) (rest : List Char) :
    Opens (j.chars ++ rest) := by
  cases j with
  | null => exact ⟨'n', _, rfl, by decide⟩
  | bool b => cases b <;> exact ⟨_, _, rfl, by decide⟩
  | number n =>
    cases n with
    | natural n =>
      obtain ⟨c, tail, shape⟩ := List.exists_cons_of_ne_nil (Nat.toDigits_ne_nil (n := n) (b := 10))
      have digit : c.isDigit = true :=
        Nat.isDigit_of_mem_toDigits (b := 10) (n := n) (by decide) (by decide)
          (shape ▸ List.mem_cons_self)
      exact ⟨c, tail ++ rest, by simp [chars, numeral, shape], digitOpens digit⟩
    | _ => cases good
  | string text => exact ⟨'"', _, rfl, by decide⟩
  | array items complete => exact ⟨'[', _, rfl, by decide⟩
  | object members complete => exact ⟨'\x7b', _, rfl, by decide⟩
  | broken => cases good

theorem skipGapsSame {c : Char} {tail : List Char} (solid : isGap c = false) :
    skipGaps (c :: tail) = c :: tail := by
  rw [skipGaps, solid]
  rfl

theorem skipGapsOpens {text : List Char} (opens : Opens text) : skipGaps text = text := by
  obtain ⟨c, tail, rfl, solid, -⟩ := opens
  exact skipGapsSame solid

theorem endsCons {c : Char} {tail : List Char}
    (stop : c.isDigit = false ∧ c ≠ '.' ∧ c ≠ 'e' ∧ c ≠ 'E') : Ends (c :: tail) := by
  rintro d more same
  cases same
  exact stop

theorem digitApart {c d : Char} (digit : c.isDigit = true) (other : d.isDigit = false) : c ≠ d := by
  rintro rfl
  rw [digit] at other
  cases other

theorem readValueDigits {fuel n : Nat} {rest : List Char} (word : n < wordLimit)
    (ends : Ends rest) :
    readValue (fuel + 1) (Nat.toDigits 10 n ++ rest) = (.number (.natural n), some rest) := by
  obtain ⟨t, read, value⟩ := readNumeralToDigits word ends
  obtain ⟨c, tail, shape⟩ := List.exists_cons_of_ne_nil (Nat.toDigits_ne_nil (n := n) (b := 10))
  have digit : c.isDigit = true :=
    Nat.isDigit_of_mem_toDigits (b := 10) (n := n) (by decide) (by decide)
      (shape ▸ List.mem_cons_self)
  have other {d : Char} {more : List Char} (same : Nat.toDigits 10 n ++ rest = d :: more)
      (apart : d.isDigit = false) : False := by
    rw [shape] at same
    exact digitApart digit apart (List.cons.inj same).1
  unfold readValue
  split
  · next same => simp [shape] at same
  · next same => exact (other same rfl).elim
  · next same => exact (other same rfl).elim
  · next same => exact (other same rfl).elim
  · next same => exact (other same rfl).elim
  · next same => exact (other same rfl).elim
  · next same => exact (other same rfl).elim
  · rw [read]
    simp [value]

theorem readValueContainer {fuel : Nat} {text : List Char} (opens : Opens text) :
    readValue (fuel + 1) ('[' :: text) =
        (.array (readItems fuel text).1 (readItems fuel text).2.1, (readItems fuel text).2.2) ∧
      readValue (fuel + 1) ('\x7b' :: text) =
        (.object (readMembers fuel text).1 (readMembers fuel text).2.1,
          (readMembers fuel text).2.2) := by
  have gaps := skipGapsOpens opens
  obtain ⟨c, tail, rfl, -, item, member⟩ := opens
  constructor
  · rw [readValue, gaps]
    split
    · next same => exact absurd (List.cons.inj same).1 item
    · rfl
  · rw [readValue, gaps]
    split
    · next same => exact absurd (List.cons.inj same).1 member
    · rfl

theorem itemsOpen {room : Nat} {items : List Json} (filled : items ≠ [])
    (good : plainItems room items = true) (rest : List Char) :
    Opens (charsItems items ++ rest) := by
  match items, filled with
  | [item], _ =>
    simp only [plainItems, Bool.and_eq_true] at good
    simpa only [charsItems, List.append_assoc] using charsOpens good.1 ([']'] ++ rest)
  | item :: next :: items, _ =>
    rw [plainItems, Bool.and_eq_true] at good
    simpa only [charsItems, List.append_assoc] using
      charsOpens good.1 (',' :: charsItems (next :: items) ++ rest)

theorem membersOpen {members : List (Option String × Json)} (filled : members ≠ [])
    (rest : List Char) : Opens (charsMembers members ++ rest) := by
  match members, filled with
  | [(_, _)], _ => exact ⟨'"', _, rfl, by decide⟩
  | (_, _) :: _ :: _, _ => exact ⟨'"', _, rfl, by decide⟩

theorem readItemsNext {fuel : Nat} {text more : List Char} {item : Json}
    (read : readValue fuel text = (item, some (',' :: more))) (opens : Opens more) :
    readItems (fuel + 1) text =
      (item :: (readItems fuel more).1, (readItems fuel more).2.1, (readItems fuel more).2.2) := by
  have comma : skipGaps (',' :: more) = ',' :: more := skipGapsSame (by decide)
  have gaps := skipGapsOpens opens
  obtain ⟨c, tail, rfl, -, apart, -⟩ := opens
  simp only [readItems, read, comma, gaps]
  split
  · next same => exact absurd (List.cons.inj same).1 apart
  · rfl

theorem readMembersLast {fuel : Nat} {text rest : List Char} {value : Json} (key : String)
    (opens : Opens text) (read : readValue fuel text = (value, some ('\x7d' :: rest))) :
    readMembers (fuel + 1) (quoted key ++ ':' :: text) =
      ([(some key, value)], true, some rest) := by
  have named := readStringQuoted key (':' :: text)
  have colon : skipGaps (':' :: text) = ':' :: text := skipGapsSame (by decide)
  have brace : skipGaps ('\x7d' :: rest) = '\x7d' :: rest := skipGapsSame (by decide)
  simp only [quoted, List.cons_append, List.append_assoc, List.nil_append, readMembers, named,
    colon, skipGapsOpens opens, read, brace]

theorem readMembersNext {fuel : Nat} {text more : List Char} {value : Json} (key : String)
    (opens : Opens text) (read : readValue fuel text = (value, some (',' :: more)))
    (later : Opens more) :
    readMembers (fuel + 1) (quoted key ++ ':' :: text) =
      ((some key, value) :: (readMembers fuel more).1, (readMembers fuel more).2.1,
        (readMembers fuel more).2.2) := by
  have named := readStringQuoted key (':' :: text)
  have colon : skipGaps (':' :: text) = ':' :: text := skipGapsSame (by decide)
  have comma : skipGaps (',' :: more) = ',' :: more := skipGapsSame (by decide)
  simp only [quoted, List.cons_append, List.append_assoc, List.nil_append, readMembers, named,
    colon, skipGapsOpens opens, read, comma, skipGapsOpens later]

mutual

theorem readValueChars : (j : Json) → {room fuel : Nat} → {rest : List Char} →
    (good : j.plain room = true) → (enough : 2 * j.chars.length ≤ fuel) → (ends : Ends rest) →
    readValue fuel (j.chars ++ rest) = (j, some rest)
  | j, _, 0, rest, good, enough, _ => by
    obtain ⟨c, tail, shape, -⟩ := charsOpens good []
    simp only [List.append_nil] at shape
    simp [shape] at enough
  | .null, _, fuel + 1, _, _, _, _ => rfl
  | .bool b, _, fuel + 1, _, _, _, _ => by cases b <;> rfl
  | .number (.natural _), _, _ + 1, _, good, _, ends =>
    readValueDigits (of_decide_eq_true good) ends
  | .string (some s), _, fuel + 1, rest, _, _, _ => by
    have read := readStringQuoted s rest
    simp [chars, quoted, readValue, read]
  | .array [] complete, _, fuel + 1, _, good, _, _ => by
    cases complete with
    | true => rfl
    | false => simp [plain] at good
  | .array (item :: items) complete, _, fuel + 1, rest, good, enough, _ => by
    simp only [plain, Bool.and_eq_true] at good
    obtain ⟨⟨-, each⟩, rfl⟩ := good
    have filled : item :: items ≠ [] := List.cons_ne_nil item items
    have read : readItems fuel (charsItems (item :: items) ++ rest) =
        (item :: items, true, some rest) :=
      readItemsChars (item :: items) each filled
        (by simp only [chars, List.length_cons] at enough; omega)
    rw [chars, List.cons_append, (readValueContainer (itemsOpen filled each rest)).1, read]
  | .object [] complete, _, fuel + 1, _, good, _, _ => by
    cases complete with
    | true => rfl
    | false => simp [plain] at good
  | .object (member :: members) complete, _, fuel + 1, rest, good, enough, _ => by
    simp only [plain, Bool.and_eq_true] at good
    obtain ⟨⟨-, each⟩, rfl⟩ := good
    have filled : member :: members ≠ [] := List.cons_ne_nil member members
    have read : readMembers fuel (charsMembers (member :: members) ++ rest) =
        (member :: members, true, some rest) :=
      readMembersChars (member :: members) each filled
        (by simp only [chars, List.length_cons] at enough; omega)
    rw [chars, List.cons_append, (readValueContainer (membersOpen filled rest)).2, read]

theorem readItemsChars : (items : List Json) → {room fuel : Nat} → {rest : List Char} →
    (good : plainItems room items = true) → (filled : items ≠ []) →
    (enough : 2 * (charsItems items).length ≤ fuel) →
    readItems fuel (charsItems items ++ rest) = (items, true, some rest)
  | [], _, _, _, _, filled, _ => absurd rfl filled
  | item :: items, room, 0, rest, good, filled, enough => by
    obtain ⟨c, tail, shape, -⟩ := itemsOpen filled good []
    simp only [List.append_nil] at shape
    simp [shape] at enough
  | [item], room, fuel + 1, rest, good, _, enough => by
    simp only [plainItems, Bool.and_eq_true] at good
    simp only [charsItems, List.length_append, List.length_singleton] at enough
    have read : readValue fuel (item.chars ++ ']' :: rest) = (item, some (']' :: rest)) :=
      readValueChars item good.1 (by omega) (endsCons (by decide))
    rw [charsItems, List.append_assoc, List.singleton_append, readItems, read]
    rfl
  | item :: next :: items, room, fuel + 1, rest, good, _, enough => by
    rw [plainItems, Bool.and_eq_true] at good
    simp only [charsItems, List.length_append, List.length_cons] at enough
    have filled : next :: items ≠ [] := List.cons_ne_nil next items
    have first : readValue fuel (item.chars ++ ',' :: (charsItems (next :: items) ++ rest)) =
        (item, some (',' :: (charsItems (next :: items) ++ rest))) :=
      readValueChars item good.1 (by omega) (endsCons (by decide))
    have others : readItems fuel (charsItems (next :: items) ++ rest) =
        (next :: items, true, some rest) :=
      readItemsChars (next :: items) good.2 filled (by omega)
    have shape : charsItems (item :: next :: items) ++ rest =
        item.chars ++ ',' :: (charsItems (next :: items) ++ rest) := by simp [charsItems]
    rw [shape, readItemsNext first (itemsOpen filled good.2 rest), others]

theorem readMembersChars : (members : List (Option String × Json)) → {room fuel : Nat} →
    {rest : List Char} → (good : plainMembers room members = true) → (filled : members ≠ []) →
    (enough : 2 * (charsMembers members).length ≤ fuel) →
    readMembers fuel (charsMembers members ++ rest) = (members, true, some rest)
  | [], _, _, _, _, filled, _ => absurd rfl filled
  | member :: members, _, 0, _, _, filled, enough => by
    obtain ⟨c, tail, shape, -⟩ := membersOpen filled []
    simp only [List.append_nil] at shape
    simp [shape] at enough
  | (none, value) :: members, _, _, _, good, _, _ => by simp [plainMembers] at good
  | [(some key, value)], room, fuel + 1, rest, good, _, enough => by
    simp only [plainMembers, Bool.and_eq_true] at good
    simp only [charsMembers, List.length_append, List.length_cons, List.length_nil] at enough
    have opens := charsOpens good.1.2 ('\x7d' :: rest)
    have read : readValue fuel (value.chars ++ '\x7d' :: rest) = (value, some ('\x7d' :: rest)) :=
      readValueChars value good.1.2 (by omega) (endsCons (by decide))
    have shape : charsMembers [(some key, value)] ++ rest =
        quoted key ++ ':' :: (value.chars ++ '\x7d' :: rest) := by simp [charsMembers]
    rw [shape, readMembersLast key opens read]
  | (some key, value) :: next :: members, room, fuel + 1, rest, good, _, enough => by
    rw [plainMembers, Bool.and_eq_true, Bool.and_eq_true] at good
    simp only [charsMembers, List.length_append, List.length_cons] at enough
    have filled : next :: members ≠ [] := List.cons_ne_nil next members
    have opens := charsOpens good.1.2 (',' :: (charsMembers (next :: members) ++ rest))
    have first : readValue fuel (value.chars ++ ',' :: (charsMembers (next :: members) ++ rest)) =
        (value, some (',' :: (charsMembers (next :: members) ++ rest))) :=
      readValueChars value good.1.2 (by omega) (endsCons (by decide))
    have others : readMembers fuel (charsMembers (next :: members) ++ rest) =
        (next :: members, true, some rest) :=
      readMembersChars (next :: members) good.2 filled (by omega)
    have shape : charsMembers ((some key, value) :: next :: members) ++ rest =
        quoted key ++ ':' :: (value.chars ++ ',' :: (charsMembers (next :: members) ++ rest)) := by
      simp [charsMembers]
    rw [shape, readMembersNext key opens first (membersOpen filled rest), others]

end

mutual

theorem keepableOfPlain : {j : Json} → {room : Nat} → j.plain room = true → j.keepable room = true
  | .null, _, _ | .bool _, _, _ | .number (.natural _), _, _ => rfl
  | .string _, _, good => good
  | .array items complete, room, good => by
    simp only [plain, Bool.and_eq_true] at good
    simp only [keepable, good.1.1, good.2, keepableItemsOfPlain good.1.2, Bool.and_self]
  | .object members complete, room, good => by
    simp only [plain, Bool.and_eq_true] at good
    simp only [keepable, good.1.1, good.2, keepableMembersOfPlain good.1.2, Bool.and_self]

theorem keepableItemsOfPlain : {items : List Json} → {room : Nat} →
    plainItems room items = true → keepableItems room items = true
  | [], _, _ => rfl
  | item :: items, _, good => by
    rw [plainItems, Bool.and_eq_true] at good
    rw [keepableItems, keepableOfPlain good.1, keepableItemsOfPlain good.2, Bool.and_self]

theorem keepableMembersOfPlain : {members : List (Option String × Json)} → {room : Nat} →
    plainMembers room members = true → keepableMembers room members = true
  | [], _, _ => rfl
  | (key, value) :: members, _, good => by
    simp only [plainMembers, Bool.and_eq_true] at good
    simp only [keepableMembers, good.1.1, keepableOfPlain good.1.2, keepableMembersOfPlain good.2,
      Bool.and_self]

end

theorem readCompact {room : Nat} {j : Json} (good : j.plain room = true) :
    read j.compact = ⟨j, true⟩ := by
  have text : j.compact.toList = j.chars := String.toList_ofList
  have whole : readValue (2 * j.chars.length + 2) (j.chars ++ []) = (j, some []) :=
    readValueChars j good (by omega) nofun
  have opens := skipGapsOpens (charsOpens good [])
  simp only [List.append_nil] at whole opens
  simp only [read, text, opens, whole]
  rfl

end Documents

section Characters

theorem solidHexDigit : ∀ n < 16, 0x20 ≤ (hexDigit n).toNat := by decide

theorem solidEscape (c : Char) : ∀ d ∈ escape c, 0x20 ≤ d.toNat := by
  unfold escape
  split
  case h_6 =>
    split
    · exact Text.solidAll (by decide)
    · split
      · exact Text.solidAll (by decide)
      · split
        · next control =>
          simp only [List.forall_mem_cons, List.not_mem_nil, false_imp_iff, implies_true, and_true]
          exact ⟨by decide, by decide, by decide, by decide,
            solidHexDigit _ (by omega), solidHexDigit _ (by omega)⟩
        · next free => simpa using Nat.le_of_not_lt free
  all_goals exact Text.solidAll (by decide)

theorem solidQuoted {s : String} {c : Char} (member : c ∈ quoted s) : 0x20 ≤ c.toNat := by
  simp only [quoted, List.mem_cons, List.mem_append, List.mem_flatMap, List.not_mem_nil,
    or_false] at member
  rcases member with rfl | ⟨d, -, inside⟩ | rfl
  · decide
  · exact solidEscape d c inside
  · decide

mutual

theorem solidChars : (j : Json) → {room : Nat} → j.plain room = true →
    ∀ c ∈ j.chars, 0x20 ≤ c.toNat
  | .null, _, _ => Text.solidAll (by decide)
  | .bool b, _, _ => by cases b <;> exact Text.solidAll (by decide)
  | .number (.natural n), _, _ => by
    intro c member
    have digit := Nat.isDigit_of_mem_toDigits (b := 10) (n := n) (by decide) (by decide) member
    simp only [Char.isDigit, Bool.and_eq_true, decide_eq_true_eq] at digit
    exact Nat.le_trans (by decide) digit.1
  | .string text, _, _ => fun _ member => solidQuoted member
  | .array items complete, room, good => by
    simp only [plain, Bool.and_eq_true] at good
    exact List.forall_mem_cons.mpr ⟨by decide, solidItems items good.1.2⟩
  | .object members complete, room, good => by
    simp only [plain, Bool.and_eq_true] at good
    exact List.forall_mem_cons.mpr ⟨by decide, solidMembers members good.1.2⟩

theorem solidItems : (items : List Json) → {room : Nat} → plainItems room items = true →
    ∀ c ∈ charsItems items, 0x20 ≤ c.toNat
  | [], _, _ => Text.solidAll (by decide)
  | [item], _, good => by
    simp only [plainItems, Bool.and_eq_true] at good
    exact List.forall_mem_append.mpr ⟨solidChars item good.1, Text.solidAll (by decide)⟩
  | item :: next :: items, _, good => by
    rw [plainItems, Bool.and_eq_true] at good
    exact List.forall_mem_append.mpr ⟨solidChars item good.1,
      List.forall_mem_cons.mpr ⟨by decide, solidItems (next :: items) good.2⟩⟩

theorem solidMembers : (members : List (Option String × Json)) → {room : Nat} →
    plainMembers room members = true → ∀ c ∈ charsMembers members, 0x20 ≤ c.toNat
  | [], _, _ => Text.solidAll (by decide)
  | [(key, value)], _, good => by
    simp only [plainMembers, Bool.and_eq_true] at good
    exact List.forall_mem_append.mpr ⟨fun _ => solidQuoted, List.forall_mem_cons.mpr
      ⟨by decide, List.forall_mem_append.mpr
        ⟨solidChars value good.1.2, Text.solidAll (by decide)⟩⟩⟩
  | (key, value) :: next :: members, _, good => by
    rw [plainMembers, Bool.and_eq_true, Bool.and_eq_true] at good
    exact List.forall_mem_append.mpr ⟨fun _ => solidQuoted, List.forall_mem_cons.mpr
      ⟨by decide, List.forall_mem_append.mpr ⟨solidChars value good.1.2,
        List.forall_mem_cons.mpr ⟨by decide, solidMembers (next :: members) good.2⟩⟩⟩⟩

end

end Characters
end MutationPipeline.Json
