import MutationPipeline.Json.Numeral

/-!
Reading a document from its text.

The reader never refuses. Where the text departs from JSON it leaves a fault in the document and
stops, and all containers that are open at that place are not complete. A reader that returns no
rest has stopped.
-/
namespace MutationPipeline.Json

/-- Space, tab, line feed and carriage return may stand between the parts of a document. -/
def isGap (c : Char) : Bool := c = ' ' || c = '\n' || c = '\t' || c = '\r'

def skipGaps : List Char → List Char
  | [] => []
  | c :: rest => if isGap c then skipGaps rest else c :: rest

def hexDigit? (c : Char) : Option Nat :=
  if c.isDigit then some (c.toNat - '0'.toNat)
  else if 'a' ≤ c ∧ c ≤ 'f' then some (c.toNat - 'a'.toNat + 10)
  else if 'A' ≤ c ∧ c ≤ 'F' then some (c.toNat - 'A'.toNat + 10)
  else none

def hexNumber? (a b c d : Char) : Option Nat := do
  some (4096 * (← hexDigit? a) + 256 * (← hexDigit? b) + 16 * (← hexDigit? c) + (← hexDigit? d))

def simpleEscape? (c : Char) : Option Char :=
  match c with
  | '"' => some '"'
  | '\\' => some '\\'
  | '/' => some '/'
  | 'b' => some (Char.ofNat 8)
  | 'f' => some (Char.ofNat 12)
  | 'n' => some '\n'
  | 'r' => some '\r'
  | 't' => some '\t'
  | _ => none

inductive Unit16 where
  | char (c : Char)
  | high (n : Nat)
  | low (n : Nat)

def Unit16.ofNat (n : Nat) : Unit16 :=
  if 0xd800 ≤ n ∧ n < 0xdc00 then .high (n - 0xd800)
  else if 0xdc00 ≤ n ∧ n < 0xe000 then .low (n - 0xdc00)
  else .char (Char.ofNat n)

/-- Reads the rest of a string after its opening quote: its units and the text behind its closing
quote. Control characters have to be escaped. -/
def readUnits : List Char → Option (List Unit16 × List Char)
  | [] => none
  | '"' :: rest => some ([], rest)
  | '\\' :: 'u' :: a :: b :: c :: d :: rest => do
    let n ← hexNumber? a b c d
    let (units, rest) ← readUnits rest
    some (Unit16.ofNat n :: units, rest)
  | '\\' :: c :: rest => do
    let c ← simpleEscape? c
    let (units, rest) ← readUnits rest
    some (.char c :: units, rest)
  | c :: rest =>
    if c = '\\' || c.toNat < 0x20 then none else do
      let (units, rest) ← readUnits rest
      some (.char c :: units, rest)

/-- The characters of a string, or none when half of a surrogate pair stands alone in it. -/
def joinUnits : List Unit16 → Option (List Char)
  | [] => some []
  | .char c :: rest => (joinUnits rest).map (c :: ·)
  | .high h :: .low l :: rest =>
    (joinUnits rest).map (Char.ofNat (0x10000 + 1024 * h + l) :: ·)
  | _ => none

def readString (text : List Char) : Option (Option String × List Char) := do
  let (units, rest) ← readUnits text
  some ((joinUnits units).map String.ofList, rest)

def dropWord : List Char → List Char → Option (List Char)
  | [], rest => some rest
  | w :: word, c :: rest => if w = c then dropWord word rest else none
  | _ :: _, [] => none

def readWord (word : String) (value : Json) (text : List Char) : Json × Option (List Char) :=
  match dropWord word.toList text with
  | some rest => (value, some rest)
  | none => (.broken, none)

mutual

def readValue : Nat → List Char → Json × Option (List Char)
  | 0, _ => (.broken, none)
  | fuel + 1, text =>
    match text with
    | [] => (.broken, none)
    | '[' :: rest =>
      match skipGaps rest with
      | ']' :: rest => (.array [] true, some rest)
      | rest =>
        let (items, complete, rest) := readItems fuel rest
        (.array items complete, rest)
    | '\x7b' :: rest =>
      match skipGaps rest with
      | '\x7d' :: rest => (.object [] true, some rest)
      | rest =>
        let (members, complete, rest) := readMembers fuel rest
        (.object members complete, rest)
    | '"' :: rest =>
      match readString rest with
      | some (s, rest) => (.string s, some rest)
      | none => (.broken, none)
    | 'n' :: _ => readWord "null" .null text
    | 't' :: _ => readWord "true" (.bool true) text
    | 'f' :: _ => readWord "false" (.bool false) text
    | _ =>
      match readNumeral text with
      | some (n, rest) => (.number n.value, some rest)
      | none => (.broken, none)

def readItems : Nat → List Char → List Json × Bool × Option (List Char)
  | 0, _ => ([], false, none)
  | fuel + 1, text =>
    match readValue fuel text with
    | (item, none) => ([item], false, none)
    | (item, some rest) =>
      match skipGaps rest with
      | ']' :: rest => ([item], true, some rest)
      | ',' :: rest =>
        match skipGaps rest with
        | ']' :: _ => ([item], false, none)
        | rest =>
          let (items, complete, rest) := readItems fuel rest
          (item :: items, complete, rest)
      | _ => ([item], false, none)

def readMembers : Nat → List Char → List (Option String × Json) × Bool × Option (List Char)
  | 0, _ => ([], false, none)
  | fuel + 1, text =>
    match text with
    | '"' :: rest =>
      match readString rest with
      | none => ([], false, none)
      | some (key, rest) =>
        match skipGaps rest with
        | ':' :: rest =>
          match readValue fuel (skipGaps rest) with
          | (value, none) => ([(key, value)], false, none)
          | (value, some rest) =>
            match skipGaps rest with
            | '\x7d' :: rest => ([(key, value)], true, some rest)
            | ',' :: rest =>
              let (members, complete, rest) := readMembers fuel (skipGaps rest)
              ((key, value) :: members, complete, rest)
            | _ => ([(key, value)], false, none)
        | _ => ([(key, .broken)], false, none)
    | _ => ([], false, none)

end

/-- A text as a whole: the document at its front, and whether nothing but gaps follows it. -/
structure Reading where
  value : Json
  ends : Bool

/-- Reads a whole text. Every step of the reader takes at least one character, or opens the
container that the next one closes, so the fuel does not run out. -/
def read (text : String) : Reading :=
  let chars := text.toList
  match readValue (2 * chars.length + 2) (skipGaps chars) with
  | (value, none) => ⟨value, true⟩
  | (value, some rest) => ⟨value, (skipGaps rest).isEmpty⟩

end MutationPipeline.Json
