import Mathlib.Data.List.Basic
import Mathlib.Data.List.TakeDrop
import Mathlib.Data.List.TakeWhile
import MutationPipeline.Text.Lines

/-! A text without control characters makes one line, and the line is read as the text. -/
namespace MutationPipeline.Text

theorem bytesOf (b : ByteArray) : b.toList = b.data.toList := by
  have loop (i : Nat) (r : List UInt8) :
      ByteArray.toList.loop b i r = r.reverse ++ b.data.toList.drop i := by
    induction i, r using ByteArray.toList.loop.induct b with
    | case1 i r inside ih =>
      have bound : i < b.data.toList.length := inside
      have here : b.get! i = b.data.toList[i] := getElem!_pos b.data i inside
      rw [ByteArray.toList.loop, if_pos inside, ih, List.drop_eq_getElem_cons bound, here,
        List.reverse_cons, List.append_assoc, List.singleton_append]
    | case2 i r outside =>
      have done : b.data.toList.length ≤ i := Nat.le_of_not_lt outside
      rw [ByteArray.toList.loop, if_neg outside, List.drop_eq_nil_of_le done, List.append_nil]
  exact loop 0 []

theorem textOfLine {bytes : List UInt8} {ended : Bool}
    (solid : carriageReturn ∉ bytes) :
    (Line.mk bytes ended).text? = String.fromUTF8? ⟨bytes.toArray⟩ := by
  have last : bytes.getLast? ≠ some carriageReturn :=
    fun same => solid (List.mem_of_getLast? same)
  simp [Line.text?, Line.content, last]

theorem charBytes {c : Char} (solid : 0x20 ≤ c.toNat) :
    ∀ b ∈ String.utf8EncodeChar c, 0x20 ≤ b.toNat := by
  change 0x20 ≤ c.val.toNat at solid
  have octet {n : Nat} (low : 0x20 ≤ n) (high : n < 256) : 0x20 ≤ (UInt8.ofNat n).toNat := by
    rwa [UInt8.toNat_ofNat', Nat.mod_eq_of_lt high]
  fun_cases String.utf8EncodeChar c
  · rintro b member
    rw [List.mem_singleton.mp member]
    exact octet solid (by omega)
  all_goals
    simp only [List.forall_mem_cons, List.not_mem_nil, false_imp_iff, implies_true, and_true]
    (repeat' constructor) <;> exact octet (by omega) (by omega)

theorem textBytes (s : String) : s.toUTF8.toList = s.toList.flatMap String.utf8EncodeChar := by
  rw [bytesOf, String.toUTF8, ← String.utf8Encode_toList, List.utf8Encode, List.data_toByteArray]

theorem solidAll {cs : List Char} (each : cs.all (fun c => 0x20 ≤ c.toNat) = true) :
    ∀ c ∈ cs, 0x20 ≤ c.toNat :=
  fun c member => of_decide_eq_true (List.all_eq_true.mp each c member)

def Solid (s : String) : Prop := ∀ c ∈ s.toList, 0x20 ≤ c.toNat

theorem Solid.bytes {s : String} (solid : Solid s) : ∀ b ∈ s.toUTF8.toList, 0x20 ≤ b.toNat := by
  intro b member
  rw [textBytes] at member
  obtain ⟨c, inside, own⟩ := List.mem_flatMap.mp member
  exact charBytes (solid c inside) b own

theorem Solid.noLineFeed {s : String} (solid : Solid s) : lineFeed ∉ s.toUTF8.toList :=
  fun member => absurd (solid.bytes lineFeed member) (by decide)

theorem Solid.text {s : String} (solid : Solid s) : (Line.ofText s).text? = some s := by
  have noReturn : carriageReturn ∉ s.toUTF8.toList :=
    fun member => absurd (solid.bytes carriageReturn member) (by decide)
  rw [Line.ofText, textOfLine noReturn, bytesOf]
  exact dif_pos s.isValidUTF8

theorem spanWhole {bytes : List UInt8} (whole : lineFeed ∉ bytes) (rest : List UInt8) :
    (bytes ++ rest).span (· ≠ lineFeed) =
      (bytes ++ (rest.span (· ≠ lineFeed)).1, (rest.span (· ≠ lineFeed)).2) := by
  have each : ∀ b ∈ bytes, decide (b ≠ lineFeed) = true :=
    fun b member => decide_eq_true fun same => whole (same ▸ member)
  simp only [List.span_eq_takeWhile_dropWhile, List.takeWhile_append_of_pos each,
    List.dropWhile_append_of_pos each]

theorem nextLineEnded {bytes rest : List UInt8} (whole : lineFeed ∉ bytes) :
    nextLine (bytes ++ lineFeed :: rest) = some (⟨bytes, true⟩, rest) := by
  have none : (lineFeed :: rest).span (· ≠ lineFeed) = ([], lineFeed :: rest) := rfl
  simp only [nextLine, spanWhole whole, none, List.append_nil]

theorem nextLineOpen {bytes : List UInt8} (partly : lineFeed ∉ bytes) :
    nextLine bytes = if bytes = [] then none else some (⟨bytes, false⟩, []) := by
  have none : ([] : List UInt8).span (· ≠ lineFeed) = ([], []) := rfl
  have spans := spanWhole partly []
  simp only [none, List.append_nil] at spans
  cases bytes with
  | nil => rfl
  | cons b bytes => simp only [nextLine, spans, reduceCtorEq, if_false]

theorem linesAppend {bytes : List UInt8} (whole : lineFeed ∉ bytes) (rest : List UInt8) :
    lines (bytes ++ lineFeed :: rest) = ⟨bytes, true⟩ :: lines rest := by
  induction bytes with
  | nil => rfl
  | cons b bytes ih =>
    have first : b ≠ lineFeed := fun same => whole (same ▸ List.mem_cons_self)
    have later := ih fun member => whole (List.mem_cons_of_mem b member)
    rw [List.cons_append, lines, if_neg first, later]

theorem linesEnded {bytes : List UInt8} (whole : lineFeed ∉ bytes) :
    lines (bytes ++ [lineFeed]) = [⟨bytes, true⟩] :=
  linesAppend whole []

def inFront (bytes : List UInt8) : List Line → List Line
  | [] => [⟨bytes, false⟩]
  | line :: more => { line with bytes := bytes ++ line.bytes } :: more

theorem linesInFront {bytes : List UInt8} (whole : lineFeed ∉ bytes) (inhabited : bytes ≠ [])
    (rest : List UInt8) : lines (bytes ++ rest) = inFront bytes (lines rest) := by
  induction bytes with
  | nil => exact absurd rfl inhabited
  | cons b bytes ih =>
    have first : b ≠ lineFeed := fun same => whole (same ▸ List.mem_cons_self)
    rw [List.cons_append, lines, if_neg first]
    rcases Decidable.em (bytes = []) with rfl | more
    · rw [List.nil_append]
      cases lines rest <;> rfl
    · rw [ih (fun member => whole (List.mem_cons_of_mem b member)) more]
      cases lines rest <;> rfl

theorem charSome (c : Char) : String.utf8EncodeChar c ≠ [] := by
  fun_cases String.utf8EncodeChar c <;> exact List.cons_ne_nil _ _

theorem charControl {c : Char} {b : UInt8} (member : b ∈ String.utf8EncodeChar c)
    (control : b.toNat < 0x20) : String.utf8EncodeChar c = [b] ∧ c = Char.ofNat b.toNat := by
  have low : c.val.toNat < 0x20 := Nat.lt_of_not_le fun solid =>
    absurd (charBytes solid b member) (Nat.not_le.mpr control)
  have lone : String.utf8EncodeChar c = [c.val.toUInt8] := by
    simp only [String.utf8EncodeChar, if_pos (show c.val.toNat ≤ 0x7f by omega)]
    rfl
  rw [lone, List.mem_singleton] at member
  have same : b.toNat = c.toNat := by
    rw [member]
    exact Nat.mod_eq_of_lt (Nat.lt_trans low (by decide))
  exact ⟨member ▸ lone, by rw [same, Char.ofNat_toNat]⟩

theorem charUnfed {c : Char} (other : c ≠ '\n') : lineFeed ∉ String.utf8EncodeChar c :=
  fun member => other (charControl member (by decide)).2

namespace Line

def Encodes (l : Line) (cs : List Char) : Prop := l.bytes = cs.flatMap String.utf8EncodeChar

theorem contentEncoded {l : Line} {cs : List Char} (encoded : l.Encodes cs) :
    ∃ inner : List Char, l.content = inner.flatMap String.utf8EncodeChar := by
  unfold content
  split
  case isFalse => exact ⟨cs, encoded⟩
  case isTrue ends =>
    have last : l.bytes.getLast? = some carriageReturn :=
      of_decide_eq_true (Bool.and_eq_true_iff.mp ends).2
    rcases cs.eq_nil_or_concat with rfl | ⟨inner, c, rfl⟩
    · rw [encoded] at last
      exact nomatch last
    · rw [Encodes, List.concat_eq_append, List.flatMap_append, List.flatMap_singleton] at encoded
      have member : carriageReturn ∈ String.utf8EncodeChar c := by
        rw [encoded, List.getLast?_append_of_ne_nil _ (charSome c)] at last
        exact List.mem_of_getLast? last
      refine ⟨inner, ?_⟩
      rw [encoded, (charControl member (by decide)).1, List.dropLast_concat]

theorem textEncoded {l : Line} {cs : List Char} (encoded : l.Encodes cs) :
    ∃ s, l.text? = some s := by
  obtain ⟨inner, same⟩ := contentEncoded encoded
  have octets : l.content = (String.ofList inner).toUTF8.toList := by
    rw [textBytes, String.toList_ofList, same]
  rw [text?, octets, bytesOf]
  exact ⟨_, dif_pos (String.ofList inner).isValidUTF8⟩

end Line

theorem linesEncode (cs : List Char) :
    ∀ line ∈ lines (cs.flatMap String.utf8EncodeChar), ∃ part, line.Encodes part := by
  induction cs with
  | nil => exact fun _ none => nomatch none
  | cons c cs ih =>
    intro line member
    rw [List.flatMap_cons] at member
    rcases Decidable.em (c = '\n') with rfl | other
    · rcases List.mem_cons.mp member with rfl | later
      · exact ⟨[], rfl⟩
      · exact ih line later
    · rw [linesInFront (charUnfed other) (charSome c)] at member
      cases split : lines (cs.flatMap String.utf8EncodeChar) with
      | nil =>
        rw [split, inFront, List.mem_singleton] at member
        exact ⟨[c], by rw [member]; simp [Line.Encodes]⟩
      | cons first more =>
        rw [split] at ih member
        rcases List.mem_cons.mp member with rfl | later
        · obtain ⟨part, encoded⟩ := ih first List.mem_cons_self
          exact ⟨c :: part, congrArg (String.utf8EncodeChar c ++ ·) encoded⟩
        · exact ih line (List.mem_cons_of_mem first later)

theorem linesReadable (text : String) :
    ∀ line ∈ lines text.toUTF8.toList, ∃ s, line.text? = some s := by
  intro line member
  rw [textBytes] at member
  obtain ⟨part, encoded⟩ := linesEncode text.toList line member
  exact Line.textEncoded encoded

end MutationPipeline.Text
