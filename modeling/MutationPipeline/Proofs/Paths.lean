import Mathlib
import MutationPipeline.Disk

/-!
What the text of a path says about the path. Names that are put together with `/` are told apart
again, and a file that is named from the working directory by names alone stands at one place only.
-/
namespace MutationPipeline
namespace Path

structure Proper (name : String) : Prop where
  inhabited : name ≠ ""
  onward : name ≠ "."
  whole : '/' ∉ name.toList

theorem segmentsWhole {cs : List Char} (whole : '/' ∉ cs) : segments cs = [cs] := by
  induction cs with
  | nil => rfl
  | cons c cs ih =>
    have first : c ≠ '/' := fun same => whole (same ▸ List.mem_cons_self)
    rw [segments, if_neg first, ih fun member => whole (List.mem_cons_of_mem c member)]

theorem segmentsAppend {cs : List Char} (whole : '/' ∉ cs) (rest : List Char) :
    segments (cs ++ '/' :: rest) = cs :: segments rest := by
  induction cs with
  | nil => rfl
  | cons c cs ih =>
    have first : c ≠ '/' := fun same => whole (same ▸ List.mem_cons_self)
    rw [List.cons_append, segments, if_neg first,
      ih fun member => whole (List.mem_cons_of_mem c member)]

theorem segmentsApart (cs : List Char) : ∀ segment ∈ segments cs, '/' ∉ segment := by
  induction cs with
  | nil => simp [segments]
  | cons c cs ih =>
    rcases Decidable.em (c = '/') with rfl | other
    · simpa [segments] using ih
    · rw [segments, if_neg other]
      cases parts : segments cs with
      | nil => simpa using Ne.symm other
      | cons first more =>
        rw [parts] at ih
        simpa [Ne.symm other] using ih

theorem segmentsText {names : List String} (inhabited : names ≠ [])
    (whole : ∀ name ∈ names, '/' ∉ name.toList) :
    segments ("/".intercalate names).toList = names.map String.toList := by
  induction names with
  | nil => exact absurd rfl inhabited
  | cons name names ih =>
    have own := whole name List.mem_cons_self
    cases names with
    | nil => rw [String.intercalate_singleton, segmentsWhole own]; rfl
    | cons next more =>
      have text : ("/".intercalate (name :: next :: more)).toList =
          name.toList ++ '/' :: ("/".intercalate (next :: more)).toList := by
        simp [String.intercalate_cons_cons]
      rw [text, segmentsAppend own, List.map_cons,
        ih (List.cons_ne_nil _ _) fun n member => whole n (List.mem_cons_of_mem name member)]

theorem ofTextProper (text : String) : ∀ name ∈ (ofText text).names, Proper name := by
  intro name member
  obtain ⟨among, kept⟩ := List.mem_filter.mp member
  obtain ⟨segment, there, rfl⟩ := List.mem_map.mp among
  simp only [decide_eq_true_eq] at kept
  exact ⟨kept.1, kept.2, by simpa using segmentsApart _ segment there⟩

theorem absoluteOpens {text : String} (absolute : isAbsolute text = true) :
    ∃ rest, segments text.toList = [] :: rest := by
  obtain ⟨rest, same⟩ := String.startsWith_string_iff.mp absolute
  exact ⟨segments rest, by rw [← same]; rfl⟩

theorem ofTextText {names : List String} (proper : ∀ name ∈ names, Proper name) :
    ofText ("/".intercalate names) = ⟨false, names⟩ := by
  cases names with
  | nil => simp [ofText, isAbsolute, segments]
  | cons name names =>
    have parts := segmentsText (List.cons_ne_nil name names) fun n member => (proper n member).whole
    have relative : isAbsolute ("/".intercalate (name :: names)) = false := by
      refine Bool.eq_false_iff.mpr fun absolute => ?_
      obtain ⟨rest, opens⟩ := absoluteOpens absolute
      rw [parts, List.map_cons] at opens
      exact (proper name List.mem_cons_self).inhabited
        (String.toList_eq_nil_iff.mp (List.cons.inj opens).1)
    have kept : ((name :: names).filter fun s => s ≠ "" ∧ s ≠ ".") = name :: names :=
      List.filter_eq_self.mpr fun n member =>
        decide_eq_true ⟨(proper n member).inhabited, (proper n member).onward⟩
    rw [ofText, relative, parts, List.map_map]
    simp only [Function.comp_def, String.ofList_toList, List.map_id', kept]

theorem intercalateConcat {front : List String} (inhabited : front ≠ []) (last : String) :
    "/".intercalate (front ++ [last]) = "/".intercalate front ++ "/" ++ last := by
  rw [String.intercalate_append_of_ne_nil inhabited (List.cons_ne_nil last []),
    String.intercalate_singleton]

theorem intercalateEnding (front : List String) (last ending : String) :
    "/".intercalate (front ++ [last]) ++ ending = "/".intercalate (front ++ [last ++ ending]) := by
  cases front with
  | nil => simp
  | cons first more =>
    rw [intercalateConcat (List.cons_ne_nil first more), String.append_assoc,
      intercalateConcat (List.cons_ne_nil first more)]

theorem endingApart {front : List String} {last : String} (proper : Proper last) :
    ("/".intercalate (front ++ [last])).endsWith "/" = false := by
  refine Bool.eq_false_iff.mpr fun ends => ?_
  rw [String.endsWith_eq_endsWith_toSlice, String.Slice.endsWith_string_iff,
    String.copy_toSlice] at ends
  obtain ⟨before, same⟩ := ends
  obtain ⟨inner, c, split⟩ := (List.eq_nil_or_concat last.toList).resolve_left
    fun none => proper.inhabited (String.toList_eq_nil_iff.mp none)
  rw [List.concat_eq_append] at split
  have whole : ∃ start, ("/".intercalate (front ++ [last])).toList = start ++ last.toList := by
    cases front with
    | nil => exact ⟨[], by simp⟩
    | cons first more =>
      rw [intercalateConcat (List.cons_ne_nil first more)]
      exact ⟨_, String.toList_append⟩
  obtain ⟨start, text⟩ := whole
  rw [text, split, ← List.append_assoc] at same
  have slash : c = '/' := (List.cons.inj (List.append_inj' same rfl).2).1.symm
  exact proper.whole (by rw [split, slash]; simp)

/-- A path from the working directory. Only its first name may be `..`. -/
structure Straight (p : Path) : Prop where
  relative : p.absolute = false
  ascends : ".." ∉ p.names.tail

theorem followAscends {names : List String} (ascends : ".." ∉ names.tail) (name : String) :
    ".." ∉ (follow names name).tail := by
  unfold follow
  split
  · split
    · simp
    · rw [List.tail_dropLast]
      exact fun member => ascends (List.mem_of_mem_dropLast member)
  · next other =>
    cases names with
    | nil => simp
    | cons first more => simpa [Ne.symm other] using ascends

theorem normalAscends (p : Path) : ".." ∉ p.normal.names.tail := by
  have follows (names front : List String) (ascends : ".." ∉ front.tail) :
      ".." ∉ (names.foldl follow front).tail := by
    induction names generalizing front with
    | nil => exact ascends
    | cons name names ih => exact ih _ (followAscends ascends name)
  exact follows p.names [] (by simp)

theorem memFollow {names : List String} {name n : String} (member : n ∈ follow names name) :
    n ∈ names ∨ n = name := by
  unfold follow at member
  split at member
  · next up =>
    split at member
    · exact .inr ((List.mem_singleton.mp member).trans up.symm)
    · exact .inl (List.mem_of_mem_dropLast member)
  · simpa using member

theorem memNormal {p : Path} {n : String} (member : n ∈ p.normal.names) : n ∈ p.names := by
  have follows (names front : List String) (later : n ∈ names.foldl follow front) :
      n ∈ front ∨ n ∈ names := by
    induction names generalizing front with
    | nil => exact .inl later
    | cons name names ih =>
      rcases ih _ later with inside | after
      · exact (memFollow inside).imp_right fun same => List.mem_cons.mpr (.inl same)
      · exact .inr (List.mem_cons_of_mem name after)
  exact (follows p.names [] member).resolve_left List.not_mem_nil

end Path

namespace FileTree
open MutationPipeline.Path

theorem placeOfNames (file : String) :
    placeOf file = (ofText file).names.foldl enter (.at workingNames) := by
  rw [placeOf, ofText, List.foldl_filter]
  congr 1
  funext place name
  by_cases idle : name = "" ∨ name = "."
  · have kept : ¬ (name ≠ "" ∧ name ≠ ".") := by tauto
    simp [idle, kept]
  · have kept : name ≠ "" ∧ name ≠ "." := by tauto
    simp [kept]

theorem enterNames {names : List String} (descends : ".." ∉ names) (place : List String) :
    names.foldl enter (.at place) = .at (place ++ names) := by
  induction names generalizing place with
  | nil => simp
  | cons name names ih =>
    have first : name ≠ ".." := fun same => descends (same ▸ List.mem_cons_self)
    rw [List.foldl_cons, enter, if_neg first,
      ih (fun member => descends (List.mem_cons_of_mem name member)), List.append_assoc,
      List.singleton_append]

def Returns (p : Path) : Prop := ".." :: workingNames <+: p.names

def straightNames : List String → List String
  | ".." :: rest => rest
  | names => workingNames ++ names

theorem placeStraight {file : String} (straight : (ofText file).Straight) :
    placeOf file = .at (straightNames (ofText file).names) := by
  have ascends := straight.ascends
  rw [placeOfNames]
  generalize (ofText file).names = names at ascends
  unfold straightNames
  split
  · next rest =>
    have up : enter (.at workingNames) ".." = .at [] := rfl
    rw [List.foldl_cons, up, @enterNames rest ascends, List.nil_append]
  · next other =>
    refine enterNames (fun member => ?_) workingNames
    cases names with
    | nil => exact absurd member List.not_mem_nil
    | cons first more =>
      rcases List.mem_cons.mp member with rfl | later
      · exact other more rfl
      · exact ascends later

theorem straightInjective {names others : List String}
    (home : ¬ ".." :: workingNames <+: names) (same : straightNames names = straightNames others)
    (homeward : ¬ ".." :: workingNames <+: others) : names = others := by
  unfold straightNames at same
  split at same <;> split at same
  · rw [same]
  · next rest _ =>
    exact absurd ⟨_, congrArg (".." :: ·) same.symm⟩ home
  · exact absurd ⟨_, congrArg (".." :: ·) same⟩ homeward
  · exact List.append_cancel_left same

theorem walkEnds {t : FileTree} {place found : Place} {names : List String} {kind : Kind}
    (ends : t.walk place names = .ok (found, kind)) :
    found = names.foldl (fun p name => if name = "" ∨ name = "." then p else enter p name) place ∧
      t.kind? found = some kind := by
  induction names generalizing place with
  | nil =>
    rw [walk] at ends
    split at ends
    · next k here =>
      cases ends
      exact ⟨rfl, here⟩
    · cases ends
  | cons name names ih =>
    rw [walk] at ends
    rw [List.foldl_cons]
    split at ends
    · cases ends
    · cases ends
    · split at ends
      · next idle => rw [if_pos idle]; exact ih ends
      · next idle =>
        rw [if_neg idle]
        split at ends
        · cases ends
        · split at ends
          · cases ends
          · exact ih ends

theorem lookKind {t : FileTree} {file : String} {kind : Kind}
    (relative : isAbsolute file = false) (found : t.look file = .ok kind) :
    t.kind? (placeOf file) = some kind := by
  have walked : (t.walk (.at workingNames) ((segments file.toList).map String.ofList)).map (·.2) =
      .ok kind := by
    simp only [look, relative, Bool.false_eq_true, if_false] at found
    split at found
    · cases found
    · split at found
      · cases found
      · split at found
        · cases found
        · exact found
  match ends : t.walk (.at workingNames) ((segments file.toList).map String.ofList) with
  | .error e => rw [ends] at walked; cases walked
  | .ok (place, k) =>
    rw [ends] at walked
    cases walked
    obtain ⟨rfl, there⟩ := walkEnds ends
    exact there

theorem lookFile {t : FileTree} {file : String} (there : t.isFile file = true) :
    ∃ content, t.look file = .ok (.file content) := by
  unfold isFile at there
  split at there
  · next content found => exact ⟨content, found⟩
  · cases there

theorem readFile {t : FileTree} {file text : String} (read : t.read file = .ok text) :
    ∃ content, t.look file = .ok (.file content) ∧ String.fromUTF8? content = some text := by
  match found : t.look file with
  | .error e => simp [FileTree.read, readBytes, found, bind, Except.bind] at read
  | .ok .directory => simp [FileTree.read, readBytes, found, bind, Except.bind] at read
  | .ok (.file content) =>
    refine ⟨content, rfl, ?_⟩
    simp only [FileTree.read, readBytes, found, bind, Except.bind] at read
    split at read
    · next s decoded => cases read; exact decoded
    · cases read

theorem readAlike {t : FileTree} {file other text : String}
    (relative : isAbsolute file = false) (too : isAbsolute other = false)
    (same : placeOf file = placeOf other) (read : t.read file = .ok text)
    (there : t.isFile other = true) : t.read other = .ok text := by
  obtain ⟨content, found, decoded⟩ := readFile read
  obtain ⟨own, beside⟩ := lookFile there
  have here : some (Kind.file content) = some (Kind.file own) :=
    (lookKind relative found).symm.trans (same ▸ lookKind too beside)
  cases here
  simp [FileTree.read, readBytes, beside, bind, Except.bind, decoded]

theorem workingNoFile (t : FileTree) : t.isFile "." = false := by
  refine Bool.eq_false_iff.mpr fun there => ?_
  obtain ⟨content, found⟩ := lookFile there
  have here : t.kind? (.at workingNames) = some (.file content) := lookKind (by cbv) found
  have started : t.look "." = (t.walk (.at workingNames) ["."]).map (·.2) := by cbv
  rw [started, walk, here] at found
  cases found

theorem kindEntry {t : FileTree} {names : List String} {content : ByteArray}
    (here : t.kind? (.at names) = some (.file content)) : ∃ e ∈ t.entries, e.1 = names := by
  simp only [kind?] at here
  split at here
  · next found =>
    obtain ⟨front, back, whole, -⟩ := List.lookup_eq_some_iff.mp found
    exact ⟨_, by rw [whole]; exact List.mem_append_right _ List.mem_cons_self, rfl⟩
  · cases here
  · split at here <;> cases here

end FileTree
end MutationPipeline
