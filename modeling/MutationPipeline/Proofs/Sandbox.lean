import MutationPipeline.Proofs.Paths
import MutationPipeline.RunPlan

/-!
Where the file of a mutant lies when its name is seen from the sandbox. The names of the file are
followed from the sandbox on, so it lies inside unless its name leads out of the sandbox; and a name
that begins at the root is kept as it is, sandbox or not.

Paths are compared as they are written: a name and the `..` behind it cancel each other, and only a
`..` for which there is no name is left, none of them at the root.
-/
namespace MutationPipeline
namespace Path

def settle (root : Bool) (names : List String) (name : String) : List String :=
  if name = ".." then
    match names.getLast? with
    | none => if root then [] else [".."]
    | some last => if last = ".." then names ++ [".."] else names.dropLast
  else names ++ [name]

def settled (p : Path) : Path := { p with names := p.names.foldl (settle p.absolute) [] }

def rise (p : Path) : Nat := p.settled.names.count ".."

def fall (p : Path) : List String := p.settled.names.filter (· ≠ "..")

/-- The path leads to something that lies below the directory. -/
def Below (dir p : Path) : Prop :=
  ∃ names, names ≠ [] ∧ ".." ∉ names ∧ p.settled = dir.settled.append names

section Segments

theorem segmentsInhabited (cs : List Char) : segments cs ≠ [] := by
  cases cs with
  | nil => simp [segments]
  | cons c cs =>
    rw [segments]
    split
    · exact List.cons_ne_nil _ _
    · split <;> exact List.cons_ne_nil _ _

theorem segmentsBreak (front back : List Char) :
    segments (front ++ '/' :: back) = segments front ++ segments back := by
  induction front with
  | nil => rfl
  | cons c front ih =>
    rw [List.cons_append, segments, segments, ih]
    split
    · rfl
    · cases parts : segments front with
      | nil => exact absurd parts (segmentsInhabited front)
      | cons first more => rfl

theorem namesBreak {text : String} (front back : String)
    (here : text.toList = front.toList ++ '/' :: back.toList) :
    (ofText text).names = (ofText front).names ++ (ofText back).names := by
  simp only [ofText, here, segmentsBreak, List.map_append, List.filter_append]

theorem absoluteIff {text : String} : isAbsolute text = true ↔ text.toList.head? = some '/' := by
  rw [isAbsolute, String.startsWith_string_iff]
  cases text.toList with
  | nil => simp
  | cons c rest => simp [List.cons_prefix_cons, eq_comm]

theorem absoluteFront {dir : String} (some : dir ≠ "") (rest : String) :
    isAbsolute (dir ++ rest) = isAbsolute dir := by
  have front : dir.toList ≠ [] := fun none => some (String.toList_eq_nil_iff.mp none)
  rw [Bool.eq_iff_iff, absoluteIff, absoluteIff, String.toList_append,
    List.head?_append_of_ne_nil _ front]

theorem ofTextEmpty : ofText "" = ⟨false, []⟩ := by simp [ofText, isAbsolute, segments]

theorem pathAlike {p q : Path} (absolute : p.absolute = q.absolute) (names : p.names = q.names) :
    p = q := by
  cases p
  cases q
  cases absolute
  cases names
  rfl

theorem joinedNames {dir path : String} (relative : isAbsolute path = false) :
    ofText (joined dir path) = (ofText dir).append (ofText path).names := by
  unfold joined
  rw [relative, Bool.false_or]
  by_cases none : dir = ""
  · rw [if_pos (by simp [none]), none, ofTextEmpty]
    simp [append, ofText, relative]
  · rw [if_neg (by simpa using none)]
    split
    · next ends =>
      rw [String.endsWith_eq_endsWith_toSlice, String.Slice.endsWith_string_iff,
        String.copy_toSlice] at ends
      obtain ⟨before, same⟩ := ends
      have own := namesBreak (String.ofList before) "" (by simp [← same] : dir.toList = _)
      have all := namesBreak (String.ofList before) path (by simp [← same] : (dir ++ path).toList = _)
      rw [ofTextEmpty, List.append_nil] at own
      exact pathAlike (absoluteFront none path) (all.trans (congrArg (· ++ _) own.symm))
    · have all := namesBreak dir path (by simp : (dir ++ "/" ++ path).toList = _)
      rw [String.append_assoc] at all ⊢
      exact pathAlike (absoluteFront none _) all

end Segments

section Settled
variable {root : Bool} {names front down : List String} {name : String} {up : Nat}

def risen (up : Nat) (down : List String) : List String := List.replicate up ".." ++ down

theorem settleOnce (root : Bool) (passed front : List String) (name : String) :
    (settle false passed name).foldl (settle root) front =
      settle root (passed.foldl (settle root) front) name := by
  by_cases upward : name = ".."
  · subst upward
    rcases passed.eq_nil_or_concat with rfl | ⟨before, last, rfl⟩
    · rfl
    · rw [List.concat_eq_append]
      by_cases above : last = ".."
      · simp [settle, above]
      · simp [settle, above]
  · simp [settle, upward]

theorem settleSettled (root : Bool) (names front : List String) :
    (names.foldl (settle false) []).foldl (settle root) front = names.foldl (settle root) front := by
  induction names using List.reverseRecOn with
  | nil => rfl
  | append_singleton names name ih =>
    rw [List.foldl_append, List.foldl_append, ← ih]
    exact settleOnce root _ front name

theorem settleDown (downward : ".." ∉ names) (root : Bool) (front : List String) :
    names.foldl (settle root) front = front ++ names := by
  induction names generalizing front with
  | nil => simp
  | cons name names ih =>
    have first : name ≠ ".." := fun same => downward (same ▸ List.mem_cons_self)
    rw [List.foldl_cons, ih fun member => downward (List.mem_cons_of_mem name member)]
    simp [settle, first]

theorem settleUp (downward : ".." ∉ down) (ground : root = true → up = 0) :
    settle root (risen up down) ".." =
      if down = [] then (if root then [] else risen (up + 1) []) else risen up down.dropLast := by
  rcases down.eq_nil_or_concat with rfl | ⟨before, last, rfl⟩
  · cases up with
    | zero => cases root <;> rfl
    | succ n =>
      cases root with
      | true => cases ground rfl
      | false => simp [settle, risen, List.replicate_succ']
  · have below : last ≠ ".." := fun same => downward (by simp [same])
    simp [settle, risen, below, ← List.append_assoc]

theorem settledRisen (root : Bool) (names : List String) : ∃ up down,
    names.foldl (settle root) [] = risen up down ∧ ".." ∉ down ∧ (root = true → up = 0) := by
  induction names using List.reverseRecOn with
  | nil => exact ⟨0, [], rfl, List.not_mem_nil, fun _ => rfl⟩
  | append_singleton names name ih =>
    obtain ⟨up, down, same, downward, ground⟩ := ih
    rw [List.foldl_append, same, List.foldl_cons, List.foldl_nil]
    by_cases upward : name = ".."
    · rw [upward, settleUp downward ground]
      split
      · cases root with
        | true => exact ⟨0, [], rfl, List.not_mem_nil, fun _ => rfl⟩
        | false => exact ⟨up + 1, [], rfl, List.not_mem_nil, Bool.noConfusion⟩
      · exact ⟨up, down.dropLast, rfl, fun member => downward (List.mem_of_mem_dropLast member),
          ground⟩
    · refine ⟨up, down ++ [name], by simp [settle, upward, risen], ?_, ground⟩
      simpa [Ne.symm upward] using downward

theorem risenCount (downward : ".." ∉ down) (up : Nat) : (risen up down).count ".." = up := by
  simp [risen, List.count_eq_zero.mpr downward]

theorem risenFilter (downward : ".." ∉ down) (up : Nat) :
    (risen up down).filter (· ≠ "..") = down := by
  have kept : down.filter (· ≠ "..") = down :=
    List.filter_eq_self.mpr fun name member => decide_eq_true fun same => downward (same ▸ member)
  rw [risen, List.filter_append, kept]
  simp

structure Parts (p : Path) : Prop where
  names : p.settled.names = risen p.rise p.fall
  downward : ".." ∉ p.fall
  ground : p.absolute = true → p.rise = 0

theorem parts (p : Path) : p.Parts := by
  obtain ⟨up, down, same, downward, ground⟩ := settledRisen p.absolute p.names
  have rise : p.rise = up := by rw [← risenCount downward up, ← same]; rfl
  have fall : p.fall = down := by rw [← risenFilter downward up, ← same]; rfl
  exact ⟨by rw [rise, fall, ← same]; rfl, fall ▸ downward, fun absolute => rise ▸ ground absolute⟩

theorem settleRise (downward : ".." ∉ down) (ground : root = true → up = 0) (n : Nat) :
    (List.replicate n "..").foldl (settle root) (risen up down) =
      if n ≤ down.length then risen up (down.take (down.length - n))
      else if root then [] else risen (up + (n - down.length)) [] := by
  induction n with
  | zero => simp
  | succ n ih =>
    rw [List.replicate_succ', List.foldl_append, ih, List.foldl_cons, List.foldl_nil]
    by_cases inside : n ≤ down.length
    · have front : ".." ∉ down.take (down.length - n) :=
        fun member => downward (List.mem_of_mem_take member)
      rw [if_pos inside, settleUp front ground]
      by_cases last : n = down.length
      · have outside : ¬n + 1 ≤ down.length := by omega
        have one : n + 1 - down.length = 1 := by omega
        rw [if_pos (by simp [last]), if_neg outside, one]
      · have some : down.take (down.length - n) ≠ [] := by
          rw [ne_eq, List.take_eq_nil_iff]
          rintro (none | none)
          · omega
          · exact last (by simpa [none] using inside)
        have further : n + 1 ≤ down.length := by omega
        have shorter : min ((down.take (down.length - n)).length - 1) (down.length - n) =
            down.length - (n + 1) := by rw [List.length_take]; omega
        rw [if_neg some, if_pos further, List.dropLast_eq_take, List.take_take, shorter]
    · have outside : ¬n + 1 ≤ down.length := by omega
      have more : n + 1 - down.length = n - down.length + 1 := by omega
      rw [if_neg inside, if_neg outside, more]
      cases root with
      | true => rfl
      | false =>
        have up := @settleUp false [] (up + (n - down.length)) List.not_mem_nil Bool.noConfusion
        rw [if_pos rfl] at up
        exact up

theorem risenAlike {other : Nat} {beside : List String} (downward : ".." ∉ down)
    (beneath : ".." ∉ beside) (same : risen up down = risen other beside) :
    up = other ∧ down = beside := by
  have counts := congrArg (List.count "..") same
  have falls := congrArg (List.filter (· ≠ "..")) same
  rw [risenCount downward, risenCount beneath] at counts
  rw [risenFilter downward, risenFilter beneath] at falls
  exact ⟨counts, falls⟩

end Settled

theorem settledJoined {dir path : String} (relative : isAbsolute path = false) :
    (ofText (joined dir path)).settled.names =
      if (ofText path).rise ≤ (ofText dir).fall.length then
        risen (ofText dir).rise
          ((ofText dir).fall.take ((ofText dir).fall.length - (ofText path).rise) ++
            (ofText path).fall)
      else
        risen (if (ofText dir).absolute then 0
          else (ofText dir).rise + ((ofText path).rise - (ofText dir).fall.length))
          (ofText path).fall := by
  have home := (ofText dir).parts
  have own := (ofText path).parts
  have start : (ofText path).names.foldl (settle false) [] = (ofText path).settled.names := by
    rw [settled, show (ofText path).absolute = false from relative]
  have along : (ofText (joined dir path)).settled.names =
      (ofText path).names.foldl (settle (ofText dir).absolute) (ofText dir).settled.names := by
    rw [joinedNames relative, settled, append, List.foldl_append]
    rfl
  rw [along, ← settleSettled, start, own.names, risen, List.foldl_append, home.names,
    settleRise home.downward home.ground, settleDown own.downward]
  split
  · rw [risen, risen, List.append_assoc]
  · split <;> simp [risen]

theorem belowNames {dir path : String} (relative : isAbsolute path = false) :
    (ofText dir).Below (ofText (joined dir path)) ↔ ∃ names, names ≠ [] ∧ ".." ∉ names ∧
      (ofText (joined dir path)).settled.names =
        risen (ofText dir).rise ((ofText dir).fall ++ names) := by
  have home := (ofText dir).parts.names
  have kind : (ofText (joined dir path)).settled.absolute = (ofText dir).settled.absolute := by
    rw [joinedNames relative]
    rfl
  refine exists_congr fun names => and_congr_right fun _ => and_congr_right fun _ => ?_
  rw [risen, ← List.append_assoc, ← risen, ← home]
  exact ⟨fun same => congrArg Path.names same, fun same => pathAlike kind same⟩

theorem belowIff {dir path : String} (relative : isAbsolute path = false) :
    (ofText dir).Below (ofText (joined dir path)) ↔
      ((ofText dir).absolute = true ∨ (ofText path).rise ≤ (ofText dir).fall.length) ∧
      ∃ names, names ≠ [] ∧ (ofText path).fall =
        (ofText dir).fall.drop ((ofText dir).fall.length - (ofText path).rise) ++ names := by
  have home := (ofText dir).parts
  have own := (ofText path).parts
  have apart (names : List String) (same : (ofText path).fall =
      (ofText dir).fall.drop ((ofText dir).fall.length - (ofText path).rise) ++ names) :
      ".." ∉ names := fun member => own.downward (by rw [same]; exact List.mem_append_right _ member)
  rw [belowNames relative, settledJoined relative]
  constructor
  · rintro ⟨names, some, downward, same⟩
    have further : ".." ∉ (ofText dir).fall ++ names := by simp [home.downward, downward]
    split at same
    · next inside =>
      refine ⟨.inr inside, names, some, ?_⟩
      have whole := (List.take_append_drop
        ((ofText dir).fall.length - (ofText path).rise) (ofText dir).fall).symm
      rw [risen, risen, List.append_cancel_left_eq] at same
      exact List.append_cancel_left
        (same.trans ((congrArg (· ++ names) whole).trans (List.append_assoc ..)))
    · next outside =>
      obtain ⟨ups, falls⟩ := risenAlike own.downward further same
      refine ⟨?_, names, some, ?_⟩
      · by_contra neither
        rw [if_neg fun root => neither (.inl root)] at ups
        omega
      · rw [falls, show (ofText dir).fall.length - (ofText path).rise = 0 by omega, List.drop_zero]
  · rintro ⟨reached, names, some, same⟩
    refine ⟨names, some, apart names same, ?_⟩
    split
    · rw [same, ← List.append_assoc, List.take_append_drop]
    · next outside =>
      have root := reached.resolve_right outside
      rw [if_pos root, home.ground root, same,
        show (ofText dir).fall.length - (ofText path).rise = 0 by omega, List.drop_zero]

theorem joinedApart {dir path other : String} (relative : isAbsolute path = false)
    (too : isAbsolute other = false) (level : (ofText path).rise = (ofText other).rise)
    (same : (ofText (joined dir path)).settled = (ofText (joined dir other)).settled) :
    (ofText path).settled = (ofText other).settled := by
  have names := congrArg Path.names same
  rw [settledJoined relative, settledJoined too, level] at names
  have falls : (ofText path).fall = (ofText other).fall := by
    split at names
    · exact List.append_cancel_left (List.append_cancel_left names)
    · exact List.append_cancel_left names
  refine pathAlike (relative.trans too.symm) ?_
  rw [(ofText path).parts.names, (ofText other).parts.names, level, falls]

end Path

namespace RunPlan
open MutationPipeline.Path

/-- A file whose name begins at the root is mutated where it is. Any other one is mutated below the
sandbox exactly if its name, having led up, comes down again along the sandbox's own names and then
goes on; a name that does not lead up in the end always does, unless it leads nowhere at all. Files
whose names lead up equally far are never mutated in one place. -/
theorem sandboxHolds {c : Config} {dir : String} (set : c.sandboxDir = some dir)
    (overhead : Duration) (m : CoveredMutant) :
    (isAbsolute m.fileName = true → (ofMutant c overhead m).sandboxFile = m.fileName) ∧
    (isAbsolute m.fileName = false →
      ((ofText dir).Below (ofText (ofMutant c overhead m).sandboxFile) ↔
        ((ofText dir).absolute = true ∨ (ofText m.fileName).rise ≤ (ofText dir).fall.length) ∧
        ∃ names, names ≠ [] ∧ (ofText m.fileName).fall =
          (ofText dir).fall.drop ((ofText dir).fall.length - (ofText m.fileName).rise) ++ names) ∧
      ((ofText m.fileName).rise = 0 → (ofText m.fileName).fall ≠ [] →
        (ofText dir).Below (ofText (ofMutant c overhead m).sandboxFile)) ∧
      ∀ n : CoveredMutant, isAbsolute n.fileName = false →
        (ofText m.fileName).rise = (ofText n.fileName).rise →
        (ofText (ofMutant c overhead m).sandboxFile).settled =
          (ofText (ofMutant c overhead n).sandboxFile).settled →
        (ofText m.fileName).settled = (ofText n.fileName).settled) := by
  have file (n : CoveredMutant) : (ofMutant c overhead n).sandboxFile = joined dir n.fileName := by
    simp only [ofMutant, Config.sandboxFile, set]
  refine ⟨fun absolute => ?_, fun relative => ?_⟩
  · rw [file, joined, absolute]
    rfl
  · simp only [file]
    refine ⟨belowIff relative, fun level some => ?_, fun n too level same => ?_⟩
    · exact (belowIff relative).mpr ⟨.inr (level ▸ Nat.zero_le _), _, some, by simp [level]⟩
    · exact joinedApart relative too level same

def boxed : Config := { sandboxDir := some "/tmp/sandbox" }

def planFor (file : String) : RunPlan := ofMutant boxed ⟨0⟩ { id := "1", fileName := file }

theorem sandboxHoldsInside :
    boxed.sandboxDir = some "/tmp/sandbox" ∧ isAbsolute "./src/a.ts" = false ∧
      (ofText "/tmp/sandbox").Below (ofText (planFor "./src/a.ts").sandboxFile) ∧
      ¬(ofText "/tmp/sandbox").Below (ofText (planFor "src/../../a.ts").sandboxFile) ∧
      (planFor "/src/a.ts").sandboxFile = "/src/a.ts" := by
  have inside : (ofText "./src/a.ts").rise = 0 ∧ (ofText "./src/a.ts").fall = ["src", "a.ts"] := by
    constructor <;> cbv
  have outside : (ofText "src/../../a.ts").rise = 1 ∧ (ofText "src/../../a.ts").fall = ["a.ts"] ∧
      (ofText "/tmp/sandbox").fall = ["tmp", "sandbox"] := by
    refine ⟨?_, ?_, ?_⟩ <;> cbv
  have relative : isAbsolute "./src/a.ts" = false := by cbv
  have held (file : String) := sandboxHolds (c := boxed) rfl ⟨0⟩ { id := "1", fileName := file }
  refine ⟨rfl, relative, ((held "./src/a.ts").2 relative).2.1 inside.1 (by simp [inside.2]),
    fun below => ?_,
    (held "/src/a.ts").1 (by cbv)⟩
  obtain ⟨-, names, -, same⟩ := (((held "src/../../a.ts").2 (by cbv)).1).mp below
  rw [outside.1, outside.2.1, outside.2.2] at same
  simp at same

/-- A file that is named from the root, and one beside the sandbox, are mutated where they are, outside
the sandbox; and a file is mutated in the place of another one. -/
theorem sandboxLeft :
    (planFor "/src/a.ts").sandboxFile = "/src/a.ts" ∧
      ¬(ofText "/tmp/sandbox").Below (ofText (planFor "/src/a.ts").sandboxFile) ∧
      (planFor "../a.ts").sandboxFile = "/tmp/sandbox/../a.ts" ∧
      ¬(ofText "/tmp/sandbox").Below (ofText (planFor "../a.ts").sandboxFile) ∧
      (ofText "a.ts").settled ≠ (ofText "../sandbox/a.ts").settled ∧
      (ofText (planFor "a.ts").sandboxFile).settled =
        (ofText (planFor "../sandbox/a.ts").sandboxFile).settled := by
  have apart (text : String) {names : List String}
      (same : (ofText text).settled = ⟨true, names⟩) (other : ¬["tmp", "sandbox"] <+: names) :
      ¬(ofText "/tmp/sandbox").Below (ofText text) := by
    rintro ⟨more, -, -, below⟩
    rw [same, show (ofText "/tmp/sandbox").settled = ⟨true, ["tmp", "sandbox"]⟩ by cbv] at below
    exact other ⟨more, (congrArg Path.names below).symm⟩
  have seen (file : String) : (planFor file).sandboxFile = joined "/tmp/sandbox" file := rfl
  have absolute : joined "/tmp/sandbox" "/src/a.ts" = "/src/a.ts" := by cbv
  have climbing : joined "/tmp/sandbox" "../a.ts" = "/tmp/sandbox/../a.ts" := by cbv
  have plain : (ofText "a.ts").settled = ⟨false, ["a.ts"]⟩ := by cbv
  have around : (ofText "../sandbox/a.ts").settled = ⟨false, ["..", "sandbox", "a.ts"]⟩ := by cbv
  simp only [seen]
  refine ⟨absolute, ?_, climbing, ?_, ?_, ?_⟩
  · rw [absolute]
    exact apart "/src/a.ts" (by cbv) (by simp)
  · rw [climbing]
    exact apart "/tmp/sandbox/../a.ts" (by cbv) (by simp)
  · rw [plain, around]
    simp
  · rw [joinedNames (by cbv), joinedNames (by cbv),
      show ofText "/tmp/sandbox" = ⟨true, ["tmp", "sandbox"]⟩ by cbv,
      show ofText "a.ts" = ⟨false, ["a.ts"]⟩ by cbv,
      show ofText "../sandbox/a.ts" = ⟨false, ["..", "sandbox", "a.ts"]⟩ by cbv]
    simp [settled, append, settle]

end RunPlan
end MutationPipeline
