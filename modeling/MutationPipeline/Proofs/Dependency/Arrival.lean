import MutationPipeline.Proofs.Dependency.Sources

/-!
Where a path leads when its names are followed one by one, and where its normal form leads. The two
places are the same for a path from the root, and for a path from a directory as long as it never
leads more than one directory above the one where it begins: of two names `..` that stand behind
each other in front of the normal form the second one takes the first one away.
-/
namespace MutationPipeline
namespace Path

def onward (dir : List String) (name : String) : List String :=
  if name = ".." then dir.dropLast else dir ++ [name]

def arrival (p : Path) (dir : List String) : List String :=
  p.names.foldl onward (if p.absolute then [] else dir)

def descent (names : List String) : Int := names.countP (· ≠ "..") - names.count ".."

/-- It never leads more than one directory above the one where it begins. -/
def Shallow (p : Path) : Prop := ∀ front, front <+: p.names → -1 ≤ descent front

instance (p : Path) : Decidable p.Shallow :=
  decidable_of_iff (∀ front ∈ p.names.inits, -1 ≤ descent front) (by simp [Shallow])

theorem descentAppend (names others : List String) :
    descent (names ++ others) = descent names + descent others := by
  simp only [descent, List.countP_append, List.count_append]
  omega

theorem descentCons (name : String) (names : List String) :
    descent (name :: names) = descent [name] + descent names :=
  descentAppend [name] names

theorem descentUp : descent [".."] = -1 := by decide

theorem descentName {name : String} (down : name ≠ "..") : descent [name] = 1 := by
  simp [descent, down]

theorem descentStraight {names : List String} (ascends : ".." ∉ names.tail) :
    -1 ≤ descent names := by
  cases names with
  | nil => decide
  | cons first rest =>
    have none : rest.count ".." = 0 := List.count_eq_zero.mpr ascends
    have one : (first :: rest).count ".." ≤ 1 := by
      rw [List.count_cons, none]
      split <;> decide
    simp only [descent]
    omega

theorem onwardLength {names dir : List String} (deep : names.count ".." ≤ dir.length) :
    ((names.foldl onward dir).length : Int) = dir.length + descent names := by
  induction names generalizing dir with
  | nil => simp [descent]
  | cons name rest ih =>
    rw [List.foldl_cons, descentCons]
    by_cases up : name = ".."
    · subst up
      rw [List.count_cons_self] at deep
      have left : (onward dir "..").length = dir.length - 1 := by simp [onward]
      rw [ih (by omega), left, descentUp]
      omega
    · rw [List.count_cons_of_ne up] at deep
      have more : (onward dir name).length = dir.length + 1 := by simp [onward, up]
      rw [ih (by omega), more, descentName up]
      omega

theorem followCases {names : List String} (ascends : ".." ∉ names.tail) (name : String) :
    (names = [".."] ∧ name = ".." ∧ follow names name = []) ∨
      (descent (follow names name) = descent names + descent [name] ∧
        ∀ dir, (follow names name).foldl onward dir = onward (names.foldl onward dir) name) := by
  unfold follow
  split
  · next up =>
    subst up
    rcases names.eq_nil_or_concat with rfl | ⟨front, last, rfl⟩
    · exact .inr ⟨rfl, fun dir => rfl⟩
    · rw [List.concat_eq_append] at *
      have some : front ++ [last] ≠ [] := by simp
      rw [if_neg some, List.dropLast_concat]
      by_cases above : last = ".."
      · cases front with
        | nil => exact .inl ⟨by rw [above]; rfl, rfl, rfl⟩
        | cons first more => exact absurd (by simp [above]) ascends
      · refine .inr ⟨?_, fun dir => ?_⟩
        · rw [descentAppend, descentName above, descentUp]
          omega
        · simp [onward, above]
  · next down =>
    refine .inr ⟨descentAppend names [name], fun dir => ?_⟩
    rw [List.foldl_append]
    rfl

/-- The names that were followed already stand in front, and all prefixes of the others lead one
directory up at most, unless the root is where they begin. -/
theorem followsArrive {names front dir : List String} (ascends : ".." ∉ front.tail)
    (shallow : dir = [] ∨ ∀ more, more <+: names → -1 ≤ descent front + descent more) :
    (names.foldl follow front).foldl onward dir = names.foldl onward (front.foldl onward dir) := by
  induction names generalizing front with
  | nil => rfl
  | cons name rest ih =>
    rw [List.foldl_cons, List.foldl_cons]
    rcases followCases ascends name with ⟨rfl, rfl, none⟩ | ⟨same, leads⟩
    · rcases shallow with rfl | shallow
      · rw [ih (followAscends ascends "..") (.inl rfl), none]
        rfl
      · exact absurd (shallow [".."] ⟨rest, rfl⟩) (by decide)
    · rw [← leads dir]
      refine ih (followAscends ascends name) (shallow.imp_right fun bound more further => ?_)
      rw [same, Int.add_assoc, ← descentCons]
      exact bound (name :: more) (List.cons_prefix_cons.mpr ⟨rfl, further⟩)

theorem followsDescend {names front : List String} (ascends : ".." ∉ front.tail) :
    descent front + descent names ≤ descent (names.foldl follow front) ∧
      ∀ more, more <+: names → descent front + descent more < -1 →
        descent front + descent names < descent (names.foldl follow front) := by
  induction names generalizing front with
  | nil =>
    refine ⟨Int.le_of_eq (Int.add_zero _), fun more further low => ?_⟩
    obtain rfl := List.prefix_nil.mp further
    have high := descentStraight ascends
    rw [show descent [] = 0 from rfl] at low
    omega
  | cons name rest ih =>
    rw [List.foldl_cons, descentCons]
    obtain ⟨least, less⟩ := ih (followAscends ascends name)
    rcases followCases ascends name with ⟨rfl, rfl, none⟩ | ⟨same, -⟩
    · rw [none] at least ⊢
      rw [show descent [] = 0 from rfl] at least
      rw [descentUp]
      exact ⟨by omega, fun _ _ _ => by omega⟩
    · refine ⟨by omega, fun more further low => ?_⟩
      cases more with
      | nil =>
        have high := descentStraight ascends
        rw [show descent [] = 0 from rfl] at low
        omega
      | cons first others =>
        obtain ⟨rfl, onwards⟩ := List.cons_prefix_cons.mp further
        rw [descentCons] at low
        have := less others onwards (by omega)
        omega

theorem followCount (names front : List String) :
    (names.foldl follow front).count ".." ≤ front.count ".." + names.count ".." := by
  induction names generalizing front with
  | nil => exact Nat.le_refl _
  | cons name rest ih =>
    have step : (follow front name).count ".." ≤ front.count ".." + [name].count ".." := by
      unfold follow
      split
      · next up =>
        subst up
        split
        · exact Nat.le_add_left _ _
        · exact Nat.le_add_right_of_le (front.dropLast_sublist.count_le "..")
      · rw [List.count_append]
    have split : (name :: rest).count ".." = [name].count ".." + rest.count ".." := by
      rw [← List.singleton_append, List.count_append]
    rw [List.foldl_cons, split]
    exact (ih _).trans (by omega)

theorem normalArrival {p : Path} {dir : List String}
    (deep : p.absolute = false → p.names.count ".." ≤ dir.length) :
    p.normal.arrival dir = p.arrival dir ↔ p.absolute = true ∨ p.Shallow := by
  have start : descent ([] : List String) = 0 := rfl
  have ascends : ".." ∉ List.tail ([] : List String) := by simp
  refine ⟨fun same => ?_, fun tame => ?_⟩
  · by_contra wild
    obtain ⟨relative, steep⟩ := not_or.mp wild
    have relative : p.absolute = false := Bool.eq_false_iff.mpr relative
    have deep := deep relative
    obtain ⟨front, among, low⟩ : ∃ front, front <+: p.names ∧ descent front < -1 := by
      simpa [Shallow] using steep
    have less := (followsDescend ascends).2 front among (by omega)
    have shorter : p.normal.names.count ".." ≤ dir.length :=
      ((followCount p.names []).trans (by simp)).trans deep
    have lengths := congrArg (fun names => (names.length : Int)) same
    simp only [arrival, relative, show p.normal.absolute = false from relative,
      Bool.false_eq_true, if_false] at lengths
    rw [onwardLength deep, onwardLength shorter] at lengths
    rw [start, Int.zero_add] at less
    simp only [normal] at lengths
    omega
  · refine followsArrive ascends ?_
    rcases tame with absolute | shallow
    · exact .inl (if_pos absolute)
    · refine .inr fun more among => ?_
      rw [start, Int.zero_add]
      exact shallow more among

theorem ofTextRead {p : Path} (proper : ∀ name ∈ p.names, Proper name) : ofText p.text = p := by
  obtain ⟨absolute, names⟩ := p
  cases absolute with
  | false => simpa [text] using ofTextText proper
  | true =>
    have relative := ofTextText proper
    have opens : ("/" ++ "/".intercalate names).toList = '/' :: ("/".intercalate names).toList := by
      simp
    have root : isAbsolute ("/" ++ "/".intercalate names) = true :=
      String.startsWith_string_iff.mpr ⟨("/".intercalate names).toList, opens.symm⟩
    simp only [ofText, Path.mk.injEq] at relative
    simp only [text, if_true, ofText, root, opens, segments, List.map_cons, Path.mk.injEq, true_and]
    exact relative.2

end Path

namespace Dependency
open MutationPipeline.Path

def way (file specifier : String) : Path :=
  (ofText file).parent.append (ofText specifier).names

theorem relativeStays {source specifier : String} (among : specifier ∈ relativeSpecifiers source) :
    isAbsolute specifier = false := by
  obtain ⟨s, kept, rfl⟩ := List.mem_map.mp (memFirsts.mp among)
  have relative : isRelative s = true := (List.mem_filter.mp kept).2
  refine Bool.eq_false_iff.mpr fun absolute => ?_
  obtain ⟨rest, same⟩ := String.startsWith_string_iff.mp absolute
  simp only [String.toList_ofList] at same
  rw [← same] at relative
  simp [isRelative] at relative

theorem wayArrival {file specifier : String} (relative : isAbsolute specifier = false)
    (dir : List String) :
    (way file specifier).arrival dir =
      (ofText specifier).arrival ((ofText file).parent.arrival dir) := by
  have onwards : (ofText specifier).absolute = false := relative
  simp only [way, arrival, append, onwards, Bool.false_eq_true, if_false, List.foldl_append]
  rfl

theorem targetRead (file specifier : String) :
    ofText (ImportSearch.target file specifier) = (way file specifier).normal := by
  refine ofTextRead fun name member => ?_
  rcases List.mem_append.mp (memNormal member) with own | further
  · exact ofTextProper file name (List.mem_of_mem_dropLast own)
  · exact ofTextProper specifier name further

/-- A path and its normal form lead to the same place exactly as long as the path is shallow. So a
required file is named by the place to which its specifier leads, exactly as long as the way there
from the working directory is shallow. -/
theorem normalLeads (p : Path) (dir : List String) :
    ((p.absolute = false → p.names.count ".." ≤ dir.length) →
      (p.normal.arrival dir = p.arrival dir ↔ p.absolute = true ∨ p.Shallow)) ∧
    ∀ (search : ImportSearch) (t : FileTree) (file found : String),
      (search.resolve t.disk).Requires file found →
      ∃ source specifier, t.read file = .ok source ∧ specifier ∈ relativeSpecifiers source ∧
        t.isFile found = true ∧ found ∈ search.candidates (ImportSearch.target file specifier) ∧
        ((isAbsolute file = false → (way file specifier).names.count ".." ≤ dir.length) →
          ((ofText (ImportSearch.target file specifier)).arrival dir =
              (ofText specifier).arrival ((ofText file).parent.arrival dir) ↔
            isAbsolute file = true ∨ (way file specifier).Shallow)) := by
  refine ⟨normalArrival, fun search t file found required => ?_⟩
  obtain ⟨source, read, specifier, among, located⟩ := ImportSearch.requiresIff.mp required
  obtain ⟨candidate, there⟩ := ImportSearch.locateFound located
  refine ⟨source, specifier, read, among, there, candidate, fun deep => ?_⟩
  rw [targetRead, ← wayArrival (relativeStays among)]
  exact normalArrival (p := way file specifier) deep

def climbing : FileTree :=
  ⟨[(["w", "a.ts"], some "import '../../b'".toUTF8), (["w", "b.ts"], some "".toUTF8)]⟩

theorem normalLeadsPair :
    (ofText "x/../../b").names.count ".." ≤ ["v", "w"].length ∧
      (ofText "x/../../b").normal.arrival ["v", "w"] = ["v", "b"] ∧
      (({} : ImportSearch).resolve ImportSearch.pair.disk).Requires "a.ts" "b.ts" ∧
      ∃ specifier ∈ relativeSpecifiers "import './b'",
        "b.ts" ∈ ({} : ImportSearch).candidates (ImportSearch.target "a.ts" specifier) ∧
        (ofText (ImportSearch.target "a.ts" specifier)).arrival ["v", "w"] = ["v", "w", "b"] := by
  have deep : (ofText "x/../../b").names.count ".." ≤ ["v", "w"].length := by cbv
  have leads : (ofText "x/../../b").arrival ["v", "w"] = ["v", "b"] := by cbv
  have shallow : (ofText "x/../../b").Shallow := by
    rw [show ofText "x/../../b" = ⟨false, ["x", "..", "..", "b"]⟩ by cbv]
    decide
  have beside : (way "a.ts" "./b").Shallow := by
    rw [show way "a.ts" "./b" = ⟨false, ["b"]⟩ by cbv]
    decide
  have required : (({} : ImportSearch).resolve ImportSearch.pair.disk).Requires "a.ts" "b.ts" :=
    ⟨["b.ts"], by cbv, by simp⟩
  obtain ⟨law, imports⟩ := normalLeads (ofText "x/../../b") ["v", "w"]
  obtain ⟨source, specifier, read, among, -, candidate, ends⟩ := imports {} _ _ _ required
  have text : ImportSearch.pair.read "a.ts" = .ok "import './b'" := by cbv
  obtain rfl := Except.ok.inj (read.symm.trans text)
  refine ⟨deep, ((law fun _ => deep).mpr (.inr shallow)).trans leads, required, specifier, among,
    candidate, ?_⟩
  obtain rfl : specifier = "./b" := by
    rw [show relativeSpecifiers "import './b'" = ["./b"] by cbv] at among
    exact List.mem_singleton.mp among
  exact ((ends fun _ => by cbv).mpr (.inr beside)).trans (by cbv)

/-- The second of two names `..` takes the first one away. -/
theorem climbingStays :
    (ofText "../../b").absolute = false ∧ (ofText "../../b").names.count ".." ≤ ["v", "w"].length ∧
      (ofText "../../b").arrival ["v", "w"] = ["b"] ∧
      (ofText "../../b").normal.arrival ["v", "w"] = ["v", "w", "b"] ∧
      climbing.read "a.ts" = .ok "import '../../b'" ∧
      relativeSpecifiers "import '../../b'" = ["../../b"] ∧
      ((({} : ImportSearch).resolve climbing.disk) "a.ts").run.outcome = .ok ["b.ts"] ∧
      FileTree.placeOf "../../b.ts" = .beyond ∧ FileTree.placeOf "b.ts" = .at ["w", "b.ts"] := by
  refine ⟨by cbv, by cbv, by cbv, by cbv, by cbv, by cbv, by cbv, by cbv, by cbv⟩

end Dependency
end MutationPipeline
