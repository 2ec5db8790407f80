import MutationPipeline.Proofs.Dependency.Groups
import MutationPipeline.Proofs.Paths

/-!
Groups of mutants whose files are read from a disk. A located file is named by the names that lead
to it, so mutants that are named in the same way and never by way of the directory above are told
apart as their files are.
-/
namespace MutationPipeline.Dependency
open Relation MutationPipeline.Path

/-- A file that is named from the working directory by the names that lead to it. -/
structure Plain (file : String) : Prop where
  straight : (ofText file).Straight
  text : (ofText file).text = file

theorem plainOfNames {names : List String} (proper : ∀ name ∈ names, Proper name)
    (ascends : ".." ∉ names.tail) : Plain ("/".intercalate names) := by
  have path := ofTextText proper
  exact ⟨by rw [path]; exact ⟨rfl, ascends⟩, by rw [path]; simp [Path.text]⟩

theorem Plain.relative {file : String} (plain : Plain file) : isAbsolute file = false :=
  plain.straight.relative

namespace ImportSearch

variable {search : ImportSearch} {t : FileTree}

theorem targetNames {file : String} (relative : isAbsolute file = false) (specifier : String) :
    ∃ names, (∀ name ∈ names, Proper name) ∧ ".." ∉ names.tail ∧
      target file specifier = "/".intercalate names := by
  let path := (ofText file).parent.append (ofText specifier).names
  refine ⟨path.normal.names, fun name member => ?_, normalAscends path, ?_⟩
  · rcases List.mem_append.mp (memNormal member) with own | further
    · exact ofTextProper file name (List.mem_of_mem_dropLast own)
    · exact ofTextProper specifier name further
  · have here : path.normal.absolute = false := relative
    change path.normal.text = _
    rw [Path.text, here]
    simp

theorem properEnding {last ending : String} (proper : Proper last) (whole : '/' ∉ ending.toList) :
    Proper (last ++ "." ++ ending) ∧ last ++ "." ++ ending ≠ ".." := by
  obtain ⟨c, more, split⟩ := List.exists_cons_of_ne_nil
    fun none => proper.inhabited (String.toList_eq_nil_iff.mp none)
  have text : (last ++ "." ++ ending).toList = c :: (more ++ '.' :: ending.toList) := by
    simp [split]
  have long : 2 ≤ (last ++ "." ++ ending).toList.length := by
    rw [text]; simp; omega
  refine ⟨⟨fun none => ?_, fun dot => ?_, ?_⟩, fun up => ?_⟩
  · rw [none] at long; exact absurd long (by decide)
  · rw [dot] at long; exact absurd long (by decide)
  · have own := proper.whole
    simpa using ⟨own, whole⟩
  · have dots : ['.', '.'] = c :: (more ++ '.' :: ending.toList) := by
      rw [← text, up]
      decide
    obtain ⟨first, rest⟩ := List.cons.inj dots
    cases more with
    | nil => exact proper.onward (String.toList_inj.mp (by rw [split, ← first]; decide))
    | cons d more => simp at rest

theorem indexProper {ending : String} (whole : '/' ∉ ending.toList) :
    Proper ("index." ++ ending) ∧ "index." ++ ending ≠ ".." := by
  have text : ("index." ++ ending).toList = "index.".toList ++ ending.toList :=
    String.toList_append
  refine ⟨⟨by simp, fun dot => ?_, by simpa using whole⟩, fun up => ?_⟩
  · rw [dot] at text
    exact absurd (List.cons.inj text).1 (by decide)
  · rw [up] at text
    exact absurd (List.cons.inj text).1 (by decide)

theorem plainOfConcat {front : List String} {last : String}
    (proper : ∀ name ∈ front, Proper name) (own : Proper last) (ascends : ".." ∉ front.tail)
    (down : last ≠ "..") : Plain ("/".intercalate (front ++ [last])) := by
  refine plainOfNames (fun name inside => ?_) fun inside => ?_
  · rcases List.mem_append.mp inside with old | new
    · exact proper name old
    · exact (List.mem_singleton.mp new) ▸ own
  · cases front with
    | nil => exact List.not_mem_nil inside
    | cons first more =>
      rcases List.mem_append.mp inside with old | new
      · exact ascends old
      · exact down (List.mem_singleton.mp new).symm

section Candidates

variable {names : List String} {file e : String}

theorem endingPlain (proper : ∀ name ∈ names, Proper name) (ascends : ".." ∉ names.tail)
    (whole : '/' ∉ e.toList) (there : t.isFile ("/".intercalate names ++ "." ++ e) = true) :
    Plain ("/".intercalate names ++ "." ++ e) := by
  rcases names.eq_nil_or_concat with rfl | ⟨front, last, rfl⟩
  · rw [String.intercalate_nil, String.empty_append] at there ⊢
    have own : Proper ("." ++ e) := by
      refine ⟨by simp, fun dot => ?_, by simpa using whole⟩
      rw [dot, t.workingNoFile] at there
      cases there
    exact @plainOfNames ["." ++ e] (by simpa using own) (by simp)
  · rw [List.concat_eq_append] at *
    obtain ⟨own, down⟩ := properEnding (proper last (by simp)) whole
    rw [String.append_assoc, intercalateEnding, ← String.append_assoc]
    refine plainOfConcat (fun name inside => proper name (List.mem_append_left _ inside)) own
      (fun inside => ascends ?_) down
    cases front with
    | nil => cases inside
    | cons first more => exact List.mem_append_left _ inside

theorem indexPlain (proper : ∀ name ∈ names, Proper name) (ascends : ".." ∉ names.tail)
    (whole : '/' ∉ e.toList) : Plain (joined ("/".intercalate names) ("index." ++ e)) := by
  obtain ⟨own, down⟩ := indexProper whole
  have alone : Plain ("index." ++ e) := @plainOfNames ["index." ++ e] (by simpa using own)
    (by simp)
  rw [joined, alone.relative, Bool.false_or]
  split
  · exact alone
  · next inhabited =>
    rcases names.eq_nil_or_concat with rfl | ⟨front, last, rfl⟩
    · exact absurd (by simp) inhabited
    · rw [List.concat_eq_append] at *
      rw [endingApart (proper last (by simp)), if_neg Bool.false_ne_true,
        ← intercalateConcat (by simp)]
      exact plainOfConcat proper own ascends down

theorem candidatePlain (slashless : ∀ e ∈ search.extensions, '/' ∉ e.toList)
    (proper : ∀ name ∈ names, Proper name) (ascends : ".." ∉ names.tail)
    (member : file ∈ search.candidates ("/".intercalate names)) (there : t.isFile file = true) :
    Plain file := by
  rcases List.mem_append.mp member with beside | inside
  · rcases List.mem_cons.mp beside with rfl | ending
    · exact plainOfNames proper ascends
    · obtain ⟨e, known, rfl⟩ := List.mem_map.mp ending
      exact endingPlain proper ascends (slashless e known) there
  · obtain ⟨e, known, rfl⟩ := List.mem_map.mp inside
    exact indexPlain proper ascends (slashless e known)

end Candidates

theorem targetAlike {file other : String} (same : ofText file = ofText other) :
    target file = target other := by
  funext specifier
  rw [target, target, same]

theorem locateFound {file specifier found : String}
    (located : search.locate t.disk file specifier = some found) :
    found ∈ search.candidates (target file specifier) ∧ t.isFile found = true := by
  change (List.findM? (m := Id) t.isFile (search.candidates (target file specifier))).run = _
    at located
  rw [List.idRun_findM?] at located
  exact ⟨List.mem_of_find?_eq_some located, List.find?_some located⟩

theorem memLocateAll {file found : String} {specifiers before : List String} :
    found ∈ (search.locateAll t.disk file specifiers before).run.1 ↔
      found ∈ before ∨
        ∃ specifier ∈ specifiers, (search.locate t.disk file specifier).run = some found := by
  induction specifiers generalizing before with
  | nil => simp [locateAll]
  | cons specifier rest ih =>
    have step : (∃ s ∈ specifier :: rest, (search.locate t.disk file s).run = some found) ↔
        (search.locate t.disk file specifier).run = some found ∨
          ∃ s ∈ rest, (search.locate t.disk file s).run = some found := by simp
    rw [step, locateAll, Id.run_bind]
    cases (search.locate t.disk file specifier).run with
    | none => simp [ih]
    | some path =>
      rw [ih]
      split <;> grind

theorem requiresIff {file found : String} :
    (search.resolve t.disk).Requires file found ↔ ∃ source, t.read file = .ok source ∧
      ∃ specifier ∈ relativeSpecifiers source,
        (search.locate t.disk file specifier).run = some found := by
  have opened : t.disk.read file = pure (t.read file) := rfl
  rw [Resolver.Requires, resolve, opened, pure_bind]
  cases t.read file with
  | error cause => simp
  | ok source => simp [memLocateAll]

theorem requiredFound {file found : String} (slashless : ∀ e ∈ search.extensions, '/' ∉ e.toList)
    (relative : isAbsolute file = false) (required : (search.resolve t.disk).Requires file found) :
    Plain found ∧ t.isFile found = true := by
  obtain ⟨source, -, specifier, -, located⟩ := requiresIff.mp required
  obtain ⟨names, proper, ascends, same⟩ := targetNames relative specifier
  obtain ⟨member, there⟩ := locateFound located
  exact ⟨candidatePlain slashless proper ascends (same ▸ member) there, there⟩

theorem requiredAlike {file other found : String} (relative : isAbsolute file = false)
    (same : ofText file = ofText other) (there : t.isFile other = true)
    (required : (search.resolve t.disk).Requires file found) :
    (search.resolve t.disk).Requires other found := by
  have too : isAbsolute other = false := (congrArg Path.absolute same).symm.trans relative
  have place : FileTree.placeOf file = FileTree.placeOf other := by
    rw [FileTree.placeOfNames, FileTree.placeOfNames, same]
  obtain ⟨source, read, specifier, among, located⟩ := requiresIff.mp required
  have again : t.read other = .ok source := FileTree.readAlike relative too place read there
  refine requiresIff.mpr ⟨source, again, specifier, among, ?_⟩
  rwa [locate, ← targetAlike same]

end ImportSearch

/-- A name that is relative to the working directory, goes up at most once and does not come back
to the working directory then. -/
structure Direct (file : String) : Prop where
  straight : (ofText file).Straight
  away : ¬ FileTree.Returns (ofText file)

theorem directAlike {file other : String} (direct : Direct file) (too : Direct other)
    (same : FileTree.placeOf file = FileTree.placeOf other) : ofText file = ofText other := by
  rw [FileTree.placeStraight direct.straight, FileTree.placeStraight too.straight] at same
  have names := FileTree.straightInjective direct.away (FileTree.Place.at.inj same) too.away
  have own : (ofText file).absolute = (ofText other).absolute :=
    direct.straight.relative.trans too.straight.relative.symm
  cases h : ofText file
  cases h' : ofText other
  rw [h, h'] at own names
  cases own
  cases names
  rfl

namespace ImportSearch

/-- The file at one place requires the file at another one, under whatever direct name. -/
def Leads (search : ImportSearch) (t : FileTree) (p q : FileTree.Place) : Prop :=
  ∃ file other, Direct file ∧ FileTree.placeOf file = p ∧
    (search.resolve t.disk).Requires file other ∧ FileTree.placeOf other = q

/-- Mutants of different files on the disk of which neither leads to the other one. -/
structure Apart (search : ImportSearch) (t : FileTree) (a b : Mutant) : Prop where
  files : FileTree.placeOf a.fileName ≠ FileTree.placeOf b.fileName
  forth : ¬ TransGen (search.Leads t) (FileTree.placeOf a.fileName) (FileTree.placeOf b.fileName)
  back : ¬ TransGen (search.Leads t) (FileTree.placeOf b.fileName) (FileTree.placeOf a.fileName)

section Grouped

variable {search : ImportSearch} {t : FileTree} {mutants : List Mutant}

theorem leadsStep {file : String} {q : FileTree.Place}
    (slashless : ∀ e ∈ search.extensions, '/' ∉ e.toList) (direct : Direct file)
    (there : t.isFile file = true) (leads : search.Leads t (FileTree.placeOf file) q) :
    ∃ other, (search.resolve t.disk).Requires file other ∧ FileTree.placeOf other = q ∧
      Plain other ∧ t.isFile other = true := by
  obtain ⟨name, other, own, same, required, place⟩ := leads
  have required : (search.resolve t.disk).Requires file other :=
    requiredAlike own.straight.relative (directAlike own direct same) there required
  exact ⟨other, required, place, requiredFound slashless direct.straight.relative required⟩

theorem leadsNamed {file : String} {q : FileTree.Place}
    (slashless : ∀ e ∈ search.extensions, '/' ∉ e.toList) (plain : Plain file)
    (there : t.isFile file = true)
    (home : ∀ other, ReflTransGen (search.resolve t.disk).Requires file other →
      ¬ FileTree.Returns (ofText other))
    (leads : TransGen (search.Leads t) (FileTree.placeOf file) q) :
    ∃ other, TransGen (search.resolve t.disk).Requires file other ∧
      FileTree.placeOf other = q ∧ Plain other ∧ t.isFile other = true := by
  induction leads with
  | single step =>
    obtain ⟨other, required, found⟩ :=
      leadsStep slashless ⟨plain.straight, home file .refl⟩ there step
    exact ⟨other, .single required, found⟩
  | tail _ step ih =>
    obtain ⟨between, path, rfl, spelled, inside⟩ := ih
    have direct : Direct between := ⟨spelled.straight, home between path.to_reflTransGen⟩
    obtain ⟨other, required, found⟩ := leadsStep slashless direct inside step
    exact ⟨other, path.tail required, found⟩

theorem plainInjective {file other : String} (plain : Plain file) (too : Plain other)
    (home : ¬ FileTree.Returns (ofText file)) (away : ¬ FileTree.Returns (ofText other))
    (same : FileTree.placeOf file = FileTree.placeOf other) : file = other := by
  rw [← plain.text, ← too.text, directAlike ⟨plain.straight, home⟩ ⟨too.straight, away⟩ same]

theorem plainListed {file : String} (plain : Plain file) (there : t.isFile file = true) :
    file ∈ t.entries.flatMap fun e =>
      ["/".intercalate (".." :: e.1), "/".intercalate (e.1.drop FileTree.workingNames.length)] := by
  obtain ⟨content, found⟩ := FileTree.lookFile there
  have here := FileTree.lookKind plain.relative found
  rw [FileTree.placeStraight plain.straight] at here
  obtain ⟨e, member, same⟩ := FileTree.kindEntry here
  refine List.mem_flatMap.mpr ⟨e, member, ?_⟩
  have text : file = "/".intercalate (ofText file).names := by
    conv_lhs => rw [← plain.text]
    rw [Path.text, plain.straight.relative]
    simp
  rw [text, same]
  generalize (ofText file).names = names
  unfold FileTree.straightNames
  split
  · exact List.mem_cons_self
  · simp

theorem reachedSources (slashless : ∀ e ∈ search.extensions, '/' ∉ e.toList)
    (plain : ∀ m ∈ mutants, Plain m.fileName) :
    (Grouping.reached (search.resolve t.disk) mutants).Finite := by
  let listed := t.entries.flatMap fun e =>
    ["/".intercalate (".." :: e.1), "/".intercalate (e.1.drop FileTree.workingNames.length)]
  refine ((mutants.map (·.fileName) ++ listed).toFinset.finite_toSet).subset ?_
  rintro file ⟨m, member, path⟩
  have placed : Plain file ∧ file ∈ mutants.map (·.fileName) ++ listed := by
    induction path with
    | refl => exact ⟨plain m member, List.mem_append_left _ (List.mem_map_of_mem member)⟩
    | tail _ step ih =>
      obtain ⟨spelled, there⟩ := requiredFound slashless ih.1.relative step
      exact ⟨spelled, List.mem_append_right _ (plainListed spelled there)⟩
  simpa using placed.2

theorem sourcesApart (slashless : ∀ e ∈ search.extensions, '/' ∉ e.toList)
    (plain : ∀ m ∈ mutants, Plain m.fileName)
    (there : ∀ m ∈ mutants, t.isFile m.fileName = true)
    (home : ∀ file ∈ Grouping.reached (search.resolve t.disk) mutants,
      ¬ FileTree.Returns (ofText file)) :
    ∃ groups notes, (∃ enough, ∀ limit, enough ≤ limit →
        Grouping.build (search.resolve t.disk) limit mutants = some (groups, notes)) ∧
      ∀ group ∈ groups, group.Pairwise (search.Apart t) := by
  obtain ⟨d, charted, result⟩ := Grouping.buildCharted (reachedSources slashless plain)
  refine ⟨_, _, ⟨_, result⟩, fun group member => ?_⟩
  have all : (Grouping.ofDiscovery d mutants).flatten.Perm mutants :=
    Grouping.permOfFiles (Grouping.ofDiscoveryFilter charted fun m inside =>
      memFirsts.mpr (List.mem_map_of_mem inside))
  have among {m : Mutant} (inside : m ∈ group) : m ∈ mutants :=
    all.mem_iff.mp (List.mem_flatten.mpr ⟨group, member, inside⟩)
  have own {m : Mutant} (inside : m ∈ mutants) : ¬ FileTree.Returns (ofText m.fileName) :=
    home _ ⟨m, inside, .refl⟩
  have apart {a b : Mutant} (first : a ∈ mutants) (second : b ∈ mutants)
      (none : ¬ TransGen (search.resolve t.disk).Requires a.fileName b.fileName) :
      ¬ TransGen (search.Leads t) (FileTree.placeOf a.fileName)
        (FileTree.placeOf b.fileName) := by
    intro leads
    obtain ⟨other, path, same, spelled, -⟩ := leadsNamed slashless (plain a first) (there a first)
      (fun f path => home f ⟨a, first, path⟩) leads
    have named : other = b.fileName := plainInjective spelled (plain b second)
      (home other ⟨a, first, path.to_reflTransGen⟩) (own second) same
    exact none (named ▸ path)
  refine (Grouping.ofDiscoveryIndependent charted member).imp_of_mem fun {a b} ina inb free => ?_
  obtain ⟨different, forth, back⟩ := free
  exact ⟨fun same => different (plainInjective (plain a (among ina)) (plain b (among inb))
      (own (among ina)) (own (among inb)) same),
    apart (among ina) (among inb) forth, apart (among inb) (among ina) back⟩

def pair : FileTree :=
  ⟨[(["w", "a.ts"], some "import './b'".toUTF8), (["w", "b.ts"], some "".toUTF8)]⟩

def pairMutants : List Mutant :=
  [{ id := "1", fileName := "a.ts" }, { id := "2", fileName := "b.ts" }]

theorem pairRequires {file other : String} (known : file = "a.ts" ∨ file = "b.ts")
    (required : (({} : ImportSearch).resolve pair.disk).Requires file other) : other = "b.ts" := by
  obtain ⟨files, found, member⟩ := required
  rcases known with rfl | rfl
  · have a : ((({} : ImportSearch).resolve pair.disk) "a.ts").run.outcome = .ok ["b.ts"] := by cbv
    cases a.symm.trans found
    exact List.mem_singleton.mp member
  · have b : ((({} : ImportSearch).resolve pair.disk) "b.ts").run.outcome = .ok [] := by cbv
    cases b.symm.trans found
    cases member

theorem properA : Proper "a.ts" := ⟨by decide, by decide, by decide⟩

theorem properB : Proper "b.ts" := ⟨by decide, by decide, by decide⟩

theorem pairPlain : ∀ m ∈ pairMutants, Plain m.fileName := by
  have a : Plain "a.ts" := @plainOfNames ["a.ts"] (by simp [properA]) (by simp)
  have b : Plain "b.ts" := @plainOfNames ["b.ts"] (by simp [properB]) (by simp)
  simp [pairMutants, a, b]

theorem pairHome : ∀ file ∈ Grouping.reached (({} : ImportSearch).resolve pair.disk) pairMutants,
    ¬ FileTree.Returns (ofText file) := by
  rintro file ⟨m, member, path⟩
  have own : m.fileName = "a.ts" ∨ m.fileName = "b.ts" := by
    simp only [pairMutants, List.mem_cons, List.not_mem_nil, or_false] at member
    rcases member with rfl | rfl
    · exact .inl rfl
    · exact .inr rfl
  have known : file = "a.ts" ∨ file = "b.ts" := by
    induction path with
    | refl => exact own
    | tail _ step ih => exact .inr (pairRequires ih step)
  rcases known with rfl | rfl
  · rw [FileTree.Returns, show (ofText "a.ts").names = ["a.ts"] by cbv]
    decide
  · rw [FileTree.Returns, show (ofText "b.ts").names = ["b.ts"] by cbv]
    decide

theorem sourcesApartPair :
    (∀ e ∈ ({} : ImportSearch).extensions, '/' ∉ e.toList) ∧
      (∀ m ∈ pairMutants, Plain m.fileName) ∧
      (∀ m ∈ pairMutants, pair.isFile m.fileName = true) ∧
      ∃ groups notes, (∃ enough, ∀ limit, enough ≤ limit →
          Grouping.build (({} : ImportSearch).resolve pair.disk) limit pairMutants =
            some (groups, notes)) ∧
        ∀ group ∈ groups, group.Pairwise (({} : ImportSearch).Apart pair) := by
  have slashless : ∀ e ∈ ({} : ImportSearch).extensions, '/' ∉ e.toList := by decide
  have there : ∀ m ∈ pairMutants, pair.isFile m.fileName = true := by
    simp [pairMutants, show pair.isFile "a.ts" = true by cbv, show pair.isFile "b.ts" = true by cbv]
  exact ⟨slashless, pairPlain, there, sourcesApart slashless pairPlain there pairHome⟩

def single : FileTree := ⟨[(["w", "a.ts"], some "".toUTF8)]⟩

def respelled : List Mutant :=
  [{ id := "1", fileName := "a.ts" }, { id := "2", fileName := "./a.ts" }]

/-- A mutant's file keeps the name it was given, so one file may be taken for two. -/
theorem respelledTogether :
    (Grouping.build (({} : ImportSearch).resolve single.disk) 2 respelled).run =
        some ([respelled], []) ∧
      FileTree.placeOf "a.ts" = FileTree.placeOf "./a.ts" ∧
      single.read "a.ts" = .ok "" ∧ single.read "./a.ts" = .ok "" := by
  refine ⟨by cbv, by cbv, by cbv, by cbv⟩

end Grouped
end ImportSearch
end MutationPipeline.Dependency
