import MutationPipeline.Checker.Service
import MutationPipeline.Config
import MutationPipeline.Dependency.Resolver
import MutationPipeline.Proofs.Json.Leniency
import MutationPipeline.Proofs.Lists

/-!
What is kept in files or said between processes: each value is read as what was written, and
because its document breaks no line, values may be written one a line. Written in another order,
with members of other names or with fewer defaults, a document is still read as the same value.
-/
namespace MutationPipeline

open Json Json.Codec

section Mutants

variable (room : Nat)

theorem Position.codecLawful : Position.codec.Lawful (room + 1) :=
  Record.Lawful.codec (Record.startLawful
    |>.field word32Lawful (by decide)
    |>.field word32Lawful (by decide))

theorem Location.codecLawful : Location.codec.Lawful (room + 2) :=
  Record.Lawful.codec (Record.startLawful
    |>.field (Position.codecLawful room) (by decide)
    |>.field (Position.codecLawful room) (by decide))

theorem Status.codecLawful : Status.codec.Lawful room :=
  oneOfLawful fun s => by cases s <;> decide

theorem Mutant.codecLawful : Mutant.codec.Lawful (room + 3) :=
  Record.Lawful.codec (Record.startLawful
    |>.field textLawful (by decide)
    |>.field textLawful (by decide)
    |>.field (Location.codecLawful room) (by decide)
    |>.field textLawful (by decide)
    |>.field textLawful (by decide)
    |>.field ((Status.codecLawful _).option fun _ => Json.noConfusion) (by decide)
    |>.field (textLawful.option fun _ => Json.noConfusion) (by decide))

theorem Verdict.codecLawful : Verdict.codec.Lawful (room + 1) :=
  Record.Lawful.codec (Record.startLawful
    |>.field (oneOfLawful fun s => by cases s <;> decide) (by decide)
    |>.field (textLawful.option fun _ => Json.noConfusion) (by decide))

end Mutants

namespace Request

theorem codecLawful : codec.Lawful (Tagged.heldRoom + 1) := by
  have named : nameRecord.Lawful Tagged.heldRoom Request.setActive :=
    Record.startLawful |>.field textLawful (by decide)
  have checked : checkRecord.Lawful Tagged.heldRoom Request.check :=
    Record.startLawful |>.field (Mutant.codecLawful 122).list (by decide)
  have grouped : groupsRecord.Lawful Tagged.heldRoom Request.createGroups :=
    Record.startLawful |>.field (Mutant.codecLawful 122).list (by decide)
  have each (r : Request) : tagged.read (write r) = .ok r ∧
      (write r).plain (Tagged.heldRoom + 1) = true :=
    match r with
    | .init => ⟨rfl, rfl⟩
    | .setActive name => Tagged.documentReads (t := tagged) named rfl (by decide) name
    | .check mutants => Tagged.documentReads (t := tagged) checked rfl (by decide) mutants
    | .createGroups mutants => Tagged.documentReads (t := tagged) grouped rfl (by decide) mutants
  exact ⟨fun r => (each r).2, fun _ r => (each r).1⟩

end Request

namespace Reply

theorem codecLawful : codec.Lawful (Tagged.heldRoom + 1) := by
  have checked : checkedRecord.Lawful Tagged.heldRoom Reply.checked :=
    Record.startLawful |>.field (Verdict.codecLawful 124).keyed (by decide)
  have grouped : groupsRecord.Lawful Tagged.heldRoom Reply.groups :=
    Record.startLawful |>.field ((Mutant.codecLawful 121).list.list.option
      fun _ => Json.noConfusion) (by decide)
  have failed : failedRecord.Lawful Tagged.heldRoom Reply.failed :=
    Record.startLawful |>.field textLawful (by decide)
  have unstarted : initFailedRecord.Lawful Tagged.heldRoom fun p => Reply.initFailed p.1 p.2 :=
    Record.startLawful |>.field textLawful (by decide) |>.field textLawful (by decide)
  have each (r : Reply) : tagged.read (write r) = .ok r ∧
      (write r).plain (Tagged.heldRoom + 1) = true :=
    match r with
    | .done => ⟨rfl, rfl⟩
    | .checked verdicts => Tagged.documentReads (t := tagged) checked rfl (by decide) verdicts
    | .groups gs => Tagged.documentReads (t := tagged) grouped rfl (by decide) gs
    | .failed message => Tagged.documentReads (t := tagged) failed rfl (by decide) message
    | .initFailed checker reason =>
      Tagged.documentReads (t := tagged) unstarted rfl (by decide) (checker, reason)
  exact ⟨fun r => (each r).2, fun _ r => (each r).1⟩

end Reply

theorem TestRun.codecLawful : TestRun.codec.Lawful (Tagged.heldRoom + 1) := by
  have killed : killedRecord.Lawful Tagged.heldRoom fun s => TestRun.killed s.1 s.2.1 s.2.2 :=
    Record.startLawful
      |>.field (@textLawful 125).list (by decide)
      |>.field textLawful (by decide)
      |>.field word32Lawful (by decide)
  have survived : survivedRecord.Lawful Tagged.heldRoom TestRun.survived :=
    Record.startLawful |>.field word32Lawful (by decide)
  have timeout : timeoutRecord.Lawful Tagged.heldRoom TestRun.timeout :=
    Record.startLawful |>.field (textLawful.option fun _ => Json.noConfusion) (by decide)
  have error : errorRecord.Lawful Tagged.heldRoom TestRun.error :=
    Record.startLawful |>.field textLawful (by decide)
  have each (r : TestRun) : tagged.read (write r) = .ok r ∧
      (write r).plain (Tagged.heldRoom + 1) = true :=
    match r with
    | .killed killers message tests =>
      Tagged.documentReads (t := tagged) killed rfl (by decide) (killers, message, tests)
    | .survived tests => Tagged.documentReads (t := tagged) survived rfl (by decide) tests
    | .timeout reason => Tagged.documentReads (t := tagged) timeout rfl (by decide) reason
    | .error message => Tagged.documentReads (t := tagged) error rfl (by decide) message
  exact ⟨fun r => (each r).2, fun _ r => (each r).1⟩

theorem MutantResult.codecLawful (room : Nat) : MutantResult.codec.Lawful (room + 3) :=
  Record.Lawful.codec (Record.startLawful
    |>.field textLawful (by decide)
    |>.field textLawful (by decide)
    |>.field (Location.codecLawful room) (by decide)
    |>.field textLawful (by decide)
    |>.field textLawful (by decide)
    |>.field (Status.codecLawful _) (by decide)
    |>.field (textLawful.option fun _ => Json.noConfusion) (by decide)
    |>.field (@textLawful (room + 1)).list (by decide)
    |>.field (@textLawful (room + 1)).list (by decide)
    |>.field (word32Lawful.option fun _ => Json.noConfusion) (by decide)
    |>.field flagLawful (by decide))

theorem Dependency.Manifest.codecLawful (room : Nat) :
    Dependency.Manifest.codec.Lawful (room + 2) :=
  (@textLawful room).list.keyed

namespace Json.Codec

def parseLines (c : Codec α) (bytes : List UInt8) : List (Option (Except Complaint α)) :=
  (Text.lines bytes).map fun line => line.text?.map c.parse

def printLines (c : Codec α) (xs : List α) : List UInt8 :=
  xs.flatMap fun x => Service.lineBytes (c.print x)

structure Transcribes (c : Codec α) : Prop where
  returned : ∀ x, c.parse (c.print x) = .ok x
  unbroken : ∀ x, '\n' ∉ (c.print x).toList ∧ '\r' ∉ (c.print x).toList
  inOrder : ∀ xs, c.parseLines (c.printLines xs) = xs.map fun x => some (.ok x)

theorem linesSolid (texts : List String) (solid : ∀ text ∈ texts, Text.Solid text) :
    Text.lines (texts.flatMap Service.lineBytes) = texts.map Text.Line.ofText := by
  induction texts with
  | nil => rfl
  | cons text texts ih =>
    have whole : Text.lineFeed ∉ text.toUTF8.toList :=
      (solid text List.mem_cons_self).noLineFeed
    rw [List.flatMap_cons, Service.lineBytes, List.append_assoc, List.singleton_append,
      Text.linesAppend whole, ih fun t member => solid t (List.mem_cons_of_mem text member)]
    rfl

theorem parseLine {c : Codec α} {room : Nat} {j : Json} {x : α} (plain : j.plain room = true)
    (reads : c.read .text j = .ok x) :
    (Text.Line.ofText j.compact).text?.map c.parse = some (.ok x) := by
  rw [(compactSolid plain).text, Option.map_some, parseCompact plain reads]

namespace Lawful

variable {c : Codec α} {room : Nat}

theorem linesApart (law : c.Lawful room) (xs : List α) :
    Text.lines (c.printLines xs) = xs.map fun x => Text.Line.ofText (c.print x) := by
  have apart := linesSolid (xs.map c.print)
    (List.forall_mem_map.mpr fun x _ => law.printSolid x)
  rwa [List.flatMap_map, List.map_map] at apart

theorem transcribes (law : c.Lawful room) : c.Transcribes where
  returned := law.parsePrint
  unbroken x :=
    ⟨fun fed => absurd (law.printSolid x _ fed) (by decide),
      fun returned => absurd (law.printSolid x _ returned) (by decide)⟩
  inOrder xs := by
    rw [parseLines, law.linesApart, List.map_map]
    exact List.map_congr_left fun x _ => parseLine (law.plain x) (law.reads .text x)

end Lawful
end Json.Codec

namespace Reply

structure Listing where
  verdicts : Verdicts
  entries : List (String × Verdict)
  whole : entries.Perm verdicts.entries

def listingRecord : Record Listing Reply where
  fields := checkedRecord.fields
  build := checkedRecord.build
  members l := [("results", ofMembers (l.entries.map fun e => (e.1, Verdict.codec.write e.2)))]

inductive Writes : Reply → Json → Prop
  | own (r : Reply) : Writes r r.write
  | listed (l : Listing) :
      Writes (.checked l.verdicts) (Tagged.document "kind" "checked" (listingRecord.members l))

theorem listingLawful :
    listingRecord.Lawful Tagged.heldRoom fun l => Reply.checked l.verdicts where
  names _ := rfl
  apart := List.nodup_singleton _
  plain l m member := by
    rw [List.mem_singleton.mp member]
    exact plainOfMembers (List.forall_mem_map.mpr fun e _ => (Verdict.codecLawful 124).plain e.2)
  checks origin l m member f field _ := by
    rw [List.mem_singleton.mp member, List.mem_singleton.mp field]
    exact congrArg (Except.map _) ((Verdict.codecLawful 124).readKeyed origin l.whole)
  builds origin l found each := by
    have here := each _ (List.mem_singleton_self _)
    have read := (Verdict.codecLawful 124).readKeyed origin l.whole
    simp only [listingRecord, checkedRecord, Record.required, Record.field, Record.start, here]
    simp only [bind, Except.bind, read]

theorem writesRead {r : Reply} {j : Json} (writes : Writes r j) :
    tagged.read j = .ok r ∧ j.plain (Tagged.heldRoom + 1) = true := by
  cases writes with
  | own r => exact ⟨codecLawful.reads .text r, codecLawful.plain r⟩
  | listed l => exact Tagged.documentReads (t := tagged) listingLawful rfl (by decide) l

theorem writesTranscribed {rs : List Reply} {js : List Json} (each : List.Forall₂ Writes rs js) :
    codec.parseLines (js.flatMap fun j => Service.lineBytes j.compact) =
      rs.map fun r => some (.ok r) := by
  have solid : ∀ text ∈ js.map compact, Text.Solid text :=
    List.forall_mem_map.mpr (forall₂Left each.flip fun _ _ writes =>
      compactSolid (writesRead writes).2)
  have lines := linesSolid _ solid
  rw [List.flatMap_map] at lines
  rw [parseLines, lines, List.map_map]
  clear lines solid
  induction each with
  | nil => rfl
  | cons writes _ ih =>
    obtain ⟨read, plain⟩ := writesRead writes
    exact congrArg₂ List.cons (parseLine plain read) ih

end Reply

theorem documentsTranscribed :
    Mutant.codec.Transcribes ∧ Verdict.codec.Transcribes ∧ TestRun.codec.Transcribes ∧
      MutantResult.codec.Transcribes ∧ Dependency.Manifest.codec.Transcribes ∧
      Request.codec.Transcribes ∧ Reply.codec.Transcribes :=
  ⟨(Mutant.codecLawful 0).transcribes, (Verdict.codecLawful 0).transcribes,
    TestRun.codecLawful.transcribes, (MutantResult.codecLawful 0).transcribes,
    (Dependency.Manifest.codecLawful 0).transcribes, Request.codecLawful.transcribes,
    Reply.codecLawful.transcribes⟩

section Tolerance

open Tagged (heldRoom)

theorem Json.Record.Regular.content {r : Record σ α} {own defaults : List Default}
    {fields : List String} (regular : r.Regular own) (known : r.fields.map (·.name) ⊆ fields)
    (mine : ∀ d ∈ defaults, d ∈ own ∨ d.name ∉ r.fields.map (·.name)) :
    Lenient (keepable heldRoom) fields defaults (Content.record r).ofMembers :=
  (regular.lenient .held true).widen intactOfKeepable known mine

namespace Mutant

def fieldNames : List String :=
  ["id", "file_name", "location", "mutator_name", "replacement", "status", "status_reason"]

def defaults : List Default :=
  [⟨"location", Location.codec, .nowhere⟩, ⟨"mutator_name", text, ""⟩, ⟨"replacement", text, ""⟩,
    ⟨"status", Status.codec.option, none⟩, ⟨"status_reason", text.option, none⟩]

theorem regular : record.Regular defaults :=
  Record.startRegular _
    |>.field (by decide)
    |>.field (by decide)
    |>.default (by decide)
    |>.default (by decide)
    |>.default (by decide)
    |>.default (by decide)
    |>.default (by decide)

theorem defaultsGiven {room : Nat} :
    ∀ d ∈ defaults, d.Stands d.written ∧ d.written.keepable (room + 2) = true := by
  simp only [defaults, List.forall_mem_cons]
  exact ⟨(Location.codecLawful room).given, textLawful.given, textLawful.given,
    ((Status.codecLawful _).option fun _ => Json.noConfusion).given,
    (textLawful.option fun _ => Json.noConfusion).given, nofun⟩

theorem codecTolerant : codec.Tolerant intact fieldNames defaults where
  lenient := regular.lenient
  given d member :=
    have given := @defaultsGiven 0 d member
    ⟨given.1, intactOfKeepable given.2⟩

end Mutant

namespace CoveredMutant

def fieldNames : List String :=
  Mutant.fieldNames ++ ["covered_by", "static", "estimated_net_time_ms", "hit_count"]

def ownDefaults : List Default :=
  [⟨"covered_by", text.list, []⟩, ⟨"static", flag, false⟩, ⟨"estimated_net_time_ms", double, 0⟩,
    ⟨"hit_count", word64.option, none⟩]

def defaults : List Default := Mutant.defaults ++ ownDefaults

theorem regular : coverage.Regular ownDefaults :=
  Record.startRegular _
    |>.default (by decide)
    |>.default (by decide)
    |>.default (by decide)
    |>.default (by decide)

theorem codecTolerant : codec.Tolerant (keepable heldRoom) fieldNames defaults where
  lenient := Flattened.lenient (r := ⟨coverage, Mutant.record, (·.toMutant)⟩) regular
    Mutant.regular (by simp only [Mutant.defaults, List.forall_mem_cons]; decide)
  given := by
    refine List.forall_mem_append.mpr ⟨Mutant.defaultsGiven, ?_⟩
    simp only [ownDefaults, List.forall_mem_cons]
    exact ⟨⟨fun _ => rfl, rfl⟩, ⟨fun _ => rfl, rfl⟩, ⟨fun _ => rfl, rfl⟩, ⟨fun _ => rfl, rfl⟩,
      nofun⟩

end CoveredMutant

namespace TestRun

def fieldNames : List String :=
  ["status", "killed_by", "failure_message", "nr_of_tests", "reason", "error_message"]

def defaults : List Default := [⟨"reason", text.option, none⟩]

theorem codecTolerant : codec.Tolerant (keepable heldRoom) fieldNames defaults where
  lenient _ complete := by
    have killed : killedRecord.Regular [] :=
      Record.startRegular _ |>.field (by decide) |>.field (by decide) |>.field (by decide)
    have survived : survivedRecord.Regular [] := Record.startRegular _ |>.field (by decide)
    have timeout : timeoutRecord.Regular defaults := Record.startRegular _ |>.default (by decide)
    have error : errorRecord.Regular [] := Record.startRegular _ |>.field (by decide)
    refine Tagged.lenient (t := tagged) complete (List.forall_mem_singleton.mpr (by decide)) ?_
    simp only [tagged, List.forall_mem_cons]
    exact ⟨killed.content (by decide) (List.forall_mem_singleton.mpr (.inr (by decide))),
      survived.content (by decide) (List.forall_mem_singleton.mpr (.inr (by decide))),
      timeout.content (by decide) (fun _ mine => .inl mine),
      error.content (by decide) (List.forall_mem_singleton.mpr (.inr (by decide))), nofun⟩
  given := List.forall_mem_singleton.mpr ⟨fun _ => rfl, rfl⟩

end TestRun

namespace Verdict

def defaults : List Default := [⟨"reason", text.option, none⟩]

theorem codecTolerant : codec.Tolerant intact ["status", "reason"] defaults where
  lenient := Record.Regular.lenient
    (Record.startRegular Verdict.mk |>.field (by decide) |>.default (by decide))
  given := List.forall_mem_singleton.mpr ⟨fun _ => rfl, rfl⟩

end Verdict

namespace MutantResult

def fieldNames : List String :=
  ["id", "file_name", "location", "mutator_name", "replacement", "status", "status_reason",
    "covered_by", "killed_by", "tests_completed", "static"]

def defaults : List Default :=
  [⟨"status_reason", text.option, none⟩, ⟨"covered_by", text.list, []⟩,
    ⟨"killed_by", text.list, []⟩, ⟨"tests_completed", word32.option, none⟩, ⟨"static", flag, false⟩]

theorem codecTolerant : codec.Tolerant intact fieldNames defaults where
  lenient := Record.Regular.lenient (Record.startRegular MutantResult.mk
    |>.field (by decide)
    |>.field (by decide)
    |>.field (by decide)
    |>.field (by decide)
    |>.field (by decide)
    |>.field (by decide)
    |>.default (by decide)
    |>.default (by decide)
    |>.default (by decide)
    |>.default (by decide)
    |>.default (by decide))
  given := by
    simp only [defaults, List.forall_mem_cons]
    exact ⟨⟨fun _ => rfl, rfl⟩, ⟨fun _ => rfl, rfl⟩, ⟨fun _ => rfl, rfl⟩, ⟨fun _ => rfl, rfl⟩,
      ⟨fun _ => rfl, rfl⟩, nofun⟩

end MutantResult

namespace Config

def fieldNames : List String :=
  ["concurrency", "checkers", "timeout_factor", "timeout_ms", "hit_limit_factor", "disable_bail",
    "sandbox_dir", "channel_capacity"]

def defaults : List Default :=
  [⟨"concurrency", word64.option, none⟩, ⟨"checkers", text.list, []⟩,
    ⟨"timeout_factor", double, 1.5⟩, ⟨"timeout_ms", word64, 5000⟩,
    ⟨"hit_limit_factor", word64, 100⟩, ⟨"disable_bail", flag, false⟩,
    ⟨"sandbox_dir", text.option, none⟩, ⟨"channel_capacity", word64, 64⟩]

theorem codecTolerant : codec.Tolerant intact fieldNames defaults where
  lenient := Record.Regular.lenient (Record.startRegular Config.mk
    |>.default (by decide)
    |>.default (by decide)
    |>.default (by decide)
    |>.default (by decide)
    |>.default (by decide)
    |>.default (by decide)
    |>.default (by decide)
    |>.default (by decide))
  given := by
    simp only [defaults, List.forall_mem_cons]
    exact ⟨⟨fun _ => rfl, rfl⟩, ⟨fun _ => rfl, rfl⟩, ⟨fun _ => rfl, rfl⟩, ⟨fun _ => rfl, rfl⟩,
      ⟨fun _ => rfl, rfl⟩, ⟨fun _ => rfl, rfl⟩, ⟨fun _ => rfl, rfl⟩, ⟨fun _ => rfl, rfl⟩, nofun⟩

end Config

namespace Request

def fieldNames : List String := ["kind", "name", "mutants"]

theorem codecTolerant : codec.Tolerant (keepable heldRoom) fieldNames [] where
  lenient _ complete := by
    have named : nameRecord.Regular [] := Record.startRegular _ |>.field (by decide)
    have checked : checkRecord.Regular [] := Record.startRegular _ |>.field (by decide)
    have grouped : groupsRecord.Regular [] := Record.startRegular _ |>.field (by decide)
    refine Tagged.lenient (t := tagged) complete nofun ?_
    simp only [tagged, List.forall_mem_cons]
    exact ⟨.constant _, named.content (by decide) nofun, checked.content (by decide) nofun,
      grouped.content (by decide) nofun, nofun⟩
  given := nofun

end Request

namespace Reply

def fieldNames : List String := ["kind", "results", "groups", "message", "checker", "reason"]

def defaults : List Default := [⟨"groups", Mutant.codec.list.list.option, none⟩]

theorem codecTolerant : codec.Tolerant (keepable heldRoom) fieldNames defaults where
  lenient _ complete := by
    have checked : checkedRecord.Regular [] := Record.startRegular _ |>.field (by decide)
    have grouped : groupsRecord.Regular defaults := Record.startRegular _ |>.default (by decide)
    have failed : failedRecord.Regular [] := Record.startRegular _ |>.field (by decide)
    have unstarted : initFailedRecord.Regular [] :=
      Record.startRegular _ |>.field (by decide) |>.field (by decide)
    refine Tagged.lenient (t := tagged) complete (List.forall_mem_singleton.mpr (by decide)) ?_
    simp only [tagged, List.forall_mem_cons]
    exact ⟨.constant _,
      checked.content (by decide) (List.forall_mem_singleton.mpr (.inr (by decide))),
      grouped.content (by decide) (fun _ mine => .inl mine),
      failed.content (by decide) (List.forall_mem_singleton.mpr (.inr (by decide))),
      unstarted.content (by decide) (List.forall_mem_singleton.mpr (.inr (by decide))), nofun⟩
  given := List.forall_mem_singleton.mpr ⟨fun _ => rfl, rfl⟩

end Reply

theorem documentsTolerant :
    Mutant.codec.Tolerant intact Mutant.fieldNames Mutant.defaults ∧
      CoveredMutant.codec.Tolerant (keepable heldRoom) CoveredMutant.fieldNames
        CoveredMutant.defaults ∧
      Verdict.codec.Tolerant intact ["status", "reason"] Verdict.defaults ∧
      TestRun.codec.Tolerant (keepable heldRoom) TestRun.fieldNames TestRun.defaults ∧
      MutantResult.codec.Tolerant intact MutantResult.fieldNames MutantResult.defaults ∧
      Config.codec.Tolerant intact Config.fieldNames Config.defaults ∧
      Request.codec.Tolerant (keepable heldRoom) Request.fieldNames [] ∧
      Reply.codec.Tolerant (keepable heldRoom) Reply.fieldNames Reply.defaults :=
  ⟨Mutant.codecTolerant, CoveredMutant.codecTolerant, Verdict.codecTolerant,
    TestRun.codecTolerant, MutantResult.codecTolerant, Config.codecTolerant,
    Request.codecTolerant, Reply.codecTolerant⟩

/-- A number beyond every double is well written and cannot be kept. -/
theorem unfitMemberRefused :
    ¬ CoveredMutant.codec.Tolerant intact CoveredMutant.fieldNames CoveredMutant.defaults := by
  intro tolerant
  let members : Members := [(some "id", ofText "1"), (some "file_name", ofText "a.ts")]
  let extra : Members := [(some "x", .number .tooLarge)]
  have agree := (tolerant.lenient .text true).extended
    (by unfold Members.Apart; decide : Members.Apart (members ++ extra))
    (List.forall_mem_singleton.mpr ⟨"x", rfl, by decide, rfl⟩)
  have read : CoveredMutant.codec.read .text (.object members true) =
    .ok ⟨⟨"1", "a.ts", .nowhere, "", "", none, none⟩, [], false, 0, none⟩ := rfl
  have refused : CoveredMutant.codec.read .text (.object (members ++ extra) true) =
    .error .malformed := rfl
  have accepted := (agree _).mpr read
  rw [refused] at accepted
  cases accepted

end Tolerance

end MutationPipeline
