import Mathlib.Data.List.Infix
import MutationPipeline.Checker.Death
import MutationPipeline.Checker.Process
import MutationPipeline.Proofs.Text.Lines

/-! What becomes of a call whose process ends before it has written a whole line. Octets that stand
behind the last line feed still count as a line, so the call fails as a death only if there are none
or if they are no text. -/
namespace MutationPipeline

theorem Passing.errorIsCrash (pid : Nat) (p : Passing) : (p.error pid).isCrash = true := by
  unfold Passing.error
  split <;> rfl

/-- A process that takes every line and has only this output left before it ends. -/
def Child.departing (pid : Nat) (passing : Passing) : Child (StateM (List UInt8)) where
  pid := pid
  send _ := pure true
  receive output := match Text.nextLine output with
    | some (line, rest) => (some line, rest)
    | none => (none, output)
  finish := pure passing

namespace Launch

def requestOf : Call CheckWork → Option Request
  | .init => some .init
  | .dispose => none
  | .work (.setActive name) => some (.setActive name)
  | .work (.check mutants) => some (.check mutants)
  | .work (.createGroups mutants) => some (.createGroups mutants)

theorem resultNoCrash {r : Reply} {e : WorkerError} (failed : r.result = .error e) :
    e.isCrash = false := by
  cases r <;> cases failed <;> rfl

theorem understandNoCrash {line : String} {e : WorkerError} (failed : understand line = .error e) :
    e.isCrash = false := by
  unfold understand at failed
  split at failed
  · exact resultNoCrash failed
  · cases failed
    rfl

section Endings

variable {σ : Type} {child : Child (StateM σ)} {line : String} {output : List UInt8}

/-- The line was taken, and then the output ended with these octets, before a whole line. The
process stands at `s` before, at `between` when it has taken the line, at `after` in the end. -/
structure CutOff (child : Child (StateM σ)) (line : String) (output : List UInt8)
    (s between after : σ) : Prop where
  taken : (child.send line).run s = pure (true, between)
  last : child.receive.run between = pure ((Text.nextLine output).map Prod.fst, after)
  short : Text.lineFeed ∉ output

def remains (output : List UInt8) : Option String :=
  if output = [] then none else String.fromUTF8? ⟨output.toArray⟩

theorem remainsText {text : String} (filled : text.toUTF8.toList ≠ []) :
    remains text.toUTF8.toList = some text := by
  rw [remains, if_neg filled, Text.bytesOf]
  exact dif_pos text.isValidUTF8

theorem exchangeCut {s between after : σ} (cut : CutOff child line output s between after) :
    (exchange child line).run s = pure (remains output, after) := by
  have read := cut.last
  rw [Text.nextLineOpen cut.short] at read
  simp only [exchange, StateT.run_bind, cut.taken, pure_bind, if_true, read, StateT.run_pure,
    remains]
  split <;> rfl

theorem requestTold {launch : Launch (StateM σ)} {connection : Option (Child (StateM σ))}
    {r : Request} {text : String} {s₀ s between after : σ}
    (connected : (launch.connect.run connection).run s₀ = pure ((.ok child, some child), s))
    (cut : CutOff child (Request.codec.print r) output s between after)
    (left : remains output = some text) :
    ((launch.request r).run connection).run s₀ = pure ((understand text, some child), after) := by
  have exchanged := exchangeCut cut
  simp only [request, StateT.run_bind, connected, pure_bind]
  simp [exchanged, left]

theorem requestSilent {launch : Launch (StateM σ)} {connection : Option (Child (StateM σ))}
    {r : Request} {s₀ s between after : σ}
    (connected : (launch.connect.run connection).run s₀ = pure ((.ok child, some child), s))
    (cut : CutOff child (Request.codec.print r) output s between after)
    (left : remains output = none) :
    ((launch.request r).run connection).run s₀ =
      pure ((.error ((child.finish.run after).run.1.error child.pid), none),
        (child.finish.run after).run.2) := by
  have exchanged := exchangeCut cut
  simp only [request, StateT.run_bind, connected, pure_bind]
  simp [exchanged, left]
  rfl

theorem askCut {launch : Launch (StateM σ)} {connection : Option (Child (StateM σ))}
    {r : Request} {s₀ s between after : σ} (answer? : Reply → Option α)
    (connected : (launch.connect.run connection).run s₀ = pure ((.ok child, some child), s))
    (cut : CutOff child (Request.codec.print r) output s between after) :
    ∃ result final, ((launch.ask r answer?).run connection).run s₀ =
        pure ((result, (remains output).map fun _ => child), final) ∧
      ((∃ e, result = .error e ∧ e.isCrash = true) ↔ remains output = none) := by
  cases left : remains output with
  | none =>
    have requested := requestSilent connected cut left
    refine ⟨.error ((child.finish.run after).run.1.error child.pid),
      (child.finish.run after).run.2, ?_, ?_⟩
    · simp only [ask, StateT.run_bind, requested]
      rfl
    · exact ⟨fun _ => rfl, fun _ => ⟨_, rfl, Passing.errorIsCrash _ _⟩⟩
  | some text =>
    have requested := requestTold connected cut left
    simp only [ask, StateT.run_bind, requested, pure_bind, Option.map_some, reduceCtorEq, iff_false]
    cases meant : understand text with
    | error e =>
      refine ⟨.error e, after, rfl, ?_⟩
      rintro ⟨_, same, crash⟩
      cases same
      rw [understandNoCrash meant] at crash
      cases crash
    | ok reply =>
      cases own : answer? reply with
      | none =>
        refine ⟨.error (unexpected reply), after, by simp [own], ?_⟩
        rintro ⟨_, same, crash⟩
        cases same
        cases crash
      | some x =>
        refine ⟨.ok x, after, by simp [own], ?_⟩
        rintro ⟨_, failed, -⟩
        cases failed

theorem performCut {launch : Launch (StateM σ)} {connection : Option (Child (StateM σ))}
    {call : Call CheckWork} {r : Request} {s₀ s between after : σ}
    (asks : requestOf call = some r)
    (connected : (launch.connect.run connection).run s₀ = pure ((.ok child, some child), s))
    (cut : CutOff child (Request.codec.print r) output s between after) :
    ∃ result final, ((launch.worker.perform call).run connection).run s₀ =
        pure ((result, (remains output).map fun _ => child), final) ∧
      ((∃ e, result = .error e ∧ e.isCrash = true) ↔ remains output = none) := by
  have through {α : Type} {answer? : Reply → Option α} (f : α → CheckAnswer) :
      ∃ result final, ((Except.map f <$> launch.ask r answer?).run connection).run s₀ =
          pure ((result, (remains output).map fun _ => child), final) ∧
        ((∃ e, result = .error e ∧ e.isCrash = true) ↔ remains output = none) := by
    obtain ⟨result, final, asked, crash⟩ := askCut answer? connected cut
    refine ⟨result.map f, final, by simp [asked], ?_⟩
    rw [← crash]
    cases result <;> simp [Except.map]
  match call with
  | .dispose => cases asks
  | .init => cases asks; exact through _
  | .work (.setActive name) => cases asks; exact through _
  | .work (.check mutants) => cases asks; exact through _
  | .work (.createGroups mutants) => cases asks; exact through _

end Endings

section Departing

def toDeparting : Launch (StateM (List UInt8)) :=
  ⟨"checker", pure (.ok (.departing 7 { waiting := .ended (.exited 5) }))⟩

theorem departingConnects (output : List UInt8) :
    (toDeparting.connect.run none).run output =
      pure ((.ok (.departing 7 { waiting := .ended (.exited 5) }),
        some (.departing 7 { waiting := .ended (.exited 5) })), output) :=
  rfl

theorem departingCut {pid : Nat} {p : Passing} {line : String} {output : List UInt8}
    (short : Text.lineFeed ∉ output) :
    CutOff (.departing pid p) line output output output [] := by
  refine ⟨rfl, ?_, short⟩
  have next := Text.nextLineOpen short
  by_cases none : output = []
  · subst none
    rfl
  · rw [if_neg none] at next
    simp only [Child.departing, StateT.run, next]
    rfl

theorem performCutSilent :
    requestOf .init = some .init ∧ Text.lineFeed ∉ ([] : List UInt8) ∧
      ∃ result final, ((toDeparting.worker.perform .init).run none).run [] =
          pure ((result, none), final) ∧ ∃ e, result = .error e ∧ e.isCrash = true := by
  have asks : requestOf .init = some .init := rfl
  have short : Text.lineFeed ∉ ([] : List UInt8) := List.not_mem_nil
  obtain ⟨result, final, done, crash⟩ := performCut asks (departingConnects []) (departingCut short)
  exact ⟨asks, short, result, final, done, crash.mpr rfl⟩

theorem unendedReplyRejected :
    let output := "\x7b\"kind\":\"done\"".toUTF8.toList
    let done := ((toDeparting.worker.perform .init).run none).run output
    Text.lineFeed ∉ output ∧ done.1.2.isSome = true ∧
      done.1.1 = .error (.rejected "malformed response from checker process: <json>") := by
  have solid : Text.Solid "\x7b\"kind\":\"done\"" := Text.solidAll (by decide)
  have left : remains "\x7b\"kind\":\"done\"".toUTF8.toList = some "\x7b\"kind\":\"done\"" :=
    remainsText (by rw [Text.textBytes]; decide)
  have meant : understand "\x7b\"kind\":\"done\"" =
      .error (.rejected "malformed response from checker process: <json>") := by
    have read : Json.read "\x7b\"kind\":\"done\"" =
        ⟨.object [(some "kind", .string (some "done"))] false, true⟩ := by
      have text : "\x7b\"kind\":\"done\"".toList =
          ['\x7b', '"', 'k', 'i', 'n', 'd', '"', ':', '"', 'd', 'o', 'n', 'e', '"'] := by decide
      rw [Json.read, text]
      rfl
    rw [understand, Json.Codec.parse, read]
    rfl
  have requested :=
    requestTold (r := .init) (departingConnects _) (departingCut solid.noLineFeed) left
  rw [meant] at requested
  intro output done
  have told : done = pure ((.error (.rejected "malformed response from checker process: <json>"),
      some (.departing 7 { waiting := .ended (.exited 5) })), []) := by
    simp only [done, output, CheckWorker.perform, worker, ask, StateT.run_map, StateT.run_bind,
      requested]
    rfl
  rw [told]
  exact ⟨solid.noLineFeed, rfl, rfl⟩

end Departing

end Launch
end MutationPipeline

/-! Which complaints of a process make its death one for want of memory. They are looked for in the
last lines of its error output put together, and the words are found there only if one of these lines
has them. What the process said before its last lines is forgotten. -/
namespace MutationPipeline.Passing

section Words
variable {words : List Char}

theorem containsInfix {text : List Char} : contains words text = true ↔ words <:+: text := by
  induction text with
  | nil => rw [contains, List.isEmpty_iff, List.infix_nil]
  | cons c rest ih =>
    rw [contains, Bool.or_eq_true, List.isPrefixOf_iff_prefix, ih, List.infix_cons_iff]

/- Words with no separator in them lie on one side of it. -/
theorem infixParted {separator : Char} (whole : separator ∉ words) {front back : List Char} :
    words <:+: front ++ separator :: back ↔ words <:+: front ∨ words <:+: back := by
  have none {part : List Char} (inside : part ⊆ words) (first : part <+: separator :: back) :
      part = [] := by
    rcases List.prefix_cons_iff.mp first with empty | ⟨rest, rfl, -⟩
    · exact empty
    · exact absurd (inside List.mem_cons_self) whole
  refine ⟨fun found => ?_, fun found => found.elim (·.trans ?_) (·.trans ?_)⟩
  · rcases List.infix_append_iff.mp found with before | after | ⟨left, right, rfl, before, first⟩
    · exact .inl before
    · rcases List.infix_cons_iff.mp after with first | later
      · exact .inl (none (List.Subset.refl _) first ▸ List.nil_infix)
      · exact .inr later
    · rw [none (List.subset_append_right _ _) first, List.append_nil]
      exact .inl before.isInfix
  · exact (List.prefix_append _ _).isInfix
  · exact ((List.suffix_cons _ _).trans (List.suffix_append _ _)).isInfix

end Words

def MentionsMemory (line : String) : Prop := memoryWords <:+: lowered line

instance (line : String) : Decidable (MentionsMemory line) :=
  decidable_of_iff _ containsInfix

theorem mentionsJoined (lines : List String) :
    MentionsMemory ("\n".intercalate lines) ↔ ∃ line ∈ lines, MentionsMemory line := by
  induction lines with
  | nil => decide
  | cons line lines ih =>
    cases lines with
    | nil => simp
    | cons next more =>
      have joined : lowered ("\n".intercalate (line :: next :: more)) =
          lowered line ++ '\n' :: lowered ("\n".intercalate (next :: more)) := by
        simp [lowered, String.intercalate_cons_cons]
      rw [MentionsMemory, joined, infixParted (by decide), List.exists_mem_cons_iff]
      exact or_congr Iff.rfl ih

theorem readableText {complaints : List Text.Line} {lines : List String}
    (texts : complaints.map Text.Line.text? = lines.map some) : readable complaints = lines := by
  induction complaints generalizing lines with
  | nil => exact (List.map_eq_nil_iff.mp texts.symm).symm
  | cons complaint rest ih =>
    cases lines with
    | nil => cases texts
    | cons line lines =>
      obtain ⟨own, later⟩ := List.cons.inj texts
      simp only [readable, own, ih later]

/-- One of the last lines, those that are kept, has the words. -/
def Reported (lines : List String) : Prop :=
  ∃ front line back, lines = front ++ line :: back ∧ back.length < tailLength ∧ MentionsMemory line

/-- It was found killed. One that is killed because it does not end in time is not. -/
def Killed (p : Passing) : Prop := p.waiting = .ended (.signalled ExitStatus.killSignal)

theorem killedIff {p : Passing} : p.Killed ↔ p.status = some (.signalled ExitStatus.killSignal) := by
  unfold Killed status
  split <;> simp [*]

theorem memLast {α : Type} {l : List α} {n : Nat} {a : α} :
    a ∈ l.drop (l.length - n) ↔ ∃ front back, l = front ++ a :: back ∧ back.length < n := by
  constructor
  · intro kept
    obtain ⟨front, back, split⟩ := List.append_of_mem kept
    refine ⟨l.take (l.length - n) ++ front, back, ?_, ?_⟩
    · rw [List.append_assoc, ← split, List.take_append_drop]
    · have lengths := congrArg List.length split
      simp only [List.length_drop, List.length_append, List.length_cons] at lengths
      omega
  · rintro ⟨front, back, rfl, few⟩
    rw [List.drop_append_of_le_length (by simp; omega)]
    exact List.mem_append_right _ List.mem_cons_self

theorem outOfMemoryIff {p : Passing} {lines : List String}
    (texts : p.complaints.map Text.Line.text? = lines.map some) :
    p.isOutOfMemory = true ↔ (p.heardOut = true ∧ Reported lines) ∨ p.Killed := by
  rw [isOutOfMemory, Bool.or_eq_true, decide_eq_true_iff, containsInfix, ← killedIff]
  refine or_congr ?_ Iff.rfl
  change MentionsMemory p.lastWords ↔ _
  rw [lastWords, readableText texts, mentionsJoined]
  constructor
  · rintro ⟨line, kept, mentions⟩
    split at kept
    · next heard =>
      obtain ⟨front, back, split, few⟩ := memLast.mp kept
      exact ⟨heard, front, line, back, split, few, mentions⟩
    · cases kept
  · rintro ⟨heard, front, line, back, split, few, mentions⟩
    rw [if_pos heard]
    exact ⟨line, memLast.mpr ⟨front, back, split, few⟩, mentions⟩

/-- A process counts as out of memory when it was found killed, or when its error output was heard out
and has the words in one of its last lines. Its code is known if it has exited in time. -/
theorem deathReported (pid : Nat) (p : Passing) :
    ∃ exit : Option Int,
      (∀ code, p.waiting = .ended (.exited code) → exit = some code.toNat) ∧
      ((∀ code, p.waiting ≠ .ended (.exited code)) → exit = none) ∧
      (p.error pid = .outOfMemory pid exit ∨ ∃ reason, p.error pid = .crashed pid exit reason) ∧
      (p.Killed → p.error pid = .outOfMemory pid exit) ∧
      ∀ lines, p.complaints.map Text.Line.text? = lines.map some →
        (p.heardOut = true → Reported lines → p.error pid = .outOfMemory pid exit) ∧
        (¬(p.heardOut = true ∧ Reported lines) → ¬p.Killed →
          ∃ reason, p.error pid = .crashed pid exit reason) := by
  have memory (found : p.isOutOfMemory = true) :
      p.error pid = .outOfMemory pid (p.status.bind ExitStatus.code?) := if_pos found
  have crash (other : ¬ p.isOutOfMemory = true) :
      p.error pid = .crashed pid (p.status.bind ExitStatus.code?) p.reason := if_neg other
  refine ⟨p.status.bind ExitStatus.code?, fun code exited => ?_, fun unexited => ?_, ?_,
    fun killed => memory ?_, fun lines texts => ⟨fun heard reported => memory ?_,
      fun silent unkilled => ⟨p.reason, crash ?_⟩⟩⟩
  · rw [status, exited]
    rfl
  · unfold status
    match waiting : p.waiting with
    | .failed cause => rfl
    | .overdue => rfl
    | .ended (.signalled signal) => rfl
    | .ended (.exited code) => exact absurd waiting (unexited code)
  · exact (Decidable.em _).imp memory fun other => ⟨p.reason, crash other⟩
  · exact Bool.or_eq_true_iff.mpr (.inr (decide_eq_true (killedIff.mp killed)))
  · exact (outOfMemoryIff texts).mpr (.inl ⟨heard, reported⟩)
  · exact fun found => ((outOfMemoryIff texts).mp found).elim silent unkilled

/-- A process that exits with code 3 after it has said that it is out of memory, in this many lines
from the end. -/
def complaining (back : Nat) : Passing where
  waiting := .ended (.exited 3)
  complaints := (.ofText "Out Of Memory") :: List.replicate back (.ofText "")

theorem complainingTexts (back : Nat) : (complaining back).complaints.map Text.Line.text? =
    ("Out Of Memory" :: List.replicate back "").map some := by
  have first : (Text.Line.ofText "Out Of Memory").text? = some "Out Of Memory" :=
    Text.Solid.text (Text.solidAll rfl)
  have empty : (Text.Line.ofText "").text? = some "" :=
    Text.Solid.text (Text.solidAll rfl)
  simp [complaining, first, empty]

theorem deathReportedLast :
    (complaining 19).error 7 = .outOfMemory 7 (some 3) ∧
      { complaining 20 with waiting := .ended (.signalled 9) : Passing }.error 7 =
        .outOfMemory 7 none ∧
      ∃ reason, { complaining 0 with waiting := .overdue, heardOut := false : Passing }.error 7 =
        .crashed 7 none reason := by
  obtain ⟨exit, own, -, -, -, heard⟩ := deathReported 7 (complaining 19)
  obtain ⟨killed, -, unexited, -, forced, -⟩ :=
    deathReported 7 { complaining 20 with waiting := .ended (.signalled 9) }
  obtain ⟨late, -, unseen, -, -, unheard⟩ :=
    deathReported 7 { complaining 0 with waiting := .overdue, heardOut := false }
  have code : exit = some 3 := own 3 rfl
  have noCode : killed = none := unexited fun _ same => nomatch same
  have lateCode : late = none := unseen fun _ same => nomatch same
  have reported : Reported ("Out Of Memory" :: List.replicate 19 "") :=
    ⟨[], _, _, rfl, by decide, by decide⟩
  exact ⟨code ▸ (heard _ (complainingTexts 19)).1 rfl reported, noCode ▸ forced rfl,
    lateCode ▸ (unheard _ (complainingTexts 0)).2 (fun ⟨heard, _⟩ => nomatch heard) nofun⟩

/- What counts is not whether any line has the words: twenty more lines, and it is forgotten. -/
theorem deathForgotten : ¬ ∀ (pid : Nat) (p : Passing) (lines : List String),
    p.complaints.map Text.Line.text? = lines.map some →
      ((∃ exit, p.error pid = .outOfMemory pid exit) ↔
        (∃ line ∈ lines, MentionsMemory line) ∨ p.Killed) := by
  intro every
  have texts := complainingTexts 20
  obtain ⟨exit, memory⟩ := (every 7 (complaining 20) _ texts).mpr
    (.inl ⟨_, List.mem_cons_self, by decide⟩)
  have reported : (complaining 20).isOutOfMemory = true := by
    by_contra other
    rw [error, if_neg other] at memory
    cases memory
  rcases (outOfMemoryIff texts).mp reported with ⟨-, front, line, back, split, few, mentions⟩ | killed
  · have kept := memLast.mpr ⟨front, back, split, few⟩
    have silent : ∀ line ∈ ("Out Of Memory" :: List.replicate 20 "").drop 1, ¬ MentionsMemory line := by
      decide
    exact silent line kept mentions
  · cases killed

end MutationPipeline.Passing
