import MutationPipeline.Checker.Course
import MutationPipeline.Proofs.Checker.Assembly
import MutationPipeline.Proofs.Pipeline.Barrier

/-! A stage sends each mutant to the side that the answer on the mutant's own group calls for,
whatever groups were made, in whatever order the answers come in, and whatever else is in them. -/
namespace MutationPipeline

namespace Account

/-- What went to the sides is what the answers say, as far as the stage got with it, and nothing
went out twice. -/
structure Sorted (a : Account) : Prop where
  asked : (a.judgements.map (·.1)).Subperm a.offered
  passed : a.passed.Subperm (a.judgements.filterMap Judgement.passed?)
  failed : ∃ refused, refused.Subperm (a.judgements.filterMap Judgement.refused?) ∧
    List.Forall₂ Judgement.Refusal refused a.failed
  single : (a.passed.map (·.id) ++ a.failed.map (·.id)).Nodup

/-- Each mutant was in one group, the answer on the group has a verdict for it, and the mutant went
to the side that the verdict calls for. -/
structure Complete (a : Account) : Prop where
  asked : (a.judgements.map (·.1)).Perm a.offered
  answered : ∀ j ∈ a.judgements, j.2.isSome = true
  passed : a.passed.Perm (a.judgements.filterMap Judgement.passed?)
  failed : ∃ refused, refused.Perm (a.judgements.filterMap Judgement.refused?) ∧
    List.Forall₂ Judgement.Refusal refused a.failed
  each : (a.passed.map (·.id) ++ a.failed.map (·.id)).Perm (a.offered.map (·.id))

end Account

theorem Judgement.ofGroupMutants (group : Group) (vs : Verdicts) :
    (ofGroup group vs).map (·.1) = group := by
  rw [ofGroup, List.map_map]
  exact List.map_id group

theorem Judgement.oneSide {j : Judgement} (known : j.2.isSome = true) :
    j.passed?.toList.map (·.id) ++ j.refused?.toList.map (·.1.id) = [j.1.id] := by
  obtain ⟨m, _ | v⟩ := j
  · cases known
  · by_cases passed : v.standing = .passed <;> simp [passed?, refused?, passed]

theorem Judgement.refusalIds {refused : List (CoveredMutant × Verdict)} {xs : List MutantResult}
    (refusals : List.Forall₂ Refusal refused xs) : xs.map (·.id) = refused.map (·.1.id) := by
  rw [← List.forall₂_eq_eq_eq, List.forall₂_map_left_iff, List.forall₂_map_right_iff]
  exact refusals.flip.imp fun _ _ refusal => refusal.carries.id

theorem Judgement.sidesApart {sent : List Judgement} (known : ∀ j ∈ sent, j.2.isSome = true) :
    ((sent.filterMap passed?).map (·.id) ++ (sent.filterMap refused?).map (·.1.id)).Perm
      (sent.map (·.1.id)) := by
  induction sent with
  | nil => exact .refl _
  | cons j rest ih =>
    rw [filterMapSplit, filterMapSplit, List.map_append, List.map_append]
    have shuffled : ((j.passed?.toList.map (·.id) ++ (rest.filterMap passed?).map (·.id)) ++
        (j.refused?.toList.map (·.1.id) ++ (rest.filterMap refused?).map (·.1.id))).Perm
        ((j.passed?.toList.map (·.id) ++ j.refused?.toList.map (·.1.id)) ++
          ((rest.filterMap passed?).map (·.id) ++ (rest.filterMap refused?).map (·.1.id))) := by
      rw [List.append_assoc, List.append_assoc]
      exact (List.perm_append_comm_assoc _ _ _).append_left _
    refine shuffled.trans ?_
    rw [oneSide (known j List.mem_cons_self)]
    exact (ih fun i member => known i (List.mem_cons_of_mem j member)).cons j.1.id

namespace Schedule
variable {W α β φ ρ σ : Type} {raw : α → List β} {worked : α → ρ → List β}
  {f g : Schedule W α φ ρ} {s s' : σ}

theorem turnedTold (turned : Turned raw worked (fun _ => []) f s s' (.go g)) :
    ∃ rest, (f.content raw worked).Perm ((f.told g).flatMap (fun x => raw x.1) ++ rest) ∧
      (g.content raw worked).Perm ((f.told g).flatMap (fun x => worked x.1 x.2) ++ rest) := by
  cases turned with
  | on quiet same =>
    rw [quiet]
    simp only [List.append_nil] at same
    exact ⟨f.content raw worked, .refl _, same⟩
  | @answer _ _ item r rest told before after =>
    rw [told]
    simp only [List.append_nil] at before after
    refine ⟨rest, ?_, ?_⟩
    · simpa using before
    · simpa using after

end Schedule

def Stage.unanswered (group : Group) : Except WorkerError Verdicts → List CoveredMutant
  | .ok _ => []
  | .error _ => group

def Stage.judgements (group : Group) : Except WorkerError Verdicts → List Judgement
  | .ok vs => Judgement.ofGroup group vs
  | .error _ => []

namespace Account
variable {a : Account} {stage : Stage} {next : Next Stage (Except RunError Unit)}
  {v v' : StageView}

theorem afterQuiet (silent : stage.answered next = []) (passed : v'.passed = v.passed)
    (failed : v'.failed = v.failed) : a.after stage next v v' = a := by
  rw [after, silent, passed, failed, List.drop_length, List.drop_length]
  simp only [List.append_nil]

theorem afterJudgements (a : Account) (stage : Stage) (next) (v v' : StageView) :
    (a.after stage next v v').judgements =
      a.judgements ++ (stage.answered next).flatMap fun x => Judgement.ofGroup x.1 x.2 :=
  List.flatMap_append

structure Sent (a : Account) (sent : List Judgement) : Prop where
  passed : a.passed = sent.filterMap Judgement.passed?
  failed : List.Forall₂ Judgement.Refusal (sent.filterMap Judgement.refused?) a.failed
  known : ∀ j ∈ sent, j.2.isSome = true

theorem Sent.more {b : Account} {sent : List Judgement} {j : Judgement} {xs : List MutantResult}
    (agrees : a.Sent sent) (known : j.2.isSome = true)
    (passed : b.passed = a.passed ++ j.passed?.toList) (failed : b.failed = a.failed ++ xs)
    (refusals : List.Forall₂ Judgement.Refusal j.refused?.toList xs) : b.Sent (sent ++ [j]) where
  passed := by
    rw [passed, agrees.passed, List.filterMap_append, filterMapSplit, List.filterMap_nil,
      List.append_nil]
  failed := by
    rw [failed, List.filterMap_append, filterMapSplit, List.filterMap_nil, List.append_nil]
    exact List.rel_append agrees.failed refusals
  known := fun i member => by
    rcases List.mem_append.mp member with before | last
    · exact agrees.known i before
    · rw [List.mem_singleton.mp last]
      exact known

/-- What was sent is among what was answered, and that is about mutants that were offered. -/
structure Told (a : Account) : Prop where
  asked : (a.judgements.map (·.1)).Subperm a.offered
  sent : ∃ sent, a.Sent sent ∧ sent.Subperm a.judgements

theorem Told.sorted (told : a.Told) (distinct : (a.offered.map (·.id)).Nodup) : a.Sorted := by
  obtain ⟨sent, agrees, among⟩ := told.sent
  have ids : (sent.map (·.1.id)).Subperm (a.offered.map (·.id)) := by
    refine (subpermMap among).trans ?_
    have asked := subpermMap (f := fun m : CoveredMutant => m.id) told.asked
    rwa [List.map_map] at asked
  refine ⟨told.asked, ?_, ?_, ?_⟩
  · rw [agrees.passed]
    exact subpermFilterMap among
  · exact ⟨_, subpermFilterMap among, agrees.failed⟩
  · rw [agrees.passed, Judgement.refusalIds agrees.failed]
    exact subpermNodup ((Judgement.sidesApart agrees.known).subperm.trans ids) distinct

end Account

namespace Stage

def unheard : Stage → List CoveredMutant
  | .draining batch | .filling batch _ | .activating batch _ | .borrowing batch _
  | .asking batch _ _ | .returning batch _ _ _ | .grouping batch _ => batch
  | .checking f | .routing _ _ f => f.content id unanswered

def unsent : Stage → List Judgement
  | .checking f => f.content (fun _ => []) judgements
  | .routing group vs f => Judgement.ofGroup group vs ++ f.content (fun _ => []) judgements
  | _ => []

def isOpen : Stage → Bool
  | .draining _ => true
  | _ => false

structure Balanced (stage : Stage) (v : StageView) (a : Account) : Prop where
  asked : (a.judgements.map (·.1) ++ stage.unheard ++ v.input.items).Perm a.offered
  sent : ∃ sent, a.Sent sent ∧ (sent ++ stage.unsent).Perm a.judgements
  shut : stage.isOpen = true ∨ v.input.items = [] ∧ v.input.senders = 0

def Reached (a : Account) (v : StageView) : Next Stage (Except RunError Unit) → Prop
  | .go stage => stage.Balanced v a
  | .done (.ok _) => a.Told ∧ a.Complete
  | .done (.error e) => a.Told ∧ ∀ checker id, e = .missingVerdict checker id →
      ∃ m, m.id = id ∧ (m, none) ∈ a.judgements
  | .panicked => a.Told

section Moves
variable {plan : StagePlan} {stage : Stage} {next : Next Stage (Except RunError Unit)}
  {v v' : StageView} {a : Account}

theorem Balanced.told (balanced : stage.Balanced v a) : a.Told := by
  obtain ⟨sent, agrees, all⟩ := balanced.sent
  refine ⟨?_, sent, agrees, (List.sublist_append_left sent stage.unsent).subperm.trans all.subperm⟩
  refine List.Subperm.trans ?_ balanced.asked.subperm
  rw [List.append_assoc]
  exact (List.sublist_append_left _ _).subperm

theorem Balanced.complete (balanced : stage.Balanced v a) (heard : stage.unheard = [])
    (unsent : stage.unsent = []) (items : v.input.items = []) : a.Complete := by
  have asked := balanced.asked
  obtain ⟨sent, agrees, all⟩ := balanced.sent
  rw [heard, items, List.append_nil, List.append_nil] at asked
  rw [unsent, List.append_nil] at all
  have known : ∀ j ∈ a.judgements, j.2.isSome = true :=
    fun j member => agrees.known j (all.mem_iff.mpr member)
  have passed : a.passed.Perm (a.judgements.filterMap Judgement.passed?) :=
    agrees.passed ▸ all.filterMap _
  have failed : (sent.filterMap Judgement.refused?).Perm
      (a.judgements.filterMap Judgement.refused?) := all.filterMap _
  have ids := asked.map (·.id)
  rw [List.map_map] at ids
  refine ⟨asked, known, passed, ⟨_, failed, agrees.failed⟩, ?_⟩
  rw [Judgement.refusalIds agrees.failed]
  exact ((passed.map _).append (failed.map _)).trans ((Judgement.sidesApart known).trans ids)

theorem reachedTold (reached : Reached a v next) : a.Told := by
  rcases next with stage | (e | u) | _
  · exact Balanced.told reached
  · exact reached.1
  · exact reached.1
  · exact reached

theorem reachedQuiet (silent : stage.answered next = []) (passed : v'.passed = v.passed)
    (failed : v'.failed = v.failed) (reached : Reached a v' next) :
    Reached (a.after stage next v v') v' next := by
  rwa [Account.afterQuiet silent passed failed]

theorem Balanced.moved {other : Stage} (balanced : stage.Balanced v a)
    (heard : (other.unheard ++ v'.input.items).Perm (stage.unheard ++ v.input.items))
    (unsent : other.unsent = stage.unsent)
    (shut : other.isOpen = true ∨ v'.input.items = [] ∧ v'.input.senders = 0) : other.Balanced v' a where
  asked := by
    have asked := balanced.asked
    rw [List.append_assoc] at asked ⊢
    exact (heard.append_left _).trans asked
  sent := unsent ▸ balanced.sent
  shut := shut

theorem Balanced.onward {other : Stage} (balanced : stage.Balanced v a) (closed : stage.isOpen = false)
    (heard : other.unheard = stage.unheard) (unsent : other.unsent = stage.unsent) :
    other.Balanced v a :=
  balanced.moved (heard ▸ .refl _) unsent (.inr (balanced.shut.resolve_left (Bool.eq_false_iff.mp closed)))

theorem siteReached {φ ρ : Type} {m : Machine CheckSite φ ρ} {p : φ} {embed : φ → Stage}
    {then' : ρ → StageView → StageView × Next Stage (Except RunError Unit)}
    (balanced : stage.Balanced v a) (closed : stage.isOpen = false)
    (move : (v', next) ∈ (onSite m).within embed then' p v)
    (silent : ∀ o, stage.answered o = [])
    (still : ∀ q, (embed q).unheard = stage.unheard ∧ (embed q).unsent = stage.unsent)
    (ended : ∀ r u, (then' r u).1 = u ∧ (stage.Balanced u a → Reached a u (then' r u).2)) :
    Reached (a.after stage next v v') v' next := by
  have shut := balanced.shut.resolve_left (Bool.eq_false_iff.mp closed)
  rcases Machine.withinCases move with ⟨q, inner, rfl⟩ | ⟨u, r, inner, same⟩ | ⟨inner, rfl⟩
  · obtain ⟨site, -, rfl⟩ := Machine.onCases inner
    refine reachedQuiet (silent _) rfl rfl (balanced.moved ?_ (still q).2 (.inr shut))
    rw [(still q).1]
    exact .refl _
  · obtain ⟨site, -, rfl⟩ := Machine.onCases inner
    obtain ⟨kept, reached⟩ := ended r (StageView.onSite.set site v)
    have there := reached (balanced.moved (.refl _) rfl (.inr shut))
    rw [← same] at kept there
    cases kept
    exact reachedQuiet (silent _) rfl rfl there
  · obtain ⟨site, -, rfl⟩ := Machine.onCases inner
    exact reachedQuiet (silent _) rfl rfl balanced.told

theorem drainingReached {batch : List CoveredMutant} (balanced : (draining batch).Balanced v a)
    (move : (v', next) ∈ moves plan (.draining batch) v) :
    Reached (a.after (.draining batch) next v v') v' next := by
  obtain ⟨⟨input, found⟩, received, same⟩ := List.mem_map.mp move
  rcases Channel.receiveCases received with ⟨m, rfl, items⟩ | ⟨rfl, rfl⟩
  · cases same
    refine reachedQuiet rfl rfl rfl (balanced.moved ?_ rfl (.inl rfl))
    rw [items]
    simp [unheard]
  · obtain ⟨senders, items, -⟩ := Channel.receiveEnded received
    simp only at same
    split at same
    · next none =>
      cases same
      exact reachedQuiet rfl rfl rfl
        ⟨balanced.told, balanced.complete (List.isEmpty_iff.mp none) rfl items⟩
    · cases same
      exact reachedQuiet rfl rfl rfl (balanced.moved (.refl _) rfl (.inr ⟨items, senders⟩))

theorem noted (notes : List Note) (v : StageView) :
    ∃ site, notes.foldl StageView.note v = { v with site } := by
  induction notes generalizing v with
  | nil => exact ⟨v.site, rfl⟩
  | cons first rest ih =>
    obtain ⟨site, same⟩ := ih (v.note first)
    exact ⟨site, same⟩

theorem groupingReached {batch : List CoveredMutant} {own : Option (List (List Mutant))}
    (balanced : (grouping batch own).Balanced v a) (distinct : (batch.map (·.id)).Nodup)
    (move : (v', next) ∈ moves plan (.grouping batch own) v) :
    Reached (a.after (.grouping batch own) next v v') v' next := by
  have shut := balanced.shut.resolve_left Bool.false_ne_true
  obtain ⟨site, same⟩ := noted (groupsOf plan batch own).2 v
  simp only [moves] at move
  rw [same] at move
  split at move
  · next gs made =>
    obtain ⟨rfl, rfl⟩ := memStep.mp move
    refine reachedQuiet rfl rfl rfl (balanced.moved ?_ ?_ (.inr shut))
    · have whole : (checking (.ofList gs)).unheard = gs.flatten := by
        simp [unheard, Schedule.content, Schedule.ofList, Feed.content, List.flatMap_id]
      rw [whole]
      exact (groupsOfPerm distinct made).append_right _
    · simp [unsent, Schedule.content, Schedule.ofList, Feed.content]
  · next e failed =>
    obtain ⟨rfl, rfl⟩ := memFinish.mp move
    obtain ⟨id, rfl⟩ := groupsOfError failed
    exact reachedQuiet rfl rfl rfl ⟨balanced.told, fun _ _ same => by cases same⟩

theorem answeredParts (told : List (Group × Except WorkerError Verdicts)) :
    (told.flatMap fun x => judgements x.1 x.2) =
      (told.filterMap answer?).flatMap fun x => Judgement.ofGroup x.1 x.2 := by
  induction told with
  | nil => rfl
  | cons x rest ih =>
    obtain ⟨group, _ | vs⟩ := x
    · exact ih
    · exact congrArg (Judgement.ofGroup group vs ++ ·) ih

theorem groupParts (told : List (Group × Except WorkerError Verdicts)) :
    (told.flatMap fun x => x.1).Perm
      ((told.flatMap fun x => judgements x.1 x.2).map (·.1) ++
        told.flatMap fun x => unanswered x.1 x.2) := by
  induction told with
  | nil => exact .refl _
  | cons x rest ih =>
    obtain ⟨group, _ | vs⟩ := x
    · exact (ih.append_left group).trans (List.perm_append_comm_assoc _ _ _)
    · simp only [List.flatMap_cons, judgements, unanswered, List.map_append,
        Judgement.ofGroupMutants, List.nil_append, List.append_assoc]
      exact ih.append_left group

section Checking
variable {f g : GroupSchedule} {y : Option (Yield Group (Except WorkerError Verdicts))}

theorem checkingTurned {β : Type} (raw : Group → List β)
    (worked : Group → Except WorkerError Verdicts → List β) {o}
    (move : (v', o) ∈ Schedule.moves (schedulePlan plan) f v) :
    Schedule.Turned raw worked (fun _ => []) f v v' o := by
  refine Schedule.movedTurned (fun _ _ => rfl) ?_ ?_ (Schedule.movesMoved move)
  · intro t u item more
    cases List.mem_singleton.mp more
  · intro t u more
    exact rfl

theorem checkingAround {o} (move : (v', o) ∈ Schedule.moves (schedulePlan plan) f v) :
    ∃ site, v' = { v with site } := by
  rcases (Schedule.movesMoved move).state with rfl | ⟨u, rfl⟩ | ⟨item, more⟩
  · exact ⟨v'.site, rfl⟩
  · exact ⟨u, rfl⟩
  · cases List.mem_singleton.mp more
    exact ⟨v.site, rfl⟩

theorem checkingBalanced (balanced : (checking f).Balanced v a)
    (move : (v', .go g) ∈ Schedule.moves (schedulePlan plan) f v) :
    (checking g).Balanced v' (a.after (.checking f) (.go (.checking g)) v v') := by
  have shut := balanced.shut.resolve_left Bool.false_ne_true
  obtain ⟨rest, before, after⟩ := Schedule.turnedTold (checkingTurned id unanswered move)
  obtain ⟨more, none, done⟩ := Schedule.turnedTold (checkingTurned (fun _ => []) judgements move)
  obtain ⟨site, rfl⟩ := checkingAround move
  have told := a.afterJudgements (.checking f) (.go (.checking g)) v { v with site }
  rw [answered, ← answeredParts] at told
  have heard : (unheard (.checking f)).Perm
      (((f.told g).flatMap fun x => judgements x.1 x.2).map (·.1) ++ unheard (.checking g)) :=
    calc unheard (.checking f)
      _ |>.Perm _ := before.trans ((groupParts (f.told g)).append_right rest)
      _ |>.Perm _ := by
        rw [List.append_assoc]
        exact after.symm.append_left _
  refine ⟨?_, ?_, .inr shut⟩
  · rw [told, List.map_append, List.append_assoc, List.append_assoc]
    have asked := balanced.asked
    rw [List.append_assoc] at asked
    refine List.Perm.trans (List.Perm.append_left _ ?_) asked
    rw [← List.append_assoc]
    exact heard.symm.append_right _
  · obtain ⟨sent, agrees, all⟩ := balanced.sent
    refine ⟨sent, ⟨?_, ?_, agrees.known⟩, ?_⟩
    · simpa [Account.after] using agrees.passed
    · simpa [Account.after] using agrees.failed
    · rw [told]
      have unsent : (Schedule.content (fun _ => []) judgements f).Perm more := by
        rwa [List.flatMap_eq_nil_iff.mpr fun _ _ => rfl, List.nil_append] at none
      refine List.Perm.trans ?_ (all.append_right _)
      rw [List.append_assoc]
      exact (done.trans ((unsent.symm.append_left _).trans List.perm_append_comm)).append_left _

theorem checkingYields {group : Group} {vs : Verdicts} (balanced : (checking f).Balanced v a)
    (move : (v', .done (some ⟨group, .ok (.ok vs)⟩, g)) ∈ Schedule.moves (schedulePlan plan) f v) :
    (routing group vs g).Balanced v' a := by
  have shut := balanced.shut.resolve_left Bool.false_ne_true
  obtain ⟨site, rfl⟩ := checkingAround move
  have heard : (g.content id unanswered).Perm (f.content id unanswered) := by
    cases checkingTurned id unanswered move with
    | yield same => simpa [Yield.content, unanswered] using same
  have unsent : (Judgement.ofGroup group vs ++ g.content (fun _ => []) judgements).Perm
      (f.content (fun _ => []) judgements) := by
    cases checkingTurned (fun _ => []) judgements move with
    | yield same => simpa [Yield.content, judgements] using same
  refine ⟨?_, ?_, .inr shut⟩
  · exact ((heard.append_left _).append_right _).trans balanced.asked
  · obtain ⟨sent, agrees, all⟩ := balanced.sent
    exact ⟨sent, agrees, (unsent.append_left sent).trans all⟩

theorem checkingEnds (balanced : (checking f).Balanced v a)
    (move : (v', .done (none, g)) ∈ Schedule.moves (schedulePlan plan) f v) : a.Complete := by
  have shut := balanced.shut.resolve_left Bool.false_ne_true
  cases Schedule.movesMoved move with
  | ended dry empty =>
    refine balanced.complete ?_ ?_ shut.1 <;>
    · simp only [unheard, unsent, Schedule.content, dry, empty]
      rfl

theorem checkingReached (balanced : (checking f).Balanced v a)
    (move : (v', next) ∈ moves plan (.checking f) v) :
    Reached (a.after (.checking f) next v v') v' next := by
  rcases Machine.withinCases move with ⟨g, inner, rfl⟩ | ⟨u, ⟨y, g⟩, inner, same⟩ | ⟨inner, rfl⟩
  · exact checkingBalanced balanced inner
  · obtain ⟨site, rfl⟩ := checkingAround inner
    cases y with
    | none =>
      cases same
      exact reachedQuiet rfl rfl rfl ⟨balanced.told, checkingEnds balanced inner⟩
    | some y =>
      obtain ⟨group, e | e | vs⟩ := y
      · cases same
        exact reachedQuiet rfl rfl rfl ⟨balanced.told, fun _ _ same => by cases same⟩
      · cases same
        exact reachedQuiet rfl rfl rfl ⟨balanced.told, fun _ _ same => by cases same⟩
      · cases same
        exact reachedQuiet rfl rfl rfl (checkingYields balanced inner)
  · obtain ⟨site, rfl⟩ := checkingAround inner
    exact reachedQuiet rfl rfl rfl balanced.told

end Checking

theorem erasedJudgements {m : CoveredMutant} {rest : Group} (vs : Verdicts)
    (fresh : ∀ other ∈ rest, other.id ≠ m.id) :
    Judgement.ofGroup rest (vs.erase m.id) = Judgement.ofGroup rest vs :=
  List.map_congr_left fun other inside => by rw [Keyed.getErase (fresh other inside)]

section Routing
variable {m : CoveredMutant} {rest group : Group} {vs : Verdicts} {f : GroupSchedule}
  {verdict : Verdict}

theorem routeCases {sent : Except RunError Unit} (move : (v', sent) ∈ route v m verdict) :
    v'.input = v.input ∧
      ((sent = .ok () ∧
          v'.passed.items = v.passed.items ++ (Judgement.passed? (m, some verdict)).toList ∧
          ∃ xs, v'.failed.items = v.failed.items ++ xs ∧
            List.Forall₂ Judgement.Refusal (Judgement.refused? (m, some verdict)).toList xs) ∨
        (∃ name, sent = .error (.channelClosed name)) ∧ v'.passed = v.passed ∧
          v'.failed = v.failed) := by
  unfold route at move
  split at move
  · next passed =>
    have passed := Verdict.isPassedIff.mp passed
    obtain ⟨⟨channel, taken⟩, sending, same⟩ := List.mem_map.mp move
    cases same
    rcases Channel.sendCases sending with ⟨rfl, more⟩ | ⟨rfl, rfl⟩
    · refine ⟨rfl, .inl ⟨rfl, by simp [Judgement.passed?, passed, more], [], by simp, ?_⟩⟩
      rw [Judgement.refused?, if_pos passed]
      exact .nil
    · exact ⟨rfl, .inr ⟨⟨_, rfl⟩, rfl, rfl⟩⟩
  · next refusal =>
    have refusal := mt Verdict.isPassedIff.mpr refusal
    obtain ⟨⟨channel, taken⟩, sending, same⟩ := List.mem_map.mp move
    cases same
    rcases Channel.sendCases sending with ⟨rfl, more⟩ | ⟨rfl, rfl⟩
    · refine ⟨rfl, .inl ⟨rfl, by simp [Judgement.passed?, refusal], _, more, ?_⟩⟩
      rw [Judgement.refused?, if_neg refusal]
      exact .cons ⟨⟨rfl, rfl, rfl, rfl, rfl, rfl, rfl⟩, rfl, rfl, rfl, rfl⟩ .nil
    · exact ⟨rfl, .inr ⟨⟨_, rfl⟩, rfl, rfl⟩⟩

theorem groupDistinct (balanced : (routing group vs f).Balanced v a)
    (distinct : (a.offered.map (·.id)).Nodup) : (group.map (·.id)).Nodup := by
  obtain ⟨sent, -, all⟩ := balanced.sent
  have among : group.Subperm a.offered := by
    refine List.Subperm.trans ?_ balanced.told.asked
    refine List.Subperm.trans ?_ (all.map (·.1)).subperm
    rw [unsent, List.map_append, List.map_append, Judgement.ofGroupMutants]
    exact ((List.sublist_append_left group _).trans (List.sublist_append_right _ _)).subperm
  exact subpermNodup (subpermMap among) distinct

theorem routingBalanced (balanced : (routing (m :: rest) vs f).Balanced v a)
    (distinct : (a.offered.map (·.id)).Nodup) (found : vs.get? m.id = some verdict)
    (input : v'.input = v.input)
    (passed : v'.passed.items = v.passed.items ++ (Judgement.passed? (m, some verdict)).toList)
    {xs : List MutantResult} (failed : v'.failed.items = v.failed.items ++ xs)
    (refusals : List.Forall₂ Judgement.Refusal (Judgement.refused? (m, some verdict)).toList xs) :
    (routing rest (vs.erase m.id) f).Balanced v' (a.after (.routing (m :: rest) vs f)
      (.go (.routing rest (vs.erase m.id) f)) v v') := by
  have shut := balanced.shut.resolve_left Bool.false_ne_true
  have single := List.nodup_cons.mp (groupDistinct balanced distinct)
  have others := erasedJudgements vs fun other inside same =>
    single.1 (List.mem_map.mpr ⟨other, inside, same⟩)
  have told := a.afterJudgements (.routing (m :: rest) vs f)
    (.go (.routing rest (vs.erase m.id) f)) v v'
  have silent : answered (.routing (m :: rest) vs f) (.go (.routing rest (vs.erase m.id) f)) = [] :=
    rfl
  rw [silent, List.flatMap_nil, List.append_nil] at told
  refine ⟨?_, ?_, .inr (input ▸ shut)⟩
  · rw [told, input]
    exact balanced.asked
  · obtain ⟨sent, agrees, all⟩ := balanced.sent
    refine ⟨sent ++ [(m, some verdict)], agrees.more rfl ?_ ?_ refusals, ?_⟩
    · rw [Account.after, passed, List.drop_left]
    · rw [Account.after, failed, List.drop_left]
    · rw [told, unsent, others, List.append_assoc]
      rwa [unsent, Judgement.ofGroup, List.map_cons, found] at all

theorem routingReached (balanced : (routing group vs f).Balanced v a)
    (distinct : (a.offered.map (·.id)).Nodup)
    (move : (v', next) ∈ moves plan (.routing group vs f) v) :
    Reached (a.after (.routing group vs f) next v v') v' next := by
  have shut := balanced.shut.resolve_left Bool.false_ne_true
  cases group with
  | nil =>
    obtain ⟨rfl, rfl⟩ := memStep.mp move
    exact reachedQuiet rfl rfl rfl (balanced.moved (.refl _) rfl (.inr shut))
  | cons m rest =>
    simp only [moves] at move
    split at move
    · next missing =>
      obtain ⟨rfl, rfl⟩ := memFinish.mp move
      refine reachedQuiet rfl rfl rfl ⟨balanced.told, fun checker id same => ⟨m, ?_, ?_⟩⟩
      · cases same
        rfl
      · obtain ⟨sent, -, all⟩ := balanced.sent
        refine all.subset (List.mem_append_right _ (List.mem_append_left _ ?_))
        rw [Judgement.ofGroup, List.map_cons, missing]
        exact List.mem_cons_self
    · next verdict found =>
      obtain ⟨⟨u, sent⟩, routed, same⟩ := List.mem_map.mp move
      rcases routeCases routed with
        ⟨input, ⟨rfl, passed, xs, failed, refusals⟩ | ⟨⟨name, rfl⟩, passed, failed⟩⟩
      · cases same
        exact routingBalanced balanced distinct found input passed failed refusals
      · cases same
        exact reachedQuiet rfl passed failed ⟨balanced.told, fun _ _ same => by cases same⟩

end Routing

theorem Balanced.distinct (balanced : stage.Balanced v a)
    (distinct : (a.offered.map (·.id)).Nodup) : (stage.unheard.map (·.id)).Nodup := by
  refine subpermNodup (subpermMap ?_) distinct
  refine List.Subperm.trans ?_ balanced.asked.subperm
  exact ((List.sublist_append_right _ _).trans (List.sublist_append_left _ _)).subperm

theorem movesReached (balanced : stage.Balanced v a) (distinct : (a.offered.map (·.id)).Nodup)
    (move : (v', next) ∈ moves plan stage v) : Reached (a.after stage next v v') v' next := by
  cases stage with
  | draining batch => exact drainingReached balanced move
  | filling batch f =>
    refine siteReached balanced rfl move (fun _ => rfl) (fun _ => ⟨rfl, rfl⟩) fun r u => ?_
    cases r with
    | ok r => exact ⟨rfl, fun there => there.onward rfl rfl rfl⟩
    | error e => exact ⟨rfl, fun there => ⟨there.told, fun _ _ same => by cases same⟩⟩
  | activating batch b =>
    refine siteReached balanced rfl move (fun _ => rfl) (fun _ => ⟨rfl, rfl⟩) fun r u => ?_
    cases r with
    | ok r => exact ⟨rfl, fun there => there.onward rfl rfl rfl⟩
    | error e => exact ⟨rfl, fun there => ⟨there.told, fun _ _ same => by cases same⟩⟩
  | borrowing batch b =>
    refine siteReached balanced rfl move (fun _ => rfl) (fun _ => ⟨rfl, rfl⟩) fun r u => ?_
    cases r with
    | ok r => exact ⟨rfl, fun there => there.onward rfl rfl rfl⟩
    | error e => exact ⟨rfl, fun there => ⟨there.told, fun _ _ same => by cases same⟩⟩
  | asking batch ticket c =>
    refine siteReached balanced rfl move (fun _ => rfl) (fun _ => ⟨rfl, rfl⟩) fun r u => ?_
    exact ⟨rfl, fun there => there.onward rfl rfl rfl⟩
  | returning batch ticket answer r =>
    refine siteReached balanced rfl move (fun _ => rfl) (fun _ => ⟨rfl, rfl⟩) fun r u => ?_
    cases answer with
    | ok own => exact ⟨rfl, fun there => there.onward rfl rfl rfl⟩
    | error e => exact ⟨rfl, fun there => ⟨there.told, fun _ _ same => by cases same⟩⟩
  | grouping batch own => exact groupingReached balanced (balanced.distinct distinct) move
  | checking f => exact checkingReached balanced move
  | routing group vs f => exact routingReached balanced distinct move

theorem Balanced.stirred {more : List CoveredMutant} (balanced : stage.Balanced v a)
    (stirred : v.Stirred v' more) :
    stage.Balanced v' { a with offered := a.offered ++ more } := by
  obtain ⟨asked, ⟨sent, agrees, all⟩, shut⟩ := balanced
  have agrees : Account.Sent { a with offered := a.offered ++ more } sent :=
    ⟨agrees.passed, agrees.failed, agrees.known⟩
  cases stirred with
  | offered some taken =>
    rcases Channel.sendCases taken with ⟨-, items⟩ | ⟨no, -⟩
    · refine ⟨?_, ⟨sent, agrees, all⟩, shut.imp_right fun none => ?_⟩
      · rw [items, ← List.append_assoc]
        exact asked.append_right _
      · rw [none.2] at some
        cases some
    · cases no
  | gone =>
    refine ⟨?_, ⟨sent, agrees, all⟩, shut.imp_right fun none => ⟨none.1, ?_⟩⟩
    · rwa [List.append_nil]
    · rw [Channel.dropSender, none.2]
  | _ =>
    refine ⟨?_, ⟨sent, agrees, all⟩, shut⟩
    rwa [List.append_nil]

theorem startBalanced (v : StageView) :
    (draining []).Balanced v { offered := v.input.items } where
  asked := by simp [Account.judgements, unheard]
  sent := by
    refine ⟨[], ⟨rfl, .nil, fun _ member => absurd member List.not_mem_nil⟩, ?_⟩
    simp [Account.judgements, unsent]
  shut := .inl rfl

theorem courseReached (course : Course plan next v a) (distinct : (a.offered.map (·.id)).Nodup) :
    Reached a v next := by
  induction course with
  | start v => exact startBalanced v
  | move course move ih => exact movesReached (ih distinct) distinct move
  | stir course stirred ih =>
    refine Balanced.stirred (ih ?_) stirred
    rw [List.map_append] at distinct
    exact (List.nodup_append.mp distinct).1

/-- However far a stage gets, nothing goes out of it twice or to the side that the mutant's own
group has no verdict for. When it is done, all mutants that it was offered went out, each by the
verdict of its own group; it is not done when a group's answer has no verdict for a member. -/
theorem verdictsSorted (course : Course plan next v a)
    (distinct : (a.offered.map (·.id)).Nodup) :
    a.Sorted ∧ (next = .done (.ok ()) → a.Complete) ∧
      ∀ checker id, next = .done (.error (.missingVerdict checker id)) →
        ∃ m, m.id = id ∧ (m, none) ∈ a.judgements := by
  have reached := courseReached course distinct
  refine ⟨(reachedTold reached).sorted distinct, fun ended => ?_, fun checker id ended => ?_⟩
  · rw [ended] at reached
    exact reached.2
  · rw [ended] at reached
    exact reached.2 checker id rfl

def pace (plan : StagePlan) : List (Option (Outcome CheckAnswer)) → Stage → StageView → Account →
    Option (Next Stage (Except RunError Unit) × StageView × Account)
  | [], stage, v, a => some (.go stage, v, a)
  | some outcome :: later, stage, v, a =>
    v.site.crew.orders.head?.bind fun x =>
      pace plan later stage
        { v with site := { v.site with crew := v.site.crew.answer x.token outcome } } a
  | none :: later, stage, v, a =>
    match stage.moves plan v with
    | [] => none
    | (u, .go next) :: _ => pace plan later next u (a.after stage (.go next) v u)
    | (u, next) :: _ => some (next, u, a.after stage next v u)

theorem paceCourse {cues : List (Option (Outcome CheckAnswer))}
    (course : Course plan (.go stage) v a) {b : Account}
    (paced : pace plan cues stage v a = some (next, v', b)) : Course plan next v' b := by
  induction cues generalizing stage v a with
  | nil =>
    cases paced
    exact course
  | cons cue later ih =>
    cases cue with
    | some outcome =>
      obtain ⟨x, -, rest⟩ := Option.bind_eq_some_iff.mp paced
      have stirred := course.stir
        (.site { v.site with crew := v.site.crew.answer x.token outcome })
      rw [List.append_nil] at stirred
      exact ih stirred rest
    | none =>
      unfold pace at paced
      split at paced
      · cases paced
      · next moves => exact ih (course.move (moves ▸ List.mem_cons_self)) paced
      · next moves =>
        cases paced
        exact course.move (moves ▸ List.mem_cons_self)

end Moves

def pair : List CoveredMutant := [{ id := "1", fileName := "a" }, { id := "2", fileName := "a" }]

def pairView : StageView where
  input := { capacity := 2, items := pair, senders := 0 }
  passed := { capacity := 1 }
  failed := { capacity := 1 }
  site := { pool := .ofCapacity 1 }

def pairPlan : StagePlan := { checker := "c", staffing := ⟨"c", false⟩ }

/-- The checker puts both mutants into one group, refuses the first of them, and has a verdict for
a third one. -/
def pairCues : List (Option (Outcome CheckAnswer)) :=
  let moves (n : Nat) : List (Option (Outcome CheckAnswer)) := List.replicate n none
  let verdicts := Keyed.ofList [("1", ⟨.compileError, some "no"⟩), ("2", .passed), ("3", .passed)]
  moves 6 ++ [some (.ok .done)] ++ moves 6 ++ [some (.ok .done)] ++ moves 6 ++
    [some (.ok (.groups (some [plain pair])))] ++ moves 11 ++ [some (.ok (.verdicts verdicts))] ++
    moves 7

def pairStart : Account := { offered := pair }

def pairEnd : Next Stage (Except RunError Unit) × StageView × Account :=
  (pace pairPlan pairCues (.draining []) pairView pairStart).getD (.panicked, pairView, pairStart)

set_option maxRecDepth 4096 in
theorem pairPaced : pace pairPlan pairCues (.draining []) pairView pairStart = some pairEnd := rfl

set_option maxRecDepth 4096 in
theorem verdictsSortedPair :
    pairEnd.1 = .done (.ok ()) ∧ pairEnd.2.2.passed.map (·.id) = ["2"] ∧
      pairEnd.2.2.failed.map (fun x => (x.id, x.statusReason)) = [("1", some "no")] ∧
      pairEnd.2.2.Sorted ∧ pairEnd.2.2.Complete :=
  have course : Course pairPlan pairEnd.1 pairEnd.2.1 pairEnd.2.2 :=
    paceCourse (.start pairView) pairPaced
  have distinct : (pairEnd.2.2.offered.map (·.id)).Nodup := by decide
  have sorted := verdictsSorted course distinct
  have ended : pairEnd.1 = .done (.ok ()) := rfl
  ⟨ended, rfl, rfl, sorted.1, sorted.2.1 ended⟩

end Stage

end MutationPipeline
