import MutationPipeline.Proofs.Pipeline.Symptoms

/-! Why a run fails: when a task has failed, the run fails as one of its tasks did. It is found out who
failed first, unless the others are over before that can be seen. -/
namespace MutationPipeline.Run
variable {o : Orders} {place : Nat} {r next s : Run} {t u : Task} {mutants : List CoveredMutant}
  {e : RunError}

theorem taskConduct (move : next ∈ r.taskMoves place) : next.conduct = r.conduct := by
  obtain ⟨t, u, f, -, -, rfl⟩ := taskActed move
  rfl

theorem joinedCause {c : Conduct} (cause : c.cause? = some e) (outcome : Except RunError Unit) :
    (c.joined outcome).cause? = some e ∨
      ∃ later, outcome = .error later ∧ (c.joined outcome).cause? = some later := by
  cases c with
  | collecting => cases cause
  | searching first =>
    cases outcome with
    | ok u => exact .inl cause
    | error later =>
      cases cause
      show some (preferred e later) = some e ∨
        ∃ later', Except.error later = .error later' ∧ some (preferred e later) = some later'
      unfold preferred
      split
      · exact .inr ⟨later, rfl, rfl⟩
      · exact .inl rfl
  | _ => exact .inl cause

def Fails (r : Run) (e : RunError) : Prop := ∃ p, (r.task p).failure? = some e

def Failed (o : Orders) (mutants : List CoveredMutant) (r : Run) (e : RunError) : Prop :=
  ∃ s, Steps (start o mutants) s ∧ Steps s r ∧ s.Fails e

theorem Failed.onward (failed : Failed o mutants r e) (step : Step r next) :
    Failed o mutants next e :=
  have ⟨s, before, after, fails⟩ := failed
  ⟨s, before, after.tail step, fails⟩

def Caused (o : Orders) (mutants : List CoveredMutant) (r : Run) : Prop :=
  ∃ e, r.conduct.cause? = some e ∧ Failed o mutants r e

theorem Caused.onward (caused : Caused o mutants r) (steps : Steps (start o mutants) r)
    (step : Step r next) : Caused o mutants next := by
  have ⟨e, cause, failed⟩ := caused
  have same (conduct : next.conduct.cause? = r.conduct.cause?) : Caused o mutants next :=
    ⟨e, conduct.trans cause, failed.onward step⟩
  cases step with
  | task place move => exact same (by rw [taskConduct move])
  | checker x outcome waits => exact same rfl
  | runner x outcome waits => exact same rfl
  | own move =>
    have step := Step.own move
    cases ownActed move with
    | received collecting taken => exact same rfl
    | @joined place outcome early found =>
      rcases joinedCause cause outcome with kept | ⟨later, rfl, preferred⟩
      · exact ⟨e, kept, failed.onward step⟩
      · exact ⟨later, preferred, r, steps, (Steps.refl r).tail step, place,
          by rw [taskFound found]; rfl⟩
    | aborted searching none => exact same (by rw [searching]; rfl)
    | cut aborting found cut => exact same rfl
    | @concluded outcome ended all =>
      cases ended with
      | results collecting =>
        rw [collecting] at cause
        cases cause
      | @failure first aborting =>
        rw [aborting] at cause
        cases cause
        exact ⟨e, ((r.concludeCause _).2 e).mpr rfl, failed.onward step⟩
    | @onCheckers d e outcome s disposing moved =>
      exact same (by rw [disposing]; cases outcome <;> rfl)
    | @checkersDone d result outcome s disposing moved =>
      exact same (by rw [disposing]; cases outcome <;> rfl)
    | @onRunners d e outcome s disposing moved =>
      exact same (by rw [disposing]; cases outcome <;> rfl)
    | @runnersDone d result outcome s disposing moved =>
      exact same (by rw [disposing]; cases outcome <;> rfl)
    | @reported outcome reporting => exact same (by rw [reporting]; cases outcome <;> rfl)

theorem Fails.set (fails : r.Fails e) (found : r.tasks[place]? = some t)
    (tasks : next.tasks = r.tasks.set place u)
    (failed : t.failure? = some e → u.failure? = some e) : next.Fails e := by
  obtain ⟨p, failure⟩ := fails
  refine ⟨p, ?_⟩
  by_cases same : p = place
  · subst same
    rw [taskFound found] at failure
    rw [taskSelf found tasks]
    exact failed failure
  · rwa [taskOther tasks same]

theorem collectingOnward (collecting : r.conduct = .collecting)
    (steps : Steps (start o mutants) r) (step : Step r next) :
    (next.conduct = .collecting ∧ ∀ e, r.Fails e → next.Fails e) ∨ Caused o mutants next ∨
      (¬next.conduct.Early ∧ ∀ e, ¬r.Fails e) := by
  cases step with
  | task place move =>
    obtain ⟨t, u, f, found, moved, rfl⟩ := taskActed move
    exact .inl ⟨collecting, fun e fails => fails.set found rfl ((Task.movesParts moved).failed e)⟩
  | checker x outcome waits => exact .inl ⟨collecting, fun _ => id⟩
  | runner x outcome waits => exact .inl ⟨collecting, fun _ => id⟩
  | own move =>
    have step := Step.own move
    have other {c : Conduct} (conduct : r.conduct = c) : c = .collecting :=
      conduct.symm.trans collecting
    cases ownActed move with
    | received _ taken => exact .inl ⟨collecting, fun _ => id⟩
    | @joined place outcome early found =>
      rw [collecting] at step ⊢
      cases outcome with
      | ok u => exact .inl ⟨rfl, fun e fails => fails.set found rfl fun none => by cases none⟩
      | error later =>
        exact .inr (.inl ⟨later, rfl, r, steps, (Steps.refl r).tail step, place,
          by rw [taskFound found]; rfl⟩)
    | concluded ended all =>
      refine .inr (.inr ⟨(r.concludeCause _).1, fun e ⟨p, failure⟩ => ?_⟩)
      rw [allJoined all p] at failure
      cases failure
    | aborted searching none => cases other searching
    | cut aborting found cut => cases other aborting
    | onCheckers disposing moved => cases other disposing
    | checkersDone disposing moved => cases other disposing
    | onRunners disposing moved => cases other disposing
    | runnersDone disposing moved => cases other disposing
    | reported reporting => cases other reporting

theorem lateOnward (late : ¬r.conduct.Early) (step : Step r next) : ¬next.conduct.Early := by
  cases step with
  | task place move =>
    rw [taskConduct move]
    exact late
  | checker x outcome waits => exact late
  | runner x outcome waits => exact late
  | own move =>
    cases ownActed move with
    | received collecting taken => exact late
    | joined early found => exact absurd early late
    | aborted searching none => exact absurd (by rw [searching]; trivial) late
    | cut aborting found cut => exact late
    | concluded ended all => exact absurd ended.early late
    | _ => exact id

theorem causedSteps (steps : Steps (start o mutants) r) :
    r.conduct = .collecting ∨ Caused o mutants r ∨ ¬r.conduct.Early := by
  induction steps with
  | refl => exact .inl rfl
  | tail before step course =>
    rcases course with collecting | caused | late
    · exact (collectingOnward collecting before step).imp And.left (Or.imp_right And.left)
    · exact .inr (.inl (caused.onward before step))
    · exact .inr (.inr (lateOnward late step))

theorem Steps.append (before : Steps s r) (after : Steps r next) : Steps s next := by
  induction after with
  | refl => exact before
  | tail _ step ih => exact ih.tail step

theorem failedSteps (before : Steps (start o mutants) s) (fails : s.Fails e) (after : Steps s r) :
    (r.conduct = .collecting ∧ ∃ e, r.Fails e) ∨ Caused o mutants r := by
  induction after with
  | refl =>
    rcases causedSteps before with collecting | caused | late
    · exact .inl ⟨collecting, e, fails⟩
    · exact .inr caused
    · obtain ⟨p, failure⟩ := fails
      rw [allJoined ((reachSteps before).1.custody.joined late) p] at failure
      cases failure
  | tail between step course =>
    have steps := before.append between
    rcases course with ⟨collecting, e, fails⟩ | caused
    · rcases collectingOnward collecting steps step with ⟨collecting, stays⟩ | caused | ⟨-, none⟩
      · exact .inl ⟨collecting, e, stays e fails⟩
      · exact .inr caused
      · exact absurd fails (none e)
    · exact .inr (caused.onward steps step)

/-- A run in which a task failed fails as one of its tasks did. This is no symptom, unless the search
for the cause was given up while a task had failed on its own and closed its ends, but nobody could
see yet that it was over. -/
theorem causeReturned {outcome : Except RunError (List MutantResult)}
    (before : Steps (start o mutants) s) (fails : s.Fails e) (after : Steps s r)
    (ended : r.conduct = .finished outcome) :
    ∃ cause, outcome = .error cause ∧ Failed o mutants r cause ∧
      (isSymptom cause = false ∨ Overlooked o mutants r cause) := by
  rcases failedSteps before fails after with ⟨collecting, -⟩ | ⟨cause, known, failed⟩
  · cases ended.symm.trans collecting
  · have excused := excusedSteps (before.append after)
    have own := excused.decided (by rw [ended]; exact id) cause known
    rw [ended] at known
    cases outcome with
    | ok results => cases known
    | error e =>
      obtain rfl : e = cause := Option.some.inj known
      exact ⟨e, rfl, failed, own⟩

def unchecked : Orders := { config := {}, budget := ⟨0, 1⟩ }

def three : List CoveredMutant := [reached "1", reached "2", reached "3"]

/-- There is no worker for the tests. The last task fails for it and closes its ends, and the one in
front of it, which finds nobody to send mutants to, is over first. -/
def collapse : List Cue :=
  let goOn (place n : Nat) := List.replicate n (Cue.task place)
  goOn 0 2 ++ goOn 1 2 ++ goOn 2 6 ++ [.runner (.failed (.rejected "no"))] ++ goOn 2 2 ++
    [.runner (.ok none)] ++ goOn 2 5 ++ goOn 1 5

def collapsed : Run := (played collapse (start unchecked three)).getD (start unchecked three)

def inTime : List Cue :=
  .task 2 :: List.replicate 4 .own ++ List.replicate 3 (.task 0) ++ List.replicate 9 .own

def tooLate : List Cue :=
  List.replicate 3 .own ++ List.replicate 3 (.task 0) ++ .task 2 :: List.replicate 10 .own

def causeFound : Run := (played inTime collapsed).getD collapsed

def causeMissed : Run := (played tooLate collapsed).getD collapsed

def noWorker : RunError := .pool (.worker (.rejected "no"))

set_option maxRecDepth 8192 in
theorem collapsePlayed : played collapse (start unchecked three) = some collapsed := rfl

theorem collapsedTask : collapsed.task 2 = .closed (.error noWorker) := rfl

set_option maxRecDepth 8192 in
theorem causeFoundPlayed : played inTime collapsed = some causeFound := rfl

set_option maxRecDepth 8192 in
theorem causeMissedPlayed : played tooLate collapsed = some causeMissed := rfl

theorem collapsedFails : collapsed.Fails noWorker := ⟨2, by rw [collapsedTask]; rfl⟩

theorem causeReturnedCollapsed : collapsed.Fails noWorker ∧
    causeFound.conduct = .finished (.error noWorker) ∧
      ∃ cause, (.error noWorker : Except RunError (List MutantResult)) = .error cause ∧
        Failed unchecked three causeFound cause ∧
          (isSymptom cause = false ∨ Overlooked unchecked three causeFound cause) :=
  have ended : causeFound.conduct = .finished (.error noWorker) := rfl
  ⟨collapsedFails, ended, causeReturned (playedSteps (.refl _) collapsePlayed) collapsedFails
    (playedSteps (.refl _) causeFoundPlayed) ended⟩

/-- The run fails with a symptom, though one of its tasks has failed on its own before. -/
theorem symptomReturned : ¬∀ (o : Orders) (mutants : List CoveredMutant) (s r : Run) (e : RunError)
    (outcome : Except RunError (List MutantResult)), Steps (start o mutants) s → s.Fails e →
      isSymptom e = false → Steps s r → r.conduct = .finished outcome →
        ∃ cause, outcome = .error cause ∧ isSymptom cause = false := by
  intro every
  obtain ⟨cause, same, own⟩ := every unchecked three collapsed causeMissed noWorker
    (.error (.channelClosed "coverage filter")) (playedSteps (.refl _) collapsePlayed) collapsedFails
    rfl (playedSteps (.refl _) causeMissedPlayed) rfl
  cases same
  cases own

end MutationPipeline.Run
