import MutationPipeline.Pool.Schedule
import MutationPipeline.Proofs.Lists

/-! What a move of a larger machine says about the machines it is put together from. A move of a
schedule is one of a few kinds; later proofs go through these and not through its code. -/
namespace MutationPipeline

def Next.elim {φ ρ β : Type} (go : φ → β) (done : ρ → β) (broken : β) : Next φ ρ → β
  | .go p => go p
  | .done r => done r
  | .panicked => broken

namespace Machine
variable {σ τ φ φ' ρ ρ' : Type} {m : Machine σ φ ρ} {p : φ} {s s' : σ}

theorem withinCases {embed : φ → φ'} {after : ρ → σ → σ × Next φ' ρ'} {n : Next φ' ρ'}
    (move : (s', n) ∈ m.within embed after p s) :
    (∃ q, (s', .go q) ∈ m p s ∧ n = .go (embed q)) ∨
    (∃ u r, (u, .done r) ∈ m p s ∧ (s', n) = after r u) ∨
    ((s', .panicked) ∈ m p s ∧ n = .panicked) := by
  obtain ⟨⟨u, outcome⟩, inner, same⟩ := List.mem_map.mp move
  cases outcome with
  | go q =>
    cases same
    exact .inl ⟨q, inner, rfl⟩
  | done r => exact .inr (.inl ⟨u, r, inner, same.symm⟩)
  | panicked =>
    cases same
    exact .inr (.inr ⟨inner, rfl⟩)

theorem withinState (holds : σ → Prop) {embed : φ → φ'} {after : ρ → σ → σ × Next φ' ρ'}
    {n : Next φ' ρ'} (move : (s', n) ∈ m.within embed after p s)
    (inner : ∀ u o, (u, o) ∈ m p s → holds u)
    (kept : ∀ r u, holds u → holds (after r u).1) : holds s' := by
  rcases withinCases move with ⟨q, moved, -⟩ | ⟨u, r, moved, same⟩ | ⟨moved, -⟩
  · exact inner s' _ moved
  · have last := kept r u (inner u _ moved)
    rwa [← same] at last
  · exact inner s' _ moved

theorem onCases {part : Part τ σ} {t t' : τ} {n : Next φ ρ} (move : (t', n) ∈ m.on part p t) :
    ∃ u, (u, n) ∈ m p (part.get t) ∧ t' = part.set u t := by
  obtain ⟨⟨u, outcome⟩, inner, same⟩ := List.mem_map.mp move
  cases same
  exact ⟨u, inner, rfl⟩

theorem onMove {part : Part τ σ} {t : τ} {n : Next φ ρ} (move : (s', n) ∈ m p (part.get t)) :
    (part.set s' t, n) ∈ m.on part p t :=
  List.mem_map.mpr ⟨_, move, rfl⟩

theorem withinNone {embed : φ → φ'} {after : ρ → σ → σ × Next φ' ρ'}
    (none : m.within embed after p s = []) : m p s = [] :=
  List.map_eq_nil_iff.mp none

theorem onNone {part : Part τ σ} {t : τ} (none : m.on part p t = []) : m p (part.get t) = [] :=
  List.map_eq_nil_iff.mp none

end Machine

theorem memStep {σ φ ρ : Type} {s s' : σ} {p : φ} {n : Next φ ρ} :
    (s', n) ∈ step s p ↔ s' = s ∧ n = .go p := by
  simp [step]

theorem memFinish {σ φ ρ : Type} {s s' : σ} {r : ρ} {n : Next φ ρ} :
    (s', n) ∈ finish s r ↔ s' = s ∧ n = .done r := by
  simp [finish]

namespace Member
variable {σ φ ε α : Type} {m : Machine σ φ (Except ε α)} {s s' : σ}

def follow (before rest : List (Member φ α)) :
    Next φ (Except ε α) → Next (List (Member φ α)) (Except ε (List α))
  | .go p => .go (before ++ .running p :: rest)
  | .done (.ok x) => .go (before ++ .ended x :: rest)
  | .done (.error e) => .done (.error e)
  | .panicked => .panicked

theorem eachCases {before members : List (Member φ α)} {n}
    (move : (s', n) ∈ moves.each m s before members) :
    ∃ front p rest o, members = front ++ .running p :: rest ∧ (s', o) ∈ m p s ∧
      n = follow (before ++ front) rest o := by
  induction members generalizing before with
  | nil => simp [moves.each] at move
  | cons first later ih =>
    cases first with
    | ended x =>
      obtain ⟨front, p, rest, o, shape, inner, same⟩ := ih move
      exact ⟨.ended x :: front, p, rest, o, by rw [shape]; rfl, inner, by simpa using same⟩
    | running q =>
      rcases List.mem_append.mp move with here | there
      · refine ⟨[], q, later, ?_⟩
        rcases Machine.withinCases here with ⟨p, inner, rfl⟩ | ⟨u, r, inner, same⟩ | ⟨inner, rfl⟩
        · exact ⟨.go p, rfl, inner, by simp [follow]⟩
        · cases r <;> cases same <;> exact ⟨_, rfl, inner, by simp [follow]⟩
        · exact ⟨.panicked, rfl, inner, rfl⟩
      · obtain ⟨front, p, rest, o, shape, inner, same⟩ := ih there
        exact ⟨.running q :: front, p, rest, o, by rw [shape]; rfl, inner, by simpa using same⟩

theorem phasesFront (before rest : List (Member φ α)) (x : Member φ α) :
    (phases (before ++ x :: rest)).Perm (phases [x] ++ phases (before ++ rest)) := by
  refine (List.perm_middle.filterMap _).trans (List.Perm.of_eq ?_)
  exact List.filterMap_append (l := [x])

theorem phasesDone (results : List α) :
    phases (results.map .ended : List (Member φ α)) = [] := by
  rw [phases, List.filterMap_map]
  exact List.filterMap_eq_nil_iff.mpr fun _ _ => rfl

theorem results?Ended {members : List (Member φ α)} {xs : List α}
    (all : results? members = some xs) : members = xs.map .ended := by
  induction members generalizing xs with
  | nil => cases all; rfl
  | cons first later ih =>
    cases first with
    | running p => simp [results?] at all
    | ended x =>
      obtain ⟨ys, found, rfl⟩ := Option.map_eq_some_iff.mp all
      rw [ih found, List.map_cons]

theorem movesCases {members : List (Member φ α)} {n} (move : (s', n) ∈ moves m members s) :
    (∃ xs, members = xs.map .ended ∧ s' = s ∧ n = .done (.ok xs)) ∨
    ∃ before p rest o, members = before ++ .running p :: rest ∧ (s', o) ∈ m p s ∧
      n = follow before rest o := by
  unfold moves at move
  split at move
  · next xs all =>
    obtain ⟨rfl, rfl⟩ := memFinish.mp move
    exact .inl ⟨xs, results?Ended all, rfl, rfl⟩
  · exact .inr (eachCases move)

theorem eachAt {before rest : List (Member φ α)} {p : φ} {n} (move : (s', n) ∈ m p s)
    (front : List (Member φ α)) :
    (s', follow (front ++ before) rest n) ∈ moves.each m s front (before ++ .running p :: rest) := by
  induction before generalizing front with
  | nil =>
    refine List.mem_append_left _ (List.mem_map.mpr ⟨_, move, ?_⟩)
    rw [List.append_nil]
    rcases n with q | (e | x) | _ <;> rfl
  | cons x before ih =>
    have later := ih (front ++ [x])
    rw [← List.append_cons] at later
    cases x with
    | ended x => exact later
    | running q => exact List.mem_append_right _ later

theorem resultsRunning (before rest : List (Member φ α)) (p : φ) :
    results? (before ++ .running p :: rest) = none := by
  induction before with
  | nil => rfl
  | cons x before ih =>
    cases x with
    | ended x =>
      rw [List.cons_append, results?, ih]
      rfl
    | running q => rfl

theorem movesAt {p : φ} {n} (move : (s', n) ∈ m p s) (before rest : List (Member φ α)) :
    (s', follow before rest n) ∈ moves m (before ++ .running p :: rest) s := by
  rw [moves, resultsRunning]
  exact eachAt move []

theorem endedResults (xs : List α) : results? (xs.map .ended : List (Member φ α)) = some xs := by
  induction xs with
  | nil => rfl
  | cons x xs ih =>
    rw [List.map_cons, results?, ih]
    rfl

theorem movesEnded (xs : List α) :
    (s, .done (.ok xs)) ∈ moves m (xs.map .ended) s := by
  rw [moves, endedResults]
  exact List.mem_singleton_self _

end Member

namespace Schedule
variable {W V σ α φ ρ : Type}

inductive Moved (plan : Plan W V σ α φ ρ) (f : Schedule W α φ ρ) (s : σ) :
    σ → Next (Schedule W α φ ρ) (Option (Yield α ρ) × Schedule W α φ ρ) → Prop where
  | ended (dry : f.feed = .ended) (empty : f.flights = []) : Moved plan f s s (.done (none, f))
  | offer {item known} (feed : f.feed = .open (item :: known)) :
      Moved plan f s s (.go { f with feed := .acquiring item .asking known })
  | pull {u item} (feed : f.feed = .open []) (more : (u, some item) ∈ plan.more s) :
      Moved plan f s u (.go { f with feed := .acquiring item .asking [] })
  | dry {u} (feed : f.feed = .open []) (more : (u, none) ∈ plan.more s) :
      Moved plan f s u (.go { f with feed := .ended })
  | acquire {item a known u b} (feed : f.feed = .acquiring item a known)
      (move : (u, .go b) ∈ Acquisition.moves a (plan.site.get s)) :
      Moved plan f s (plan.site.set u s) (.go { f with feed := .acquiring item b known })
  | send {item a known u ticket seat} (feed : f.feed = .acquiring item a known)
      (move : (u, .done (.ok (ticket, seat))) ∈ Acquisition.moves a (plan.site.get s))
      (calm : f.landing? = none) :
      Moved plan f s (plan.site.set u s) (.go
        { feed := .open known, flights := f.flights ++ [.working item ticket seat plan.start] })
  | refuse {item a known u e} (feed : f.feed = .acquiring item a known)
      (move : (u, .done (.error e)) ∈ Acquisition.moves a (plan.site.get s)) :
      Moved plan f s (plan.site.set u s)
        (.go { feed := .open known, flights := f.flights ++ [.refused item e] })
  | feedBreaks {item a known u} (feed : f.feed = .acquiring item a known)
      (move : (u, .panicked) ∈ Acquisition.moves a (plan.site.get s)) :
      Moved plan f s (plan.site.set u s) .panicked
  | reject {item e before rest} (flights : f.flights = before ++ .refused item e :: rest) :
      Moved plan f s s (.done (some ⟨item, .error e⟩, { f with flights := before ++ rest }))
  | work {item ticket seat p u q before rest}
      (flights : f.flights = before ++ .working item ticket seat p :: rest)
      (move : (u, .go q) ∈ plan.work item seat p (plan.site.get s).crew) :
      Moved plan f s (plan.site.set { plan.site.get s with crew := u } s)
        (.go { f with flights := before ++ .working item ticket seat q :: rest })
  | answer {item ticket seat p u r before rest}
      (flights : f.flights = before ++ .working item ticket seat p :: rest)
      (move : (u, .done r) ∈ plan.work item seat p (plan.site.get s).crew) :
      Moved plan f s (plan.site.set { plan.site.get s with crew := u } s)
        (.go { f with flights := before ++ .returning item ticket r .puttingBack :: rest })
  | workBreaks {item ticket seat p u before rest}
      (flights : f.flights = before ++ .working item ticket seat p :: rest)
      (move : (u, .panicked) ∈ plan.work item seat p (plan.site.get s).crew) :
      Moved plan f s (plan.site.set { plan.site.get s with crew := u } s) .panicked
  | release {item ticket r b u c before rest}
      (flights : f.flights = before ++ .returning item ticket r b :: rest)
      (move : (u, .go c) ∈ Release.moves ticket b (plan.site.get s)) :
      Moved plan f s (plan.site.set u s)
        (.go { f with flights := before ++ .returning item ticket r c :: rest })
  | land {item ticket r b u before rest}
      (flights : f.flights = before ++ .returning item ticket r b :: rest)
      (move : (u, .done ()) ∈ Release.moves ticket b (plan.site.get s)) :
      Moved plan f s (plan.site.set u s)
        (.done (some ⟨item, .ok r⟩, { f with flights := before ++ rest }))

variable {plan : Plan W V σ α φ ρ} {f : Schedule W α φ ρ} {s s' : σ}
  {n : Next (Schedule W α φ ρ) (Option (Yield α ρ) × Schedule W α φ ρ)}

theorem Moved.state (move : Moved plan f s s' n) :
    s' = s ∨ (∃ u, s' = plan.site.set u s) ∨ ∃ item, (s', item) ∈ plan.more s := by
  cases move with
  | ended dry empty => exact .inl rfl
  | offer feed => exact .inl rfl
  | pull feed more => exact .inr (.inr ⟨_, more⟩)
  | dry feed more => exact .inr (.inr ⟨_, more⟩)
  | reject flights => exact .inl rfl
  | _ => exact .inr (.inl ⟨_, rfl⟩)

theorem feedMoved (calm : f.landing? = none) (move : (s', n) ∈ feedMoves plan f s) :
    Moved plan f s s' n := by
  unfold feedMoves at move
  split at move
  · simp at move
  · next item known feed =>
    obtain ⟨rfl, rfl⟩ := memStep.mp move
    exact .offer feed
  · next feed =>
    obtain ⟨⟨u, found⟩, more, same⟩ := List.mem_map.mp move
    cases found <;> cases same
    · exact .dry feed more
    · exact .pull feed more
  · next item a known feed =>
    rcases Machine.withinCases move with ⟨b, inner, rfl⟩ | ⟨u, r, inner, same⟩ | ⟨inner, rfl⟩
    · obtain ⟨u, moved, rfl⟩ := Machine.onCases inner
      exact .acquire feed moved
    · obtain ⟨v, moved, rfl⟩ := Machine.onCases inner
      cases r with
      | ok r => cases same; exact .send feed moved calm
      | error e => cases same; exact .refuse feed moved
    · obtain ⟨u, moved, rfl⟩ := Machine.onCases inner
      exact .feedBreaks feed moved

theorem flightMoved {i : Nat} (move : (s', n) ∈ flightMoves plan f i s) :
    Moved plan f s s' n := by
  simp only [flightMoves] at move
  split at move
  · simp at move
  · next item e flight =>
    obtain ⟨whole, -, erased⟩ := splitAt flight
    obtain ⟨rfl, rfl⟩ := memFinish.mp move
    rw [erased]
    exact .reject whole
  · next item ticket seat p flight =>
    obtain ⟨whole, replaced, -⟩ := splitAt flight
    rcases Machine.withinCases move with ⟨q, inner, rfl⟩ | ⟨u, r, inner, same⟩ | ⟨inner, rfl⟩
    · obtain ⟨u, moved, rfl⟩ := Machine.onCases inner
      rw [replaced]
      exact .work whole moved
    · obtain ⟨v, moved, rfl⟩ := Machine.onCases inner
      cases same
      rw [replaced]
      exact .answer whole moved
    · obtain ⟨u, moved, rfl⟩ := Machine.onCases inner
      exact .workBreaks whole moved
  · next item ticket r b flight =>
    obtain ⟨whole, replaced, erased⟩ := splitAt flight
    rcases Machine.withinCases move with ⟨c, inner, rfl⟩ | ⟨u, r, inner, same⟩ | ⟨inner, rfl⟩
    · obtain ⟨u, moved, rfl⟩ := Machine.onCases inner
      rw [replaced]
      exact .release whole moved
    · obtain ⟨v, moved, rfl⟩ := Machine.onCases inner
      cases same
      rw [erased]
      exact .land whole moved
    · obtain ⟨u, moved, rfl⟩ := Machine.onCases inner
      cases b <;> simp [Release.moves, step, finish] at moved

theorem movesMoved (move : (s', n) ∈ moves plan f s) : Moved plan f s s' n := by
  unfold moves at move
  split at move
  · next dry empty =>
    obtain ⟨rfl, rfl⟩ := memFinish.mp move
    exact .ended dry empty
  · split at move
    · exact flightMoved move
    · next calm =>
      rcases List.mem_append.mp move with feed | flights
      · exact feedMoved calm feed
      · obtain ⟨i, _, flight⟩ := List.mem_flatMap.mp flights
        exact flightMoved flight

end Schedule

end MutationPipeline
