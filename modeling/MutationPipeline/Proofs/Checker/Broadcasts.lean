import MutationPipeline.Proofs.Checker.Readiness
import MutationPipeline.Proofs.Pool.Closing

/-! Telling all workers of a pool the checker. All are told at once, each in its own time; when all
have answered, all are ready. -/
namespace MutationPipeline
variable {name : String} {active active' : Nat → Prop} {s s' : CheckSite} {staffing : Staffing}

namespace Site

def Manned (name : String) (active : Nat → Prop) (s : CheckSite) : Prop :=
  s.pool.permits.closed = false → ∀ seat ∈ s.pool.members, s.crew.Manned name active seat

end Site

def Member.Manned (name : String) (active : Nat → Prop) (c : CheckCrew) (seat : Nat) :
    Member (Nat × Activation) Unit → Prop
  | .running (s, a) => s = seat ∧ a.Ready name active seat c
  | .ended _ => c.Manned name active seat

theorem Member.Manned.drift {c u : CheckCrew} {seat : Nat} {m : Member (Nat × Activation) Unit}
    (manned : m.Manned name active c seat)
    (drift : Crew.Drift name active active' (fun _ => True) c u) :
    m.Manned name active' u seat := by
  cases m with
  | running p => exact ⟨manned.1, manned.2.drift drift⟩
  | ended r => exact Crew.Manned.drift manned drift trivial

namespace Broadcast
variable {b : Broadcast Activation} {n : Next (Broadcast Activation) (Except WorkerError Unit)}

def tokens (b : Broadcast Activation) : List Nat := b.phases.flatMap Activation.tokens

structure Ready (name : String) (active : Nat → Prop) (s : CheckSite) (b : Broadcast Activation) :
    Prop where
  begins : ∀ a ∈ b.phases, a.Begins (CheckWork.Suits name active)
  members : ∀ members, b = .running members → s.pool.permits.closed = false →
    List.Forall₂ (Member.Manned name active s.crew) s.pool.members members

def tell (staffing : Staffing) (name : String) :
    Machine CheckSite (Broadcast Activation) (Except WorkerError Unit) :=
  Broadcast.moves .remembering fun seat =>
    (Activation.moves staffing name seat).on Site.onCrew

def each (staffing : Staffing) (name : String) :
    Machine CheckSite (Nat × Activation) (Except WorkerError Unit) := fun p s =>
  ((Activation.moves staffing name p.1).on Site.onCrew).within (fun a => (p.1, a))
    (fun r s => (s, .done r)) p.2 s

def told (before rest : List (Member (Nat × Activation) Unit)) (seat : Nat) :
    Next Activation (Except WorkerError Unit) →
      Next (Broadcast Activation) (Except WorkerError Unit)
  | .go a => .go (.running (before ++ .running (seat, a) :: rest))
  | .done (.ok r) => .go (.running (before ++ .ended r :: rest))
  | .done (.error e) => .done (.error e)
  | .panicked => .panicked

theorem eachCases {p : Nat × Activation} {o : Next (Nat × Activation) (Except WorkerError Unit)}
    (move : (s', o) ∈ each staffing name p s) :
    ∃ u next, (u, next) ∈ Activation.moves staffing name p.1 p.2 s.crew ∧
      s' = { s with crew := u } ∧ o = next.elim (fun a => .go (p.1, a)) .done .panicked := by
  rcases Machine.withinCases move with ⟨q, moved, rfl⟩ | ⟨u, r, moved, same⟩ | ⟨moved, rfl⟩
  · obtain ⟨u, inner, rfl⟩ := Machine.onCases moved
    exact ⟨u, _, inner, rfl, rfl⟩
  · obtain ⟨v, inner, rfl⟩ := Machine.onCases moved
    cases same
    exact ⟨v, _, inner, rfl, rfl⟩
  · obtain ⟨u, inner, rfl⟩ := Machine.onCases moved
    exact ⟨u, _, inner, rfl, rfl⟩

theorem membersCases {members : List (Member (Nat × Activation) Unit)} {o}
    (move : (s', o) ∈ Member.moves (each staffing name) members s) :
    (∃ results : List Unit, members = results.map .ended ∧ s' = s ∧ o = .done (.ok results)) ∨
    ∃ before seat a rest u next, members = before ++ .running (seat, a) :: rest ∧
      (u, next) ∈ Activation.moves staffing name seat a s.crew ∧ s' = { s with crew := u } ∧
        o.elim (fun ms => .go (.running ms)) (fun r => .done (r.map fun _ => ())) .panicked =
          told before rest seat next := by
  rcases Member.movesCases move with ⟨results, rfl, rfl, rfl⟩ | ⟨before, p, rest, o, rfl, one, rfl⟩
  · exact .inl ⟨results, rfl, rfl, rfl⟩
  · obtain ⟨u, next, moved, rfl, rfl⟩ := eachCases one
    refine .inr ⟨before, p.1, p.2, rest, u, next, rfl, moved, rfl, ?_⟩
    cases next with
    | go a => rfl
    | done r => cases r <;> rfl
    | panicked => rfl

theorem tellCases (move : (s', n) ∈ tell staffing name b s) :
    (b = .listing ∧ s' = s ∧
      n = .go (.running (s.pool.members.map fun seat => .running (seat, .remembering)))) ∨
    (∃ results : List Unit, b = .running (results.map .ended) ∧ s' = s ∧ n = .done (.ok ())) ∨
    ∃ before seat a rest u o, b = .running (before ++ .running (seat, a) :: rest) ∧
      (u, o) ∈ Activation.moves staffing name seat a s.crew ∧ s' = { s with crew := u } ∧
        n = told before rest seat o := by
  cases b with
  | listing =>
    obtain ⟨rfl, rfl⟩ := memStep.mp move
    exact .inl ⟨rfl, rfl, rfl⟩
  | running members =>
    have whole {o} (inner : (s', o) ∈ Member.moves (each staffing name) members s)
        (same : n = o.elim (fun ms => .go (.running ms)) (fun r => .done (r.map fun _ => ()))
          .panicked) :
        (∃ results : List Unit, .running members = Broadcast.running (results.map .ended) ∧
          s' = s ∧ n = .done (.ok ())) ∨
        ∃ before seat a rest u o, .running members =
            Broadcast.running (before ++ .running (seat, a) :: rest) ∧
          (u, o) ∈ Activation.moves staffing name seat a s.crew ∧ s' = { s with crew := u } ∧
            n = told before rest seat o := by
      rcases membersCases inner with ⟨results, rfl, rfl, rfl⟩ |
        ⟨before, seat, a, rest, u, next, rfl, moved, rfl, follow⟩
      · exact .inl ⟨results, rfl, rfl, same⟩
      · exact .inr ⟨before, seat, a, rest, u, next, rfl, moved, rfl, same.trans follow⟩
    refine .inr ?_
    rcases Machine.withinCases move with ⟨q, inner, same⟩ | ⟨u, r, inner, same⟩ | ⟨inner, same⟩
    · exact whole inner same
    · cases same
      exact whole inner rfl
    · exact whole inner same

section Running
variable {before rest : List (Member (Nat × Activation) Unit)} {seat : Nat} {a : Activation}

theorem phasesFront (before rest : List (Member (Nat × Activation) Unit))
    (x : Member (Nat × Activation) Unit) : (Broadcast.running (before ++ x :: rest)).phases.Perm
      ((Member.phases [x]).map Prod.snd ++ (Broadcast.running (before ++ rest)).phases) := by
  refine ((Member.phasesFront before rest x).map Prod.snd).trans (List.Perm.of_eq ?_)
  exact List.map_append

theorem tokensFront (before rest : List (Member (Nat × Activation) Unit)) (seat : Nat)
    (a : Activation) : (Broadcast.running (before ++ .running (seat, a) :: rest)).tokens.Perm
      (a.tokens ++ (Broadcast.running (before ++ rest)).tokens) :=
  (phasesFront before rest (.running (seat, a))).flatMap_right _

theorem tokensEnded (before rest : List (Member (Nat × Activation) Unit)) (r : Unit) :
    (Broadcast.running (before ++ .ended r :: rest)).tokens.Perm
      (Broadcast.running (before ++ rest)).tokens :=
  (phasesFront before rest (.ended r)).flatMap_right _

end Running

theorem tellBegins {P : Nat → CheckWork → Prop} (may : ∀ worker, P worker (.setActive name))
    (begins : ∀ a ∈ b.phases, a.Begins P) (move : (s', n) ∈ tell staffing name b s) :
    ∀ next, n = .go next → ∀ a ∈ next.phases, a.Begins P := by
  rintro next go a member
  rcases tellCases move with ⟨rfl, rfl, rfl⟩ | ⟨results, rfl, rfl, rfl⟩ |
    ⟨before, seat, b, rest, u, o, rfl, inner, rfl, rfl⟩
  · cases go
    obtain ⟨p, found, rfl⟩ := List.mem_map.mp member
    obtain ⟨m, listed, same⟩ := List.mem_filterMap.mp found
    obtain ⟨seat, -, rfl⟩ := List.mem_map.mp listed
    cases same
    trivial
  · cases go
  · have others : ∀ a ∈ (Broadcast.running (before ++ rest)).phases,
        a.Begins P := fun a member => begins a
      ((phasesFront before rest (.running (seat, b))).symm.subset
        (List.mem_append_right _ member))
    cases o with
    | go b' =>
      cases go
      rcases List.mem_append.mp ((phasesFront before rest (.running (seat, b'))).subset member)
        with own | other
      · rw [List.mem_singleton.mp own]
        exact Activation.movesBegins may inner b' rfl
      · exact others a other
    | done r =>
      cases r with
      | ok r =>
        cases go
        exact others a ((phasesFront before rest (.ended r)).subset member)
      | error e => cases go
    | panicked => cases go

section Tell
variable (begins : ∀ a ∈ b.phases, a.Begins (CheckWork.Suits name active))
  (move : (s', n) ∈ tell staffing name b s)
include begins move

theorem tellAttended (attended : s.crew.Attended (CheckWork.Suits name active) b.tokens) :
    s'.crew.Attended (CheckWork.Suits name active)
      (n.elim tokens (fun _ => b.tokens) b.tokens) := by
  rcases tellCases move with ⟨rfl, rfl, rfl⟩ | ⟨results, rfl, rfl, rfl⟩ |
    ⟨before, seat, a, rest, u, o, rfl, inner, rfl, rfl⟩
  · exact attended.more (List.nil_subset _) fun _ _ may => may
  · exact attended
  · have first := tokensFront before rest seat a
    have mine : a.Begins (CheckWork.Suits name active) :=
      begins a ((phasesFront before rest (.running (seat, a))).symm.subset List.mem_cons_self)
    have turned := (Activation.movesTurn mine inner).attended
      (attended.more first.subset fun _ _ may => may)
    have fewer : (Broadcast.running (before ++ rest)).tokens ⊆
        (Broadcast.running (before ++ .running (seat, a) :: rest)).tokens :=
      List.Subset.trans (List.subset_append_right _ _) first.symm.subset
    cases o with
    | go a' => exact turned.more (tokensFront before rest seat a').symm.subset fun _ _ may => may
    | done r =>
      cases r with
      | ok r => exact turned.more (tokensEnded before rest r).symm.subset fun _ _ may => may
      | error e => exact turned.more fewer fun _ _ may => may
    | panicked => exact turned.more fewer fun _ _ may => may

omit begins in
theorem tellDone (done : n = .done (.ok ())) : b.tokens = [] := by
  rcases tellCases move with ⟨-, -, rfl⟩ | ⟨results, rfl, -, -⟩ |
    ⟨before, seat, a, rest, u, o, -, -, -, rfl⟩
  · cases done
  · rw [tokens, phases, Member.phasesDone]
    rfl
  · cases o with
    | go a => cases done
    | done r => cases r <;> cases done
    | panicked => cases done

omit begins in
theorem tellQuiet : s'.pool = s.pool ∧ s'.crew.seats.size = s.crew.seats.size := by
  rcases tellCases move with ⟨-, rfl, -⟩ | ⟨results, -, rfl, -⟩ |
    ⟨before, seat, a, rest, u, o, -, inner, rfl, -⟩
  · exact ⟨rfl, rfl⟩
  · exact ⟨rfl, rfl⟩
  · exact ⟨rfl, Activation.movesSize inner⟩

theorem tellNumbered (numbered : s.crew.Numbered) : s'.crew.Numbered := by
  rcases tellCases move with ⟨-, rfl, -⟩ | ⟨results, -, rfl, -⟩ |
    ⟨before, seat, a, rest, u, o, rfl, inner, rfl, -⟩
  · exact numbered
  · exact numbered
  · have mine : a.Begins (CheckWork.Suits name active) :=
      begins a ((phasesFront before rest (.running (seat, a))).symm.subset List.mem_cons_self)
    exact (Activation.movesTurn mine inner).numbered numbered

end Tell

theorem tellReady (recovers : staffing.recovers = true) (numbered : s.crew.Numbered)
    (inside : s.pool.permits.closed = false → ∀ seat ∈ s.pool.members, seat < s.crew.seats.size)
    (ready : b.Ready name active s) (move : (s', n) ∈ tell staffing name b s) :
    n.elim (Ready name active s') (fun r => r = .ok () → s'.Manned name active) True := by
  have begun := tellBegins (P := CheckWork.Suits name active) (fun _ => rfl) ready.begins move
  rcases tellCases move with ⟨rfl, rfl, rfl⟩ | ⟨results, rfl, rfl, rfl⟩ |
    ⟨before, seat, a, rest, u, o, rfl, inner, rfl, rfl⟩
  · refine ⟨begun _ rfl, ?_⟩
    rintro members same -
    cases same
    refine List.forall₂_map_right_iff.mpr (List.forall₂_same.mpr fun seat _ => ⟨rfl, trivial⟩)
  · intro _ opened
    have all := List.forall₂_map_right_iff.mp (ready.members _ rfl opened)
    exact forall₂Left all fun _ _ manned => manned
  · have drift := Activation.movesDrift recovers
      (ready.begins a ((phasesFront before rest (.running (seat, a))).symm.subset
        List.mem_cons_self)) inner
    have again {m : Member (Nat × Activation) Unit}
        (mine : s.pool.permits.closed = false → a.Ready name active seat s.crew →
          seat ∈ s.pool.members → m.Manned name active u seat) :
        s.pool.permits.closed = false →
          List.Forall₂ (Member.Manned name active u) s.pool.members (before ++ m :: rest) := by
      intro opened
      obtain ⟨front, own, back, whole, first, ⟨rfl, told⟩, later⟩ :=
        forall₂Split (ready.members _ rfl opened)
      have here : seat ∈ s.pool.members := by simp [whole]
      rw [whole]
      exact List.rel_append (first.imp fun _ _ manned => manned.drift drift)
        (.cons (mine opened told here) (later.imp fun _ _ manned => manned.drift drift))
    cases o with
    | go a' =>
      refine ⟨begun _ rfl, fun members same => ?_⟩
      cases same
      exact again fun opened told here =>
        ⟨rfl, Activation.movesReady recovers (inside opened seat here) numbered told inner⟩
    | done r =>
      cases r with
      | ok r =>
        refine ⟨begun _ rfl, fun members same => ?_⟩
        cases same
        exact again fun opened told here =>
          Activation.movesReady recovers (inside opened seat here) numbered told inner rfl
      | error e => exact fun done => by cases done
    | panicked => trivial

end Broadcast

end MutationPipeline
