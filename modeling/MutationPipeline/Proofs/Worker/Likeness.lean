import Mathlib.Data.List.Forall2
import MutationPipeline.Proofs.Moves
import MutationPipeline.Worker.Recovery

/-!
Two runs of a machine beside each other. They are alike as long as the same has happened in both of
them, be it that some calls were answered otherwise and that something else was noted. What is
possible in the one is then possible in the other, if none of those answers is the one that it goes
by. Whether a worker could be disposed is such an answer that nobody goes by.
-/
namespace MutationPipeline

structure Likeness (σ : Type) where
  like : σ → σ → Prop
  grows : σ → σ → Prop
  refl (s : σ) : grows s s
  trans {s t u : σ} (first : grows s t) (second : grows t u) : grows s u

inductive Next.Paired {φ ρ : Type} (phases : φ → φ → Prop) (results : ρ → ρ → Prop) :
    Next φ ρ → Next φ ρ → Prop where
  | go {p q} (like : phases p q) : Paired phases results (.go p) (.go q)
  | done {r s} (like : results r s) : Paired phases results (.done r) (.done s)
  | panicked : Paired phases results .panicked .panicked

def Stays {σ φ ρ : Type} (holds : σ → φ → Prop) (leaves : σ → ρ → Prop) (s : σ) : Next φ ρ → Prop
  | .go p => holds s p
  | .done r => leaves s r
  | .panicked => True

abbrev Onward {σ φ ρ : Type} (holds : σ → φ → Prop) : σ → Next φ ρ → Prop :=
  Stays holds fun _ _ => True

namespace Likeness
variable {σ τ β γ φ φ' ρ ρ' : Type} {L : Likeness σ} {M : Likeness τ} {s s' : σ}

structure Pair (L : Likeness σ) (good : σ → β → Prop) (same : β → β → Prop) (s : σ)
    (x y : σ × β) : Prop where
  grows : L.grows s x.1
  good : good x.1 x.2
  like : L.like x.1 y.1
  same : same x.2 y.2

def Mirrored (L : Likeness σ) (good : σ → β → Prop) (same : β → β → Prop) (s : σ)
    (xs ys : List (σ × β)) : Prop :=
  ∀ x ∈ xs, ∃ y ∈ ys, L.Pair good same s x y

variable {good : σ → β → Prop} {same : β → β → Prop} {xs ys : List (σ × β)}

theorem Mirrored.nil : L.Mirrored good same s [] ys := fun _ none => absurd none List.not_mem_nil

theorem Mirrored.one {x y : σ × β} (pair : L.Pair good same s x y) :
    L.Mirrored good same s [x] [y] := by
  intro z member
  rw [List.mem_singleton.mp member]
  exact ⟨y, List.mem_singleton_self y, pair⟩

theorem Mirrored.more {good' : σ → β → Prop} {same' : β → β → Prop}
    (mirrored : L.Mirrored good same s xs ys) (fine : ∀ u b, good u b → good' u b)
    (also : ∀ b b', same b b' → same' b b') : L.Mirrored good' same' s xs ys := by
  intro x member
  obtain ⟨y, there, pair⟩ := mirrored x member
  exact ⟨y, there, pair.grows, fine _ _ pair.good, pair.like, also _ _ pair.same⟩

theorem Pair.goes {holds : σ → φ → Prop} {p : φ} {u u' : σ} (grows : L.grows s u)
    (like : L.like u u') (here : holds u p) :
    L.Pair (Onward holds) (@Eq (Next φ ρ)) s (u, .go p) (u', .go p) :=
  ⟨grows, here, like, rfl⟩

theorem Pair.ends {holds : σ → φ → Prop} {r : ρ} {u u' : σ} (grows : L.grows s u)
    (like : L.like u u') : L.Pair (Onward holds) Eq s (u, .done r) (u', .done r) :=
  ⟨grows, trivial, like, rfl⟩

theorem Mirrored.common {ι : Type} {is : List ι} {f g : ι → σ × β}
    (each : ∀ i ∈ is, L.Pair good same s (f i) (g i)) :
    L.Mirrored good same s (is.map f) (is.map g) := by
  intro x member
  obtain ⟨i, here, rfl⟩ := List.mem_map.mp member
  exact ⟨g i, List.mem_map_of_mem here, each i here⟩

theorem Mirrored.append {xs' ys' : List (σ × β)} (first : L.Mirrored good same s xs ys)
    (second : L.Mirrored good same s xs' ys') :
    L.Mirrored good same s (xs ++ xs') (ys ++ ys') := by
  intro x member
  rcases List.mem_append.mp member with before | after
  · obtain ⟨y, there, pair⟩ := first x before
    exact ⟨y, List.mem_append_left _ there, pair⟩
  · obtain ⟨y, there, pair⟩ := second x after
    exact ⟨y, List.mem_append_right _ there, pair⟩

theorem Mirrored.flatMap {ι : Type} {is : List ι} {f g : ι → List (σ × β)}
    (each : ∀ i ∈ is, L.Mirrored good same s (f i) (g i)) :
    L.Mirrored good same s (is.flatMap f) (is.flatMap g) := by
  intro x member
  obtain ⟨i, among, here⟩ := List.mem_flatMap.mp member
  obtain ⟨y, there, pair⟩ := each i among x here
  exact ⟨y, List.mem_flatMap.mpr ⟨i, among, there⟩, pair⟩

theorem Mirrored.map {good' : τ → γ → Prop} {same' : γ → γ → Prop} {t : τ} {f g : σ × β → τ × γ}
    (mirrored : L.Mirrored good same s xs ys)
    (each : ∀ x y, L.Pair good same s x y → M.Pair good' same' t (f x) (g y)) :
    M.Mirrored good' same' t (xs.map f) (ys.map g) := by
  intro z member
  obtain ⟨x, here, rfl⟩ := List.mem_map.mp member
  obtain ⟨y, there, pair⟩ := mirrored x here
  exact ⟨g y, List.mem_map.mpr ⟨y, there, rfl⟩, each x y pair⟩

theorem Mirrored.withinAlike {m : Machine σ φ ρ} {p : φ} {embed : φ → φ'}
    {after : ρ → σ → σ × Next φ' ρ'} {holds : σ → φ → Prop} {holds' : σ → φ' → Prop}
    {leaves : σ → ρ → Prop} {leaves' : σ → ρ' → Prop} {results : ρ → ρ → Prop}
    (inner : L.Mirrored (Stays holds leaves) (Next.Paired Eq results) s (m p s) (m p s'))
    (goes : ∀ u q, L.grows s u → holds u q → holds' u (embed q))
    (ends : ∀ r r' u u', L.grows s u → leaves u r → L.like u u' → results r r' →
      L.Pair (Stays holds' leaves') Eq u (after r u) (after r' u')) :
    L.Mirrored (Stays holds' leaves') Eq s (m.within embed after p s)
      (m.within embed after p s') := by
  refine inner.map fun ⟨u, n⟩ ⟨u', n'⟩ ⟨grows, stays, like, alike⟩ => ?_
  cases alike with
  | @go p q alike =>
    cases alike
    exact ⟨grows, goes u p grows stays, like, rfl⟩
  | @done r r' alike =>
    have pair := ends r r' u u' grows stays like alike
    exact ⟨L.trans grows pair.grows, pair.good, pair.like, pair.same⟩
  | panicked => exact ⟨grows, trivial, like, rfl⟩

theorem Mirrored.within {m : Machine σ φ ρ} {p : φ} {embed : φ → φ'}
    {after : ρ → σ → σ × Next φ' ρ'} {holds : σ → φ → Prop} {holds' : σ → φ' → Prop}
    {leaves : σ → ρ → Prop} {leaves' : σ → ρ' → Prop}
    (inner : L.Mirrored (Stays holds leaves) Eq s (m p s) (m p s'))
    (goes : ∀ u q, L.grows s u → holds u q → holds' u (embed q))
    (ends : ∀ r u u', L.grows s u → leaves u r → L.like u u' →
      L.Pair (Stays holds' leaves') Eq u (after r u) (after r u')) :
    L.Mirrored (Stays holds' leaves') Eq s (m.within embed after p s)
      (m.within embed after p s') := by
  have alike : L.Mirrored (Stays holds leaves) (Next.Paired Eq Eq) s (m p s) (m p s') := by
    intro x here
    obtain ⟨y, there, pair⟩ := inner x here
    refine ⟨y, there, pair.grows, pair.good, pair.like, ?_⟩
    rw [← pair.same]
    cases x.2 <;> constructor <;> rfl
  refine alike.withinAlike goes fun r r' u u' grows leaves like same => ?_
  cases same
  exact ends r u u' grows leaves like

structure PartAlike (part : Part τ σ) (L : Likeness σ) (M : Likeness τ) : Prop where
  like : ∀ {t t'}, M.like t t' → L.like (part.get t) (part.get t')
  kept : ∀ {t t' u u'}, M.like t t' → L.like u u' → M.like (part.set u t) (part.set u' t')
  grows : ∀ {t u}, L.grows (part.get t) u → M.grows t (part.set u t)
  grown : ∀ {t t'}, M.grows t t' → L.grows (part.get t) (part.get t')
  placed : ∀ {t u}, L.grows u (part.get (part.set u t))

theorem PartAlike.inside {υ : Type} {N : Likeness υ} {p : Part τ σ} {q : Part υ τ}
    (first : PartAlike p L M) (second : PartAlike q M N) : PartAlike (p.inside q) L N where
  like alike := first.like (second.like alike)
  kept alike inner := second.kept alike (first.kept (second.like alike) inner)
  grows grow := second.grows (first.grows grow)
  grown grow := first.grown (second.grown grow)
  placed := L.trans first.placed (first.grown second.placed)

theorem Mirrored.on {part : Part τ σ} {m : Machine σ φ ρ} {p p' : φ} {t t' : τ}
    {holds : σ → φ → Prop} {same : Next φ ρ → Next φ ρ → Prop}
    (carries : PartAlike part L M) (like : M.like t t')
    (stays : ∀ {u v q}, L.grows u v → holds u q → holds v q)
    (inner : L.Mirrored (Onward holds) same (part.get t) (m p (part.get t))
      (m p' (part.get t'))) :
    M.Mirrored (Onward fun t => holds (part.get t)) same t (m.on part p t) (m.on part p' t') := by
  refine inner.map fun ⟨u, n⟩ ⟨u', n'⟩ ⟨grows, here, alike, both⟩ => ?_
  refine ⟨carries.grows grows, ?_, carries.kept like alike, both⟩
  cases n with
  | go q => exact stays carries.placed here
  | _ => trivial

end Likeness

variable {W V : Type}

def Outcome.isSaid : Outcome V → Bool
  | .panicked => false
  | _ => true

def Agree (loose : Nat → Prop) (a b : Nat × Outcome V) : Prop :=
  b.1 = a.1 ∧ (b.2 = a.2 ∨ loose a.1 ∧ a.2.isSaid = true ∧ b.2.isSaid = true)

namespace Crew
variable {loose : Nat → Prop} {c c' u : Crew W V}

inductive AlikeBut (loose : Nat → Prop) (c : Crew W V) : Crew W V → Prop where
  | of {answers notes} (agree : List.Forall₂ (Agree loose) c.answers answers)
      (begun : ∀ t, loose t → t < c.tokens) (numbered : ∀ o ∈ c.orders, o.token < c.tokens) :
      AlikeBut loose c { c with answers, notes }

structure Grows (c u : Crew W V) : Prop where
  tokens : c.tokens ≤ u.tokens
  orders : ∀ o ∈ u.orders, o ∈ c.orders ∨ c.tokens ≤ o.token

def likeness (loose : Nat → Prop) : Likeness (Crew W V) where
  like := AlikeBut loose
  grows := Grows
  refl _ := ⟨Nat.le_refl _, fun _ => .inl⟩
  trans first second := by
    refine ⟨Nat.le_trans first.tokens second.tokens, fun o member => ?_⟩
    rcases second.orders o member with before | later
    · exact first.orders o before
    · exact .inr (Nat.le_trans first.tokens later)

theorem Grows.same (tokens : u.tokens = c.tokens) (orders : u.orders = c.orders) : c.Grows u :=
  ⟨Nat.le_of_eq tokens.symm, fun _ member => .inl (orders ▸ member)⟩

theorem AlikeBut.lookup (like : AlikeBut loose c c') (t : Nat) :
    (c.answers.lookup t = none ∧ c'.answers.lookup t = none) ∨
      ∃ a b, c.answers.lookup t = some a ∧ c'.answers.lookup t = some b ∧
        (b = a ∨ loose t ∧ a.isSaid = true ∧ b.isSaid = true) := by
  obtain ⟨agree, -, -⟩ := like
  dsimp only
  generalize c.answers = xs at agree ⊢
  induction agree with
  | nil => exact .inl ⟨rfl, rfl⟩
  | @cons x y xs ys first rest ih =>
    obtain ⟨token, a⟩ := x
    obtain ⟨token', b⟩ := y
    obtain ⟨rfl, agree⟩ : token' = token ∧ _ := first
    by_cases here : t = token'
    · subst here
      exact .inr ⟨a, b, by simp, by simp, agree⟩
    · simpa [List.lookup_cons, beq_false_of_ne here] using ih

theorem AlikeBut.noted (like : AlikeBut loose c c') (notes notes' : List Note) :
    AlikeBut loose { c with notes := notes } { c' with notes := notes' } := by
  obtain ⟨agree, begun, numbered⟩ := like
  exact .of agree begun numbered

theorem AlikeBut.sameOrders (like : AlikeBut loose c c') : c'.orders = c.orders := by
  cases like
  rfl

theorem AlikeBut.abandon (like : AlikeBut loose c c') (token : Nat) :
    AlikeBut loose (c.abandon token) (c'.abandon token) := by
  cases like with
  | of agree begun numbered =>
    refine .of ?_ begun fun o member => numbered o (List.mem_of_mem_filter member)
    refine List.rel_filter (fun a b both => ?_) agree
    simp [both.1]

theorem abandonGrows (c : Crew W V) (token : Nat) : c.Grows (c.abandon token) :=
  ⟨Nat.le_refl _, fun _ member => .inl (List.mem_of_mem_filter member)⟩

theorem AlikeBut.abandonAll (like : AlikeBut loose c c') (tokens : List Nat) :
    AlikeBut loose (tokens.foldl Crew.abandon c) (tokens.foldl Crew.abandon c') ∧
      (likeness loose).grows c (tokens.foldl Crew.abandon c) := by
  induction tokens generalizing c c' with
  | nil => exact ⟨like, (likeness loose).refl c⟩
  | cons token rest ih =>
    obtain ⟨alike, grows⟩ := ih (like.abandon token)
    exact ⟨alike, (likeness loose).trans (c.abandonGrows token) grows⟩

theorem answerGrows (c : Crew W V) (token : Nat) (outcome : Outcome V) :
    c.Grows (c.answer token outcome) :=
  ⟨Nat.le_refl _, fun _ member => .inl (List.mem_of_mem_filter member)⟩

theorem AlikeBut.answer {more : Nat → Prop} {token : Nat} {a b : Outcome V} (like : AlikeBut loose c c')
    (wider : ∀ t, loose t → more t) (begun : ∀ t, more t → t < c.tokens)
    (agree : b = a ∨ more token ∧ a.isSaid = true ∧ b.isSaid = true) :
    AlikeBut more (c.answer token a) (c'.answer token b) := by
  obtain ⟨answers, -, numbered⟩ := like
  refine .of (List.rel_append (answers.imp fun x y both => ?_) (.cons ⟨rfl, agree⟩ .nil)) begun
    fun o member => numbered o (List.mem_of_mem_filter member)
  exact ⟨both.1, both.2.imp_right fun ⟨free, said⟩ => ⟨wider _ free, said⟩⟩

theorem AlikeBut.answerSame (like : AlikeBut loose c c') (token : Nat) (outcome : Outcome V) :
    AlikeBut loose (c.answer token outcome) (c'.answer token outcome) := by
  have begun : ∀ t, loose t → t < c.tokens := by
    obtain ⟨-, begun, -⟩ := like
    exact begun
  exact like.answer (fun _ => id) begun (.inl rfl)

theorem AlikeBut.answerEither {o : Order W} {a b : Outcome V} (like : AlikeBut loose c c')
    (waits : o ∈ c.orders) (agree : b = a ∨ a.isSaid = true ∧ b.isSaid = true) :
    AlikeBut (fun t => loose t ∨ t = o.token) (c.answer o.token a) (c'.answer o.token b) := by
  have begun (t : Nat) (free : loose t ∨ t = o.token) : t < c.tokens := by
    obtain ⟨-, begun, numbered⟩ := like
    exact free.elim (begun t) fun same => same ▸ numbered o waits
  exact like.answer (fun _ => .inl) begun (agree.imp_right fun said => ⟨.inr rfl, said⟩)

end Crew

namespace Calling
variable {fixed : Call W → Prop} {loose : Nat → Prop} {c c' u : Crew W V} {call : Calling W}

def Fixed (fixed : Call W → Prop) (loose : Nat → Prop) (c : Crew W V) : Calling W → Prop
  | .ready _ call => fixed call
  | .waiting t => ¬loose t ∧ t < c.tokens ∧ ∀ o ∈ c.orders, o.token = t → fixed o.call

theorem Fixed.grow (settled : call.Fixed fixed loose c) (grows : c.Grows u) :
    call.Fixed fixed loose u := by
  cases call with
  | ready worker call => exact settled
  | waiting t =>
    obtain ⟨tight, begun, asked⟩ := settled
    refine ⟨tight, Nat.lt_of_lt_of_le begun grows.tokens, fun o member same => ?_⟩
    rcases grows.orders o member with before | later
    · exact asked o before same
    · omega

theorem Fixed.answer {token : Nat} (settled : call.Fixed fixed loose c) (other : token ∉ call.tokens)
    (outcome : Outcome V) :
    call.Fixed fixed (fun t => loose t ∨ t = token) (c.answer token outcome) := by
  have grown := settled.grow (c.answerGrows token outcome)
  cases call with
  | ready worker call => exact settled
  | waiting t =>
    refine ⟨fun free => free.elim grown.1 fun same => other ?_, grown.2⟩
    rw [same]
    exact List.mem_singleton_self token

theorem startPair (like : c.AlikeBut loose c') (worker : Nat) (call : Call W) :
    (Crew.likeness loose).Pair (Onward (Fixed (· = call) loose)) Eq c
      ((c.start worker call).1, (.go (.waiting c.tokens) : Next (Calling W) (Except WorkerError V)))
      ((c'.start worker call).1, .go (.waiting c'.tokens)) := by
  cases like with
  | of agree begun numbered =>
    have orders {o} (member : o ∈ (c.start worker call).1.orders) :
        o ∈ c.orders ∨ o = ⟨c.tokens, worker, call⟩ := by
      simpa [Crew.start] using member
    refine ⟨⟨Nat.le_succ _, fun o member => (orders member).imp_right fun now => ?_⟩, ?_,
      .of agree (fun t free => Nat.lt_succ_of_lt (begun t free)) fun o member => ?_, rfl⟩
    · exact now ▸ Nat.le_refl _
    · refine ⟨fun free => Nat.lt_irrefl _ (begun _ free), Nat.lt_succ_self _, fun o member same => ?_⟩
      rcases orders member with before | now
      · exact absurd same (Nat.ne_of_lt (numbered o before))
      · rw [now]
    · rcases orders member with before | now
      · exact Nat.lt_succ_of_lt (numbered o before)
      · rw [now]
        exact Nat.lt_succ_self _

theorem movesMirrored (like : c.AlikeBut loose c') (settled : call.Fixed fixed loose c) :
    (Crew.likeness loose).Mirrored (Onward (Fixed fixed loose)) Eq c (Calling.moves call c)
      (Calling.moves call c') := by
  cases call with
  | ready worker call =>
    have pair := startPair like worker call
    refine Likeness.Mirrored.one ⟨pair.grows, ?_, pair.like, pair.same⟩
    obtain ⟨tight, begun, asked⟩ := pair.good
    exact ⟨tight, begun, fun o member here => asked o member here ▸ settled⟩
  | waiting t =>
    obtain ⟨tight, -, -⟩ := settled
    rcases like.lookup t with ⟨none, none'⟩ | ⟨a, b, some, some', same | ⟨free, -⟩⟩
    · simp only [Calling.moves, none]
      exact .nil
    · cases same
      simp only [Calling.moves, some, some']
      have pair (n : Next (Calling W) (Except WorkerError V)) (ends : Onward (Fixed fixed loose) (c.abandon t) n) :
          (Crew.likeness loose).Mirrored (Onward (Fixed fixed loose)) Eq c [(c.abandon t, n)]
            [(c'.abandon t, n)] :=
        Likeness.Mirrored.one
          ⟨c.abandonGrows t, ends, like.abandon t, rfl⟩
      cases a <;> exact pair _ trivial
    · exact absurd free tight

theorem movesEither (like : c.AlikeBut loose c') (call : Calling W) :
    (Crew.likeness loose).Mirrored (Onward fun _ _ => True) (Next.Paired Eq fun _ _ => True) c
      (Calling.moves call c) (Calling.moves call c') := by
  cases call with
  | ready worker call =>
    have pair := startPair like worker call
    refine Likeness.Mirrored.one ⟨pair.grows, trivial, pair.like, ?_⟩
    cases like
    exact .go rfl
  | waiting t =>
    rcases like.lookup t with ⟨none, none'⟩ | ⟨a, b, some, some', both⟩
    · simp only [Calling.moves, none]
      exact .nil
    · simp only [Calling.moves, some, some']
      have said : a.isSaid = b.isSaid := by
        rcases both with same | ⟨-, first, second⟩
        · exact congrArg Outcome.isSaid same.symm
        · exact first.trans second.symm
      have pair {n n' : Next (Calling W) (Except WorkerError V)}
          (alike : Next.Paired Eq (fun _ _ => True) n n') :
          (Crew.likeness loose).Mirrored (Onward fun _ _ => True) (Next.Paired Eq fun _ _ => True) c
            [(c.abandon t, n)] [(c'.abandon t, n')] :=
        Likeness.Mirrored.one ⟨c.abandonGrows t, by cases n <;> trivial, like.abandon t, alike⟩
      cases a with
      | panicked =>
        cases b with
        | panicked => exact pair .panicked
        | _ => cases said
      | _ =>
        cases b with
        | panicked => cases said
        | _ => exact pair (.done trivial)

end Calling

def Crew.Fixes (loose : Nat → Prop) (c : Crew W V) (calls : List (Calling W)) : Prop :=
  ∀ call ∈ calls, call.Fixed (· ≠ .dispose) loose c

section
variable {loose : Nat → Prop} {c c' u : Crew W V}

theorem Crew.Fixes.grow {calls : List (Calling W)} (fixes : c.Fixes loose calls)
    (grows : c.Grows u) : u.Fixes loose calls := fun call member => (fixes call member).grow grows

theorem Crew.Fixes.answer {calls : List (Calling W)} {o : Order W} (fixes : c.Fixes loose calls)
    (waits : o ∈ c.orders) (disposes : o.call = .dispose) (outcome : Outcome V) :
    (c.answer o.token outcome).Fixes (fun t => loose t ∨ t = o.token) calls := by
  intro call member
  refine (fixes call member).answer (fun waited => ?_) outcome
  cases call with
  | ready worker call => cases waited
  | waiting t => exact (fixes _ member).2.2 o waits (List.mem_singleton.mp waited) disposes

theorem Crew.fixesNone : c.Fixes loose [] := fun _ none => absurd none List.not_mem_nil

theorem Crew.fixesOne {call : Calling W} :
    c.Fixes loose [call] ↔ call.Fixed (· ≠ .dispose) loose c := by
  simp [Crew.Fixes]

namespace Renewal

def decisive : Renewal W → List (Calling W)
  | .replacing | .disposing .. => []
  | .starting call => [call]

theorem movesMirrored {label : String} {seat : Nat} {r : Renewal W} (like : c.AlikeBut loose c')
    (fixes : c.Fixes loose r.decisive) :
    (Crew.likeness loose).Mirrored (Onward fun c r => c.Fixes loose (decisive r)) Eq c
      (Renewal.moves label seat r c) (Renewal.moves label seat r c') := by
  cases r with
  | replacing =>
    obtain ⟨agree, begun, numbered⟩ := like
    exact .one (.goes (Crew.Grows.same rfl rfl) (.of agree begun numbered) Crew.fixesNone)
  | disposing fresh call =>
    refine (Calling.movesEither like call).withinAlike (fun _ _ _ _ => Crew.fixesNone)
      fun r r' u u' _ _ alike _ => ?_
    have start : u.Fixes loose [.ready fresh .init] := Crew.fixesOne.mpr nofun
    cases r <;> cases r' <;>
      exact .goes (Crew.Grows.same rfl rfl) (alike.noted _ _) fun call member => start call member
  | starting call =>
    exact (Calling.movesMirrored like (Crew.fixesOne.mp fixes)).within
      (fun _ _ _ => Crew.fixesOne.mpr)
      fun r u u' _ _ alike => .ends (Crew.Grows.same rfl rfl) alike

end Renewal

namespace Recovery

def decisive : Recovery W → List (Calling W)
  | .first call | .restoring _ call | .second call => [call]
  | .renewing r => r.decisive

theorem movesMirrored {job : Job W} {r : Recovery W} (like : c.AlikeBut loose c')
    (fixes : c.Fixes loose r.decisive) :
    (Crew.likeness loose).Mirrored (Onward fun c r => c.Fixes loose (decisive r)) Eq c
      (Recovery.moves job r c) (Recovery.moves job r c') := by
  have works (u : Crew W V) (worker : Nat) (w : W) : u.Fixes loose [.ready worker (.work w)] :=
    Crew.fixesOne.mpr nofun
  cases r with
  | first call =>
    refine (Calling.movesMirrored like (Crew.fixesOne.mp fixes)).within
      (fun _ _ _ => Crew.fixesOne.mpr) fun r u u' _ _ alike => ?_
    cases r with
    | ok v => exact .ends (Crew.Grows.same rfl rfl) alike
    | error e =>
      dsimp only
      split
      · exact .goes (Crew.Grows.same rfl rfl) (alike.noted _ _) Crew.fixesNone
      · exact .ends (Crew.Grows.same rfl rfl) alike
  | renewing r =>
    refine (Renewal.movesMirrored like fixes).within (fun _ _ _ => id) fun r u u' _ _ alike => ?_
    cases r with
    | ok v =>
      have seated : u'.occupant job.seat = u.occupant job.seat := by cases alike; rfl
      dsimp only
      rw [seated]
      split
      · exact .goes (Crew.Grows.same rfl rfl) alike (works u _ _)
      · exact .goes (Crew.Grows.same rfl rfl) alike (works u _ _)
    | error e => exact .ends (Crew.Grows.same rfl rfl) alike
  | restoring fresh call =>
    refine (Calling.movesMirrored like (Crew.fixesOne.mp fixes)).within
      (fun _ _ _ => Crew.fixesOne.mpr) fun r u u' _ _ alike => ?_
    cases r with
    | ok v => exact .goes (Crew.Grows.same rfl rfl) alike (works u _ _)
    | error e => exact .ends (Crew.Grows.same rfl rfl) alike
  | second call =>
    exact (Calling.movesMirrored like (Crew.fixesOne.mp fixes)).within
      (fun _ _ _ => Crew.fixesOne.mpr)
      fun r u u' _ _ alike => .ends (Crew.Grows.same rfl rfl) alike

end Recovery

namespace Handling

def decisive : Handling W → List (Calling W)
  | .starting => []
  | .direct call => [call]
  | .recovering _ r => r.decisive

theorem movesMirrored {staffing : Staffing} {seat : Nat} {work : W} {h : Handling W}
    (like : c.AlikeBut loose c') (fixes : c.Fixes loose h.decisive) :
    (Crew.likeness loose).Mirrored (Onward fun c h => c.Fixes loose (decisive h)) Eq c
      (Handling.moves staffing seat work h c) (Handling.moves staffing seat work h c') := by
  cases h with
  | starting =>
    have call : c.Fixes loose [.ready (c.occupant seat) (.work work)] := Crew.fixesOne.mpr nofun
    obtain ⟨agree, begun, numbered⟩ := like
    simp only [Handling.moves]
    split <;> exact .one (.goes (Crew.Grows.same rfl rfl) (.of agree begun numbered) call)
  | direct call =>
    exact (Calling.movesMirrored like (Crew.fixesOne.mp fixes)).within
      (fun _ _ _ => Crew.fixesOne.mpr)
      fun r u u' _ _ alike => .ends (Crew.Grows.same rfl rfl) alike
  | recovering restore r =>
    exact (Recovery.movesMirrored like fixes).within (fun _ _ _ => id)
      fun r u u' _ _ alike => .ends (Crew.Grows.same rfl rfl) alike

end Handling

end

end MutationPipeline
