import MutationPipeline.Pool.Schedule
import MutationPipeline.Proofs.Worker.Likeness

/-!
What is done with two pools that are alike. Their permits, leases and seats are the same, only their
workers have not been heard alike. Nobody goes by what came of disposing a worker, be it that it did
not start or that the whole pool is disposed; only the one who disposes the pool is told in the end.
-/
namespace MutationPipeline

namespace Likeness
variable {σ φ ε α : Type} {L : Likeness σ} {s s' : σ}

theorem Mirrored.members {m : Machine σ φ (Except ε α)} {holds : σ → φ → Prop}
    {members : List (Member φ α)} (like : L.like s s')
    (stays : ∀ u p, L.grows s u → holds s p → holds u p)
    (all : ∀ p ∈ Member.phases members, holds s p)
    (inner : ∀ p, holds s p → L.Mirrored (Onward holds) Eq s (m p s) (m p s')) :
    L.Mirrored (Onward fun s members => ∀ p ∈ Member.phases members, holds s p) Eq s
      (Member.moves m members s) (Member.moves m members s') := by
  unfold Member.moves
  split
  · exact .one (.ends (L.refl s) like)
  suffices general : ∀ before : List (Member φ α),
      (∀ p ∈ Member.phases (before ++ members), holds s p) →
        L.Mirrored (Onward fun s members => ∀ p ∈ Member.phases members, holds s p) Eq s
          (Member.moves.each m s before members) (Member.moves.each m s' before members) from
    general [] all
  clear all
  rename_i none
  clear none
  induction members with
  | nil => exact fun _ _ => .nil
  | cons first rest ih =>
    intro before all
    cases first with
    | ended x => exact ih (before ++ [.ended x]) (by simpa using all)
    | running p =>
      have front (x : Member φ α) (q : φ) :
          q ∈ Member.phases (before ++ x :: rest) ↔
            q ∈ Member.phases [x] ∨ q ∈ Member.phases (before ++ rest) := by
        rw [(Member.phasesFront before rest x).mem_iff, List.mem_append]
      have others (q : φ) (member : q ∈ Member.phases (before ++ rest)) : holds s q :=
        all q ((front _ q).mpr (.inr member))
      have own : holds s p := all p ((front _ p).mpr (.inl (by simp [Member.phases])))
      refine .append ((inner p own).within (fun u q grows here r member => ?_)
        fun r u u' grows _ alike => ?_) (ih (before ++ [.running p]) (by simpa using all))
      · rcases (front _ r).mp member with now | before
        · obtain rfl : r = q := by simpa [Member.phases] using now
          exact here
        · exact stays u r grows (others r before)
      · cases r with
        | ok x =>
          refine .goes (L.refl u) alike fun q member => ?_
          rcases (front _ q).mp member with none | before
          · simp [Member.phases] at none
          · exact stays u q grows (others q before)
        | error e => exact .ends (L.refl u) alike

end Likeness

variable {W V : Type} {loose : Nat → Prop}

theorem Crew.fixesFlat {ι : Type} {c : Crew W V} {xs : List ι} {of : ι → List (Calling W)} :
    c.Fixes loose (xs.flatMap of) ↔ ∀ x ∈ xs, c.Fixes loose (of x) := by
  simp only [Fixes, List.mem_flatMap]
  refine ⟨fun all x here call member => all call ⟨x, here, member⟩, fun all call member => ?_⟩
  obtain ⟨x, here, member⟩ := member
  exact all x here call member

namespace Site

structure AlikeBut (loose : Nat → Prop) (s s' : Site W V) : Prop where
  pool : s'.pool = s.pool
  crew : s.crew.AlikeBut loose s'.crew

def likeness (loose : Nat → Prop) : Likeness (Site W V) where
  like := AlikeBut loose
  grows s u := s.crew.Grows u.crew
  refl s := (Crew.likeness loose).refl s.crew
  trans := (Crew.likeness loose).trans

theorem onCrewAlike : Likeness.PartAlike (@onCrew W V) (Crew.likeness loose) (likeness loose) where
  like := AlikeBut.crew
  kept alike crew := ⟨alike.pool, crew⟩
  grows := id
  grown := id
  placed := (Crew.likeness loose).refl _

variable {s s' : Site W V}

theorem AlikeBut.pooled (like : AlikeBut loose s s') (f : Pool → Pool) :
    AlikeBut loose (s.withPool f) (s'.withPool f) := ⟨congrArg f like.pool, like.crew⟩

theorem AlikeBut.noted (like : AlikeBut loose s s') (notes notes' : List Note) :
    AlikeBut loose { s with crew := { s.crew with notes := notes } }
      { s' with crew := { s'.crew with notes := notes' } } := ⟨like.pool, like.crew.noted _ _⟩

theorem AlikeBut.seated (like : AlikeBut loose s s') (seat : Nat) :
    s'.crew.occupant seat = s.crew.occupant seat := by
  obtain ⟨-, crew⟩ := like
  generalize s'.crew = c at crew
  cases crew
  rfl

theorem AlikeBut.vacatePair (like : AlikeBut loose s s') (tickets tokens : List Nat) :
    AlikeBut loose (s.vacate tickets tokens) (s'.vacate tickets tokens) ∧
      (likeness loose).grows s (s.vacate tickets tokens) := by
  obtain ⟨alike, grows⟩ := like.crew.abandonAll tokens
  exact ⟨⟨congrArg (fun pool => List.foldl Pool.forget pool tickets) like.pool, alike⟩, grows⟩

theorem growsSame (tokens : s'.crew.tokens = s.crew.tokens)
    (orders : s'.crew.orders = s.crew.orders) : (likeness loose).grows s s' :=
  Crew.Grows.same tokens orders

end Site

section
variable {s s' : Site W V}

theorem callMirrored {call : Calling W} {fixed : Call W → Prop} (like : Site.AlikeBut loose s s')
    (settled : call.Fixed fixed loose s.crew) :
    (Site.likeness loose).Mirrored (Onward fun s call => call.Fixed fixed loose s.crew) Eq s
      (callMoves call s) (callMoves call s') :=
  .on Site.onCrewAlike like (fun grows here => here.grow grows)
    (Calling.movesMirrored like.crew settled)

theorem callAlike (like : Site.AlikeBut loose s s') (call : Calling W) :
    (Site.likeness loose).Mirrored (Onward fun _ _ => True) (Next.Paired Eq fun _ _ => True) s
      (callMoves call s) (callMoves call s') :=
  .on Site.onCrewAlike like (fun _ => id) (Calling.movesEither like.crew call)

namespace Creation

def decisive : Creation W → List (Calling W)
  | .starting _ call => [call]
  | _ => []

theorem movesMirrored {holder : Option Nat} {c : Creation W} (like : Site.AlikeBut loose s s')
    (fixes : s.crew.Fixes loose c.decisive) :
    (Site.likeness loose).Mirrored (Onward fun s c => s.crew.Fixes loose (decisive c)) Eq s
      (Creation.moves holder c s) (Creation.moves holder c s') := by
  cases c with
  | hiring =>
    obtain ⟨pool', crew'⟩ := s'
    obtain ⟨rfl, agree, begun, numbered⟩ := like
    exact .one (.goes (Site.growsSame rfl rfl) ⟨rfl, .of agree begun numbered⟩
      (Crew.fixesOne.mpr nofun))
  | starting seat call =>
    refine (callMirrored like (Crew.fixesOne.mp fixes)).within
      (fun _ _ _ => Crew.fixesOne.mpr) fun r u u' _ _ alike => ?_
    cases r with
    | ok v => exact .goes (Site.growsSame rfl rfl) alike Crew.fixesNone
    | error e =>
      dsimp only
      rw [alike.seated]
      exact .goes (Site.growsSame rfl rfl) alike Crew.fixesNone
  | clearing cause call =>
    refine (callAlike like call).withinAlike (fun _ _ _ _ => Crew.fixesNone)
      fun r r' u u' _ _ alike _ => ?_
    cases r <;> cases r' <;> exact .ends (Site.growsSame rfl rfl) (alike.noted _ _)
  | enrolling seat =>
    refine .one (.ends ?_ ?_)
    · cases holder <;> exact Site.growsSame rfl rfl
    · have enrolled := like.pooled (·.enroll seat)
      cases holder with
      | some ticket => exact enrolled.pooled (·.seat ticket seat)
      | none => exact enrolled

end Creation

namespace Acquisition

def decisive : Acquisition W → List (Calling W)
  | .creating _ c => c.decisive
  | _ => []

theorem movesMirrored {a : Acquisition W} (like : Site.AlikeBut loose s s')
    (fixes : s.crew.Fixes loose a.decisive) :
    (Site.likeness loose).Mirrored (Onward fun s a => s.crew.Fixes loose (decisive a)) Eq s
      (Acquisition.moves a s) (Acquisition.moves a s') := by
  have still {u u' : Site W V} (pools : u'.pool = u.pool) (crew : u.crew = s.crew)
      (crew' : u'.crew = s'.crew) : Site.AlikeBut loose u u' := ⟨pools, crew ▸ crew' ▸ like.crew⟩
  have same := like.pool
  cases a with
  | asking =>
    simp only [Acquisition.moves, same]
    exact .one (.goes (Site.growsSame rfl rfl) (still rfl rfl rfl) Crew.fixesNone)
  | waiting ticket =>
    simp only [Acquisition.moves, same]
    split
    · exact .one (.ends (Site.growsSame rfl rfl) (like.pooled _))
    · split
      · exact .one (.goes (Site.growsSame rfl rfl) (like.pooled _) Crew.fixesNone)
      · exact .nil
  | choosing ticket =>
    simp only [Acquisition.moves, same]
    split
    · exact .one (.ends (Site.growsSame rfl rfl) (still rfl rfl rfl))
    · exact .one (.goes (Site.growsSame rfl rfl) like Crew.fixesNone)
  | creating ticket c =>
    refine (Creation.movesMirrored like fixes).within (fun _ _ _ => id) fun r u u' _ _ alike => ?_
    cases r with
    | ok seat => exact .ends (Site.growsSame rfl rfl) alike
    | error e => exact .goes (Site.growsSame rfl rfl) alike Crew.fixesNone
  | failing ticket cause => exact .one (.ends (Site.growsSame rfl rfl) (like.pooled _))

end Acquisition

theorem Release.movesMirrored {r : Release} (ticket : Nat) (like : Site.AlikeBut loose s s') :
    (Site.likeness loose).Mirrored (Onward fun _ _ => True) Eq s (Release.moves ticket r s)
      (Release.moves ticket r s') := by
  cases r with
  | puttingBack => exact .one (.goes (Site.growsSame rfl rfl) (like.pooled _) trivial)
  | freeing => exact .one (.ends (Site.growsSame rfl rfl) (like.pooled _))

namespace Filling

def decisive : Filling W → List (Calling W)
  | .counting => []
  | .creating members => (Member.phases members).flatMap Creation.decisive

theorem movesMirrored {f : Filling W} (like : Site.AlikeBut loose s s')
    (fixes : s.crew.Fixes loose f.decisive) :
    (Site.likeness loose).Mirrored (Onward fun s f => s.crew.Fixes loose (decisive f)) Eq s
      (Filling.moves f s) (Filling.moves f s') := by
  cases f with
  | counting =>
    simp only [Filling.moves, like.pool]
    split
    · exact .one (.ends (Site.growsSame rfl rfl) like)
    · refine .one (.goes (Site.growsSame rfl rfl) like (Crew.fixesFlat.mpr fun c member => ?_))
      obtain ⟨m, here, found⟩ := List.mem_filterMap.mp member
      rw [List.eq_of_mem_replicate here] at found
      cases found
      exact Crew.fixesNone
  | creating members =>
    have each : (Site.likeness loose).Mirrored
        (Onward fun s members => ∀ c ∈ Member.phases members, s.crew.Fixes loose c.decisive) Eq s
        (Member.moves (Creation.moves none) members s)
        (Member.moves (Creation.moves none) members s') :=
      .members like (fun u c grows here => Crew.Fixes.grow here grows) (Crew.fixesFlat.mp fixes)
        fun c here => Creation.movesMirrored like here
    refine each.within (fun _ _ _ => Crew.fixesFlat.mpr) fun r u u' _ _ alike => ?_
    cases r with
    | ok seats => exact .ends (Site.growsSame rfl rfl) (alike.pooled _)
    | error e => exact .ends (Site.growsSame rfl rfl) alike

end Filling

namespace Broadcast
variable {φ : Type} {of : φ → List (Calling W)} {start : φ}
  {m : Nat → Machine (Site W V) φ (Except WorkerError Unit)}

theorem movesMirrored {b : Broadcast φ} (like : Site.AlikeBut loose s s') (idle : of start = [])
    (inner : ∀ seat p {s s' : Site W V}, Site.AlikeBut loose s s' → s.crew.Fixes loose (of p) →
      (Site.likeness loose).Mirrored (Onward fun s p => s.crew.Fixes loose (of p)) Eq s
        (m seat p s) (m seat p s'))
    (fixes : s.crew.Fixes loose (b.phases.flatMap of)) :
    (Site.likeness loose).Mirrored
      (Onward fun s b => s.crew.Fixes loose ((phases b).flatMap of)) Eq s
      (Broadcast.moves start m b s) (Broadcast.moves start m b s') := by
  cases b with
  | listing =>
    simp only [Broadcast.moves, like.pool]
    refine .one (.goes (Site.growsSame rfl rfl) like (Crew.fixesFlat.mpr fun p member => ?_))
    obtain ⟨⟨seat, q⟩, here, rfl⟩ := List.mem_map.mp member
    obtain ⟨x, listed, found⟩ := List.mem_filterMap.mp here
    obtain ⟨seat, -, rfl⟩ := List.mem_map.mp listed
    cases found
    exact idle.symm ▸ Crew.fixesNone
  | running members =>
    let all (s : Site W V) (members : List (Member (Nat × φ) Unit)) : Prop :=
      ∀ p ∈ Member.phases members, s.crew.Fixes loose (of p.2)
    let one (p : Nat × φ) : Site W V → List (Site W V × Next (Nat × φ) (Except WorkerError Unit)) :=
      (m p.1).within (fun phase => (p.1, phase)) (fun r s => (s, .done r)) p.2
    have each : (Site.likeness loose).Mirrored (Onward all) Eq s (Member.moves one members s)
        (Member.moves one members s') :=
      .members like (fun u p grows here => Crew.Fixes.grow here grows)
        (fun p member => Crew.fixesFlat.mp fixes p.2 (List.mem_map_of_mem member))
        fun p here => (inner p.1 p.2 like here).within (fun _ _ _ => id)
          fun r u u' _ _ alike => .ends (Site.growsSame rfl rfl) alike
    refine each.within (fun u members _ here => Crew.fixesFlat.mpr fun p member => ?_)
      fun r u u' _ _ alike => .ends (Site.growsSame rfl rfl) alike
    obtain ⟨q, among, rfl⟩ := List.mem_map.mp member
    exact here q among

end Broadcast

namespace Disposal

def Fixed (loose : Nat → Prop) (c : Crew W V) : Disposal W → Prop
  | .disposing (some call) _ _ => call.Fixed (fun _ => True) loose c
  | _ => True

theorem Fixed.grow {c u : Crew W V} {d : Disposal W} (settled : d.Fixed loose c)
    (grows : c.Grows u) : d.Fixed loose u := by
  cases d with
  | disposing call rest first =>
    cases call with
    | some call => exact Calling.Fixed.grow settled grows
    | none => trivial
  | _ => trivial

theorem Fixed.answer {c : Crew W V} {d : Disposal W} {token : Nat} (settled : d.Fixed loose c)
    (other : token ∉ d.tokens) (outcome : Outcome V) :
    d.Fixed (fun t => loose t ∨ t = token) (c.answer token outcome) := by
  cases d with
  | disposing call rest first =>
    cases call with
    | some call => exact Calling.Fixed.answer settled other outcome
    | none => trivial
  | _ => trivial

theorem movesMirrored {d : Disposal W} (like : Site.AlikeBut loose s s')
    (settled : d.Fixed loose s.crew) :
    (Site.likeness loose).Mirrored (Onward fun s d => Fixed loose s.crew d) Eq s
      (Disposal.moves d s) (Disposal.moves d s') := by
  have same := like.pool
  cases d with
  | asking =>
    simp only [Disposal.moves, same]
    split
    · exact .one (.ends (Site.growsSame rfl rfl) like)
    · exact .one (.goes (Site.growsSame rfl rfl) ⟨rfl, like.crew⟩ trivial)
  | waiting ticket wanted =>
    simp only [Disposal.moves, same]
    split
    · exact .one (.goes (Site.growsSame rfl rfl) like trivial)
    · split
      · exact .one (.goes (Site.growsSame rfl rfl) (like.pooled _) trivial)
      · exact .nil
  | closing ticket | freeing ticket =>
    exact .one (.goes (Site.growsSame rfl rfl) (like.pooled _) trivial)
  | clearing =>
    simp only [Disposal.moves, same]
    exact .one (.goes (Site.growsSame rfl rfl) (like.pooled _) trivial)
  | disposing call rest first =>
    cases call with
    | none =>
      cases rest with
      | nil => exact .one (.ends (Site.growsSame rfl rfl) like)
      | cons seat rest =>
        simp only [Disposal.moves, like.seated]
        exact .one (.goes (Site.growsSame rfl rfl) like trivial)
    | some call =>
      refine (callMirrored like settled).within (fun _ _ _ => id) fun r u u' _ _ alike => ?_
      cases r with
      | ok v => exact .goes (Site.growsSame rfl rfl) alike trivial
      | error e => exact .goes (Site.growsSame rfl rfl) (alike.noted _ _) trivial

inductive Retold : Disposal W → Disposal W → Prop where
  | refl (d) : Retold d d
  | disposing (call rest first first') :
      Retold (.disposing call rest first) (.disposing call rest first')

theorem movesEither {d d' : Disposal W} (like : Site.AlikeBut loose s s') (alike : d.Retold d') :
    (Site.likeness loose).Mirrored (Onward fun _ _ => True) (Next.Paired Retold fun _ _ => True) s
      (Disposal.moves d s) (Disposal.moves d' s') := by
  suffices shape : (d = d' ∧ d.Fixed loose s.crew) ∨ ∃ call rest first first',
      d = .disposing call rest first ∧ d' = .disposing call rest first' by
    rcases shape with ⟨rfl, settled⟩ | ⟨call, rest, first, first', rfl, rfl⟩
    · refine (movesMirrored like settled).more (fun u n _ => by cases n <;> trivial) ?_
      rintro n _ rfl
      cases n with
      | go d => exact .go (.refl d)
      | done r => exact .done trivial
      | panicked => exact .panicked
    · cases call with
      | none =>
        cases rest with
        | nil => exact .one ⟨Site.growsSame rfl rfl, trivial, like, .done trivial⟩
        | cons seat rest =>
          simp only [Disposal.moves, like.seated]
          exact .one ⟨Site.growsSame rfl rfl, trivial, like, .go (.disposing ..)⟩
      | some call =>
        refine (callAlike like call).map fun ⟨u, n⟩ ⟨u', n'⟩ ⟨grows, _, alike, both⟩ => ?_
        cases both with
        | go same =>
          cases same
          exact ⟨grows, trivial, alike, .go (.disposing ..)⟩
        | @done r r' _ =>
          cases r <;> cases r' <;>
            exact ⟨(Site.likeness loose).trans grows (Site.growsSame rfl rfl), trivial,
              alike.noted _ _, .go (.disposing ..)⟩
        | panicked => exact ⟨grows, trivial, alike, .panicked⟩
  cases alike with
  | refl =>
    cases d with
    | disposing call rest first => exact .inr ⟨call, rest, first, first, rfl, rfl⟩
    | _ => exact .inl ⟨rfl, trivial⟩
  | disposing call rest first first' => exact .inr ⟨call, rest, first, first', rfl, rfl⟩

end Disposal

end

namespace Schedule
variable {σ α φ ρ : Type} {L : Likeness σ} {plan : Plan W V σ α φ ρ} {of : φ → List (Calling W)}
  {s s' : σ}

def decisive (of : φ → List (Calling W)) (f : Schedule W α φ ρ) : List (Calling W) :=
  (match f.feed with
    | .acquiring _ a _ => a.decisive
    | _ => []) ++
  f.flights.flatMap fun
    | .working _ _ _ p => of p
    | _ => []

structure Plan.Alike (L : Likeness σ) (loose : Nat → Prop) (of : φ → List (Calling W))
    (plan : Plan W V σ α φ ρ) : Prop where
  site : Likeness.PartAlike plan.site (Site.likeness loose) L
  start : of plan.start = []
  more : ∀ {s s'}, L.like s s' →
    L.Mirrored (fun _ _ => True) Eq s (plan.more s) (plan.more s')
  work : ∀ item seat p {c c' : Crew W V}, c.AlikeBut loose c' → c.Fixes loose (of p) →
    (Crew.likeness loose).Mirrored (Onward fun c p => c.Fixes loose (of p)) Eq c
      (plan.work item seat p c) (plan.work item seat p c')

def Fixes (loose : Nat → Prop) (of : φ → List (Calling W)) (plan : Plan W V σ α φ ρ) (s : σ)
    (f : Schedule W α φ ρ) : Prop := (plan.site.get s).crew.Fixes loose (f.decisive of)

abbrev StaysFixed (loose : Nat → Prop) (of : φ → List (Calling W)) (plan : Plan W V σ α φ ρ) :
    σ → Next (Schedule W α φ ρ) (Option (Yield α ρ) × Schedule W α φ ρ) → Prop :=
  Stays (Fixes loose of plan) fun s r => Fixes loose of plan s r.2

theorem fixesParts {c : Crew W V} {f : Schedule W α φ ρ} : c.Fixes loose (f.decisive of) ↔
    (∀ item a known, f.feed = .acquiring item a known → c.Fixes loose a.decisive) ∧
      ∀ item ticket seat p, .working item ticket seat p ∈ f.flights → c.Fixes loose (of p) := by
  have feed : (∀ item a known, f.feed = .acquiring item a known → c.Fixes loose a.decisive) ↔
      c.Fixes loose (match f.feed with
        | .acquiring _ a _ => a.decisive
        | _ => []) := by
    cases f.feed with
    | acquiring item a known =>
      exact ⟨fun all => all item a known rfl, fun here _ _ _ same => by cases same; exact here⟩
    | _ => exact ⟨fun _ => Crew.fixesNone, fun _ _ _ _ none => by cases none⟩
  rw [feed]
  have whole (xs ys : List (Calling W)) :
      c.Fixes loose (xs ++ ys) ↔ c.Fixes loose xs ∧ c.Fixes loose ys := List.forall_mem_append
  rw [decisive, whole, Crew.fixesFlat]
  refine and_congr_right fun _ => ⟨fun all item ticket seat p here => all _ here, fun all x here => ?_⟩
  cases x with
  | working item ticket seat p => exact all item ticket seat p here
  | _ => exact Crew.fixesNone

theorem Fixes.grow (alike : plan.Alike L loose of) {f : Schedule W α φ ρ} {u : σ}
    (fixes : Fixes loose of plan s f) (grows : L.grows s u) : Fixes loose of plan u f :=
  Crew.Fixes.grow fixes (alike.site.grown grows)

theorem feedMirrored (alike : plan.Alike L loose of) {f : Schedule W α φ ρ} (like : L.like s s')
    (fixes : Fixes loose of plan s f) :
    L.Mirrored (StaysFixed loose of plan) Eq s (feedMoves plan f s) (feedMoves plan f s') := by
  have flights := (fixesParts.mp fixes).2
  have asks (item known) : Fixes loose of plan s { f with feed := .acquiring item .asking known } :=
    fixesParts.mpr ⟨fun _ _ _ same => by cases same; exact Crew.fixesNone, flights⟩
  have rests {feed : Feed W α} (idle : ∀ item a known, feed ≠ .acquiring item a known) :
      Fixes loose of plan s { f with feed } :=
    fixesParts.mpr ⟨fun _ _ _ none => absurd none (idle _ _ _), flights⟩
  unfold feedMoves
  split
  · exact .nil
  · exact .one ⟨L.refl s, asks _ _, like, rfl⟩
  · refine (alike.more like).map fun ⟨u, item⟩ ⟨u', item'⟩ ⟨grows, _, alike', same⟩ => ?_
    cases same
    cases item with
    | some item => exact ⟨grows, (asks item []).grow alike grows, alike', rfl⟩
    | none => exact ⟨grows, Fixes.grow alike (rests nofun) grows, alike', rfl⟩
  · next item a known feed =>
    have acquires := (fixesParts.mp fixes).1 item a known feed
    refine (Likeness.Mirrored.on alike.site like (fun grows here => here.grow grows)
      (Acquisition.movesMirrored (alike.site.like like) acquires)).within
        (fun u b grows here => fixesParts.mpr
          ⟨fun _ _ _ same => (by cases same; exact here), fun _ _ _ p member =>
            (flights _ _ _ p member).grow (alike.site.grown grows)⟩)
        fun r u u' grows _ alike' => ⟨L.refl u, ?_, alike', rfl⟩
    refine fixesParts.mpr ⟨fun _ _ _ none => (by cases none), fun _ _ _ p member => ?_⟩
    rcases List.mem_append.mp member with before | now
    · exact (flights _ _ _ p before).grow (alike.site.grown grows)
    · cases r with
      | ok r =>
        cases List.mem_singleton.mp now
        exact alike.start ▸ Crew.fixesNone
      | error e => cases List.mem_singleton.mp now

theorem flightMirrored (alike : plan.Alike L loose of) {f : Schedule W α φ ρ} (like : L.like s s')
    (fixes : Fixes loose of plan s f) (i : Nat) :
    L.Mirrored (StaysFixed loose of plan) Eq s (flightMoves plan f i s)
      (flightMoves plan f i s') := by
  obtain ⟨feed, flights⟩ := fixesParts.mp fixes
  -- whatever becomes of the item in flight, the others are as they were
  have others {u : σ} (grows : L.grows s u) {later : List (Flight φ α ρ)}
      (kept : ∀ item ticket seat p, .working item ticket seat p ∈ later →
        .working item ticket seat p ∈ f.flights ∨ (plan.site.get u).crew.Fixes loose (of p)) :
      Fixes loose of plan u { f with flights := later } :=
    fixesParts.mpr ⟨fun item a known here => (feed item a known here).grow (alike.site.grown grows),
      fun item ticket seat p member => (kept item ticket seat p member).elim
        (fun before => (flights item ticket seat p before).grow (alike.site.grown grows)) id⟩
  have landed {u : σ} (grows : L.grows s u) :
      Fixes loose of plan u { f with flights := f.flights.eraseIdx i } :=
    others grows fun _ _ _ _ member => .inl (List.mem_of_mem_eraseIdx member)
  have goes {u : σ} (grows : L.grows s u) {x : Flight φ α ρ}
      (here : ∀ item ticket seat p, x = .working item ticket seat p →
        (plan.site.get u).crew.Fixes loose (of p)) :
      Fixes loose of plan u { f with flights := f.flights.set i x } :=
    others grows fun item ticket seat p member =>
      (List.mem_or_eq_of_mem_set member).imp id fun same => here item ticket seat p same.symm
  simp only [flightMoves]
  split
  · exact .nil
  · exact .one ⟨L.refl s, landed (L.refl s), like, rfl⟩
  · next item ticket seat p flight =>
    have crew : Likeness.PartAlike (Site.onCrew.inside plan.site) (Crew.likeness loose) L :=
      Site.onCrewAlike.inside alike.site
    have works := flights item ticket seat p (List.mem_of_getElem? flight)
    refine (Likeness.Mirrored.on crew like (fun grows here => here.grow grows)
      (alike.work item seat p (alike.site.like like).crew works)).within
        (fun u q grows here => goes grows fun _ _ _ _ same => by cases same; exact here)
        fun r u u' grows _ alike' =>
          ⟨L.refl u, goes grows (fun _ _ _ _ none => by cases none), alike', rfl⟩
  · next item ticket r b flight =>
    refine (Likeness.Mirrored.on alike.site like (fun _ => id)
      (Release.movesMirrored ticket (alike.site.like like))).within
        (fun u q grows _ => goes grows fun _ _ _ _ none => by cases none)
        fun r u u' grows _ alike' => ⟨L.refl u, landed grows, alike', rfl⟩

theorem movesMirrored (alike : plan.Alike L loose of) {f : Schedule W α φ ρ} (like : L.like s s')
    (fixes : Fixes loose of plan s f) :
    L.Mirrored (StaysFixed loose of plan) Eq s (Schedule.moves plan f s)
      (Schedule.moves plan f s') := by
  unfold Schedule.moves
  split
  · exact .one ⟨L.refl s, fixes, like, rfl⟩
  · split
    · exact flightMirrored alike like fixes _
    · exact (feedMirrored alike like fixes).append
        (.flatMap fun i _ => flightMirrored alike like fixes i)

end Schedule

end MutationPipeline
