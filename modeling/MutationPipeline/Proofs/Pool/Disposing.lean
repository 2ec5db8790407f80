import MutationPipeline.Proofs.Pool.Draining

/-! A pool that is disposed while it is used. Whoever disposes it waits for all permits that the pool
had when it began to wait, so those who use the pool have none left; but permits that are added
meanwhile are not waited for. -/
namespace MutationPipeline
variable {W V σ α φ ρ : Type}

namespace Visitor
variable {site : Part σ (Site W V)} {p q : Pool} {v : Visitor W V σ α φ ρ}

/-- It waits for the permits of the pool to dispose it, or has them and has not closed it yet. -/
def AwaitsEnd : Visitor W V σ α φ ρ → Prop
  | .disposing (.waiting ..) | .disposing (.closing _) => True
  | _ => False

def Attends (site : Part σ (Site W V)) (p : Pool) : Visitor W V σ α φ ρ → Prop
  | .disposing d => d.Fits p
  | .disposed _ => True
  | v => v.Serves site

def shares (size : Nat) : Visitor W V σ α φ ρ → List Stance
  | .disposing d => d.stances size
  | v => v.stances

theorem movesServes {s s' : σ} {w : Visitor W V σ α φ ρ} (serves : v.Serves site)
    (move : (s', .go w) ∈ v.moves site s) : w.Serves site := by
  cases v with
  | acquiring a =>
    rcases Machine.withinCases move with ⟨b, -, same⟩ | ⟨u, r, -, same⟩ | ⟨-, same⟩
    · cases same; trivial
    · cases r <;> cases same <;> trivial
    · cases same
  | holding ticket seat =>
    cases (memStep.mp move).2
    trivial
  | releasing ticket r =>
    rcases Machine.withinCases move with ⟨b, -, same⟩ | ⟨u, r, -, same⟩ | ⟨-, same⟩ <;> cases same <;>
      trivial
  | scheduling plan f =>
    rcases Machine.withinCases move with ⟨g, -, same⟩ | ⟨u, ⟨y, g⟩, -, same⟩ | ⟨-, same⟩
    · cases same; exact serves
    · cases y <;> cases same
      · trivial
      · exact serves
    · cases same
  | filling f => exact serves.elim
  | disposing d => exact serves.elim
  | _ => cases move

theorem attendsCases (attends : v.Attends site p) :
    v.Serves site ∨ (∃ d, v = .disposing d ∧ d.Fits p) ∨ ∃ r, v = .disposed r := by
  cases v with
  | disposing d => exact .inr (.inl ⟨d, rfl, attends⟩)
  | disposed r => exact .inr (.inr ⟨r, rfl⟩)
  | _ => exact .inl attends

theorem Serves.attends (serves : v.Serves site) : v.Attends site p := by
  cases v with
  | disposing d => exact serves.elim
  | disposed r => exact serves.elim
  | _ => exact serves

theorem Serves.shares (serves : v.Serves site) (size : Nat) : v.shares size = v.stances := by
  cases v with
  | disposing d => exact serves.elim
  | _ => rfl

theorem Attends.onward (attends : v.Attends site p) (onward : p.Onward q) : v.Attends site q := by
  cases v with
  | disposing d =>
    cases d with
    | asking => trivial
    | waiting ticket wanted =>
      exact attends.trans (congrArg (min · mostAwaited) onward.capacity.symm)
    | closing ticket => trivial
    | _ => exact onward.closed attends
  | _ => exact attends

theorem Attends.raised (attends : v.Attends site p) (calm : ¬v.AwaitsEnd)
    (closed : p.permits.closed = true → q.permits.closed = true) : v.Attends site q := by
  cases v with
  | disposing d =>
    cases d with
    | asking => trivial
    | waiting ticket wanted => exact absurd trivial calm
    | closing ticket => trivial
    | _ => exact closed attends
  | _ => exact attends

theorem sharesCalm (calm : ¬v.AwaitsEnd) (size later : Nat) : v.shares size = v.shares later := by
  cases v with
  | disposing d =>
    cases d with
    | waiting ticket wanted => exact absurd trivial calm
    | closing ticket => exact absurd trivial calm
    | _ => rfl
  | _ => rfl

theorem sharesServed (attends : v.Attends site p) (size : Nat) : Served (v.shares size) := by
  rcases attendsCases attends with serves | ⟨d, rfl, -⟩ | ⟨r, rfl⟩
  · rw [serves.shares]
    exact served serves
  · exact d.served size
  · exact fun x member => by cases member

end Visitor

namespace Traffic

def Visiting (site : Part σ (Site W V)) (t : Traffic W V σ α φ ρ) (v : Visitor W V σ α φ ρ) : Prop :=
  Serving site t v ∨ v = .disposing .asking

inductive Unraised (site : Part σ (Site W V)) (of : φ → List Nat) :
    Traffic W V σ α φ ρ → Traffic W V σ α φ ρ → Prop where
  | refl (t) : Unraised site of t t
  | tail {t u w} (steps : Unraised site of t u) (step : Step site of (Visiting site) u w)
      (calm : (∃ v ∈ u.visitors, v.AwaitsEnd) →
        (site.get w.state).pool.capacity = (site.get u.state).pool.capacity) :
      Unraised site of t w

variable {site : Part σ (Site W V)} {of : φ → List Nat} {t u : Traffic W V σ α φ ρ}
  {before after visitors : List (Visitor W V σ α φ ρ)} {v w : Visitor W V σ α φ ρ}

def shares (size : Nat) (visitors : List (Visitor W V σ α φ ρ)) : List Stance :=
  visitors.flatMap (Visitor.shares size)

theorem sharesFront (size : Nat) (before after : List (Visitor W V σ α φ ρ))
    (v : Visitor W V σ α φ ρ) : (shares size (before ++ v :: after)).Perm
      (v.shares size ++ shares size (before ++ after)) :=
  List.perm_middle.flatMap_right _

theorem vacantStances {size : Nat} (vacant : Vacant (shares size visitors)) :
    Vacant (stances visitors) := by
  induction visitors with
  | nil => rfl
  | cons v rest ih =>
    obtain ⟨own, others⟩ := Vacant.append.mp vacant
    refine Vacant.append.mpr ⟨?_, ih others⟩
    cases v with
    | disposing d => rfl
    | _ => exact own

def Accounts (site : Part σ (Site W V)) (t : Traffic W V σ α φ ρ) : Prop :=
  (site.get t.state).Kept (shares (site.get t.state).pool.capacity t.visitors) ∨
    (site.get t.state).Drained (stances t.visitors)

structure Shared (site : Part σ (Site W V)) (t : Traffic W V σ α φ ρ) : Prop where
  attend : ∀ v ∈ t.visitors, v.Attends site (site.get t.state).pool
  accounts : (site.get t.state).pool.capacity ≤ mostAwaited → t.Accounts site

theorem Used.shared (used : t.Used site) : t.Shared site where
  attend := fun v member => (used.serve v member).attends
  accounts := fun _ => by
    have same : shares (site.get t.state).pool.capacity t.visitors = stances t.visitors :=
      List.flatMap_congr fun v member => (used.serve v member).shares _
    exact .inl (same ▸ used.kept)

theorem sharesServed {p : Pool} (attend : ∀ v ∈ visitors, v.Attends site p) (size : Nat) :
    Served (shares size visitors) := by
  intro x member
  obtain ⟨v, visits, own⟩ := List.mem_flatMap.mp member
  exact Visitor.sharesServed (attend v visits) size x own

theorem Shared.others (shared : t.Shared site) (here : t.visitors = before ++ v :: after) :
    v.Attends site (site.get t.state).pool ∧
      (∀ w ∈ before ++ after, w.Attends site (site.get t.state).pool) ∧
        ((site.get t.state).pool.capacity ≤ mostAwaited →
          (site.get t.state).Kept (v.shares (site.get t.state).pool.capacity ++
            shares (site.get t.state).pool.capacity (before ++ after)) ∨
          (site.get t.state).Drained (v.stances ++ stances (before ++ after))) := by
  obtain ⟨attend, accounts⟩ := shared
  rw [Accounts, here] at accounts
  rw [here] at attend
  refine ⟨attend v (by simp), fun w member => attend w ?_, fun few => ?_⟩
  · exact List.perm_middle.mem_iff.mpr (List.mem_cons_of_mem v member)
  · refine (accounts few).imp (fun kept => ?_) fun drained => ?_
    · exact kept.perm (sharesFront _ before after v)
    · exact drained.perm (stancesFront before after v)

theorem sharedAgain {s s' : σ} (onward : (site.get s).pool.Onward (site.get s').pool)
    (others : ∀ w ∈ before ++ after, w.Attends site (site.get s).pool)
    (own : v.Attends site (site.get s').pool)
    (accounts : (site.get s).pool.capacity ≤ mostAwaited →
      (site.get s').Kept (v.shares (site.get s).pool.capacity ++
        shares (site.get s).pool.capacity (before ++ after)) ∨
      (site.get s').Drained (v.stances ++ stances (before ++ after))) :
    Shared site ⟨s', before ++ v :: after⟩ where
  attend := by
    intro w member
    rcases List.mem_cons.mp (List.perm_middle.mem_iff.mp member) with rfl | other
    · exact own
    · exact (others w other).onward onward
  accounts := by
    intro few
    rw [onward.capacity] at few
    refine (accounts few).imp (fun kept => ?_) fun drained => ?_
    · rw [← onward.capacity] at kept
      exact kept.perm (sharesFront _ before after v).symm
    · exact drained.perm (stancesFront before after v).symm

section Go
variable {s s' : σ} {n : Next (Visitor W V σ α φ ρ) Empty} {size : Nat}

theorem visitorMoves (lawful : site.Lawful) (attends : v.Attends site (site.get s).pool)
    (others : Served (shares (site.get s).pool.capacity visitors))
    (few : (site.get s).pool.capacity ≤ mostAwaited) (move : (s', n) ∈ v.moves site s)
    (accounts : (site.get s).Kept (v.shares (site.get s).pool.capacity ++
        shares (site.get s).pool.capacity visitors) ∨
      (site.get s).Drained (v.stances ++ stances visitors)) :
    (site.get s').Kept (n.elim (Visitor.shares (site.get s).pool.capacity) Empty.elim
        (v.shares (site.get s).pool.capacity) ++ shares (site.get s).pool.capacity visitors) ∨
      (site.get s').Drained
        (n.elim Visitor.stances Empty.elim v.stances ++ stances visitors) := by
  rcases Visitor.attendsCases attends with serves | ⟨d, rfl, fits⟩ | ⟨r, rfl⟩
  · rcases accounts with kept | drained
    · rw [serves.shares] at kept
      obtain ⟨moved, again⟩ := Visitor.movesKept lawful serves others kept move
      refine .inl ?_
      cases n with
      | go w => rwa [Next.elim, (again w rfl).shares]
      | done r => exact r.elim
      | panicked => rwa [Next.elim, serves.shares]
    · have moved := Visitor.movesDrained lawful serves drained move
      cases n with
      | done r => exact r.elim
      | _ => exact .inr moved
  · have onSite {u m} (moved : (u, m) ∈ Disposal.moves d (site.get s)) :
        u.Kept (m.elim (Disposal.stances (site.get s).pool.capacity) (fun _ => [])
          (d.stances (site.get s).pool.capacity) ++
            shares (site.get s).pool.capacity visitors) ∨ u.Drained (stances visitors) := by
      rcases accounts with kept | drained
      · refine (Disposal.movesAccounts fits few kept moved).imp_right fun drained => ?_
        exact { drained with vacant := vacantStances drained.vacant }
      · exact .inr (Disposal.movesDrained drained fits moved)
    rcases Machine.withinCases move with ⟨q, inner, rfl⟩ | ⟨u, r, inner, same⟩ | ⟨inner, rfl⟩
    · obtain ⟨u, moved, rfl⟩ := Machine.onCases inner
      rw [lawful]
      exact onSite moved
    · obtain ⟨u, moved, rfl⟩ := Machine.onCases inner
      cases same
      rw [lawful]
      exact onSite moved
    · obtain ⟨u, moved, rfl⟩ := Machine.onCases inner
      rw [lawful]
      exact onSite moved
  · cases move

end Go

theorem visitorLeaves {s : Site W V} (attends : v.Attends site s.pool)
    (accounts : s.Kept (v.shares s.pool.capacity ++ shares s.pool.capacity visitors) ∨
      s.Drained (v.stances ++ stances visitors)) (tokens : List Nat) :
    (s.vacate v.tickets tokens).Kept (shares s.pool.capacity visitors) ∨
      (s.vacate v.tickets tokens).Drained (stances visitors) := by
  rcases accounts with kept | drained
  · refine .inl ?_
    rcases Visitor.attendsCases attends with serves | ⟨d, rfl, fits⟩ | ⟨r, rfl⟩
    · rw [serves.shares] at kept
      exact vacateKept serves kept tokens
    · have booked : s.Booked (shares s.pool.capacity visitors) (d.stances s.pool.capacity) :=
        .inr (kept.perm List.perm_append_comm)
      rcases Disposal.vacateBooked fits booked tokens with ⟨closed, -⟩ | left
      · have opened : s.pool.permits.closed = false := kept.counted.opened
        have same : (s.vacate d.tickets tokens).pool.permits.closed = s.pool.permits.closed :=
          (s.pool.forgetAllAlike d.tickets).closed
        rw [same, opened] at closed
        cases closed
      · rwa [List.append_nil] at left
    · exact kept.more rfl (Nat.le_of_eq (by rw [Site.vacate, Crew.abandonAllSeats]))
  · exact .inr (drained.vacate _ _)

theorem attendsMoves {s s' : σ} {n : Next (Visitor W V σ α φ ρ) Empty} (lawful : site.Lawful)
    (attends : v.Attends site (site.get s).pool) (move : (s', n) ∈ v.moves site s) :
    (site.get s).pool.Onward (site.get s').pool ∧
      ∀ w, n = .go w → w.Attends site (site.get s').pool := by
  rcases Visitor.attendsCases attends with serves | ⟨d, rfl, fits⟩ | ⟨r, rfl⟩
  · refine ⟨(Visitor.movesLevel lawful serves move).onward, ?_⟩
    rintro w rfl
    exact (Visitor.movesServes serves move).attends
  · rcases Machine.withinCases move with ⟨q, inner, rfl⟩ | ⟨u, r, inner, same⟩ | ⟨inner, rfl⟩
    · obtain ⟨u, moved, rfl⟩ := Machine.onCases inner
      rw [lawful]
      refine ⟨(Disposal.movesOnward moved).1, ?_⟩
      rintro w ⟨⟩
      exact Disposal.movesFits fits moved
    · obtain ⟨u, moved, rfl⟩ := Machine.onCases inner
      cases same
      rw [lawful]
      refine ⟨(Disposal.movesOnward moved).1, ?_⟩
      rintro w ⟨⟩
      trivial
    · obtain ⟨u, moved, rfl⟩ := Machine.onCases inner
      rw [lawful]
      exact ⟨(Disposal.movesOnward moved).1, fun w go => by cases go⟩
  · cases move

theorem Shared.go {s : σ} (lawful : site.Lawful) (shared : t.Shared site)
    (here : t.visitors = before ++ v :: after) (move : (s, .go w) ∈ v.moves site t.state) :
    Shared site ⟨s, before ++ w :: after⟩ := by
  obtain ⟨attends, others, accounts⟩ := shared.others here
  obtain ⟨onward, again⟩ := attendsMoves lawful attends move
  refine sharedAgain onward others (again w rfl) fun few => ?_
  exact visitorMoves lawful attends (sharesServed others _) few move (accounts few)

theorem Shared.leave (lawful : site.Lawful) (shared : t.Shared site)
    (here : t.visitors = before ++ v :: after) (tokens : List Nat) :
    Shared site ⟨site.update (Site.vacate v.tickets tokens) t.state, before ++ .ended :: after⟩ := by
  obtain ⟨attends, others, accounts⟩ := shared.others here
  have onward : (site.get t.state).pool.Onward
      (site.get (site.update (Site.vacate v.tickets tokens) t.state)).pool := by
    rw [Part.update, lawful]
    exact ((site.get t.state).pool.forgetAllAlike v.tickets).level.onward
  refine sharedAgain onward others trivial fun few => ?_
  rw [Part.update, lawful]
  exact visitorLeaves attends (accounts few) tokens

theorem Shared.breakDown {s : σ} (lawful : site.Lawful) (shared : t.Shared site)
    (here : t.visitors = before ++ v :: after) (move : (s, .panicked) ∈ v.moves site t.state)
    (tokens : List Nat) :
    Shared site ⟨site.update (Site.vacate v.tickets tokens) s, before ++ .ended :: after⟩ := by
  obtain ⟨attends, others, accounts⟩ := shared.others here
  obtain ⟨onward, -⟩ := attendsMoves lawful attends move
  have broken : Shared site ⟨s, before ++ v :: after⟩ := by
    refine sharedAgain onward others ?_ fun few => ?_
    · exact attends.onward onward
    · exact visitorMoves lawful attends (sharesServed others _) few move (accounts few)
  exact broken.leave lawful rfl tokens

theorem Shared.grow (lawful : site.Lawful) (shared : t.Shared site) (n : Nat)
    (calm : (∃ v ∈ t.visitors, v.AwaitsEnd) →
      ((site.get t.state).pool.grow n).capacity = (site.get t.state).pool.capacity) :
    Shared site ⟨site.update (·.withPool (·.grow n)) t.state, t.visitors⟩ := by
  have pool : (site.get (site.update (·.withPool (·.grow n)) t.state)).pool =
      (site.get t.state).pool.grow n := by rw [Part.update, lawful]; rfl
  by_cases still : (site.get t.state).pool.grow n = (site.get t.state).pool
  · have same : site.get (site.update (·.withPool (·.grow n)) t.state) = site.get t.state := by
      rw [Part.update, lawful, Site.withPool, still]
    refine ⟨?_, ?_⟩
    · rw [same]
      exact shared.attend
    · rw [Accounts, same]
      exact shared.accounts
  · have raised : n ≠ 0 ∧ (site.get t.state).pool.permits.closed = false := by
      rw [Pool.grow, Pool.isDisposed] at still
      by_cases stays : n = 0 ∨ (site.get t.state).pool.permits.closed = true
      · rw [if_pos (by simpa using stays)] at still
        exact absurd rfl still
      · simpa using stays
    have calm (v : Visitor W V σ α φ ρ) (member : v ∈ t.visitors) : ¬v.AwaitsEnd := by
      intro awaits
      have same := calm ⟨v, member, awaits⟩
      rw [Pool.grow, Pool.isDisposed, if_neg (by simp [raised])] at same
      have more : (site.get t.state).pool.capacity + n = (site.get t.state).pool.capacity := same
      omega
    have closed (before : (site.get t.state).pool.permits.closed = true) :
        ((site.get t.state).pool.grow n).permits.closed = true := by
      rw [raised.2] at before
      cases before
    refine ⟨fun v member => ?_, fun few => ?_⟩
    · rw [pool]
      exact (shared.attend v member).raised (calm v member) closed
    · rw [pool] at few
      have fewer : (site.get t.state).pool.capacity ≤ mostAwaited := by
        refine Nat.le_trans ?_ few
        unfold Pool.grow
        split
        · exact Nat.le_refl _
        · exact Nat.le_add_right _ _
      have same : shares ((site.get t.state).pool.grow n).capacity t.visitors =
          shares (site.get t.state).pool.capacity t.visitors :=
        List.flatMap_congr fun v member => Visitor.sharesCalm (calm v member) _ _
      rcases shared.accounts fewer with kept | drained
      · refine .inl ?_
        rw [pool, same, Part.update, lawful]
        exact Pool.Kept.grow kept n
      · rw [drained.closed] at raised
        cases raised.2

theorem Shared.step (lawful : site.Lawful) (shared : t.Shared site)
    (step : Step site of (Visiting site) t u)
    (calm : (∃ v ∈ t.visitors, v.AwaitsEnd) →
      (site.get u.state).pool.capacity = (site.get t.state).pool.capacity) : u.Shared site := by
  cases step with
  | @enter v come =>
    have arrives : v.Attends site (site.get t.state).pool ∧ v.stances = [] ∧
        ∀ size, v.shares size = [] := by
      rcases come with (rfl | ⟨plan, items, proper, rfl⟩) | rfl
      · exact ⟨trivial, rfl, fun _ => rfl⟩
      · exact ⟨proper, rfl, fun _ => rfl⟩
      · exact ⟨trivial, rfl, fun _ => rfl⟩
    refine ⟨fun w member => ?_, fun few => ?_⟩
    · rcases List.mem_append.mp member with old | new
      · exact shared.attend w old
      · rw [List.mem_singleton.mp new]
        exact arrives.1
    · rw [Accounts, shares, stances, List.flatMap_append, List.flatMap_append,
        List.flatMap_singleton, List.flatMap_singleton, arrives.2.1, arrives.2.2, List.append_nil,
        List.append_nil]
      exact shared.accounts few
  | go here move => exact shared.go lawful here move
  | breakDown here move => exact shared.breakDown lawful here move _
  | leave here => exact shared.leave lawful here _
  | grow n =>
    refine shared.grow lawful n fun awaited => ?_
    have same := calm awaited
    rwa [Part.update, lawful] at same
  | work crew stays =>
    have pool : (site.get (site.update (fun s => { s with crew }) t.state)).pool =
        (site.get t.state).pool := by rw [Part.update, lawful]
    refine ⟨fun v member => ?_, fun few => ?_⟩
    · rw [pool]
      exact shared.attend v member
    · rw [pool] at few
      rw [Accounts, pool]
      refine (shared.accounts few).imp (fun kept => ?_) fun drained => ?_
      · refine kept.more pool ?_
        rw [Part.update, lawful]
        exact stays
      · exact ⟨pool ▸ drained.closed, drained.vacant, pool ▸ drained.unseated⟩

theorem Shared.steps (lawful : site.Lawful) (shared : t.Shared site)
    (steps : Unraised site of t u) : u.Shared site := by
  induction steps with
  | refl => exact shared
  | tail _ step calm before => exact before.step lawful step calm

/-- When a disposal has come to the workers no worker is checked out, and nobody works with one. For
that the pool must not be raised while somebody waits to dispose it, and it has no more permits than
can be waited for. -/
theorem disposedUnheld {start founded t : Traffic W V σ α φ ρ} (lawful : site.Lawful)
    (nobody : start.visitors = []) {capacity : Nat}
    (fresh : (site.get start.state).pool = .ofCapacity capacity)
    (founding : Steps site of Founding start founded)
    (filled : ∀ v ∈ founded.visitors, v = .filled (.ok ()))
    (visiting : Unraised site of founded t)
    (few : (site.get t.state).pool.capacity ≤ mostAwaited)
    {call : Option (Calling W)} {rest : List Nat} {first : Option WorkerError}
    (disposes : .disposing (.disposing call rest first) ∈ t.visitors) :
    (site.get t.state).pool.checkedOut = [] ∧ t.visitors.flatMap Visitor.seats = [] := by
  have begun : start.Founded site := by
    refine .going 0 none nobody ?_
    rw [Site.Kept, fresh]
    exact Pool.freshKept capacity _
  have shared := ((begun.steps lawful founding).used filled).shared.steps lawful visiting
  have closed : (site.get t.state).pool.permits.closed = true := shared.attend _ disposes
  rcases shared.accounts few with kept | drained
  · rw [kept.counted.opened] at closed
    cases closed
  · refine ⟨drained.unseated.checkedOut, List.flatMap_eq_nil_iff.mpr fun v member => ?_⟩
    rcases Visitor.attendsCases (shared.attend v member) with serves | ⟨d, rfl, -⟩ | ⟨r, rfl⟩
    · rw [← Visitor.seatsStances serves]
      refine List.eq_nil_iff_forall_not_mem.mpr fun seat held => ?_
      have among : seat ∈ (stances t.visitors).flatMap Stance.seats := by
        obtain ⟨x, own, mine⟩ := List.mem_flatMap.mp held
        exact List.mem_flatMap.mpr ⟨x, List.mem_flatMap.mpr ⟨v, member, own⟩, mine⟩
      rw [drained.vacant.seats] at among
      cases among
    · rfl
    · rfl

def oneClosed : Traffic Unit Unit (Site Unit Unit) Unit Unit Unit where
  state :=
    { oneMade.state with
      pool := { capacity := 1, permits := { free := 1, closed := true }, tickets := 1 } }
  visitors := [.filled (.ok ())] ++ [.disposing (.disposing none [0] none)]

theorem closeOne : Unraised Part.whole (fun _ => []) oneMade oneClosed := by
  have enter : Step Part.whole (fun _ => []) (Visiting Part.whole) oneMade
      ⟨oneMade.state, [.filled (.ok ())] ++ [.disposing .asking]⟩ := .enter (.inr rfl)
  have waits := ((Unraised.refl _).tail enter fun _ => rfl).tail (.last (.head _)) fun _ => rfl
  have closed := (waits.tail (.last (.head _)) fun _ => rfl).tail (.last (.head _)) fun _ => rfl
  exact (closed.tail (.last (.head _)) fun _ => rfl).tail (.last (.head _)) fun _ => rfl

theorem disposedUnheldOne :
    oneClosed.state.pool.checkedOut = [] ∧ oneClosed.visitors.flatMap Visitor.seats = [] :=
  disposedUnheld (fun _ _ => rfl) rfl rfl makeOne (by simp [oneMade]) closeOne (by decide)
    (List.mem_cons_of_mem _ List.mem_cons_self)

def newTaken : Traffic Unit Unit (Site Unit Unit) Unit Unit Unit := ⟨oneTaken.state, [.holding 0 0]⟩

theorem takeNew : Steps Part.whole (fun _ => []) (Visiting Part.whole) untouched newTaken := by
  have enter : Step Part.whole (fun _ => []) (Visiting Part.whole) untouched
      ⟨untouched.state, [] ++ [.acquiring .asking]⟩ := .enter (.inl (.inl rfl))
  have called : Steps Part.whole (fun _ => []) (Visiting Part.whole) untouched
      { state :=
          { pool :=
              { capacity := 1, permits := { free := 0 }, leases := [{ ticket := 0, permits := 1 }]
                tickets := 1 }
            crew :=
              { seats := #[{ occupant := 0 }], made := 1, orders := [⟨0, 0, .init⟩], tokens := 1
                history := [.made 0, .called 0 .init] } }
        visitors := [] ++ [.acquiring (.creating 0 (.starting 0 (.waiting 0)))] } :=
    ((((Steps.refl _).tail enter).tail (.last (.head _))).tail (.last (.head _))).tail
      (.last (.head _)) |>.tail (.last (.head _)) |>.tail (.last (.head _))
  exact ((called.tail (.work { oneMade.state.crew with answers := [(0, .ok ())] }
    (Nat.le_refl _))).tail (.last (.head _))).tail (.last (.head _))

def raisedHeld : Traffic Unit Unit (Site Unit Unit) Unit Unit Unit where
  state :=
    { oneTaken.state with
      pool :=
        { capacity := 2, permits := { free := 1, closed := true }
          leases := [{ ticket := 0, permits := 1, seat := some 0 }], tickets := 2 } }
  visitors := [.holding 0 0] ++ [.disposing (.disposing none [0] none)]

/-- Of a pool that is raised while somebody waits to dispose it, a worker is disposed that is held. -/
theorem disposedWhileHeld :
    ¬∀ t, Steps Part.whole (fun _ => []) (Visiting Part.whole) untouched t →
      ∀ seat rest first, .disposing (.disposing none (seat :: rest) first) ∈ t.visitors →
        seat ∉ t.visitors.flatMap Visitor.seats := by
  have enter : Step Part.whole (fun _ => []) (Visiting Part.whole) newTaken
      ⟨newTaken.state, [.holding 0 0] ++ [.disposing .asking]⟩ := .enter (.inr rfl)
  have waits := (takeNew.tail enter).tail (.last (.head _))
  have closed := ((waits.tail (.grow 1)).tail (.last (.head _))).tail (.last (.head _))
  have raised : Steps Part.whole (fun _ => []) (Visiting Part.whole) untouched raisedHeld :=
    (closed.tail (.last (.head _))).tail (.last (.head _))
  intro claimed
  refine claimed _ raised 0 [] none (List.mem_cons_of_mem _ List.mem_cons_self) ?_
  exact List.mem_singleton_self 0

end Traffic

end MutationPipeline
