import MutationPipeline.Proofs.Moves
import MutationPipeline.Worker.Session

/-! What calls, renewals and repeated work come to, for someone who is alone with a crew: which calls
are made, with which outcomes, which reply follows from these, and who sits in the seat afterwards.
At any time at most one call is in flight or has just been answered. -/
namespace MutationPipeline

structure Roll (W : Type) where
  seat : Seat W
  made : Nat
  notes : List Note := []

namespace Roll
variable {W V : Type}

def note (r : Roll W) (n : Note) : Roll W := { r with notes := r.notes ++ [n] }

def remember (r : Roll W) (w : W) : Roll W := { r with seat := { r.seat with remembered := some w } }

def replaced (r : Roll W) : Roll W :=
  { r with seat := { r.seat with occupant := r.made }, made := r.made + 1 }

def relieved (label : String) (outcome : Outcome V) (r : Roll W) : Roll W :=
  match outcome with
  | .failed e => r.replaced.note (Renewal.staleNote label e)
  | _ => r.replaced

end Roll

def Outcome.reply? {V : Type} : Outcome V → Option (Except WorkerError V)
  | .ok v => some (.ok v)
  | .failed e => some (.error e)
  | .panicked => none

def Event.call? {W : Type} : Event W → Option (Nat × Call W)
  | .made _ => none
  | .called worker call => some (worker, call)

def Exchange.begun {W V : Type} (x : Exchange W V) : Nat × Call W := (x.worker, x.call)

def Order.begun {W : Type} (o : Order W) : Nat × Call W := (o.worker, o.call)

namespace Crew
variable {W V : Type} {place : Nat} {r : Roll W} {log : List (Exchange W V)} {o : Order W}
  {c : Crew W V}

structure Shows (place : Nat) (r : Roll W) (log : List (Exchange W V)) (flying : List (Order W))
    (landed : List (Nat × Outcome V)) (c : Crew W V) : Prop where
  seat : c.seats[place]? = some r.seat
  made : c.made = r.made
  notes : c.notes = r.notes
  orders : c.orders = flying
  answers : c.answers = landed
  calls : c.history.filterMap Event.call? = log.map Exchange.begun ++ flying.map Order.begun

theorem Shows.occupant (shows : c.Shows place r log [] []) : c.occupant place = r.seat.occupant := by
  rw [Crew.occupant, shows.seat]

theorem Shows.remembered (shows : c.Shows place r log [] []) :
    c.remembered place = r.seat.remembered := by
  rw [Crew.remembered, shows.seat, Option.bind_some]

theorem Shows.note (shows : c.Shows place r log [] []) (n : Note) :
    (c.note n).Shows place (r.note n) log [] [] :=
  { shows with notes := congrArg (· ++ [n]) shows.notes }

theorem Shows.remember (shows : c.Shows place r log [] []) (w : W) :
    (c.remember place w).Shows place (r.remember w) log [] [] :=
  { shows with
    seat := by
      rw [Crew.remember, Array.getElem?_modify, if_pos rfl, shows.seat]
      rfl }

theorem Shows.replace (shows : c.Shows place r log [] []) :
    (c.replace place).1.Shows place r.replaced log [] [] ∧
      (c.replace place).2 = (r.seat.occupant, r.made) := by
  refine ⟨{ shows with seat := ?_, made := ?_, calls := ?_ }, ?_⟩
  · have here : (c.replace place).1.seats[place]? =
        c.seats[place]?.map fun s => { s with occupant := c.made } := by
      simp [Crew.replace, Crew.make, Array.getElem?_modify]
    rw [here, shows.seat, shows.made]
    rfl
  · exact congrArg (· + 1) shows.made
  · have same : (c.replace place).1.history = c.history ++ [.made c.made] := rfl
    rw [same, List.filterMap_append, shows.calls]
    exact List.append_nil _
  · exact Prod.ext shows.occupant shows.made

theorem Shows.start (shows : c.Shows place r log [] []) (worker : Nat) (call : Call W) :
    (c.start worker call).1.Shows place r log [⟨c.tokens, worker, call⟩] [] := by
  refine { shows with orders := ?_, calls := ?_ }
  · exact congrArg (· ++ [⟨c.tokens, worker, call⟩]) shows.orders
  · have same : (c.start worker call).1.history = c.history ++ [.called worker call] := rfl
    rw [same, List.filterMap_append, shows.calls, List.map_nil, List.append_nil]
    rfl

theorem Shows.answer (shows : c.Shows place r log [o] []) (outcome : Outcome V) :
    (c.answer o.token outcome).Shows place r (log ++ [⟨o.worker, o.call, outcome⟩]) []
      [(o.token, outcome)] := by
  refine { shows with orders := ?_, answers := ?_, calls := ?_ }
  · rw [Crew.answer, shows.orders]
    simp
  · rw [Crew.answer, shows.answers]
    rfl
  · have calls := shows.calls
    rwa [List.map_append, List.append_assoc]

theorem Shows.abandon {token : Nat} {outcome : Outcome V}
    (shows : c.Shows place r log [] [(token, outcome)]) :
    (c.abandon token).Shows place r log [] [] := by
  refine { shows with orders := ?_, answers := ?_ }
  · rw [Crew.abandon, shows.orders]
    rfl
  · rw [Crew.abandon, shows.answers]
    simp

end Crew

def Next.Leads {σ φ ρ : Type} (go : φ → σ → Prop) (ends : Option ρ → σ → Prop) (s : σ) :
    Next φ ρ → Prop
  | .go p => go p s
  | .done r => ends (some r) s
  | .panicked => ends none s

theorem Machine.withinLeads {σ φ φ' ρ ρ' : Type} {m : Machine σ φ ρ} {p : φ} {s s' : σ}
    {embed : φ → φ'} {after : ρ → σ → σ × Next φ' ρ'} {n : Next φ' ρ'}
    {go : φ → σ → Prop} {ends : Option ρ → σ → Prop} {go' : φ' → σ → Prop}
    {ends' : Option ρ' → σ → Prop} (move : (s', n) ∈ m.within embed after p s)
    (inner : ∀ u o, (u, o) ∈ m p s → o.Leads go ends u)
    (goes : ∀ q u, go q u → go' (embed q) u)
    (results : ∀ r u, ends (some r) u → (after r u).2.Leads go' ends' (after r u).1)
    (breaks : ∀ u, ends none u → ends' none u) : n.Leads go' ends' s' := by
  rcases withinCases move with ⟨q, moved, rfl⟩ | ⟨u, r, moved, same⟩ | ⟨moved, rfl⟩
  · exact goes q s' (inner _ _ moved)
  · have led := results r u (inner _ _ moved)
    rwa [← same] at led
  · exact breaks s' (inner _ _ moved)

theorem Machine.withinLeadsLast {σ φ φ' ρ ρ' : Type} {m : Machine σ φ ρ} {p : φ} {s s' : σ}
    {embed : φ → φ'} {f : ρ → ρ'} {n : Next φ' ρ'} {go : φ → σ → Prop} {ends : Option ρ → σ → Prop}
    {go' : φ' → σ → Prop} {ends' : Option ρ' → σ → Prop}
    (move : (s', n) ∈ m.within embed (fun r s => (s, .done (f r))) p s)
    (inner : ∀ u o, (u, o) ∈ m p s → o.Leads go ends u)
    (goes : ∀ q u, go q u → go' (embed q) u)
    (last : ∀ r u, ends r u → ends' (r.map f) u) : n.Leads go' ends' s' :=
  withinLeads move inner goes (fun r u => last (some r) u) (last none)

theorem Machine.withinLeadsSame {σ φ φ' ρ : Type} {m : Machine σ φ ρ} {p : φ} {s s' : σ}
    {embed : φ → φ'} {n : Next φ' ρ} {go : φ → σ → Prop} {go' : φ' → σ → Prop}
    {ends ends' : Option ρ → σ → Prop}
    (move : (s', n) ∈ m.within embed (fun r s => (s, .done r)) p s)
    (inner : ∀ u o, (u, o) ∈ m p s → o.Leads go ends u)
    (goes : ∀ q u, go q u → go' (embed q) u)
    (last : ∀ r u, ends r u → ends' r u) : n.Leads go' ends' s' :=
  withinLeads move inner goes (fun r u => last (some r) u) (last none)

structure Manned {W V : Type} (log : List (Exchange W V)) (r : Roll W) : Prop where
  seated : r.seat.occupant < r.made
  known : ∀ x ∈ log, x.worker < r.made
  kept : ∀ x ∈ log, x.call = .dispose → x.worker ≠ r.seat.occupant

theorem firstManned {W V : Type} : Manned ([] : List (Exchange W V)) ⟨⟨0, none⟩, 1, []⟩ :=
  ⟨Nat.zero_lt_one, List.forall_mem_nil _, List.forall_mem_nil _⟩

theorem Manned.add {W V : Type} {log : List (Exchange W V)} {r : Roll W} {x : Exchange W V}
    (manned : Manned log r) (own : x.worker = r.seat.occupant) (other : x.call ≠ .dispose) :
    Manned (log ++ [x]) r where
  seated := manned.seated
  known := by
    intro z member
    rcases List.mem_append.mp member with before | last
    · exact manned.known z before
    · rw [List.mem_singleton.mp last, own]
      exact manned.seated
  kept := by
    intro z member disposed
    rcases List.mem_append.mp member with before | last
    · exact manned.kept z before disposed
    · rw [List.mem_singleton.mp last] at disposed
      exact (other disposed).elim

def Started {W V : Type} (log : List (Exchange W V)) (worker : Nat) : Prop :=
  ∃ v, ⟨worker, .init, .ok v⟩ ∈ log

theorem Started.left {W V : Type} {log : List (Exchange W V)} {worker : Nat}
    (started : Started log worker) (more : List (Exchange W V)) : Started (log ++ more) worker := by
  obtain ⟨v, member⟩ := started
  exact ⟨v, List.mem_append_left _ member⟩

theorem Started.right {W V : Type} {log : List (Exchange W V)} {worker : Nat}
    (started : Started log worker) (before : List (Exchange W V)) :
    Started (before ++ log) worker := by
  obtain ⟨v, member⟩ := started
  exact ⟨v, List.mem_append_right _ member⟩

def plain {ρ : Type} (reply : Option (Except WorkerError ρ)) : Option (Except WorkerError Unit) :=
  reply.map (·.map fun _ => ())

def Closes {W V ρ : Type} (reply : Option (Except WorkerError ρ)) (own : List (Exchange W V)) : Prop :=
  ∃ front x, own = front ++ [x] ∧ plain x.outcome.reply? = plain reply

theorem Closes.failed {W V ρ : Type} {reply : Option (Except WorkerError ρ)}
    {front : List (Exchange W V)} {x : Exchange W V} {e : WorkerError}
    (closes : Closes reply (front ++ [x])) (failed : x.outcome = .failed e) :
    reply = some (.error e) := by
  obtain ⟨others, y, whole, same⟩ := closes
  cases (List.append_inj' whole rfl).2
  rw [failed] at same
  match reply, same with
  | some (.error _), same =>
    cases same
    rfl

theorem Closes.cause {W V ρ : Type} {own : List (Exchange W V)} {e : WorkerError}
    (closes : Closes (some (.error e : Except WorkerError ρ)) own) :
    ∃ front x, own = front ++ [x] ∧ x.outcome = .failed e := by
  obtain ⟨front, x, whole, same⟩ := closes
  refine ⟨front, x, whole, ?_⟩
  match x.outcome, same with
  | .failed _, same =>
    cases same
    rfl

def Exchange.isWork {W V : Type} (x : Exchange W V) : Bool :=
  match x.call with
  | .work _ => true
  | _ => false

section Courses
variable {W V : Type} {place worker : Nat} {order : Call W} {r : Roll W}
  {log now : List (Exchange W V)} {o : Order W} {c u : Crew W V}

namespace Calling
variable {call : Calling W}

def Stands (place : Nat) (r : Roll W) (worker : Nat) (order : Call W) (log : List (Exchange W V)) :
    Calling W → List (Exchange W V) → Crew W V → Prop
  | .ready w k, now, c => w = worker ∧ k = order ∧ now = log ∧ c.Shows place r log [] []
  | .waiting token, now, c =>
    (now = log ∧ c.Shows place r log [⟨token, worker, order⟩] []) ∨
    ∃ y, now = log ++ [⟨worker, order, y⟩] ∧ c.Shows place r now [] [(token, y)]

def Ended (place : Nat) (r : Roll W) (worker : Nat) (order : Call W) (log now : List (Exchange W V))
    (reply : Option (Except WorkerError V)) (c : Crew W V) : Prop :=
  ∃ y, y.reply? = reply ∧ now = log ++ [⟨worker, order, y⟩] ∧ c.Shows place r now [] []

theorem movesStand (stands : call.Stands place r worker order log now c)
    {n : Next (Calling W) (Except WorkerError V)} (move : (u, n) ∈ Calling.moves call c) :
    n.Leads (fun q => q.Stands place r worker order log now)
      (Ended place r worker order log now) u := by
  cases call with
  | ready w k =>
    obtain ⟨rfl, rfl, rfl, shows⟩ := stands
    obtain ⟨rfl, rfl⟩ := memStep.mp move
    exact .inl ⟨rfl, shows.start _ _⟩
  | waiting token =>
    rcases stands with ⟨-, shows⟩ | ⟨y, whole, shows⟩
    · simp only [Calling.moves, shows.answers, List.lookup_nil] at move
      cases move
    · simp only [Calling.moves, shows.answers, List.lookup_cons_self] at move
      cases y with
      | ok v =>
        obtain ⟨rfl, rfl⟩ := memFinish.mp move
        exact ⟨.ok v, rfl, whole, shows.abandon⟩
      | failed e =>
        obtain ⟨rfl, rfl⟩ := memFinish.mp move
        exact ⟨.failed e, rfl, whole, shows.abandon⟩
      | panicked =>
        cases List.mem_singleton.mp move
        exact ⟨.panicked, rfl, whole, shows.abandon⟩

theorem flies (stands : call.Stands place r worker order log now c) (waits : o ∈ c.orders) :
    o.worker = worker ∧ o.call = order ∧ now = log ∧ c.Shows place r now [o] [] := by
  cases call with
  | ready w k =>
    rw [stands.2.2.2.orders] at waits
    cases waits
  | waiting token =>
    rcases stands with ⟨rfl, shows⟩ | ⟨y, -, shows⟩
    · rw [shows.orders] at waits
      cases List.mem_singleton.mp waits
      exact ⟨rfl, rfl, rfl, shows⟩
    · rw [shows.orders] at waits
      cases waits

theorem answerStands (stands : call.Stands place r worker order log now c) (waits : o ∈ c.orders)
    (y : Outcome V) : call.Stands place r worker order log (now ++ [⟨o.worker, o.call, y⟩])
      (c.answer o.token y) := by
  cases call with
  | ready w k =>
    rw [stands.2.2.2.orders] at waits
    cases waits
  | waiting token =>
    rcases stands with ⟨rfl, shows⟩ | ⟨_, -, shows⟩
    · rw [shows.orders] at waits
      cases List.mem_singleton.mp waits
      exact .inr ⟨y, rfl, shows.answer y⟩
    · rw [shows.orders] at waits
      cases waits

end Calling

namespace Renewal
variable {label : String} {p : Renewal W}

inductive Course (label : String) (r : Roll W) :
    Option (Except WorkerError Unit) → List (Exchange W V) → Roll W → Prop where
  | stuck : Course label r none [⟨r.seat.occupant, .dispose, .panicked⟩] r.replaced
  | started {reply} {y z : Outcome V} (calm : y ≠ .panicked)
      (same : z.reply?.map (·.map fun _ => ()) = reply) :
      Course label r reply [⟨r.seat.occupant, .dispose, y⟩, ⟨r.made, .init, z⟩] (r.relieved label y)

def Stands (label : String) (place : Nat) (r : Roll W) (log : List (Exchange W V)) :
    Renewal W → List (Exchange W V) → Crew W V → Prop
  | .replacing, now, c => now = log ∧ c.Shows place r log [] []
  | .disposing fresh call, now, c =>
    fresh = r.made ∧ call.Stands place r.replaced r.seat.occupant .dispose log now c
  | .starting call, now, c => ∃ y, y ≠ .panicked ∧
    call.Stands place (r.relieved label y) r.made .init
      (log ++ [⟨r.seat.occupant, .dispose, y⟩]) now c

def Ended (label : String) (place : Nat) (r : Roll W) (log now : List (Exchange W V))
    (reply : Option (Except WorkerError Unit)) (c : Crew W V) : Prop :=
  ∃ own r', now = log ++ own ∧ Course label r reply own r' ∧ c.Shows place r' now [] []

theorem movesStand (stands : p.Stands label place r log now c)
    {n : Next (Renewal W) (Except WorkerError Unit)} (move : (u, n) ∈ Renewal.moves label place p c) :
    n.Leads (fun q => q.Stands label place r log now) (Ended label place r log now) u := by
  cases p with
  | replacing =>
    obtain ⟨rfl, shows⟩ := stands
    obtain ⟨rfl, rfl⟩ := memStep.mp move
    obtain ⟨shows, pair⟩ := shows.replace
    obtain ⟨stale, fresh⟩ := Prod.mk.inj pair
    exact ⟨fresh, stale, rfl, rfl, shows⟩
  | disposing fresh call =>
    obtain ⟨rfl, stands⟩ := stands
    refine Machine.withinLeads move (fun _ _ => Calling.movesStand stands) (fun q u here => ⟨rfl, here⟩) ?_ ?_
    · rintro res u ⟨y, same, rfl, shows⟩
      cases y with
      | ok v =>
        cases same
        exact ⟨.ok v, nofun, rfl, rfl, rfl, shows⟩
      | failed e =>
        cases same
        exact ⟨.failed e, nofun, rfl, rfl, rfl, shows.note _⟩
      | panicked => cases same
    · rintro u ⟨y, same, rfl, shows⟩
      cases y <;> cases same
      exact ⟨_, _, rfl, .stuck, shows⟩
  | starting call =>
    obtain ⟨y, calm, stands⟩ := stands
    refine Machine.withinLeadsLast move (fun _ _ => Calling.movesStand stands)
      (fun q u here => ⟨y, calm, here⟩) ?_
    rintro res u ⟨z, same, rfl, shows⟩
    exact ⟨_, _, List.append_assoc _ _ _, .started calm (congrArg _ same), shows⟩

theorem answerStands (stands : p.Stands label place r log now c) (waits : o ∈ c.orders)
    (y : Outcome V) :
    p.Stands label place r log (now ++ [⟨o.worker, o.call, y⟩]) (c.answer o.token y) := by
  cases p with
  | replacing =>
    rw [stands.2.orders] at waits
    cases waits
  | disposing fresh call => exact ⟨stands.1, Calling.answerStands stands.2 waits y⟩
  | starting call =>
    obtain ⟨z, calm, stands⟩ := stands
    exact ⟨z, calm, Calling.answerStands stands waits y⟩

theorem idle (stands : p.Stands label place r log now c) (waits : o ∈ c.orders) (w : W) :
    o.call ≠ .work w := by
  cases p with
  | replacing =>
    rw [stands.2.orders] at waits
    cases waits
  | disposing fresh call =>
    rw [(Calling.flies stands.2 waits).2.1]
    nofun
  | starting call =>
    obtain ⟨z, -, stands⟩ := stands
    rw [(Calling.flies stands waits).2.1]
    nofun

section Course
variable {reply : Option (Except WorkerError Unit)} {own : List (Exchange W V)} {r' : Roll W}

theorem Course.fresh (course : Course label r reply own r') :
    r'.seat = { r.seat with occupant := r.made } ∧ r'.made = r.made + 1 := by
  cases course with
  | stuck => exact ⟨rfl, rfl⟩
  | @started _ y => cases y <;> exact ⟨rfl, rfl⟩

theorem Course.unstarted {e : WorkerError} (course : Course label r (some (.error e)) own r') :
    ∃ y, own = [⟨r.seat.occupant, .dispose, y⟩, ⟨r.made, .init, .failed e⟩] := by
  cases course with
  | @started _ y z _ same =>
    cases z <;> cases same
    exact ⟨y, rfl⟩

theorem Course.isStarted (course : Course label r (some (.ok ())) own r') :
    Started own r'.seat.occupant := by
  rw [course.fresh.1]
  cases course with
  | @started _ y z _ same =>
    cases z with
    | ok v => exact ⟨v, List.mem_cons_of_mem _ List.mem_cons_self⟩
    | _ => cases same

theorem Course.closes (course : Course label r reply own r') : Closes reply own := by
  cases course with
  | stuck => exact ⟨[], _, rfl, rfl⟩
  | @started _ y z _ same =>
    refine ⟨[⟨r.seat.occupant, .dispose, y⟩], _, rfl, ?_⟩
    rw [← same]
    cases z <;> rfl

theorem Course.life (course : Course label r reply own r') {x : Exchange W V} (member : x ∈ own)
    (w : W) : x.call ≠ .work w := by
  have life : ∀ x ∈ own, x.call = .dispose ∨ x.call = .init := by
    cases course <;> simp
  rcases life x member with same | same <;> rw [same] <;> nofun

theorem Course.attempts (course : Course label r reply own r') :
    own.countP Exchange.isWork = 0 := by
  cases course <;> rfl

theorem Course.manned (course : Course label r reply own r') (manned : Manned log r) :
    Manned (log ++ own) r' := by
  obtain ⟨seat, made⟩ := course.fresh
  have workers : ∀ x ∈ own, x.worker = r.seat.occupant ∨ x.worker = r.made ∧ x.call = .init := by
    cases course <;> simp
  refine ⟨?_, fun x member => ?_, fun x member disposed => ?_⟩
  · rw [seat, made]
    exact Nat.lt_succ_self _
  · rw [made]
    rcases List.mem_append.mp member with before | new
    · exact Nat.lt_succ_of_lt (manned.known x before)
    · rcases workers x new with stale | ⟨fresh, -⟩
      · exact stale ▸ Nat.lt_succ_of_lt manned.seated
      · exact fresh ▸ Nat.lt_succ_self _
  · -- Workers are numbered as they are made, so no call was made to the fresh one before.
    rw [seat]
    rcases List.mem_append.mp member with before | new
    · exact Nat.ne_of_lt (manned.known x before)
    · rcases workers x new with stale | ⟨-, started⟩
      · exact stale ▸ Nat.ne_of_lt manned.seated
      · rw [started] at disposed
        cases disposed

end Course

end Renewal

/-- Of the calls so far and of who sits in the seat: kept by a call to who sits there, unless it is
disposed, by notes, and when it is replaced. -/
structure Lasting (P : List (Exchange W V) → Roll W → Prop) : Prop where
  add : ∀ {log r x}, P log r → x.worker = r.seat.occupant → x.call ≠ .dispose → P (log ++ [x]) r
  note : ∀ {log r} n, P log r → P log (r.note n)
  renewal : ∀ {label log r reply own r'}, P log r → Renewal.Course label r reply own r' →
    P (log ++ own) r'

theorem mannedLasts : Lasting (Manned (W := W) (V := V)) where
  add manned own other := manned.add own other
  note _ manned := ⟨manned.seated, manned.known, manned.kept⟩
  renewal manned course := course.manned manned

namespace Recovery
variable {job : Job W} {p : Recovery W} {P : List (Exchange W V) → Roll W → Prop}

inductive Renewed (job : Job W) (r : Roll W) (reply : Option (Except WorkerError Unit)) :
    List (Exchange W V) → Roll W → Prop where
  | died {e n own r'} (death : crashNote? job.label e = some n)
      (renewal : Renewal.Course job.label (r.note n) reply own r') :
      Renewed job r reply (⟨r.seat.occupant, .work job.work, .failed e⟩ :: own) r'

inductive Restored (job : Job W) (r : Roll W) : List (Exchange W V) → Roll W → Prop where
  | none {own r'} (none : job.restore = none) (renewed : Renewed job r (some (.ok ())) own r') :
      Restored job r own r'
  | told {w v own r'} (some : job.restore = some w) (renewed : Renewed job r (.some (.ok ())) own r') :
      Restored job r (own ++ [⟨r'.seat.occupant, .work w, .ok v⟩]) r'

inductive Course (job : Job W) (r : Roll W) :
    Option (Except WorkerError V) → List (Exchange W V) → Roll W → Prop where
  | once {reply y} (last : ∀ e, y = .failed e → crashNote? job.label e = none)
      (same : y.reply? = reply) : Course job r reply [⟨r.seat.occupant, .work job.work, y⟩] r
  | stuck {own r'} (renewed : Renewed job r none own r') : Course job r none own r'
  | unrenewed {e own r'} (renewed : Renewed job r (some (.error e)) own r') :
      Course job r (some (.error e)) own r'
  | untold {reply w y own r'} (some : job.restore = some w)
      (renewed : Renewed job r (.some (.ok ())) own r') (failed : ∀ v, y ≠ .ok v)
      (same : y.reply? = reply) : Course job r reply (own ++ [⟨r'.seat.occupant, .work w, y⟩]) r'
  | twice {reply y own r'} (restored : Restored job r own r') (same : y.reply? = reply) :
      Course job r reply (own ++ [⟨r'.seat.occupant, .work job.work, y⟩]) r'

def Stands (job : Job W) (r : Roll W) (log : List (Exchange W V)) :
    Recovery W → List (Exchange W V) → Crew W V → Prop
  | .first call, now, c => call.Stands job.seat r r.seat.occupant (.work job.work) log now c
  | .renewing p, now, c => ∃ e n, crashNote? job.label e = some n ∧
    p.Stands job.label job.seat (r.note n)
      (log ++ [⟨r.seat.occupant, .work job.work, .failed e⟩]) now c
  | .restoring fresh call, now, c => ∃ w own r', job.restore = some w ∧
    Renewed job r (some (.ok ())) own r' ∧ fresh = r'.seat.occupant ∧
    call.Stands job.seat r' fresh (.work w) (log ++ own) now c
  | .second call, now, c => ∃ own r', Restored job r own r' ∧
    call.Stands job.seat r' r'.seat.occupant (.work job.work) (log ++ own) now c

def Ended (job : Job W) (r : Roll W) (log now : List (Exchange W V))
    (reply : Option (Except WorkerError V)) (c : Crew W V) : Prop :=
  ∃ own r', now = log ++ own ∧ Course job r reply own r' ∧ c.Shows job.seat r' now [] []

theorem movesStand (stands : p.Stands job r log now c)
    {n : Next (Recovery W) (Except WorkerError V)} (move : (u, n) ∈ Recovery.moves job p c) :
    n.Leads (fun q => q.Stands job r log now) (Ended job r log now) u := by
  cases p with
  | first call =>
    refine Machine.withinLeads move (fun _ _ => Calling.movesStand stands) (fun q u here => here) ?_ ?_
    · rintro res u ⟨y, same, rfl, shows⟩
      cases y with
      | ok v =>
        cases same
        exact ⟨_, r, rfl, .once nofun rfl, shows⟩
      | failed e =>
        cases same
        simp only
        split
        · next n death => exact ⟨e, n, death, rfl, shows.note n⟩
        · next calm =>
          refine ⟨_, r, rfl, .once (fun e' same => ?_) rfl, shows⟩
          cases same
          exact calm
      | panicked => cases same
    · rintro u ⟨y, same, rfl, shows⟩
      cases y <;> cases same
      exact ⟨_, r, rfl, .once nofun rfl, shows⟩
  | renewing p =>
    -- The renewal stands after the note about the death and after the call that died.
    obtain ⟨e, n, death, stands⟩ := stands
    refine Machine.withinLeads move (fun _ _ => Renewal.movesStand stands)
      (fun q u here => ⟨e, n, death, here⟩) ?_ ?_
    · rintro res u ⟨own, r', rfl, renewal, shows⟩
      cases res with
      | ok x =>
        simp only
        rw [shows.occupant]
        rw [List.append_assoc] at shows
        split
        · next w restore =>
          exact ⟨w, _, r', restore, .died death renewal, rfl, rfl, rfl, List.append_assoc _ _ _, shows⟩
        · next restore =>
          exact ⟨_, r', .none restore (.died death renewal), rfl, rfl, List.append_assoc _ _ _, shows⟩
      | error e' =>
        exact ⟨_, r', List.append_assoc _ _ _, .unrenewed (.died death renewal), shows⟩
    · rintro u ⟨own, r', rfl, renewal, shows⟩
      exact ⟨_, r', List.append_assoc _ _ _, .stuck (.died death renewal), shows⟩
  | restoring fresh call =>
    obtain ⟨w, own, r', restore, renewed, rfl, stands⟩ := stands
    refine Machine.withinLeads move (fun _ _ => Calling.movesStand stands)
      (fun q u here => ⟨w, own, r', restore, renewed, rfl, here⟩) ?_ ?_
    · rintro res u ⟨y, same, rfl, shows⟩
      cases y with
      | ok v =>
        cases same
        rw [List.append_assoc] at shows
        exact ⟨_, r', .told restore renewed, rfl, rfl, List.append_assoc _ _ _, shows⟩
      | failed e =>
        cases same
        exact ⟨_, r', List.append_assoc _ _ _, .untold restore renewed nofun rfl, shows⟩
      | panicked => cases same
    · rintro u ⟨y, same, rfl, shows⟩
      cases y <;> cases same
      exact ⟨_, r', List.append_assoc _ _ _, .untold restore renewed nofun rfl, shows⟩
  | second call =>
    obtain ⟨own, r', restored, stands⟩ := stands
    refine Machine.withinLeadsSame move (fun _ _ => Calling.movesStand stands)
      (fun q u here => ⟨own, r', restored, here⟩) ?_
    rintro res u ⟨y, same, rfl, shows⟩
    exact ⟨_, r', List.append_assoc _ _ _, .twice restored same, shows⟩

theorem answerStands (stands : p.Stands job r log now c) (waits : o ∈ c.orders) (y : Outcome V) :
    p.Stands job r log (now ++ [⟨o.worker, o.call, y⟩]) (c.answer o.token y) := by
  cases p with
  | first call => exact Calling.answerStands stands waits y
  | renewing p =>
    obtain ⟨e, n, death, stands⟩ := stands
    exact ⟨e, n, death, Renewal.answerStands stands waits y⟩
  | restoring fresh call =>
    obtain ⟨w, own, r', restore, renewed, here, stands⟩ := stands
    exact ⟨w, own, r', restore, renewed, here, Calling.answerStands stands waits y⟩
  | second call =>
    obtain ⟨own, r', restored, stands⟩ := stands
    exact ⟨own, r', restored, Calling.answerStands stands waits y⟩

inductive Asked (job : Job W) (r : Roll W) : W → List (Exchange W V) → Roll W → Prop where
  | first : Asked job r job.work [] r
  | restoring {w own r'} (some : job.restore = some w)
      (renewed : Renewed job r (.some (.ok ())) own r') : Asked job r w own r'
  | second {own r'} (restored : Restored job r own r') : Asked job r job.work own r'

theorem flies {w : W} (stands : p.Stands job r log now c) (waits : o ∈ c.orders)
    (work : o.call = .work w) : ∃ own r', now = log ++ own ∧ Asked job r w own r' ∧
      o.worker = r'.seat.occupant ∧ c.Shows job.seat r' now [o] [] := by
  cases p with
  | first call =>
    obtain ⟨worker, call, rfl, shows⟩ := Calling.flies stands waits
    cases work.symm.trans call
    exact ⟨[], r, (List.append_nil _).symm, .first, worker, shows⟩
  | renewing p =>
    obtain ⟨e, n, -, stands⟩ := stands
    exact (Renewal.idle stands waits w work).elim
  | restoring fresh call =>
    obtain ⟨w', own, r', some, renewed, rfl, stands⟩ := stands
    obtain ⟨worker, call, rfl, shows⟩ := Calling.flies stands waits
    cases work.symm.trans call
    exact ⟨own, r', rfl, .restoring some renewed, worker, shows⟩
  | second call =>
    obtain ⟨own, r', restored, stands⟩ := stands
    obtain ⟨worker, call, rfl, shows⟩ := Calling.flies stands waits
    cases work.symm.trans call
    exact ⟨own, r', rfl, .second restored, worker, shows⟩

section Course
variable {own : List (Exchange W V)} {r' : Roll W}

theorem Renewed.fresh {reply : Option (Except WorkerError Unit)}
    (renewed : Renewed job r reply own r') :
    r'.seat = { r.seat with occupant := r.made } ∧ r'.made = r.made + 1 := by
  cases renewed with
  | died _ renewal => exact renewal.fresh

theorem Renewed.isStarted (renewed : Renewed job r (some (.ok ())) own r') :
    Started own r'.seat.occupant := by
  cases renewed with
  | died _ renewal => exact renewal.isStarted.right [_]

theorem Renewed.unstarted {e : WorkerError} (renewed : Renewed job r (some (.error e)) own r') :
    ⟨r'.seat.occupant, .init, .failed e⟩ ∈ own := by
  cases renewed with
  | died _ renewal =>
    rw [renewal.fresh.1]
    obtain ⟨y, rfl⟩ := renewal.unstarted
    simp

theorem Renewed.closes {reply : Option (Except WorkerError Unit)}
    (renewed : Renewed job r reply own r') : Closes reply own := by
  cases renewed with
  | died _ renewal =>
    obtain ⟨front, x, rfl, same⟩ := renewal.closes
    exact ⟨_ :: front, x, rfl, same⟩

theorem Renewed.lasts {reply : Option (Except WorkerError Unit)}
    (renewed : Renewed job r reply own r') (lasting : Lasting P) (before : P log r) :
    P (log ++ own) r' := by
  cases renewed with
  | @died e n own r' _ renewal =>
    have died : P (log ++ [⟨r.seat.occupant, .work job.work, .failed e⟩]) r :=
      lasting.add before rfl nofun
    rw [← List.singleton_append, ← List.append_assoc]
    exact lasting.renewal (lasting.note n died) renewal

theorem Restored.fresh (restored : Restored job r own r') :
    r'.seat = { r.seat with occupant := r.made } ∧ r'.made = r.made + 1 := by
  cases restored with
  | none _ renewed => exact renewed.fresh
  | told _ renewed => exact renewed.fresh

theorem Restored.died (restored : Restored job r own r') :
    ∃ e rest, own = ⟨r.seat.occupant, .work job.work, .failed e⟩ :: rest := by
  cases restored with
  | none _ renewed =>
    cases renewed with
    | died => exact ⟨_, _, rfl⟩
  | told _ renewed =>
    cases renewed with
    | died => exact ⟨_, _, rfl⟩

theorem Restored.isStarted (restored : Restored job r own r') :
    Started own r'.seat.occupant := by
  cases restored with
  | none _ renewed => exact renewed.isStarted
  | told _ renewed => exact renewed.isStarted.left _

theorem Asked.isStarted {w : W} (asked : Asked job r w own r') :
    r' = r ∨ Started own r'.seat.occupant := by
  cases asked with
  | first => exact .inl rfl
  | restoring _ renewed => exact .inr renewed.isStarted
  | second restored => exact .inr restored.isStarted

theorem Restored.lasts (restored : Restored job r own r') (lasting : Lasting P)
    (before : P log r) : P (log ++ own) r' := by
  cases restored with
  | none _ renewed => exact renewed.lasts lasting before
  | told _ renewed =>
    rw [← List.append_assoc]
    exact lasting.add (renewed.lasts lasting before) rfl nofun

theorem Asked.manned {w : W} (asked : Asked job r w own r') (manned : Manned log r) :
    Manned (log ++ own) r' := by
  cases asked with
  | first => rwa [List.append_nil]
  | restoring _ renewed => exact renewed.lasts mannedLasts manned
  | second restored => exact restored.lasts mannedLasts manned

theorem Renewed.calls {reply : Option (Except WorkerError Unit)}
    (renewed : Renewed job r reply own r') {x : Exchange W V} (member : x ∈ own) {w : W}
    (asked : x.call = .work w) : w = job.work := by
  cases renewed with
  | died _ renewal =>
    rcases List.mem_cons.mp member with rfl | later
    · cases asked
      rfl
    · exact (renewal.life later w asked).elim

theorem Renewed.attempts {reply : Option (Except WorkerError Unit)}
    (renewed : Renewed job r reply own r') : own.countP Exchange.isWork = 1 := by
  cases renewed with
  | died _ renewal =>
    rw [List.countP_cons, renewal.attempts]
    rfl

theorem Restored.calls (restored : Restored job r own r') {x : Exchange W V} (member : x ∈ own)
    {w : W} (asked : x.call = .work w) : w = job.work ∨ job.restore = some w := by
  cases restored with
  | none _ renewed => exact .inl (renewed.calls member asked)
  | told some renewed =>
    rcases List.mem_append.mp member with before | last
    · exact .inl (renewed.calls before asked)
    · cases List.mem_singleton.mp last
      cases asked
      exact .inr some

variable {reply : Option (Except WorkerError V)}

theorem Course.calls (course : Course job r reply own r') {x : Exchange W V} (member : x ∈ own)
    {w : W} (asked : x.call = .work w) : w = job.work ∨ job.restore = some w := by
  cases course with
  | once =>
    cases List.mem_singleton.mp member
    cases asked
    exact .inl rfl
  | stuck renewed => exact .inl (renewed.calls member asked)
  | unrenewed renewed => exact .inl (renewed.calls member asked)
  | untold some renewed =>
    rcases List.mem_append.mp member with before | last
    · exact .inl (renewed.calls before asked)
    · cases List.mem_singleton.mp last
      cases asked
      exact .inr some
  | twice restored =>
    rcases List.mem_append.mp member with before | last
    · exact restored.calls before asked
    · cases List.mem_singleton.mp last
      cases asked
      exact .inl rfl

theorem Course.remembered (course : Course job r reply own r') :
    r'.seat.remembered = r.seat.remembered := by
  cases course with
  | once => rfl
  | stuck renewed => rw [renewed.fresh.1]
  | unrenewed renewed => rw [renewed.fresh.1]
  | untold _ renewed => rw [renewed.fresh.1]
  | twice restored => rw [restored.fresh.1]

theorem Course.seated (course : Course job r reply own r') : r' = r ∨
    Started own r'.seat.occupant ∨ reply = none ∨
    ∃ e, reply = some (.error e) ∧ ⟨r'.seat.occupant, .init, .failed e⟩ ∈ own := by
  cases course with
  | once => exact .inl rfl
  | stuck => exact .inr (.inr (.inl rfl))
  | unrenewed renewed => exact .inr (.inr (.inr ⟨_, rfl, renewed.unstarted⟩))
  | untold _ renewed => exact .inr (.inl (renewed.isStarted.left _))
  | twice restored => exact .inr (.inl (restored.isStarted.left _))

theorem Course.attempts (course : Course job r reply own r') (plain : job.restore = none) :
    own.countP Exchange.isWork ≤ 2 := by
  cases course with
  | once => exact Nat.le_succ _
  | stuck renewed => exact Nat.le_succ_of_le (Nat.le_of_eq renewed.attempts)
  | unrenewed renewed => exact Nat.le_succ_of_le (Nat.le_of_eq renewed.attempts)
  | untold some =>
    rw [plain] at some
    cases some
  | twice restored =>
    cases restored with
    | none _ renewed =>
      rw [List.countP_append, renewed.attempts]
      exact Nat.le_refl _
    | told some =>
      rw [plain] at some
      cases some

theorem Course.answered {v : V} (course : Course job r (some (.ok v)) own r') :
    ∃ front, own = front ++ [⟨r'.seat.occupant, .work job.work, .ok v⟩] := by
  have right {y : Outcome V} (same : y.reply? = some (.ok v)) : y = .ok v := by
    cases y <;> cases same
    rfl
  cases course with
  | once _ same => exact ⟨[], by rw [right same, List.nil_append]⟩
  | untold _ _ failed same => exact (failed v (right same)).elim
  | twice _ same => exact ⟨_, by rw [right same]⟩

theorem Course.closes (course : Course job r reply own r') : Closes reply own := by
  cases course with
  | once _ same => exact ⟨[], _, rfl, congrArg plain same⟩
  | stuck renewed => exact renewed.closes
  | unrenewed renewed => exact renewed.closes
  | untold _ _ _ same => exact ⟨_, _, rfl, congrArg plain same⟩
  | twice _ same => exact ⟨_, _, rfl, congrArg plain same⟩

theorem Course.lasts (course : Course job r reply own r') (lasting : Lasting P) (before : P log r) :
    P (log ++ own) r' := by
  cases course with
  | once => exact lasting.add before rfl nofun
  | stuck renewed => exact renewed.lasts lasting before
  | unrenewed renewed => exact renewed.lasts lasting before
  | untold _ renewed =>
    rw [← List.append_assoc]
    exact lasting.add (renewed.lasts lasting before) rfl nofun
  | twice restored =>
    rw [← List.append_assoc]
    exact lasting.add (restored.lasts lasting before) rfl nofun

end Course

end Recovery

namespace Handling
variable {staffing : Staffing} {work : W} {p : Handling W}

def job (staffing : Staffing) (place : Nat) (work : W) (r : Roll W) : Job W :=
  ⟨staffing.label, place, work, r.seat.remembered⟩

inductive Course (staffing : Staffing) (place : Nat) (work : W) (r : Roll W) :
    Option (Except WorkerError V) → List (Exchange W V) → Roll W → Prop where
  | direct {reply y} (lax : staffing.recovers = false) (same : y.reply? = reply) :
      Course staffing place work r reply [⟨r.seat.occupant, .work work, y⟩] r
  | recovered {reply own r'} (careful : staffing.recovers = true)
      (course : Recovery.Course (job staffing place work r) r reply own r') :
      Course staffing place work r reply own r'

def Stands (staffing : Staffing) (place : Nat) (work : W) (r : Roll W) (log : List (Exchange W V)) :
    Handling W → List (Exchange W V) → Crew W V → Prop
  | .starting, now, c => now = log ∧ c.Shows place r log [] []
  | .direct call, now, c => staffing.recovers = false ∧
    call.Stands place r r.seat.occupant (.work work) log now c
  | .recovering restore p, now, c => staffing.recovers = true ∧ restore = r.seat.remembered ∧
    p.Stands (job staffing place work r) r log now c

def Ended (staffing : Staffing) (place : Nat) (work : W) (r : Roll W) (log now : List (Exchange W V))
    (reply : Option (Except WorkerError V)) (c : Crew W V) : Prop :=
  ∃ own r', now = log ++ own ∧ Course staffing place work r reply own r' ∧ c.Shows place r' now [] []

theorem movesStand (stands : p.Stands staffing place work r log now c)
    {n : Next (Handling W) (Except WorkerError V)}
    (move : (u, n) ∈ Handling.moves staffing place work p c) :
    n.Leads (fun q => q.Stands staffing place work r log now)
      (Ended staffing place work r log now) u := by
  cases p with
  | starting =>
    obtain ⟨rfl, shows⟩ := stands
    simp only [Handling.moves, shows.occupant, shows.remembered] at move
    split at move
    · next careful =>
      obtain ⟨rfl, rfl⟩ := memStep.mp move
      exact ⟨careful, rfl, rfl, rfl, rfl, shows⟩
    · next lax =>
      obtain ⟨rfl, rfl⟩ := memStep.mp move
      exact ⟨Bool.eq_false_iff.mpr lax, rfl, rfl, rfl, shows⟩
  | direct call =>
    obtain ⟨lax, stands⟩ := stands
    refine Machine.withinLeadsSame move (fun _ _ => Calling.movesStand stands)
      (fun q u here => ⟨lax, here⟩) ?_
    rintro res u ⟨y, same, rfl, shows⟩
    exact ⟨_, r, rfl, .direct lax same, shows⟩
  | recovering restore p =>
    obtain ⟨careful, rfl, stands⟩ := stands
    refine Machine.withinLeadsSame move (fun _ _ => Recovery.movesStand stands)
      (fun q u here => ⟨careful, rfl, here⟩) ?_
    rintro res u ⟨own, r', rfl, course, shows⟩
    exact ⟨own, r', rfl, .recovered careful course, shows⟩

theorem answerStands (stands : p.Stands staffing place work r log now c) (waits : o ∈ c.orders)
    (y : Outcome V) :
    p.Stands staffing place work r log (now ++ [⟨o.worker, o.call, y⟩]) (c.answer o.token y) := by
  cases p with
  | starting =>
    rw [stands.2.orders] at waits
    cases waits
  | direct call => exact ⟨stands.1, Calling.answerStands stands.2 waits y⟩
  | recovering restore p =>
    obtain ⟨careful, here, stands⟩ := stands
    exact ⟨careful, here, Recovery.answerStands stands waits y⟩

theorem flies {w : W} (stands : p.Stands staffing place work r log now c) (waits : o ∈ c.orders)
    (asked : o.call = .work w) :
    ∃ own r', now = log ++ own ∧ Recovery.Asked (job staffing place work r) r w own r' ∧
      o.worker = r'.seat.occupant ∧ c.Shows place r' now [o] [] := by
  cases p with
  | starting =>
    rw [stands.2.orders] at waits
    cases waits
  | direct call =>
    obtain ⟨worker, call, rfl, shows⟩ := Calling.flies stands.2 waits
    cases asked.symm.trans call
    exact ⟨[], r, (List.append_nil _).symm, .first, worker, shows⟩
  | recovering restore p => exact Recovery.flies stands.2.2 waits asked

section Course
variable {own : List (Exchange W V)} {r' : Roll W} {reply : Option (Except WorkerError V)}

theorem Course.calls (course : Course staffing place work r reply own r') {x : Exchange W V}
    (member : x ∈ own) {w : W} (asked : x.call = .work w) :
    w = work ∨ r.seat.remembered = some w := by
  cases course with
  | direct =>
    cases List.mem_singleton.mp member
    cases asked
    exact .inl rfl
  | recovered _ course => exact course.calls member asked

theorem Course.remembered (course : Course staffing place work r reply own r') :
    r'.seat.remembered = r.seat.remembered := by
  cases course with
  | direct => rfl
  | recovered _ course => exact course.remembered

theorem Course.seated (course : Course staffing place work r reply own r') : r' = r ∨
    Started own r'.seat.occupant ∨ reply = none ∨
    ∃ e, reply = some (.error e) ∧ ⟨r'.seat.occupant, .init, .failed e⟩ ∈ own := by
  cases course with
  | direct => exact .inl rfl
  | recovered _ course => exact course.seated

theorem Course.attempts (course : Course staffing place work r reply own r')
    (plain : r.seat.remembered = none) : own.countP Exchange.isWork ≤ 2 := by
  cases course with
  | direct => exact Nat.le_succ _
  | recovered _ course => exact course.attempts plain

theorem Course.answered {v : V} (course : Course staffing place work r (some (.ok v)) own r') :
    ∃ front, own = front ++ [⟨r'.seat.occupant, .work work, .ok v⟩] := by
  cases course with
  | @direct y _ same =>
    cases y <;> cases same
    exact ⟨[], rfl⟩
  | recovered _ course => exact course.answered

theorem Course.closes (course : Course staffing place work r reply own r') : Closes reply own := by
  cases course with
  | direct _ same => exact ⟨[], _, rfl, congrArg plain same⟩
  | recovered _ course => exact course.closes

theorem Course.lasts {P : List (Exchange W V) → Roll W → Prop}
    (course : Course staffing place work r reply own r') (lasting : Lasting P) (before : P log r) :
    P (log ++ own) r' := by
  cases course with
  | direct => exact lasting.add before rfl nofun
  | recovered _ course => exact course.lasts lasting before

theorem Course.manned (course : Course staffing place work r reply own r') (manned : Manned log r) :
    Manned (log ++ own) r' :=
  course.lasts mannedLasts manned

end Course

end Handling

end Courses

end MutationPipeline
