import MutationPipeline.Proofs.Worker.Courses

/-! Sessions: requests are dealt with one after the other, and what is left by one is what the next
one finds. What a keeper does about work is taken from its charter. -/
namespace MutationPipeline

structure Charter {W V φ ρ : Type} (k : Keeper W V φ ρ) where
  Stands : W → Roll W → List (Exchange W V) → φ → List (Exchange W V) → Crew W V → Prop
  Course : W → Roll W → Option (Except WorkerError ρ) → List (Exchange W V) → Roll W → Prop
  start : ∀ {w r log c}, c.Shows 0 r log [] [] → Stands w r log (k.start w c) log c
  moves : ∀ {w r log p now c u n}, Stands w r log p now c → (u, n) ∈ k.moves w p c →
    n.Leads (fun q => Stands w r log q now) (fun reply u =>
      ∃ own r', now = log ++ own ∧ Course w r reply own r' ∧ u.Shows 0 r' now [] []) u
  answers : ∀ {w r log p now c o y}, Stands w r log p now c → o ∈ c.orders →
    Stands w r log p (now ++ [⟨o.worker, o.call, y⟩]) (c.answer o.token y)

namespace Charter
variable {W V φ ρ : Type} {k : Keeper W V φ ρ} {h : Charter k} {request : Call W} {r : Roll W}
  {log now : List (Exchange W V)} {o : Order W} {c u : Crew W V} {p : Treatment W φ}
  {s t : Session W V φ ρ}

inductive Treats (h : Charter k) (r : Roll W) : Call W → Option (Except WorkerError (Option ρ)) →
    List (Exchange W V) → Roll W → Prop where
  | life {call reply y} (life : ∀ w, call ≠ .work w)
      (same : y.reply?.map (·.map fun _ => none) = reply) :
      Treats h r call reply [⟨r.seat.occupant, call, y⟩] r
  | work {w answer reply own r'} (course : h.Course w r answer own r')
      (same : answer.map (·.map some) = reply) : Treats h r (.work w) reply own r'

theorem Treats.course {w : W} {reply own r'} (treats : h.Treats r (.work w) reply own r') :
    ∃ answer, h.Course w r answer own r' ∧ answer.map (·.map some) = reply := by
  cases treats with
  | life life => exact (life w rfl).elim
  | work course same => exact ⟨_, course, same⟩

theorem Treats.single {reply own r'} (treats : h.Treats r request reply own r')
    (life : ∀ w, request ≠ .work w) : ∃ y : Outcome V, y.reply?.map (·.map fun _ => none) = reply ∧
      own = [⟨r.seat.occupant, request, y⟩] ∧ r' = r := by
  cases treats with
  | life _ same => exact ⟨_, same, rfl, rfl⟩
  | work => exact (life _ rfl).elim

def TreatmentStands (h : Charter k) (request : Call W) (r : Roll W) (log : List (Exchange W V)) :
    Treatment W φ → List (Exchange W V) → Crew W V → Prop
  | .calling call, now, c => (∀ w, request ≠ .work w) ∧
    call.Stands 0 r r.seat.occupant request log now c
  | .working w p, now, c => request = .work w ∧ h.Stands w r log p now c

theorem beginStands (shows : c.Shows 0 r log [] []) :
    h.TreatmentStands request r log (k.begin c request) log c := by
  cases request with
  | work w => exact ⟨rfl, h.start shows⟩
  | _ => exact ⟨nofun, shows.occupant, rfl, rfl, shows⟩

theorem dealStands (stands : h.TreatmentStands request r log p now c)
    {n : Next (Treatment W φ) (Except WorkerError (Option ρ))} (move : (u, n) ∈ k.deal p c) :
    n.Leads (fun q => h.TreatmentStands request r log q now) (fun reply u =>
      ∃ own r', now = log ++ own ∧ h.Treats r request reply own r' ∧ u.Shows 0 r' now [] []) u := by
  cases p with
  | calling call =>
    obtain ⟨life, stands⟩ := stands
    refine Machine.withinLeadsLast move (fun _ _ => Calling.movesStand stands)
      (fun q u here => ⟨life, here⟩) ?_
    rintro res u ⟨y, same, rfl, shows⟩
    exact ⟨_, r, rfl, .life life (congrArg _ same), shows⟩
  | working w p =>
    obtain ⟨rfl, stands⟩ := stands
    refine Machine.withinLeadsLast move (fun _ _ => h.moves stands) (fun q u here => ⟨rfl, here⟩) ?_
    rintro res u ⟨own, r', rfl, course, shows⟩
    exact ⟨own, r', rfl, .work course rfl, shows⟩

theorem treatmentAnswers (stands : h.TreatmentStands request r log p now c) (waits : o ∈ c.orders)
    (y : Outcome V) :
    h.TreatmentStands request r log p (now ++ [⟨o.worker, o.call, y⟩]) (c.answer o.token y) := by
  cases p with
  | calling call => exact ⟨stands.1, Calling.answerStands stands.2 waits y⟩
  | working w p => exact ⟨stands.1, h.answers stands.2 waits⟩

theorem workStands {w : W} (stands : h.TreatmentStands request r log p now c)
    (waits : o ∈ c.orders) (asked : o.call = .work w) :
    ∃ own q, request = .work own ∧ h.Stands own r log q now c := by
  cases p with
  | calling call =>
    have called := (Calling.flies stands.2 waits).2.1
    exact (stands.1 w (called.symm.trans asked)).elim
  | working own q => exact ⟨own, q, stands⟩

inductive Past (h : Charter k) : List (Deed W V ρ) → Roll W → Prop where
  | none : Past h [] ⟨⟨0, .none⟩, 1, []⟩
  | done {deeds d r r'} (past : Past h deeds r)
      (treats : h.Treats r d.request d.reply d.exchanges r') : Past h (deeds ++ [d]) r'

theorem Past.first (past : h.Past [] r) : r = ⟨⟨0, .none⟩, 1, []⟩ := by
  generalize whole : [] = all at past
  cases past with
  | none => rfl
  | done => exact (List.append_ne_nil_of_right_ne_nil _ (List.cons_ne_nil _ _) whole.symm).elim

theorem Past.last {deeds : List (Deed W V ρ)} {d : Deed W V ρ} (past : h.Past (deeds ++ [d]) r) :
    ∃ before, h.Past deeds before ∧ h.Treats before d.request d.reply d.exchanges r := by
  generalize whole : deeds ++ [d] = all at past
  cases past with
  | none => exact (List.append_ne_nil_of_right_ne_nil _ (List.cons_ne_nil _ _) whole).elim
  | done past treats =>
    obtain ⟨rfl, same⟩ := List.append_inj' whole rfl
    cases same
    exact ⟨_, past, treats⟩

theorem Past.holds {P : Roll W → Prop} {deeds : List (Deed W V ρ)} (first : P ⟨⟨0, .none⟩, 1, []⟩)
    (kept : ∀ {r request reply own r'}, P r → h.Treats r request reply own r' → P r')
    (past : h.Past deeds r) :
    P r ∧ ∀ d ∈ deeds, ∃ r r', P r ∧ h.Treats r d.request d.reply d.exchanges r' := by
  induction past with
  | none => exact ⟨first, nofun⟩
  | @done deeds d r r' past treats before =>
    refine ⟨kept before.1 treats, fun x member => ?_⟩
    rcases List.mem_append.mp member with earlier | last
    · exact before.2 x earlier
    · rw [List.mem_singleton.mp last]
      exact ⟨r, r', before.1, treats⟩

inductive Sound (h : Charter k) : Session W V φ ρ → Prop where
  | rest {s : Session W V φ ρ} {r : Roll W} (past : h.Past s.deeds r) (free : s.attempt = none)
      (shows : s.crew.Shows 0 r s.past [] []) : Sound h s
  | work {s : Session W V φ ρ} {a : Attempt W V φ} {r : Roll W} (past : h.Past s.deeds r) (busy : s.attempt = some a)
      (stands : h.TreatmentStands a.request r s.past a.phase (s.past ++ a.exchanges) s.crew) :
      Sound h s

theorem soundStart : h.Sound {} :=
  .rest .none rfl ⟨rfl, rfl, rfl, rfl, rfl, rfl⟩

theorem Sound.step (sound : h.Sound s) (step : Session.Step k s t) : h.Sound t := by
  cases step with
  | ask request free =>
    cases sound with
    | rest past _ shows =>
      refine .work past rfl ?_
      rw [List.append_nil]
      exact beginStands shows
    | work past busy stands =>
      rw [free] at busy
      cases busy
  | @move a c n busy move =>
    cases sound with
    | rest past free shows =>
      rw [free] at busy
      cases busy
    | @work b r past same stands =>
      cases busy.symm.trans same
      have led := dealStands stands move
      -- With a reply or without one: the attempt becomes a deed, and its calls part of the past.
      have ended (reply) (led : ∃ own r', s.past ++ a.exchanges = s.past ++ own ∧
          h.Treats r a.request reply own r' ∧ c.Shows 0 r' (s.past ++ a.exchanges) [] []) :
          h.Sound { crew := c, deeds := s.deeds ++ [⟨a.request, a.exchanges, reply⟩] } := by
        obtain ⟨own, r', whole, treats, shows⟩ := led
        cases List.append_cancel_left whole
        refine .rest (.done past treats) rfl ?_
        rwa [Session.past, List.flatMap_append, List.flatMap_singleton]
      cases n with
      | go phase => exact .work past rfl led
      | done reply => exact ended _ led
      | panicked => exact ended _ led
  | answer o outcome busy waits =>
    cases sound with
    | rest past free shows =>
      rw [free] at busy
      cases busy
    | work past same stands =>
      cases busy.symm.trans same
      refine .work past rfl ?_
      rw [← List.append_assoc]
      exact treatmentAnswers stands waits outcome

theorem Sound.past (sound : h.Sound s) : ∃ r, h.Past s.deeds r := by
  cases sound with
  | rest past => exact ⟨_, past⟩
  | work past => exact ⟨_, past⟩

theorem sound (h : Charter k) (reached : Session.Reached k s) : h.Sound s := by
  induction reached with
  | start => exact soundStart
  | step _ step before => exact before.step step

end Charter

namespace Session
variable {W V φ ρ : Type} {k : Keeper W V φ ρ} {s t : Session W V φ ρ}

inductive Cue (W V : Type) where
  | ask (request : Call W)
  | move
  | answer (outcome : Outcome V)

def cued (k : Keeper W V φ ρ) (s : Session W V φ ρ) : Cue W V → Option (Session W V φ ρ)
  | .ask request => if s.attempt.isNone then some (s.ask k request) else none
  | .move => s.attempt.bind fun a => (k.deal a.phase s.crew).head?.map fun x => s.moved a x.1 x.2
  | .answer outcome => s.attempt.bind fun a => s.crew.orders.head?.map fun o => s.answered a o outcome

theorem cuedStep {cue : Cue W V} (went : s.cued k cue = some t) : Step k s t := by
  cases cue with
  | ask request =>
    obtain ⟨free, same⟩ := Option.ite_none_right_eq_some.mp went
    cases same
    exact .ask request (Option.isNone_iff_eq_none.mp free)
  | move =>
    obtain ⟨a, busy, went⟩ := Option.bind_eq_some_iff.mp went
    obtain ⟨x, first, rfl⟩ := Option.map_eq_some_iff.mp went
    exact .move busy (List.mem_of_head? first)
  | answer outcome =>
    obtain ⟨a, busy, went⟩ := Option.bind_eq_some_iff.mp went
    obtain ⟨o, first, rfl⟩ := Option.map_eq_some_iff.mp went
    exact .answer o outcome busy (List.mem_of_head? first)

def played (k : Keeper W V φ ρ) : List (Cue W V) → Session W V φ ρ → Option (Session W V φ ρ)
  | [], s => some s
  | cue :: later, s => (s.cued k cue).bind (played k later)

theorem playedReached {cues : List (Cue W V)} (reached : Reached k s)
    (went : played k cues s = some t) : Reached k t := by
  induction cues generalizing s with
  | nil =>
    cases went
    exact reached
  | cons cue later ih =>
    obtain ⟨u, step, rest⟩ := Option.bind_eq_some_iff.mp went
    exact ih (reached.step (cuedStep step)) rest

end Session

end MutationPipeline
