import MutationPipeline.Proofs.Pool.Hands

/-! What a stream of items does is written down in its journal as it happens. Every item that it takes
is at one place at a time: still without a worker, worked on, on its way back, or yielded. -/
namespace MutationPipeline
variable {W V σ α φ ρ : Type}

structure Landing (α ρ : Type) where
  leaving : List (Stint α × ρ) := []
  freeing : List (Stint α × ρ) := []
  paid : List (Stint α × ρ) := []

namespace Stint

def stance (x : Stint α) : Stance := .seated x.ticket x.seat

def label (x : Stint α × ρ) : α × Nat × ρ := (x.1.item, x.1.ticket, x.2)

def outcome (x : Stint α × ρ) : α × ρ := (x.1.item, x.2)

theorem labeled {x : Stint α × ρ} {item : α} {ticket : Nat} {r : ρ}
    (same : label x = (item, ticket, r)) : ∃ seat, x = (⟨item, ticket, seat⟩, r) := by
  obtain ⟨⟨_, _, seat⟩, _⟩ := x
  cases same
  exact ⟨seat, rfl⟩

theorem pick {xs : List (Stint α × ρ)} {item : α} {ticket : Nat} {r : ρ} {rest : List (α × Nat × ρ)}
    (same : (xs.map label).Perm ((item, ticket, r) :: rest)) :
    ∃ before seat after, xs = before ++ (⟨item, ticket, seat⟩, r) :: after ∧
      ((before ++ after).map label).Perm rest := by
  obtain ⟨x, member, found⟩ := List.mem_map.mp (same.mem_iff.mpr List.mem_cons_self)
  obtain ⟨seat, rfl⟩ := labeled found
  obtain ⟨before, after, rfl⟩ := List.append_of_mem member
  exact ⟨before, seat, after, rfl, ((List.perm_middle.map label).symm.trans same).cons_inv⟩

end Stint

structure Journal.Balanced (items : List α) (f : Schedule W α φ ρ) (j : Journal α ρ) (l : Landing α ρ) :
    Prop where
  input : j.taken ++ f.feed.known = items ++ j.pulled
  taken : j.taken.Perm (j.refused.map (·.1) ++ j.begun.map (·.item) ++ f.feed.current)
  refused : j.refused.Perm
    (j.yielded.filterMap Yield.failure? ++ f.flights.filterMap Flight.refused?)
  begun : j.begun.Perm (j.ended.map (·.1) ++ f.flights.filterMap Flight.begun?)
  ended : j.ended.Perm (j.returned ++ l.leaving)
  returned : j.returned.Perm (l.paid ++ l.freeing)
  yielded : (l.paid.map Stint.outcome).Perm (j.yielded.filterMap Yield.success?)
  leaving : (l.leaving.map Stint.label).Perm (f.flights.filterMap Flight.leaving?)
  freeing : (l.freeing.map Stint.label).Perm (f.flights.filterMap Flight.freeing?)

namespace Journal
variable {j : Journal α ρ} {f : Schedule W α φ ρ} {l : Landing α ρ} {items : List α} {p q : Pool}

section After
variable {x y : Flight φ α ρ} {before rest : List (Flight φ α ρ)}

theorem endedSame (x : Flight φ α ρ) : Flight.ended? (x, x) = none := by cases x <;> rfl

theorem returnedSame (seat : Option Nat) (x : Flight φ α ρ) : Flight.returned? seat (x, x) = none := by
  rcases x with _ | ⟨_, _, _, _ | _⟩ | _ <;> rfl

theorem afterFeed (feed : Feed W α) : j.after f { f with feed } p q =
    { j with pulled := j.pulled ++ f.feed.pulled feed, taken := j.taken ++ f.feed.taken feed } := by
  simp [after, zipSelf endedSame, zipSelf (returnedSame _)]

theorem afterMore (feed : Feed W α) : j.after f { feed, flights := f.flights ++ [x] } p q =
    { j with
      pulled := j.pulled ++ f.feed.pulled feed
      taken := j.taken ++ f.feed.taken feed
      refused := j.refused ++ x.refused?.toList
      begun := j.begun ++ x.begun?.toList } := by
  have one {β : Type} (k : Flight φ α ρ → Option β) : [x].filterMap k = (k x).toList := by
    rw [filterMapSplit]
    exact List.append_nil _
  simp [after, zipMore endedSame, zipMore (returnedSame _), one]

theorem afterAt (here : f.flights = before ++ x :: rest) :
    j.after f { f with flights := before ++ y :: rest } p q =
      { j with
        ended := j.ended ++ (Flight.ended? (x, y)).toList
        returned := j.returned ++ (Flight.returned? (p.regained? q) (x, y)).toList } := by
  have feed : f.feed.pulled f.feed = [] ∧ f.feed.taken f.feed = [] := by
    rcases f.feed with ⟨_ | _⟩ | _ | _ <;> exact ⟨rfl, rfl⟩
  simp [after, here, zipAt endedSame, zipAt (returnedSame _), feed]

end After

namespace Balanced
variable {before rest : List (Flight φ α ρ)} {x y : Flight φ α ρ} {item : α} {a : Acquisition W}
  {known : List α} {ticket seat : Nat} {r : ρ}

theorem reorder {flights : List (Flight φ α ρ)} (balanced : j.Balanced items f l)
    (same : f.flights.Perm flights) : j.Balanced items { f with flights } l :=
  { balanced with
    refused := balanced.refused.trans ((same.filterMap _).append_left _)
    begun := balanced.begun.trans ((same.filterMap _).append_left _)
    leaving := balanced.leaving.trans (same.filterMap _)
    freeing := balanced.freeing.trans (same.filterMap _) }

theorem front (balanced : j.Balanced items f l) (here : f.flights = before ++ x :: rest) :
    j.Balanced items { f with flights := x :: (before ++ rest) } l :=
  balanced.reorder (here ▸ List.perm_middle)

theorem back
    (balanced : j.Balanced items ({ f with flights := y :: (before ++ rest) } : Schedule ..) l) :
    j.Balanced items ({ f with flights := before ++ y :: rest } : Schedule ..) l :=
  balanced.reorder List.perm_middle.symm

theorem fed (balanced : j.Balanced items f l) {feed : Feed W α}
    (known : f.feed.known ++ f.feed.pulled feed = f.feed.taken feed ++ feed.known)
    (current : feed.current = f.feed.current ++ f.feed.taken feed) :
    (j.after f { f with feed } p q).Balanced items { f with feed } l := by
  rw [afterFeed]
  refine { balanced with input := ?_, taken := ?_ }
  · calc j.taken ++ f.feed.taken feed ++ feed.known
      _ = j.taken ++ (f.feed.known ++ f.feed.pulled feed) := by rw [List.append_assoc, known]
      _ = items ++ (j.pulled ++ f.feed.pulled feed) := by
        rw [← List.append_assoc, balanced.input, List.append_assoc]
  · rw [current, ← List.append_assoc]
    exact balanced.taken.append_right _

theorem sent (balanced : j.Balanced items f l) (feed : f.feed = .acquiring item a known) (phase : φ) :
    let g : Schedule W α φ ρ :=
      { feed := .open known, flights := f.flights ++ [.working item ticket seat phase] }
    (j.after f g p q).Balanced items g l := by
  intro g
  rw [afterMore, feed]
  obtain ⟨input, taken, refused, begun, ended, returned, yielded, leaving, freeing⟩ := balanced
  rw [feed] at input taken
  refine reorder (f := { g with flights := .working item ticket seat phase :: f.flights })
    ⟨?_, ?_, ?_, ?_, ended, returned, yielded, leaving, freeing⟩
    (List.perm_append_singleton _ _).symm
  · simpa [Feed.known, Feed.taken, Feed.pulled] using input
  · simpa [Feed.current, Feed.taken, Flight.begun?, Flight.refused?] using taken
  · exact (List.Perm.of_eq (List.append_nil _)).trans refused
  · exact (begun.append_right _).trans (permLast ..)

theorem turnedAway (balanced : j.Balanced items f l) (feed : f.feed = .acquiring item a known)
    (cause : PoolError) :
    let g : Schedule W α φ ρ :=
      { feed := .open known, flights := f.flights ++ [.refused item cause] }
    (j.after f g p q).Balanced items g l := by
  intro g
  rw [afterMore, feed]
  obtain ⟨input, taken, refused, begun, ended, returned, yielded, leaving, freeing⟩ := balanced
  rw [feed] at input taken
  refine reorder (f := { g with flights := .refused item cause :: f.flights })
    ⟨?_, ?_, ?_, ?_, ended, returned, yielded, leaving, freeing⟩
    (List.perm_append_singleton _ _).symm
  · simpa [Feed.known, Feed.taken, Feed.pulled] using input
  · refine .trans (.of_eq (List.append_nil _)) (taken.trans ((permLast ..).trans (.of_eq ?_)))
    simp [Feed.current, Flight.begun?, Flight.refused?]
  · exact (refused.append_right _).trans (permLast ..)
  · exact (List.Perm.of_eq (List.append_nil _)).trans begun

theorem worked {phase later : φ} (balanced : j.Balanced items f l)
    (here : f.flights = before ++ .working item ticket seat phase :: rest) :
    (j.after f { f with flights := before ++ .working item ticket seat later :: rest } p q).Balanced
      items { f with flights := before ++ .working item ticket seat later :: rest } l := by
  obtain ⟨input, taken, refused, begun, ended, returned, yielded, leaving, freeing⟩ :=
    balanced.front here
  rw [afterAt here]
  simp only [Flight.ended?, Flight.returned?, Option.toList, List.append_nil]
  exact back ⟨input, taken, refused, begun, ended, returned, yielded, leaving, freeing⟩

theorem answered {phase : φ} (balanced : j.Balanced items f l)
    (here : f.flights = before ++ .working item ticket seat phase :: rest) :
    (j.after f { f with flights := before ++ .returning item ticket r .puttingBack :: rest } p
      q).Balanced items { f with flights := before ++ .returning item ticket r .puttingBack :: rest }
        { l with leaving := (⟨item, ticket, seat⟩, r) :: l.leaving } := by
  obtain ⟨input, taken, refused, begun, ended, returned, yielded, leaving, freeing⟩ :=
    balanced.front here
  rw [afterAt here]
  simp only [Flight.ended?, Flight.returned?, Option.toList, List.append_nil]
  refine back ⟨input, taken, refused, ?_, ?_, returned, yielded, leaving.cons _, freeing⟩
  · rw [List.map_append, List.append_assoc]
    exact begun
  · exact (ended.append_right _).trans (permLast ..)

theorem landing {later sooner : List (Stint α × ρ)} (balanced : j.Balanced items f
      { l with leaving := sooner ++ (⟨item, ticket, seat⟩, r) :: later })
    (here : f.flights = before ++ .returning item ticket r .puttingBack :: rest)
    (left : ((sooner ++ later).map Stint.label).Perm ((before ++ rest).filterMap Flight.leaving?))
    (idle : p.regained? q = some seat) :
    (j.after f { f with flights := before ++ .returning item ticket r .freeing :: rest } p
      q).Balanced items { f with flights := before ++ .returning item ticket r .freeing :: rest }
        { l with leaving := sooner ++ later, freeing := (⟨item, ticket, seat⟩, r) :: l.freeing } := by
  obtain ⟨input, taken, refused, begun, ended, returned, yielded, leaving, freeing⟩ :=
    balanced.front here
  rw [afterAt here, idle]
  simp only [Flight.ended?, Flight.returned?, Option.map, Option.toList, List.append_nil]
  refine back ⟨input, taken, refused, begun, ?_, ?_, yielded, left, freeing.cons _⟩
  · rw [← List.append_cons]
    exact ended.trans (List.perm_middle.append_left _)
  · exact (returned.append_right _).trans (permLast ..)

theorem rejected {cause : PoolError} (balanced : j.Balanced items f l)
    (here : f.flights = before ++ .refused item cause :: rest) :
    Balanced items { f with flights := before ++ rest }
      { j with yielded := j.yielded ++ [⟨item, .error cause⟩] } l := by
  obtain ⟨input, taken, refused, begun, ended, returned, yielded, leaving, freeing⟩ :=
    balanced.front here
  refine ⟨input, taken, ?_, begun, ended, returned, ?_, leaving, freeing⟩
  · rw [List.filterMap_append]
    exact refused.trans (.of_eq (List.append_cons ..))
  · rw [List.filterMap_append]
    exact yielded.trans (.of_eq (List.append_nil _).symm)

theorem landed {later sooner : List (Stint α × ρ)} (balanced : j.Balanced items f
      { l with freeing := sooner ++ (⟨item, ticket, seat⟩, r) :: later })
    (here : f.flights = before ++ .returning item ticket r .freeing :: rest)
    (left : ((sooner ++ later).map Stint.label).Perm ((before ++ rest).filterMap Flight.freeing?)) :
    Balanced items { f with flights := before ++ rest }
      { j with yielded := j.yielded ++ [⟨item, .ok r⟩] }
      { l with freeing := sooner ++ later, paid := (⟨item, ticket, seat⟩, r) :: l.paid } := by
  obtain ⟨input, taken, refused, begun, ended, returned, yielded, leaving, freeing⟩ :=
    balanced.front here
  refine ⟨input, taken, ?_, begun, ended, ?_, ?_, leaving, left⟩
  · rw [List.filterMap_append, List.append_assoc]
    exact refused
  · exact returned.trans ((List.perm_middle.append_left _).trans List.perm_middle)
  · rw [List.filterMap_append]
    exact (yielded.cons _).trans (List.perm_append_singleton ..).symm

end Balanced

end Journal

end MutationPipeline
