import Mathlib.Algebra.GroupWithZero.Nat
import MutationPipeline.Pool.Permits
import MutationPipeline.Proofs.Lists

/-! Accounting for permits. Those that are free and those set aside for claims are all there are;
a claim keeps its ticket and what it wants until it is collected or withdrawn, and a claim is
complete only with all that it wants. -/
namespace MutationPipeline

def Claim.terms (c : Claim) : Nat × Nat := (c.ticket, c.wanted)

namespace Permits

def stock (p : Permits) : Nat := p.free + ((p.waiting ++ p.complete).map (·.got)).sum

def terms (p : Permits) : List (Nat × Nat) := (p.waiting ++ p.complete).map Claim.terms

def Full (p : Permits) : Prop := ∀ c ∈ p.complete, c.got = c.wanted

variable {p : Permits} {ticket wanted n : Nat}

theorem shareStock (n : Nat) (claims : List Claim) :
    ((share n claims).1.map (·.got)).sum + ((share n claims).2.1.map (·.got)).sum +
      (share n claims).2.2 = n + (claims.map (·.got)).sum := by
  fun_induction share n claims with
  | case1 => simp
  | case2 n c rest enough complete waiting left same ih =>
    rw [same] at ih
    simp only [List.map_cons, List.sum_cons] at ih ⊢
    omega
  | case3 n c rest short =>
    simp only [List.map_nil, List.sum_nil, List.map_cons, List.sum_cons]
    omega

theorem shareTerms (n : Nat) (claims : List Claim) :
    (share n claims).1.map Claim.terms ++ (share n claims).2.1.map Claim.terms =
      claims.map Claim.terms := by
  fun_induction share n claims with
  | case1 => rfl
  | case2 n c rest enough complete waiting left same ih =>
    rw [same] at ih
    exact congrArg (c.terms :: ·) ih
  | case3 n c rest short => rfl

theorem shareFull (n : Nat) (claims : List Claim) :
    ∀ c ∈ (share n claims).1, c.got = c.wanted := by
  fun_induction share n claims with
  | case1 => simp
  | case2 n c rest enough complete waiting left same ih =>
    rw [same] at ih
    intro d member
    rcases List.mem_cons.mp member with rfl | later
    · rfl
    · exact ih d later
  | case3 n c rest short => simp

theorem giveBackStock (p : Permits) (n : Nat) : (p.giveBack n).stock = p.stock + n := by
  have shared := shareStock n p.waiting
  rcases same : share n p.waiting with ⟨complete, waiting, left⟩
  simp only [giveBack, same, stock, List.map_append, List.sum_append] at shared ⊢
  omega

theorem giveBackTerms (p : Permits) (n : Nat) : (p.giveBack n).terms.Perm p.terms := by
  have shared := shareTerms n p.waiting
  simp only [giveBack, terms, List.map_append, ← shared]
  grind

theorem giveBackFull (full : p.Full) (n : Nat) : (p.giveBack n).Full := by
  intro c member
  rcases List.mem_append.mp member with old | new
  · exact full c old
  · exact shareFull n p.waiting c new

theorem claimStock (p : Permits) (ticket wanted : Nat) :
    (p.claim ticket wanted).stock = p.stock := by
  unfold claim
  split
  · simp only [stock, List.map_append, List.sum_append, List.map_cons, List.sum_cons, List.map_nil,
      List.sum_nil]
    omega
  · simp only [stock, List.map_append, List.sum_append, List.map_cons, List.sum_cons, List.map_nil,
      List.sum_nil]
    omega

theorem claimTerms (p : Permits) (ticket wanted : Nat) :
    (p.claim ticket wanted).terms.Perm ((ticket, wanted) :: p.terms) := by
  unfold claim
  split
  · simp only [terms, List.map_append, List.map_cons, List.map_nil]
    grind [Claim.terms]
  · simp only [terms, List.map_append, List.map_cons, List.map_nil]
    grind [Claim.terms]

theorem claimFull (full : p.Full) : (p.claim ticket wanted).Full := by
  unfold claim
  split
  · intro c member
    rcases List.mem_append.mp member with old | new
    · exact full c old
    · rw [List.mem_singleton.mp new]
  · exact full

@[simp] theorem claimClosed (p : Permits) (ticket wanted : Nat) :
    (p.claim ticket wanted).closed = p.closed := by
  unfold claim
  split <;> rfl

theorem withdrawStock (p : Permits) (ticket : Nat) : (p.withdraw ticket).stock = p.stock := by
  have parts (claims : List Claim) :
      ((claims.filter fun c => c.ticket ≠ ticket).map (·.got)).sum +
        ((claims.filter fun c => c.ticket = ticket).map (·.got)).sum = (claims.map (·.got)).sum := by
    induction claims with
    | nil => rfl
    | cons c rest ih =>
      by_cases own : c.ticket = ticket
      · simp only [List.filter_cons, own, List.map_cons, List.sum_cons]
        simp at ih ⊢
        omega
      · simp only [List.filter_cons, own, List.map_cons, List.sum_cons]
        simp [own] at ih ⊢
        omega
  have whole := parts (p.waiting ++ p.complete)
  rw [withdraw, giveBackStock, ← List.sum_eq_foldr]
  simp only [stock, List.filter_append, List.map_append, List.sum_append] at whole ⊢
  omega

theorem withdrawTerms (p : Permits) (ticket : Nat) :
    (p.withdraw ticket).terms.Perm (p.terms.filter fun t => t.1 ≠ ticket) := by
  refine (giveBackTerms _ _).trans (List.Perm.of_eq ?_)
  simp only [terms, ← List.filter_append, List.filter_map]
  rfl

theorem withdrawFull (full : p.Full) (ticket : Nat) : (p.withdraw ticket).Full :=
  giveBackFull (fun c member => full c (List.mem_of_mem_filter member)) _

theorem ticketComplete (complete : p.isComplete ticket = true) :
    ∃ c ∈ p.complete, c.ticket = ticket := by
  simpa [isComplete] using complete

section Collect
variable (single : (p.terms.map Prod.fst).Nodup) (named : (ticket, wanted) ∈ p.terms)
  (complete : p.isComplete ticket = true)
include single named complete

theorem collectSplit : ∃ before c after, p.complete = before ++ c :: after ∧
    c.terms = (ticket, wanted) ∧
      p.collect ticket = { p with complete := before ++ after } := by
  obtain ⟨c, member, rfl⟩ := ticketComplete complete
  have terms : (c.ticket, c.wanted) ∈ p.terms :=
    List.mem_map.mpr ⟨c, List.mem_append_right _ member, rfl⟩
  have tickets : (p.complete.map (·.ticket)).Nodup := by
    rw [Permits.terms, List.map_map, List.map_append] at single
    exact (List.nodup_append.mp single).2.1
  obtain ⟨before, after, whole, others⟩ := splitUnique tickets member
  refine ⟨before, c, after, whole, List.inj_on_of_nodup_map single terms named rfl, ?_⟩
  have kept : p.complete.filter (fun d => d.ticket ≠ c.ticket) = before ++ after := by
    rw [whole, List.filter_append, List.filter_cons_of_neg (by simp), ← List.filter_append]
    exact List.filter_eq_self.mpr fun d member => by simpa using others d member
  rw [collect, kept]

theorem collectStock (full : p.Full) : (p.collect ticket).stock + wanted = p.stock := by
  obtain ⟨before, c, after, whole, terms, collected⟩ := collectSplit single named complete
  have got : c.got = wanted := by
    rw [full c (by simp [whole])]
    exact congrArg Prod.snd terms
  simp only [collected, stock, whole, List.map_append, List.sum_append, List.map_cons,
    List.sum_cons, got]
  omega

theorem collectTerms : p.terms.Perm ((ticket, wanted) :: (p.collect ticket).terms) := by
  obtain ⟨before, c, after, whole, terms, collected⟩ := collectSplit single named complete
  simp only [collected, Permits.terms, whole, List.map_append, List.map_cons, terms]
  grind

omit single named complete in
theorem collectFull (full : p.Full) (ticket : Nat) : (p.collect ticket).Full :=
  fun c member => full c (List.mem_of_mem_filter member)

end Collect

end Permits

end MutationPipeline
