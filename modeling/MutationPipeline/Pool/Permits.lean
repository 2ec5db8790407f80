/-!
Permits, handed out first come, first served.

A claim takes what is free at once and waits for the rest behind all earlier claims. A permit that
comes back goes to the oldest claim that is not yet served. Once closed, nobody is served any more,
not even a claim that was complete but whose owner had not noticed.
-/
namespace MutationPipeline

structure Claim where
  ticket : Nat
  wanted : Nat
  got : Nat
  deriving DecidableEq, Repr

structure Permits where
  free : Nat
  waiting : List Claim := []
  complete : List Claim := []
  closed : Bool := false
  deriving DecidableEq, Repr

namespace Permits

/-- Shares out permits among waiting claims: those that become complete, those that go on waiting,
and the permits left. -/
def share : Nat → List Claim → List Claim × List Claim × Nat
  | n, [] => ([], [], n)
  | n, c :: rest =>
    if c.wanted ≤ c.got + n then
      let (complete, waiting, left) := share (c.got + n - c.wanted) rest
      ({ c with got := c.wanted } :: complete, waiting, left)
    else ([], { c with got := c.got + n } :: rest, 0)

def giveBack (p : Permits) (n : Nat) : Permits :=
  let (complete, waiting, left) := share n p.waiting
  { p with free := p.free + left, waiting, complete := p.complete ++ complete }

def claim (p : Permits) (ticket wanted : Nat) : Permits :=
  if wanted ≤ p.free then
    { p with free := p.free - wanted, complete := p.complete ++ [⟨ticket, wanted, wanted⟩] }
  else { p with free := 0, waiting := p.waiting ++ [⟨ticket, wanted, p.free⟩] }

def isComplete (p : Permits) (ticket : Nat) : Bool := p.complete.any fun c => c.ticket = ticket

def collect (p : Permits) (ticket : Nat) : Permits :=
  { p with complete := p.complete.filter fun c => c.ticket ≠ ticket }

def withdraw (p : Permits) (ticket : Nat) : Permits :=
  let others := fun (c : Claim) => c.ticket ≠ ticket
  let got := ((p.waiting ++ p.complete).filter fun c => c.ticket = ticket).map (·.got)
  giveBack { p with waiting := p.waiting.filter others, complete := p.complete.filter others }
    (got.foldr (· + ·) 0)

def close (p : Permits) : Permits := { p with waiting := [], complete := [], closed := true }

/-- The tickets whose claims waited and need not wait any longer after a change. -/
def served (before after : Permits) : List Nat :=
  (before.waiting.map (·.ticket)).filter fun t => after.closed || after.isComplete t

end Permits

end MutationPipeline
