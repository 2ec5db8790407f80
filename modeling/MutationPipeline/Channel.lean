/-!
Channels between activities. A channel holds a bounded number of items. It is closed for the one
side when the receiver is gone, and for the other when all senders are gone.
-/
namespace MutationPipeline

structure Channel (α : Type) where
  capacity : Nat
  items : List α := []
  senders : Nat := 1
  receiving : Bool := true

namespace Channel

/-- Sends an item. There is no move while the channel is full; the result says whether the item
was taken. -/
def send (c : Channel α) (x : α) : List (Channel α × Bool) :=
  if !c.receiving then [(c, false)]
  else if c.items.length < c.capacity then [({ c with items := c.items ++ [x] }, true)]
  else []

/-- Receives an item. There is no move while none is there and some may still come. -/
def receive (c : Channel α) : List (Channel α × Option α) :=
  match c.items with
  | x :: items => [({ c with items }, some x)]
  | [] => if c.senders = 0 then [(c, none)] else []

def dropSender (c : Channel α) : Channel α := { c with senders := c.senders - 1 }

def dropReceiver (c : Channel α) : Channel α := { c with receiving := false, items := [] }

end Channel

end MutationPipeline
