import Ridehail.Event.Basic

/-!
# The event bus

A message goes to everyone who has subscribed before it was sent. The bus keeps
the latest messages only, as many as its capacity; a subscriber that has fallen
further behind is told once how many it missed and goes on with the oldest
message that is kept.
-/

namespace Ridehail

/-- A bus: what was sent, oldest first, and how far each subscriber has read. -/
structure Bus where
  capacity : Nat
  sent : List Published
  positions : List Nat
  deriving Inhabited

/-- What a subscriber gets. -/
inductive Received where
  | message (p : Published)
  | lagged (missed : Nat)
  | empty

namespace Bus

/-- A bus that keeps at least `capacity` messages, a power of two. -/
def ofCapacity (capacity : Nat) : Bus :=
  { capacity := (max capacity 1).nextPowerOfTwo, sent := [], positions := [] }

/-- Sends a message. -/
def publish (b : Bus) (p : Published) : Bus := { b with sent := b.sent ++ [p] }

/-- Adds a subscriber and gives its number. -/
def subscribe (b : Bus) : Nat × Bus :=
  (b.positions.length, { b with positions := b.positions ++ [b.sent.length] })

/-- The number of messages that are not kept any more. -/
def dropped (b : Bus) : Nat := b.sent.length - b.capacity

/-- What subscriber `sub` gets next. -/
def receive (b : Bus) (sub : Nat) : Received × Bus :=
  let position := b.positions.getD sub b.sent.length
  if position < b.dropped then
    (.lagged (b.dropped - position),
      { b with positions := b.positions.set sub b.dropped })
  else
    match b.sent[position]? with
    | some p =>
        (.message p, { b with positions := b.positions.set sub (position + 1) })
    | none => (.empty, b)

/-- The messages that a subscriber which was there from the start and reads only
now still gets. -/
def kept (b : Bus) : List Published := b.sent.drop b.dropped

end Bus

end Ridehail
