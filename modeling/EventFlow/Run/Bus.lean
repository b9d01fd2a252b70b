/-
  EventFlow.Run.Bus — run events for those who watch.

  The bus keeps the latest events. A receiver sees what is published after it subscribed;
  one that falls behind is told once how many events it lost, and goes on with the oldest
  one kept. How many are kept is a power of two.
-/

import EventFlow.Run.State

namespace EventFlow

structure Bus (α : Type) where
  /-- How many events are kept. -/
  capacity : Nat
  /-- The number of events published. -/
  published : Nat := 0
  /-- The events kept, oldest first. -/
  kept : List α := []
  /-- How many events each receiver has seen or lost, counted from the first. -/
  receivers : List Nat := []
  deriving Inhabited

inductive Received (α : Type) where
  | event (e : α)
  | lagged (lost : Nat)
  | empty

namespace Bus

variable {α : Type}

def defaultCapacity : Nat := 256

/-- A bus that keeps at least so many events. -/
def new (capacity : Nat) : Bus α := { capacity := capacity.nextPowerOfTwo }

def publish (b : Bus α) (e : α) : Bus α :=
  let kept := b.kept ++ [e]
  { b with published := b.published + 1, kept := kept.drop (kept.length - b.capacity) }

def subscribe (b : Bus α) : Bus α × Nat :=
  ({ b with receivers := b.receivers ++ [b.published] }, b.receivers.length)

/-- The number of the oldest event kept. -/
def oldest (b : Bus α) : Nat := b.published - b.kept.length

def receive (b : Bus α) (who : Nat) : Received α × Bus α :=
  match b.receivers[who]? with
  | none => (.empty, b)
  | some seen =>
    if seen < b.oldest then
      (.lagged (b.oldest - seen), { b with receivers := b.receivers.set who b.oldest })
    else
      match b.kept[seen - b.oldest]? with
      | some e => (.event e, { b with receivers := b.receivers.set who (seen + 1) })
      | none => (.empty, b)

end Bus
end EventFlow
