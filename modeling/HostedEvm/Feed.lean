import HostedEvm.Breakdown

set_option autoImplicit false

/-!
Broadcast feeds.

Every subscriber of a feed sees every event sent after it subscribed, as long as it keeps up: the
feed keeps a fixed number of the latest events, and a subscriber that fell behind is told how many
it lost before it goes on with the oldest kept one.
-/

namespace HostedEvm

structure Feed (Event : Type) where
  capacity : Nat
  /-- The number of events sent so far. -/
  sent : Nat := 0
  /-- The latest events, newest first. -/
  kept : List Event := []

inductive Delivery (Event : Type)
  | event (event : Event)
  /-- Some events were sent and are no longer kept. -/
  | lagged (count : Nat)

/-- The place of a subscriber: the number of events sent before the next one it will see. -/
structure Subscription where
  next : Nat

namespace Feed

variable {Event : Type}

/-- A feed that keeps at least `capacity` events, rounded up to a power of two. -/
def ofCapacity (capacity : Nat) : Feed Event := { capacity := (max capacity 1).nextPowerOfTwo }

/-- What keeps a feed that is to keep `capacity` events from being set up: its slots are counted and
stand in memory from the start. -/
def breakdown? (capacity : Nat) : Option Breakdown :=
  if 1 <<< 63 ≤ capacity then some .channel
  else if 1 <<< 57 ≤ (max capacity 1).nextPowerOfTwo then some .list
  else none

def send (feed : Feed Event) (event : Event) : Feed Event :=
  { feed with sent := feed.sent + 1, kept := (event :: feed.kept).take feed.capacity }

def subscribe (feed : Feed Event) : Subscription := ⟨feed.sent⟩

/-- The events still kept of those that a subscriber has not seen, oldest first. -/
def unseen (feed : Feed Event) (subscription : Subscription) : List Event :=
  (feed.kept.take (feed.sent - subscription.next)).reverse

def receive (feed : Feed Event) (subscription : Subscription) :
    List (Delivery Event) × Subscription :=
  let unseen := feed.unseen subscription
  let lost := feed.sent - subscription.next - unseen.length
  let deliveries := unseen.map .event
  (if lost = 0 then deliveries else .lagged lost :: deliveries, feed.subscribe)

end Feed

end HostedEvm
