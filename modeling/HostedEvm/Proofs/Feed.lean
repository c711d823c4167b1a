import HostedEvm.Feed

set_option autoImplicit false

/-!
What a feed has sent.
-/

namespace HostedEvm.Feed

variable {Event : Type} {feed : Feed Event} {events : List Event}

/-- A feed has sent some events, newest first, and keeps as many of them as it can. -/
structure Carries (feed : Feed Event) (events : List Event) : Prop where
  sent : feed.sent = events.length
  kept : feed.kept = events.take feed.capacity

theorem carries_ofCapacity (capacity : Nat) : Carries (.ofCapacity capacity : Feed Event) [] :=
  ⟨rfl, List.take_nil.symm⟩

theorem Carries.send (carries : feed.Carries events) (event : Event) :
    (feed.send event).Carries (event :: events) where
  sent := by simp [Feed.send, carries.sent]
  kept := by
    change (event :: feed.kept).take feed.capacity = (event :: events).take feed.capacity
    rw [carries.kept]
    cases feed.capacity <;> simp [List.take_take]

end HostedEvm.Feed
