import HostedEvm.Fault

set_option autoImplicit false

/-!
Snapshots over several components at once.

A component is marked, taken back to a mark and committed on its own. A controller asks every
registered component for a mark and bundles the marks by the components' keys; taking the bundle
back hands every component its own mark, or changes nothing when a key is unknown. Components are
kept in the order of their keys, whatever the order of registration.
-/

namespace HostedEvm

/-- A component whose changes can be taken back to an earlier mark. -/
class Checkpointed (Component : Type) where
  key : String
  mark : Component → Nat × Component
  /-- Undo every change since the mark. -/
  rewind : Nat → Component → Component
  /-- Make the changes final. -/
  commit : Component → Component

/-- One component as a part of a larger state. -/
structure Part (State : Type) where
  key : String
  mark : State → Nat × State
  rewind : Nat → State → State
  commit : State → State

/-- The component that `get` reads from the state and `put` writes back. -/
def Part.focus {State Component : Type} [Checkpointed Component] (get : State → Component)
    (put : Component → State → State) : Part State where
  key := Checkpointed.key Component
  mark state :=
    let (id, component) := Checkpointed.mark (get state)
    (id, put component state)
  rewind id state := put (Checkpointed.rewind id (get state)) state
  commit state := put (Checkpointed.commit (get state)) state

/-- The marks of several components, by key. -/
abbrev Snapshot := List (String × Nat)

def Snapshot.markOf? (snapshot : Snapshot) (key : String) : Option Nat :=
  (snapshot.find? fun entry => entry.1 = key).map Prod.snd

/-- The registered components in the order of their keys. -/
structure Controller (State : Type) where
  parts : List (Part State) := []

namespace Controller

variable {State : Type}

def part? (controller : Controller State) (key : String) : Option (Part State) :=
  controller.parts.find? fun part => part.key = key

def contains (controller : Controller State) (key : String) : Bool :=
  (controller.part? key).isSome

/-- The components with one more at the place of its key. -/
def place (part : Part State) : List (Part State) → List (Part State)
  | [] => [part]
  | first :: rest =>
    if part.key < first.key then part :: first :: rest else first :: place part rest

/-- Register a component under its own key, unless the key is taken. -/
def register (controller : Controller State) (part : Part State) :
    Except Fault (Controller State) :=
  if controller.contains part.key then .error (.duplicateComponent part.key)
  else .ok ⟨place part controller.parts⟩

/-- Register several components in turn. -/
def registerAll (parts : List (Part State)) : Except Fault (Controller State) :=
  parts.foldlM register {}

/-- Mark the given components in order. -/
def markEach : List (Part State) → State → Snapshot × State
  | [], state => ([], state)
  | part :: rest, state =>
    let (id, marked) := part.mark state
    let (ids, final) := markEach rest marked
    ((part.key, id) :: ids, final)

def snapshot (controller : Controller State) (state : State) : Snapshot × State :=
  markEach controller.parts state

/-- Take one component back, if it is registered. -/
def rewindOne (controller : Controller State) (state : State) (entry : String × Nat) : State :=
  match controller.part? entry.1 with
  | some part => part.rewind entry.2 state
  | none => state

/-- Take every component named by the snapshot back to its mark. -/
def rewind (controller : Controller State) (snapshot : Snapshot) (state : State) :
    Except Fault State :=
  match snapshot.find? fun entry => !controller.contains entry.1 with
  | some entry => .error (.unknownComponent entry.1)
  | none => .ok (snapshot.foldl controller.rewindOne state)

def commit (controller : Controller State) (state : State) : State :=
  controller.parts.foldl (fun current part => part.commit current) state

end Controller

end HostedEvm
