import HostedEvm.State.Command

set_option autoImplicit false

/-!
Sessions of commands that refer to earlier answers.

A session numbers the snapshots and the suspended prices that it has seen, so that a later step can
name them.
-/

namespace HostedEvm

/-- The snapshots and suspended prices seen so far, oldest first. -/
structure Keepsakes where
  snapshots : List Snapshot := []
  prices : List StoragePrices := []

inductive SessionStep
  | command (command : StateCommand)
  /-- Take back the snapshot with a number. -/
  | rewindTo (number : Nat)
  /-- Restore the suspended prices with a number. -/
  | restoreTo (number : Nat)

namespace SessionStep

/-- The command that a step stands for, if what it names has been seen. -/
def resolve (kept : Keepsakes) : SessionStep → Option StateCommand
  | .command plain => some plain
  | .rewindTo number => kept.snapshots[number]?.map .rewind
  | .restoreTo number => kept.prices[number]?.map .restorePrices

/-- What is kept after the answer to a command. -/
def keep (kept : Keepsakes) : StateCommand → Reply → Keepsakes
  | .snapshot, .snapshot snapshot => { kept with snapshots := kept.snapshots ++ [snapshot] }
  | .suspendPrices, .prices prices => { kept with prices := kept.prices ++ [prices] }
  | _, _ => kept

/-- Carry out one step. A step that names what was never seen does nothing. -/
def run (step : SessionStep) (kept : Keepsakes) (state : JournaledState) :
    Reply × Keepsakes × JournaledState :=
  match step.resolve kept with
  | some resolved =>
    let (reply, state) := resolved.run state
    (reply, keep kept resolved reply, state)
  | none => (.nothing, kept, state)

end SessionStep

end HostedEvm
