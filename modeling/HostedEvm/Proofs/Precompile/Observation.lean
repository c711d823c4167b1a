import HostedEvm.Proofs.Precompile.Atomicity
import HostedEvm.Proofs.Precompile.Invariance

set_option autoImplicit false

/-!
Properties of accounts and journals that calls of precompiles keep.

Taking a snapshot back brings back what held when it was taken. A handler that only goes back to
live snapshots of its own therefore keeps every property that can be read off accounts and journals,
if its other requests keep the property. Such a property can compare the state with the one at the
start, which a way back to any snapshot would not keep, and with the events and the calls that the
handler has asked for since. It holds behind a call that succeeds, that fails, and in which the host
gave up.
-/

namespace HostedEvm

namespace JournaledState

def Visible (property : JournaledState → Prop) : Prop :=
  ∀ {state later : JournaledState}, later.SameView state → property state → property later

/-- The property holds, and held when each of the live snapshots was taken. -/
inductive Secured (property : JournaledState → Prop) : List Snapshot → JournaledState → Prop where
  | base {state} : property state → Secured property [] state
  | snapshot {live origin state} : Secured property live origin →
      origin.snapshot.2.Extends state → property state →
      Secured property (origin.snapshot.1 :: live) state

variable {property : JournaledState → Prop} {live newer older : List Snapshot}
  {taken : Snapshot} {state later : JournaledState}

theorem Secured.holds (secured : Secured property live state) : property state := by
  cases secured with
  | base holds => exact holds
  | snapshot _ _ holds => exact holds

theorem Secured.imp {weaker : JournaledState → Prop}
    (imp : ∀ state, property state → weaker state) (secured : Secured property live state) :
    Secured weaker live state := by
  induction secured with
  | base holds => exact .base (imp _ holds)
  | snapshot _ start holds inductionHypothesis =>
      exact .snapshot inductionHypothesis start (imp _ holds)

theorem Secured.mono (secured : Secured property live state) (grown : state.Extends later)
    (holds : property later) : Secured property live later := by
  cases secured with
  | base _ => exact .base holds
  | snapshot below start _ => exact .snapshot below (start.trans grown) holds

theorem sameView_snapshot (state : JournaledState) : state.snapshot.2.SameView state :=
  ⟨rfl, rfl, rfl, rfl, rfl, fun _ => rfl, rfl⟩

theorem sameView_withPrices (state : JournaledState) (prices : StoragePrices) :
    (state.withPrices prices).SameView state :=
  ⟨rfl, rfl, rfl, rfl, rfl, fun _ => rfl, rfl⟩

theorem Secured.push (visible : Visible property) (secured : Secured property live state) :
    Secured property (state.snapshot.1 :: live) state.snapshot.2 :=
  .snapshot secured (.refl _) (visible state.sameView_snapshot secured.holds)

/-- The newer snapshots can be given up, since the present extends what the older one left. -/
theorem Secured.drop (secured : Secured property (newer ++ taken :: older) state) :
    Secured property (taken :: older) state := by
  induction newer generalizing state with
  | nil => exact secured
  | cons newest rest inductionHypothesis =>
      cases secured with
      | @snapshot _ origin _ below start holds =>
          exact (inductionHypothesis below).mono ((extends_snapshot origin).trans start) holds

/-- Behind the way to a live snapshot the property holds again, and the older ones stay live. -/
theorem Secured.rewound (visible : Visible property)
    (secured : Secured property (newer ++ taken :: older) state) :
    Secured property older (state.rewound taken).2 := by
  cases secured.drop with
  | @snapshot _ origin _ below start holds =>
      rw [rewound_of_extends start]
      exact below.mono (extends_restoredTo start) (visible (restoredTo_sameView start) below.holds)

end JournaledState

open JournaledState

inductive Request
  | emit (event : NativeEvent)
  | call (recipient : Address) (input : Bytes) (gas : Gas) (value : Word)
  deriving DecidableEq

/-- What is asked for behind an answer, which is nothing if the host gave up. -/
def Request.behind {Answered : Type} (next : Except Fault Answered → Machine → List Request) :
    Except Fault Answered × Machine → List Request
  | (.error (.breakdown _), _) => []
  | (outcome, machine) => next outcome machine

/-- The requests that a handler makes while it runs, in their order. -/
def Program.requests {Result : Type} (scene : Scene) :
    Program Result → Meter → Machine → List Request
  | .finish _, _, _ => []
  | .perform command next, meter, machine =>
    let (reply, state) := command.run machine.state
    requests scene (next reply) meter { machine with state }
  | .consume amount next, meter, machine =>
    let (outcome, meter) := meter.consume amount
    requests scene (next outcome) meter machine
  | .consumed next, meter, machine => requests scene (next meter.txConsumed) meter machine
  | .emit event next, meter, machine =>
    .emit event :: Request.behind (fun outcome => requests scene (next outcome) meter)
      (scene.emit event machine)
  | .call recipient input gas value next, meter, machine =>
    .call recipient input gas value ::
      Request.behind (fun output => requests scene (next output) meter)
        (scene.call recipient input gas value machine)

def Container.requests (container : Container) (scene : Scene) (input : Bytes) (meter : Meter)
    (machine : Machine) : List Request :=
  match container with
  | .pure _ => []
  | .dispatching table =>
    match table.select input with
    | .error _ => []
    | .ok bound =>
      match table.codec.decodeInput bound.function (input.drop 4) with
      | .error _ => []
      | .ok arguments =>
        (bound.method.handler scene.invocation arguments).requests scene meter machine

def Registry.executeRequests (container : Container) (scene : Scene) (input : Bytes)
    (machine : Machine) : List Request :=
  match Meter.unlimited.consume (container.requiredGas input) with
  | (.ok (), meter) => container.requests scene input meter machine
  | (.error _, _) => []

def Registry.requests (registry : Registry) (nested : Answer) (invocation : Invocation)
    (input : Bytes) (machine : Machine) : List Request :=
  match registry.get? invocation.address with
  | none => []
  | some container =>
    executeRequests container ⟨invocation, container.book?, nested⟩ input
      { machine with state := machine.state.snapshot.2.withPrices registry.prices }

section

variable {property : List Request → JournaledState → Prop} {allowed : StateCommand → Prop}
  {scene : Scene} {made : List Request}
  (visible : ∀ made, Visible (property made))
  (lasts : ∀ made further state, property made state → property (made ++ further) state)
  (commands : ∀ command, allowed command → command.isReversible = true →
    ∀ made state, property made state → property made (command.run state).2)
  (emits : ∀ event made (machine : Machine), property made machine.state →
    property (made ++ [.emit event]) (scene.emit event machine).2.state)
  (calls : ∀ recipient input gas value made (machine : Machine), property made machine.state →
    property (made ++ [.call recipient input gas value])
      (scene.call recipient input gas value machine).2.state)
  (contained : Answer.Contained scene.nested)

include visible lasts commands emits calls contained

/-- A well nested handler keeps what can be seen and what its requests keep. The induction carries
the live snapshots, at each of which the property held with the requests until then. -/
theorem Program.WellNested.run_keeps {Result : Type} {live : List Snapshot}
    {program : Program Result} (nested : program.WellNested live) (only : program.Only allowed)
    (meter : Meter) {machine : Machine} (secured : Secured (property made) live machine.state) :
    property (made ++ program.requests scene meter machine)
      (program.run scene meter machine).2.2.state := by
  induction nested generalizing made meter machine with
  | finish =>
      rw [requests, List.append_nil]
      exact secured.holds
  | @perform live command next reversible _ inductionHypothesis =>
      cases only with
      | perform permitted following =>
          have grown := StateCommand.extends_run reversible machine.state
          have kept := commands command permitted reversible made machine.state secured.holds
          exact inductionHypothesis _ (following _) meter (secured.mono grown kept)
  | @snapshot live next _ inductionHypothesis =>
      cases only with
      | perform _ following =>
          exact inductionHypothesis _ (following _) meter (secured.push (visible made))
  | @rewind newer taken older next _ inductionHypothesis =>
      cases only with
      | perform _ following =>
          exact inductionHypothesis _ (following _) meter (secured.rewound (visible made))
  | @consume live amount next _ inductionHypothesis =>
      cases only with
      | consume following => exact inductionHypothesis _ (following _) _ secured
  | @consumed live next _ inductionHypothesis =>
      cases only with
      | consumed following => exact inductionHypothesis _ (following _) meter secured
  | @emit live event next _ inductionHypothesis =>
      cases only with
      | emit following =>
          have grown := scene.emit_extends event machine
          have kept := emits event made machine secured.holds
          have asked := secured.imp (lasts made [.emit event])
          rw [requests, List.append_cons]
          simp only [run]
          generalize scene.emit event machine = answered at grown kept ⊢
          rcases answered with ⟨fault | emitted, after⟩
          · cases fault with
            | breakdown cause => exact (List.append_nil (made ++ _)).symm ▸ kept
            | _ => exact inductionHypothesis _ (following _) meter (asked.mono grown kept)
          · exact inductionHypothesis _ (following _) meter (asked.mono grown kept)
  | @call live recipient input gas value next _ inductionHypothesis =>
      cases only with
      | call following =>
          have grown := Scene.call_extends contained recipient input gas value machine
          have kept := calls recipient input gas value made machine secured.holds
          have asked := secured.imp (lasts made [.call recipient input gas value])
          rw [requests, List.append_cons]
          simp only [run]
          generalize scene.call recipient input gas value machine = answered at grown kept ⊢
          rcases answered with ⟨fault | output, after⟩
          · cases fault with
            | breakdown cause => exact (List.append_nil (made ++ _)).symm ▸ kept
            | _ =>
              have back := grown (returned_error_iff.mpr rfl)
              exact inductionHypothesis _ (following _) meter (asked.mono back kept)
          · have back := grown (returned_ok output)
            exact inductionHypothesis _ (following _) meter (asked.mono back kept)

theorem Container.run_observed {container : Container}
    (wellNested : container.Every Method.WellNested)
    (only : container.Every fun method =>
      ∀ arguments, (method.handler scene.invocation arguments).Only allowed)
    (input : Bytes) (meter : Meter) {machine : Machine} (holds : property [] machine.state) :
    property (container.requests scene input meter machine)
      (container.run scene input meter machine).2.2.state := by
  cases container with
  | pure contract => exact holds
  | dispatching table =>
      unfold run requests
      cases selected : table.select input with
      | error fault => simpa only [selected] using holds
      | ok bound =>
          cases decoded : table.codec.decodeInput bound.function (input.drop 4) with
          | error fault => simpa only [selected, decoded] using holds
          | ok arguments =>
              obtain ⟨selector, found⟩ := MethodTable.select_mem selected
              have nested := wellNested selector bound found scene.invocation arguments
              have permitted := only selector bound found arguments
              simp only [selected, decoded]
              exact nested.run_keeps visible lasts commands emits calls contained permitted meter
                (.base holds)

theorem Registry.execute_observed {container : Container}
    (wellNested : container.Every Method.WellNested)
    (only : container.Every fun method =>
      ∀ arguments, (method.handler scene.invocation arguments).Only allowed)
    (input : Bytes) {machine : Machine} (holds : property [] machine.state) :
    property (executeRequests container scene input machine)
      (execute container scene input machine).2.2.state := by
  unfold execute executeRequests
  rcases Meter.unlimited.consume (container.requiredGas input) with ⟨fault | _, meter⟩
  · exact holds
  · exact Container.run_observed visible lasts commands emits calls contained wellNested only input
      meter holds

omit lasts commands emits calls contained in
/-- A failed call brings back the snapshot in front of it. -/
theorem Registry.rewindOnFailure_observed {origin : JournaledState} (result : PrecompileResult)
    {machine : Machine} (before : property made origin)
    (grown : origin.snapshot.2.Extends machine.state) (holds : property made machine.state) :
    property made (rewindOnFailure origin.snapshot.1 result machine).2.state := by
  unfold rewindOnFailure
  split
  · exact holds
  · rw [Machine.rewound_of_extends grown]
    exact visible made (restoredTo_sameView grown) before

/-- A call of a precompile keeps what its handler keeps, whatever comes of it. -/
theorem Registry.run_observed {registry : Registry} {container : Container}
    (registered : registry.get? scene.invocation.address = some container)
    (own : scene.book = container.book?) (wellNested : container.Every Method.WellNested)
    (only : container.Every fun method =>
      ∀ arguments, (method.handler scene.invocation arguments).Only allowed)
    (input : Bytes) (supplied : Gas) {machine : Machine} (holds : property [] machine.state) :
    property (registry.requests scene.nested scene.invocation input machine)
      (registry.run scene.nested scene.invocation input supplied machine).2.state := by
  obtain ⟨invocation, book, nested⟩ := scene
  cases own
  have marked := visible [] machine.state.sameView_snapshot holds
  have paid := visible [] (sameView_withPrices _ registry.prices) marked
  have priced := extends_withPrices machine.state.snapshot.2 registry.prices
  have grown := @execute_extends ⟨invocation, container.book?, nested⟩ contained container
    (wellNested.imp fun _ => Method.WellNested.returning) input
    { machine with state := machine.state.snapshot.2.withPrices registry.prices }
  have executed := @execute_observed property allowed ⟨invocation, container.book?, nested⟩
    visible lasts commands emits calls contained container wellNested only input
    { machine with state := machine.state.snapshot.2.withPrices registry.prices } paid
  have before := lasts [] (registry.requests nested invocation input machine) _ holds
  unfold run requests at *
  simp only [registered] at before ⊢
  split
  · exact executed
  · rename_i ordinary
    have reached := priced.trans (grown fun cause same => ordinary cause same)
    apply rewindOnFailure_observed visible _ before
    · exact reached.trans (extends_withPrices _ _)
    · exact visible _ (sameView_withPrices _ _) executed

end

structure Watched (property : JournaledState → Prop) : Prop where
  visible : Visible property
  addLog : ∀ (state : JournaledState) (log : Log), property state → property (state.addLog log)

variable {property : JournaledState → Prop} (watched : Watched property)

include watched

theorem Watched.undisturbed : Undisturbed property where
  addLog := watched.addLog
  withPrices state prices := watched.visible (state.sameView_withPrices prices)

/-- What every allowed command keeps, calls of precompiles keep if what answers the calls within
them does. -/
theorem Registry.run_watched {allowed : StateCommand → Prop}
    (commands : ∀ command, allowed command → command.isReversible = true →
      ∀ state, property state → property (command.run state).2)
    {registry : Registry} (wellNested : registry.WellNested)
    (only : registry.Every (Method.Only allowed)) {nested : Answer}
    (contained : Answer.Contained nested) (answered : nested.Keeps property)
    (invocation : Invocation) (input : Bytes) (supplied : Gas) {machine : Machine}
    (holds : property machine.state) :
    property (registry.run nested invocation input supplied machine).2.state := by
  cases registered : registry.get? invocation.address with
  | none =>
      unfold run
      rw [registered]
      exact holds
  | some container =>
      have permitted : container.Every fun method =>
          ∀ arguments, (method.handler invocation arguments).Only allowed :=
        Container.Every.imp (only _ container registered) fun _ own => own invocation
      exact @run_observed (fun _ => property) allowed ⟨invocation, container.book?, nested⟩
        (fun _ => watched.visible) (fun _ _ _ kept => kept)
        (fun command permitted reversible _ => commands command permitted reversible)
        (fun event _ _ kept => Scene.emit_keeps watched.undisturbed event kept)
        (fun recipient input gas value _ _ kept =>
          Scene.call_keeps watched.undisturbed answered recipient input gas value kept)
        contained registry container registered rfl (wellNested _ container registered) permitted
        input supplied machine holds

end HostedEvm
