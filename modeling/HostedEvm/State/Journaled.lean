import HostedEvm.Fork
import HostedEvm.Journal.AccessList
import HostedEvm.Journal.Destroyed
import HostedEvm.Journal.Logs
import HostedEvm.Journal.Refund
import HostedEvm.Journal.Transient
import HostedEvm.State.Store

set_option autoImplicit false

/-!
The state that an interpreter works on.

It joins the account store with the journals of the running transaction. A snapshot holds a mark of
the store and of every journal, and taking it back hands each of them its own mark.
-/

namespace HostedEvm

/-- The account store with the journals of the running transaction. -/
structure JournaledState where
  store : Store := {}
  logs : LogBuffer := {}
  refund : Refund := {}
  accessList : AccessList := {}
  transient : TransientStorage := {}
  destroyed : DestroyedAccounts := {}

namespace JournaledState

def accessListPart : Part JournaledState :=
  .focus accessList fun accessList state => { state with accessList }

def destroyedPart : Part JournaledState :=
  .focus destroyed fun destroyed state => { state with destroyed }

def logsPart : Part JournaledState := .focus logs fun logs state => { state with logs }

def refundPart : Part JournaledState := .focus refund fun refund state => { state with refund }

def storePart : Part JournaledState := .focus store fun store state => { state with store }

def transientPart : Part JournaledState :=
  .focus transient fun transient state => { state with transient }

/-- The controller of the journals alone. -/
def journals : Controller JournaledState :=
  ⟨[accessListPart, destroyedPart, logsPart, refundPart, transientPart]⟩

/-- The controller of the store and the journals. -/
def everything : Controller JournaledState :=
  ⟨[accessListPart, destroyedPart, logsPart, refundPart, storePart, transientPart]⟩

def snapshot (state : JournaledState) : Snapshot × JournaledState := everything.snapshot state

/-- Take the store and every journal back to a snapshot. -/
def rewind (state : JournaledState) (snapshot : Snapshot) : Except Fault JournaledState :=
  everything.rewind snapshot state

/-- Take the state back to a snapshot of its own, and leave it alone if the snapshot is foreign. -/
def rewound (state : JournaledState) (snapshot : Snapshot) : Except Fault Unit × JournaledState :=
  match state.rewind snapshot with
  | .ok earlier => (.ok (), earlier)
  | .error fault => (.error fault, state)

/-- Prepare the store for a new block. -/
def beginBlock (state : JournaledState) : JournaledState :=
  { state with store := state.store.beginBlock }

/-- Start a transaction: commit what an earlier one left in the journals, cool every address, and
stamp the transaction on the logs to come. -/
def beginTransaction (state : JournaledState) (txHash : Word) (txIndex : UInt64) : JournaledState :=
  let state := journals.commit state
  { state with
    accessList := state.accessList.clear
    logs := state.logs.withTransaction txHash txIndex }

/-- End a transaction: remove the destroyed accounts and commit the rest. -/
def finalize (state : JournaledState) : JournaledState :=
  everything.commit { state with store := state.store.delete state.destroyed.order }

def warm (state : JournaledState) (address : Address) : JournaledState :=
  { state with accessList := (state.accessList.addAddress address).2 }

/-- Warm a slot and its address. -/
def warmSlot (state : JournaledState) (address : Address) (slot : Word) : JournaledState :=
  { state with accessList := (state.accessList.addSlot address slot).2 }

/-- Warm an address and some of its slots. -/
def warmItem (state : JournaledState) (item : AccessListItem) : JournaledState :=
  item.storageKeys.foldl (fun state key => state.warmSlot item.address key)
    (state.warm item.address)

/-- Warm what a transaction touches in any case: from Berlin on its sender, its recipient, the
precompiles and its access list, and from Shanghai on the coinbase too. -/
def prepareAccessList (state : JournaledState) (rules : ForkRules) (sender coinbase : Address)
    (recipient : Option Address) (precompiles : List Address) (items : List AccessListItem) :
    JournaledState :=
  if rules.berlin then
    let state := (sender :: (recipient.toList ++ precompiles)).foldl warm state
    let state := items.foldl warmItem state
    if rules.shanghai then state.warm coinbase else state
  else state

def addLog (state : JournaledState) (log : Log) : JournaledState :=
  { state with logs := state.logs.add log }

/-- Mark an account destroyed and burn its funds. The account goes at the end of the
transaction. -/
def selfDestruct (state : JournaledState) (address : Address) : JournaledState :=
  let (balance, store) := state.store.balance address
  let store := if balance = 0 then store else store.subBalance address balance
  { state with store, destroyed := (state.destroyed.mark address).2 }

def prices (state : JournaledState) : StoragePrices := state.store.prices

def withPrices (state : JournaledState) (prices : StoragePrices) : JournaledState :=
  { state with store := state.store.withPrices prices }

/-- A state over the accounts at the end of a block. -/
def view? (state : JournaledState) (number : UInt64) : Except Fault JournaledState :=
  (state.store.view? number).map fun store => { store }

/-- The state after a view of it was used. -/
def after (state view : JournaledState) : JournaledState :=
  { state with store := state.store.after view.store }

theorem registerAll_parts :
    Controller.registerAll
        [storePart, logsPart, refundPart, accessListPart, transientPart, destroyedPart] =
      .ok everything := by
  rfl

end JournaledState

end HostedEvm
