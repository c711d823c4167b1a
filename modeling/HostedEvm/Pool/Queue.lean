import HostedEvm.Transaction

set_option autoImplicit false

/-!
The transactions of one sender.

They are kept by nonce. Those with the nonces from `base`, the nonce of the account when it was last
asked for, up to `pendingEnd` are pending: they can be executed one after the other. The others wait
for the chain.
-/

namespace HostedEvm

structure SenderQueue where
  /-- The nonce of the account when it was last asked for. -/
  base : UInt64 := 0
  /-- The first nonce behind the pending ones. -/
  pendingEnd : UInt64 := 0
  txs : Map UInt64 Transaction := ∅

namespace SenderQueue

/-- The transactions in the order of their nonces. -/
def all (queue : SenderQueue) : List Transaction := Map.listValues queue.txs

def isPending (queue : SenderQueue) (nonce : UInt64) : Bool :=
  queue.base ≤ nonce && nonce < queue.pendingEnd

/-- The transactions whose nonces a condition selects, in order. -/
def select (queue : SenderQueue) (condition : UInt64 → Bool) : List Transaction :=
  (queue.txs.toList.filter fun entry => condition entry.1).map Prod.snd

def pending (queue : SenderQueue) : List Transaction := queue.select queue.isPending

def queued (queue : SenderQueue) : List Transaction :=
  queue.select fun nonce => queue.pendingEnd ≤ nonce

/-- The first nonce that is missing in ascending nonces that are not below `start`. The greatest
nonce has no successor. -/
def runEnd? (start : UInt64) : List UInt64 → Option UInt64
  | [] => some start
  | nonce :: rest =>
    if nonce = start then
      if start = 0xffffffffffffffff then none else runEnd? (start + 1) rest
    else some start

/-- The queue with every transaction pending that follows the pending run without a gap. -/
def promote? (queue : SenderQueue) : Option SenderQueue :=
  (runEnd? queue.pendingEnd
      ((Map.listKeys queue.txs).filter fun nonce => queue.pendingEnd ≤ nonce)).map
    fun pendingEnd => { queue with pendingEnd }

/-- The transactions whose nonces lie below a nonce of the account. -/
def below (queue : SenderQueue) (base : UInt64) : List Transaction :=
  queue.select fun nonce => nonce < base

/-- The queue without the nonces below a nonce of the account. When the account went back, so does
the pending run. -/
def moved (queue : SenderQueue) (base : UInt64) : SenderQueue where
  base := base
  pendingEnd := max (if base < queue.base then base else queue.pendingEnd) base
  txs := queue.txs.filter fun nonce _ => base ≤ nonce

/-- The queue at a nonce of the account, with a new pending run if the old one is used up. -/
def rebase? (queue : SenderQueue) (base : UInt64) : Option SenderQueue :=
  let moved := queue.moved base
  if moved.pendingEnd = base then moved.promote? else some moved

/-- The queue with a transaction in the place of its nonce. -/
def put (queue : SenderQueue) (tx : Transaction) : SenderQueue :=
  { queue with txs := queue.txs.insert tx.nonce tx }

/-- The queue with a transaction in place, which starts a pending run if it is the next one of the
account. -/
def putAndPromote? (queue : SenderQueue) (tx : Transaction) : Option SenderQueue :=
  let placed := queue.put tx
  if tx.nonce = queue.base ∧ queue.pendingEnd = queue.base then placed.promote? else some placed

/-- The queue without a nonce. What follows a pending one waits. -/
def without (queue : SenderQueue) (nonce : UInt64) : SenderQueue :=
  { queue with
    txs := queue.txs.erase nonce
    pendingEnd := if queue.isPending nonce then nonce else queue.pendingEnd }

/-- The transactions that are pending in a queue and have none of the given hashes. -/
def newlyPending (queue : SenderQueue) (before : List Word) : List Transaction :=
  queue.pending.filter fun tx => !before.contains tx.hash

def pendingHashes (queue : SenderQueue) : List Word := queue.pending.map Transaction.hash

end SenderQueue

end HostedEvm
