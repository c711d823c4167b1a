import HostedEvm.Feed
import HostedEvm.Pool.Fault
import HostedEvm.Pool.Queue

set_option autoImplicit false

/-!
A pool of transactions that wait for a block.

A transaction becomes pending only at the nonce of its account, and with it those that follow
without a gap. Removing a pending one makes its successors wait. Every transaction that becomes
pending is announced once.
-/

namespace HostedEvm

structure PoolConfig where
  maxPerAccount : Nat := 64
  maxTotal : Nat := 10000
  /-- The gas price below which a pending run may be cut. -/
  minTip : Word := 0
  /-- How many announcements are kept for a subscriber. -/
  eventCapacity : Nat := 128
  deriving DecidableEq

/-- Which group a transaction is in. -/
inductive PoolStatus
  | pending
  | queued
  deriving DecidableEq

/-- Transactions by sender, each sender's in order. -/
abbrev PoolContent := List (Address × List Transaction)

/-- How many transactions are in each group. -/
structure PoolStats where
  pending : Nat := 0
  queued : Nat := 0
  deriving DecidableEq

/-- The number of transactions in both groups. -/
def PoolStats.total (stats : PoolStats) : Nat := stats.pending + stats.queued

/-- The nonces of the accounts on the chain. -/
abbrev NonceOf := Address → UInt64

structure Pool where
  config : PoolConfig := {}
  queues : Map Address SenderQueue := ∅
  index : Map Word Transaction := ∅
  /-- Announcements of transactions that became pending. -/
  feed : Feed (List Transaction) := .ofCapacity 128

namespace Pool

def ofConfig (config : PoolConfig) : Pool where
  config := config
  feed := .ofCapacity config.eventCapacity

/-- What keeps a pool from being set up. -/
def breakdown? (config : PoolConfig) : Option Breakdown := Feed.breakdown? config.eventCapacity

def size (pool : Pool) : Nat := pool.index.size

def queue (pool : Pool) (sender : Address) : SenderQueue := pool.queues[sender]?.getD {}

/-- The pool with other transactions of a sender. A sender without any is forgotten. -/
def withQueue (pool : Pool) (sender : Address) (queue : SenderQueue) : Pool :=
  { pool with
    queues :=
      if queue.txs.isEmpty then pool.queues.erase sender else pool.queues.insert sender queue }

/-- The pool with other transactions of a sender, even if there are none. -/
def keepQueue (pool : Pool) (sender : Address) (queue : SenderQueue) : Pool :=
  { pool with queues := pool.queues.insert sender queue }

/-- The pool without the senders that have no transactions. -/
def swept (pool : Pool) : Pool :=
  { pool with queues := pool.queues.filter fun _ queue => !queue.txs.isEmpty }

/-- The pool without some transactions in its index. -/
def forget (pool : Pool) (txs : List Transaction) : Pool :=
  { pool with index := txs.foldl (fun index tx => index.erase tx.hash) pool.index }

def announce (pool : Pool) (txs : List Transaction) : Pool :=
  if txs.isEmpty then pool else { pool with feed := pool.feed.send txs }

/-- Whether a transaction may take its place in a queue, and which one it displaces. A waiting
transaction may be displaced without asking. -/
def placeFor (pool : Pool) (queue : SenderQueue) (tx : Transaction) (replacing : Bool) :
    Except PoolFault (Option Transaction) :=
  if pool.index.contains tx.hash then .error (.alreadyKnown tx.hash)
  else match queue.txs[tx.nonce]? with
    | some existing =>
      if !replacing && queue.isPending tx.nonce then .error (.nonceTaken tx.nonce existing.hash)
      else .ok (some existing)
    | none =>
      if replacing then .error (.nothingToReplace tx.nonce)
      else if queue.txs.size ≥ pool.config.maxPerAccount then
        .error (.senderFull tx.sender queue.txs.size)
      else if pool.size ≥ pool.config.maxTotal then .error (.poolFull pool.size)
      else .ok none

/-- The pool with a transaction in the index in the place of those it displaces. -/
def indexed (pool : Pool) (tx : Transaction) (displaced : Option Transaction) : Pool :=
  let pool := pool.forget displaced.toList
  { pool with index := pool.index.insert tx.hash tx }

/-- Put a transaction into a queue that has been brought up to date, and announce what became
pending since `before`. -/
def place (pool : Pool) (queue : SenderQueue) (before : List Word) (tx : Transaction)
    (replacing : Bool) : Except PoolFault (PoolStatus × Option Transaction) × Pool :=
  match pool.placeFor queue tx replacing with
  | .error fault =>
    (.error fault, (pool.withQueue tx.sender queue).announce (queue.newlyPending before))
  | .ok displaced =>
    let pool := pool.indexed tx displaced
    match queue.putAndPromote? tx with
    | none => (.error (.breakdown .sum), pool.withQueue tx.sender (queue.put tx))
    | some queue =>
      let status := if queue.isPending tx.nonce then .pending else .queued
      (.ok (status, displaced),
        (pool.withQueue tx.sender queue).announce (queue.newlyPending before))

/-- Take in a transaction. The transactions of its sender that the chain has passed are dropped
first. -/
def add (pool : Pool) (nonceOf : NonceOf) (tx : Transaction) (replacing : Bool) :
    Except PoolFault (PoolStatus × Option Transaction) × Pool :=
  let base := nonceOf tx.sender
  if tx.isEmpty then (.error .unsealed, pool)
  else if tx.nonce < base then (.error (.nonceTooLow base tx.nonce), pool)
  else
    let old := pool.queue tx.sender
    match old.rebase? base with
    | none => (.error (.breakdown .sum), pool.withQueue tx.sender (old.moved base))
    | some queue => (pool.forget (old.below base)).place queue old.pendingHashes tx replacing

/-- Take in a transaction whose place is free or taken by a waiting one. -/
def insert (pool : Pool) (nonceOf : NonceOf) (tx : Transaction) :
    Except PoolFault PoolStatus × Pool :=
  let (outcome, pool) := pool.add nonceOf tx false
  (outcome.map Prod.fst, pool)

/-- Take in a transaction in the place of another, and return the other. -/
def replace (pool : Pool) (nonceOf : NonceOf) (tx : Transaction) :
    Except PoolFault Transaction × Pool :=
  match pool.add nonceOf tx true with
  | (.ok (_, some displaced), pool) => (.ok displaced, pool)
  | (.ok (_, none), pool) => (.error (.nothingToReplace tx.nonce), pool)
  | (.error fault, pool) => (.error fault, pool)

/-- Drop the transaction with a hash, and return it. -/
def remove (pool : Pool) (hash : Word) : Option Transaction × Pool :=
  match pool.index[hash]? with
  | none => (none, pool)
  | some tx =>
    let pool := { pool with index := pool.index.erase hash }
    match pool.queues[tx.sender]? with
    | none => (some tx, pool)
    | some queue => (some tx, pool.withQueue tx.sender (queue.without tx.nonce))

/-- What bringing senders up to date has led to. -/
structure Pruning where
  pool : Pool
  dropped : List Transaction := []
  announced : List Transaction := []
  /-- Whether a pending run had no end. -/
  overflowed : Bool := false

/-- Bring one sender up to date. Its queue is kept for now, even if nothing is left in it. -/
def Pruning.step (nonceOf : NonceOf) (pruning : Pruning) (entry : Address × SenderQueue) :
    Pruning :=
  let (sender, old) := entry
  let base := nonceOf sender
  if pruning.overflowed then pruning
  else match old.rebase? base with
    | none =>
      { pruning with
        pool := pruning.pool.keepQueue sender (old.moved base), overflowed := true }
    | some queue =>
      { pruning with
        pool := (pruning.pool.forget (old.below base)).keepQueue sender queue
        dropped := pruning.dropped ++ old.below base
        announced := pruning.announced ++ queue.newlyPending old.pendingHashes }

/-- Bring every sender up to date, and return the transactions that the chain has passed. Senders
without transactions are forgotten at the end. -/
def prune (pool : Pool) (nonceOf : NonceOf) : Except PoolFault (List Transaction) × Pool :=
  let pruning := pool.queues.toList.foldl (Pruning.step nonceOf) { pool }
  if pruning.overflowed then (.error (.breakdown .sum), pruning.pool)
  else (.ok pruning.dropped, pruning.pool.swept.announce pruning.announced)

def nextNonce (pool : Pool) (nonceOf : NonceOf) (sender : Address) : UInt64 :=
  match pool.queues[sender]? with
  | some queue => max queue.pendingEnd (nonceOf sender)
  | none => nonceOf sender

/-- What a function finds in every queue, without the senders for whom it finds nothing. -/
def contentOf (pool : Pool) (find : SenderQueue → List Transaction) : PoolContent :=
  (pool.queues.toList.map fun (sender, queue) => (sender, find queue)).filter
    fun entry => !entry.2.isEmpty

/-- The pending transactions. With `enforceTips`, the run of a sender ends before its first
transaction that is priced below the least tip. -/
def pending (pool : Pool) (enforceTips : Bool) : PoolContent :=
  pool.contentOf fun queue =>
    queue.pending.takeWhile fun tx => !enforceTips || pool.config.minTip ≤ tx.gasPrice

def queued (pool : Pool) : PoolContent := pool.contentOf SenderQueue.queued

/-- How many transactions are in each group. -/
def stats (pool : Pool) : PoolStats :=
  (Map.listValues pool.queues).foldl
    (fun stats queue =>
      { pending := stats.pending + queue.pending.length
        queued := stats.queued + (queue.txs.size - queue.pending.length) })
    {}

def get? (pool : Pool) (hash : Word) : Option Transaction := pool.index[hash]?

def contains (pool : Pool) (hash : Word) : Bool := pool.index.contains hash

end Pool

end HostedEvm
