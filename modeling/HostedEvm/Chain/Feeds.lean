import HostedEvm.Block
import HostedEvm.Feed
import HostedEvm.Receipt

set_option autoImplicit false

/-!
What a chain announces.
-/

namespace HostedEvm

/-- The announcement of a finalized block. -/
structure ChainEvent where
  block : Block
  hash : Word
  logs : List Log

structure ChainFeeds where
  /-- Every finalized block with its logs. -/
  chain : Feed ChainEvent
  /-- Every new head. -/
  head : Feed Block
  /-- The logs of every block that has any. -/
  logs : Feed (List Log)
  /-- The logs of every block. -/
  pendingLogs : Feed (List Log)

namespace ChainFeeds

/-- Feeds that keep a number of events. -/
def ofCapacity (capacity : Nat) : ChainFeeds :=
  ⟨.ofCapacity capacity, .ofCapacity capacity, .ofCapacity capacity, .ofCapacity capacity⟩

def publish (feeds : ChainFeeds) (block : Block) (logs : List Log) : ChainFeeds where
  chain := feeds.chain.send ⟨block, block.hash, logs⟩
  head := feeds.head.send block
  logs := if logs.isEmpty then feeds.logs else feeds.logs.send logs
  pendingLogs := feeds.pendingLogs.send logs

end ChainFeeds

end HostedEvm
