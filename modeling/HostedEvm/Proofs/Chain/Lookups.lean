import HostedEvm.Execution.TransferMachine
import HostedEvm.Proofs.Chain.Records

set_option autoImplicit false

/-!
What the reader of a chain answers.

Blocks by height, receipts and inclusions are always those asked for. A block by its hash is the one
asked for unless its height was closed again: then the archive answers with the later block at that
height, as soon as the cache has no room for the earlier one.
-/

namespace HostedEvm

open FinalizedBlock

def Block.Includes (block : Block) (inclusion : Inclusion) : Prop :=
  inclusion.blockNumber = block.number ∧ inclusion.blockHash = block.hash ∧
    ∃ i, block.transactions[i]? = some inclusion.transaction ∧ inclusion.index = UInt64.ofNat i

theorem Block.includes_of_mem {block : Block} {inclusion : Inclusion}
    (listed : inclusion ∈ block.inclusions) : block.Includes inclusion := by
  obtain ⟨⟨transaction, i⟩, member, rfl⟩ := List.mem_map.mp listed
  exact ⟨rfl, rfl, i, List.mem_zipIdx_iff_getElem?.mp member, rfl⟩

theorem Block.exists_inclusion {block : Block} {tx : Transaction}
    (listed : tx ∈ block.transactions) :
    ∃ inclusion ∈ block.inclusions, inclusion.transaction = tx := by
  obtain ⟨i, place⟩ := List.mem_iff_getElem?.mp listed
  have paired : (tx, i) ∈ block.transactions.zipIdx := List.mem_zipIdx_iff_getElem?.mpr place
  exact ⟨_, List.mem_map_of_mem paired, rfl⟩

namespace FinalizedBlock

variable {blocks : List FinalizedBlock} {hash : Word}

/-- Behind a block with a hash, another one was closed at the same height. -/
def Superseded (blocks : List FinalizedBlock) (hash : Word) (block : Block) : Prop :=
  ∃ newer first older, blocks = newer ++ first :: older ∧ first.block.hash = hash ∧
    ∃ second ∈ newer, second.block = block ∧ block.number = first.block.number

theorem Bears.own_or_superseded {block : Block} (bears : Bears blocks hash block) :
    block.hash = hash ∨ Superseded blocks hash block := by
  obtain ⟨newer, first, older, split, same, _, place⟩ := bears
  rcases place with rfl | later
  · exact .inl same
  · exact .inr ⟨newer, first, older, split, same, later⟩

theorem includes_of_latestInclusion {inclusion : Inclusion}
    (found : latestInclusion blocks hash = some inclusion) :
    inclusion.transaction.hash = hash ∧
      ∃ finalized ∈ blocks, finalized.block.Includes inclusion := by
  have same := List.find?_some found
  rw [decide_eq_true_eq] at same
  obtain ⟨finalized, closed, listed⟩ := List.mem_flatMap.mp (List.mem_of_find?_eq_some found)
  exact ⟨same, finalized, closed, Block.includes_of_mem (List.mem_reverse.mp listed)⟩

theorem isSome_latestInclusion {finalized : FinalizedBlock} {tx : Transaction}
    (closed : finalized ∈ blocks) (listed : tx ∈ finalized.block.transactions) :
    (latestInclusion blocks tx.hash).isSome := by
  obtain ⟨inclusion, included, rfl⟩ := Block.exists_inclusion listed
  rw [latestInclusion, List.find?_isSome]
  refine ⟨inclusion, ?_, decide_eq_true rfl⟩
  exact List.mem_flatMap.mpr ⟨finalized, closed, List.mem_reverse.mpr included⟩

end FinalizedBlock

/-- A block that was closed is found under each of its keys, with its transactions. -/
theorem Reader.Faithful.finds {reader : Reader} {archive : Archive} {blocks : List FinalizedBlock}
    {finalized : FinalizedBlock} (faithful : reader.Faithful blocks) (holds : archive.Holds blocks)
    (closed : finalized ∈ blocks) :
    (reader.blockByNumber (some archive) finalized.block.number).1.isSome ∧
      (reader.blockByHash (some archive) finalized.block.hash).1.isSome ∧
      (reader.receiptsByHash (some archive) finalized.block.hash).1.isSome ∧
      ∀ tx ∈ finalized.block.transactions,
        (reader.inclusion (some archive) tx.hash).1.isSome := by
  have atHeight : (latestAt blocks finalized.block.number).isSome :=
    List.find?_isSome.mpr ⟨finalized, closed, decide_eq_true rfl⟩
  have withHash : (latestWith blocks finalized.block.hash).isSome :=
    List.find?_isSome.mpr ⟨finalized, closed, decide_eq_true rfl⟩
  refine ⟨?_, ?_, ?_, ?_⟩
  · rw [faithful.blockByNumber holds, Option.isSome_map]
    exact atHeight
  · rw [Option.isSome_iff_ne_none]
    intro missing
    rw [holds.blockByHash_eq_none (Cache.lookUp_eq_none missing)] at withHash
    cases withHash
  · rw [faithful.receiptsByHash holds, Option.isSome_map]
    exact withHash
  · intro tx listed
    rw [faithful.inclusion holds]
    exact isSome_latestInclusion closed listed

/-- Where the only block at hand by its hash is the one that the archive answers with, the reader
answers with it, whether or not it has the hash. -/
theorem Reader.blockByHash_of_alone {reader : Reader} {archive : Archive} {hash : Word}
    {block : Block} (alone : reader.blocksByHash.entries.map Prod.snd = [block])
    (archived : archive.blockByHash? hash = some block) :
    (reader.blockByHash (some archive) hash).1 = some block := by
  have cached : reader.blocksByHash.Within fun _ other => some block = some other := by
    intro entry listed
    have value := List.mem_map_of_mem (f := Prod.snd) listed
    rw [alone] at value
    exact congrArg some (List.mem_singleton.mp value).symm
  exact Cache.lookUp_eq_of_table cached archived

namespace Chain

variable {host : Host} {interpreter : Interpreter} {config : RuntimeConfig} {start : Chain}
  {commands : List ChainCommand}

/-- Whatever was done with a chain, its reader finds what was closed, and nothing else: blocks at
the heights asked for, receipts of the blocks asked for, and transactions at the places where they
were finalized. A block found by its hash has the hash, or was closed behind the one that has it at
the same height; where no height was closed twice, it has the hash. -/
theorem lookups_own (kept : host.archive = some {})
    (created : create host interpreter config = .ok start) (filed : Filed commands start) :
    let reader := (runAll commands start).2.reader
    let archive := (runAll commands start).2.host.archive
    let blocks := closed commands start
    (∀ finalized ∈ blocks,
      (reader.blockByNumber archive finalized.block.number).1.isSome ∧
        (reader.blockByHash archive finalized.block.hash).1.isSome ∧
        (reader.receiptsByHash archive finalized.block.hash).1.isSome ∧
        ∀ tx ∈ finalized.block.transactions, (reader.inclusion archive tx.hash).1.isSome) ∧
    (∀ number block, (reader.blockByNumber archive number).1 = some block →
      block.number = number) ∧
    (∀ hash block, (reader.blockByHash archive hash).1 = some block →
      (block.hash = hash ∨ Superseded blocks hash block) ∧
        ((blocks.map fun finalized => finalized.block.number).Nodup → block.hash = hash)) ∧
    (∀ hash receipts, (reader.receiptsByHash archive hash).1 = some receipts →
      ∀ receipt ∈ receipts, receipt.blockHash = hash) ∧
    (∀ hash inclusion, (reader.inclusion archive hash).1 = some inclusion →
      inclusion.transaction.hash = hash ∧
        ∃ finalized ∈ blocks, finalized.block.Includes inclusion) := by
  obtain ⟨⟨archive, present, holds⟩, faithful, stamped⟩ := ledgered_of_run kept created filed
  simp only [present]
  refine ⟨fun finalized => faithful.finds holds, ?_, ?_, ?_, ?_⟩
  · intro number block found
    rw [faithful.blockByNumber holds] at found
    obtain ⟨finalized, latest, rfl⟩ := Option.map_eq_some_iff.mp found
    exact (number_of_latestAt latest).2
  · intro hash block found
    have bears := faithful.bears holds found
    refine ⟨bears.own_or_superseded, ?_⟩
    intro distinct
    obtain ⟨finalized, latest, rfl⟩ := Option.map_eq_some_iff.mp (bears.latestWith distinct)
    exact (hash_of_latestWith latest).2
  · intro hash receipts found receipt listed
    rw [faithful.receiptsByHash holds] at found
    obtain ⟨finalized, latest, rfl⟩ := Option.map_eq_some_iff.mp found
    obtain ⟨member, same⟩ := hash_of_latestWith latest
    rw [stamped finalized member receipt listed, same]
  · intro hash inclusion found
    rw [faithful.inclusion holds] at found
    exact includes_of_latestInclusion found

def narrowStart : Except ChainFault Chain :=
  create { archive := some {} } TransferMachine.interpreter { caches := { blocksByHash := 1 } }

def rebuilding : List ChainCommand := [.prepare 1, .finalize, .prepare 1, .finalize]

/-- The reader answers the hash of the first block with the second one. -/
theorem narrow_rebuilt : ∃ start first second,
    narrowStart = .ok start ∧ Filed rebuilding start ∧ closed rebuilding start = [second, first] ∧
      ((runAll rebuilding start).2.reader.blockByHash (runAll rebuilding start).2.host.archive
        first.block.hash).1 = some second.block ∧
      second.block.hash ≠ first.block.hash := by
  -- both hashes are computed here, and nothing else that needs one
  have ran : (narrowStart.toOption.any fun start =>
      decide (Filed rebuilding start ∧
        ((closed rebuilding start).map fun finalized => finalized.block.number) = [1, 1] ∧
        ((closed rebuilding start).map fun finalized => finalized.block.hash).Nodup ∧
        (runAll rebuilding start).2.reader.blocksByHash.entries.map Prod.snd =
          ((closed rebuilding start).take 1).map FinalizedBlock.block)) = true := by
    decide +kernel
  obtain ⟨start, created, passed⟩ := exists_created ran
  obtain ⟨filed, heights, distinct, entries⟩ := of_decide_eq_true passed
  obtain ⟨second, earlier, blocks, secondHeight, rest⟩ := List.map_eq_cons_iff.mp heights
  obtain ⟨first, _, rfl, firstHeight, nothing⟩ := List.map_eq_cons_iff.mp rest
  cases List.map_eq_nil_iff.mp nothing
  rw [blocks] at distinct entries
  have other : second.block.hash ≠ first.block.hash := by
    intro same
    simp [same] at distinct
  refine ⟨start, first, second, created, filed, blocks, ?_, other⟩
  obtain ⟨⟨archive, present, holds⟩, _, _⟩ := ledgered_of_run rfl created filed
  rw [blocks] at holds
  rw [present]
  have archived : archive.blockByHash? first.block.hash = some second.block := by
    rw [holds.blockByHash, latestWith_cons, if_neg other, latestWith_cons, if_pos rfl,
      Option.bind_some, latestAt_cons, if_pos (secondHeight.trans firstHeight.symm)]
    rfl
  exact Reader.blockByHash_of_alone entries archived

/-- A block found by a hash need not have the hash. -/
theorem blockByHash_misleads :
    ¬ ∀ (host : Host) (interpreter : Interpreter) (config : RuntimeConfig) (start : Chain)
        (commands : List ChainCommand), host.archive = some {} →
      create host interpreter config = .ok start → Filed commands start →
      ∀ hash block, ((runAll commands start).2.reader.blockByHash
        (runAll commands start).2.host.archive hash).1 = some block → block.hash = hash := by
  intro claimed
  obtain ⟨start, first, second, created, filed, _, found, other⟩ := narrow_rebuilt
  exact other (claimed _ _ _ start rebuilding rfl created filed first.block.hash second.block found)

/-- The second block took the place of the first in the archive, as they stand at one height. -/
theorem narrow_superseded : ∃ start first second,
    narrowStart = .ok start ∧ Filed rebuilding start ∧ closed rebuilding start = [second, first] ∧
      Superseded (closed rebuilding start) first.block.hash second.block := by
  obtain ⟨start, first, second, created, filed, blocks, found, other⟩ := narrow_rebuilt
  refine ⟨start, first, second, created, filed, blocks, ?_⟩
  have own := (lookups_own rfl created filed).2.2.1 first.block.hash second.block found
  exact own.1.resolve_left other

end Chain

end HostedEvm
