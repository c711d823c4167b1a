import HostedEvm.Proofs.Cache
import HostedEvm.Proofs.Chain.Runs
import HostedEvm.Proofs.Map

set_option autoImplicit false

/-!
What the archive and the reader of a chain hold.

The archive of a run holds the blocks that the run closed: under a height the latest one there, and
under a hash the receipts and the height of the latest one with it. The caches of the reader hold
entries of the archive, with one exception. A block by its hash is archived through its height, so
a block that was closed later at the same height takes its place in the archive, while a cache
keeps the block that it was given.
-/

namespace HostedEvm

namespace FinalizedBlock

def latestAt (blocks : List FinalizedBlock) (number : UInt64) : Option FinalizedBlock :=
  blocks.find? fun finalized => finalized.block.number = number

def latestWith (blocks : List FinalizedBlock) (hash : Word) : Option FinalizedBlock :=
  blocks.find? fun finalized => finalized.block.hash = hash

def latestInclusion (blocks : List FinalizedBlock) (hash : Word) : Option Inclusion :=
  (blocks.flatMap fun finalized => finalized.block.inclusions.reverse).find? fun inclusion =>
    inclusion.transaction.hash = hash

/-- A block is the latest with a hash, or was closed behind it at the same height. -/
def Bears (blocks : List FinalizedBlock) (hash : Word) (block : Block) : Prop :=
  ∃ newer first older, blocks = newer ++ first :: older ∧ first.block.hash = hash ∧
    (∀ finalized ∈ newer, finalized.block.hash ≠ hash) ∧
    (first.block = block ∨
      ∃ second ∈ newer, second.block = block ∧ block.number = first.block.number)

variable {blocks newer older : List FinalizedBlock} {finalized : FinalizedBlock}

theorem latestAt_cons (finalized : FinalizedBlock) (blocks : List FinalizedBlock)
    (number : UInt64) :
    latestAt (finalized :: blocks) number =
      if finalized.block.number = number then some finalized else latestAt blocks number := by
  by_cases same : finalized.block.number = number
  · rw [if_pos same, latestAt, List.find?_cons_of_pos (by simpa using same)]
  · rw [if_neg same, latestAt, List.find?_cons_of_neg (by simpa using same), latestAt]

theorem latestAt_of_head? {number : UInt64} (latest : blocks.head? = some finalized)
    (same : finalized.block.number = number) : latestAt blocks number = some finalized := by
  obtain ⟨older, rfl⟩ := List.head?_eq_some_iff.mp latest
  rw [latestAt_cons, if_pos same]

theorem latestWith_cons (finalized : FinalizedBlock) (blocks : List FinalizedBlock)
    (hash : Word) :
    latestWith (finalized :: blocks) hash =
      if finalized.block.hash = hash then some finalized else latestWith blocks hash := by
  by_cases same : finalized.block.hash = hash
  · rw [if_pos same, latestWith, List.find?_cons_of_pos (by simpa using same)]
  · rw [if_neg same, latestWith, List.find?_cons_of_neg (by simpa using same), latestWith]

theorem number_of_latestAt {number : UInt64} (found : latestAt blocks number = some finalized) :
    finalized ∈ blocks ∧ finalized.block.number = number := by
  have same := List.find?_some found
  rw [decide_eq_true_eq] at same
  exact ⟨List.mem_of_find?_eq_some found, same⟩

theorem hash_of_latestWith {hash : Word} (found : latestWith blocks hash = some finalized) :
    finalized ∈ blocks ∧ finalized.block.hash = hash := by
  have same := List.find?_some found
  rw [decide_eq_true_eq] at same
  exact ⟨List.mem_of_find?_eq_some found, same⟩

/-- Where the latest block with a hash stands. -/
theorem latestWith_eq_some_iff {hash : Word} :
    latestWith blocks hash = some finalized ↔
      ∃ newer older, blocks = newer ++ finalized :: older ∧ finalized.block.hash = hash ∧
        ∀ other ∈ newer, other.block.hash ≠ hash := by
  rw [latestWith, List.find?_eq_some_iff_append]
  simp only [decide_eq_true_eq, Bool.not_eq_eq_eq_not, Bool.not_true, decide_eq_false_iff_not]
  constructor
  · rintro ⟨same, newer, older, split, others⟩
    exact ⟨newer, older, split, same, others⟩
  · rintro ⟨newer, older, split, same, others⟩
    exact ⟨same, newer, older, split, others⟩

/-- Closing a block with another hash leaves what bears a hash. -/
theorem Bears.cons {hash : Word} {block : Block} (bears : Bears blocks hash block)
    (other : finalized.block.hash ≠ hash) : Bears (finalized :: blocks) hash block := by
  obtain ⟨newer, first, older, rfl, same, others, place⟩ := bears
  refine ⟨finalized :: newer, first, older, rfl, same, ?_, ?_⟩
  · intro behind listed
    rcases List.mem_cons.mp listed with rfl | earlier
    · exact other
    · exact others behind earlier
  · rcases place with own | ⟨second, listed, own, height⟩
    · exact .inl own
    · exact .inr ⟨second, List.mem_cons_of_mem _ listed, own, height⟩

theorem bears_own (finalized : FinalizedBlock) (blocks : List FinalizedBlock) :
    Bears (finalized :: blocks) finalized.block.hash finalized.block :=
  ⟨[], finalized, blocks, rfl, rfl, nofun, .inl rfl⟩

/-- Where no height was closed twice, a block bears its own hash alone. -/
theorem Bears.latestWith {hash : Word} {block : Block} (bears : Bears blocks hash block)
    (distinct : (blocks.map fun finalized => finalized.block.number).Nodup) :
    (latestWith blocks hash).map FinalizedBlock.block = some block := by
  obtain ⟨newer, first, older, rfl, same, others, place⟩ := bears
  rw [latestWith_eq_some_iff.mpr ⟨newer, older, rfl, same, others⟩]
  rcases place with own | ⟨second, listed, own, height⟩
  · exact congrArg some own
  · rw [List.map_append, List.map_cons, List.nodup_append] at distinct
    have apart := distinct.2.2 second.block.number (List.mem_map_of_mem listed)
      first.block.number List.mem_cons_self
    rw [own] at apart
    exact absurd height apart

end FinalizedBlock

open FinalizedBlock

variable {blocks : List FinalizedBlock} {finalized : FinalizedBlock}

namespace Archive

variable {archive : Archive}

/-- An archive holds the latest of some blocks under every key. -/
structure Holds (archive : Archive) (blocks : List FinalizedBlock) : Prop where
  heights : ∀ number,
    archive.blocks[number]? = (latestAt blocks number).map FinalizedBlock.block
  numbers : ∀ hash,
    archive.numbers[hash]? = (latestWith blocks hash).map fun finalized => finalized.block.number
  receipts : ∀ hash,
    archive.receipts[hash]? = (latestWith blocks hash).map FinalizedBlock.receipts
  inclusions : ∀ hash, archive.inclusions[hash]? = latestInclusion blocks hash

theorem holds_empty : Holds {} [] where
  heights _ := Std.ExtTreeMap.getElem?_empty
  numbers _ := Std.ExtTreeMap.getElem?_empty
  receipts _ := Std.ExtTreeMap.getElem?_empty
  inclusions _ := Std.ExtTreeMap.getElem?_empty

def fileAll (archive : Archive) (block : Block) (receipts : List Receipt) : Archive :=
  Filing.all.foldl (file block receipts) archive

def refuses (archive : Archive) : Bool := Filing.all.any archive.closed

section Store

variable {block : Block} {receipts : List Receipt} {filings : List Filing}

theorem closed_file (archive : Archive) (filing : Filing) :
    (archive.file block receipts filing).closed = archive.closed := by
  cases filing <;> rfl

theorem storeAll_eq (archive : Archive) :
    ((archive.storeAll block receipts filings).1 =
        if filings.any archive.closed then .error .archiveUnavailable else .ok ()) ∧
      (filings.any archive.closed = false →
        (archive.storeAll block receipts filings).2 =
          filings.foldl (file block receipts) archive) := by
  induction filings generalizing archive with
  | nil => exact ⟨rfl, fun _ => rfl⟩
  | cons filing rest inductionHypothesis =>
      have behind := inductionHypothesis (archive.file block receipts filing)
      rw [closed_file] at behind
      rw [storeAll, List.any_cons]
      cases archive.closed filing with
      | true => exact ⟨rfl, nofun⟩
      | false => exact behind

end Store

theorem store_fst (archive : Archive) (block : Block) (receipts : List Receipt) :
    (archive.store block receipts).1 =
      if archive.refuses then .error .archiveUnavailable else .ok () :=
  archive.storeAll_eq.1

theorem store_snd {archive : Archive} (taking : archive.refuses = false) (block : Block)
    (receipts : List Receipt) :
    (archive.store block receipts).2 = archive.fileAll block receipts :=
  archive.storeAll_eq.2 taking

theorem Holds.fileAll (holds : archive.Holds blocks) (finalized : FinalizedBlock) :
    (archive.fileAll finalized.block finalized.receipts).Holds (finalized :: blocks) where
  heights number := by
    rw [latestAt_cons]
    refine (Map.get_insert ..).trans ?_
    split
    · rfl
    · exact holds.heights number
  numbers hash := by
    rw [latestWith_cons]
    refine (Map.get_insert ..).trans ?_
    split
    · rfl
    · exact holds.numbers hash
  receipts hash := by
    rw [latestWith_cons]
    refine (Map.get_insert ..).trans ?_
    split
    · rfl
    · exact holds.receipts hash
  inclusions hash := by
    refine
      (Map.get_foldl_insert (fun inclusion : Inclusion => inclusion.transaction.hash) ..).trans ?_
    change Option.or _ archive.inclusions[hash]? = _
    rw [holds.inclusions, latestInclusion, latestInclusion, List.flatMap_cons, List.find?_append]

/-- A block by its hash is the latest one at the height of the latest one with the hash. -/
theorem Holds.blockByHash (holds : archive.Holds blocks) (hash : Word) :
    archive.blockByHash? hash = (latestWith blocks hash).bind fun first =>
      (latestAt blocks first.block.number).map FinalizedBlock.block := by
  rw [blockByHash?, holds.numbers]
  cases latestWith blocks hash with
  | none => rfl
  | some first => exact holds.heights first.block.number

theorem Holds.bears {hash : Word} {block : Block} (holds : archive.Holds blocks)
    (found : archive.blockByHash? hash = some block) : Bears blocks hash block := by
  rw [holds.blockByHash] at found
  obtain ⟨first, latest, archived⟩ := Option.bind_eq_some_iff.mp found
  obtain ⟨newer, older, split, same, others⟩ := latestWith_eq_some_iff.mp latest
  refine ⟨newer, first, older, split, same, others, ?_⟩
  obtain ⟨second, latestThere, rfl⟩ := Option.map_eq_some_iff.mp archived
  -- the latest block at the height was closed behind the one with the hash, or is that one
  rw [split, latestAt, List.find?_append] at latestThere
  rcases Option.or_eq_some_iff.mp latestThere with behind | ⟨_, own⟩
  · have height := List.find?_some behind
    rw [decide_eq_true_eq] at height
    exact .inr ⟨second, List.mem_of_find?_eq_some behind, rfl, height⟩
  · rw [List.find?_cons_of_pos (by simp)] at own
    exact .inl (congrArg FinalizedBlock.block (Option.some.inj own))

/-- A hash that some block has is found in the archive. -/
theorem Holds.blockByHash_eq_none {hash : Word} (holds : archive.Holds blocks)
    (missing : archive.blockByHash? hash = none) : latestWith blocks hash = none := by
  rw [holds.blockByHash] at missing
  cases latest : latestWith blocks hash with
  | none => rfl
  | some first =>
      rw [latest, Option.bind_some, Option.map_eq_none_iff, latestAt, List.find?_eq_none] at missing
      have present := (hash_of_latestWith latest).1
      exact absurd (decide_eq_true rfl) (missing first present)

end Archive

namespace Reader

variable {reader : Reader}

structure Faithful (blocks : List FinalizedBlock) (reader : Reader) : Prop where
  receipts : reader.receipts.Within fun hash receipts =>
    (latestWith blocks hash).map FinalizedBlock.receipts = some receipts
  blocksByNumber : reader.blocksByNumber.Within fun number block =>
    (latestAt blocks number).map FinalizedBlock.block = some block
  blocksByHash : reader.blocksByHash.Within (Bears blocks)
  lookups : reader.lookups.Within fun hash inclusion =>
    latestInclusion blocks hash = some inclusion

theorem faithful_ofConfig (config : RuntimeConfig) : Faithful [] (ofConfig config) where
  receipts := Cache.within_empty _ _
  blocksByNumber := Cache.within_empty _ _
  blocksByHash := Cache.within_empty _ _
  lookups := Cache.within_empty _ _

theorem Faithful.publish (faithful : reader.Faithful blocks) (finalized : FinalizedBlock) :
    (reader.publish finalized).Faithful (finalized :: blocks) where
  receipts := by
    refine faithful.receipts.put ?_ ?_
    · intro hash receipts other known
      rw [latestWith_cons, if_neg other.symm]
      exact known
    · rw [latestWith_cons, if_pos rfl]
      rfl
  blocksByNumber := by
    refine faithful.blocksByNumber.put ?_ ?_
    · intro number block other known
      rw [latestAt_cons, if_neg other.symm]
      exact known
    · rw [latestAt_cons, if_pos rfl]
      rfl
  blocksByHash := by
    refine faithful.blocksByHash.put ?_ ?_
    · intro hash block other bears
      exact bears.cons other.symm
    · exact bears_own finalized blocks
  lookups :=
    faithful.lookups.foldl_put (fun inclusion => inclusion.transaction.hash)
      finalized.block.inclusions

section Archived

variable {archive : Archive}

theorem Faithful.blockByNumber (faithful : reader.Faithful blocks) (holds : archive.Holds blocks)
    (number : UInt64) :
    (reader.blockByNumber (some archive) number).1 =
      (latestAt blocks number).map FinalizedBlock.block :=
  Cache.lookUp_eq_of_table faithful.blocksByNumber (holds.heights number)

theorem Faithful.receiptsByHash (faithful : reader.Faithful blocks) (holds : archive.Holds blocks)
    (hash : Word) :
    (reader.receiptsByHash (some archive) hash).1 =
      (latestWith blocks hash).map FinalizedBlock.receipts :=
  Cache.lookUp_eq_of_table faithful.receipts (holds.receipts hash)

theorem Faithful.inclusion (faithful : reader.Faithful blocks) (holds : archive.Holds blocks)
    (hash : Word) :
    (reader.inclusion (some archive) hash).1 = latestInclusion blocks hash :=
  Cache.lookUp_eq_of_table faithful.lookups (holds.inclusions hash)

theorem Faithful.bears (faithful : reader.Faithful blocks) (holds : archive.Holds blocks)
    {hash : Word} {block : Block}
    (found : (reader.blockByHash (some archive) hash).1 = some block) :
    Bears blocks hash block :=
  (faithful.blocksByHash.lookUp fun _ => holds.bears).1 block found

/-- Where no height was closed twice, a block is found by its hash. -/
theorem Faithful.blockByHash (faithful : reader.Faithful blocks) (holds : archive.Holds blocks)
    (distinct : (blocks.map fun finalized => finalized.block.number).Nodup) (hash : Word) :
    (reader.blockByHash (some archive) hash).1 =
      (latestWith blocks hash).map FinalizedBlock.block := by
  cases found : (reader.blockByHash (some archive) hash).1 with
  | none =>
      have missing := holds.blockByHash_eq_none (Cache.lookUp_eq_none found)
      rw [missing]
      rfl
  | some block => exact ((faithful.bears holds found).latestWith distinct).symm

theorem Faithful.ask (faithful : reader.Faithful blocks) (holds : archive.Holds blocks)
    (query : Query) : (reader.ask (some archive) query).2.Faithful blocks := by
  cases query with
  | blockByNumber number =>
      have looked := faithful.blocksByNumber.lookUp fun block archived =>
        (holds.heights number).symm.trans archived
      exact { faithful with blocksByNumber := looked.2 }
  | blockByHash hash =>
      have archived : ∀ block, archive.blockByHash? hash = some block → Bears blocks hash block :=
        fun _ => holds.bears
      have looked := faithful.blocksByHash.lookUp archived
      exact { faithful with blocksByHash := looked.2 }
  | receiptsByHash hash =>
      have looked := faithful.receipts.lookUp fun receipts archived =>
        (holds.receipts hash).symm.trans archived
      exact { faithful with receipts := looked.2 }
  | inclusion hash =>
      have looked := faithful.lookups.lookUp fun inclusion archived =>
        (holds.inclusions hash).symm.trans archived
      exact { faithful with lookups := looked.2 }

end Archived

end Reader

namespace Chain

variable {chain next : Chain} {closes : List FinalizedBlock}

/-- The archive and the reader of a chain hold the closed blocks, whose receipts name them. -/
structure Ledgered (blocks : List FinalizedBlock) (chain : Chain) : Prop where
  archive : ∃ archive, chain.host.archive = some archive ∧ archive.Holds blocks
  reader : chain.reader.Faithful blocks
  stamped : ∀ finalized ∈ blocks, ∀ receipt ∈ finalized.receipts,
    receipt.blockHash = finalized.block.hash

/-- The end of a block fails, or the block is filed whole. -/
theorem archive_of_filed {host : Host} {archive : Archive} (present : host.archive = some archive)
    {finalized : FinalizedBlock}
    (filed : ChainReply.isUnfiled (.finalized (file host finalized).1) = false) :
    (file host finalized).2.archive =
      some (archive.fileAll finalized.block finalized.receipts) := by
  have same : (host.withHeader finalized.block.header).archive = some archive := present
  unfold file at filed ⊢
  split at filed
  · cases filed
  · rename_i taking
    rw [if_neg taking]
    simp only [same] at filed ⊢
    cases refusing : archive.refuses with
    | true =>
        rw [Archive.store_fst, refusing] at filed
        cases filed
    | false => rw [Archive.store_snd refusing]

/-- The receipts of a closed block name it. -/
theorem stamped_of_closing {finalized : FinalizedBlock}
    (closing : chain.closing? = some finalized) :
    ∀ receipt ∈ finalized.receipts, receipt.blockHash = finalized.block.hash := by
  unfold closing? Processor.finalize at closing
  split at closing
  · split at closing
    · cases closing
    · cases closing
      intro receipt stamped
      obtain ⟨original, _, rfl⟩ := List.mem_map.mp stamped
      rfl
  · cases closing

theorem Ledgered.moves (ledgered : chain.Ledgered blocks) (moved : chain.Moves closes next)
    (filed : ∀ finalized ∈ closes,
      ChainReply.isUnfiled (.finalized (file chain.host finalized).1) = false) :
    next.Ledgered (closes ++ blocks) := by
  obtain ⟨archive, present, holds⟩ := ledgered.archive
  cases moved with
  | within => exact { ledgered with }
  | asked query =>
      refine { ledgered with reader := ?_ }
      rw [present]
      exact ledgered.reader.ask holds query
  | archive closed =>
      refine { ledgered with archive := ⟨{ archive with closed }, ?_, ?_⟩ }
      · rw [Host.closeArchive, present]
        rfl
      · exact ⟨holds.heights, holds.numbers, holds.receipts, holds.inclusions⟩
  | headers closed => exact { ledgered with }
  | @closed finalized processor closing =>
      -- the reader gets the block first, but only what is filed as well keeps the two in step
      have whole := archive_of_filed present (filed finalized List.mem_cons_self)
      refine ⟨⟨_, whole, holds.fileAll finalized⟩, ?_, ?_⟩
      · exact ledgered.reader.publish finalized
      · intro found listed
        rcases List.mem_cons.mp listed with rfl | earlier
        · exact stamped_of_closing closing
        · exact ledgered.stamped found earlier

end Chain

/-- A command that closes a block replies as the host that files it. -/
theorem ChainCommand.run_of_closes {command : ChainCommand} {chain : Chain}
    {finalized : FinalizedBlock} (closed : finalized ∈ command.closes chain) :
    (command.run chain).1 = .finalized (Chain.file chain.host finalized).1 := by
  cases command with
  | finalize =>
      have closing : chain.closing? = some finalized := Option.mem_toList.mp closed
      exact congrArg (ChainReply.finalized ∘ Prod.fst) (Chain.finalize_of_closing closing)
  | _ => cases closed

namespace Chain

variable {host : Host} {interpreter : Interpreter} {config : RuntimeConfig} {start : Chain}
  {commands : List ChainCommand}

theorem Ledgered.run {chain : Chain} {command : ChainCommand} (ledgered : chain.Ledgered blocks)
    (filed : (command.run chain).1.isUnfiled = false) :
    (command.run chain).2.Ledgered (command.closes chain ++ blocks) :=
  ledgered.moves (command.moves_run chain) fun _ closed =>
    ChainCommand.run_of_closes closed ▸ filed

/-- A run whose blocks were filed leaves a chain whose archive and reader hold them. -/
theorem Ledgered.runAll {chain : Chain} (ledgered : chain.Ledgered blocks)
    (filed : Filed commands chain) :
    (runAll commands chain).2.Ledgered (closed commands chain ++ blocks) := by
  have step : ∀ (past : List FinalizedBlock) (chain : Chain) (command : ChainCommand),
      chain.Ledgered past → (command.run chain).1.isUnfiled = false →
      (command.run chain).2.Ledgered (command.closes chain ++ past) :=
    fun _ _ _ => Ledgered.run
  exact runAll_keeps step ledgered filed

theorem ledgered_of_create (kept : host.archive = some {})
    (created : create host interpreter config = .ok start) : start.Ledgered [] := by
  obtain ⟨processor, _, rfl⟩ := create_eq_ok created
  exact ⟨⟨{}, kept, Archive.holds_empty⟩, Reader.faithful_ofConfig config, nofun⟩

/-- A run that starts with an empty archive leaves the blocks it closed in archive and reader. -/
theorem ledgered_of_run (kept : host.archive = some {})
    (created : create host interpreter config = .ok start) (filed : Filed commands start) :
    (runAll commands start).2.Ledgered (closed commands start) := by
  have ledgered := (ledgered_of_create kept created).runAll filed
  rw [List.append_nil] at ledgered
  exact ledgered

end Chain

end HostedEvm
