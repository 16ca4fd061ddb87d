import Qevm.Collections.Firsts
import Qevm.Laws.NodeRuns
import Qevm.Node.Process

/-!
# Runs of a process

What the mempool takes in gets into the canonical chain in the order in which it came, each
transaction once, as long as the mempool is not asked for anything while it waits for the
chain state.
-/

namespace Qevm

open Block (hash)
open DemoChainState (Executed genesisBlock)

/-! ## Filling blocks -/

namespace DemoMempool

/-- The blocks hold the transactions of the queue in its order. -/
theorem flatten_fillBlocks (blockTxs txQueue : List Tx) :
    (fillBlocks blockTxs txQueue).flatten = blockTxs ++ txQueue := by
  induction txQueue generalizing blockTxs with
  | nil =>
      rw [fillBlocks, List.append_nil]
      split
      · exact List.append_nil blockTxs
      · next none =>
          rw [List.length_eq_zero_iff.mp (Nat.eq_zero_of_not_pos none)]
          rfl
  | cons p txQueue inductionHypothesis =>
      rw [fillBlocks]
      split
      · rw [List.flatten_cons, inductionHypothesis, List.append_assoc]
        rfl
      · rw [inductionHypothesis, List.append_assoc]
        rfl

/-- No block is empty, and none is larger than a block may be. -/
theorem length_of_mem_fillBlocks
    {blockTxs txQueue : List Tx} (few : blockTxs.length < MAX_BLOCK_TXS) :
    ∀ txs ∈ fillBlocks blockTxs txQueue, 0 < txs.length ∧ txs.length ≤ MAX_BLOCK_TXS := by
  induction txQueue generalizing blockTxs with
  | nil =>
      intro txs member
      rw [fillBlocks] at member
      split at member
      · next some =>
          rw [List.mem_singleton.mp member]
          exact ⟨some, few.le⟩
      · contradiction
  | cons p txQueue inductionHypothesis =>
      intro txs member
      have longer : (blockTxs ++ [p]).length = blockTxs.length + 1 := by simp
      rw [fillBlocks] at member
      split at member
      · next full =>
          obtain rfl | others := List.mem_cons.mp member
          · exact ⟨by omega, full.le⟩
          · exact inductionHypothesis (by decide) txs others
      · next notFull => exact inductionHypothesis (by omega) txs member

/-- The blocks that a mempool makes hold the transactions of its queue in its order. -/
theorem flatMap_txs_genBlocks (txQueue : List Tx) (clock : Nat → UInt64) :
    ((fillBlocks [] txQueue).mapIdx fun i txs =>
      DemoBlock.new 0 0 0 none (clock i) txs).flatMap DemoBlock.txs = txQueue := by
  have same : ((fillBlocks [] txQueue).mapIdx fun i txs =>
      DemoBlock.new 0 0 0 none (clock i) txs).map DemoBlock.txs = fillBlocks [] txQueue := by
    apply List.ext_getElem?
    intro i
    rw [List.getElem?_map, List.getElem?_mapIdx]
    cases (fillBlocks [] txQueue)[i]? <;> rfl
  rw [List.flatMap_def, same, flatten_fillBlocks, List.nil_append]

end DemoMempool

/-! ## Where the transactions are -/

/-- A transaction that was accepted from its own encoding. -/
structure TakenIn [Keccak256] [Secp256k1] [Rlp.Reader] (chainId : U256) (tx : Tx) : Prop where
  accepted : DemoBlock.Accepted chainId tx
  hash_eq : tx.txHash = Hash.hash tx.inner.encode

/-- A block of a mempool. -/
structure DemoBlock.Filled (block : DemoBlock) : Prop where
  some : 0 < block.txs.length
  few : block.txs.length ≤ MAX_BLOCK_TXS

namespace DemoProcess

section Steps

/-- Of handlers that have answered but the last, it is the last that has not. -/
theorem last_of_quiet
    {before : List (Option (List DemoBlock))} {blocks found : List DemoBlock} {i : Nat}
    (quiet : ∀ entry ∈ before, entry = none)
    (there : (before ++ [some blocks])[i]? = some (some found)) :
    i = before.length ∧ blocks = found := by
  by_cases inside : i < before.length
  · rw [List.getElem?_append_left inside] at there
    exact absurd (quiet _ (List.mem_of_getElem? there)) nofun
  · rw [List.getElem?_append_right (Nat.le_of_not_lt inside),
      List.getElem?_singleton] at there
    split at there
    · next zero => exact ⟨by omega, Option.some.inj (Option.some.inj there)⟩
    · contradiction

variable {δ η : Type} [Keccak256] [Secp256k1] [Rlp.Reader]

/-- The transaction that an event brings in. -/
def Event.taken (chainId : U256) : Event → List Tx
  | .addTransaction raw =>
      match Tx.decode raw chainId with
      | .ok (some tx) => [tx]
      | _ => []
  | _ => []

/-- The blocks that the mempool waits for: it waits for nothing, or its message has not been
received, or it was the last one to be received and the tail is what its next block goes on. -/
inductive Waits (process : DemoProcess δ η) (tail : DemoBlock) : List DemoBlock → Prop
  | idle (free : process.mempool.borrowed = false) (empty : process.mailbox = [])
      (quiet : ∀ entry ∈ process.adding, entry = none) : Waits process tail []
  | sent {blocks : List DemoBlock} (waits : process.mempool.borrowed = true)
      (message : process.mailbox = [blocks])
      (quiet : ∀ entry ∈ process.adding, entry = none) : Waits process tail blocks
  | received {blocks : List DemoBlock} {before : List (Option (List DemoBlock))}
      {handlers : List AddBlocks} (waits : process.mempool.borrowed = true)
      (empty : process.mailbox = []) (last : process.adding = before ++ [some blocks])
      (quiet : ∀ entry ∈ before, entry = none)
      (onTail : process.node.handlers = handlers ++ [⟨tail.number, hash tail⟩]) :
      Waits process tail blocks

/-- The blocks that were sent and are not added yet. -/
def waiting (process : DemoProcess δ η) : List DemoBlock :=
  process.mailbox.flatten ++ (process.adding.filterMap id).flatten

/-- A list of blocks is sent, or received, and not answered. -/
def Unanswered (process : DemoProcess δ η) : Prop :=
  process.mailbox ≠ [] ∨ ∃ blocks, some blocks ∈ process.adding

/-- Transactions are in blocks of the index, in blocks that the mempool waits for, or in its
queue, in this order. -/
structure Flows
    (process : DemoProcess δ η) (index : List (Option DemoBlock)) (txs : List Tx)
    (added blocks : List DemoBlock) (tail : DemoBlock) : Prop where
  indexed : process.node.state.indexed = index ++ added.map some
  latest : process.node.state.getBlockByNumber .latest = some (some tail)
  waits : process.Waits tail blocks
  order : (added ++ blocks).flatMap DemoBlock.txs ++ process.mempool.txQueue = txs
  filled : ∀ block ∈ added ++ blocks, block.Filled

variable [Database δ Bytes Bytes] [NodeHasher η]

/-- A process that has taken in some transactions since its index was that of the start. -/
structure Holds
    (process : DemoProcess δ η) (chainId : U256) (g : DemoBlock) (bound : Nat)
    (index : List (Option DemoBlock)) (txs : List Tx) : Prop where
  valid : process.node.Valid chainId g bound
  chain_id : process.mempool.chainId = chainId
  length : process.adding.length = process.node.handlers.length
  in_queue : ∀ h, h ∈ process.mempool.inQueue ↔ h ∈ txs.map Tx.txHash
  taken : ∀ tx ∈ txs, TakenIn chainId tx
  flows : ∃ added blocks tail, process.Flows index txs added blocks tail

/-- What a process panics of: the mempool is asked for something while it waits, or a
transaction panics when it is decoded. -/
inductive Refuses (process : DemoProcess δ η) : Event → DemoPanic → Prop
  | addTransaction {raw : Bytes} :
      process.mempool.borrowed = true → Refuses process (.addTransaction raw) .borrowed
  | genBlocks {clock : Nat → UInt64} :
      process.mempool.borrowed = true → Refuses process (.genBlocks clock) .borrowed
  | decode {raw : Bytes} {panic : TxPanic} :
      process.mempool.borrowed = false →
        Tx.decode raw process.mempool.chainId = .error panic →
          Refuses process (.addTransaction raw) (.decode panic)

/-- The number of writes of nodes that an event makes, with the commit after them. -/
def Event.writes : Event → Nat
  | .addBlock _ executed => executed.nodes.length + 1
  | _ => 0

/-- No one asks for the hash zero, transactions come as they are encoded, and the hash of a
block that is added is neither zero nor that of another one. -/
def Event.Allowed (process : DemoProcess δ η) (genesis : Executed) : Event → Prop
  | .getBlock h => h ≠ 0
  | .addTransaction raw =>
      ∀ tx, Tx.decode raw process.mempool.chainId = .ok (some tx) →
        tx.inner.encode.length < 2 ^ 64 ∧ tx.txHash = Hash.hash tx.inner.encode
  | .addBlock i executed =>
      ∀ handler block blocks, process.node.handlers[i]? = some handler →
        process.adding[i]? = some (some (block :: blocks)) →
          let filled := DemoNode.AddBlocks.fill handler block executed
          hash filled ≠ 0 ∧ ∀ other, other = genesisBlock genesis ∨
            other ∈ process.node.stored → hash other = hash filled → other = filled
  | _ => True

/-- The events of a run are all allowed where they happen. -/
def Admits (process : DemoProcess δ η) (genesis : Executed) : List Event → Prop
  | [] => True
  | event :: events =>
      event.Allowed process genesis ∧
        ∀ after, process.step genesis event = .ok after → after.Admits genesis events

/-! ## One step -/

variable {process : DemoProcess δ η} {chainId : U256} {g : DemoBlock} {genesis : Executed}
  {bound : Nat} {index : List (Option DemoBlock)} {txs : List Tx}

omit [Secp256k1] [Rlp.Reader] [Database δ Bytes Bytes] [NodeHasher η] in
/-- The messages and the handlers tell what is waited for. -/
theorem Waits.congr
    {after : DemoProcess δ η} {tail : DemoBlock} {blocks : List DemoBlock}
    (waits : process.Waits tail blocks)
    (borrowed : after.mempool.borrowed = process.mempool.borrowed)
    (mailbox : after.mailbox = process.mailbox) (adding : after.adding = process.adding)
    (handlers : after.node.handlers = process.node.handlers) : after.Waits tail blocks := by
  cases waits with
  | idle free empty quiet =>
      exact .idle (borrowed.trans free) (mailbox.trans empty) (by rwa [adding])
  | sent isWaiting message quiet =>
      exact .sent (borrowed.trans isWaiting) (mailbox.trans message) (by rwa [adding])
  | received isWaiting empty last quiet onTail =>
      exact .received (borrowed.trans isWaiting) (mailbox.trans empty) (adding.trans last)
        quiet (handlers.trans onTail)

omit [Secp256k1] [Rlp.Reader] [Database δ Bytes Bytes] [NodeHasher η] in
/-- The blocks that are waited for are those that are sent and not added, and the state of
the mempool is borrowed until the answer. -/
theorem Waits.waiting_eq
    {tail : DemoBlock} {blocks : List DemoBlock} (waits : process.Waits tail blocks) :
    process.waiting = blocks ∧ (process.mempool.borrowed = true ↔ process.Unanswered) := by
  have nothing {adding : List (Option (List DemoBlock))}
      (quiet : ∀ entry ∈ adding, entry = none) : adding.filterMap id = [] :=
    List.filterMap_eq_nil_iff.mpr quiet
  cases waits with
  | idle free empty quiet =>
      refine ⟨by rw [waiting, empty, nothing quiet]; rfl, ?_⟩
      rw [free, Unanswered, empty]
      refine ⟨nofun, ?_⟩
      rintro (some | ⟨blocks, member⟩)
      · contradiction
      · exact absurd (quiet _ member) nofun
  | sent isWaiting message quiet =>
      refine ⟨?_, fun _ => .inl (by rw [message]; exact nofun), fun _ => isWaiting⟩
      rw [waiting, message, nothing quiet, List.flatten_singleton]
      exact List.append_nil blocks
  | received isWaiting empty last quiet onTail =>
      refine ⟨?_, fun _ => .inr ⟨blocks, ?_⟩, fun _ => isWaiting⟩
      · rw [waiting, empty, last, List.filterMap_append, nothing quiet]
        simp
      · rw [last]
        exact List.mem_append_right _ List.mem_cons_self

omit [Secp256k1] [Rlp.Reader] [Database δ Bytes Bytes] [NodeHasher η] in
/-- The transactions that are waited for and those in the queue were all taken in. -/
theorem Flows.mem_txs
    {added blocks : List DemoBlock} {tail block : DemoBlock} {tx : Tx}
    (flows : process.Flows index txs added blocks tail) (member : block ∈ added ++ blocks)
    (inside : tx ∈ block.txs) : tx ∈ txs := by
  rw [← flows.order]
  exact List.mem_append_left _ (List.mem_flatMap_of_mem member inside)

/-- More writes may be counted. -/
theorem Holds.mono
    (holds : process.Holds chainId g bound index txs) {more : Nat} (less : bound ≤ more) :
    process.Holds chainId g more index txs :=
  { holds with valid := holds.valid.mono less }

/-- A transaction is put into the queue. -/
theorem Holds.queue
    (holds : process.Holds chainId g bound index txs) {tx : Tx} (isTaken : TakenIn chainId tx) :
    ({ process with mempool := { process.mempool with
        inQueue := insert tx.txHash process.mempool.inQueue
        txQueue := process.mempool.txQueue ++ [tx] } } : DemoProcess δ η).Holds chainId g bound
      index (txs ++ [tx]) := by
  obtain ⟨added, blocks, tail, flows⟩ := holds.flows
  refine ⟨holds.valid, holds.chain_id, holds.length, ?_, ?_, added, blocks, tail,
    flows.indexed, flows.latest, flows.waits.congr rfl rfl rfl rfl, ?_, flows.filled⟩
  · intro h
    rw [Finset.mem_insert, holds.in_queue, List.map_append, List.mem_append, or_comm,
      List.map_singleton, List.mem_singleton]
  · intro other member
    obtain old | last := List.mem_append.mp member
    · exact holds.taken other old
    · rwa [List.mem_singleton.mp last]
  · rw [← flows.order, List.append_assoc]

/-- A transaction is taken in, or was taken in before, or is refused. -/
theorem Holds.addTransaction
    (holds : process.Holds chainId g bound index txs) {raw : Bytes}
    (allowed : (Event.addTransaction raw).Allowed process genesis) :
    (∃ after, process.step genesis (.addTransaction raw) = .ok after ∧
      after.Holds chainId g bound index
        (((Event.addTransaction raw).taken chainId).foldl (keepFirst Tx.txHash) txs)) ∨
    ∃ panic, process.step genesis (.addTransaction raw) = .error panic ∧
      process.Refuses (.addTransaction raw) panic := by
  cases waits : process.mempool.borrowed with
  | true =>
      refine .inr ⟨.borrowed, ?_, .addTransaction waits⟩
      simp only [step, DemoMempool.addTransaction, waits]
      rfl
  | false =>
      have same := holds.chain_id
      cases read : Tx.decode raw process.mempool.chainId with
      | error panic =>
          refine .inr ⟨.decode panic, ?_, .decode waits read⟩
          simp only [step, DemoMempool.addTransaction, waits, read]
          rfl
      | ok found =>
          refine .inl ?_
          cases found with
          | none =>
              refine ⟨process, ?_, ?_⟩
              · simp only [step, DemoMempool.addTransaction, waits, read]
                rfl
              · rw [same] at read
                simpa only [Event.taken, read, List.foldl_nil] using holds
          | some tx =>
              have isTaken : TakenIn chainId tx := by
                obtain ⟨fits, encoded⟩ := allowed tx read
                exact ⟨⟨⟨raw, same ▸ read⟩, fits⟩, encoded⟩
              have taken : (Event.addTransaction raw).taken chainId = [tx] := by
                rw [same] at read
                simp only [Event.taken, read]
              rw [taken, List.foldl_cons, List.foldl_nil, keepFirst]
              by_cases old : tx.txHash ∈ process.mempool.inQueue
              · refine ⟨process, ?_, ?_⟩
                · simp only [step, DemoMempool.addTransaction, waits, read, if_pos old]
                  rfl
                · rwa [if_pos ((holds.in_queue _).mp old)]
              · refine ⟨{ process with mempool := { process.mempool with
                  inQueue := insert tx.txHash process.mempool.inQueue
                  txQueue := process.mempool.txQueue ++ [tx] } }, ?_, ?_⟩
                · simp only [step, DemoMempool.addTransaction, waits, read, if_neg old]
                  rfl
                · rw [if_neg fun isKept => old ((holds.in_queue _).mpr isKept)]
                  exact holds.queue isTaken

/-- Blocks are made of all transactions of the queue, or the mempool refuses. -/
theorem Holds.genBlocks
    (holds : process.Holds chainId g bound index txs) (clock : Nat → UInt64) :
    (∃ after, process.step genesis (.genBlocks clock) = .ok after ∧
      after.Holds chainId g bound index txs) ∨
    ∃ panic, process.step genesis (.genBlocks clock) = .error panic ∧
      process.Refuses (.genBlocks clock) panic := by
  obtain ⟨added, blocks, tail, flows⟩ := holds.flows
  have busy (waits : process.mempool.borrowed = true) :
      ∃ panic, process.step genesis (.genBlocks clock) = .error panic ∧
        process.Refuses (.genBlocks clock) panic := by
    refine ⟨.borrowed, ?_, .genBlocks waits⟩
    simp only [step, DemoMempool.genBlocks, waits]
    rfl
  cases flows.waits with
  | sent waits => exact .inr (busy waits)
  | received waits => exact .inr (busy waits)
  | idle free empty quiet =>
      let made := (DemoMempool.fillBlocks [] process.mempool.txQueue).mapIdx
        fun i txs => DemoBlock.new 0 0 0 none (clock i) txs
      refine .inl ⟨{ process with
        mempool := { process.mempool with txQueue := [], borrowed := true }
        mailbox := process.mailbox ++ [made] }, ?_, holds.valid, holds.chain_id, holds.length,
          holds.in_queue, holds.taken, added, made, tail, flows.indexed, flows.latest, ?_, ?_,
          ?_⟩
      · simp only [step, DemoMempool.genBlocks, free]
        rfl
      · exact .sent rfl (by rw [empty]; rfl) quiet
      · have order := flows.order
        rw [List.append_nil] at order
        rw [List.flatMap_append, DemoMempool.flatMap_txs_genBlocks, List.append_nil, order]
      · intro block member
        obtain old | isMade := List.mem_append.mp member
        · exact flows.filled block (List.mem_append_left _ old)
        · obtain ⟨i, inside, rfl⟩ := List.mem_mapIdx.mp isMade
          obtain ⟨some, few⟩ := DemoMempool.length_of_mem_fillBlocks (by decide) _
            (List.getElem_mem inside)
          exact ⟨some, few⟩

/-- The chain state receives the blocks that were sent last. -/
theorem Holds.receive
    (holds : process.Holds chainId (genesisBlock genesis) bound index txs) :
    ∃ after, process.step genesis .receive = .ok after ∧
      after.Holds chainId (genesisBlock genesis) bound index txs := by
  obtain ⟨added, blocks, tail, flows⟩ := holds.flows
  have nothing (empty : process.mailbox = []) :
      ∃ after, process.step genesis .receive = .ok after ∧
        after.Holds chainId (genesisBlock genesis) bound index txs :=
    ⟨process, by simp only [step, empty], holds⟩
  cases flows.waits with
  | idle free empty => exact nothing empty
  | received waits empty => exact nothing empty
  | sent waits message quiet =>
      obtain ⟨node, above, steps, valid, state, -, latest, handlers⟩ := holds.valid.addBlocks
      obtain rfl : tail = above :=
        Option.some.inj (Option.some.inj (flows.latest.symm.trans latest))
      refine ⟨{ process with
        node := node
        mailbox := []
        adding := process.adding ++ [some blocks] }, ?_, valid, holds.chain_id, ?_,
          holds.in_queue, holds.taken, added, blocks, tail, ?_, ?_, ?_, flows.order,
          flows.filled⟩
      · simp only [step, message, stepNode, steps]
      · simp only [List.length_append, List.length_singleton, handlers, holds.length]
      · rw [state, flows.indexed]
      · rw [state, flows.latest]
      · exact .received waits rfl rfl quiet handlers

/-- The mempool gets its answer when all blocks are added. -/
theorem Holds.answer
    (holds : process.Holds chainId g bound index txs) (i : Nat) :
    ∃ after, process.step genesis (.answer i) = .ok after ∧
      after.Holds chainId g bound index txs := by
  by_cases found : process.adding[i]? = some (some [])
  · obtain ⟨added, blocks, tail, flows⟩ := holds.flows
    have notQuiet (quiet : ∀ entry ∈ process.adding, entry = none) : False :=
      absurd (quiet _ (List.mem_of_getElem? found)) nofun
    cases flows.waits with
    | idle free empty quiet => exact absurd quiet notQuiet
    | sent waits message quiet => exact absurd quiet notQuiet
    | @received _ before handlers waits empty last quiet onTail =>
        obtain ⟨rfl, rfl⟩ := last_of_quiet quiet (last ▸ found)
        refine ⟨{ process with
          mempool := process.mempool.answered
          adding := before ++ [none] }, ?_, holds.valid, holds.chain_id, ?_, holds.in_queue,
            holds.taken, added, [], tail, flows.indexed, flows.latest, ?_, flows.order,
            flows.filled⟩
        · simp only [step, found]
          rw [last, List.set_append_right _ _ (Nat.le_refl _), Nat.sub_self]
          rfl
        · rw [← holds.length, last]
          simp
        · refine .idle rfl empty ?_
          intro entry member
          obtain old | new := List.mem_append.mp member
          · exact quiet entry old
          · exact List.mem_singleton.mp new
  · refine ⟨process, ?_, holds⟩
    simp only [step]

omit [Database δ Bytes Bytes] [NodeHasher η] in
/-- A block that is filled with transactions that were taken in may be stored if its hash
identifies it. -/
theorem Flows.storable
    {added blocks : List DemoBlock} {tail block : DemoBlock}
    (flows : process.Flows index txs added blocks tail)
    (taken : ∀ tx ∈ txs, TakenIn chainId tx) (member : block ∈ added ++ blocks)
    {handler : AddBlocks} {executed : Executed}
    (identified : hash (DemoNode.AddBlocks.fill handler block executed) ≠ 0 ∧
      ∀ other, other = g ∨ other ∈ process.node.stored →
        hash other = hash (DemoNode.AddBlocks.fill handler block executed) →
          other = DemoNode.AddBlocks.fill handler block executed) :
    Storable chainId g process.node.stored
      (DemoNode.AddBlocks.fill handler block executed) := by
  have isTaken (tx : Tx) (inside : tx ∈ block.txs) : TakenIn chainId tx :=
    taken tx (flows.mem_txs member inside)
  refine ⟨⟨?_, fun tx inside => (isTaken tx inside).accepted,
    fun tx inside => (isTaken tx inside).hash_eq⟩, identified.1, identified.2 _⟩
  exact Nat.lt_of_le_of_lt (flows.filled block member).few (by decide)

omit [Keccak256] [Secp256k1] [Rlp.Reader] [Database δ Bytes Bytes] [NodeHasher η] in
/-- The last entry of an index is the latest block. -/
theorem getBlockByNumber_latest_concat
    (state : DemoChainState δ η) {entries : List (Option DemoBlock)} {block : DemoBlock}
    (indexed : state.indexed = entries ++ [some block]) :
    state.getBlockByNumber .latest = some (some block) := by
  unfold DemoChainState.getBlockByNumber
  simp [indexed]

variable [ReliableDatabase δ]

/-- The next block of the list that was received last is added on top of the tail. -/
theorem Holds.addBlock
    (holds : process.Holds chainId (genesisBlock genesis) bound index txs) {i : Nat}
    {executed : Executed} (allowed : (Event.addBlock i executed).Allowed process genesis)
    (small : bound + (executed.nodes.length + 1) ≤ 2 ^ 63) :
    ∃ after, process.step genesis (.addBlock i executed) = .ok after ∧
      after.Holds chainId (genesisBlock genesis) (bound + (executed.nodes.length + 1)) index
        txs := by
  by_cases found : ∃ block blocks, process.adding[i]? = some (some (block :: blocks))
  · obtain ⟨block, rest, found⟩ := found
    obtain ⟨added, blocks, tail, flows⟩ := holds.flows
    have notQuiet (quiet : ∀ entry ∈ process.adding, entry = none) : False :=
      absurd (quiet _ (List.mem_of_getElem? found)) nofun
    cases flows.waits with
    | idle free empty quiet => exact absurd quiet notQuiet
    | sent waits message quiet => exact absurd quiet notQuiet
    | @received _ before handlers waits empty last quiet onTail =>
        obtain ⟨rfl, rfl⟩ := last_of_quiet quiet (last ▸ found)
        have length : before.length = handlers.length := by
          have same := holds.length
          rw [last, onTail] at same
          simpa using same
        have handler : process.node.handlers[before.length]? =
            some ⟨tail.number, hash tail⟩ := by
          rw [onTail, length]
          simp
        have storable := flows.storable holds.taken
          (List.mem_append_right added List.mem_cons_self)
          (allowed _ block rest handler found)
        obtain ⟨node, steps, valid, -, -, -, handlersAfter, onTop⟩ :=
          holds.valid.addBlock handler storable small
        have indexed := onTop tail flows.latest rfl
        have lastAfter : process.adding.set before.length (some rest) =
            before ++ [some rest] := by
          rw [last, List.set_append_right _ _ (Nat.le_refl _), Nat.sub_self]
          rfl
        have onTailAfter : node.handlers = handlers ++ [⟨tail.number + 1,
            hash (DemoNode.AddBlocks.fill ⟨tail.number, hash tail⟩ block executed)⟩] := by
          rw [handlersAfter, onTail, length, List.set_append_right _ _ (Nat.le_refl _),
            Nat.sub_self]
          rfl
        refine ⟨{ process with
          node := node
          adding := process.adding.set before.length (some rest) }, ?_, valid,
          holds.chain_id, ?_, holds.in_queue, holds.taken,
          added ++ [DemoNode.AddBlocks.fill ⟨tail.number, hash tail⟩ block executed], rest,
          _, ?_, getBlockByNumber_latest_concat _ indexed, ?_, ?_, ?_⟩
        · simp only [step, found, stepNode, steps]
        · rw [List.length_set, handlersAfter, List.length_set, holds.length]
        · rw [indexed, flows.indexed, List.append_assoc, List.map_append, List.map_singleton]
        · exact .received waits empty lastAfter quiet onTailAfter
        · rw [← flows.order]
          simp only [List.flatMap_append, List.flatMap_cons, List.flatMap_nil,
            List.append_nil, List.append_assoc]
          rfl
        · intro other member
          rw [List.append_assoc] at member
          obtain old | new := List.mem_append.mp member
          · exact flows.filled other (List.mem_append_left _ old)
          · obtain rfl | later := List.mem_cons.mp new
            · have isFilled := flows.filled block (List.mem_append_right _ List.mem_cons_self)
              exact ⟨isFilled.some, isFilled.few⟩
            · exact flows.filled other
                (List.mem_append_right _ (List.mem_cons_of_mem _ later))
  · refine ⟨process, ?_, holds.mono (Nat.le_add_right _ _)⟩
    simp only [step]
    split
    · next block blocks same => exact absurd ⟨block, blocks, same⟩ found
    · rfl

/-- A request for a block changes nothing that the mempool waits for. -/
theorem Holds.getBlock
    [Rlp.LawfulReader] (holds : process.Holds chainId (genesisBlock genesis) bound index txs)
    {h : Hash} (nonzero : h ≠ 0) :
    ∃ after, process.step genesis (.getBlock h) = .ok after ∧
      after.Holds chainId (genesisBlock genesis) bound index txs := by
  obtain ⟨added, blocks, tail, flows⟩ := holds.flows
  obtain ⟨node, steps, valid, indexed, -, handlers⟩ := holds.valid.getBlock nonzero
  have latest : node.state.getBlockByNumber .latest = some (some tail) := by
    rw [← flows.latest]
    unfold DemoChainState.getBlockByNumber
    rw [indexed]
  refine ⟨{ process with node := node }, ?_, valid, holds.chain_id, ?_, holds.in_queue,
    holds.taken, added, blocks, tail, indexed.trans flows.indexed, latest,
    flows.waits.congr rfl rfl rfl handlers, flows.order, flows.filled⟩
  · simp only [step, stepNode, steps]
  · exact holds.length.trans (congrArg List.length handlers).symm

/-- A step takes in what it brings, or is refused by the mempool. -/
theorem Holds.step
    [Rlp.LawfulReader] (holds : process.Holds chainId (genesisBlock genesis) bound index txs)
    {event : Event} (allowed : event.Allowed process genesis)
    (small : bound + event.writes ≤ 2 ^ 63) :
    (∃ after, process.step genesis event = .ok after ∧
      after.Holds chainId (genesisBlock genesis) (bound + event.writes) index
        ((event.taken chainId).foldl (keepFirst Tx.txHash) txs)) ∨
    ∃ panic, process.step genesis event = .error panic ∧ process.Refuses event panic := by
  cases event with
  | addTransaction raw => exact holds.addTransaction allowed
  | genBlocks clock => exact holds.genBlocks clock
  | receive => exact .inl holds.receive
  | addBlock i executed => exact .inl (holds.addBlock allowed small)
  | answer i => exact .inl (holds.answer i)
  | getBlock h => exact .inl (holds.getBlock allowed)

/-! ## Runs -/

/-- A run takes in what comes, or is refused by the mempool at some event. -/
theorem Holds.run
    [Rlp.LawfulReader] {process : DemoProcess δ η} {bound : Nat} {txs : List Tx}
    (holds : process.Holds chainId (genesisBlock genesis) bound index txs)
    {events : List Event} (admits : process.Admits genesis events)
    (small : bound + (events.map Event.writes).sum ≤ 2 ^ 63) :
    (∃ after, process.run genesis events = .ok after ∧
      after.Holds chainId (genesisBlock genesis) (bound + (events.map Event.writes).sum) index
        ((events.flatMap (Event.taken chainId)).foldl (keepFirst Tx.txHash) txs)) ∨
    ∃ first event rest middle panic, events = first ++ event :: rest ∧
      process.run genesis first = .ok middle ∧ middle.Refuses event panic ∧
      process.run genesis events = .error panic := by
  induction events generalizing process bound txs with
  | nil => exact .inl ⟨process, rfl, holds⟩
  | cons event events inductionHypothesis =>
      rw [List.map_cons, List.sum_cons, ← Nat.add_assoc] at small ⊢
      obtain ⟨middle, steps, holdsMiddle⟩ | ⟨panic, steps, refuses⟩ :=
        holds.step admits.1 (by omega)
      · obtain ⟨after, runs, holdsAfter⟩ | ⟨first, other, rest, last, panic, rfl, runs, refuses,
            fails⟩ := inductionHypothesis holdsMiddle (admits.2 middle steps) small
        · refine .inl ⟨after, ?_, ?_⟩
          · rw [DemoProcess.run, steps]
            exact runs
          · rwa [List.flatMap_cons, List.foldl_append]
        · refine .inr ⟨event :: first, other, rest, last, panic, rfl, ?_, refuses, ?_⟩
          · rw [DemoProcess.run, steps]
            exact runs
          · rw [DemoProcess.run, steps]
            exact fails
      · refine .inr ⟨[], event, events, process, panic, rfl, rfl, refuses, ?_⟩
        rw [DemoProcess.run, steps]
        rfl

omit [ReliableDatabase δ] in
/-- A process that has just been started has taken in nothing. -/
theorem holds_start
    {node : DemoNode δ η} (valid : node.Valid chainId (genesisBlock genesis) bound)
    (noHandlers : node.handlers = []) :
    (start node).Holds chainId (genesisBlock genesis) bound node.state.indexed [] := by
  obtain ⟨_, _, _, tail, canonical, -⟩ := valid.held
  refine ⟨valid, canonical.keeps.chain_id, (congrArg List.length noHandlers).symm, ?_, nofun,
    [], [], tail, (List.append_nil _).symm, canonical.getBlockByNumber_latest,
    .idle rfl rfl nofun, rfl, nofun⟩
  intro h
  simp [start, DemoMempool.new]

end Steps
end DemoProcess

/-! ## A payment that gets into the index -/

namespace Sample

def payment : Tx :=
  ⟨Tx.Sample.inner, 0xb837436e925969b5c9ed4fe93a5e17005e15d184763b3bff756e41f437ba31f8,
    Tx.Sample.sender⟩

/-- The block with the payment on top of the genesis block. -/
def paidBlock : DemoBlock :=
  { DemoBlock.new 1 genesisHash 0 none 1655254900 [payment] with
    rootHash := execution.rootHash }

/-- The hashes of the blocks and those that decoding the payment takes. -/
@[reducible] def processKeccak : Keccak256 where
  digest bytes :=
    ([((genesisBlock execution).hashedBytes, genesisHash),
      (paidBlock.hashedBytes,
        0x6e2a73cf2c7d063d089e78047fa7d9df0d6e1cfedaa923138540fda8cd388145)].lookup bytes).getD
      (Tx.Sample.keccak.digest bytes)

/-- The payment comes in, and the chain state receives it in a block. -/
def received : List DemoProcess.Event :=
  [.addTransaction Tx.Sample.blank, .genBlocks fun _ => 1655254900, .receive]

/-- The block is added, and the mempool is answered. -/
def processEvents : List DemoProcess.Event := received ++ [.addBlock 0 execution, .answer 0]

attribute [local instance] nodeHasher processKeccak Tx.Sample.secp256k1 Rlp.standardReader

/-- A node on an empty database. -/
def booted : Option (DemoNode Entries Hash) := DemoNode.boot ⟨[]⟩ 1 execution

/-- What a process has to add, and what it has stored. -/
structure Summary where
  handlers : List (UInt64 × Hash)
  adding : List (Option (List DemoBlock))
  stored : List DemoBlock
deriving DecidableEq

def summary (process : DemoProcess Entries Hash) : Summary where
  handlers := process.node.handlers.map fun handler => (handler.number, handler.pHash)
  adding := process.adding
  stored := process.node.stored

theorem processEvents_admitted
    {node : DemoNode Entries Hash}
    (boots : booted = some node) :
    (DemoProcess.start node).Admits execution processEvents := by
  refine ⟨?_, fun first taken => ⟨trivial, fun second made => ⟨trivial,
    fun third arrived => ⟨?_, fun _ _ => ⟨trivial, fun _ _ => trivial⟩⟩⟩⟩⟩
  · have chainId : booted.map (fun node => node.state.chainId) = some 1 := by
      decide +kernel
    have read : Tx.decode Tx.Sample.blank 1 = .ok (some payment) := by
      decide +kernel
    rw [boots, Option.map_some, Option.some.injEq] at chainId
    intro tx decoded
    change Tx.decode Tx.Sample.blank node.state.chainId = _ at decoded
    rw [chainId, read] at decoded
    obtain rfl := Option.some.inj (Except.ok.inj decoded)
    exact ⟨by decide +kernel, by decide +kernel⟩
  · have runs : (DemoProcess.start node).run execution received = .ok third := by
      rw [received, DemoProcess.run, taken]
      change first.run execution _ = _
      rw [DemoProcess.run, made]
      change second.run execution _ = _
      rw [DemoProcess.run, arrived]
      rfl
    have whole : booted.map
        (fun node => (((DemoProcess.start node).run execution received).map summary).toOption) =
          some (some ⟨[(0, genesisHash)],
            [some [DemoBlock.new 0 0 0 none 1655254900 [payment]]], []⟩) := by
      decide +kernel
    rw [boots, Option.map_some, runs, Option.some.injEq] at whole
    obtain ⟨handlers, adding, stored⟩ := Summary.mk.inj (Option.some.inj whole)
    intro handler block blocks isHandler isNext
    rw [adding] at isNext
    obtain ⟨rfl, rfl⟩ := List.cons.inj (Option.some.inj (Option.some.inj isNext))
    have named := congrArg (·[0]?) handlers
    simp only [List.getElem?_map, isHandler] at named
    obtain ⟨number, parent⟩ := Prod.mk.inj (Option.some.inj named)
    have filled : DemoNode.AddBlocks.fill handler
        (DemoBlock.new 0 0 0 none 1655254900 [payment]) execution = paidBlock := by
      rw [DemoNode.AddBlocks.fill, number, parent]
      rfl
    rw [filled, stored]
    refine ⟨by decide +kernel, ?_⟩
    rintro other (rfl | member) same
    · exact absurd same (by decide +kernel)
    · exact absurd member List.not_mem_nil

/-- The mempool is asked for nothing while it waits. -/
theorem processEvents_accepted
    {node : DemoNode Entries Hash}
    (boots : booted = some node)
    {first rest : List DemoProcess.Event} {event : DemoProcess.Event}
    (whole : processEvents = first ++ event :: rest) {process : DemoProcess Entries Hash}
    (runs : (DemoProcess.start node).run execution first = .ok process) {panic : DemoPanic} :
    ¬process.Refuses event panic := by
  have free : booted.map
      (fun node => (((DemoProcess.start node).run execution
        [.addTransaction Tx.Sample.blank]).map
          fun process => process.mempool.borrowed).toOption) = some (some false) := by
    decide +kernel
  rw [boots, Option.map_some, Option.some.injEq] at free
  intro refuses
  rw [processEvents, received] at whole
  simp only [List.cons_append, List.nil_append] at whole
  rcases first with _ | ⟨one, _ | ⟨two, first⟩⟩
  · simp only [List.nil_append, List.cons.injEq] at whole
    rw [← whole.1] at refuses
    have same : DemoProcess.start node = process := Except.ok.inj runs
    rw [← same] at refuses
    cases refuses with
    | addTransaction waits => exact Bool.false_ne_true waits
    | @decode _ failure _ fails =>
        have steps : (DemoProcess.start node).run execution
            [.addTransaction Tx.Sample.blank] = .error (.decode failure) := by
          simp only [DemoProcess.run, DemoProcess.step, DemoMempool.addTransaction,
            DemoProcess.start, DemoMempool.new] at fails ⊢
          rw [fails]
          rfl
        rw [steps] at free
        exact absurd free nofun
  · simp only [List.cons_append, List.nil_append, List.cons.injEq] at whole
    rw [← whole.1] at runs
    rw [← whole.2.1] at refuses
    rw [runs] at free
    cases refuses with
    | genBlocks waits =>
        have borrowed : process.mempool.borrowed = false := Option.some.inj free
        exact Bool.false_ne_true (borrowed.symm.trans waits)
  · simp only [List.cons_append, List.cons.injEq] at whole
    have member : event ∈ first ++ event :: rest := List.mem_append_right _ List.mem_cons_self
    rw [← whole.2.2] at member
    simp only [List.mem_cons, List.not_mem_nil, or_false] at member
    rcases member with rfl | rfl | rfl <;> cases refuses

end Sample

section

attribute [local instance] Sample.nodeHasher Sample.processKeccak Tx.Sample.secp256k1
  Rlp.standardReader

namespace DemoProcess

end DemoProcess

end
end Qevm
