import Qevm.Laws.ProcessRuns
import Qevm.Node.Lookup

/-!
# Where transactions are found

A node answers a request for a transaction with its place in the highest block of the index
that has it, when the request is first answered; later it gives the same answer.
-/

namespace Qevm

open Block (hash)
open DemoChainState (Executed genesisBlock)

/-- The place of a transaction in the highest block of an index that has it. -/
def foundIn (txHash : Hash) (index : List (Option DemoBlock)) : Option (DemoBlock × Nat) :=
  index.reverse.findSome? fun entry => entry.bind fun block => block.findTx txHash

section Places

variable {block found : DemoBlock} {txHash : Hash} {idx : Nat}

/-- What is found in a block is the first of its transactions with the hash. -/
theorem findTx_eq_some :
    block.findTx txHash = some (found, idx) ↔ found = block ∧
      ∃ tx, block.txs[idx]? = some tx ∧ tx.txHash = txHash ∧
        ∀ (earlier : Nat) (other : Tx), earlier < idx → block.txs[earlier]? = some other →
          other.txHash ≠ txHash := by
  unfold DemoBlock.findTx
  rw [Option.map_eq_some_iff]
  constructor
  · rintro ⟨place, finds, same⟩
    obtain ⟨rfl, rfl⟩ := Prod.mk.inj same
    obtain ⟨inside, isIt, first⟩ := List.findIdx?_eq_some_iff_getElem.mp finds
    refine ⟨rfl, block.txs[place], List.getElem?_eq_getElem inside, by simpa using isIt, ?_⟩
    intro earlier other less there
    obtain ⟨_, rfl⟩ := List.getElem?_eq_some_iff.mp there
    simpa using first earlier less
  · rintro ⟨rfl, tx, there, named, first⟩
    obtain ⟨inside, rfl⟩ := List.getElem?_eq_some_iff.mp there
    refine ⟨idx, List.findIdx?_eq_some_iff_getElem.mpr ⟨inside, by simpa using named, ?_⟩, rfl⟩
    intro earlier less
    simpa using first earlier _ less (List.getElem?_eq_getElem (Nat.lt_trans less inside))

/-- Looking through blocks that are all there gives the first place. -/
theorem lookThrough_map_some (blocks : List DemoBlock) :
    lookThrough txHash (blocks.map some) =
      some ((blocks.map some).findSome? fun entry =>
        entry.bind fun block => block.findTx txHash) := by
  induction blocks with
  | nil => rfl
  | cons block blocks inductionHypothesis =>
      rw [List.map_cons, lookThrough, List.findSome?_cons, Option.bind_some]
      cases block.findTx txHash with
      | none => exact inductionHypothesis
      | some place => rfl

/-- A place in an index is one in a block of the index. -/
theorem mem_of_foundIn
    {index : List (Option DemoBlock)} (finds : foundIn txHash index = some (found, idx)) :
    some found ∈ index ∧ found.findTx txHash = some (found, idx) := by
  obtain ⟨entry, member, there⟩ := List.exists_of_findSome?_eq_some finds
  obtain ⟨block, rfl, there⟩ := Option.bind_eq_some_iff.mp there
  obtain rfl := (findTx_eq_some.mp there).1
  exact ⟨List.mem_reverse.mp member, there⟩

end Places

namespace DemoLookup

section Runs

variable {δ η : Type} [Keccak256] [Secp256k1] [Rlp.Reader] [Database δ Bytes Bytes]
  [NodeHasher η]

/-! ## Which events may happen -/

/-- The number of writes of nodes that an event makes. -/
def Event.writes : Event → Nat
  | .getTx _ => 0
  | .node event => event.writes

/-- The process does not end. -/
def Event.Stays : Event → Prop
  | .getTx _ => True
  | .node event => ¬event.Ends

def Event.Allowed (self : DemoLookup δ η) (genesis : Executed) : Event → Prop
  | .getTx _ => True
  | .node event => event.Allowed self.node genesis

/-- The events of a run are all allowed where they happen. -/
def Admits (self : DemoLookup δ η) (genesis : Executed) : List Event → Prop
  | [] => True
  | event :: events =>
      event.Allowed self genesis ∧
        ∀ after, self.step genesis event = some after → after.Admits genesis events

/-! ## What every step keeps -/

/-- The index is a line of stored blocks, as it was at each request, and what is kept are the
places that were found first. -/
structure Holds (lookup : DemoLookup δ η) (chainId : U256) (g : DemoBlock) (bound : Nat) :
    Prop where
  valid : lookup.node.Valid chainId g bound
  lines : ∀ entry ∈ lookup.asked, ∃ path tail, BlockLine g lookup.node.stored path tail ∧
    entry.2 = path.map some
  remembers : Memo.Remembers foundIn lookup.txCache lookup.asked

variable {self : DemoLookup δ η} {chainId : U256} {g : DemoBlock} {genesis : Executed}
  {bound : Nat}

/-- The index of a node is a line of stored blocks. -/
theorem line_of_valid {node : DemoNode δ η} (valid : node.Valid chainId g bound) :
    ∃ path tail, BlockLine g node.stored path tail ∧ node.state.indexed = path.map some := by
  obtain ⟨blocks, records, path, tail, canonical, -⟩ := valid.held
  exact ⟨path, tail, canonical.lineage.mono canonical.keeps.loaded, canonical.indexed⟩

omit [Keccak256] [Secp256k1] [Rlp.Reader] [Database δ Bytes Bytes] [NodeHasher η] in
/-- A request asks for the place in the index. -/
theorem getCachedTx_eq
    {path : List DemoBlock} (index : self.node.state.indexed = path.map some) (txHash : Hash) :
    self.getCachedTx txHash =
      let answered := Memo.ask foundIn self.txCache self.node.state.indexed txHash
      some (answered.1,
        { self with
          txCache := answered.2
          asked := self.asked ++ [(txHash, self.node.state.indexed)] }) := by
  have looked : lookThrough txHash self.node.state.indexed.reverse =
      some (foundIn txHash self.node.state.indexed) := by
    rw [index, ← List.map_reverse, lookThrough_map_some, foundIn, List.map_reverse]
  unfold getCachedTx Memo.ask
  simp only [looked, Option.map_some]
  cases self.txCache.lookup txHash with
  | some place => rfl
  | none => cases foundIn txHash self.node.state.indexed <;> rfl

/-- A request is answered with the first place that was found. -/
theorem Holds.getTx (holds : self.Holds chainId g bound) (txHash : Hash) :
    ∃ after, self.getCachedTx txHash =
        some (Memo.firstAnswer foundIn txHash (self.asked ++ [(txHash, self.node.state.indexed)]),
          after) ∧
      after.Holds chainId g bound ∧ after.node = self.node ∧
      after.asked = self.asked ++ [(txHash, self.node.state.indexed)] := by
  obtain ⟨path, tail, lineage, index⟩ := line_of_valid holds.valid
  rw [getCachedTx_eq index, ← holds.remembers.ask_fst]
  refine ⟨_, rfl, ⟨holds.valid, ?_, holds.remembers.ask⟩, rfl, rfl⟩
  intro entry member
  obtain old | new := List.mem_append.mp member
  · exact holds.lines entry old
  · rw [List.mem_singleton.mp new]
    exact ⟨path, tail, lineage, index⟩

variable [ReliableDatabase δ]

/-- Every allowed step succeeds and keeps the places that were found first. -/
theorem Holds.step
    [Rlp.LawfulReader] (holds : self.Holds chainId (genesisBlock genesis) bound) {event : Event}
    (allowed : event.Allowed self genesis) (small : bound + event.writes ≤ 2 ^ 63) :
    ∃ after, self.step genesis event = some after ∧
      after.Holds chainId (genesisBlock genesis) (bound + event.writes) ∧
      (event.Stays → self.asked <+: after.asked) := by
  cases event with
  | getTx txHash =>
      obtain ⟨after, asks, still, -, asked⟩ := holds.getTx txHash
      refine ⟨after, ?_, still, fun _ => ?_⟩
      · rw [DemoLookup.step, asks, Option.map_some]
      · rw [asked]
        exact List.prefix_append _ _
  | node event =>
      obtain ⟨node, steps, valid, goes⟩ := holds.valid.step allowed small
      have sameProcess :
          ({ self with node := node } : DemoLookup δ η).Holds chainId (genesisBlock genesis)
            (bound + event.writes) := by
        refine ⟨valid, fun entry member => ?_, holds.remembers⟩
        obtain ⟨path, tail, lineage, index⟩ := holds.lines entry member
        exact ⟨path, tail, lineage.mono fun isStored => goes.stored.subset isStored, index⟩
      have newProcess :
          (⟨node, ∅, []⟩ : DemoLookup δ η).Holds chainId (genesisBlock genesis)
            (bound + event.writes) :=
        ⟨valid, nofun, Memo.remembers_nil⟩
      refine ⟨self.goOn node event, ?_, ?_, ?_⟩
      · rw [DemoLookup.step, steps, Option.map_some]
      · cases event with
        | getBlock => exact sameProcess
        | addBlocks => exact sameProcess
        | addBlock => exact sameProcess
        | endAfterExecution => exact newProcess
        | endAfterStoring i =>
            rw [goOn]
            split
            · exact newProcess
            · exact sameProcess
        | restart => exact newProcess
      · intro stays
        cases event with
        | getBlock => exact List.prefix_rfl
        | addBlocks => exact List.prefix_rfl
        | addBlock => exact List.prefix_rfl
        | endAfterExecution => exact absurd trivial stays
        | endAfterStoring => exact absurd trivial stays
        | restart => exact absurd trivial stays

/-! ## Runs -/

theorem Holds.run
    [Rlp.LawfulReader] {self : DemoLookup δ η} {bound : Nat}
    (holds : self.Holds chainId (genesisBlock genesis) bound) {events : List Event}
    (admits : self.Admits genesis events)
    (small : bound + (events.map Event.writes).sum ≤ 2 ^ 63) :
    ∃ after, self.run genesis events = some after ∧
      after.Holds chainId (genesisBlock genesis) (bound + (events.map Event.writes).sum) ∧
      ((∀ event ∈ events, event.Stays) → self.asked <+: after.asked) := by
  induction events generalizing self bound with
  | nil => exact ⟨self, rfl, holds, fun _ => List.prefix_rfl⟩
  | cons event events inductionHypothesis =>
      rw [List.map_cons, List.sum_cons, ← Nat.add_assoc] at small ⊢
      obtain ⟨middle, steps, holdsMiddle, grows⟩ := holds.step admits.1 (by omega)
      obtain ⟨after, runs, holdsAfter, growsOn⟩ :=
        inductionHypothesis holdsMiddle (admits.2 middle steps) small
      refine ⟨after, ?_, holdsAfter, fun stay => ?_⟩
      · rw [DemoLookup.run, steps, Option.bind_some, runs]
      · rw [List.forall_mem_cons] at stay
        exact (grows stay.1).trans (growsOn stay.2)

omit [ReliableDatabase δ] in
/-- The first events of a run are admitted, and after them the others are. -/
theorem admits_append
    {self : DemoLookup δ η} {events more : List Event} :
    self.Admits genesis (events ++ more) ↔ self.Admits genesis events ∧
      ∀ after, self.run genesis events = some after → after.Admits genesis more := by
  induction events generalizing self with
  | nil => simp [Admits, DemoLookup.run]
  | cons event events inductionHypothesis =>
      simp only [List.cons_append, Admits, inductionHypothesis, DemoLookup.run,
        Option.bind_eq_some_iff]
      grind

/-- A node that was started on an empty database has served a run of events. -/
theorem holds_of_boot
    [Rlp.LawfulReader] {db : δ} (fresh : Database.contents db = fun _ => none)
    (chainId : U256) (named : hash (genesisBlock genesis) ≠ 0) {events : List Event}
    (admitted : ∀ first : DemoLookup δ η, boot db chainId genesis = some first →
      first.Admits genesis events)
    (small : genesis.nodes.length + 1 + (events.map Event.writes).sum ≤ 2 ^ 63) :
    ∃ first self : DemoLookup δ η, boot db chainId genesis = some first ∧
      first.run genesis events = some self ∧
      self.Holds chainId (genesisBlock genesis)
        (genesis.nodes.length + 1 + (events.map Event.writes).sum) := by
  obtain ⟨node, boots, valid, -⟩ :=
    DemoNode.valid_boot (η := η) fresh chainId named (by omega)
  have starts : boot db chainId genesis = some (⟨node, ∅, []⟩ : DemoLookup δ η) := by
    rw [boot, boots, Option.map_some]
  have begins : (⟨node, ∅, []⟩ : DemoLookup δ η).Holds chainId (genesisBlock genesis)
      (genesis.nodes.length + 1) :=
    ⟨valid, nofun, Memo.remembers_nil⟩
  obtain ⟨self, runs, holds, -⟩ := begins.run (admitted _ starts) small
  exact ⟨_, self, starts, runs, holds⟩

end Runs
end DemoLookup

/-! ## A payment that is found -/

namespace Sample

attribute [local instance] nodeHasher processKeccak Tx.Sample.secp256k1 Rlp.standardReader

/-- The block with the payment may be stored. -/
theorem paidBlock_storable : Storable 1 (genesisBlock execution) [] paidBlock := by
  refine ⟨⟨by decide, ?_, ?_⟩, by decide +kernel, ?_⟩
  · intro tx member
    obtain rfl := List.mem_singleton.mp member
    exact ⟨⟨Tx.Sample.blank, by decide +kernel⟩, by decide +kernel⟩
  · intro tx member
    obtain rfl := List.mem_singleton.mp member
    decide +kernel
  · rintro other (rfl | member) same
    · exact absurd same (by decide +kernel)
    · exact absurd member List.not_mem_nil

/-- What a node knows once a list of blocks has come in. -/
theorem fill_of_addBlocks
    {node next : DemoNode Entries Hash} (boots : booted = some node)
    (steps : node.step execution .addBlocks = some next) :
    next.stored = [] ∧ next.state.chainId = 1 ∧
      (node.state.indexed = [some (genesisBlock execution)]) ∧
      ∀ handler, next.handlers[0]? = some handler →
        DemoNode.AddBlocks.fill handler paidBlock execution = paidBlock := by
  have starts : booted.bind (fun node => (node.step execution .addBlocks).map fun next =>
      ((next.handlers.map fun handler => (handler.number, handler.pHash)), next.stored,
        next.state.chainId, node.state.indexed)) =
          some ([(0, genesisHash)], [], 1, [some (genesisBlock execution)]) := by
    decide +kernel
  rw [boots, Option.bind_some, steps, Option.map_some, Option.some.injEq, Prod.mk.injEq,
    Prod.mk.injEq, Prod.mk.injEq] at starts
  obtain ⟨handlers, stored, chainId, index⟩ := starts
  refine ⟨stored, chainId, index, fun handler found => ?_⟩
  have first := congrArg (·[0]?) handlers
  simp only [List.getElem?_map, found] at first
  obtain ⟨number, parent⟩ := Prod.mk.inj (Option.some.inj first)
  rw [DemoNode.AddBlocks.fill, number, parent]
  rfl

/-- The block is added. -/
def lookupEvents : List DemoLookup.Event :=
  [.node .addBlocks, .node (.addBlock 0 paidBlock execution)]

theorem lookupEvents_admitted
    (first : DemoLookup Entries Hash)
    (boots : (DemoLookup.boot ⟨[]⟩ 1 execution : Option (DemoLookup Entries Hash)) = some first)
    (more : List Hash) :
    first.Admits execution
      (lookupEvents ++ .getTx payment.txHash :: more.map DemoLookup.Event.getTx) := by
  obtain ⟨node, nodeBoots, rfl⟩ := Option.map_eq_some_iff.mp boots
  have asks (self : DemoLookup Entries Hash) (hashes : List Hash) :
      self.Admits execution (hashes.map DemoLookup.Event.getTx) := by
    induction hashes generalizing self with
    | nil => trivial
    | cons txHash hashes inductionHypothesis =>
        exact ⟨trivial, fun after _ => inductionHypothesis after⟩
  refine ⟨trivial, fun next steps => ⟨?_, fun after _ => asks after (payment.txHash :: more)⟩⟩
  obtain ⟨nextNode, nodeSteps, rfl⟩ := Option.map_eq_some_iff.mp steps
  intro handler found
  obtain ⟨stored, chainId, -, fills⟩ := fill_of_addBlocks nodeBoots nodeSteps
  change Storable nextNode.state.chainId _ nextNode.stored _
  rw [stored, chainId, fills handler found]
  exact paidBlock_storable

/-- The payment is in the index then. -/
theorem lookupEvents_index
    [Rlp.LawfulReader] {self : DemoLookup Entries Hash}
    (runs : (DemoLookup.boot ⟨[]⟩ 1 execution : Option (DemoLookup Entries Hash)).bind
      (fun first => first.run execution lookupEvents) = some self) :
    self.txCache = ∅ ∧
      self.node.state.indexed = [genesisBlock execution, paidBlock].map some := by
  have fresh : Database.contents (⟨[]⟩ : Entries) = fun _ => none := rfl
  have named : hash (genesisBlock execution) ≠ 0 := by decide +kernel
  obtain ⟨node, boots, valid, -⟩ := DemoNode.valid_boot (η := Hash) fresh 1 named (by decide)
  obtain ⟨next, tail, steps, validNext, sameState, -, latest, handlers⟩ := valid.addBlocks
  obtain ⟨stored, -, index, fills⟩ := fill_of_addBlocks boots steps
  have noHandlers : node.handlers = [] := by
    have none : booted.map (fun node => node.handlers.length) = some 0 := by
      decide +kernel
    rw [booted, boots, Option.map_some] at none
    exact List.eq_nil_of_length_eq_zero (Option.some.inj none)
  have found : next.handlers[0]? = some ⟨tail.number, hash tail⟩ := by
    rw [handlers, noHandlers]
    rfl
  have storable : Storable 1 (genesisBlock execution) next.stored
      (DemoNode.AddBlocks.fill ⟨tail.number, hash tail⟩ paidBlock execution) := by
    rw [stored, fills _ found]
    exact paidBlock_storable
  obtain ⟨after, adds, -, -, -, -, -, onTail⟩ := validNext.addBlock found storable (by decide)
  have entries := onTail tail (by rw [sameState]; exact latest) rfl
  rw [fills _ found, sameState, index] at entries
  rw [DemoLookup.boot, boots, Option.map_some, Option.bind_some, lookupEvents, DemoLookup.run,
    DemoLookup.step, steps, Option.map_some, Option.bind_some, DemoLookup.run] at runs
  change (((next.step execution (.addBlock 0 paidBlock execution)).map _).bind _) = _ at runs
  rw [adds] at runs
  obtain rfl := Option.some.inj runs
  exact ⟨rfl, entries⟩

/-- The payment is found. -/
theorem lookupEvents_finds
    [Rlp.LawfulReader] {self : DemoLookup Entries Hash}
    (runs : (DemoLookup.boot ⟨[]⟩ 1 execution : Option (DemoLookup Entries Hash)).bind
      (fun first => first.run execution lookupEvents) = some self) :
    ∃ after, self.getCachedTx payment.txHash = some (some (paidBlock, 0), after) := by
  obtain ⟨cache, index⟩ := lookupEvents_index runs
  have finds : foundIn payment.txHash ([genesisBlock execution, paidBlock].map some) =
      some (paidBlock, 0) := by
    decide
  have asks : (Memo.ask foundIn (∅ : HashMap Hash (DemoBlock × Nat))
      ([genesisBlock execution, paidBlock].map some) payment.txHash).1 = some (paidBlock, 0) := by
    rw [Memo.remembers_nil.ask_fst, List.nil_append, Memo.firstAnswer_singleton, finds]
  rw [DemoLookup.getCachedTx_eq index, cache, index]
  exact ⟨_, congrArg some (Prod.ext asks rfl)⟩

end Sample

section

attribute [local instance] Sample.nodeHasher Sample.processKeccak Tx.Sample.secp256k1
  Rlp.standardReader

namespace DemoLookup

end DemoLookup

end
end Qevm
