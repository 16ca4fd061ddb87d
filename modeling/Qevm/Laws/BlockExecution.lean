import Qevm.Collections.Compaction
import Qevm.Laws.Funds
import Qevm.Laws.GasConservation
import Qevm.Laws.NodeRuns
import Qevm.Laws.Transfer
import Qevm.Node.Execution

/-!
# What the execution of a block leaves

The transactions of a block are executed in their order, each on the state that the one
before has left.  The outcome lists the gas of those that succeeded, and of no others.
-/

namespace Qevm

open WorldState

section Execution

variable {S : Type} [WorldState S] [Keccak256]

namespace Transaction

/-- A transaction runs to its end through contexts that are allowed. -/
def Ends
    (allowed : TxExecContext S → Prop) (tx : Transaction S) (result : TxExecResult) (state : S) :
    Prop :=
  ∃ entered reached, tx.Enters entered ∧
    Relation.ReflTransGen (fun before after => Step before after ∧ allowed before)
      entered reached ∧
    reached.status = .finished result ∧ reached.state = state

/-- Feeding a transaction back until it has finished runs it to its end. -/
theorem feed_reaches
    {fuel : Nat} {context : TxExecContext S} {result : TxExecResult} {state : S}
    (ends : feed fuel context = some (result, state)) :
    ∃ reached, Relation.ReflTransGen Step context reached ∧
      reached.status = .finished result ∧ reached.state = state := by
  induction fuel generalizing context with
  | zero =>
      unfold feed at ends
      split at ends
      · next found =>
          obtain ⟨rfl, rfl⟩ := Prod.mk.inj (Option.some.inj ends)
          exact ⟨context, .refl, found, rfl⟩
      · contradiction
  | succ fuel inductionHypothesis =>
      unfold feed at ends
      split at ends
      · next found =>
          obtain ⟨rfl, rfl⟩ := Prod.mk.inj (Option.some.inj ends)
          exact ⟨context, .refl, found, rfl⟩
      · obtain ⟨next, once, rest⟩ := Option.bind_eq_some_iff.mp ends
        obtain ⟨reached, run, finished, same⟩ := inductionHypothesis rest
        exact ⟨reached, .head (stepOnce_eq_some.mp once) run, finished, same⟩

/-- With more fuel a transaction ends in the same way. -/
theorem feed_of_reaches
    {context reached : TxExecContext S} {result : TxExecResult}
    (run : Relation.ReflTransGen Step context reached)
    (finished : reached.status = .finished result) :
    ∃ fuel, feed fuel context = some (result, reached.state) := by
  induction run using Relation.ReflTransGen.head_induction_on with
  | refl => exact ⟨0, by rw [feed, finished]⟩
  | head step _ inductionHypothesis =>
      obtain ⟨fuel, ends⟩ := inductionHypothesis
      refine ⟨fuel + 1, ?_⟩
      rw [feed, step.1, stepOnce_eq_some.mpr step]
      exact ends

/-- A transaction is executed with some fuel exactly if it runs to its end. -/
theorem runSingleTx_iff
    {tx : Transaction S} {result : TxExecResult} {state : S} :
    (∃ fuel, tx.runSingleTx fuel = some (result, state)) ↔
      tx.Ends (fun _ => True) result state := by
  have any {entered reached : TxExecContext S} :
      Relation.ReflTransGen (fun before after => Step before after ∧ True) entered reached ↔
        Relation.ReflTransGen Step entered reached := by
    simp only [and_true]
  constructor
  · rintro ⟨fuel, runs⟩
    obtain ⟨entered, entry, fed⟩ := Option.bind_eq_some_iff.mp runs
    obtain ⟨reached, run, finished, same⟩ := feed_reaches fed
    exact ⟨entered, reached, entry_eq_some.mp entry, any.mpr run, finished, same⟩
  · rintro ⟨entered, reached, enters, run, finished, rfl⟩
    obtain ⟨fuel, fed⟩ := feed_of_reaches (any.mp run) finished
    refine ⟨fuel, ?_⟩
    rw [runSingleTx, entry_eq_some.mpr enters]
    exact fed

end Transaction

namespace BlockExec

/-- The transactions of a block are executed or skipped, with the result of each. -/
inductive Executes
    (allowed : TxExecContext S → Prop) (prevState : S) (env : TxExecEnv) :
    S → List Tx → List (Option TxExecResult) → S → Prop
  | done {state : S} : Executes allowed prevState env state [] [] state
  | skipped {state kept last : S} {tx : Tx} {txs : List Tx}
      {results : List (Option TxExecResult)} {paid : Wei} (fee : tx.paid = some paid)
      (short : transferBalance state tx.from_ 0 paid = (kept, none))
      (rest : Executes allowed prevState env kept txs results last) :
      Executes allowed prevState env state (tx :: txs) (none :: results) last
  | executed {state charged next last : S} {tx : Tx} {txs : List Tx}
      {results : List (Option TxExecResult)} {paid : Wei} {result : TxExecResult}
      (fee : tx.paid = some paid)
      (pays : transferBalance state tx.from_ 0 paid = (charged, some ()))
      (ends : (tx.execArgs charged prevState env).Ends allowed result next)
      (rest : Executes allowed prevState env next txs results last) :
      Executes allowed prevState env state (tx :: txs) (some result :: results) last

/-- What the outcome lists of a transaction: the gas that it used, and the contract that it
created, if it succeeded. -/
def listed (entry : Tx × Option TxExecResult) : Option (Gas × Option Addr) :=
  match entry.2 with
  | some (.succeeded _ unusedGas contractAddr) =>
      some (entry.1.inner.gas - unusedGas, contractAddr)
  | _ => none

/-- Each gas with the sum of all up to it. -/
def cumulated (sum : Gas) : List Gas → List (Gas × Gas)
  | [] => []
  | gas :: rest => (sum + gas, gas) :: cumulated (sum + gas) rest

omit [Keccak256] in
theorem getElem?_cumulated {sum : Gas} {list : List Gas} {place : Nat} :
    (cumulated sum list)[place]? =
      list[place]?.map fun gas =>
        (sum + (list.take (place + 1)).foldr (fun one rest => one + rest) 0, gas) := by
  induction list generalizing sum place with
  | nil => rfl
  | cons gas list inductionHypothesis =>
      cases place with
      | zero =>
          simp only [cumulated, List.getElem?_cons_zero, Option.map_some, List.take_succ_cons,
            List.take_zero, List.foldr_cons, List.foldr_nil, UInt64.add_zero]
      | succ place =>
          rw [cumulated, List.getElem?_cons_succ, inductionHypothesis,
            List.getElem?_cons_succ, List.take_succ_cons, List.foldr_cons]
          simp only [UInt64.add_assoc]

omit [WorldState S] [Keccak256] in
theorem length_cumulated {sum : Gas} {list : List Gas} :
    (cumulated sum list).length = list.length := by
  induction list generalizing sum with
  | nil => rfl
  | cons gas list inductionHypothesis =>
      rw [cumulated, List.length_cons, inductionHypothesis, List.length_cons]

/-- A block whose execution ends executes its transactions, and lists what they used. -/
theorem executes_of_runTxs
    {prevState : S} {env : TxExecEnv} {fuel : Nat} {before after : BlockExec S} {txs : List Tx}
    (runs : runTxs prevState env fuel before txs = some (some after)) :
    ∃ results, Executes (fun _ => True) prevState env before.curState txs results
        after.curState ∧
      after.gasUsed = before.gasUsed ++
        cumulated before.gasCumu (((txs.zip results).filterMap listed).map Prod.fst) ∧
      after.contractAddrs = before.contractAddrs ++
        ((txs.zip results).filterMap listed).map Prod.snd := by
  induction txs generalizing before with
  | nil =>
      obtain rfl := Option.some.inj (Option.some.inj runs)
      exact ⟨[], .done, (List.append_nil _).symm, (List.append_nil _).symm⟩
  | cons tx txs inductionHypothesis =>
      rw [runTxs] at runs
      split at runs
      · exact absurd (Option.some.inj runs) nofun
      · next paid fee =>
          split at runs
          · next kept short =>
              obtain ⟨results, rest, gas, addrs⟩ := inductionHypothesis runs
              exact ⟨none :: results, .skipped fee short rest, gas, addrs⟩
          · next charged pays =>
              obtain ⟨⟨result, next⟩, ended, runs⟩ := Option.bind_eq_some_iff.mp runs
              obtain ⟨results, rest, gas, addrs⟩ := inductionHypothesis runs
              have ends := Transaction.runSingleTx_iff.mp ⟨fuel, ended⟩
              refine ⟨some result :: results, .executed fee pays ends ?_, ?_, ?_⟩
              · cases result <;> exact rest
              · rw [gas]
                cases result with
                | succeeded data unusedGas addr =>
                    simp only [note, List.zip_cons_cons, List.filterMap_cons, listed, cumulated,
                      List.map_cons, List.append_assoc, List.cons_append, List.nil_append]
                | reverted data unusedGas err =>
                    simp only [note, List.zip_cons_cons, List.filterMap_cons, listed]
              · rw [addrs]
                cases result with
                | succeeded data unusedGas addr =>
                    simp only [note, List.zip_cons_cons, List.filterMap_cons, listed,
                      List.map_cons, List.append_assoc, List.cons_append, List.nil_append]
                | reverted data unusedGas err =>
                    simp only [note, List.zip_cons_cons, List.filterMap_cons, listed]

/-- The execution of a block is given up exactly at a transaction whose fee is no word, once
those before it have been executed. -/
theorem runTxs_eq_none
    {prevState : S} {env : TxExecEnv} {fuel : Nat} {before : BlockExec S} {txs : List Tx} :
    runTxs prevState env fuel before txs = some none ↔
      ∃ first tx rest after, txs = first ++ tx :: rest ∧ tx.paid = none ∧
        runTxs prevState env fuel before first = some (some after) := by
  induction txs generalizing before with
  | nil => simp [runTxs]
  | cons tx txs inductionHypothesis =>
      cases fee : tx.paid with
      | none =>
          simp only [runTxs, fee]
          exact ⟨fun _ => ⟨[], tx, txs, before, rfl, fee, rfl⟩, fun _ => trivial⟩
      | some paid =>
          -- The rest of the block goes on from where this transaction ends.
          have step (next : BlockExec S)
              (goes : ∀ txs, runTxs prevState env fuel before (tx :: txs) =
                runTxs prevState env fuel next txs) :
              runTxs prevState env fuel before (tx :: txs) = some none ↔
                ∃ first other rest after, tx :: txs = first ++ other :: rest ∧
                  other.paid = none ∧
                  runTxs prevState env fuel before first = some (some after) := by
            rw [goes, inductionHypothesis]
            constructor
            · rintro ⟨first, other, rest, after, rfl, overflows, runs⟩
              exact ⟨tx :: first, other, rest, after, rfl, overflows, (goes first).trans runs⟩
            · rintro ⟨first, other, rest, after, same, overflows, runs⟩
              cases first with
              | nil =>
                  obtain ⟨rfl, -⟩ := List.cons.inj same
                  rw [fee] at overflows
                  contradiction
              | cons head first =>
                  obtain ⟨rfl, rfl⟩ := List.cons.inj same
                  exact ⟨first, other, rest, after, rfl, overflows, (goes first).symm.trans runs⟩
          cases moved : transferBalance before.curState tx.from_ 0 paid with
          | mk charged pays =>
              cases pays with
              | none =>
                  exact step { before with curState := charged } fun txs => by
                    simp only [runTxs, fee, moved]
              | some =>
                  cases ended : (tx.execArgs charged prevState env).runSingleTx fuel with
                  | none =>
                      have stuck (txs : List Tx) :
                          runTxs prevState env fuel before (tx :: txs) = none := by
                        simp only [runTxs, fee, moved, ended, Option.bind_none]
                      rw [stuck]
                      refine ⟨nofun, ?_⟩
                      rintro ⟨first, other, rest, after, same, overflows, runs⟩
                      cases first with
                      | nil =>
                          obtain ⟨rfl, -⟩ := List.cons.inj same
                          rw [fee] at overflows
                          contradiction
                      | cons head first =>
                          obtain ⟨rfl, rfl⟩ := List.cons.inj same
                          rw [stuck] at runs
                          contradiction
                  | some found =>
                      exact step (before.note tx found.1 found.2) fun txs => by
                        simp only [runTxs, fee, moved, ended, Option.bind_some]

theorem Executes.mono
    {allowed more : TxExecContext S → Prop} {prevState state last : S} {env : TxExecEnv}
    {txs : List Tx} {results : List (Option TxExecResult)}
    (executes : Executes allowed prevState env state txs results last)
    (included : ∀ context, allowed context → more context) :
    Executes more prevState env state txs results last := by
  induction executes with
  | done => exact .done
  | skipped fee short _ inductionHypothesis => exact .skipped fee short inductionHypothesis
  | executed fee pays ends _ inductionHypothesis =>
      obtain ⟨entered, reached, enters, run, rest⟩ := ends
      refine .executed fee pays ⟨entered, reached, enters, ?_, rest⟩ inductionHypothesis
      exact Relation.ReflTransGen.mono
        (fun before _ step => ⟨step.1, included before step.2⟩) _ _ run

theorem Executes.length_eq
    {allowed : TxExecContext S → Prop} {prevState state last : S} {env : TxExecEnv}
    {txs : List Tx} {results : List (Option TxExecResult)}
    (executes : Executes allowed prevState env state txs results last) :
    results.length = txs.length := by
  induction executes with
  | done => rfl
  | skipped _ _ _ inductionHypothesis => exact congrArg Nat.succ inductionHypothesis
  | executed _ _ _ _ inductionHypothesis => exact congrArg Nat.succ inductionHypothesis

/-- A transaction that runs without stipends that are not covered leaves at most what its
intrinsic gas leaves. -/
theorem used_of_ends
    {tx : Tx} {state prevState next : S} {env : TxExecEnv} {result : TxExecResult}
    (ends : (tx.execArgs state prevState env).Ends Exec.StipendCovered result next)
    (enough : 21000 ≤ tx.inner.gas.toNat) :
    21000 ≤ (tx.inner.gas - result.unusedGas).toNat ∧
      (tx.inner.gas - result.unusedGas).toNat + result.unusedGas.toNat =
        tx.inner.gas.toNat := by
  obtain ⟨entered, reached, enters, run, finished, -⟩ := ends
  have covered : Transaction.CoveredRun entered reached :=
    Relation.ReflTransGen.mono (fun _ _ step => ⟨step.2, step.1⟩) _ _ run
  have left := covered.result_gas enters finished
  have intrinsic : (tx.execArgs state prevState env).executionGas.toNat =
      tx.inner.gas.toNat - 21000 := by
    change (tx.inner.gas - 21000).toNat = _
    exact UInt64.toNat_sub_of_le _ _ enough
  rw [intrinsic] at left
  have less : result.unusedGas ≤ tx.inner.gas := UInt64.le_iff_toNat_le.mpr (by omega)
  rw [UInt64.toNat_sub_of_le _ _ less]
  have below := UInt64.le_iff_toNat_le.mp less
  omega

/-- What is listed for a transaction that runs so is the gas that it has used. -/
theorem Executes.used
    {prevState state last : S} {env : TxExecEnv} {txs : List Tx}
    {results : List (Option TxExecResult)}
    (executes : Executes Exec.StipendCovered prevState env state txs results last) :
    ∀ entry ∈ txs.zip results, 21000 ≤ entry.1.inner.gas.toNat → ∀ used addr,
      listed entry = some (used, addr) →
        21000 ≤ used.toNat ∧ used.toNat ≤ entry.1.inner.gas.toNat := by
  induction executes with
  | done => exact nofun
  | skipped _ _ _ inductionHypothesis =>
      intro entry member
      obtain rfl | later := List.mem_cons.mp member
      · exact fun _ _ _ => nofun
      · exact inductionHypothesis entry later
  | @executed _ _ _ _ tx _ _ _ result _ _ ends _ inductionHypothesis =>
      intro entry member enough used addr isListed
      obtain rfl | later := List.mem_cons.mp member
      · obtain ⟨low, exact⟩ := used_of_ends ends enough
        cases result with
        | reverted => contradiction
        | succeeded data unusedGas contractAddr =>
            obtain ⟨rfl, -⟩ := Prod.mk.inj (Option.some.inj isListed)
            exact ⟨low, Nat.le_trans (Nat.le_add_right _ _) (Nat.le_of_eq exact)⟩
      · exact inductionHypothesis entry later enough used addr isListed

section Funds

variable [FlatWorldState S]

/-- A transfer keeps the sum of all balances, whether it succeeds or not. -/
theorem total_transfer
    {state : S} (bounded : (view state).total < 2 ^ 256) (sender recipient : Addr) (val : Wei) :
    (view (transferBalance state sender recipient val).1).total = (view state).total := by
  by_cases covered : val ≤ getBalance state sender
  · exact (total_transferBalance recipient covered bounded).2
  · rw [transferBalance_short (BitVec.not_le.mp covered)]

/-- The fees and the transactions of a block bring no money, and take none unless an account
destroys itself. -/
theorem Executes.sums
    (exact : Prop) {prevState state last : S} {env : TxExecEnv} {txs : List Tx}
    {results : List (Option TxExecResult)}
    (executes : Executes (fun context => exact → ¬context.SelfDestructs) prevState env state txs
      results last)
    (bounded : (view state).total < 2 ^ 256) :
    (view last).Sums exact (view state).total := by
  induction executes with
  | done => exact ⟨Nat.le_refl _, fun _ => rfl⟩
  | @skipped state kept last tx txs results paid _ short _ inductionHypothesis =>
      have kept := total_transfer bounded tx.from_ 0 paid
      rw [short] at kept
      rw [← kept] at bounded ⊢
      exact inductionHypothesis bounded
  | @executed state charged next last tx txs results paid result _ pays ends _
      inductionHypothesis =>
      have kept := total_transfer bounded tx.from_ 0 paid
      rw [pays] at kept
      obtain ⟨entered, reached, enters, run, -, rfl⟩ := ends
      rw [← kept] at bounded ⊢
      have sums := enters.run_sums bounded run
      obtain ⟨less, same⟩ := inductionHypothesis (Nat.lt_of_le_of_lt sums.1 bounded)
      exact ⟨less.trans sums.1, fun isExact => (same isExact).trans (sums.2 isExact)⟩

end Funds

end BlockExec
end Execution

/-- The outcome lists the transactions that have succeeded. -/
structure BlockOutcome.Lists
    {T : Type} (outcome : BlockOutcome T) (txs : List Tx)
    (results : List (Option TxExecResult)) : Prop where
  gasUsed : outcome.gasUsed = BlockExec.cumulated 0
    (((txs.zip results).filterMap BlockExec.listed).map Prod.fst)
  contractAddrs : outcome.contractAddrs =
    ((txs.zip results).filterMap BlockExec.listed).map Prod.snd

/-! ## Receipts -/

section Receipts

open BlockExec (listed cumulated)

variable [Keccak256] {T : Type} {block : DemoBlock} {outcome : BlockOutcome T}
  {results : List (Option TxExecResult)} {idx : Nat}

omit [Keccak256] in
/-- An entry of an outcome is that of a transaction that has succeeded, which is not before
the place of the entry. -/
theorem BlockOutcome.Lists.entry
    (lists : outcome.Lists block.txs results) {entry : Gas × Gas} {addr : Option Addr}
    (gas : outcome.gasUsed[idx]? = some entry) (contract : outcome.contractAddrs[idx]? = some addr) :
    ∃ (k : Nat) (member : Tx × Option TxExecResult),
      (block.txs.zip results)[k]? = some member ∧ listed member = some (entry.2, addr) ∧
        Compaction.rank listed (block.txs.zip results) k = idx := by
  rw [lists.gasUsed, BlockExec.getElem?_cumulated, List.getElem?_map] at gas
  rw [lists.contractAddrs, List.getElem?_map] at contract
  obtain ⟨used, found, rfl⟩ := Option.map_eq_some_iff.mp gas
  obtain ⟨value, there, rfl⟩ := Option.map_eq_some_iff.mp found
  rw [there, Option.map_some, Option.some.injEq] at contract
  subst contract
  exact Compaction.getElem?_filterMap.mp there

omit [Keccak256] in
/-- Such a transaction stands at the place of the entry exactly if all transactions up to it
have succeeded. -/
theorem position_eq_iff
    {list : List (Tx × Option TxExecResult)} {k : Nat} {member : Tx × Option TxExecResult}
    (found : list[k]? = some member) (kept : (listed member).isSome)
    (place : Compaction.rank listed list k = idx) (inside : idx < list.length) :
    k = idx ↔ ∀ j ≤ idx, ∃ entry, list[j]? = some entry ∧ (listed entry).isSome := by
  constructor
  · rintro rfl j less
    obtain below | rfl := Nat.lt_or_eq_of_le less
    · exact (Compaction.rank_eq_iff inside.le).mp place j below
    · exact ⟨member, found, kept⟩
  · intro all
    have later : Compaction.rank listed list (idx + 1) = idx + 1 :=
      (Compaction.rank_eq_iff inside).mpr fun j less => all j (Nat.le_of_lt_succ less)
    have notLater : ¬idx + 1 ≤ k := by
      intro less
      have more := Compaction.rank_mono (f := listed) list less
      omega
    have notBefore := Compaction.rank_le (f := listed) list k
    omega

end Receipts

/-! ## Blocks on top of their parents -/

/-- An outcome is read on top of a state. -/
theorem BlockOutcome.worldState_of_decode
    {T : Type} {raw : Bytes} {worldState : T} {outcome : BlockOutcome T}
    (decoded : BlockOutcome.decode raw worldState = .ok (some outcome)) :
    outcome.worldState = worldState := by
  simp only [BlockOutcome.decode] at decoded
  split at decoded
  · cases decoded
  · split at decoded
    · obtain ⟨_, -, rfl⟩ := Option.map_eq_some_iff.mp (Except.ok.inj decoded)
      rfl
    · cases decoded

namespace DemoChainState

open BlockExec

variable {δ η S T : Type} [Keccak256] [Secp256k1] [Rlp.Reader] [Database δ Bytes Bytes]
  [WorldState S] {self after : DemoChainState δ η} {read : Option Hash → T} {opened : T → S}
  {shared : S → T} {fuel : Nat} {block : DemoBlock} {outcome : BlockOutcome T} {root : Hash}
  {ended : Option (BlockOutcome T × Hash)}

omit [Secp256k1] [Rlp.Reader] [WorldState S] in
/-- The outcome of a block is read on top of the state with its root. -/
theorem worldState_of_getBlockState
    {prev : DemoBlock} (found : self.getBlockState read prev = some (some outcome)) :
    outcome.worldState = read prev.stateRoot := by
  unfold getBlockState at found
  split at found
  · exact absurd (Option.some.inj found) nofun
  · next raw _ =>
      cases decoded : BlockOutcome.decode raw
          (read prev.stateRoot) with
      | error panic =>
          rw [decoded] at found
          exact absurd found nofun
      | ok read =>
          rw [decoded] at found
          obtain rfl := Option.some.inj found
          exact BlockOutcome.worldState_of_decode decoded

/-- A block is executed on top of the state of its parent, unless the parent or its outcome
is missing. -/
theorem processStateTransition_cases
    (runs : self.processStateTransition read opened shared fuel block = some (ended, after)) :
    ∃ prevBlock, self.getBlockByHash block.parentHash = some (prevBlock, after) ∧
      (prevBlock = none ∧ ended = none ∨
        ∃ prev, prevBlock = some prev ∧
          (after.getBlockState read prev = some none ∧ ended = none ∨
            ∃ exec, runTxs (opened (read prev.stateRoot)) (after.getExecEnv block) fuel
                (BlockExec.new (opened (read prev.stateRoot))) block.txs = some exec ∧
              ended = exec.map fun exec =>
                (⟨shared exec.curState, exec.gasUsed, exec.contractAddrs⟩, prev.rootHash))) := by
  obtain ⟨⟨prevBlock, found⟩, looked, rest⟩ := Option.bind_eq_some_iff.mp runs
  cases prevBlock with
  | none =>
      obtain ⟨rfl, rfl⟩ := Prod.mk.inj (Option.some.inj rest)
      exact ⟨none, looked, .inl ⟨rfl, rfl⟩⟩
  | some prev =>
      obtain ⟨stored, state, rest⟩ := Option.bind_eq_some_iff.mp rest
      cases stored with
      | none =>
          obtain ⟨rfl, rfl⟩ := Prod.mk.inj (Option.some.inj rest)
          exact ⟨some prev, looked, .inr ⟨prev, rfl, .inl ⟨state, rfl⟩⟩⟩
      | some stored =>
          obtain ⟨exec, ran, rest⟩ := Option.bind_eq_some_iff.mp rest
          obtain ⟨rfl, rfl⟩ := Prod.mk.inj (Option.some.inj rest)
          rw [worldState_of_getBlockState state] at ran
          exact ⟨some prev, looked, .inr ⟨prev, rfl, .inr ⟨exec, ran, rfl⟩⟩⟩

omit [Secp256k1] [Rlp.Reader] [Database δ Bytes Bytes] in
/-- What a receipt is made of. -/
theorem receipt_eq_some
    {idx : Nat} {receipt : TxReceipt} (made : block.receipt outcome idx = some receipt) :
    ∃ tx entry, block.txs[idx]? = some tx ∧ outcome.gasUsed[idx]? = some entry ∧
      outcome.contractAddrs[idx]? = some receipt.contractAddr ∧ receipt.txHash = tx.txHash ∧
      receipt.gasUsed = entry.2 ∧ receipt.status = 1 := by
  obtain ⟨tx, found, rest⟩ := Option.bind_eq_some_iff.mp made
  obtain ⟨entry, gas, rest⟩ := Option.bind_eq_some_iff.mp rest
  obtain ⟨addr, contract, rest⟩ := Option.bind_eq_some_iff.mp rest
  obtain rfl := Option.some.inj rest
  exact ⟨tx, entry, found, gas, contract, rfl, rfl, rfl⟩

omit [Secp256k1] [Rlp.Reader] [Database δ Bytes Bytes] in
/-- There is no receipt where the outcome has no entry. -/
theorem receipt_eq_none
    {idx : Nat} {tx : Tx} (isTx : block.txs[idx]? = some tx) :
    block.receipt outcome idx = none ↔
      outcome.gasUsed.length ≤ idx ∨ outcome.contractAddrs.length ≤ idx := by
  unfold DemoBlock.receipt
  rw [isTx, ← List.getElem?_eq_none_iff, ← List.getElem?_eq_none_iff]
  cases outcome.gasUsed[idx]? with
  | none => simp
  | some entry =>
      cases outcome.contractAddrs[idx]? with
      | none => simp
      | some addr => simp

end DemoChainState

/-! ## A block of which the first transaction fails -/

namespace Sample

/-- Hashes of the null node, the genesis block, and the codes that are executed. -/
@[reducible] def ledgerKeccak : Keccak256 :=
  keccak
    [((DemoChainState.genesisBlock execution).hashedBytes, genesisHash),
      ([], 0xc5d2460186f7233c927e7db2dcc703c0e500b653ca82273b7bfad8045d85a470),
      ([0xfe], 0xbcc90f2d6dada5b18e155c17a1c0a55920aae94f39857d39d0d8ed07ae8f228b)]

attribute [local instance] nodeHasher ledgerKeccak Tx.Sample.secp256k1 Rlp.standardReader

/-- A call with all of its fields but the callee and the gas empty. -/
def callTo (callee : Addr) : Tx :=
  ⟨.legacy ⟨0, 1, 50000, some callee, 0, [], 0, 0, 0⟩, 0, 1⟩

/-- The first call fails, the second is a payment. -/
def ledgerBlock : DemoBlock := DemoBlock.new 1 genesisHash 0 none 0 [callTo 0xaa, callTo 0xbb]

/-- The sender has money, and the first callee fails. -/
def ledger : DummyStateStore :=
  (WorldState.setBalance DummyStateStore.new 1 1000000).setCode 0xaa [0xfe]

/-- The execution of the block by a node that has just been started. -/
def ledgerRun :
    Option (Option (BlockOutcome DummyStateStore × Hash) × DemoChainState Entries Hash) :=
  (DemoChainState.start ⟨[]⟩ 1 execution : Option (DemoChainState Entries Hash)).bind
    fun state => state.processStateTransition (fun _ => ledger) id id 20 ledgerBlock

/-- The block is executed, and lists the gas of the payment. -/
theorem ledgerRun_lists :
    ∃ state outcome root after,
      (DemoChainState.start ⟨[]⟩ 1 execution : Option (DemoChainState Entries Hash)) =
        some state ∧
      state.processStateTransition (fun _ => ledger) id id 20 ledgerBlock =
        some (some (outcome, root), after) ∧
      outcome.gasUsed = [(21000, 21000)] ∧ outcome.contractAddrs.length = 1 := by
  have whole : (ledgerRun.map fun ended => ended.1.map fun found =>
      (found.1.gasUsed, found.1.contractAddrs.length)) = some (some ([(21000, 21000)], 1)) := by
    decide +kernel
  obtain ⟨⟨ended, after⟩, run, found⟩ := Option.map_eq_some_iff.mp whole
  obtain ⟨⟨outcome, root⟩, rfl, lists⟩ := Option.map_eq_some_iff.mp found
  obtain ⟨state, starts, runs⟩ := Option.bind_eq_some_iff.mp run
  obtain ⟨gas, addrs⟩ := Prod.mk.inj lists
  exact ⟨state, outcome, root, after, starts, runs, gas, addrs⟩

theorem ledger_total : (view ledger).total = 1000000 := by
  have none : (view DummyStateStore.new).total = 0 := by
    unfold View.total Holdings.total
    exact Finset.sum_eq_zero fun _ _ => rfl
  have more := View.total_setBalance (view DummyStateStore.new) 1 1000000
  rw [none, ← LawfulWorldState.view_setBalance] at more
  have coded : (view ledger).balance =
      (view (setBalance DummyStateStore.new 1 1000000)).balance :=
    (congrArg View.balance
      (LawfulWorldState.view_setCode (setBalance DummyStateStore.new 1 1000000) 0xaa [0xfe])).trans
      rfl
  exact (View.total_congr coded).trans more

end Sample

section

attribute [local instance] Sample.nodeHasher Sample.ledgerKeccak Tx.Sample.secp256k1
  Rlp.standardReader

namespace DemoChainState

end DemoChainState

end
end Qevm
