import Qevm.Core.Snapshots

/-!
# The access list only grows

Addresses and slots are added to the access list, and neither the end of a frame nor
its failure removes one.  `Grows` is kept by the two ways of adding, and so by every
part of the interpreter.
-/

set_option synthInstance.maxSize 100000

namespace Qevm

open Params Procedure TxExecContext

namespace AccessList

/-- What has been accessed stays accessed. -/
structure Grows (before after : AccessList) : Prop where
  addr : ∀ addr, before.containsAddr addr → after.containsAddr addr
  slot : ∀ addr slot, before.contains addr slot = some (true, true) →
    after.contains addr slot = some (true, true)

instance : IsPreorder AccessList Grows where
  refl _ := ⟨fun _ => id, fun _ _ => id⟩
  trans _ _ _ left right :=
    ⟨fun addr here => right.addr addr (left.addr addr here),
      fun addr slot here => right.slot addr slot (left.slot addr slot here)⟩

variable {self after : AccessList} {addr other : Addr} {slot key : Hash}

/-- A slot is accessed when its address has a position with the slot in it. -/
theorem contains_eq_true :
    self.contains addr slot = some (true, true) ↔
      ∃ idx slots, self.addrs.lookup addr = some idx ∧ idx ≠ -1 ∧
        self.slotsAt idx = some slots ∧ slot ∈ slots := by
  unfold contains
  cases self.addrs.lookup addr with
  | none => simp
  | some idx =>
      by_cases bare : idx = -1
      · simp [bare]
      · cases found : self.slotsAt idx with
        | none => simp [bare, found]
        | some slots => simp [bare, found]

/-- A look at the slot of an accessed address finds the address. -/
theorem contains_of_containsAddr
    {addrExist slotExist : Bool} (listed : self.containsAddr addr)
    (found : self.contains addr slot = some (addrExist, slotExist)) :
    addrExist = true := by
  unfold containsAddr at listed
  obtain ⟨idx, position⟩ := Option.isSome_iff_exists.mp listed
  unfold contains at found
  rw [position] at found
  dsimp only at found
  split at found
  · exact (Prod.mk.inj (Option.some.inj found)).1.symm
  · obtain ⟨slots, -, same⟩ := Option.map_eq_some_iff.mp found
    exact (Prod.mk.inj same).1.symm

/-- An added address is accessed. -/
theorem containsAddr_addAddr : (self.addAddr addr).1.containsAddr addr := by
  unfold addAddr containsAddr
  cases found : self.addrs.lookup addr <;> simp [found]

theorem grows_addAddr : self.Grows (self.addAddr addr).1 := by
  unfold addAddr
  cases found : self.addrs.lookup addr with
  | some idx => exact refl_of Grows self
  | none =>
      have kept {other : Addr} (here : (self.addrs.lookup other).isSome) :
          (self.addrs.insert addr (-1)).lookup other = self.addrs.lookup other := by
        apply AList.lookup_insert_ne
        rintro rfl
        simp [found] at here
      constructor
      · intro other here
        simpa only [containsAddr, kept here] using here
      · intro other slot here
        obtain ⟨idx, slots, position, real, stored, member⟩ := contains_eq_true.mp here
        refine contains_eq_true.mpr ⟨idx, slots, ?_, real, stored, member⟩
        exact (kept (by rw [position]; rfl)).trans position

/-- The slots at a position are kept when others are added or appended. -/
theorem slotsAt_set
    (slot : Hash) {idx position : Int} {slots found : HashSet Hash}
    (stored : self.slotsAt position = some found) (here : self.slotsAt idx = some slots) :
    ∃ kept, slotsAt ⟨self.addrs, self.slots.set idx.toNat (slots.insert slot)⟩
        position = some kept ∧ ∀ key ∈ found, key ∈ kept := by
  unfold slotsAt at stored here ⊢
  split at stored
  · rename_i positive
    rw [if_pos positive]
    simp only [List.getElem?_set]
    by_cases same : idx.toNat = position.toNat
    · split at here
      · rw [same, stored] at here
        obtain rfl := Option.some.inj here
        have inside := List.getElem?_eq_some_iff.mp stored
        refine ⟨found.insert slot, ?_, fun key member => HashSet.mem_insert.mpr (.inr member)⟩
        rw [if_pos same, if_pos (same ▸ inside.1)]
      · contradiction
    · exact ⟨found, by rw [if_neg same, stored], fun _ => id⟩
  · contradiction

theorem grows_addSlot
    {flags : Bool × Bool} (adds : self.addSlot addr slot = some (after, flags)) :
    self.Grows after := by
  unfold addSlot at adds
  split at adds
  · rename_i idx position
    obtain ⟨slots, here, added⟩ := Option.map_eq_some_iff.mp adds
    obtain ⟨rfl, -⟩ := Prod.mk.inj added
    refine ⟨fun _ => id, fun other key accessed => ?_⟩
    obtain ⟨found, stored, place, real, holds, member⟩ := contains_eq_true.mp accessed
    obtain ⟨kept, still, more⟩ := slotsAt_set slot holds here
    exact contains_eq_true.mpr ⟨found, kept, place, real, still, more key member⟩
  · rename_i bare
    obtain ⟨rfl, -⟩ := Prod.mk.inj (Option.some.inj adds)
    constructor
    · intro other here
      by_cases same : other = addr
      · subst same
        simp [containsAddr]
      · simpa [containsAddr, AList.lookup_insert_ne same] using here
    · intro other key accessed
      obtain ⟨found, stored, place, real, holds, member⟩ := contains_eq_true.mp accessed
      have different : other ≠ addr := by
        rintro rfl
        simp [place, real] at bare
      refine contains_eq_true.mpr ⟨found, stored, ?_, real, ?_, member⟩
      · exact (AList.lookup_insert_ne different).trans place
      · unfold slotsAt at holds ⊢
        split at holds
        · rename_i positive
          rw [if_pos positive]
          rw [List.getElem?_append_left (List.getElem?_eq_some_iff.mp holds).1]
          exact holds
        · contradiction

/-- An added slot has been accessed. -/
theorem contains_addSlot
    {flags : Bool × Bool} (adds : self.addSlot addr slot = some (after, flags)) :
    after.contains addr slot = some (true, true) := by
  unfold addSlot at adds
  split at adds
  · rename_i idx position
    obtain ⟨slots, here, added⟩ := Option.map_eq_some_iff.mp adds
    obtain ⟨rfl, -⟩ := Prod.mk.inj added
    obtain ⟨found, stored, real⟩ := Option.bind_eq_some_iff.mp position
    split at real
    · contradiction
    rename_i used
    obtain rfl := Option.some.inj real
    refine contains_eq_true.mpr ⟨found, slots.insert slot, stored, used, ?_,
      HashSet.mem_insert.mpr (.inl rfl)⟩
    unfold slotsAt at here ⊢
    split at here
    · rename_i positive
      rw [if_pos positive]
      exact List.getElem?_set_self (List.getElem?_eq_some_iff.mp here).1
    · contradiction
  · obtain ⟨rfl, -⟩ := Prod.mk.inj (Option.some.inj adds)
    refine contains_eq_true.mpr ⟨self.slots.length, HashSet.empty.insert slot,
      AList.lookup_insert _, by omega, ?_, HashSet.mem_insert.mpr (.inl rfl)⟩
    unfold slotsAt
    rw [if_pos (Int.natCast_nonneg _), Int.toNat_natCast]
    exact List.getElem?_concat_length

/-- A slot is only found under an accessed address. -/
theorem contains_slot
    {addrExist : Bool} (found : self.contains addr slot = some (addrExist, true)) :
    addrExist = true := by
  unfold contains at found
  split at found
  · split at found
    · simp at found
    · obtain ⟨slots, -, same⟩ := Option.map_eq_some_iff.mp found
      exact (Prod.mk.inj same).1.symm
  · simp at found

/-- Adding addresses takes nothing away. -/
theorem grows_foldl (addrs : List Addr) (list : AccessList) :
    list.Grows (addrs.foldl (fun list addr => (list.addAddr addr).1) list) := by
  induction addrs generalizing list with
  | nil => exact refl_of Grows list
  | cons addr addrs inductionHypothesis =>
      exact trans_of Grows grows_addAddr (inductionHypothesis _)

/-- Adding things one after the other takes nothing away when adding one does not. -/
theorem grows_foldlM
    {α : Type} {add : AccessList → α → Option AccessList}
    (grows : ∀ list item added, add list item = some added → list.Grows added)
    {items : List α} {list : AccessList}
    (adds : items.foldlM add list = some after) : list.Grows after := by
  induction items generalizing list with
  | nil =>
      obtain rfl := Option.some.inj adds
      exact refl_of Grows list
  | cons item items inductionHypothesis =>
      rw [List.foldlM_cons] at adds
      obtain ⟨added, first, rest⟩ := Option.bind_eq_some_iff.mp adds
      exact trans_of Grows (grows list item added first) (inductionHypothesis rest)

theorem grows_addTuple
    {list : AccessList} {tuple : TxAccessTuple}
    (adds : list.addTuple tuple = some after) : list.Grows after := by
  refine trans_of Grows grows_addAddr (grows_foldlM ?_ adds)
  intro list key added add
  obtain ⟨⟨_, flags⟩, adding, rfl⟩ := Option.map_eq_some_iff.mp add
  exact grows_addSlot adding

/-- The access list of a transaction has its recipient. -/
theorem containsAddr_new
    {sender recipient : Addr} {precompiled : List Addr}
    {declared : Option (List TxAccessTuple)} {list : AccessList}
    (built : new sender (some recipient) precompiled declared = some list) :
    list.containsAddr recipient := by
  apply (grows_foldlM (fun _ _ _ => grows_addTuple) built).addr
  apply (grows_foldl _ _).addr
  exact containsAddr_addAddr

end AccessList

/-! ### The interpreter -/

variable {S : Type}

/-- What has been accessed in a context stays accessed. -/
def TxExecContext.Accesses (before after : TxExecContext S) : Prop :=
  before.accessList.Grows after.accessList

instance : IsPreorder (TxExecContext S) Accesses where
  refl context := refl_of AccessList.Grows context.accessList
  trans _ _ _ left right := trans_of AccessList.Grows left right

namespace Exec

/-- Work that leaves the access list alone. -/
theorem accesses_same {before after : TxExecContext S}
    (same : after.accessList = before.accessList) : before.Accesses after := by
  rw [Accesses, same]
  exact refl_of AccessList.Grows _

instance accesses_onCall (part : Run (CallFrame S) α) :
    Moves Accesses (onCall part : Exec S α) :=
  Moves.zoom_any part fun _ _ => accesses_same rfl

instance accesses_useGas (gas : Gas) : Moves Accesses (useGas gas : Exec S Unit) :=
  accesses_onCall _

instance accesses_requireFork (fork : Fork) :
    Moves Accesses (requireFork fork : Exec S Unit) := accesses_onCall _

instance accesses_consume1 : Moves Accesses (consume1 : Exec S _) := accesses_onCall _

instance accesses_consume2 : Moves Accesses (consume2 : Exec S _) := accesses_onCall _

instance accesses_consume3 : Moves Accesses (consume3 : Exec S _) := accesses_onCall _

instance accesses_consume4 : Moves Accesses (consume4 : Exec S _) := accesses_onCall _

instance accesses_push (word : U256) : Moves Accesses (push word : Exec S Unit) :=
  accesses_onCall _

instance accesses_getSlice (off len : U256) :
    Moves Accesses (getSlice off len : Exec S _) := accesses_onCall _

instance accesses_advancePc (skip : UInt64) (enterCall : Bool) :
    Moves Accesses (advancePc skip enterCall : Exec S Unit) := accesses_onCall _

instance accesses_writeState (change : S → S) : Moves Accesses (writeState change) :=
  Moves.update fun _ => accesses_same rfl

instance accesses_markDirty (addr : Addr) :
    Moves Accesses (markDirty addr : Exec S Unit) :=
  Moves.update fun _ => accesses_same rfl

instance accesses_markDestroyed (addr : Addr) :
    Moves Accesses (markDestroyed addr : Exec S Unit) :=
  Moves.update fun _ => accesses_same rfl

instance accesses_addRefund (gas : UInt64) :
    Moves Accesses (addRefund gas : Exec S Unit) :=
  Moves.update fun _ => accesses_same rfl

instance accesses_subRefund (gas : UInt64) :
    Moves Accesses (subRefund gas : Exec S Unit) := by
  refine ⟨fun context => ?_⟩
  unfold wp subRefund
  by_cases less : gas > context.refund
  · simp only [less, if_true]
  · simp only [less, if_false]
    exact accesses_same rfl

instance accesses_addAddr (addr : Addr) : Moves Accesses (addAddr addr : Exec S Unit) :=
  Moves.update fun _ => AccessList.grows_addAddr

instance accesses_addSlot (addr : Addr) (slot : Hash) :
    Moves Accesses (addSlot addr slot : Exec S Unit) := by
  refine ⟨fun context => ?_⟩
  unfold addSlot
  rw [wp_bind, wp_reads, wp_bind, wp_unwrap]
  intro added adds
  rw [wp_update]
  exact AccessList.grows_addSlot adds

instance accesses_callPop : Moves Accesses (callPop : Exec S (CallFrame S)) := by
  refine ⟨fun context => ?_⟩
  unfold wp callPop
  cases context.callStack with
  | nil => trivial
  | cons frame callStack => exact accesses_same rfl

variable [WorldState S]

instance accesses_takeSnapshot : Moves Accesses (takeSnapshot : Exec S S) :=
  ⟨fun _ => accesses_same rfl⟩

instance accesses_transfer (sender recipient : Addr) (value : Wei) :
    Moves Accesses (transfer sender recipient value : Exec S Unit) :=
  ⟨fun _ => (wp_transfer sender recipient value).mpr fun _ => accesses_same rfl⟩

variable [Keccak256]

instance accesses_useGasAccountAccess (addr : Addr) (gasBefore : Fork → Gas) :
    Moves Accesses (useGasAccountAccess addr gasBefore : Exec S Unit) := by
  unfold useGasAccountAccess
  infer_instance

instance accesses_useGasCallCommonBerlin (addr : Addr) :
    Moves Accesses (useGasCallCommonBerlin addr : Exec S Unit) := by
  unfold useGasCallCommonBerlin
  infer_instance

instance accesses_useGasQuota (gas : U256) (memGas : Gas) :
    Moves Accesses (useGasQuota gas memGas : Exec S Gas) := by
  have common (cost : U256) : Moves Accesses (gasCallCommon cost : Exec S Gas) := by
    unfold gasCallCommon
    cases checkedAsU64 cost <;> infer_instance
  unfold useGasQuota
  infer_instance

instance accesses_requireDepth : Moves Accesses (requireDepth : Exec S Unit) := by
  unfold requireDepth
  infer_instance

instance accesses_callOperands : Moves Accesses (callOperands : Exec S CallOperands) := by
  unfold callOperands
  infer_instance

instance accesses_setPc (dest : U256) : Moves Accesses (setPc dest : Exec S Unit) := by
  unfold setPc
  infer_instance

instance accesses_returnRegion : Moves Accesses (returnRegion : Exec S Bytes) := by
  unfold returnRegion
  infer_instance

instance accesses_openCreate (contractAddr caller : Addr) (value : Wei) :
    Moves Accesses (openCreate contractAddr caller value : Exec S Unit) := by
  unfold openCreate
  infer_instance

instance accesses_createEffect
    (contractAddr caller : Addr) (code : Bytes) (value : Wei) (gas : Gas)
    (args : CallType S) :
    Moves Accesses (createEffect contractAddr caller code value gas args) := by
  unfold createEffect
  infer_instance

instance accesses_callEffect
    (callee caller : Addr) (input : Bytes) (gas : Gas) (value : Wei)
    (args : CallType S) :
    Moves Accesses (callEffect callee caller input gas value args) := by
  refine moves_callEffect ?_ ?_ ?_
  · unfold admitCall
    infer_instance
  · unfold fundCall
    infer_instance
  · unfold runCodeEffect
    infer_instance

instance accesses_enterEffect
    (codeAddr : Addr) (input : Bytes) (value : Wei) (callee caller : Addr)
    (args : CallArgs S) (gas : Gas) (readOnly : Bool) :
    Moves Accesses
      (enterEffect codeAddr input value callee caller args gas readOnly) := by
  unfold enterEffect
  infer_instance

/-- No instruction takes anything from the access list before its last action. -/
instance accesses_effect (inst : Inst) :
    Moves Accesses (effect inst : Exec S (Tail S)) := by
  obtain ⟨opcode, data, pos⟩ := inst
  cases opcode <;>
    simp only [effect, dispatch, balance, origin, gasPrice, extCodeSize, extCodeCopy,
      extCodeHash, blockHash, coinbase, timestamp, number, difficulty, gasLimit,
      chainId, selfBalance, baseFee, pushOf, sload, useGasSload, sstore, sstoreGas,
      sstoreBerlinLondonGas, sstoreIstanbulGas, sstoreConstantinopleGas, log, appendLog,
      jump, jumpi, createBeginEffect, create2BeginEffect, callBeginEffect,
      callCodeBeginEffect, delegateCallBeginEffect, staticCallBeginEffect, chargeCreate,
      chargeCreate2, chargeCall, chargeCallCode, chargeDelegateCall, chargeStaticCall,
      useGasCall, useGasCallCode, useGasDelegateCall, useGasStaticCall, revertRegion,
      destroy, useGasSelfDestruct, sweep] <;>
    infer_instance

/-! ### The end of a frame -/

instance accesses_of_settles (program : Exec S α) [settles : Moves Settles program] :
    Moves Accesses program :=
  settles.mono fun _ _ work => accesses_same work.accessList

instance accesses_txEnd
    (args : TxArgs S) (data : Bytes) (unusedGas : Gas) (err : Result) :
    Moves Accesses (txEnd args data unusedGas err) := by
  have cleans : Moves Accesses (cleanUp : Exec S Unit) :=
    Moves.update fun _ => accesses_same rfl
  have ends (change : TxExecResult) : Moves Accesses (Procedure.update fun self =>
      { self with status := .finished change } : Exec S Unit) :=
    Moves.update fun _ => accesses_same rfl
  have finishes (ret : Result) (addr : Option Addr) :
      Moves Accesses (finish args data unusedGas ret addr) := by
    unfold finish
    cases ret <;> infer_instance
  have results : Moves Accesses (txResult args data err) := moves_txResult args data err
  infer_instance

instance accesses_finishCall (data : Bytes) (err : Result) :
    Moves Accesses (finishCall data err : Exec S Unit) := by
  have ends (frame : CallFrame S) :
      Moves Accesses
        (match frame.callType with
        | .tx args => txEnd args data frame.unusedGas err
        | .create args => createEnd args data frame.unusedGas err
        | .call args => callEnd args data frame.unusedGas err) := by
    cases frame.callType <;> infer_instance
  unfold finishCall
  infer_instance

instance accesses_runTail (tail : Tail S) : Moves Accesses (runTail tail) := by
  cases tail with
  | next =>
      unfold runTail
      infer_instance
  | enter =>
      unfold runTail callPush
      exact Moves.update fun _ => accesses_same rfl
  | finish =>
      unfold runTail
      infer_instance
  | settle args ret gas err =>
      unfold runTail returnWithoutCallstack
      cases args with
      | tx args => infer_instance
      | create args => infer_instance
      | call args =>
          have hands (result : Result) :
              Moves Accesses
                (match result with
                | .ok () => pure ()
                | .error err => Procedure.raise err : Exec S Unit) := by
            cases result <;> infer_instance
          infer_instance

instance accesses_dispatch (inst : Inst) :
    Moves Accesses (dispatch inst : Exec S Unit) := by
  rw [dispatch_eq]
  infer_instance

instance accesses_fail (err : ExecError) :
    Moves Accesses (fail err : Exec S Unit) := by
  have unwinds (depth : Nat) (err : ExecError) :
      Moves Accesses (unwind depth err : Exec S Unit) := by
    induction depth generalizing err with
    | zero =>
        unfold unwind
        infer_instance
    | succ depth inductionHypothesis =>
        unfold unwind
        infer_instance
  unfold fail
  infer_instance

/-- An iteration takes nothing from the access list. -/
instance accesses_iterate : Moves Accesses (iterate : Exec S Unit) := by
  have fetches : Moves Accesses (fetch : Exec S Inst) := by
    unfold fetch
    infer_instance
  unfold iterate
  infer_instance

end Exec

/-- What has been accessed stays accessed along a run. -/
theorem Step.accesses [WorldState S] [Keccak256] {before after : TxExecContext S}
    (run : Relation.ReflTransGen Step before after) : before.Accesses after := by
  induction run with
  | refl => exact refl_of Accesses before
  | tail _ step inductionHypothesis =>
      exact trans_of Accesses inductionHypothesis (Moves.ok step.2)

end Qevm
