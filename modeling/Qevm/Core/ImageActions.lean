import Qevm.Core.Images

/-!
# Actions on images of contexts

The primitive actions on contexts and the instructions that neither push nor pop a frame
do to the image of a context what they do to the context.
-/

set_option synthInstance.maxSize 100000

namespace Qevm

open Params WorldState

variable {S T : Type} {valid : S → Prop} {image : S → T}

/-! ## Actions on contexts -/

namespace Exec

open TxExecContext

instance commutes_onCall
    {values : α → β} (part : Run (CallFrame S) α) (imagePart : Run (CallFrame T) β)
    [commutes : Procedure.Commutes (fun _ => True) (CallFrame.map image) values part
      imagePart] :
    Procedure.Commutes (Valid valid) (TxExecContext.map image) values (onCall part)
      (onCall imagePart) :=
  .zoom commutes (fun _ _ kept => kept) (fun _ => rfl) fun _ _ => rfl

instance commutes_useGas (gas : Gas) :
    Commutes valid image (useGas gas) (useGas gas) := by
  unfold useGas
  infer_instance

instance commutes_requireFork (fork : Fork) :
    Commutes valid image (requireFork fork) (requireFork fork) := by
  unfold requireFork
  infer_instance

instance commutes_consume1 :
    Commutes valid image consume1 consume1 := by
  unfold consume1
  infer_instance

instance commutes_consume2 :
    Commutes valid image consume2 consume2 := by
  unfold consume2
  infer_instance

instance commutes_consume3 :
    Commutes valid image consume3 consume3 := by
  unfold consume3
  infer_instance

instance commutes_consume4 :
    Commutes valid image consume4 consume4 := by
  unfold consume4
  infer_instance

instance commutes_push (word : U256) :
    Commutes valid image (push word) (push word) := by
  unfold push
  infer_instance

instance commutes_getSlice (off len : U256) :
    Commutes valid image (getSlice off len) (getSlice off len) := by
  unfold getSlice
  infer_instance

instance commutes_call :
    Procedure.Commutes (Valid valid) (TxExecContext.map image) (CallFrame.map image)
      (call : Exec S (CallFrame S)) (call : Exec T (CallFrame T)) :=
  .reads fun _ _ => rfl

instance commutes_fork : Commutes valid image fork fork :=
  .reads fun _ _ => rfl

instance commutes_callDepth : Commutes valid image callDepth callDepth :=
  .reads fun _ _ => List.length_map (CallFrame.map image)

/-- A query of world states that an image answers as the original. -/
theorem commutes_readState
    {query : S → α} {imageQuery : T → α}
    (same : ∀ state, valid state → imageQuery (image state) = query state) :
    Commutes valid image (readState query) (readState imageQuery) :=
  .reads fun context kept => same context.state kept.1

/-- A change of an image that is the image of a change. -/
theorem commutes_writeState
    {change : S → S} {imageChange : T → T}
    (respects : Respects valid image change imageChange) :
    Commutes valid image (writeState change) (writeState imageChange) :=
  .update (fun context kept => ⟨respects.keeps context.state kept.1, kept.2⟩)
    fun context kept => by simp only [respects.same context.state kept.1]

instance commutes_markDirty (addr : Addr) :
    Commutes valid image (markDirty addr) (markDirty addr) :=
  .update (fun _ kept => kept) fun _ _ => rfl

instance commutes_markDestroyed (addr : Addr) :
    Commutes valid image (markDestroyed addr) (markDestroyed addr) :=
  .update (fun _ kept => kept) fun _ _ => rfl

instance commutes_addAddr (addr : Addr) :
    Commutes valid image (addAddr addr) (addAddr addr) :=
  .update (fun _ kept => kept) fun _ _ => rfl

instance commutes_readAccessList :
    Commutes valid image (Procedure.reads TxExecContext.accessList)
      (Procedure.reads TxExecContext.accessList) :=
  .reads fun _ _ => rfl

instance commutes_accessed (addr : Addr) (slot : Hash) :
    Commutes valid image (accessed addr slot) (accessed addr slot) := by
  unfold accessed
  infer_instance

instance commutes_addSlot (addr : Addr) (slot : Hash) :
    Commutes valid image (addSlot addr slot) (addSlot addr slot) := by
  have writes : ∀ list : AccessList, Commutes valid image
      (Procedure.update fun self => { self with accessList := list })
      (Procedure.update fun self => { self with accessList := list }) :=
    fun _ => .update (fun _ kept => kept) fun _ _ => rfl
  unfold addSlot
  infer_instance

instance commutes_addRefund (gas : UInt64) :
    Commutes valid image (addRefund gas) (addRefund gas) :=
  .update (fun _ kept => kept) fun _ _ => rfl

instance commutes_subRefund (gas : UInt64) :
    Commutes valid image (subRefund gas) (subRefund gas) :=
  ⟨fun context within => by
    unfold subRefund at within
    split at within
    · exact within context
    · exact within, fun context _ => by
    unfold subRefund
    split <;> rfl⟩

/-- The frame that is pushed keeps the image of what the original one keeps. -/
theorem commutes_callPush
    (code : Code) (input : Bytes) (value : Wei) (callee caller : Addr)
    (callType : CallType S) (gas : Gas) (readOnly : Bool) :
    Commutes valid image (callPush code input value callee caller callType gas readOnly)
      (callPush code input value callee caller (callType.map image) gas readOnly) :=
  .update (fun _ kept => kept) fun _ _ => rfl

instance commutes_callPop :
    Procedure.Commutes (Valid valid) (TxExecContext.map image) (CallFrame.map image)
      (callPop : Exec S (CallFrame S)) (callPop : Exec T (CallFrame T)) :=
  ⟨fun context within => by
    unfold callPop at within
    split at within
    · exact within context
    · exact within, fun context _ => by
    unfold callPop
    cases stack : context.callStack with
    | nil => simp [stack, Outcome.map]
    | cons frame callStack => simp [stack, Outcome.map]⟩

/-- Changes of the executing frame that an image repeats. -/
theorem commutes_updateCall
    {change : CallFrame S → CallFrame S} {imageChange : CallFrame T → CallFrame T}
    (same : ∀ call, imageChange (call.map image) = (change call).map image) :
    Commutes valid image (onCall (Procedure.update change))
      (onCall (Procedure.update imageChange)) := by
  have changes : CallFrame.Commutes image (Procedure.update change)
      (Procedure.update imageChange) :=
    .update (fun _ _ => trivial) fun call _ => same call
  infer_instance

instance commutes_advancePc (skip : UInt64) (enterCall : Bool) :
    Commutes valid image (advancePc skip enterCall) (advancePc skip enterCall) :=
  commutes_updateCall fun call => by split <;> rfl

/-! ## Reading and writing world states -/

section WorldState

variable [WorldState S] [WorldState T] [homomorphism : Homomorphism valid image]

theorem getState_image {state : S} (kept : valid state) (account : Addr) (key : Hash) :
    getState (image state) account key = getState state account key := by
  simp only [getState, homomorphism.reader_image state kept]

theorem getBalance_image {state : S} (kept : valid state) (account : Addr) :
    getBalance (image state) account = getBalance state account := by
  simp only [getBalance, homomorphism.reader_image state kept]

theorem getCode_image {state : S} (kept : valid state) (account : Addr) :
    getCode (image state) account = getCode state account := by
  simp only [getCode, homomorphism.reader_image state kept]

theorem getNonce_image {state : S} (kept : valid state) (account : Addr) :
    getNonce (image state) account = getNonce state account := by
  simp only [getNonce, homomorphism.reader_image state kept]

theorem exist_image {state : S} (kept : valid state) (account : Addr) :
    exist (image state) account = exist state account := by
  simp only [exist, homomorphism.reader_image state kept]

theorem isEmpty_image [Keccak256] {state : S} (kept : valid state) (account : Addr) :
    isEmpty (image state) account = isEmpty state account := by
  simp only [isEmpty, getNonce_image kept, getBalance_image kept, getCode_image kept]

instance commutes_getBalance (account : Addr) :
    Commutes valid image (readState (getBalance · account))
      (readState (getBalance · account)) :=
  commutes_readState fun _ kept => getBalance_image kept account

instance commutes_getCode (account : Addr) :
    Commutes valid image (readState (getCode · account))
      (readState (getCode · account)) :=
  commutes_readState fun _ kept => getCode_image kept account

instance commutes_getNonce (account : Addr) :
    Commutes valid image (readState (getNonce · account))
      (readState (getNonce · account)) :=
  commutes_readState fun _ kept => getNonce_image kept account

instance commutes_exist (account : Addr) :
    Commutes valid image (readState (exist · account)) (readState (exist · account)) :=
  commutes_readState fun _ kept => exist_image kept account

instance commutes_getState (account : Addr) (key : Hash) :
    Commutes valid image (readState (getState · account key))
      (readState (getState · account key)) :=
  commutes_readState fun _ kept => getState_image kept account key

instance commutes_setState (account : Addr) (key : Hash) (val : U256) :
    Commutes valid image (writeState (setState · account key val))
      (writeState (setState · account key val)) :=
  commutes_writeState (homomorphism.setState account key val)

instance commutes_setCode (account : Addr) (code : Bytes) :
    Commutes valid image (writeState (setCode · account code))
      (writeState (setCode · account code)) :=
  commutes_writeState (homomorphism.setCode account code)

instance commutes_setNonce (account : Addr) (nonce : UInt64) :
    Commutes valid image (writeState (setNonce · account nonce))
      (writeState (setNonce · account nonce)) :=
  commutes_writeState (homomorphism.setNonce account nonce)

instance commutes_createAccount (account : Addr) :
    Commutes valid image (writeState (createAccount · account))
      (writeState (createAccount · account)) :=
  commutes_writeState (homomorphism.createAccount account)

/-- Going back to the image of a snapshot. -/
instance commutes_rollback (saved : S) :
    Commutes valid image (writeState (rollback · saved))
      (writeState (rollback · (image saved))) :=
  commutes_writeState (homomorphism.rollback saved)

instance commutes_takeSnapshot :
    Procedure.Commutes (Valid valid) (TxExecContext.map image) image
      (takeSnapshot : Exec S S) (takeSnapshot : Exec T T) :=
  ⟨fun context within =>
    ⟨homomorphism.snapshot_left context.state within.1, within.2⟩,
    fun context _ => by
      simp [takeSnapshot, homomorphism.snapshot_image, Outcome.map]⟩

variable (image) in
theorem addBalance_image {state : S} {addr : Addr} {val : Wei}
    (kept : valid (addBalance state addr val).1) :
    valid state ∧ addBalance (image state) addr val =
      (image (addBalance state addr val).1, (addBalance state addr val).2) := by
  unfold addBalance at kept ⊢
  cases sum : U256.checkedAdd (getBalance state addr) val with
  | none =>
      simp only [sum] at kept
      refine ⟨kept, ?_⟩
      rw [getBalance_image kept, sum]
  | some balance =>
      simp only [sum] at kept
      have set := homomorphism.setBalance addr balance
      have before := set.keeps state kept
      refine ⟨before, ?_⟩
      rw [getBalance_image before, sum]
      exact congrArg (·, some ()) (set.same state kept)

variable (image) in
theorem subBalance_image {state : S} {addr : Addr} {val : Wei}
    (kept : valid (subBalance state addr val).1) :
    valid state ∧ subBalance (image state) addr val =
      (image (subBalance state addr val).1, (subBalance state addr val).2) := by
  unfold subBalance at kept ⊢
  cases rest : U256.checkedSub (getBalance state addr) val with
  | none =>
      simp only [rest] at kept
      refine ⟨kept, ?_⟩
      rw [getBalance_image kept, rest]
  | some balance =>
      simp only [rest] at kept
      have set := homomorphism.setBalance addr balance
      have before := set.keeps state kept
      refine ⟨before, ?_⟩
      rw [getBalance_image before, rest]
      exact congrArg (·, some ()) (set.same state kept)

variable (image) in
/-- A transfer repeats both of its halves on the image. -/
theorem transferBalance_image {state : S} {sender recipient : Addr} {val : Wei}
    (kept : valid (transferBalance state sender recipient val).1) :
    valid state ∧ transferBalance (image state) sender recipient val =
      (image (transferBalance state sender recipient val).1,
        (transferBalance state sender recipient val).2) := by
  unfold transferBalance at kept ⊢
  rcases debit : subBalance state sender val with ⟨debited, _ | taken⟩
  · simp only [debit] at kept
    have debits : valid (subBalance state sender val).1 := by rwa [debit]
    obtain ⟨before, same⟩ := subBalance_image image debits
    refine ⟨before, ?_⟩
    rw [same, debit]
  · simp only [debit] at kept
    obtain ⟨between, credited⟩ := addBalance_image image kept
    have debits : valid (subBalance state sender val).1 := by rwa [debit]
    obtain ⟨before, same⟩ := subBalance_image image debits
    refine ⟨before, ?_⟩
    rw [same, debit]
    exact credited

instance commutes_transfer (sender recipient : Addr) (value : Wei) :
    Commutes valid image (transfer sender recipient value)
      (transfer sender recipient value) := by
  have moved : ∀ context : TxExecContext S,
      (transfer sender recipient value context).Within (Valid valid) →
        (valid context.state ∧
          transferBalance (image context.state) sender recipient value =
            (image (transferBalance context.state sender recipient value).1,
              (transferBalance context.state sender recipient value).2)) ∧
          valid context.committedState := by
    intro context within
    unfold transfer at within
    have kept : valid (transferBalance context.state sender recipient value).1 ∧
        valid context.committedState := by
      rcases moves : transferBalance context.state sender recipient value with
        ⟨state, _ | done⟩ <;> rw [moves] at within
      · exact within { context with state := state }
      · exact within
    exact ⟨transferBalance_image image kept.1, kept.2⟩
  constructor
  · intro context within
    obtain ⟨⟨kept, -⟩, committed⟩ := moved context within
    exact ⟨kept, committed⟩
  · intro context within
    obtain ⟨⟨-, same⟩, -⟩ := moved context within
    unfold transfer
    rcases moves : transferBalance context.state sender recipient value with
      ⟨state, _ | done⟩ <;> rw [moves] at same <;> simp only [same] <;> rfl

/-! ## Instructions on contexts -/

variable [Keccak256]

instance commutes_useGasAccountAccess (addr : Addr) (gasBefore : Fork → Gas) :
    Commutes valid image (useGasAccountAccess addr gasBefore)
      (useGasAccountAccess addr gasBefore) := by
  unfold useGasAccountAccess
  infer_instance

omit [WorldState S] [WorldState T] homomorphism [Keccak256] in
/-- A word that is the same in images of contexts is pushed in the same way. -/
theorem commutes_pushOf
    {word : TxExecContext S → U256} {imageWord : TxExecContext T → U256} (gas : Gas)
    (same : ∀ context, Valid valid context →
      imageWord (context.map image) = word context) :
    Commutes valid image (pushOf gas word) (pushOf gas imageWord) := by
  have reads : Commutes valid image (Procedure.reads word) (Procedure.reads imageWord) :=
    .reads same
  unfold pushOf
  infer_instance

instance commutes_balance :
    Commutes valid image balance balance := by
  unfold balance
  infer_instance

instance commutes_extCodeSize :
    Commutes valid image extCodeSize extCodeSize := by
  unfold extCodeSize
  infer_instance

instance commutes_extCodeCopy :
    Commutes valid image extCodeCopy extCodeCopy := by
  unfold extCodeCopy
  infer_instance

instance commutes_extCodeHash :
    Commutes valid image extCodeHash extCodeHash := by
  unfold extCodeHash
  infer_instance

instance commutes_blockHash : Commutes valid image blockHash blockHash := by
  have reads : ∀ number, Commutes valid image
      (Procedure.reads fun self => blockHashWord self.env number)
      (Procedure.reads fun self => blockHashWord self.env number) :=
    fun number => .reads fun _ _ => rfl
  unfold blockHash
  infer_instance

instance commutes_origin : Commutes valid image origin origin :=
  commutes_pushOf _ fun _ _ => rfl

instance commutes_gasPrice : Commutes valid image gasPrice gasPrice :=
  commutes_pushOf _ fun _ _ => rfl

instance commutes_coinbase : Commutes valid image coinbase coinbase :=
  commutes_pushOf _ fun _ _ => rfl

instance commutes_timestamp : Commutes valid image timestamp timestamp :=
  commutes_pushOf _ fun _ _ => rfl

instance commutes_number : Commutes valid image number number :=
  commutes_pushOf _ fun _ _ => rfl

instance commutes_difficulty : Commutes valid image difficulty difficulty :=
  commutes_pushOf _ fun _ _ => rfl

instance commutes_gasLimit : Commutes valid image gasLimit gasLimit :=
  commutes_pushOf _ fun _ _ => rfl

instance commutes_chainId : Commutes valid image chainId chainId := by
  have pushes : Commutes valid image (pushOf gasQuick fun self => self.env.chainId)
      (pushOf gasQuick fun self => self.env.chainId) :=
    commutes_pushOf _ fun _ _ => rfl
  unfold chainId
  infer_instance

instance commutes_selfBalance : Commutes valid image selfBalance selfBalance := by
  have pushes : Commutes valid image
      (pushOf gasFast fun self => getBalance self.state self.curCall.callee)
      (pushOf gasFast fun self => getBalance self.state self.curCall.callee) :=
    commutes_pushOf _ fun context kept =>
      getBalance_image kept.1 context.curCall.callee
  unfold selfBalance
  infer_instance

instance commutes_baseFee : Commutes valid image baseFee baseFee := by
  have pushes : Commutes valid image (pushOf gasQuick fun self => self.env.block.baseFee)
      (pushOf gasQuick fun self => self.env.block.baseFee) :=
    commutes_pushOf _ fun _ _ => rfl
  unfold baseFee
  infer_instance

instance commutes_useGasSload (call : CallFrame S) (key : Hash) :
    Commutes valid image (useGasSload call key) (useGasSload (call.map image) key) := by
  unfold useGasSload
  infer_instance

instance commutes_sload :
    Commutes valid image sload sload := by
  unfold sload
  infer_instance

instance commutes_setPc (dest : U256) :
    Commutes valid image (setPc dest) (setPc dest) := by
  have jumps : ∀ target : UInt64, CallFrame.Commutes image
      (Procedure.update fun call => { call with pc := target - 1 })
      (Procedure.update fun call => { call with pc := target - 1 }) :=
    fun _ => .update (fun _ kept => kept) fun _ _ => rfl
  unfold setPc
  infer_instance

instance commutes_jump :
    Commutes valid image jump jump := by
  unfold jump
  infer_instance

instance commutes_jumpi :
    Commutes valid image jumpi jumpi := by
  unfold jumpi
  infer_instance

instance commutes_readCommitted (account : Addr) (key : Hash) :
    Commutes valid image
      (Procedure.reads fun self => getState self.committedState account key)
      (Procedure.reads fun self => getState self.committedState account key) :=
  .reads fun _ kept => getState_image kept.2 account key

instance commutes_sstoreIstanbulGas (key : Hash) (val : U256) :
    Commutes valid image (sstoreIstanbulGas key val) (sstoreIstanbulGas key val) := by
  unfold sstoreIstanbulGas
  infer_instance

instance commutes_sstoreBerlinLondonGas
    (key : Hash) (val : U256) (clearingRefund : UInt64) :
    Commutes valid image (sstoreBerlinLondonGas key val clearingRefund)
      (sstoreBerlinLondonGas key val clearingRefund) := by
  unfold sstoreBerlinLondonGas
  infer_instance

instance commutes_sstoreConstantinopleGas (key : Hash) (val : U256) :
    Commutes valid image (sstoreConstantinopleGas key val)
      (sstoreConstantinopleGas key val) := by
  unfold sstoreConstantinopleGas
  infer_instance

instance commutes_sstoreGas (key : Hash) (val : U256) :
    Commutes valid image (sstoreGas key val) (sstoreGas key val) := by
  unfold sstoreGas
  infer_instance

instance commutes_sstore :
    Commutes valid image sstore sstore := by
  unfold sstore
  infer_instance

instance commutes_consumeTopics (num : Nat) :
    Commutes valid image (consumeTopics num) (consumeTopics num) := by
  induction num with
  | zero =>
      unfold consumeTopics
      infer_instance
  | succ num inductionHypothesis =>
      unfold consumeTopics
      infer_instance

/-- The record is appended to the image, or neither of the two can take it. -/
instance commutes_appendLog (topics : List Hash) (data : Bytes) :
    Commutes valid image (appendLog topics data) (appendLog topics data) := by
  have runs {S : Type} [WorldState S] (context : TxExecContext S) :
      appendLog topics data context =
        (addLog context.state context.curCall.callee topics data
          context.env.block.number).elim (.panic .hashLength)
          fun state => .ok () { context with state := state } := by
    change Procedure.bind (Procedure.unwrap .hashLength (addLog _ _ _ _ _))
      (fun state => writeState fun _ => state) context = _
    cases addLog context.state context.curCall.callee topics data
      context.env.block.number <;> rfl
  constructor
  · intro context within
    rw [runs] at within
    cases added : addLog context.state context.curCall.callee topics data
        context.env.block.number with
    | none =>
        rw [added] at within
        exact within context
    | some after =>
        rw [added] at within
        exact ⟨(homomorphism.addLog_some added within.1).1, within.2⟩
  · intro context within
    rw [runs] at within
    rw [runs, runs]
    cases added : addLog context.state context.curCall.callee topics data
        context.env.block.number with
    | none =>
        rw [added] at within
        have missing := homomorphism.addLog_none added fun state =>
          (within { context with state := state }).1
        simp only [missing]
        rfl
    | some after =>
        rw [added] at within
        simp only [(homomorphism.addLog_some added within.1).2]
        rfl

instance commutes_log (num : Nat) :
    Commutes valid image (log num) (log num) := by
  unfold log
  infer_instance

end WorldState
end Exec
end Qevm
