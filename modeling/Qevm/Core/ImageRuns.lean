import Qevm.Core.ImageActions

/-!
# Runs on images of contexts

The instructions that open and end frames do to the image of a context what they do to the
context, and so do the interpreter loop and the start of a transaction.
-/

set_option synthInstance.maxSize 100000

namespace Qevm

open Params WorldState

variable {S T : Type} {valid : S → Prop} {image : S → T}

namespace Exec

open TxExecContext

variable [WorldState S] [WorldState T] [Keccak256]
  [homomorphism : Homomorphism valid image]

/-! ## Ending frames -/

instance commutes_createPostProcessing
    (contractAddr : Addr) (data : Bytes) (ret : Result) :
    Commutes valid image (createPostProcessing contractAddr data ret)
      (createPostProcessing contractAddr data ret) := by
  unfold createPostProcessing
  rcases ret with (err | value)
  · cases err <;> infer_instance
  · infer_instance

instance commutes_restoreGas (unusedGas : Gas) :
    Commutes valid image
      (onCall (Procedure.update fun call =>
        { call with unusedGas := call.unusedGas + unusedGas }))
      (onCall (Procedure.update fun call =>
        { call with unusedGas := call.unusedGas + unusedGas })) :=
  commutes_updateCall fun _ => rfl

instance commutes_setLastReturned (data : Bytes) :
    Commutes valid image
      (onCall (Procedure.update fun call => { call with lastReturned := data }))
      (onCall (Procedure.update fun call => { call with lastReturned := data })) :=
  commutes_updateCall fun _ => rfl

instance commutes_createEnd
    (args : CreateArgs S) (data : Bytes) (unusedGas : Gas) (ret : Result) :
    Commutes valid image (createEnd args data unusedGas ret)
      (createEnd (args.map image) data unusedGas ret) := by
  unfold createEnd
  infer_instance

instance commutes_callReturn
    (args : CallArgs S) (data : Bytes) (unusedGas : Gas) (ret : Result) :
    Commutes valid image (callReturn args data unusedGas ret)
      (callReturn (args.map image) data unusedGas ret) := by
  unfold callReturn
  rcases ret with (err | value)
  · cases err <;> infer_instance
  · infer_instance

instance commutes_callEnd
    (args : CallArgs S) (data : Bytes) (unusedGas : Gas) (ret : Result) :
    Commutes valid image (callEnd args data unusedGas ret)
      (callEnd (args.map image) data unusedGas ret) := by
  have restores : Commutes valid image
      (writeState fun state => args.snapshot.elim state (rollback state))
      (writeState fun state =>
        (args.map image).snapshot.elim state (rollback state)) := by
    refine commutes_writeState ?_
    cases kept : args.snapshot with
    | none =>
        simp only [kept]
        exact .refl
    | some saved =>
        simp only [kept]
        exact homomorphism.rollback saved
  unfold callEnd
  infer_instance

theorem deleteEmpty_respects (accounts : List Addr) :
    Respects valid image (deleteEmpty · accounts) (deleteEmpty · accounts) := by
  have deleteOne : ∀ account, Respects valid image
      (fun state =>
        if isEmpty state account then deleteAccount state account else state)
      (fun state =>
        if isEmpty state account then deleteAccount state account else state) := by
    intro account
    have deletes := homomorphism.deleteAccount account
    have keeps : ∀ state, valid (if isEmpty state account then deleteAccount state account
        else state) → valid state := by
      intro state kept
      split at kept
      · exact deletes.keeps state kept
      · exact kept
    refine ⟨keeps, fun state kept => ?_⟩
    simp only [isEmpty_image (keeps state kept)]
    split
    · rename_i empty
      rw [if_pos empty] at kept
      exact deletes.same state kept
    · rfl
  unfold deleteEmpty
  induction accounts with
  | nil => exact .refl
  | cons account accounts inductionHypothesis =>
      simp only [List.foldl_cons]
      exact (deleteOne account).trans inductionHypothesis

omit [Keccak256] in
theorem deleteAll_respects (accounts : List Addr) :
    Respects valid image (deleteAll · accounts) (deleteAll · accounts) := by
  unfold deleteAll
  induction accounts with
  | nil => exact .refl
  | cons account accounts inductionHypothesis =>
      simp only [List.foldl_cons]
      exact (homomorphism.deleteAccount account).trans inductionHypothesis

instance commutes_cleanUp : Commutes valid image cleanUp cleanUp := by
  have cleans : ∀ context : TxExecContext S, Respects valid image
      (fun state => deleteAll
        (if context.curCall.fork ≥ .spuriousDragon then
          deleteEmpty state context.dirty.toList else state)
        context.destroyed.toList)
      (fun state => deleteAll
        (if context.curCall.fork ≥ .spuriousDragon then
          deleteEmpty state context.dirty.toList else state)
        context.destroyed.toList) := by
    intro context
    split
    · exact (deleteEmpty_respects _).trans (deleteAll_respects _)
    · exact deleteAll_respects _
  refine .update (fun context kept => ?_) fun context kept => ?_
  · exact ⟨(cleans context).keeps context.state kept.1, kept.2⟩
  · have same := (cleans context).same context.state kept.1
    unfold cleaned
    simp only [same]

instance commutes_txResult (args : TxArgs S) (data : Bytes) (err : Result) :
    Commutes valid image (txResult args data err)
      (txResult (args.map image) data err) := by
  obtain ⟨snapshot, aux⟩ := args
  unfold txResult
  cases aux <;> infer_instance

instance commutes_setStatus (status : TxExecStatus) :
    Commutes valid image (Procedure.update fun self => { self with status := status })
      (Procedure.update fun self => { self with status := status }) :=
  .update (fun _ kept => kept) fun _ _ => rfl

instance commutes_readStatus :
    Commutes valid image (Procedure.reads TxExecContext.status)
      (Procedure.reads TxExecContext.status) :=
  .reads fun _ _ => rfl

instance commutes_finish
    (args : TxArgs S) (data : Bytes) (unusedGas : Gas) (ret : Result)
    (addr : Option Addr) :
    Commutes valid image (finish args data unusedGas ret addr)
      (finish (args.map image) data unusedGas ret addr) := by
  unfold finish
  rcases ret with (err | value) <;> infer_instance

instance commutes_txEnd
    (args : TxArgs S) (data : Bytes) (unusedGas : Gas) (err : Result) :
    Commutes valid image (txEnd args data unusedGas err)
      (txEnd (args.map image) data unusedGas err) := by
  unfold txEnd
  refine .next inferInstance fun callDepth => .next inferInstance fun _ =>
    .next inferInstance fun found => .next inferInstance fun status => ?_
  cases status <;> infer_instance

instance commutes_finishCall (data : Bytes) (err : Result) :
    Commutes valid image (finishCall data err) (finishCall data err) := by
  unfold finishCall
  refine .next inferInstance fun frame => ?_
  cases kept : frame.callType with
  | tx args =>
      simp only [kept, CallType.map]
      infer_instance
  | call args =>
      simp only [kept, CallType.map]
      infer_instance
  | create args =>
      simp only [kept, CallType.map]
      infer_instance

instance commutes_returnWithoutCallstack
    (args : CallType S) (ret : Bytes) (unusedGas : Gas) (err : Result) :
    Commutes valid image (returnWithoutCallstack args ret unusedGas err)
      (returnWithoutCallstack (args.map image) ret unusedGas err) := by
  unfold returnWithoutCallstack
  cases args with
  | tx args =>
      simp only [CallType.map]
      infer_instance
  | call args =>
      simp only [CallType.map]
      refine .next inferInstance fun settled => .next inferInstance fun _ => ?_
      rcases settled with (err | value) <;> infer_instance
  | create args =>
      simp only [CallType.map]
      infer_instance

/-! ## Opening frames -/

instance commutes_openCreate (contractAddr caller : Addr) (value : Wei) :
    Commutes valid image (openCreate contractAddr caller value)
      (openCreate contractAddr caller value) := by
  unfold openCreate
  infer_instance

instance commutes_create
    (contractAddr caller : Addr) (code : Bytes) (value : Wei) (gas : Gas)
    (args : CallType S) :
    Commutes valid image (create_ contractAddr caller code value gas args)
      (create_ contractAddr caller code value gas (args.map image)) := by
  unfold create_
  exact .next inferInstance fun _ => commutes_callPush _ _ _ _ _ args _ _

instance commutes_admitCall (callee caller : Addr) (value : Wei) :
    Commutes valid image (admitCall callee caller value)
      (admitCall callee caller value) := by
  unfold admitCall
  infer_instance

instance commutes_fundCall (callee caller : Addr) (value : Wei) :
    Commutes valid image (fundCall callee caller value)
      (fundCall callee caller value) := by
  unfold fundCall
  infer_instance

instance commutes_runCode
    (callee caller : Addr) (input : Bytes) (gas : Gas) (value : Wei)
    (args : CallType S) :
    Commutes valid image (runCode callee caller input gas value args)
      (runCode callee caller input gas value (args.map image)) := by
  unfold runCode
  refine .next inferInstance fun code => ?_
  split
  · exact commutes_callPush _ _ _ _ _ args _ _
  · infer_instance

instance commutes_call_
    (callee caller : Addr) (input : Bytes) (gas : Gas) (value : Wei)
    (args : CallType S) :
    Commutes valid image (call_ callee caller input gas value args)
      (call_ callee caller input gas value (args.map image)) := by
  unfold call_
  refine .next inferInstance fun _ => .readNext fun context => ?_
  cases context.env.precompiledContracts.lookup callee with
  | none =>
      apply Exists.intro
      constructor
      · intro kept
        rw [exist_image kept.1 callee]
      · infer_instance
  | some contract =>
      apply Exists.intro
      constructor
      · intro kept
        rw [exist_image kept.1 callee]
      · infer_instance

instance commutes_gasCallCommon (callCost : U256) :
    Commutes valid image (gasCallCommon callCost) (gasCallCommon callCost) := by
  unfold gasCallCommon
  refine .next inferInstance fun call => ?_
  cases checkedAsU64 callCost <;> infer_instance

instance commutes_useGasCallCommonBerlin (addr : Addr) :
    Commutes valid image (useGasCallCommonBerlin addr) (useGasCallCommonBerlin addr) := by
  unfold useGasCallCommonBerlin
  infer_instance

instance commutes_useGasQuota (gas : U256) (memGas : Gas) :
    Commutes valid image (useGasQuota gas memGas) (useGasQuota gas memGas) := by
  unfold useGasQuota
  infer_instance

instance commutes_useGasCall (val : U256) (addr : Addr) (gas : U256) (memGas : Gas) :
    Commutes valid image (useGasCall val addr gas memGas)
      (useGasCall val addr gas memGas) := by
  have pays : Commutes valid image
      (do
        let self ← Procedure.read
        Procedure.when
          (self.curCall.fork ≥ .spuriousDragon ∧ isEmpty self.state addr)
          (useGas gasCallNewAccount)
        useGas gasCallValueTrans)
      (do
        let self ← Procedure.read
        Procedure.when
          (self.curCall.fork ≥ .spuriousDragon ∧ isEmpty self.state addr)
          (useGas gasCallNewAccount)
        useGas gasCallValueTrans) := by
    refine .readNext fun context => ?_
    apply Exists.intro
    constructor
    · intro kept
      rw [isEmpty_image kept.1 addr]
    · infer_instance
  unfold useGasCall
  infer_instance

instance commutes_useGasDelegateCall (addr : Addr) (gas : U256) (memGas : Gas) :
    Commutes valid image (useGasDelegateCall addr gas memGas)
      (useGasDelegateCall addr gas memGas) := by
  unfold useGasDelegateCall
  infer_instance

instance commutes_useGasCallCode (val : U256) (addr : Addr) (gas : U256) (memGas : Gas) :
    Commutes valid image (useGasCallCode val addr gas memGas)
      (useGasCallCode val addr gas memGas) := by
  unfold useGasCallCode
  infer_instance

instance commutes_useGasStaticCall (addr : Addr) (gas : U256) (memGas : Gas) :
    Commutes valid image (useGasStaticCall addr gas memGas)
      (useGasStaticCall addr gas memGas) := by
  unfold useGasStaticCall
  infer_instance

instance commutes_requireDepth : Commutes valid image requireDepth requireDepth := by
  unfold requireDepth
  infer_instance

instance commutes_chargeCreate : Commutes valid image chargeCreate chargeCreate := by
  unfold chargeCreate
  infer_instance

instance commutes_chargeCreate2 : Commutes valid image chargeCreate2 chargeCreate2 := by
  unfold chargeCreate2
  infer_instance

instance commutes_callOperands : Commutes valid image callOperands callOperands := by
  unfold callOperands
  infer_instance

instance commutes_chargeCall : Commutes valid image chargeCall chargeCall := by
  unfold chargeCall
  infer_instance

instance commutes_chargeCallCode :
    Commutes valid image chargeCallCode chargeCallCode := by
  unfold chargeCallCode
  infer_instance

instance commutes_chargeDelegateCall :
    Commutes valid image chargeDelegateCall chargeDelegateCall := by
  unfold chargeDelegateCall
  infer_instance

instance commutes_chargeStaticCall :
    Commutes valid image chargeStaticCall chargeStaticCall := by
  unfold chargeStaticCall
  infer_instance

instance commutes_readCallee :
    Commutes valid image (Procedure.reads fun self => self.curCall.callee)
      (Procedure.reads fun self => self.curCall.callee) :=
  .reads fun _ _ => rfl

instance commutes_createBegin : Commutes valid image createBegin createBegin := by
  unfold createBegin
  exact .next inferInstance fun request => .next inferInstance fun caller =>
    .next inferInstance fun nonce => .next inferInstance fun saved =>
      commutes_create _ _ _ _ _ (.create ⟨saved, createAddr caller nonce⟩)

instance commutes_create2Begin : Commutes valid image create2Begin create2Begin := by
  unfold create2Begin
  exact .next inferInstance fun request => .next inferInstance fun caller =>
    .next inferInstance fun saved =>
      commutes_create _ _ _ _ _ (.create ⟨saved, createAddr2 caller
        (U256.toBigEndian request.salt) (U256.toBigEndian (Hash.hash request.code))⟩)

instance commutes_callBegin : Commutes valid image callBegin callBegin := by
  unfold callBegin
  exact .next inferInstance fun request => .next inferInstance fun caller =>
    .next inferInstance fun saved =>
      commutes_call_ _ _ _ _ _ (.call ⟨some saved, request.retOff, request.retLen⟩)

instance commutes_enter
    (codeAddr : Addr) (input : Bytes) (value : Wei) (callee caller : Addr)
    (args : CallArgs S) (gas : Gas) (readOnly : Bool) :
    Commutes valid image (enter codeAddr input value callee caller args gas readOnly)
      (enter codeAddr input value callee caller (args.map image) gas readOnly) := by
  unfold enter
  refine .readNext fun context => ?_
  cases context.env.precompiledContracts.lookup callee with
  | none =>
      apply Exists.intro
      constructor
      · intro kept
        rw [getCode_image kept.1 codeAddr]
      · exact commutes_callPush _ _ _ _ _ (.call args) _ _
  | some contract =>
      exact ⟨_, fun _ => rfl, commutes_returnWithoutCallstack (.call args) _ _ _⟩

instance commutes_callCodeBegin : Commutes valid image callCodeBegin callCodeBegin := by
  unfold callCodeBegin
  exact .next inferInstance fun request => .next inferInstance fun callee =>
    .next inferInstance fun saved => .next inferInstance fun balance =>
      .next inferInstance fun _ =>
        commutes_enter _ _ _ _ _ ⟨some saved, request.retOff, request.retLen⟩ _ _

instance commutes_delegateCallBegin :
    Commutes valid image delegateCallBegin delegateCallBegin := by
  unfold delegateCallBegin
  exact .next inferInstance fun request => .next inferInstance fun call =>
    .next inferInstance fun saved =>
      commutes_enter _ _ _ _ _ ⟨some saved, request.retOff, request.retLen⟩ _ _

instance commutes_staticCallBegin :
    Commutes valid image staticCallBegin staticCallBegin := by
  unfold staticCallBegin
  exact .next inferInstance fun request => .next inferInstance fun caller =>
    commutes_enter _ _ _ _ _ ⟨none, request.retOff, request.retLen⟩ _ _

instance commutes_returnRegion : Commutes valid image returnRegion returnRegion := by
  unfold returnRegion
  infer_instance

instance commutes_return_ : Commutes valid image return_ return_ := by
  unfold return_
  infer_instance

instance commutes_revertRegion : Commutes valid image revertRegion revertRegion := by
  unfold revertRegion
  infer_instance

instance commutes_revert : Commutes valid image revert revert := by
  unfold revert
  infer_instance

instance commutes_useGasSelfDestruct (call : CallFrame S) (beneficiary : Addr) :
    Commutes valid image (useGasSelfDestruct call beneficiary)
      (useGasSelfDestruct (call.map image) beneficiary) := by
  unfold useGasSelfDestruct
  refine .next inferInstance fun _ => .readNext fun context => ?_
  apply Exists.intro
  constructor
  · intro kept
    rw [isEmpty_image kept.1 beneficiary, getBalance_image kept.1 call.callee,
      exist_image kept.1 beneficiary]
  · infer_instance

instance commutes_sweep (callee beneficiary : Addr) :
    Commutes valid image (sweep callee beneficiary) (sweep callee beneficiary) := by
  have empties := homomorphism.setBalance callee 0
  have credited : ∀ state : S, valid (setBalance
      (addBalance state beneficiary (getBalance state callee)).1 callee 0) →
      valid state ∧ addBalance (image state) beneficiary (getBalance state callee) =
        (image (addBalance state beneficiary (getBalance state callee)).1,
          (addBalance state beneficiary (getBalance state callee)).2) :=
    fun state kept => addBalance_image image (empties.keeps _ kept)
  refine commutes_writeState
    ⟨fun state kept => (credited state kept).1, fun state kept => ?_⟩
  obtain ⟨before, same⟩ := credited state kept
  rw [getBalance_image before, same]
  exact empties.same _ kept

instance commutes_destroy : Commutes valid image destroy destroy := by
  unfold destroy
  infer_instance

instance commutes_selfDestruct : Commutes valid image selfDestruct selfDestruct := by
  unfold selfDestruct
  infer_instance

/-! ## The loop -/

instance commutes_fetch : Commutes valid image fetch fetch := by
  unfold fetch
  infer_instance

instance commutes_dispatch (inst : Inst) :
    Commutes valid image (dispatch inst) (dispatch inst) := by
  obtain ⟨opcode, data, pos⟩ := inst
  unfold dispatch
  cases opcode <;> infer_instance

instance commutes_unwind (depth : Nat) (err : ExecError) :
    Commutes valid image (unwind depth err) (unwind depth err) := by
  induction depth generalizing err with
  | zero =>
      unfold unwind
      infer_instance
  | succ depth inductionHypothesis =>
      unfold unwind
      infer_instance

instance commutes_fail (err : ExecError) :
    Commutes valid image (fail err) (fail err) := by
  unfold fail
  infer_instance

instance commutes_iterate : Commutes valid image iterate iterate := by
  unfold iterate
  infer_instance

end Exec

/-! ## Transactions -/

section Transaction

variable [WorldState S] [WorldState T] [Keccak256]

/-- The image of a transaction. -/
@[reducible] def Transaction.map (image : S → T) (tx : Transaction S) : Transaction T where
  sender := tx.sender
  recipient := tx.recipient
  value := tx.value
  gas := tx.gas
  gasPrice := tx.gasPrice
  input := tx.input
  accessList := tx.accessList
  state := image tx.state
  committedState := image tx.committedState
  env := tx.env

variable [homomorphism : Homomorphism valid image]

omit homomorphism [WorldState S] [WorldState T] in
theorem Transaction.context_map (tx : Transaction S) :
    (tx.map image).context = tx.context.map (TxExecContext.map image) := by
  unfold context
  rw [Option.map_map]
  rfl

namespace Exec

open TxExecContext

instance commutes_startCall (tx : Transaction S) (recipient : Addr) :
    Commutes valid image (tx.startCall recipient) ((tx.map image).startCall recipient) := by
  unfold Transaction.startCall
  exact .next inferInstance fun nonce => .next inferInstance fun _ =>
    .next inferInstance fun saved =>
      commutes_call_ _ _ _ _ _ (.tx ⟨saved, .sender tx.sender⟩)

instance commutes_startCreate (tx : Transaction S) :
    Commutes valid image tx.startCreate (tx.map image).startCreate := by
  unfold Transaction.startCreate
  exact .next inferInstance fun saved => .next inferInstance fun nonce =>
    commutes_create _ _ _ _ _ (.tx ⟨saved, .contract (createAddr tx.sender nonce)⟩)

instance commutes_startFrame (tx : Transaction S) :
    Commutes valid image tx.startFrame (tx.map image).startFrame := by
  unfold Transaction.startFrame
  cases tx.recipient <;> infer_instance

instance commutes_begin (tx : Transaction S) :
    Commutes valid image tx.begin (tx.map image).begin := by
  have gas : (tx.map image).executionGas = tx.executionGas := rfl
  unfold Transaction.begin
  rw [gas]
  infer_instance

end Exec

/-! ## Runs -/

open TxExecContext

variable (image) in
/-- An iteration that ends in a valid context is repeated by the images. -/
theorem Step.map {before after : TxExecContext S} (step : Step before after)
    (kept : after.Valid valid) :
    before.Valid valid ∧ Step (before.map image) (after.map image) := by
  have commutes : Commutes valid image Exec.iterate Exec.iterate := inferInstance
  have within : (Exec.iterate before).Within (Valid valid) := by
    rw [step.2]
    exact kept
  refine ⟨commutes.keeps before within, step.1, ?_⟩
  rw [commutes.run before within, step.2]
  rfl

/-- A transaction that enters the loop in a valid context does so from the image of its
states. -/
theorem Transaction.Enters.map {tx : Transaction S} {entered : TxExecContext S}
    (enters : tx.Enters entered) (kept : entered.Valid valid) :
    (tx.map image).Enters (entered.map image) := by
  obtain ⟨initial, found, run⟩ := enters
  have commutes : Commutes valid image tx.begin (tx.map image).begin := inferInstance
  refine ⟨initial.map image, ?_, ?_⟩
  · rw [context_map, found, Option.map_some]
  · rw [commutes.run initial (by rw [run]; exact kept), run]
    rfl

/-- A run that ends in a valid context is repeated by the images. -/
theorem Transaction.Reaches.map {tx : Transaction S} {reached : TxExecContext S}
    (reaches : tx.Reaches reached) (kept : reached.Valid valid) :
    (tx.map image).Reaches (reached.map image) := by
  obtain ⟨entered, enters, steps⟩ := reaches
  have runs : entered.Valid valid ∧
      Relation.ReflTransGen Step (entered.map image) (reached.map image) := by
    induction steps with
    | refl => exact ⟨kept, .refl⟩
    | tail _ step inductionHypothesis =>
        obtain ⟨before, repeated⟩ := step.map image kept
        obtain ⟨start, earlier⟩ := inductionHypothesis before
        exact ⟨start, earlier.tail repeated⟩
  exact ⟨entered.map image, enters.map runs.1, runs.2⟩

end Transaction

/-! ## Maps that are good on all states -/

section Total

open TxExecContext

variable [WorldState S] [WorldState T] [Keccak256]
  [homomorphism : Homomorphism (fun _ => True) image]

/-- Every iteration from an image is the image of the iteration, with its panics. -/
theorem iterate_map (context : TxExecContext S) :
    Exec.iterate (context.map image) =
      (Exec.iterate context).map (fun value => value) (TxExecContext.map image) := by
  have commutes : Commutes (fun _ => True) image Exec.iterate Exec.iterate := inferInstance
  exact commutes.run context (Outcome.within_of_all (fun _ => ⟨trivial, trivial⟩) _)

/-- Every iteration of an image comes from an iteration of the original. -/
theorem Step.of_map {before : TxExecContext S} {after : TxExecContext T}
    (step : Step (before.map image) after) :
    ∃ original, Step before original ∧ original.map image = after := by
  obtain ⟨running, run⟩ := step
  rw [iterate_map, Outcome.map_eq_ok] at run
  obtain ⟨value, original, run, -, same⟩ := run
  exact ⟨original, ⟨running, run⟩, same⟩

/-- Every run of an image comes from a run of the original. -/
theorem Transaction.Reaches.of_map {tx : Transaction S} {reached : TxExecContext T}
    (reaches : (tx.map image).Reaches reached) :
    ∃ original, tx.Reaches original ∧ original.map image = reached := by
  obtain ⟨entered, ⟨initial, found, run⟩, steps⟩ := reaches
  rw [context_map, Option.map_eq_some_iff] at found
  obtain ⟨start, found, rfl⟩ := found
  have commutes : Commutes (fun _ => True) image tx.begin (tx.map image).begin :=
    inferInstance
  rw [commutes.run start (Outcome.within_of_all (fun _ => ⟨trivial, trivial⟩) _),
    Outcome.map_eq_ok] at run
  obtain ⟨value, original, run, -, rfl⟩ := run
  have runs : ∃ final, Relation.ReflTransGen Step original final ∧
      final.map image = reached := by
    clear found run
    induction steps with
    | refl => exact ⟨original, .refl, rfl⟩
    | tail _ step inductionHypothesis =>
        obtain ⟨middle, earlier, rfl⟩ := inductionHypothesis
        obtain ⟨final, last, same⟩ := step.of_map
        exact ⟨final, earlier.tail last, same⟩
  obtain ⟨final, runs, same⟩ := runs
  exact ⟨final, ⟨original, ⟨start, found, run⟩, runs⟩, same⟩

end Total
end Qevm
