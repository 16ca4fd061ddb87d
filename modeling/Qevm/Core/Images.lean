import Qevm.Core.Interpreter
import Qevm.Logic.Commutation

/-!
# Images of world states

A map between two types of world states that every operation respects is respected by the
interpreter: from the image of a context it does what it does from the context.  What
depends on the type of the world states are the snapshots that frames keep.

This module defines the images of frames and contexts and goes through the instructions of
frames, which touch no world state at all.
-/

set_option synthInstance.maxSize 100000

namespace Qevm

open Params WorldState

variable {S T : Type}

/-- A change that the image repeats and that makes no invalid state valid. -/
structure WorldState.Respects (valid : S → Prop) (image : S → T)
    (change : S → S) (imageChange : T → T) : Prop where
  keeps : ∀ state, valid (change state) → valid state
  same : ∀ state, valid (change state) → imageChange (image state) = image (change state)

namespace WorldState.Respects

variable {valid : S → Prop} {image : S → T}

theorem refl : Respects valid image (fun state => state) fun state => state :=
  ⟨fun _ kept => kept, fun _ _ => rfl⟩

theorem trans
    {first next : S → S} {imageFirst imageNext : T → T}
    (left : Respects valid image first imageFirst)
    (right : Respects valid image next imageNext) :
    Respects valid image (fun state => next (first state))
      fun state => imageNext (imageFirst state) where
  keeps state kept := left.keeps state (right.keeps (first state) kept)
  same state kept := by
    have between := right.keeps (first state) kept
    rw [left.same state between, right.same (first state) kept]

/-- A map that repeats a change on all states. -/
theorem total
    {change : S → S} {imageChange : T → T}
    (same : ∀ state, imageChange (image state) = image (change state)) :
    Respects (fun _ => True) image change imageChange :=
  ⟨fun _ _ => trivial, fun state _ => same state⟩

end WorldState.Respects

/-- A map that the operations of world states respect as long as the states are valid. -/
class WorldState.Homomorphism [WorldState S] [WorldState T] (valid : S → Prop)
    (image : S → T) : Prop where
  reader_image : ∀ state, valid state → reader (image state) = reader state
  setState : ∀ account key val,
    Respects valid image (setState · account key val) (setState · account key val)
  setBalance : ∀ account balance,
    Respects valid image (setBalance · account balance) (setBalance · account balance)
  setCode : ∀ account code,
    Respects valid image (setCode · account code) (setCode · account code)
  setNonce : ∀ account nonce,
    Respects valid image (setNonce · account nonce) (setNonce · account nonce)
  createAccount : ∀ account,
    Respects valid image (createAccount · account) (createAccount · account)
  deleteAccount : ∀ account,
    Respects valid image (deleteAccount · account) (deleteAccount · account)
  addLog_some : ∀ {state account topics data number after},
    addLog state account topics data number = some after → valid after →
      valid state ∧ addLog (image state) account topics data number = some (image after)
  addLog_none : ∀ {state account topics data number},
    addLog state account topics data number = none → (∀ state, valid state) →
      addLog (image state) account topics data number = none
  snapshot_left : ∀ state, valid (snapshot state).1 → valid state
  snapshot_image : ∀ state,
    snapshot (image state) = (image (snapshot state).1, image (snapshot state).2)
  rollback : ∀ saved,
    Respects valid image (rollback · saved) (rollback · (image saved))

/-! ## Images of frames and contexts -/

@[reducible] def TxArgs.map (image : S → T) (self : TxArgs S) : TxArgs T :=
  ⟨image self.snapshot, self.aux⟩

@[reducible] def CallArgs.map (image : S → T) (self : CallArgs S) : CallArgs T :=
  ⟨self.snapshot.map image, self.retOff, self.retLen⟩

@[reducible] def CreateArgs.map (image : S → T) (self : CreateArgs S) : CreateArgs T :=
  ⟨image self.snapshot, self.contractAddr⟩

/-- What a frame keeps, with the images of the snapshots. -/
def CallType.map (image : S → T) : CallType S → CallType T
  | tx args => tx (args.map image)
  | call args => call (args.map image)
  | create args => create (args.map image)

@[reducible] def CallFrame.map (image : S → T) (self : CallFrame S) : CallFrame T where
  pc := self.pc
  memory := self.memory
  stack := self.stack
  code := self.code
  callee := self.callee
  caller := self.caller
  callType := self.callType.map image
  input := self.input
  value := self.value
  lastReturned := self.lastReturned
  unusedGas := self.unusedGas
  readOnly := self.readOnly
  fork := self.fork

@[reducible] def TxExecContext.map (image : S → T) (self : TxExecContext S) :
    TxExecContext T where
  callStack := self.callStack.map (CallFrame.map image)
  curCall := self.curCall.map image
  state := image self.state
  committedState := image self.committedState
  refund := self.refund
  accessList := self.accessList
  destroyed := self.destroyed
  dirty := self.dirty
  status := self.status
  origin := self.origin
  gasPrice := self.gasPrice
  env := self.env

variable {valid : S → Prop} {image : S → T}

instance commutes_gasCheckedMul
    {σ τ : Type} {valid : σ → Prop} {states : σ → τ} (x y : Gas) :
    Procedure.Commutes valid states (fun value => value) (gasCheckedMul x y : Run σ Gas)
      (gasCheckedMul x y : Run τ Gas) :=
  Procedure.Commutes.okOr _ _

/-! ## Instructions of frames -/

/-- The run of a program on the image of a frame is the image of its run. -/
abbrev CallFrame.Commutes
    (image : S → T) (part : Run (CallFrame S) α) (imagePart : Run (CallFrame T) α) :
    Prop :=
  Procedure.Commutes (fun _ => True) (CallFrame.map image) (fun value => value) part
    imagePart

/-- The two world states of a context are valid. -/
def TxExecContext.Valid (valid : S → Prop) (context : TxExecContext S) : Prop :=
  valid context.state ∧ valid context.committedState

/-- The run of a program on the image of a context is the image of its run, as long as the
world states are valid. -/
abbrev TxExecContext.Commutes
    (valid : S → Prop) (image : S → T) (part : Exec S α) (imagePart : Exec T α) : Prop :=
  Procedure.Commutes (Valid valid) (TxExecContext.map image) (fun value => value) part
    imagePart

namespace CallFrame

instance commutes_onStack (part : Run Stack α) :
    Commutes image (onStack part) (onStack part) :=
  .zoom (.refl part) (fun _ _ _ => trivial) (fun _ => rfl) fun _ _ => rfl

instance commutes_onMemory (part : Run Memory α) :
    Commutes image (onMemory part) (onMemory part) :=
  .zoom (.refl part) (fun _ _ _ => trivial) (fun _ => rfl) fun _ _ => rfl

instance commutes_useGas (gas : Gas) :
    Commutes image (useGas gas) (useGas gas) :=
  ⟨fun _ _ => trivial, fun frame _ => by
    unfold useGas
    split <;> rfl⟩

instance commutes_requireFork (fork : Fork) :
    Commutes image (requireFork fork) (requireFork fork) :=
  ⟨fun _ _ => trivial, fun frame _ => by
    unfold requireFork
    split <;> rfl⟩

instance commutes_makeUnaryOp (op : U256 → U256) (gas : Gas) :
    Commutes image (makeUnaryOp op gas) (makeUnaryOp op gas) := by
  unfold makeUnaryOp
  infer_instance

instance commutes_makeBinaryOp (op : U256 → U256 → U256) (gas : Gas) :
    Commutes image (makeBinaryOp op gas) (makeBinaryOp op gas) := by
  unfold makeBinaryOp
  infer_instance

instance commutes_makeTernaryOp (op : U256 → U256 → U256 → U256) (gas : Gas) :
    Commutes image (makeTernaryOp op gas) (makeTernaryOp op gas) := by
  unfold makeTernaryOp
  infer_instance

instance commutes_makeBinaryOpSince (op : U256 → U256 → U256) (gas : Gas) (fork : Fork) :
    Commutes image (makeBinaryOpSince op gas fork) (makeBinaryOpSince op gas fork) := by
  unfold makeBinaryOpSince
  infer_instance

/-- A word that is the same in images of frames is pushed in the same way. -/
theorem commutes_pushOf
    {word : CallFrame S → U256} {imageWord : CallFrame T → U256} (gas : Gas)
    (same : ∀ frame, imageWord (frame.map image) = word frame) :
    Commutes image (pushOf gas word)
      (pushOf gas imageWord) := by
  have pushes : ∀ frame, Commutes image (onStack (Stack.push (word frame)))
      (onStack (Stack.push (imageWord (frame.map image)))) := fun frame => by
    rw [same]
    infer_instance
  unfold pushOf
  infer_instance

instance commutes_readFork :
    Commutes image (Procedure.reads CallFrame.fork) (Procedure.reads CallFrame.fork) :=
  .reads fun _ _ => rfl

instance commutes_readInput :
    Commutes image (Procedure.reads CallFrame.input) (Procedure.reads CallFrame.input) :=
  .reads fun _ _ => rfl

instance commutes_readCode :
    Commutes image (Procedure.reads CallFrame.code) (Procedure.reads CallFrame.code) :=
  .reads fun _ _ => rfl

instance commutes_readLastReturned :
    Commutes image (Procedure.reads CallFrame.lastReturned)
      (Procedure.reads CallFrame.lastReturned) :=
  .reads fun _ _ => rfl

instance commutes_add :
    Commutes image add add := by
  unfold add
  infer_instance

instance commutes_mul :
    Commutes image mul mul := by
  unfold mul
  infer_instance

instance commutes_sub :
    Commutes image sub sub := by
  unfold sub
  infer_instance

instance commutes_div :
    Commutes image div div := by
  unfold div
  infer_instance

instance commutes_sdiv :
    Commutes image sdiv sdiv := by
  unfold sdiv
  infer_instance

instance commutes_rem :
    Commutes image rem rem := by
  unfold rem
  infer_instance

instance commutes_smod :
    Commutes image smod smod := by
  unfold smod
  infer_instance

instance commutes_addMod :
    Commutes image addMod addMod := by
  unfold addMod
  infer_instance

instance commutes_mulMod :
    Commutes image mulMod mulMod := by
  unfold mulMod
  infer_instance

instance commutes_exp :
    Commutes image exp exp := by
  unfold exp
  infer_instance

instance commutes_signExtend :
    Commutes image signExtend signExtend := by
  unfold signExtend
  infer_instance

instance commutes_lt :
    Commutes image lt lt := by
  unfold lt
  infer_instance

instance commutes_gt :
    Commutes image gt gt := by
  unfold gt
  infer_instance

instance commutes_slt :
    Commutes image slt slt := by
  unfold slt
  infer_instance

instance commutes_sgt :
    Commutes image sgt sgt := by
  unfold sgt
  infer_instance

instance commutes_eq :
    Commutes image eq eq := by
  unfold eq
  infer_instance

instance commutes_isZero :
    Commutes image isZero isZero := by
  unfold isZero
  infer_instance

instance commutes_and :
    Commutes image and and := by
  unfold and
  infer_instance

instance commutes_or :
    Commutes image or or := by
  unfold or
  infer_instance

instance commutes_xor :
    Commutes image xor xor := by
  unfold xor
  infer_instance

instance commutes_not :
    Commutes image not not := by
  unfold not
  infer_instance

instance commutes_byte :
    Commutes image byte byte := by
  unfold byte
  infer_instance

instance commutes_shl :
    Commutes image shl shl := by
  unfold shl
  infer_instance

instance commutes_shr :
    Commutes image shr shr := by
  unfold shr
  infer_instance

instance commutes_sar :
    Commutes image sar sar := by
  unfold sar
  infer_instance

instance commutes_sha3 [Keccak256] :
    Commutes image sha3 sha3 := by
  unfold sha3
  infer_instance

instance commutes_addr : Commutes image addr addr :=
  commutes_pushOf _ fun _ => rfl

instance commutes_pushCaller : Commutes image pushCaller pushCaller :=
  commutes_pushOf _ fun _ => rfl

instance commutes_callValue : Commutes image callValue callValue :=
  commutes_pushOf _ fun _ => rfl

instance commutes_callDataLoad :
    Commutes image callDataLoad callDataLoad := by
  unfold callDataLoad
  infer_instance

instance commutes_codeCopy :
    Commutes image codeCopy codeCopy := by
  unfold codeCopy
  infer_instance

instance commutes_callDataCopy :
    Commutes image callDataCopy callDataCopy := by
  unfold callDataCopy
  infer_instance

instance commutes_returnDataSize : Commutes image returnDataSize returnDataSize := by
  have word : Commutes image
      (pushOf gasQuick fun self => U256.ofLen self.lastReturned.length)
      (pushOf gasQuick fun self => U256.ofLen self.lastReturned.length) :=
    commutes_pushOf _ fun _ => rfl
  unfold returnDataSize
  infer_instance

instance commutes_returnDataCopy :
    Commutes image returnDataCopy returnDataCopy := by
  unfold returnDataCopy
  infer_instance

instance commutes_pop :
    Commutes image pop pop := by
  unfold pop
  infer_instance

instance commutes_mload :
    Commutes image mload mload := by
  unfold mload
  infer_instance

instance commutes_mstore :
    Commutes image mstore mstore := by
  unfold mstore
  infer_instance

instance commutes_mstore8 :
    Commutes image mstore8 mstore8 := by
  unfold mstore8
  infer_instance

instance commutes_callDataSize : Commutes image callDataSize callDataSize :=
  commutes_pushOf _ fun _ => rfl

instance commutes_codeSize : Commutes image codeSize codeSize :=
  commutes_pushOf _ fun _ => rfl

instance commutes_pushPc : Commutes image pushPc pushPc :=
  commutes_pushOf _ fun _ => rfl

instance commutes_msize : Commutes image msize msize :=
  commutes_pushOf _ fun _ => rfl

instance commutes_gas : Commutes image gas gas :=
  commutes_pushOf _ fun _ => rfl

instance commutes_push (data : Bytes) :
    Commutes image (push data) (push data) := by
  unfold push
  infer_instance

instance commutes_dup (pos : Nat) :
    Commutes image (dup pos) (dup pos) := by
  unfold dup
  infer_instance

instance commutes_swap (pos : Nat) :
    Commutes image (swap pos) (swap pos) := by
  unfold swap
  infer_instance

end CallFrame
end Qevm
