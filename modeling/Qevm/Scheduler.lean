import Mathlib.Logic.Relation

/-!
# Running one transaction

`run_single_tx`, the thread of the core and the future of one transaction, as a
system that exchanges the transaction over two channels.

The future awaits reads one after the other.  A read is seen through the number
of external events that have still to happen before a poll completes it.
-/

namespace Qevm

/-- What the future of a transaction awaits. -/
inductive Await
  /-- A read inside `TxExecReady::wrap`. -/
  | wrapped (events : Nat)
  /-- `create_account`, which is awaited as it is. -/
  | bare (events : Nat)

/-- A future that resolves when its flag is set.  The future of the transaction
finds it by its place. -/
structure TxExecReady where
  place : Nat
  ready : Bool
  /-- Whether a waker is stored. -/
  waker : Bool

/-- The notifiers of a transaction. -/
structure ReadyList where
  entries : List TxExecReady
  /-- The next unused place. -/
  next : Nat

namespace ReadyList

def new : ReadyList := ⟨[], 0⟩

/-- Add a notifier. -/
def push (list : ReadyList) : ReadyList :=
  ⟨list.entries ++ [⟨list.next, false, false⟩], list.next + 1⟩

/-- Set the flag of the notifier at a place. -/
def setReady (list : ReadyList) (place : Nat) : ReadyList :=
  { list with entries := list.entries.map fun entry =>
      if entry.place = place then { entry with ready := true } else entry }

/-- Take the notifiers out of their places. -/
def drain (list : ReadyList) : List TxExecReady × ReadyList :=
  (list.entries, { list with entries := [] })

end ReadyList

/-- A read that was polled before it was complete, with the place of its notifier
if it is wrapped. -/
structure Waiting where
  notifier : Option Nat
  events : Nat

/-- The future of a transaction. -/
structure TxFuture (ρ : Type) where
  waiting : Option Waiting
  /-- What is awaited afterwards. -/
  rest : List Await
  result : ρ

/-- The progress of a transaction. -/
structure TxExecHandle (ρ : Type) where
  fut : TxFuture ρ
  ready : ReadyList

inductive TxExecState (ρ : Type)
  | running (handle : TxExecHandle ρ)
  | finished (result : ρ)

variable {ρ : Type}

namespace TxExecHandle

def new (plan : List Await) (result : ρ) : TxExecHandle ρ :=
  ⟨⟨none, plan, result⟩, ReadyList.new⟩

/-- The handle without its notifiers. -/
def drained (handle : TxExecHandle ρ) : TxExecHandle ρ :=
  { handle with ready := handle.ready.drain.2 }

/-- Run the future until it awaits a read that is not complete. -/
def advance (result : ρ) : List Await → ReadyList → TxExecState ρ
  | [], _ => .finished result
  | .wrapped 0 :: rest, ready => advance result rest (ready.push.setReady ready.next)
  | .wrapped (events + 1) :: rest, ready =>
      .running ⟨⟨some ⟨some ready.next, events + 1⟩, rest, result⟩, ready.push⟩
  | .bare 0 :: rest, ready => advance result rest ready
  | .bare (events + 1) :: rest, ready =>
      .running ⟨⟨some ⟨none, events + 1⟩, rest, result⟩, ready⟩

/-- Poll the future. -/
def poll (handle : TxExecHandle ρ) : TxExecState ρ :=
  match handle.fut.waiting with
  | none => advance handle.fut.result handle.fut.rest handle.ready
  | some ⟨none, 0⟩ => advance handle.fut.result handle.fut.rest handle.ready
  | some ⟨some place, 0⟩ =>
      advance handle.fut.result handle.fut.rest (handle.ready.setReady place)
  | some ⟨_, _ + 1⟩ => .running handle

/-- External events that the awaited read needs. -/
def outstanding (handle : TxExecHandle ρ) : Nat :=
  handle.fut.waiting.elim 0 Waiting.events

/-- An external event of the awaited read. -/
def arrive (handle : TxExecHandle ρ) : TxExecHandle ρ :=
  { handle with fut := { handle.fut with
      waiting := handle.fut.waiting.map fun waiting =>
        { waiting with events := waiting.events - 1 } } }

end TxExecHandle

namespace TxExecState

/-- What the core makes of a state. -/
def poll : TxExecState ρ → TxExecState ρ
  | running handle => handle.poll
  | finished result => finished result

def outstanding : TxExecState ρ → Nat
  | running handle => handle.outstanding
  | finished _ => 0

def arrive : TxExecState ρ → TxExecState ρ
  | running handle => running handle.arrive
  | finished result => finished result

end TxExecState

/-- Where `run_single_tx` is. -/
inductive Scheduler (ρ : Type)
  /-- Before sending to the core. -/
  | sending (tx : TxExecState ρ)
  /-- Waiting for the core. -/
  | receiving
  /-- Awaiting drained notifiers, the first one first. -/
  | awaiting (handle : TxExecHandle ρ) (drained : List TxExecReady)
  | returned (result : ρ)

/-- Where the thread of the core is. -/
inductive CoreThread (ρ : Type)
  /-- Waiting for a state. -/
  | idle
  /-- Before polling. -/
  | received (tx : TxExecState ρ)
  /-- Before sending. -/
  | polled (tx : TxExecState ρ)

structure System (ρ : Type) where
  scheduler : Scheduler ρ
  coreIn : List (TxExecState ρ)
  core : CoreThread ρ
  coreOut : List (TxExecState ρ)

namespace System

def start (plan : List Await) (result : ρ) : System ρ :=
  ⟨.sending (.running (TxExecHandle.new plan result)), [], .idle, []⟩

/-- The steps of the scheduler and of the core. -/
inductive Step : System ρ → System ρ → Prop
  | send {tx coreIn core coreOut} :
      Step ⟨.sending tx, coreIn, core, coreOut⟩
        ⟨.receiving, coreIn ++ [tx], core, coreOut⟩
  | coreReceive {scheduler tx coreIn coreOut} :
      Step ⟨scheduler, tx :: coreIn, .idle, coreOut⟩
        ⟨scheduler, coreIn, .received tx, coreOut⟩
  | corePoll {scheduler coreIn tx coreOut} :
      Step ⟨scheduler, coreIn, .received tx, coreOut⟩
        ⟨scheduler, coreIn, .polled tx.poll, coreOut⟩
  | coreSend {scheduler coreIn tx coreOut} :
      Step ⟨scheduler, coreIn, .polled tx, coreOut⟩
        ⟨scheduler, coreIn, .idle, coreOut ++ [tx]⟩
  | finish {coreIn core result coreOut} :
      Step ⟨.receiving, coreIn, core, .finished result :: coreOut⟩
        ⟨.returned result, coreIn, core, coreOut⟩
  | drain {coreIn core handle coreOut} :
      Step ⟨.receiving, coreIn, core, .running handle :: coreOut⟩
        ⟨.awaiting handle.drained handle.ready.drain.1, coreIn, core, coreOut⟩
  | resolve {handle entry entries coreIn core coreOut} :
      entry.ready →
      Step ⟨.awaiting handle (entry :: entries), coreIn, core, coreOut⟩
        ⟨.awaiting handle entries, coreIn, core, coreOut⟩
  -- a poll of a notifier whose flag is not set stores the waker, once
  | park {handle entry entries coreIn core coreOut} :
      ¬entry.ready → ¬entry.waker →
      Step ⟨.awaiting handle (entry :: entries), coreIn, core, coreOut⟩
        ⟨.awaiting handle ({ entry with waker := true } :: entries), coreIn, core,
          coreOut⟩
  | resend {handle coreIn core coreOut} :
      Step ⟨.awaiting handle [], coreIn, core, coreOut⟩
        ⟨.sending (.running handle), coreIn, core, coreOut⟩

end System

/-- The transaction that the scheduler holds. -/
def Scheduler.txs : Scheduler ρ → List (TxExecState ρ)
  | sending tx => [tx]
  | awaiting handle _ => [.running handle]
  | receiving | returned _ => []

def Scheduler.arrive : Scheduler ρ → Scheduler ρ
  | sending tx => sending tx.arrive
  | awaiting handle drained => awaiting handle.arrive drained
  | receiving => receiving
  | returned result => returned result

/-- The transaction that the core holds. -/
def CoreThread.txs : CoreThread ρ → List (TxExecState ρ)
  | idle => []
  | received tx | polled tx => [tx]

def CoreThread.arrive : CoreThread ρ → CoreThread ρ
  | idle => idle
  | received tx => received tx.arrive
  | polled tx => polled tx.arrive

namespace System

/-- The transactions in a system, wherever they are. -/
def txs (system : System ρ) : List (TxExecState ρ) :=
  system.scheduler.txs ++ system.coreIn ++ system.core.txs ++ system.coreOut

/-- An external event. -/
def arrive (system : System ρ) : System ρ where
  scheduler := system.scheduler.arrive
  coreIn := system.coreIn.map TxExecState.arrive
  core := system.core.arrive
  coreOut := system.coreOut.map TxExecState.arrive

/-- A step or an external event. -/
def Moves (system next : System ρ) : Prop := Step system next ∨ next = system.arrive

def Reachable (plan : List Await) (result : ρ) (system : System ρ) : Prop :=
  Relation.ReflTransGen Moves (start plan result) system

/-- Some step is enabled in every reachable state in which the transaction is
running and the awaited read needs no further external event. -/
def Progresses (plan : List Await) (result : ρ) : Prop :=
  ∀ system : System ρ, Reachable plan result system →
    (∃ handle, .running handle ∈ system.txs) →
    (∀ tx ∈ system.txs, tx.outstanding = 0) → ∃ next, Step system next

end System
end Qevm
