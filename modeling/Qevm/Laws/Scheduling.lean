import Mathlib.Tactic.ByContra
import Qevm.Scheduler

/-!
# When the scheduler waits for itself

The flag of a notifier is set by the poll that completes its read, and the
scheduler asks for no poll before the flags of the notifiers it drained are set.
So the scheduler makes progress in every run exactly when no wrapped read is
incomplete at its first poll.
-/

namespace Qevm

variable {ρ : Type}

/-- The read is complete at its first poll, if it is wrapped. -/
def Await.Immediate : Await → Prop
  | wrapped events => events = 0
  | bare _ => True

namespace ReadyList

/-- Every notifier in the list resolves. -/
def AllReady (list : ReadyList) : Prop := ∀ entry ∈ list.entries, entry.ready

theorem AllReady.new : AllReady new := fun _ => (absurd · List.not_mem_nil)

theorem AllReady.setReady
    {list : ReadyList} (ready : list.AllReady) (place : Nat) :
    (list.setReady place).AllReady := by
  intro entry member
  obtain ⟨old, oldMember, rfl⟩ := List.mem_map.mp member
  split
  · rfl
  · exact ready old oldMember

/-- A notifier whose flag is set at once resolves. -/
theorem AllReady.push_setReady
    {list : ReadyList} (ready : list.AllReady) :
    (list.push.setReady list.next).AllReady := by
  intro entry member
  obtain ⟨old, oldMember, rfl⟩ := List.mem_map.mp member
  split
  · rfl
  · next other =>
      obtain oldMember | new := List.mem_append.mp oldMember
      · exact ready old oldMember
      · rw [List.mem_singleton.mp new] at other
        exact absurd rfl other

end ReadyList

namespace TxExecHandle

/-- The future awaits no wrapped read, and starts none that is incomplete. -/
structure Fluent (handle : TxExecHandle ρ) : Prop where
  waiting : ∀ waiting, handle.fut.waiting = some waiting → waiting.notifier = none
  rest : ∀ await ∈ handle.fut.rest, await.Immediate
  ready : handle.ready.AllReady

theorem Fluent.arrive {handle : TxExecHandle ρ} (fluent : handle.Fluent) :
    handle.arrive.Fluent where
  waiting := by
    intro waiting found
    obtain ⟨old, oldFound, rfl⟩ := Option.map_eq_some_iff.mp found
    exact fluent.waiting old oldFound
  rest := fluent.rest
  ready := fluent.ready

theorem Fluent.drained {handle : TxExecHandle ρ} (fluent : handle.Fluent) :
    handle.drained.Fluent where
  waiting := fluent.waiting
  rest := fluent.rest
  ready := fun _ => (absurd · List.not_mem_nil)

end TxExecHandle

namespace TxExecState

/-- A transaction that awaits no incomplete wrapped read now or later. -/
def Fluent : TxExecState ρ → Prop
  | running handle => handle.Fluent
  | finished _ => True

theorem Fluent.arrive {tx : TxExecState ρ} (fluent : tx.Fluent) : tx.arrive.Fluent := by
  cases tx with
  | running handle => exact TxExecHandle.Fluent.arrive fluent
  | finished result => trivial

theorem Fluent.advance
    (result : ρ) {rest : List Await} {ready : ReadyList}
    (immediate : ∀ await ∈ rest, await.Immediate) (allReady : ready.AllReady) :
    (TxExecHandle.advance result rest ready).Fluent := by
  induction rest, ready using TxExecHandle.advance.induct with
  | case1 ready => trivial
  | case2 ready rest inductionHypothesis =>
      exact inductionHypothesis
        (fun await member => immediate await (List.mem_cons_of_mem _ member))
        allReady.push_setReady
  | case3 events rest ready =>
      exact absurd (immediate _ List.mem_cons_self) (Nat.succ_ne_zero events)
  | case4 ready rest inductionHypothesis =>
      exact inductionHypothesis
        (fun await member => immediate await (List.mem_cons_of_mem _ member)) allReady
  | case5 events rest ready =>
      exact
        { waiting := fun waiting found => by cases found; rfl
          rest := fun await member => immediate await (List.mem_cons_of_mem _ member)
          ready := allReady }

theorem Fluent.poll {tx : TxExecState ρ} (fluent : tx.Fluent) : tx.poll.Fluent := by
  cases tx with
  | finished result => trivial
  | running handle =>
      obtain ⟨waiting, rest, ready⟩ := fluent
      show (TxExecHandle.poll handle).Fluent
      unfold TxExecHandle.poll
      split
      · exact Fluent.advance _ rest ready
      · exact Fluent.advance _ rest ready
      · exact Fluent.advance _ rest (ready.setReady _)
      · exact ⟨waiting, rest, ready⟩

end TxExecState

namespace System

/-- The transaction is in one place of the system. -/
inductive Turn : System ρ → Prop
  | sending {tx} : tx.Fluent → Turn ⟨.sending tx, [], .idle, []⟩
  | sent {tx} : tx.Fluent → Turn ⟨.receiving, [tx], .idle, []⟩
  | received {tx} : tx.Fluent → Turn ⟨.receiving, [], .received tx, []⟩
  | polled {tx} : tx.Fluent → Turn ⟨.receiving, [], .polled tx, []⟩
  | answered {tx} : tx.Fluent → Turn ⟨.receiving, [], .idle, [tx]⟩
  | awaiting {handle entries} :
      handle.Fluent → (∀ entry ∈ entries, entry.ready) →
        Turn ⟨.awaiting handle entries, [], .idle, []⟩
  | returned {result} : Turn ⟨.returned result, [], .idle, []⟩

theorem Turn.start
    {plan : List Await} (result : ρ) (immediate : ∀ await ∈ plan, await.Immediate) :
    Turn (start plan result) := by
  apply Turn.sending
  exact
    { waiting := fun _ found => by cases found
      rest := immediate
      ready := ReadyList.AllReady.new }

theorem Turn.step
    {system next : System ρ} (turn : Turn system) (step : Step system next) :
    Turn next := by
  cases turn with
  | sending fluent => cases step with | send => exact .sent fluent
  | sent fluent => cases step with | coreReceive => exact .received fluent
  | received fluent => cases step with | corePoll => exact .polled fluent.poll
  | polled fluent => cases step with | coreSend => exact .answered fluent
  | answered fluent =>
      cases step with
      | finish => exact .returned
      | drain => exact .awaiting (TxExecHandle.Fluent.drained fluent) fluent.ready
  | awaiting fluent ready =>
      cases step with
      | resolve =>
          exact .awaiting fluent fun entry member =>
            ready entry (List.mem_cons_of_mem _ member)
      | park notReady => exact absurd (ready _ List.mem_cons_self) notReady
      | resend => exact .sending fluent
  | returned => cases step

theorem Turn.arrive {system : System ρ} (turn : Turn system) : Turn system.arrive := by
  cases turn with
  | sending fluent => exact .sending fluent.arrive
  | sent fluent => exact .sent fluent.arrive
  | received fluent => exact .received fluent.arrive
  | polled fluent => exact .polled fluent.arrive
  | answered fluent => exact .answered fluent.arrive
  | awaiting fluent ready => exact .awaiting fluent.arrive ready
  | returned => exact .returned

theorem Turn.reachable
    {plan : List Await} {result : ρ} {system : System ρ}
    (immediate : ∀ await ∈ plan, await.Immediate)
    (reachable : Reachable plan result system) : Turn system := by
  induction reachable with
  | refl => exact .start result immediate
  | tail _ move inductionHypothesis =>
      obtain step | rfl := move
      · exact inductionHypothesis.step step
      · exact inductionHypothesis.arrive

/-- The party that holds the transaction has a step. -/
theorem Turn.progresses
    {system : System ρ} (turn : Turn system)
    (running : ∃ handle, .running handle ∈ system.txs) : ∃ next, Step system next := by
  cases turn with
  | sending _ => exact ⟨_, .send⟩
  | sent _ => exact ⟨_, .coreReceive⟩
  | received _ => exact ⟨_, .corePoll⟩
  | polled _ => exact ⟨_, .coreSend⟩
  | @answered tx _ =>
      cases tx with
      | running handle => exact ⟨_, .drain⟩
      | finished result => exact ⟨_, .finish⟩
  | @awaiting handle entries _ ready =>
      cases entries with
      | nil => exact ⟨_, .resend⟩
      | cons entry entries => exact ⟨_, .resolve (ready entry List.mem_cons_self)⟩
  | returned =>
      obtain ⟨handle, member⟩ := running
      cases member

/-! ## The deadlock -/

theorem Reachable.then
    {plan : List Await} {result : ρ} {system next : System ρ}
    (reachable : Reachable plan result system)
    (moves : Relation.ReflTransGen Moves system next) : Reachable plan result next :=
  Relation.ReflTransGen.trans reachable moves

theorem Step.moves {system next : System ρ} (step : Step system next) :
    Relation.ReflTransGen Moves system next := .single (.inl step)

/-- From sending to the core to awaiting the notifiers. -/
theorem moves_round
    {tx : TxExecState ρ} {handle : TxExecHandle ρ}
    (polled : tx.poll = .running handle) :
    Relation.ReflTransGen Moves (⟨.sending tx, [], .idle, []⟩ : System ρ)
      ⟨.awaiting handle.drained handle.ready.entries, [], .idle, []⟩ := by
  have sent : Relation.ReflTransGen Moves (⟨.sending tx, [], .idle, []⟩ : System ρ)
      ⟨.receiving, [], .polled tx.poll, []⟩ :=
    (Step.send.moves.trans Step.coreReceive.moves).trans Step.corePoll.moves
  rw [polled] at sent
  exact (sent.trans Step.coreSend.moves).trans Step.drain.moves

/-- The notifiers that resolve are awaited. -/
theorem moves_resolve
    (handle : TxExecHandle ρ) {entries : List TxExecReady} (rest : List TxExecReady)
    (ready : ∀ entry ∈ entries, entry.ready) :
    Relation.ReflTransGen Moves
      (⟨.awaiting handle (entries ++ rest), [], .idle, []⟩ : System ρ)
      ⟨.awaiting handle rest, [], .idle, []⟩ := by
  induction entries with
  | nil => exact .refl
  | cons entry entries inductionHypothesis =>
      exact (Step.resolve (ready entry List.mem_cons_self)).moves.trans
        (inductionHypothesis fun entry member => ready entry (List.mem_cons_of_mem _ member))

end System

namespace TxExecHandle

/-- The future when the awaited read needs no further event. -/
def settled (handle : TxExecHandle ρ) : TxExecHandle ρ :=
  { handle with fut := { handle.fut with
      waiting := handle.fut.waiting.map fun waiting => { waiting with events := 0 } } }

theorem outstanding_settled (handle : TxExecHandle ρ) :
    handle.settled.outstanding = 0 := by
  unfold outstanding settled
  cases handle.fut.waiting <;> rfl

theorem settled_eq {handle : TxExecHandle ρ} (settled : handle.outstanding = 0) :
    handle.settled = handle := by
  obtain ⟨⟨_ | ⟨notifier, events⟩, rest, result⟩, ready⟩ := handle
  · rfl
  · cases settled
    rfl

theorem settled_arrive (handle : TxExecHandle ρ) :
    handle.arrive.settled = handle.settled := by
  unfold settled arrive
  simp only [Option.map_map]
  rfl

theorem outstanding_arrive (handle : TxExecHandle ρ) :
    handle.arrive.outstanding = handle.outstanding - 1 := by
  unfold outstanding arrive
  cases handle.fut.waiting <;> rfl

/-- A future that has an incomplete wrapped read ahead is stopped by it, or by a
read that is awaited as it is. -/
theorem advance_blocked
    (result : ρ) {rest : List Await} {ready : ReadyList} (allReady : ready.AllReady)
    (blocked : ∃ await ∈ rest, ¬await.Immediate) :
    ∃ handle, advance result rest ready = .running handle ∧
      ((∃ events, handle.fut.waiting = some ⟨none, events⟩ ∧ handle.ready.AllReady ∧
          handle.fut.rest.length < rest.length ∧
          ∃ await ∈ handle.fut.rest, ¬await.Immediate) ∨
        ∃ place entries, handle.ready.entries = entries ++ [⟨place, false, false⟩] ∧
          ∀ entry ∈ entries, entry.ready) := by
  induction rest, ready using advance.induct with
  | case1 ready =>
      obtain ⟨await, member, _⟩ := blocked
      cases member
  | case2 rest ready inductionHypothesis =>
      have later : ∃ await ∈ rest, ¬await.Immediate := by
        obtain ⟨await, member, slow⟩ := blocked
        obtain rfl | member := List.mem_cons.mp member
        · exact absurd rfl slow
        · exact ⟨await, member, slow⟩
      obtain ⟨handle, run, stops⟩ := inductionHypothesis allReady.push_setReady later
      refine ⟨handle, run, stops.imp_left ?_⟩
      rintro ⟨events, waiting, listReady, shorter, ahead⟩
      exact ⟨events, waiting, listReady, Nat.lt_succ_of_lt shorter, ahead⟩
  | case3 events rest ready =>
      exact ⟨_, rfl, .inr ⟨ready.next, ready.entries, rfl, allReady⟩⟩
  | case4 rest ready inductionHypothesis =>
      have later : ∃ await ∈ rest, ¬await.Immediate := by
        obtain ⟨await, member, slow⟩ := blocked
        obtain rfl | member := List.mem_cons.mp member
        · exact absurd trivial slow
        · exact ⟨await, member, slow⟩
      obtain ⟨handle, run, stops⟩ := inductionHypothesis allReady later
      refine ⟨handle, run, stops.imp_left ?_⟩
      rintro ⟨events, waiting, listReady, shorter, ahead⟩
      exact ⟨events, waiting, listReady, Nat.lt_succ_of_lt shorter, ahead⟩
  | case5 events rest ready =>
      refine ⟨_, rfl, .inl ⟨events + 1, rfl, allReady, Nat.lt_succ_self _, ?_⟩⟩
      obtain ⟨await, member, slow⟩ := blocked
      obtain rfl | member := List.mem_cons.mp member
      · exact absurd trivial slow
      · exact ⟨await, member, slow⟩

end TxExecHandle

namespace System

/-- The external events of the awaited read happen. -/
theorem moves_settle
    (place : TxExecHandle ρ → System ρ) (follows : ∀ handle, (place handle).arrive =
      place handle.arrive) (handle : TxExecHandle ρ) :
    Relation.ReflTransGen Moves (place handle) (place handle.settled) := by
  induction left : handle.outstanding generalizing handle with
  | zero => rw [TxExecHandle.settled_eq left]
  | succ events inductionHypothesis =>
      have fewer : handle.arrive.outstanding = events := by
        rw [handle.outstanding_arrive, left]
        rfl
      have rest := inductionHypothesis handle.arrive fewer
      rw [handle.settled_arrive, ← follows] at rest
      exact .head (.inr rfl) rest

/-- The transaction is running, no external event is outstanding, and no step is
enabled. -/
def Deadlock (system : System ρ) : Prop :=
  (∃ handle, .running handle ∈ system.txs) ∧
    (∀ tx ∈ system.txs, tx.outstanding = 0) ∧ ∀ next, ¬Step system next

/-- The scheduler awaits a notifier whose flag is not set, and holds the
transaction whose poll would set it. -/
theorem deadlock_of_parked
    {handle : TxExecHandle ρ} {place : Nat} {entries : List TxExecReady}
    (settled : handle.outstanding = 0) :
    Deadlock (⟨.awaiting handle (⟨place, false, true⟩ :: entries), [], .idle, []⟩ :
      System ρ) := by
  refine ⟨⟨handle, List.mem_singleton.mpr rfl⟩, ?_, ?_⟩
  · intro tx member
    rw [List.mem_singleton.mp member]
    exact settled
  · intro next step
    cases step with
    | resolve ready => exact absurd ready Bool.false_ne_true
    | park _ unparked => exact unparked rfl

theorem moves_deadlock
    (handle : TxExecHandle ρ)
    (complete : handle.fut.waiting = none ∨ handle.fut.waiting = some ⟨none, 0⟩)
    (allReady : handle.ready.AllReady)
    (blocked : ∃ await ∈ handle.fut.rest, ¬await.Immediate) :
    ∃ system, Relation.ReflTransGen Moves
      (⟨.sending (.running handle), [], .idle, []⟩ : System ρ) system ∧
        Deadlock system := by
  induction length : handle.fut.rest.length using Nat.strongRecOn
    generalizing handle with
  | ind length inductionHypothesis =>
      have polled : (TxExecState.running handle).poll =
          TxExecHandle.advance handle.fut.result handle.fut.rest handle.ready := by
        obtain none | bare := complete
        · simp [TxExecState.poll, TxExecHandle.poll, none]
        · simp [TxExecState.poll, TxExecHandle.poll, bare]
      obtain ⟨stopped, run, stops⟩ :=
        TxExecHandle.advance_blocked handle.fut.result allReady blocked
      have round := moves_round (polled.trans run)
      obtain ⟨events, waiting, stoppedReady, shorter, ahead⟩ |
        ⟨place, entries, list, entriesReady⟩ := stops
      · -- the drained notifiers resolve, and the transaction is sent again
        have resolved := moves_resolve stopped.drained [] stoppedReady
        rw [List.append_nil] at resolved
        have again := (round.trans resolved).trans Step.resend.moves
        have settled := moves_settle
          (fun handle => (⟨.sending (.running handle), [], .idle, []⟩ : System ρ))
          (fun _ => rfl) stopped.drained
        have complete : stopped.drained.settled.fut.waiting = some ⟨none, 0⟩ :=
          congrArg (Option.map _) waiting
        obtain ⟨system, rest, deadlock⟩ := inductionHypothesis _ (length ▸ shorter) _
          (.inr complete) (fun _ => (absurd · List.not_mem_nil)) ahead rfl
        exact ⟨system, (again.trans settled).trans rest, deadlock⟩
      · -- the last notifier does not resolve
        rw [list] at round
        have resolved := moves_resolve stopped.drained
          [⟨place, false, false⟩] entriesReady
        have parked := (round.trans resolved).trans
          (Step.park Bool.false_ne_true Bool.false_ne_true).moves
        have settled := moves_settle
          (fun handle => (⟨.awaiting handle [⟨place, false, true⟩], [], .idle, []⟩ :
            System ρ)) (fun _ => rfl) stopped.drained
        exact ⟨_, parked.trans settled,
          deadlock_of_parked stopped.drained.outstanding_settled⟩

/-- The system makes progress in every run, whatever the order of polls, drains
and external events, exactly when every wrapped read is complete at its first
poll. -/
theorem progresses_iff_immediate
    (plan : List Await) (result : ρ) :
    Progresses plan result ↔ ∀ await ∈ plan, await.Immediate := by
  constructor
  · intro progresses
    by_contra slow
    have blocked : ∃ await ∈ plan, ¬await.Immediate := by
      simpa using slow
    obtain ⟨system, reachable, running, settled, stuck⟩ :=
      moves_deadlock (TxExecHandle.new plan result) (.inl rfl)
        ReadyList.AllReady.new blocked
    obtain ⟨next, step⟩ := progresses system reachable running settled
    exact stuck next step
  · intro immediate system reachable running _
    exact (Turn.reachable immediate reachable).progresses running

/-- The transaction whose first read is incomplete when it is polled. -/
def Sample.slow : List Await := [.wrapped 1]

/-- Where it ends: the scheduler awaits the drained notifier of a read that only
lacks a poll. -/
def Sample.stuck : System Unit where
  scheduler := .awaiting ⟨⟨some ⟨some 0, 0⟩, [], ()⟩, ⟨[], 1⟩⟩ [⟨0, false, true⟩]
  coreIn := []
  core := .idle
  coreOut := []

/-- The notifier of an incomplete read is never set. -/
theorem pending_read_deadlocks :
    Reachable Sample.slow () Sample.stuck ∧
      (∃ handle, .running handle ∈ Sample.stuck.txs) ∧
      (∀ tx ∈ Sample.stuck.txs, tx.outstanding = 0) ∧
      (∀ next, ¬Step Sample.stuck next) ∧ ¬Progresses Sample.slow () := by
  have reachable : Reachable Sample.slow () Sample.stuck := by
    have round := moves_round
      (show (TxExecState.running (TxExecHandle.new Sample.slow ())).poll =
        .running ⟨⟨some ⟨some 0, 1⟩, [], ()⟩, ⟨[⟨0, false, false⟩], 1⟩⟩ from rfl)
    have parked := round.trans (Step.park Bool.false_ne_true Bool.false_ne_true).moves
    exact parked.tail (.inr rfl)
  obtain ⟨running, settled, stuck⟩ : Deadlock Sample.stuck := deadlock_of_parked rfl
  refine ⟨reachable, running, settled, stuck, ?_⟩
  intro progresses
  obtain ⟨next, step⟩ := progresses Sample.stuck reachable running settled
  exact stuck next step

end System
end Qevm
