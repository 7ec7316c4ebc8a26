import AtomicSwaps.Lez.Client
import AtomicSwaps.Semantics.Expansion

/-!
# The watcher of an escrow

`watch_escrow` of `src/lez/watcher.rs` with the receiver of its events: it polls the escrow PDA of
a hashlock and forwards what it finds to have changed, until the escrow is settled or nobody
receives any more. The warnings about an empty PDA are left out.
-/

namespace AtomicSwaps.Lez

open Semantics Swap

/-- What the watcher of an escrow asks the sequencer, and the receiver of its events. -/
inductive EscrowWatchOp where
  | client (op : Op)
  | send (event : LezHtlcEvent)

/-- The sequencer and the receiver; `send` tells whether the receiver is still there. -/
def EscrowWatch : Interface where
  Op := EscrowWatchOp
  Answer
    | .client op => Answer op
    | .send _ => Bool

/-- The operations of the client among those of the watcher. -/
def ofClient : Embedding interface EscrowWatch := ⟨.client, fun _ answer => answer⟩

/-- A fallible program of the watcher. -/
abbrev EscrowWatchM := ExceptT SwapError (Program EscrowWatch)

/-- A call of the client. -/
def clientCall {α : Type} (flow : Flow α) : EscrowWatchM α :=
  ExceptT.mk (flow.run.embed ofClient)

/-- The wait between two polls. -/
def pollPause : EscrowWatchM Unit := Program.request (I := EscrowWatch) (.client .sleep)

/-- The end of a turn that read an escrow. -/
def sendRead (pda : AccountId) (lastState : Option HTLCState) (escrow : HTLCEscrow)
    (balance : U128) : EscrowWatchM (Option HTLCState ⊕ Unit) := do
  match watchRead pda lastState escrow balance with
  | some event =>
      let delivered : Bool ← Program.request (I := EscrowWatch) (.send event)
      if !delivered then return .inr ()
      if escrow.state ≠ .Locked then return .inr ()
      pollPause
      return .inl (some escrow.state)
  | none =>
      pollPause
      return .inl lastState

namespace LezClient

variable (client : LezClient) (hashlock : Bytes32)

/-- One turn of the loop, given the state that was forwarded last. -/
def watchTurn (lastState : Option HTLCState) : EscrowWatchM (Option HTLCState ⊕ Unit) := do
  match ← clientCall (Program.attempt (client.getEscrow hashlock)) with
  | .ok (some escrow) =>
      -- the balance is only asked for where `watchRead` looks at it
      if escrow.state = .Locked ∧ lastState = none then
        let balance ← clientCall (getBalanceOrZero (client.escrowPda hashlock))
        sendRead (client.escrowPda hashlock) lastState escrow balance
      else sendRead (client.escrowPda hashlock) lastState escrow 0
  | .ok none =>
      pollPause
      return .inl lastState
  | .error _ =>
      pollPause
      return .inl lastState

/-- `watch_escrow`. -/
def escrowFeed (fuel : Nat) : EscrowWatchM Unit :=
  Program.iterate (client.watchTurn hashlock) fuel none

end LezClient

/-- What is sent with an exchange. -/
def escrowSends : Exchange EscrowWatch → Option LezHtlcEvent
  | ⟨.send event, true⟩ => some event
  | _ => none

@[simp] theorem escrowSends_client (op : Op) (answer : Answer op) :
    escrowSends ⟨.client op, answer⟩ = none := rfl

@[simp] theorem escrowSends_send (event : LezHtlcEvent) :
    escrowSends ⟨.send event, true⟩ = some event := rfl

/-- An escrow is announced to be settled. -/
inductive Terminal (pda : AccountId) : LezHtlcEvent → Prop where
  | claimed (preimage : List UInt8) : Terminal pda (.Claimed pda preimage)
  | refunded : Terminal pda (.Refunded pda)

/-- What a watcher may have announced: a lock, or nothing, and then that the escrow is settled, or
nothing. -/
inductive Announced (pda : AccountId) : List LezHtlcEvent → Prop where
  | nothing : Announced pda []
  | locked : Announced pda [.Locked pda]
  | settled {event : LezHtlcEvent} (terminal : Terminal pda event) : Announced pda [event]
  | both {event : LezHtlcEvent} (terminal : Terminal pda event) :
      Announced pda [.Locked pda, event]

/-! ## What it announces, in order -/

/-- What the loop has forwarded last, and all that it has announced while it goes on. -/
inductive Unsettled (pda : AccountId) : Option HTLCState → List LezHtlcEvent → Prop where
  | nothing : Unsettled pda none []
  | locked : Unsettled pda (some .Locked) [.Locked pda]

variable {pda : AccountId} {lastState : Option HTLCState} {escrow : HTLCEscrow} {balance : U128}
  {sent : List LezHtlcEvent} {event : LezHtlcEvent}

/-- What is forwarded tells of a state that was not forwarded last. -/
theorem watchRead_cases (read : watchRead pda lastState escrow balance = some event) :
    lastState ≠ some escrow.state ∧
      (escrow.state = .Locked ∧ event = .Locked pda ∨
        escrow.state = .Claimed ∧ event = .Claimed pda (escrow.preimage.getD []) ∨
        escrow.state = .Refunded ∧ event = .Refunded pda) := by
  unfold watchRead at read
  split at read
  · cases read
  split at read
  · cases read
  rename_i changed
  refine ⟨changed, ?_⟩
  cases state : escrow.state with
  | Locked => exact .inl ⟨rfl, by simpa [state] using read.symm⟩
  | Claimed => exact .inr (.inl ⟨rfl, by simpa [state] using read.symm⟩)
  | Refunded => exact .inr (.inr ⟨rfl, by simpa [state] using read.symm⟩)

/-- The end of an escrow may be announced as long as the loop goes on. -/
theorem Unsettled.ends (unsettled : Unsettled pda lastState sent) (terminal : Terminal pda event) :
    Announced pda (sent ++ [event]) := by
  cases unsettled with
  | nothing => exact .settled terminal
  | locked => exact .both terminal

/-- What is forwarded may come next, and the loop goes on from a lock only. -/
theorem Unsettled.next (unsettled : Unsettled pda lastState sent)
    (read : watchRead pda lastState escrow balance = some event) :
    Announced pda (sent ++ [event]) ∧
      (escrow.state = .Locked → Unsettled pda (some escrow.state) (sent ++ [event])) := by
  obtain ⟨changed, ⟨state, rfl⟩ | ⟨state, rfl⟩ | ⟨state, rfl⟩⟩ := watchRead_cases read
  · rw [state] at changed ⊢
    cases unsettled with
    | nothing => exact ⟨.locked, fun _ => .locked⟩
    | locked => exact absurd rfl changed
  · exact ⟨unsettled.ends (.claimed _), by simp [state]⟩
  · exact ⟨unsettled.ends .refunded, by simp [state]⟩

/-- Only announce what may come next. -/
def Orderly (pda : AccountId) (history : History EscrowWatch) (op : EscrowWatchOp) : Prop :=
  ∀ answer event, escrowSends ⟨op, answer⟩ = some event →
    Announced pda (history.filterMap escrowSends ++ [event])

/-- The loop goes on after a history. -/
def Unsettling (pda : AccountId) (history : History EscrowWatch) (lastState : Option HTLCState) :
    Prop := Unsettled pda lastState (history.filterMap escrowSends)

/-- What a turn leaves: a history after which the loop goes on, or the end of the loop. -/
def LeftOff (pda : AccountId) (later : History EscrowWatch) :
    Except SwapError (Option HTLCState ⊕ Unit) → Prop
  | .ok (.inl next) => Unsettling pda later next
  | _ => True

variable {history : History EscrowWatch}

theorem orderly_client (op : Op) : Orderly pda history (.client op) := by
  intro answer event sends
  cases sends

theorem Unsettling.client {op : Op} (unsettling : Unsettling pda history lastState)
    (answer : Answer op) :
    Unsettling pda (history ++ [⟨.client op, answer⟩]) lastState := by
  simpa [Unsettling, List.filterMap_cons] using unsettling

/-- A call of the client announces nothing. -/
theorem clientCall_follows {α : Type} {flow : Flow α}
    (unsettling : Unsettling pda history lastState) :
    Follows (Orderly pda) (fun later _ => Unsettling pda later lastState) (clientCall flow).run
      history := by
  unfold clientCall
  rw [ExceptT.run_mk]
  generalize flow.run = program
  induction program generalizing history with
  | pure value => exact unsettling
  | call op next ih => exact ⟨orderly_client op, fun answer => ih answer (unsettling.client answer)⟩
  | hang => trivial

theorem pollPause_follows (unsettling : Unsettling pda history lastState) :
    Follows (Orderly pda) (LeftOff pda)
      (do pollPause; return .inl lastState : EscrowWatchM (Option HTLCState ⊕ Unit)).run history :=
  .request_bind (orderly_client .sleep)
    fun answer => @Unsettling.client _ _ _ .sleep unsettling answer

theorem sendRead_follows (unsettling : Unsettling pda history lastState) :
    Follows (Orderly pda) (LeftOff pda) (sendRead pda lastState escrow balance).run history := by
  unfold sendRead
  split
  · rename_i event read
    obtain ⟨announced, goesOn⟩ := unsettling.next read
    refine .request_bind ?_ fun answer => ?_
    · intro answer other sends
      cases answer with
      | false => cases sends
      | true =>
          cases sends
          exact announced
    · cases answer with
      | false => trivial
      | true =>
          by_cases locked : escrow.state = .Locked
          · have later : Unsettling pda (history ++ [⟨.send event, true⟩]) (some escrow.state) := by
              simpa [Unsettling, List.filterMap_cons] using goesOn locked
            simpa [locked] using pollPause_follows later
          · simp only [locked, ne_eq, not_false_eq_true, if_true]
            trivial
  · exact pollPause_follows unsettling

variable {client : LezClient} {hashlock : Bytes32}

theorem watchTurn_follows (unsettling : Unsettling (client.escrowPda hashlock) history lastState) :
    Follows (Orderly (client.escrowPda hashlock)) (LeftOff (client.escrowPda hashlock))
      (client.watchTurn hashlock lastState).run history := by
  unfold LezClient.watchTurn
  apply Follows.run_bind_iff.mpr
  apply (clientCall_follows unsettling).weaken
  intro later result unsettling
  match result with
  | .error e => trivial
  | .ok (.error e) | .ok (.ok none) => exact pollPause_follows unsettling
  | .ok (.ok (some escrow)) =>
      simp only
      split
      · apply Follows.run_bind_iff.mpr
        apply (clientCall_follows unsettling).weaken
        intro last balance unsettling
        cases balance with
        | error e => trivial
        | ok balance => exact sendRead_follows unsettling
      · exact sendRead_follows unsettling

/-- Whatever the sequencer answers, the watcher announces its escrow in order. -/
theorem escrowFeed_follows {fuel : Nat} :
    Follows (Orderly (client.escrowPda hashlock)) (fun _ _ => True)
      (client.escrowFeed hashlock fuel).run [] := by
  apply Follows.iterate (Unsettling (client.escrowPda hashlock))
  · intro history lastState unsettling
    apply (watchTurn_follows unsettling).weaken
    intro later result left
    match result with
    | .error e | .ok (.inr value) => trivial
    | .ok (.inl next) => exact left
  · exact .nothing

end AtomicSwaps.Lez
