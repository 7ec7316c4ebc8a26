import AtomicSwaps.Swap.Maker
import AtomicSwaps.Swap.World

/-!
# What a flow has seen

The reads and events a flow's conclusions rest on, as facts about its exchanges, and one
rule for each operation of the clients that says what its result rests on. What was seen
stays seen: every fact here is kept when the history grows.
-/

namespace AtomicSwaps.Swap

open Semantics
open Lez (AccountId HTLCEscrow LezClient RefundOutcome escrowIn escrowConfirmsOurLock
  buildLockInstruction)

/-- The operations that only read, wait or report. -/
def Op.Quiet : Op → Prop
  | .random | .nowUnix | .sleep | .deadlinePassed | .cancelRequested | .report _ | .lezConnect
  | .getAccount _ | .getAccountBalance _ | .getAccountsNonces _ | .ethConnect | .getHTLC _
  | .selectEth _ | .selectLez .. | .snapshot | .contains _ | .hasInFlight => True
  | .sendTransaction _ | .sendEth _ | .load | .record .. | .markFunded _ | .remove _
  | .quarantine .. | .ops _ | .spawnResume .. | .joinResumed => False

section Facts

variable (client : LezClient) (history : Trace)

/-- An escrow was read for a hashlock. -/
def EscrowRead (hashlock : Bytes32) (escrow : HTLCEscrow) : Prop :=
  ∃ data, ⟨.getAccount (client.escrowPda hashlock), .ok data⟩ ∈ history ∧
    escrowIn hashlock data = .ok (some escrow)

/-- The escrow watcher of a hashlock forwarded an event. -/
def Watched (hashlock : Bytes32) (event : LezHtlcEvent) : Prop :=
  ∃ seconds, ⟨.selectLez hashlock seconds, .event event⟩ ∈ history

/-- The lock of an escrow was submitted. -/
def LockSent (hashlock : Bytes32) (takerId : AccountId) (amount : U128) (timelockSecs : U64) :
    Prop :=
  ∃ nonces txHash, ⟨.sendTransaction (.htlc (client.escrowPda hashlock) nonces
    (buildLockInstruction hashlock takerId amount timelockSecs)), .ok txHash⟩ ∈ history

/-- An escrow was read that is exactly the one asked for. -/
def Confirmed (hashlock : Bytes32) (takerId : AccountId) (amount : U128) (timelockSecs : U64)
    (escrow : HTLCEscrow) : Prop :=
  EscrowRead client history hashlock escrow ∧
    escrowConfirmsOurLock escrow client.accountId takerId amount (secsToMillis timelockSecs) = true

/-- A claim was seen, with the preimage it showed. -/
inductive Revealed (hashlock preimage : Bytes32) : Prop where
  | read {escrow : HTLCEscrow} (read : EscrowRead client history hashlock escrow)
      (claimed : escrow.state = .Claimed)
      (shown : escrow.preimage.bind (Bytes.ofSlice? 32) = some preimage)
  | watched {pda : Lez.AccountId} {shown : List UInt8}
      (watched : Watched history hashlock (.Claimed pda shown))
      (long : Bytes.ofSlice? 32 shown = some preimage)

/-- The escrow was seen refunded. -/
inductive SeenRefunded (hashlock : Bytes32) : Prop where
  | read {escrow : HTLCEscrow} (read : EscrowRead client history hashlock escrow)
      (refunded : escrow.state = .Refunded)
  | watched {pda : Lez.AccountId} (watched : Watched history hashlock (.Refunded pda))

/-- What the maker takes for the end of its ETH leg: a receipt of its claim, a read that
says `CLAIMED`, or the read `claim_eth` begins with saying anything but `OPEN`. -/
inductive Collected (swapId : Bytes32) : Prop where
  | answered {preimage : Bytes32} {receipt : Receipt}
      (answered : ⟨.sendEth (.claim swapId preimage), .ok receipt⟩ ∈ history)
  | claimed {htlc : Eth.HTLC} (read : ⟨.getHTLC swapId, .ok htlc⟩ ∈ history)
      (claimed : htlc.state = .CLAIMED)
  | settled {htlc : Eth.HTLC}
      (read : [⟨.ethConnect, .ok ()⟩, ⟨.getHTLC swapId, .ok htlc⟩] <:+: history)
      (settled : htlc.state ≠ .OPEN)

end Facts

section Growth

variable {client : LezClient} {history later : Trace} {hashlock preimage swapId : Bytes32}
  {escrow : HTLCEscrow} {event : LezHtlcEvent}

theorem EscrowRead.mono (read : EscrowRead client history hashlock escrow)
    (grown : history <+: later) : EscrowRead client later hashlock escrow := by
  obtain ⟨data, member, decoded⟩ := read
  exact ⟨data, grown.subset member, decoded⟩

theorem EscrowRead.append_left {earlier : Trace}
    (read : EscrowRead client history hashlock escrow) :
    EscrowRead client (earlier ++ history) hashlock escrow := by
  obtain ⟨data, member, decoded⟩ := read
  exact ⟨data, List.mem_append_right _ member, decoded⟩

theorem Watched.mono (watched : Watched history hashlock event) (grown : history <+: later) :
    Watched later hashlock event := by
  obtain ⟨seconds, member⟩ := watched
  exact ⟨seconds, grown.subset member⟩

theorem LockSent.mono {takerId : AccountId} {amount : U128} {timelockSecs : U64}
    (sent : LockSent client history hashlock takerId amount timelockSecs)
    (grown : history <+: later) : LockSent client later hashlock takerId amount timelockSecs := by
  obtain ⟨nonces, txHash, member⟩ := sent
  exact ⟨nonces, txHash, grown.subset member⟩

theorem Confirmed.mono {takerId : AccountId} {amount : U128} {timelockSecs : U64}
    (confirmed : Confirmed client history hashlock takerId amount timelockSecs escrow)
    (grown : history <+: later) :
    Confirmed client later hashlock takerId amount timelockSecs escrow :=
  ⟨confirmed.1.mono grown, confirmed.2⟩

theorem Revealed.mono (revealed : Revealed client history hashlock preimage)
    (grown : history <+: later) : Revealed client later hashlock preimage := by
  cases revealed with
  | read read claimed shown => exact .read (read.mono grown) claimed shown
  | watched watched long => exact .watched (watched.mono grown) long

theorem SeenRefunded.mono (seen : SeenRefunded client history hashlock)
    (grown : history <+: later) : SeenRefunded client later hashlock := by
  cases seen with
  | read read refunded => exact .read (read.mono grown) refunded
  | watched watched => exact .watched (watched.mono grown)

theorem Collected.mono (collected : Collected history swapId) (grown : history <+: later) :
    Collected later swapId := by
  cases collected with
  | answered answered => exact .answered (grown.subset answered)
  | claimed read claimed => exact .claimed (grown.subset read) claimed
  | settled read settled => exact .settled (read.trans grown.isInfix) settled

end Growth

section Rules

variable {client : LezClient} {rule : Trace → Op → Prop} {history : Trace}
  {hashlock preimage swapId : Bytes32}
  (quiet : ∀ history op, op.Quiet → rule history op)

include quiet

/-- Reading the escrow. -/
theorem getEscrow_rests {post : Trace → Except SwapError (Option HTLCEscrow) → Prop}
    (found : ∀ later escrow, history <+: later → EscrowRead client later hashlock escrow →
      post later (.ok (some escrow)))
    (absent : ∀ data, escrowIn hashlock data = .ok none →
      post (history ++ [⟨.getAccount (client.escrowPda hashlock), .ok data⟩]) (.ok none))
    (failed : ∀ e error,
      post (history ++ [⟨.getAccount (client.escrowPda hashlock), .error e⟩]) (.error error)) :
    Follows rule post (client.getEscrow hashlock).run history := by
  apply Lez.LezClient.getEscrow_follows (quiet _ (.getAccount _) trivial)
  · intro data result decoded
    cases result with
    | none => exact absent data decoded
    | some escrow => exact found _ escrow (List.prefix_append _ _) ⟨data, by simp, decoded⟩
  · exact fun e => failed e _

/-- Submitting a refund: whatever is answered, it was submitted when allowed. -/
theorem refund_rests {post : Trace → Except SwapError String → Prop}
    (submits : ∀ later nonces, history <+: later →
      rule later (.sendTransaction (.htlc (client.escrowPda hashlock) nonces .Refund)))
    (done : ∀ later result, history <+: later → post later result) :
    Follows rule post (client.refund hashlock).run history := by
  apply Lez.LezClient.sendHtlcInstruction_follows (quiet _ (.getAccountsNonces _) trivial)
  · exact fun nonces => submits _ nonces (List.prefix_append _ _)
  · exact fun e => done _ _ (List.prefix_append _ _)
  · intro nonces answer
    exact done _ _ ((List.prefix_append _ _).trans (List.prefix_append _ _))

/-- The end of a round of `refund_confirmed` goes on or fails. -/
theorem refundPending_rests {progress : Lez.LezClient.RefundProgress}
    {post : Trace → Except SwapError (Lez.LezClient.RefundProgress ⊕ RefundOutcome) → Prop}
    (again : ∀ later, history <+: later → post later (.ok (.inl progress)))
    (failed : ∀ later e, history <+: later → post later (.error e)) :
    Follows rule post (Lez.LezClient.refundPending progress).run history := by
  apply Follows.request_bind (quiet _ .deadlinePassed trivial)
  intro passed
  cases passed with
  | true => exact failed _ _ (List.prefix_append _ _)
  | false =>
      apply Follows.request_bind (quiet _ .sleep trivial)
      exact fun _ => again _ ((List.prefix_append _ _).trans (List.prefix_append _ _))

/-- Refunding ends with an escrow that was read terminal, and submits a refund only of an
escrow that was read locked. -/
theorem refundConfirmed_rests {fuel : Nat}
    {post : Trace → Except SwapError RefundOutcome → Prop}
    (submits : ∀ later nonces escrow, history <+: later →
      EscrowRead client later hashlock escrow → escrow.state = .Locked →
      rule later (.sendTransaction (.htlc (client.escrowPda hashlock) nonces .Refund)))
    (refunded : ∀ later txHash, history <+: later → SeenRefunded client later hashlock →
      post later (.ok (.Refunded txHash)))
    (claimed : ∀ later preimage, history <+: later → Revealed client later hashlock preimage →
      post later (.ok (.ClaimedByTaker preimage)))
    (failed : ∀ later e, history <+: later → post later (.error e)) :
    Follows rule post (client.refundConfirmed fuel hashlock).run history := by
  apply Follows.iterate (fun later _ => history <+: later) _ fuel _ (List.prefix_refl _)
  intro reached progress grown
  apply Follows.run_bind_iff.mpr
  apply getEscrow_rests quiet
  · intro later escrow grown' read
    have grown := grown.trans grown'
    simp only
    cases state : escrow.state with
    | Refunded => exact refunded _ _ grown (.read read state)
    | Claimed =>
        apply Follows.run_bind_iff.mpr
        simp only [Lez.LezClient.claimedOutcome]
        cases shown : escrow.preimage.bind (Bytes.ofSlice? 32) with
        | none => exact failed _ _ grown
        | some preimage => exact claimed _ _ grown (.read read state shown)
    | Locked =>
        simp only
        split
        · apply refundPending_rests quiet
          · exact fun next grown' => grown.trans grown'
          · exact fun next e grown' => failed _ _ (grown.trans grown')
        · apply Follows.run_bind_iff.mpr
          apply Follows.run_attempt_iff.mpr
          apply refund_rests quiet
          · intro next nonces grown'
            exact submits _ nonces escrow (grown.trans grown') (read.mono grown') state
          · intro next result grown'
            cases result with
            | ok txHash =>
                apply refundPending_rests quiet
                · exact fun last grown'' => (grown.trans grown').trans grown''
                · exact fun last e grown'' => failed _ _ ((grown.trans grown').trans grown'')
            | error e =>
                apply refundPending_rests quiet
                · exact fun last grown'' => (grown.trans grown').trans grown''
                · exact fun last e grown'' => failed _ _ ((grown.trans grown').trans grown'')
  · intro data decoded
    have grown := grown.trans (List.prefix_append _ [(⟨.getAccount (client.escrowPda hashlock),
      .ok data⟩ : Exchange interface)])
    simp only
    split
    · exact failed _ _ grown
    · apply refundPending_rests quiet
      · exact fun next grown' => grown.trans grown'
      · exact fun next e grown' => failed _ _ (grown.trans grown')
  · intro e error
    exact failed _ _ (grown.trans (List.prefix_append _ _))

/-- Reading a balance. -/
theorem getBalance_rests {accountId : AccountId} {post : Trace → Except SwapError U128 → Prop}
    (done : ∀ later result, history <+: later → post later result) :
    Follows rule post (Lez.LezClient.getBalance accountId).run history := by
  apply Lez.LezClient.getBalance_follows (quiet _ (.getAccountBalance _) trivial)
  · exact fun balance => done _ _ (List.prefix_append _ _)
  · exact fun e => done _ _ (List.prefix_append _ _)

theorem getBalanceOrZero_rests {accountId : AccountId}
    {post : Trace → Except SwapError U128 → Prop}
    (done : ∀ later balance, history <+: later → post later (.ok balance)) :
    Follows rule post (Lez.LezClient.getBalanceOrZero accountId).run history := by
  apply Follows.run_bind_iff.mpr
  apply Follows.run_attempt_iff.mpr
  apply getBalance_rests quiet
  intro later result grown
  cases result with
  | ok balance => exact done _ _ grown
  | error e => exact done _ _ grown

section Lock

variable {takerId : AccountId} {amount : U128} {timelockSecs : U64}

/-- The end of a round of waiting fails at the deadline, else goes on. -/
theorem awaitNext_rests {error : SwapError} {post : Trace → Except SwapError (Unit ⊕ Unit) → Prop}
    (again : ∀ later, history <+: later → post later (.ok (.inl ())))
    (failed : ∀ later e, history <+: later → post later (.error e)) :
    Follows rule post (do
      if ← deadlinePassed then throw error
      request .sleep
      return .inl () : Flow (Unit ⊕ Unit)).run history := by
  apply Follows.request_bind (quiet _ .deadlinePassed trivial)
  intro passed
  cases passed with
  | true => exact failed _ _ (List.prefix_append _ _)
  | false =>
      apply Follows.request_bind (quiet _ .sleep trivial)
      exact fun _ => again _ ((List.prefix_append _ _).trans (List.prefix_append _ _))

/-- Waiting for the lock ends with the escrow that was asked for. -/
theorem confirmLock_rests {post : Trace → Except SwapError (Unit ⊕ Unit) → Prop}
    (again : ∀ later, history <+: later → post later (.ok (.inl ())))
    (confirmed : ∀ later escrow, history <+: later →
      Confirmed client later hashlock takerId amount timelockSecs escrow →
      post later (.ok (.inr ())))
    (failed : ∀ later e, history <+: later → post later (.error e)) :
    Follows rule post
      (client.confirmLock hashlock takerId amount (secsToMillis timelockSecs) ()).run history := by
  apply Follows.run_bind_iff.mpr
  apply getEscrow_rests quiet
  · intro later escrow grown read
    simp only
    split
    · rename_i exact_match
      exact confirmed _ escrow grown ⟨read, exact_match⟩
    · exact failed _ _ grown
  · intro data decoded
    apply awaitNext_rests quiet
    · exact fun later grown => again _ ((List.prefix_append _ _).trans grown)
    · exact fun later e grown => failed _ _ ((List.prefix_append _ _).trans grown)
  · exact fun e error => failed _ _ (List.prefix_append _ _)

/-- Waiting for the funds. -/
theorem confirmFunding_rests {pda : AccountId}
    {post : Trace → Except SwapError (Unit ⊕ Unit) → Prop}
    (done : ∀ later result, history <+: later → post later result) :
    Follows rule post (Lez.LezClient.confirmFunding pda amount ()).run history := by
  apply Follows.run_bind_iff.mpr
  apply getBalanceOrZero_rests quiet
  intro later balance grown
  simp only
  split
  · exact done _ _ grown
  · apply awaitNext_rests quiet
    · exact fun next grown' => done _ _ (grown.trans grown')
    · exact fun next e grown' => done _ _ (grown.trans grown')

/-- Submitting the transfer. -/
theorem transfer_rests {recipient : AccountId} {post : Trace → Except SwapError String → Prop}
    (submits : ∀ later nonces, history <+: later →
      rule later (.sendTransaction (.transfer recipient nonces amount)))
    (done : ∀ later result, history <+: later → post later result) :
    Follows rule post (client.transfer recipient amount).run history := by
  apply Follows.run_bind_iff.mpr
  apply Follows.request_bind (quiet _ (.getAccountsNonces _) trivial)
  intro answer
  cases answer with
  | error e => exact done _ _ (List.prefix_append _ _)
  | ok nonces =>
      apply Follows.run_pure_iff.mpr
      apply Follows.request_bind (submits _ nonces (List.prefix_append _ _))
      intro answer
      have grown := (List.prefix_append history _).trans (List.prefix_append
        (history ++ [⟨.getAccountsNonces client.accountId, .ok nonces⟩])
        [(⟨.sendTransaction (.transfer recipient nonces amount), answer⟩ : Exchange interface)])
      cases answer with
      | error e => exact done _ _ grown
      | ok txHash => exact done _ _ grown

/-- What `lock` does once the lock was submitted: it funds an escrow only once it was
read exactly as asked for, and returns only after that. -/
theorem fundLock_rests {fuel : Nat} {lockHash : String}
    {post : Trace → Except SwapError String → Prop}
    (sent : LockSent client history hashlock takerId amount timelockSecs)
    (funds : ∀ later nonces escrow, history <+: later →
      LockSent client later hashlock takerId amount timelockSecs →
      Confirmed client later hashlock takerId amount timelockSecs escrow →
      rule later (.sendTransaction (.transfer (client.escrowPda hashlock) nonces amount)))
    (locked : ∀ later escrow, history <+: later →
      Confirmed client later hashlock takerId amount timelockSecs escrow →
      post later (.ok lockHash))
    (failed : ∀ later e, history <+: later → post later (.error e)) :
    Follows rule post (do
      Program.iterate (client.confirmLock hashlock takerId amount (secsToMillis timelockSecs)) fuel ()
      let _ ← client.transfer (client.escrowPda hashlock) amount
      Program.iterate (Lez.LezClient.confirmFunding (client.escrowPda hashlock) amount) fuel ()
      return lockHash : Flow String).run history := by
  apply Follows.run_bind_iff.mpr
  apply Follows.iterate (fun later _ => history <+: later) _ fuel _ (List.prefix_refl _)
  intro reached _ grown
  apply confirmLock_rests quiet
  · exact fun later grown' => grown.trans grown'
  · intro later escrow grown' confirmed
    have grown := grown.trans grown'
    apply Follows.run_bind_iff.mpr
    apply transfer_rests quiet
    · exact fun next nonces grown' => funds _ nonces escrow (grown.trans grown')
        (sent.mono (grown.trans grown')) (confirmed.mono grown')
    · intro next result grown'
      cases result with
      | error e => exact failed _ _ (grown.trans grown')
      | ok _ =>
          apply Follows.run_bind_iff.mpr
          apply Follows.iterate (fun last _ => next <+: last) _ fuel _ (List.prefix_refl _)
          intro last _ grown''
          apply confirmFunding_rests quiet
          intro final result grown'''
          have onward := grown'.trans (grown''.trans grown''')
          match result with
          | .error e => exact failed _ _ (grown.trans onward)
          | .ok (.inl _) => exact grown''.trans grown'''
          | .ok (.inr _) => exact locked _ escrow (grown.trans onward) (confirmed.mono onward)
  · exact fun later e grown' => failed _ _ (grown.trans grown')

/-- `lock` submits the lock, and funds an escrow only once it was read exactly as asked
for; it returns only after that. -/
theorem lock_rests {fuel : Nat} {post : Trace → Except SwapError String → Prop}
    (locks : ∀ later nonces, history <+: later →
      rule later (.sendTransaction (.htlc (client.escrowPda hashlock) nonces
        (buildLockInstruction hashlock takerId amount timelockSecs))))
    (funds : ∀ later nonces escrow, history <+: later →
      LockSent client later hashlock takerId amount timelockSecs →
      Confirmed client later hashlock takerId amount timelockSecs escrow →
      rule later (.sendTransaction (.transfer (client.escrowPda hashlock) nonces amount)))
    (locked : ∀ later escrow txHash, history <+: later →
      Confirmed client later hashlock takerId amount timelockSecs escrow →
      post later (.ok txHash))
    (failed : ∀ later e, history <+: later → post later (.error e)) :
    Follows rule post (client.lock fuel hashlock takerId amount timelockSecs).run history := by
  apply Follows.run_bind_iff.mpr
  apply getEscrow_rests quiet
  · intro later escrow grown read
    apply Follows.run_bind_iff.mpr
    apply getBalanceOrZero_rests quiet
    exact fun next balance grown' => failed _ _ (grown.trans grown')
  · intro data decoded
    have grown := List.prefix_append history
      [(⟨.getAccount (client.escrowPda hashlock), .ok data⟩ : Exchange interface)]
    apply Follows.run_bind_iff.mpr
    apply Lez.LezClient.sendHtlcInstruction_follows (quiet _ (.getAccountsNonces _) trivial)
    · exact fun nonces => locks _ nonces (grown.trans (List.prefix_append _ _))
    · exact fun e => failed _ _ (grown.trans (List.prefix_append _ _))
    · intro nonces answer
      have grown := (grown.trans (List.prefix_append _ _)).trans (List.prefix_append
        (_ ++ [(⟨.getAccountsNonces client.accountId, .ok nonces⟩ : Exchange interface)])
        [(⟨.sendTransaction (.htlc (client.escrowPda hashlock) nonces
          (buildLockInstruction hashlock takerId amount timelockSecs)), answer⟩ :
            Exchange interface)])
      cases answer with
      | error e => exact failed _ _ grown
      | ok txHash =>
          apply fundLock_rests quiet ⟨nonces, txHash, List.mem_concat_self⟩
          · exact fun later nonces escrow grown' => funds _ nonces escrow (grown.trans grown')
          · exact fun later escrow grown' => locked _ escrow _ (grown.trans grown')
          · exact fun later e grown' => failed _ _ (grown.trans grown')
  · exact fun e error => failed _ _ (List.prefix_append _ _)

end Lock

end Rules

end AtomicSwaps.Swap
