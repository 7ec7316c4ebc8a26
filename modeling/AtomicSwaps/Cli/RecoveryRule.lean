import AtomicSwaps.Cli.MakerLoop
import AtomicSwaps.Swap.MakerRule

/-!
# What recovery does for a reason

For every operation of `reconcile` and `resume_swap` that changes something, what was
seen by then: an entry is cleared once its escrow was seen settled, quarantined after
five reads that found nothing or between two reads of an escrow that is expired and not
paid for, and resumed or refunded only with its escrow read locked.
-/

namespace AtomicSwaps.Cli

open Semantics Swap
open Lez (AccountId HTLCEscrow LezClient RefundOutcome escrowIn)
open Eth

/-- This many reads of an escrow that found nothing, with only pauses between them. -/
inductive AbsentReads (client : LezClient) (hashlock : Bytes32) : Nat → Trace → Prop where
  | none : AbsentReads client hashlock 0 []
  | read {count : Nat} {reads : Trace} {data : List UInt8}
      (earlier : AbsentReads client hashlock count reads)
      (absent : escrowIn hashlock data = .ok none) :
      AbsentReads client hashlock (count + 1)
        (reads ++ [⟨.getAccount (client.escrowPda hashlock), .ok data⟩])
  | sleep {count : Nat} {reads : Trace} (earlier : AbsentReads client hashlock count reads) :
      AbsentReads client hashlock count (reads ++ [⟨.sleep, ()⟩])

/-- An entry of the journal as it was when recovery began. -/
def Snapshotted (history : Trace) (entry : InFlightSwap) : Prop :=
  ∃ entries, ⟨.snapshot, entries⟩ ∈ history ∧ entry ∈ entries

/-- All reads of a balance found less than an amount, and one of them found something. -/
def BalancesBelow (pda : AccountId) (amount : U128) (reads : Trace) : Prop :=
  (∃ balance, ⟨.getAccountBalance pda, .ok balance⟩ ∈ reads) ∧
    ∀ balance, ⟨.getAccountBalance pda, .ok balance⟩ ∈ reads → balance < amount

/-- What a journal entry is quarantined for. -/
inductive Abandoned (client : LezClient) (history : Trace) (key : String) : Prop where
  | retired {hashlock : Bytes32} {entry : InFlightSwap} {earlier reads : Trace}
      (parsed : parseHashlockHex key = some hashlock)
      (journaled : Snapshotted history entry) (keyed : entry.hashlock = key)
      (unlocked : entry.stage = .PreLock) (split : history = earlier ++ reads)
      (absent : AbsentReads client hashlock maxReads reads)
  | wedge {hashlock : Bytes32} {earlier between later : Trace} {pre post : HTLCEscrow} {now : U64}
      (parsed : parseHashlockHex key = some hashlock)
      (split : history = earlier ++ between ++ later)
      (before : EscrowRead client earlier hashlock pre) (locked : pre.state = .Locked)
      (balances : BalancesBelow (client.escrowPda hashlock) post.amount between)
      (after : EscrowRead client later hashlock post) (still : post.state = .Locked)
      (read : ⟨.nowUnix, now⟩ ∈ later) (expired : post.timelock ≤ now * 1000)

/-- What the operations of `reconcile` and `resume_swap` rest on. -/
def Recovers (client : LezClient) (history : Trace) : Op → Prop
  | .markFunded key => ∃ hashlock escrow entry, parseHashlockHex key = some hashlock ∧
      EscrowRead client history hashlock escrow ∧ Snapshotted history entry ∧
      entry.hashlock = key ∧ entry.stage = .PreLock
  | .remove key => Cleared client history key
  | .ops (.completed key) => Recovered client history key
  | .quarantine key _ => Abandoned client history key
  | .spawnResume entry hashlock timelockMs => Snapshotted history entry ∧
      parseHashlockHex entry.hashlock = some hashlock ∧
      ∃ escrow, EscrowRead client history hashlock escrow ∧ escrow.state = .Locked ∧
        timelockMs = escrow.timelock
  | .sendTransaction (.htlc escrowPda _ .Refund) => ∃ hashlock escrow,
      escrowPda = client.escrowPda hashlock ∧ EscrowRead client history hashlock escrow ∧
      escrow.state = .Locked
  | .sendTransaction _ => False
  | .sendEth call => ∃ hashlock swapId preimage, call = .claim swapId preimage ∧
      Revealed client history hashlock preimage
  | .load | .record .. | .joinResumed => False
  | _ => True

section Growth

variable {client : LezClient} {hashlock : Bytes32} {history later : Trace}

theorem Snapshotted.mono {entry : InFlightSwap} (journaled : Snapshotted history entry)
    (grown : history <+: later) : Snapshotted later entry := by
  obtain ⟨entries, member, inside⟩ := journaled
  exact ⟨entries, grown.subset member, inside⟩

/-- An entry of the snapshot names its swap id. -/
theorem Snapshotted.journaled {entry : InFlightSwap} (journaled : Snapshotted history entry) :
    Journaled history entry.hashlock entry.swapId := by
  obtain ⟨entries, member, inside⟩ := journaled
  exact .loaded member inside rfl rfl

theorem recovers_quiet (history : Trace) (op : Op) (quiet : op.Quiet) :
    Recovers client history op := by
  cases op <;> first | exact quiet.elim | trivial

end Growth

/-- A balance is the highest of those that were read. -/
def Highest (pda : AccountId) (highest : Option U128) (reads : Trace) : Prop :=
  (∀ balance, ⟨.getAccountBalance pda, .ok balance⟩ ∈ reads → ∃ top ∈ highest, balance ≤ top) ∧
    ∀ top ∈ highest, ∃ balance, ⟨.getAccountBalance pda, .ok balance⟩ ∈ reads

/-- The higher one of the highest balance so far and another one. -/
def higher (highest : Option U128) (balance : U128) : U128 :=
  match highest with
  | none => balance
  | some current => if current ≤ balance then balance else current

/-- Another balance is read. -/
theorem Highest.read {pda : AccountId} {highest : Option U128} {reads : Trace}
    (so_far : Highest pda highest reads) (balance : U128) :
    Highest pda (some (higher highest balance))
      (reads ++ [⟨.getAccountBalance pda, .ok balance⟩]) := by
  refine ⟨fun other member => ⟨_, rfl, ?_⟩, fun _ _ => ⟨balance, List.mem_concat_self⟩⟩
  have bounded : other = balance ∨ ∃ top ∈ highest, other ≤ top := by
    rcases List.mem_append.mp member with earlier | last
    · exact .inr (so_far.1 other earlier)
    · simp only [List.mem_singleton, Exchange.mk.injEq, heq_eq_eq, Except.ok.injEq,
        true_and] at last
      exact .inl last
  cases highest with
  | none =>
      rcases bounded with rfl | ⟨top, member, -⟩
      · exact BitVec.le_refl _
      · cases member
  | some current =>
      simp only [higher]
      rcases bounded with rfl | ⟨top, member, below⟩
      · split
        · exact BitVec.le_refl _
        · rename_i above
          exact BitVec.le_of_lt (BitVec.not_le.mp above)
      · cases member
        split
        · rename_i below'
          exact BitVec.le_trans below below'
        · exact below

/-- Another exchange says nothing of the balance. -/
theorem Highest.skip {pda : AccountId} {highest : Option U128} {reads : Trace}
    {exchange : Exchange interface} (so_far : Highest pda highest reads)
    (other : ∀ balance, exchange ≠ ⟨.getAccountBalance pda, .ok balance⟩) :
    Highest pda highest (reads ++ [exchange]) := by
  refine ⟨fun balance member => ?_, fun top member => ?_⟩
  · rcases List.mem_append.mp member with earlier | last
    · exact so_far.1 balance earlier
    · exact absurd (List.mem_singleton.mp last).symm (other balance)
  · obtain ⟨balance, inside⟩ := so_far.2 top member
    exact ⟨balance, List.mem_append_left _ inside⟩

section Reads

variable {client : LezClient} {rule : Trace → Op → Prop} {history : Trace} {hashlock : Bytes32}
  (quiet : ∀ history op, op.Quiet → rule history op)

include quiet

/-- The reads that are left: an escrow, nothing at all, or nothing that is certain. -/
theorem readEscrowLeft_rests {post : Trace → Except SwapError BoundedEscrowRead → Prop}
    (found : ∀ middle escrow anyErr absentReads, EscrowRead client middle hashlock escrow →
      post (history ++ middle) (.ok ⟨some escrow, anyErr, absentReads⟩))
    (absent : ∀ middle, AbsentReads client hashlock maxReads middle →
      post (history ++ middle) (.ok ⟨none, false, maxReads⟩))
    (unknown : ∀ middle absentReads, post (history ++ middle) (.ok ⟨none, true, absentReads⟩))
    (left : Nat) : ∀ middle anyErr absentReads,
      (anyErr = false → AbsentReads client hashlock absentReads middle ∧
        absentReads + left = maxReads) →
      Follows rule post (readEscrowLeft client hashlock left anyErr absentReads).run
        (history ++ middle) := by
  induction left with
  | zero =>
      intro middle anyErr absentReads so_far
      cases anyErr with
      | true => exact unknown middle absentReads
      | false =>
          obtain ⟨reads, rfl⟩ := so_far rfl
          exact absent middle reads
  | succ left ih =>
      intro middle anyErr absentReads so_far
      apply Follows.run_bind_iff.mpr
      apply Follows.run_attempt_iff.mpr
      apply Lez.LezClient.getEscrow_follows (quiet _ (.getAccount _) trivial)
      · intro data result decoded
        rw [List.append_assoc]
        cases result with
        | some escrow =>
            apply found
            exact ⟨data, List.mem_concat_self, decoded⟩
        | none =>
            have next : anyErr = false → AbsentReads client hashlock (absentReads + 1)
                (middle ++ [⟨.getAccount (client.escrowPda hashlock), .ok data⟩]) ∧
                  absentReads + 1 + left = maxReads := by
              intro certain
              obtain ⟨reads, counted⟩ := so_far certain
              exact ⟨reads.read decoded, by omega⟩
            simp only
            split
            · apply Follows.request_bind (quiet _ .sleep trivial)
              intro _
              rw [List.append_assoc]
              apply ih
              exact fun certain => ⟨(next certain).1.sleep, (next certain).2⟩
            · exact ih _ _ _ next
      · intro e
        rw [List.append_assoc]
        simp only
        split
        · apply Follows.request_bind (quiet _ .sleep trivial)
          intro _
          rw [List.append_assoc]
          exact ih _ _ _ (by simp)
        · exact ih _ _ _ (by simp)

/-- The bounded reads of an escrow. -/
theorem readEscrowBounded_rests {post : Trace → Except SwapError BoundedEscrowRead → Prop}
    (found : ∀ middle escrow anyErr absentReads, EscrowRead client middle hashlock escrow →
      post (history ++ middle) (.ok ⟨some escrow, anyErr, absentReads⟩))
    (absent : ∀ middle, AbsentReads client hashlock maxReads middle →
      post (history ++ middle) (.ok ⟨none, false, maxReads⟩))
    (unknown : ∀ middle absentReads, post (history ++ middle) (.ok ⟨none, true, absentReads⟩)) :
    Follows rule post (readEscrowBounded client hashlock).run history := by
  have walk := readEscrowLeft_rests quiet found absent unknown maxReads [] false 0
    (fun _ => ⟨.none, by simp⟩)
  rw [List.append_nil] at walk
  exact walk

/-- The balance reads that are left. -/
theorem maxBalanceLeft_rests {pda : AccountId} {enough : U128}
    {post : Trace → Except SwapError (Option U128) → Prop}
    (done : ∀ middle highest, Highest pda highest middle → post (history ++ middle) (.ok highest))
    (left : Nat) : ∀ middle highest, Highest pda highest middle →
      Follows rule post (maxBalanceLeft pda enough left highest).run (history ++ middle) := by
  induction left with
  | zero => exact fun middle highest so_far => done middle highest so_far
  | succ left ih =>
      intro middle highest so_far
      apply Follows.run_bind_iff.mpr
      apply Follows.run_attempt_iff.mpr
      apply Lez.LezClient.getBalance_follows (quiet _ (.getAccountBalance _) trivial)
      · intro balance
        rw [List.append_assoc]
        have top := so_far.read balance
        simp only [Follows.run_ite_iff]
        refine ⟨fun _ => done _ _ top, fun _ => ⟨fun _ => ?_, fun _ => ih _ _ top⟩⟩
        apply Follows.request_bind (quiet _ .sleep trivial)
        intro _
        rw [List.append_assoc]
        exact ih _ _ (top.skip (by simp))
      · intro e
        rw [List.append_assoc]
        have same : Highest pda highest (middle ++
            [(⟨.getAccountBalance pda, .error e⟩ : Exchange interface)]) := so_far.skip (by simp)
        simp only
        split
        · apply Follows.request_bind (quiet _ .sleep trivial)
          intro _
          rw [List.append_assoc]
          exact ih _ _ (same.skip (by simp))
        · exact ih _ _ same

/-- The bounded reads of a balance. -/
theorem maxEscrowBalance_rests {pda : AccountId} {enough : U128}
    {post : Trace → Except SwapError (Option U128) → Prop}
    (done : ∀ middle highest, Highest pda highest middle → post (history ++ middle) (.ok highest)) :
    Follows rule post (maxEscrowBalance pda enough).run history := by
  have walk : Follows rule post (maxBalanceLeft pda enough maxReads none).run (history ++ []) :=
    maxBalanceLeft_rests quiet done maxReads [] none (by simp [Highest])
  rw [List.append_nil] at walk
  exact walk

/-- What `claim_eth` takes for the end of the ETH leg of a swap id: that it cannot be
read, or that its ETH was collected. -/
def EthDone (history : Trace) (text : String) : Prop :=
  parseSwapId text = none ∨ ∃ swapId, parseSwapId text = some swapId ∧ Collected history swapId

/-- `claim_eth`, once the HTLC was not seen to be terminal. -/
theorem claimOpenEth_rests {swapId preimage : Bytes32}
    {post : Trace → Except SwapError EthClaimOutcome → Prop}
    (claims : rule history (.sendEth (.claim swapId preimage)))
    (done : ∀ later outcome, history <+: later → (outcome ≠ .Failed → Collected later swapId) →
      post later (.ok outcome)) :
    Follows rule post (claimOpenEth swapId preimage).run history := by
  apply Follows.run_bind_iff.mpr
  apply Follows.run_attempt_iff.mpr
  apply EthClient.claim_follows claims
  intro answer
  have grown := List.prefix_append history
    [(⟨.sendEth (.claim swapId preimage), answer⟩ : Exchange interface)]
  cases answer with
  | ok receipt => exact done _ .Claimed grown fun _ => .answered List.mem_concat_self
  | error e =>
      apply Follows.run_bind_iff.mpr
      apply Follows.run_attempt_iff.mpr
      apply EthClient.getHtlc_follows (quiet _ (.getHTLC _) trivial)
      · intro htlc
        have grown := grown.trans (List.prefix_append _
          [(⟨.getHTLC swapId, .ok htlc⟩ : Exchange interface)])
        apply Follows.run_pure_iff.mpr
        split
        · rename_i claimed
          exact done _ .AlreadyTerminal grown fun _ => .claimed List.mem_concat_self claimed
        · exact done _ .Failed grown fun failed => absurd rfl failed
      · intro e
        exact done _ .Failed (grown.trans (List.prefix_append _ _)) fun failed => absurd rfl failed

/-- `claim_eth` says that the ETH leg has ended only where it takes it to have ended. -/
theorem claimEth_rests {text : String} {preimage : Bytes32}
    {post : Trace → Except SwapError EthClaimOutcome → Prop}
    (claims : ∀ later swapId, history <+: later → rule later (.sendEth (.claim swapId preimage)))
    (done : ∀ later outcome, history <+: later → (outcome ≠ .Failed → EthDone later text) →
      post later (.ok outcome)) :
    Follows rule post (claimEth text preimage).run history := by
  unfold claimEth
  cases readable : parseSwapId text with
  | none => exact done _ .AlreadyTerminal (List.prefix_refl _) fun _ => .inl readable
  | some swapId =>
      apply Follows.request_bind (quiet _ .ethConnect trivial)
      intro connected
      cases connected with
      | error e =>
          exact done _ .Failed (List.prefix_append _ _) fun failed => absurd rfl failed
      | ok =>
      have grown := List.prefix_append history [(⟨.ethConnect, .ok ()⟩ : Exchange interface)]
      have opened : ∀ later, history <+: later →
          Follows rule post (claimOpenEth swapId preimage).run later := by
        intro later grown
        apply claimOpenEth_rests quiet (claims _ _ grown)
        exact fun next outcome grown' collected => done _ _ (grown.trans grown')
          fun ended => .inr ⟨swapId, readable, collected ended⟩
      apply Follows.run_bind_iff.mpr
      apply Follows.run_attempt_iff.mpr
      apply EthClient.getHtlc_follows (quiet _ (.getHTLC _) trivial)
      · intro htlc
        have grown := grown.trans (List.prefix_append _
          [(⟨.getHTLC swapId, .ok htlc⟩ : Exchange interface)])
        simp only
        split
        · rename_i settled
          refine done _ .AlreadyTerminal grown fun _ => .inr ⟨swapId, readable, ?_⟩
          exact .settled ⟨history, [], by simp⟩ settled
        · exact opened _ grown
      · intro e
        exact opened _ (grown.trans (List.prefix_append _ _))

end Reads

section Entries

variable {client : LezClient} {history : Trace} {entry : InFlightSwap} {hashlock : Bytes32}
  {fuel : Nat}

/-- Where the ETH leg of a journaled swap has ended, the swap is recovered. -/
theorem Recovered.of_entry {preimage : Bytes32} (journaled : Snapshotted history entry)
    (parsed : parseHashlockHex entry.hashlock = some hashlock)
    (revealed : Revealed client history hashlock preimage)
    (ended : EthDone history entry.swapId) : Recovered client history entry.hashlock := by
  rcases ended with unreadable | ⟨swapId, readable, collected⟩
  · exact .unreadable parsed revealed journaled.journaled unreadable
  · exact .collected parsed revealed journaled.journaled readable collected

/-- Dropping an entry and recording its outcome. -/
theorem drop_rests (call : OpsCall) (cleared : Cleared client history entry.hashlock)
    (recorded : ∀ later, history <+: later → Recovers client later (.ops call)) :
    Follows (Recovers client) (fun later _ => history <+: later)
      (drop entry.hashlock call).run history := by
  have grown := List.prefix_append history [(⟨.remove entry.hashlock, ()⟩ : Exchange interface)]
  apply Follows.request_bind cleared
  intro _
  exact ⟨recorded _ grown, fun _ => grown.trans (List.prefix_append _ _)⟩

/-- Claiming the ETH of an entry, and dropping it where nothing is left to do. -/
theorem claimAndDrop_rests {preimage : Bytes32} (journaled : Snapshotted history entry)
    (parsed : parseHashlockHex entry.hashlock = some hashlock)
    (revealed : Revealed client history hashlock preimage) :
    Follows (Recovers client) (fun later _ => history <+: later)
      (claimAndDrop entry preimage).run history := by
  apply Follows.run_bind_iff.mpr
  apply claimEth_rests recovers_quiet
  · exact fun later swapId grown => ⟨hashlock, swapId, preimage, rfl, revealed.mono grown⟩
  · intro later outcome grown ended
    simp only [Follows.run_ite_iff]
    refine ⟨fun kept => ?_, fun _ => grown⟩
    have finished : outcome ≠ .Failed := by
      rintro rfl
      simp [retainAfterEthClaim] at kept
    have recovered : ∀ next, later <+: next → Recovered client next entry.hashlock := by
      intro next grown'
      apply Recovered.of_entry (journaled.mono (grown.trans grown')) parsed
        (revealed.mono (grown.trans grown'))
      rcases ended finished with unreadable | ⟨swapId, readable, collected⟩
      · exact .inl unreadable
      · exact .inr ⟨swapId, readable, collected.mono grown'⟩
    apply (drop_rests (.completed entry.hashlock) (.recovered (recovered _ (List.prefix_refl _)))
      fun next grown' => recovered next grown').weaken
    exact fun next _ grown' => grown.trans grown'

/-- Recovering the ETH of a claimed escrow. -/
theorem recoverClaimedEscrow_rests {escrow : HTLCEscrow} (journaled : Snapshotted history entry)
    (parsed : parseHashlockHex entry.hashlock = some hashlock)
    (read : EscrowRead client history hashlock escrow) (claimed : escrow.state = .Claimed) :
    Follows (Recovers client) (fun later _ => history <+: later)
      (recoverClaimedEscrow entry escrow).run history := by
  unfold recoverClaimedEscrow
  cases shown : escrow.preimage.bind (Bytes.ofSlice? 32) with
  | some preimage => exact claimAndDrop_rests journaled parsed (.read read claimed shown)
  | none => exact drop_rests _ (.malformed parsed read claimed shown) fun _ _ => trivial

/-- Quarantining an entry and recording that it failed. -/
theorem quarantine_rests {reason : String} {code : FailureCode}
    (abandoned : Abandoned client history entry.hashlock) :
    Follows (Recovers client) (fun later _ => history <+: later)
      (quarantine entry.hashlock reason code).run history := by
  apply Follows.request_bind abandoned
  intro _
  exact ⟨trivial, fun _ => (List.prefix_append _ _).trans (List.prefix_append _ _)⟩

/-- Refunding an expired escrow, unless the taker still claims. -/
theorem refundEntry_rests (journaled : Snapshotted history entry)
    (parsed : parseHashlockHex entry.hashlock = some hashlock) :
    Follows (Recovers client) (fun later _ => history <+: later)
      (refundEntry client fuel entry hashlock).run history := by
  apply Follows.run_bind_iff.mpr
  apply Follows.run_attempt_iff.mpr
  apply refundConfirmed_rests recovers_quiet
  · exact fun later nonces escrow _ read locked => ⟨hashlock, escrow, rfl, read, locked⟩
  · intro later txHash grown seen
    apply (drop_rests (.refunded entry.hashlock) (.refunded parsed seen) fun _ _ => trivial).weaken
    exact fun next _ grown' => grown.trans grown'
  · intro later preimage grown revealed
    apply (claimAndDrop_rests (journaled.mono grown) parsed revealed).weaken
    exact fun next _ grown' => grown.trans grown'
  · exact fun later e grown => grown

/-- A wedge is quarantined between two reads of a locked escrow, expired and not paid for. -/
theorem classifyWedgeReread_quarantine {pre post : Option Lez.HTLCState} {balance : Option U128}
    {nowMs timelockMs : U64} {amount : U128}
    (decided : classifyWedgeReread pre balance post nowMs timelockMs amount = .Quarantine) :
    pre = some .Locked ∧ post = some .Locked ∧
      ∃ top, balance = some top ∧ timelockMs ≤ nowMs ∧ top < amount := by
  unfold classifyWedgeReread at decided
  split at decided
  · cases decided
  · split at decided
    · cases decided
    · split at decided
      · split at decided
        · rename_i wedge
          simp only [isPartialLockWedge, decide_true, Bool.true_and, Bool.and_eq_true,
            decide_eq_true_eq] at wedge
          exact ⟨rfl, rfl, _, rfl, wedge⟩
        · cases decided
      · cases decided

/-- A wedge is dropped on a read that found the refund. -/
theorem classifyWedgeReread_dropped {pre post : Option Lez.HTLCState} {balance : Option U128}
    {nowMs timelockMs : U64} {amount : U128}
    (decided : classifyWedgeReread pre balance post nowMs timelockMs amount = .Dropped) :
    post = some .Refunded := by
  unfold classifyWedgeReread at decided
  split at decided
  · cases decided
  · split at decided
    · rename_i refunded
      exact refunded
    · split at decided
      · split at decided <;> cases decided
      · cases decided

/-- The bounded reads of an escrow, where nothing but what they found matters. -/
theorem readEscrowBounded_found {rule : Trace → Op → Prop}
    (quiet : ∀ history op, op.Quiet → rule history op)
    {post : Trace → Except SwapError BoundedEscrowRead → Prop}
    (done : ∀ middle read, (∀ escrow, read.escrow = some escrow →
      EscrowRead client middle hashlock escrow) → post (history ++ middle) (.ok read)) :
    Follows rule post (readEscrowBounded client hashlock).run history := by
  apply readEscrowBounded_rests quiet
  · intro middle escrow anyErr absentReads read
    apply done
    rintro _ ⟨⟩
    exact read
  · exact fun middle _ => done _ _ (by simp)
  · exact fun middle absentReads => done _ _ (by simp)

/-- The decision between two reads of a wedge candidate. -/
theorem resolveWedge_rests {escrow : HTLCEscrow} {balance : U128}
    (journaled : Snapshotted history entry)
    (parsed : parseHashlockHex entry.hashlock = some hashlock) :
    Follows (Recovers client) (fun later _ => history <+: later)
      (resolveWedge client entry hashlock escrow balance).run history := by
  apply Follows.run_bind_iff.mpr
  apply readEscrowBounded_found recovers_quiet
  intro before pre preRead
  apply Follows.run_bind_iff.mpr
  apply maxEscrowBalance_rests recovers_quiet
  intro between freshBalance highest
  apply Follows.run_bind_iff.mpr
  apply readEscrowBounded_found recovers_quiet
  intro after post postRead
  apply Follows.request_bind (recovers_quiet _ .nowUnix trivial)
  intro now
  have grown : history <+: history ++ before ++ between ++ after ++
      [(⟨.nowUnix, now⟩ : Exchange interface)] := by
    simp only [List.append_assoc]
    exact List.prefix_append _ _
  have journaled := journaled.mono grown
  split
  · rename_i quarantined
    obtain ⟨locked, still, top, rfl, expired, below⟩ := classifyWedgeReread_quarantine quarantined
    obtain ⟨preEscrow, preSome, locked⟩ := Option.map_eq_some_iff.mp locked
    obtain ⟨postEscrow, postSome, still⟩ := Option.map_eq_some_iff.mp still
    simp only [postSome, Option.map_some, Option.getD_some] at expired below
    have abandoned : Abandoned client (history ++ before ++ between ++ after ++
        [(⟨.nowUnix, now⟩ : Exchange interface)]) entry.hashlock := by
      refine .wedge parsed (List.append_assoc _ _ _) (preRead _ preSome).append_left locked ?_
        ((postRead _ postSome).mono (List.prefix_append _ _)) still List.mem_concat_self expired
      refine ⟨highest.2 top rfl, fun balance read => ?_⟩
      obtain ⟨_, ⟨⟩, lower⟩ := highest.1 balance read
      bv_omega
    apply (quarantine_rests abandoned).weaken
    exact fun later _ grown' => grown.trans grown'
  · split
    · rename_i claimed chosen
      have read : EscrowRead client (history ++ before ++ between ++ after ++
          [(⟨.nowUnix, now⟩ : Exchange interface)]) hashlock claimed ∧
          claimed.state = .Claimed := by
        rcases Option.or_eq_some_iff.mp chosen with late | ⟨-, early⟩
        · obtain ⟨found, state⟩ := Option.filter_eq_some_iff.mp late
          exact ⟨(postRead _ found).append_left.mono (List.prefix_append _ _), by simpa using state⟩
        · obtain ⟨found, state⟩ := Option.filter_eq_some_iff.mp early
          have before' := @EscrowRead.append_left _ _ _ _ history (preRead _ found)
          refine ⟨before'.mono ?_, by simpa using state⟩
          simp only [List.append_assoc]
          exact (List.prefix_append_right_inj _).mpr (List.prefix_append _ _)
      apply (recoverClaimedEscrow_rests journaled parsed read.1 read.2).weaken
      exact fun later _ grown' => grown.trans grown'
    · trivial
  · rename_i dropped
    obtain ⟨postEscrow, postSome, refunded⟩ :=
      Option.map_eq_some_iff.mp (classifyWedgeReread_dropped dropped)
    have seen : SeenRefunded client (history ++ before ++ between ++ after ++
        [(⟨.nowUnix, now⟩ : Exchange interface)]) hashlock :=
      .read ((postRead _ postSome).append_left.mono (List.prefix_append _ _)) refunded
    apply (drop_rests (.refunded entry.hashlock) (.refunded parsed seen) fun _ _ => trivial).weaken
    exact fun later _ grown' => grown.trans grown'
  · exact grown

/-- A locked escrow. -/
theorem settleLocked_rests {escrow : HTLCEscrow} (journaled : Snapshotted history entry)
    (parsed : parseHashlockHex entry.hashlock = some hashlock)
    (read : EscrowRead client history hashlock escrow) (locked : escrow.state = .Locked) :
    Follows (Recovers client) (fun later _ => history <+: later)
      (settleLocked client fuel entry hashlock escrow).run history := by
  apply Follows.run_bind_iff.mpr
  apply maxEscrowBalance_rests recovers_quiet
  intro middle highest _
  have grown := List.prefix_append history middle
  cases highest with
  | none => exact grown
  | some balance =>
      apply Follows.request_bind (recovers_quiet _ .nowUnix trivial)
      intro now
      have grown := grown.trans (List.prefix_append _ [(⟨.nowUnix, now⟩ : Exchange interface)])
      simp only [Follows.run_ite_iff]
      refine ⟨fun _ => ?_, fun _ => ?_⟩
      · apply (resolveWedge_rests (journaled.mono grown) parsed).weaken
        exact fun later _ grown' => grown.trans grown'
      · apply Follows.request_bind (recovers_quiet _ .nowUnix trivial)
        intro later
        have grown := grown.trans
          (List.prefix_append _ [(⟨.nowUnix, later⟩ : Exchange interface)])
        simp only [Follows.run_ite_iff]
        refine ⟨fun _ => ?_, fun _ => ?_⟩
        · apply (refundEntry_rests (journaled.mono grown) parsed).weaken
          exact fun later _ grown' => grown.trans grown'
        · exact ⟨⟨journaled.mono grown, parsed, escrow, read.mono grown, locked, rfl⟩,
            fun _ => grown.trans (List.prefix_append _ _)⟩

/-- An entry whose escrow was read. -/
theorem reconcileFound_rests {escrow : HTLCEscrow} (journaled : Snapshotted history entry)
    (parsed : parseHashlockHex entry.hashlock = some hashlock)
    (read : EscrowRead client history hashlock escrow) :
    Follows (Recovers client) (fun later _ => history <+: later)
      (reconcileFound client fuel entry hashlock escrow).run history := by
  have settled : ∀ {program : Flow Unit}, ∀ later, history <+: later →
      Follows (Recovers client) (fun next _ => later <+: next) program.run later →
      Follows (Recovers client) (fun next _ => history <+: next) program.run later :=
    fun later grown follows => follows.weaken fun next _ grown' => grown.trans grown'
  have claimed : escrow.state = .Claimed → ∀ later, history <+: later →
      Follows (Recovers client) (fun next _ => history <+: next)
        (recoverClaimedEscrow entry escrow).run later := fun state later grown =>
    settled later grown
      (recoverClaimedEscrow_rests (journaled.mono grown) parsed (read.mono grown) state)
  have refunded : escrow.state = .Refunded → ∀ later, history <+: later →
      Follows (Recovers client) (fun next _ => history <+: next)
        (drop entry.hashlock (.refunded entry.hashlock)).run later := fun state later grown =>
    settled later grown
      (drop_rests _ (.refunded parsed (.read (read.mono grown) state)) fun _ _ => trivial)
  have locked : escrow.state = .Locked → ∀ later, history <+: later →
      Follows (Recovers client) (fun next _ => history <+: next)
        (settleLocked client fuel entry hashlock escrow).run later := fun state later grown =>
    settled later grown
      (settleLocked_rests (journaled.mono grown) parsed (read.mono grown) state)
  simp only [reconcileFound, Follows.run_ite_iff]
  refine ⟨fun unlocked => ?_, fun _ => ?_⟩
  · apply Follows.request_bind ⟨hashlock, escrow, entry, parsed, read, journaled, rfl, unlocked⟩
    intro answer
    split
    · exact claimed ‹_› _ (List.prefix_append _ _)
    · exact refunded ‹_› _ (List.prefix_append _ _)
    · exact locked ‹_› _ (List.prefix_append _ _)
  · split
    · exact claimed ‹_› _ (List.prefix_refl _)
    · exact refunded ‹_› _ (List.prefix_refl _)
    · exact locked ‹_› _ (List.prefix_refl _)

/-- The body of the loop of `reconcile`. -/
theorem reconcileEntry_rests (journaled : Snapshotted history entry) :
    Follows (Recovers client) (fun later _ => history <+: later)
      (reconcileEntry client fuel entry).run history := by
  unfold reconcileEntry
  cases parsed : parseHashlockHex entry.hashlock with
  | none => exact drop_rests _ (.corrupt parsed) fun _ _ => trivial
  | some hashlock =>
      apply Follows.run_bind_iff.mpr
      apply readEscrowBounded_rests recovers_quiet
      · intro middle escrow anyErr absentReads read
        have grown := List.prefix_append history middle
        apply (reconcileFound_rests (journaled.mono grown) parsed read.append_left).weaken
        exact fun later _ grown' => grown.trans grown'
      · intro middle absent
        have grown := List.prefix_append history middle
        unfold reconcileAbsent
        cases stage : entry.stage with
        | PreLock =>
            apply (quarantine_rests
              (.retired parsed (journaled.mono grown) rfl stage rfl absent)).weaken
            exact fun later _ grown' => grown.trans grown'
        | Funded => exact grown
      · intro middle absentReads
        exact List.prefix_append history middle

/-- The loop of `reconcile`. -/
theorem reconcileEntries_rests {entries : List InFlightSwap} :
    ∀ history, (∀ entry ∈ entries, Snapshotted history entry) →
      Follows (Recovers client) (fun _ _ => True)
        (reconcileEntries client fuel entries).run history := by
  induction entries with
  | nil => exact fun _ _ => trivial
  | cons entry rest ih =>
      intro history journaled
      apply Follows.run_bind_iff.mpr
      apply (reconcileEntry_rests (journaled entry List.mem_cons_self)).weaken
      intro later result grown
      cases result with
      | error e => trivial
      | ok =>
          apply ih
          exact fun entry member => (journaled entry (List.mem_cons_of_mem _ member)).mono grown

/-- `reconcile`: whatever it does, it does for a reason. -/
theorem reconcile_rests :
    Follows (Recovers client) (fun _ _ => True) (reconcile client fuel).run history := by
  apply Follows.request_bind (recovers_quiet _ .snapshot trivial)
  intro entries
  simp only [Follows.run_ite_iff]
  refine ⟨fun _ => trivial, fun _ => ?_⟩
  apply Follows.request_bind (recovers_quiet _ .lezConnect trivial)
  intro connected
  cases connected with
  | error e => trivial
  | ok =>
      apply reconcileEntries_rests
      intro entry member
      exact ⟨entries, by simp, member⟩

/-- Claiming the ETH of a resumed entry: it may be cleared only if it was recovered. -/
theorem resumeClaim_rests {preimage : Bytes32} (journaled : Snapshotted history entry)
    (parsed : parseHashlockHex entry.hashlock = some hashlock)
    (revealed : Revealed client history hashlock preimage) :
    Follows (Recovers client) (fun later result => ∀ clear, result = .ok clear →
        clear = true → Recovered client later entry.hashlock)
      (resumeClaim entry preimage).run history := by
  apply Follows.run_bind_iff.mpr
  apply claimEth_rests recovers_quiet
  · exact fun later swapId grown => ⟨hashlock, swapId, preimage, rfl, revealed.mono grown⟩
  · intro later outcome grown ended
    simp only [Follows.run_ite_iff]
    refine ⟨fun kept => ?_, fun _ => ?_⟩
    · have finished : outcome ≠ .Failed := by
        rintro rfl
        simp [retainAfterEthClaim] at kept
      have recovered := Recovered.of_entry (journaled.mono grown) parsed (revealed.mono grown)
        (ended finished)
      apply Follows.request_bind recovered
      intro _
      apply Follows.run_pure_iff.mpr
      exact fun _ _ _ => recovered.mono (List.prefix_append _ _)
    · rintro _ ⟨⟩ impossible
      cases impossible

/-- What a wait of `resume_swap` ends with. -/
def ResumeEnds (client : LezClient) (entry : InFlightSwap) (start history : Trace) :
    Except SwapError (Unit ⊕ Bool) → Prop
  | .ok (.inl ()) => start <+: history
  | .ok (.inr clear) => clear = true → Cleared client history entry.hashlock
  | .error _ => True

/-- One wait of `resume_swap`. -/
theorem resumeRound_rests {expirySecs : U64} {start : Trace} (grown : start <+: history)
    (journaled : Snapshotted start entry)
    (parsed : parseHashlockHex entry.hashlock = some hashlock) :
    Follows (Recovers client) (ResumeEnds client entry start)
      (resumeRound client fuel entry hashlock expirySecs ()).run history := by
  have claimed : ∀ later preimage, history <+: later → Revealed client later hashlock preimage →
      Follows (Recovers client) (ResumeEnds client entry start) (do
        return .inr (← resumeClaim entry preimage) : Flow (Unit ⊕ Bool)).run later := by
    intro later preimage grown' revealed
    apply Follows.run_bind_iff.mpr
    apply (resumeClaim_rests (journaled.mono (grown.trans grown')) parsed revealed).weaken
    intro next result recovered
    cases result with
    | error e => trivial
    | ok clear => exact fun cleared => .recovered (recovered clear rfl cleared)
  apply Follows.request_bind (recovers_quiet _ (.selectLez _ _) trivial)
  intro answer
  cases answer with
  | timer =>
      apply Follows.run_bind_iff.mpr
      apply Follows.run_attempt_iff.mpr
      apply refundConfirmed_rests recovers_quiet
      · exact fun later nonces escrow _ read locked => ⟨hashlock, escrow, rfl, read, locked⟩
      · intro later txHash _ seen
        apply Follows.request_bind trivial
        intro _
        exact fun _ => .refunded parsed (seen.mono (List.prefix_append _ _))
      · exact fun later preimage grown' revealed =>
          claimed _ _ ((List.prefix_append _ _).trans grown') revealed
      · intro later e _ impossible
        cases impossible
  | event event =>
      cases event with
      | Locked pda => exact grown.trans (List.prefix_append _ _)
      | Refunded pda =>
          apply Follows.request_bind trivial
          intro _
          apply Follows.run_pure_iff.mpr
          exact fun _ => .refunded parsed (SeenRefunded.mono (.watched ⟨_, List.mem_concat_self⟩)
            (List.prefix_append _ _))
      | Claimed pda shown =>
          simp only
          cases long : Bytes.ofSlice? 32 shown with
          | none =>
              intro impossible
              cases impossible
          | some preimage =>
              apply claimed _ _ (List.prefix_append _ _)
              exact .watched ⟨_, List.mem_concat_self⟩ long

/-- `resume_swap`: whatever it does, it does for a reason. -/
theorem resumeSwap_rests {timelockMs : U64} (journaled : Snapshotted history entry)
    (parsed : parseHashlockHex entry.hashlock = some hashlock) :
    Follows (Recovers client) (fun _ _ => True)
      (resumeSwap client fuel entry hashlock timelockMs).run history := by
  apply Follows.request_bind (recovers_quiet _ .lezConnect trivial)
  intro connected
  cases connected with
  | error e => trivial
  | ok =>
  apply Follows.request_bind (recovers_quiet _ .lezConnect trivial)
  intro connected
  cases connected with
  | error e => trivial
  | ok =>
  apply Follows.request_bind (recovers_quiet _ .nowUnix trivial)
  intro now
  have grown : history <+: history ++ [⟨.lezConnect, .ok ()⟩] ++ [⟨.lezConnect, .ok ()⟩] ++
      [(⟨.nowUnix, now⟩ : Exchange interface)] := by
    simp only [List.append_assoc]
    exact List.prefix_append _ _
  apply Follows.run_bind_iff.mpr
  apply Follows.iterate (fun later _ => history <+: later) _ fuel () grown
  intro reached _ grown
  apply (resumeRound_rests grown journaled parsed).weaken
  intro later result ends
  match result with
  | .error _ => trivial
  | .ok (.inl ()) => exact ends
  | .ok (.inr false) => trivial
  | .ok (.inr true) => exact ⟨ends rfl, fun _ => trivial⟩

end Entries

end AtomicSwaps.Cli
