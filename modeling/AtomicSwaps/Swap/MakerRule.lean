import AtomicSwaps.Swap.Evidence

/-!
# What the maker does for a reason

For every operation of `run_maker_loop` that changes something, what the maker has seen
by then: a journal entry is written for a lock that passed every check, funding is sent
for an escrow read as the one asked for, an entry is cleared once the escrow was seen
settled, and the swap recorded as completed once its ETH was taken for collected.
-/

namespace AtomicSwaps.Swap

open Semantics
open Lez (AccountId HTLCEscrow HTLCInstruction LezClient RefundOutcome escrowIn
  escrowConfirmsOurLock buildLockInstruction)
open Eth

section Journal

variable (client : LezClient) (history : Trace)

/-- The journal entry of a key names a swap id. -/
inductive Journaled (key text : String) : Prop where
  | recorded (recorded : ⟨.record key text, .ok ()⟩ ∈ history)
  | loaded {entries : List Cli.InFlightSwap} {entry : Cli.InFlightSwap}
      (snapshot : ⟨.snapshot, entries⟩ ∈ history) (member : entry ∈ entries)
      (key : entry.hashlock = key) (text : entry.swapId = text)

/-- The taker claimed the escrow of a key, and the ETH of its swap is taken for
collected; a swap id that cannot be read is as good as collected. -/
inductive Recovered (key : String) : Prop where
  | collected {hashlock preimage swapId : Bytes32} {text : String}
      (parsed : parseHashlockHex key = some hashlock)
      (revealed : Revealed client history hashlock preimage)
      (journaled : Journaled history key text) (readable : parseSwapId text = some swapId)
      (collected : Collected history swapId)
  | unreadable {hashlock preimage : Bytes32} {text : String}
      (parsed : parseHashlockHex key = some hashlock)
      (revealed : Revealed client history hashlock preimage)
      (journaled : Journaled history key text) (unreadable : parseSwapId text = none)

/-- What a journal entry is cleared for. -/
inductive Cleared (key : String) : Prop where
  | corrupt (unparsed : parseHashlockHex key = none)
  | refunded {hashlock : Bytes32} (parsed : parseHashlockHex key = some hashlock)
      (seen : SeenRefunded client history hashlock)
  | malformed {hashlock : Bytes32} {escrow : HTLCEscrow}
      (parsed : parseHashlockHex key = some hashlock)
      (read : EscrowRead client history hashlock escrow) (claimed : escrow.state = .Claimed)
      (short : escrow.preimage.bind (Bytes.ofSlice? 32) = none)
  | recovered (recovered : Recovered client history key)

end Journal

/-- A lock that was matched, with the exchanges that decided it. -/
structure Match where
  event : LockedEvent
  seconds : U64
  now : U64
  read : Except String Eth.HTLC

namespace Match

variable (found : Match)

/-- The key of the match in the journal. -/
def key : String := Hex.encode found.event.hashlock.toList

/-- The exchanges from the event to the report of the match. -/
def exchanges : Trace :=
  [⟨.selectEth found.seconds, .event (.Locked found.event)⟩, ⟨.nowUnix, found.now⟩,
    ⟨.contains found.key, false⟩, ⟨.getHTLC found.event.swapId, found.read⟩,
    ⟨.report (.EthLockDetected (display found.event.swapId) found.key
      (Hex.encode found.event.takerLezAccount.toList) (display found.event.txHash)), ()⟩]

/-- The expiry the maker locks with. -/
def lezExpirySecs (guards : LoopGuards) : U64 :=
  freshLezExpirySecs found.now guards.lezTimelockSecs

/-- What `classify_candidate` is asked about. -/
def candidate : Candidate :=
  ⟨found.event.hashlock, found.event.takerLezAccount, found.event.timelock.saturatingTo64⟩

/-- The escrow the maker locks. -/
def matched (guards : LoopGuards) : Matched :=
  ⟨found.event.swapId, found.event.hashlock, found.lezExpirySecs guards,
    found.event.takerLezAccount⟩

end Match

/-- The policy a loop-mode maker decides with. -/
def loopPolicy (client : LezClient) (config : SwapConfig) (guards : LoopGuards)
    (lezExpirySecs : U64) : MakerPolicy :=
  ⟨client.accountId, config.lezTakerAccountId, lezExpirySecs, some guards.timelockMarginSecs⟩

/-- The lock considered last and the hashlocks rejected since the maker began to wait, as
its exchanges tell them. -/
def rejectStep (state : Option Bytes32 × List Bytes32) :
    Exchange interface → Option Bytes32 × List Bytes32
  | ⟨.report .WaitingForEthLock, _⟩ => (none, [])
  | ⟨.selectEth _, .event (.Locked event)⟩ => (some event.hashlock, state.2)
  | ⟨.report (.EthLockRejected ..), _⟩ | ⟨.report (.EthLockRejectedTakerAccount ..), _⟩ =>
      (state.1, match state.1 with
        | some hashlock => remember state.2 hashlock
        | none => state.2)
  | _ => state

/-- `rejectStep` over all exchanges. -/
def tally (history : Trace) : Option Bytes32 × List Bytes32 := history.foldl rejectStep (none, [])

/-- The hashlocks rejected since the maker began to wait. -/
def rejectedIn (history : Trace) : List Bytes32 := (tally history).2

/-- A lock passes every check of the maker: it is for the maker and large enough, the
candidate is accepted, and its swap was not read as anything but open. -/
def Accepts (client : LezClient) (config : SwapConfig) (guards : LoopGuards) (history : Trace)
    (found : Match) : Prop :=
  found.event.recipient = config.ethRecipientAddress ∧
    config.ethAmount.setWidth 256 ≤ found.event.amount ∧
    classifyCandidate found.candidate
      (loopPolicy client config guards (found.lezExpirySecs guards)) (rejectedIn history) false =
        .Accept ∧
    ∀ htlc, found.read = .ok htlc → htlc.state = .OPEN

/-- The operations that change the journal. -/
def Op.Journaling : Op → Prop
  | .load | .record .. | .markFunded _ | .remove _ | .quarantine .. => True
  | _ => False

section Served

variable (client : LezClient) (config : SwapConfig) (guards : LoopGuards) (history : Trace)

/-- The maker is about to write down the lock it has just matched. -/
def Matches (found : Match) : Prop :=
  ∃ earlier, history = earlier ++ found.exchanges ∧ Accepts client config guards earlier found

/-- The maker has written down the lock it matched last, and the journal is as it was
left. -/
def Served (found : Match) : Prop :=
  ∃ earlier later, history = earlier ++ ⟨.record found.key (display found.event.swapId), .ok ()⟩ ::
      later ∧
    Matches client config guards earlier found ∧
    ∀ exchange ∈ later, ¬ exchange.op.Journaling

end Served

/-- What the maker's transactions on the LEZ chain rest on. -/
def Submits (client : LezClient) (config : SwapConfig) (guards : LoopGuards) (history : Trace) :
    LezTransaction → Prop
  | .htlc escrowPda _ (.Lock hashlock takerId amount timelock) => ∃ found,
      Served client config guards history found ∧
      escrowPda = client.escrowPda found.event.hashlock ∧
      HTLCInstruction.Lock hashlock takerId amount timelock =
        buildLockInstruction found.event.hashlock found.event.takerLezAccount config.lezAmount
          (found.lezExpirySecs guards)
  | .htlc escrowPda _ .Refund => ∃ hashlock escrow, escrowPda = client.escrowPda hashlock ∧
      EscrowRead client history hashlock escrow ∧ escrow.state = .Locked
  | .htlc _ _ (.Claim _) => False
  | .transfer recipient _ amount => ∃ found escrow,
      Served client config guards history found ∧
      LockSent client history found.event.hashlock found.event.takerLezAccount config.lezAmount
        (found.lezExpirySecs guards) ∧
      Confirmed client history found.event.hashlock found.event.takerLezAccount config.lezAmount
        (found.lezExpirySecs guards) escrow ∧
      recipient = client.escrowPda found.event.hashlock ∧ amount = config.lezAmount

/-- What the operations of `run_maker_loop` rest on. -/
def Serves (client : LezClient) (config : SwapConfig) (guards : LoopGuards) (history : Trace) :
    Op → Prop
  | .record key text => ∃ found, Matches client config guards history found ∧ key = found.key ∧
      text = display found.event.swapId
  | .markFunded key => ∃ (found : Match) (escrow : HTLCEscrow), key = found.key ∧
      Confirmed client history found.event.hashlock found.event.takerLezAccount config.lezAmount
        (found.lezExpirySecs guards) escrow
  | .remove key => Cleared client history key
  | .ops (.completed key) => Recovered client history key
  | .sendTransaction transaction => Submits client config guards history transaction
  | .sendEth call => ∃ hashlock swapId preimage, call = .claim swapId preimage ∧
      Revealed client history hashlock preimage
  | .load | .quarantine .. | .spawnResume .. | .joinResumed => False
  | _ => True

section Clients

variable {client : LezClient} {rule : Trace → Op → Prop} {history : Trace}
  {hashlock preimage swapId : Bytes32}
  (quiet : ∀ history op, op.Quiet → rule history op)

include quiet

/-- One attempt after another to claim: what is returned was collected. -/
theorem claimEthAttempts_rests {post : Trace → Except SwapError Bytes32 → Prop}
    (claims : ∀ later, history <+: later → rule later (.sendEth (.claim swapId preimage)))
    (collected : ∀ later tx, history <+: later → Collected later swapId → post later (.ok tx))
    (failed : ∀ later e, history <+: later → post later (.error e)) (left : Nat) :
    ∀ later lastErr, history <+: later →
      Follows rule post (claimEthAttempts swapId preimage left lastErr).run later := by
  induction left with
  | zero => exact fun later lastErr grown => failed _ _ grown
  | succ left ih =>
      intro later lastErr grown
      apply Follows.run_bind_iff.mpr
      apply Follows.run_attempt_iff.mpr
      apply EthClient.claim_follows (claims _ grown)
      intro answer
      have grown := grown.trans (List.prefix_append _
        [(⟨.sendEth (.claim swapId preimage), answer⟩ : Exchange interface)])
      cases answer with
      | ok receipt => exact collected _ _ grown (.answered List.mem_concat_self)
      | error e =>
          have again : ∀ next e, history <+: next → Follows rule post (do
              if left ≠ 0 then request .sleep
              claimEthAttempts swapId preimage left e : Flow Bytes32).run next := by
            intro next e grown
            split
            · apply Follows.request_bind (quiet _ .sleep trivial)
              exact fun _ => ih _ _ (grown.trans (List.prefix_append _ _))
            · exact ih _ _ grown
          apply Follows.run_bind_iff.mpr
          apply Follows.run_attempt_iff.mpr
          apply EthClient.getHtlc_follows (quiet _ (.getHTLC _) trivial)
          · intro htlc
            have grown := grown.trans (List.prefix_append _
              [(⟨.getHTLC swapId, .ok htlc⟩ : Exchange interface)])
            simp only
            split
            · rename_i claimed
              exact collected _ _ grown (.claimed List.mem_concat_self claimed)
            · exact again _ _ grown
          · intro e
            exact again _ _ (grown.trans (List.prefix_append _ _))

/-- `claim_eth_after_reveal` returns what was collected. -/
theorem claimEthAfterReveal_rests {post : Trace → Except SwapError Bytes32 → Prop}
    (claims : ∀ later, history <+: later → rule later (.sendEth (.claim swapId preimage)))
    (collected : ∀ later tx, history <+: later → Collected later swapId → post later (.ok tx))
    (failed : ∀ later e, history <+: later → post later (.error e)) :
    Follows rule post (claimEthAfterReveal swapId preimage).run history :=
  claimEthAttempts_rests quiet claims collected failed 6 _ _ (List.prefix_refl _)

end Clients

section Waiting

variable {client : LezClient} {config : SwapConfig} {guards : LoopGuards}
  {rule : Trace → Op → Prop} {history : Trace}

theorem tally_concat (exchange : Exchange interface) :
    tally (history ++ [exchange]) = rejectStep (tally history) exchange := by
  simp [tally]

theorem rejectedIn_concat (exchange : Exchange interface) :
    rejectedIn (history ++ [exchange]) = (rejectStep (tally history) exchange).2 := by
  rw [rejectedIn, tally_concat]

/-- What a wait for a lock ends with: the rejected hashlocks as its exchanges tell them,
or a match. -/
def WaitEnds (client : LezClient) (config : SwapConfig) (guards : LoopGuards) (history : Trace) :
    Except SwapError (List Bytes32 ⊕ Option Matched) → Prop
  | .ok (.inl next) => next = rejectedIn history
  | .ok (.inr (some matched)) => ∃ found, Matches client config guards history found ∧
      matched = found.matched guards
  | .ok (.inr none) | .error _ => True

/-- An accepted candidate is not in the journal. -/
theorem classifyCandidate_accept {candidate : Candidate} {policy : MakerPolicy}
    {rejected : List Bytes32} {inJournal : Bool}
    (accepted : classifyCandidate candidate policy rejected inJournal = .Accept) :
    inJournal = false ∧
      takerLezAccountIsUsable candidate.takerLezAccount policy.makerLezAccount = true := by
  unfold classifyCandidate at accepted
  split at accepted
  · cases accepted
  · rename_i fresh
    split at accepted
    · cases accepted
    · rename_i usable
      simp only [not_or, Bool.not_eq_true] at fresh
      simp only [Bool.not_eq_true, Bool.not_eq_false'] at usable
      exact ⟨fresh.2, usable⟩

/-- The decision on a lock leaves the rejected hashlocks as its exchanges tell them, or
matches the lock. -/
theorem considerLock_rests (quiet : ∀ history op, op.Quiet → rule history op)
    {seconds : U64} {event : LockedEvent} (recipient : event.recipient = config.ethRecipientAddress)
    (amount : config.ethAmount.setWidth 256 ≤ event.amount) :
    Follows rule (WaitEnds client config guards)
      (considerLock client config (some guards) (rejectedIn history) event).run
      (history ++ [⟨.selectEth seconds, .event (.Locked event)⟩]) := by
  apply Follows.request_bind (quiet _ .nowUnix trivial)
  intro now
  apply Follows.request_bind (quiet _ (.contains _) trivial)
  intro inJournal
  have asked : tally (history ++ [(⟨.selectEth seconds, .event (.Locked event)⟩ :
      Exchange interface)] ++ [(⟨.nowUnix, now⟩ : Exchange interface)] ++
      [(⟨.contains (Hex.encode event.hashlock.toList), inJournal⟩ : Exchange interface)]) =
      (some event.hashlock, rejectedIn history) := by
    simp only [tally_concat]
    rfl
  simp only [Option.map_some]
  split
  · apply Follows.run_pure_iff.mpr
    exact (congrArg Prod.snd asked).symm
  · rename_i reason decision
    apply Follows.request_bind (quiet _ (.report _) trivial)
    intro _
    apply Follows.run_pure_iff.mpr
    rw [WaitEnds, rejectedIn_concat, asked]
    cases reason <;> rfl
  · rename_i accepted
    obtain ⟨rfl, usable⟩ := classifyCandidate_accept accepted
    have claimant : designatedLezClaimant event.takerLezAccount client.accountId =
        some event.takerLezAccount := if_pos usable
    simp only [claimant]
    apply Follows.run_bind_iff.mpr
    apply Follows.run_attempt_iff.mpr
    have matching : ∀ read : Except String Eth.HTLC, (∀ htlc, read = .ok htlc → htlc.state = .OPEN) →
        Follows rule (WaitEnds client config guards)
        (matchCandidate event (freshLezExpirySecs now guards.lezTimelockSecs)
          event.takerLezAccount).run
        (history ++ [⟨.selectEth seconds, .event (.Locked event)⟩] ++ [⟨.nowUnix, now⟩] ++
          [⟨.contains (Hex.encode event.hashlock.toList), false⟩] ++
          [⟨.getHTLC event.swapId, read⟩]) := by
      intro read opened
      apply Follows.request_bind (quiet _ (.report _) trivial)
      intro _
      apply Follows.run_pure_iff.mpr
      refine ⟨⟨event, seconds, now, read⟩, ⟨history, by simp [Match.exchanges, Match.key], ?_⟩, rfl⟩
      exact ⟨recipient, amount, accepted, opened⟩
    apply EthClient.getHtlc_follows (quiet _ (.getHTLC _) trivial)
    · intro htlc
      simp only
      split
      · apply Follows.run_pure_iff.mpr
        rw [WaitEnds, rejectedIn_concat, asked]
        rfl
      · rename_i opened
        apply matching (.ok htlc)
        rintro _ ⟨⟩
        exact not_not.mp opened
    · intro e
      exact matching (.error e) (by simp)

/-- One wait for a lock. -/
theorem awaitLock_rests (quiet : ∀ history op, op.Quiet → rule history op) :
    Follows rule (WaitEnds client config guards)
      (awaitLock client config (some guards) none (rejectedIn history)).run history := by
  apply Follows.request_bind (quiet _ .nowUnix trivial)
  intro now
  have kept : rejectedIn (history ++ [(⟨.nowUnix, now⟩ : Exchange interface)]) =
      rejectedIn history := by
    rw [rejectedIn_concat]
    rfl
  apply Follows.request_bind (quiet _ (.selectEth _) trivial)
  intro answer
  cases answer with
  | cancelled => trivial
  | timer =>
      apply Follows.request_bind (quiet _ (.report _) trivial)
      exact fun _ => trivial
  | event event =>
      cases event with
      | Claimed | Refunded =>
          apply Follows.run_pure_iff.mpr
          rw [WaitEnds, rejectedIn_concat, tally_concat]
          rfl
      | Locked event =>
          simp only [Follows.run_ite_iff]
          refine ⟨fun ours => ?_, fun others => ?_⟩
          · rw [← kept]
            exact considerLock_rests quiet ours.2.1 ours.2.2
          · apply Follows.run_pure_iff.mpr
            rw [WaitEnds, rejectedIn_concat, tally_concat]
            rfl

end Waiting

section Serving

variable {client : LezClient} {config : SwapConfig} {guards : LoopGuards} {history later : Trace}
  {found : Match} {fuel : Nat}

theorem Journaled.mono {key text : String} (journaled : Journaled history key text)
    (grown : history <+: later) : Journaled later key text := by
  cases journaled with
  | recorded recorded => exact .recorded (grown.subset recorded)
  | loaded snapshot member key text => exact .loaded (grown.subset snapshot) member key text

theorem Recovered.mono {key : String} (recovered : Recovered client history key)
    (grown : history <+: later) : Recovered client later key := by
  cases recovered with
  | collected parsed revealed journaled readable collected =>
      exact .collected parsed (revealed.mono grown) (journaled.mono grown) readable
        (collected.mono grown)
  | unreadable parsed revealed journaled unreadable =>
      exact .unreadable parsed (revealed.mono grown) (journaled.mono grown) unreadable

/-- Operations that leave the journal alone leave the maker serving its match. -/
theorem Served.append {middle : Trace} (served : Served client config guards history found)
    (silent : ∀ exchange ∈ middle, ¬ exchange.op.Journaling) :
    Served client config guards (history ++ middle) found := by
  obtain ⟨earlier, later, rfl, matches', untouched⟩ := served
  refine ⟨earlier, later ++ middle, by simp, matches', fun exchange member => ?_⟩
  rcases List.mem_append.mp member with old | new
  · exact untouched exchange old
  · exact silent exchange new

/-- Whoever serves a match has its entry in the journal. -/
theorem Served.journaled (served : Served client config guards history found) :
    Journaled history found.key (display found.event.swapId) := by
  obtain ⟨earlier, later, rfl, -, -⟩ := served
  exact .recorded (by simp)

theorem serves_quiet (history : Trace) (op : Op) (quiet : op.Quiet) :
    Serves client config guards history op := by
  cases op <;> first | exact quiet.elim | trivial

/-- An operation that is quiet leaves the journal alone. -/
theorem Op.Quiet.silent {op : Op} (quiet : op.Quiet) : ¬ op.Journaling := by
  cases op <;> first | exact quiet.elim | exact id

/-- What the maker knows of its match when it may claim its ETH. -/
theorem Recovered.of_match {preimage : Bytes32} (journaled : Journaled history found.key
      (display found.event.swapId))
    (revealed : Revealed client history found.event.hashlock preimage)
    (collected : Collected history found.event.swapId) : Recovered client history found.key :=
  .collected (parseHashlockHex_encode _) revealed journaled (parseSwapId_display _) collected

/-- Clearing the entry and recording the outcome. -/
theorem settle_rests {key : String} {call : OpsCall} {post : Trace → Except SwapError Unit → Prop}
    (cleared : Cleared client history key)
    (recorded : ∀ later, history <+: later → Serves client config guards later (.ops call))
    (done : ∀ later, history <+: later → post later (.ok ())) :
    Follows (Serves client config guards) post (settle (some guards) key call).run history := by
  apply Follows.request_bind cleared
  intro _
  have grown := List.prefix_append history [(⟨.remove key, ()⟩ : Exchange interface)]
  exact ⟨recorded _ grown, fun _ => done _ (grown.trans (List.prefix_append _ _))⟩

/-- Claiming the ETH with a preimage that was revealed. -/
theorem collectEth_rests {lezLockTx : String} {preimage : Bytes32}
    (journaled : Journaled history found.key (display found.event.swapId))
    (revealed : Revealed client history found.event.hashlock preimage) :
    Follows (Serves client config guards) (fun _ _ => True)
      (collectEth (some guards) found.event.swapId found.key lezLockTx preimage).run history := by
  apply Follows.request_bind (serves_quiet _ (.report _) trivial)
  intro _
  have grown := List.prefix_append history
    [(⟨.report .ClaimingEth, ()⟩ : Exchange interface)]
  apply Follows.run_bind_iff.mpr
  apply claimEthAfterReveal_rests serves_quiet
  · exact fun later grown' => ⟨_, _, _, rfl, revealed.mono (grown.trans grown')⟩
  · intro later tx grown' collected
    have grown := grown.trans grown'
    apply Follows.request_bind (serves_quiet _ (.report _) trivial)
    intro _
    have grown' := List.prefix_append later
      [(⟨.report (.EthClaimed (display tx)), ()⟩ : Exchange interface)]
    have recovered : ∀ next, later <+: next → Recovered client next found.key :=
      fun next grown' => .of_match (journaled.mono (grown.trans grown'))
        (revealed.mono (grown.trans grown')) (collected.mono grown')
    apply Follows.run_bind_iff.mpr
    apply settle_rests (.recovered (recovered _ grown'))
    · exact fun next grown'' => recovered _ (grown'.trans grown'')
    · exact fun _ _ => trivial
  · exact fun _ _ _ => trivial

/-- Refunding, unless the taker still claims. -/
theorem refundLez_rests {lezLockTx : String}
    (journaled : Journaled history found.key (display found.event.swapId)) :
    Follows (Serves client config guards) (fun _ _ => True)
      (refundLez client (some guards) fuel (found.matched guards) found.key lezLockTx).run
      history := by
  apply Follows.request_bind (serves_quiet _ (.report _) trivial)
  intro _
  apply Follows.request_bind (serves_quiet _ (.report _) trivial)
  intro _
  have grown := (List.prefix_append history _).trans (List.prefix_append
    (history ++ [(⟨.report .TimelockExpired, ()⟩ : Exchange interface)])
    [(⟨.report .Refunding, ()⟩ : Exchange interface)])
  apply Follows.run_bind_iff.mpr
  apply refundConfirmed_rests serves_quiet
  · exact fun later nonces escrow _ read locked => ⟨_, escrow, rfl, read, locked⟩
  · intro later txHash grown' seen
    apply Follows.request_bind (serves_quiet _ (.report _) trivial)
    intro _
    apply Follows.run_bind_iff.mpr
    apply settle_rests
    · exact .refunded (parseHashlockHex_encode _) (seen.mono (List.prefix_append _ _))
    · exact fun _ _ => trivial
    · exact fun _ _ => trivial
  · intro later preimage grown' revealed
    apply Follows.request_bind (serves_quiet _ (.report _) trivial)
    intro _
    exact collectEth_rests
      (journaled.mono ((grown.trans grown').trans (List.prefix_append _ _)))
      (revealed.mono (List.prefix_append _ _))
  · exact fun _ _ _ => trivial

/-- What a wait for the taker's claim ends with: a revealed preimage, or anything else. -/
def RevealEnds (client : LezClient) (found : Match) (start history : Trace) :
    Except SwapError (Unit ⊕ (Bytes32 ⊕ SwapOutcome)) → Prop
  | .ok (.inr (.inl preimage)) => start <+: history ∧
      Revealed client history found.event.hashlock preimage
  | .ok (.inl ()) => start <+: history
  | .ok (.inr (.inr _)) | .error _ => True

/-- One wait for the taker's claim. -/
theorem awaitReveal_rests {lezLockTx : String} {start : Trace} (grown : start <+: history)
    (journaled : Journaled start found.key (display found.event.swapId)) :
    Follows (Serves client config guards) (RevealEnds client found start)
      (awaitReveal client (some guards) fuel (found.matched guards) found.key lezLockTx ()).run
      history := by
  apply Follows.request_bind (serves_quiet _ .nowUnix trivial)
  intro now
  apply Follows.request_bind (serves_quiet _ (.selectLez _ _) trivial)
  intro answer
  have grown := (grown.trans (List.prefix_append _ _)).trans (List.prefix_append
    (history ++ [(⟨.nowUnix, now⟩ : Exchange interface)])
    [(⟨.selectLez found.event.hashlock
      (U64.saturatingSub (found.lezExpirySecs guards) now), answer⟩ : Exchange interface)])
  have watched : ∀ event, answer = .event event → Watched (history ++ [⟨.nowUnix, now⟩] ++
      [⟨.selectLez found.event.hashlock (U64.saturatingSub (found.lezExpirySecs guards) now),
        answer⟩]) found.event.hashlock event := by
    rintro event rfl
    exact ⟨_, List.mem_concat_self⟩
  cases answer with
  | timer =>
      apply Follows.run_bind_iff.mpr
      apply (refundLez_rests (journaled.mono grown)).weaken
      intro later result _
      cases result <;> trivial
  | event event =>
      cases event with
      | Locked pda => exact grown
      | Refunded pda =>
          apply Follows.run_bind_iff.mpr
          apply settle_rests
          · exact .refunded (parseHashlockHex_encode _) (.watched (watched _ rfl))
          · exact fun _ _ => trivial
          · exact fun _ _ => trivial
      | Claimed pda shown =>
          simp only
          split
          · trivial
          · rename_i preimage long
            apply Follows.request_bind (serves_quiet _ (.report _) trivial)
            intro _
            apply Follows.run_pure_iff.mpr
            refine ⟨grown.trans (List.prefix_append _ _), ?_⟩
            exact Revealed.mono (.watched (watched _ rfl) long) (List.prefix_append _ _)

/-- Waiting for the taker's claim, and what follows it. -/
theorem watchReveal_rests {lezLockTx : String}
    (journaled : Journaled history found.key (display found.event.swapId)) :
    Follows (Serves client config guards) (fun _ _ => True) (do
      match ← Program.iterate
          (awaitReveal client (some guards) fuel (found.matched guards) found.key lezLockTx)
          fuel () with
      | .inl preimage =>
          collectEth (some guards) found.event.swapId found.key lezLockTx preimage
      | .inr outcome => return outcome : Flow SwapOutcome).run history := by
  apply Follows.run_bind_iff.mpr
  apply Follows.iterate (fun later _ => history <+: later) _ fuel () (List.prefix_refl _)
  intro reached _ grown
  apply (awaitReveal_rests grown journaled).weaken
  intro last result ends
  match result with
  | .error _ => trivial
  | .ok (.inl ()) => exact ends
  | .ok (.inr (.inr _)) => trivial
  | .ok (.inr (.inl preimage)) => exact collectEth_rests (journaled.mono ends.1) ends.2

/-- Locking and funding for the match, with the journal as it was left. -/
theorem lock_serves {post : Trace → Except SwapError String → Prop}
    (served : Served client config guards history found)
    (locked : ∀ later escrow txHash, history <+: later →
      Confirmed client later found.event.hashlock found.event.takerLezAccount config.lezAmount
        (found.lezExpirySecs guards) escrow → post later (.ok txHash))
    (failed : ∀ later e, history <+: later → post later (.error e)) :
    Follows (Serves client config guards) post
      (client.lock fuel found.event.hashlock found.event.takerLezAccount config.lezAmount
        (found.lezExpirySecs guards)).run history := by
  -- first what `lock` does at all, then what that is once nothing touched the journal
  let rule : Trace → Op → Prop := fun later op => op.Quiet ∨
    (∃ nonces, op = .sendTransaction (.htlc (client.escrowPda found.event.hashlock) nonces
      (buildLockInstruction found.event.hashlock found.event.takerLezAccount config.lezAmount
        (found.lezExpirySecs guards)))) ∨
    ∃ nonces escrow,
      op = .sendTransaction (.transfer (client.escrowPda found.event.hashlock) nonces
        config.lezAmount) ∧
      LockSent client later found.event.hashlock found.event.takerLezAccount config.lezAmount
        (found.lezExpirySecs guards) ∧
      Confirmed client later found.event.hashlock found.event.takerLezAccount config.lezAmount
        (found.lezExpirySecs guards) escrow
  have walk : Follows rule post (client.lock fuel found.event.hashlock
      found.event.takerLezAccount config.lezAmount (found.lezExpirySecs guards)).run history := by
    apply lock_rests (fun _ _ quiet => .inl quiet)
    · exact fun later nonces _ => .inr (.inl ⟨nonces, rfl⟩)
    · exact fun later nonces escrow _ sent confirmed =>
        .inr (.inr ⟨nonces, escrow, rfl, sent, confirmed⟩)
    · exact locked
    · exact failed
  have silent : ∀ later op, rule later op → ¬ op.Journaling := by
    rintro later op (quiet | ⟨nonces, rfl⟩ | ⟨nonces, escrow, rfl, -⟩)
    · exact quiet.silent
    · exact id
    · exact id
  apply (walk.since silent).mono
  · rintro later op ⟨quiet | ⟨nonces, rfl⟩ | ⟨nonces, escrow, rfl, sent, confirmed⟩, middle, rfl, kept⟩
    · exact serves_quiet _ _ quiet
    · exact ⟨found, served.append kept, rfl, rfl⟩
    · exact ⟨found, escrow, served.append kept, sent, confirmed, rfl, rfl⟩
  · exact fun later result kept => kept.1

/-- Everything that follows a match. -/
theorem serve_rests (matches' : Matches client config guards history found) :
    Follows (Serves client config guards) (fun _ _ => True)
      (serve client config (some guards) fuel (found.matched guards)).run history := by
  apply Follows.request_bind ⟨found, matches', rfl, rfl⟩
  intro answer
  cases answer with
  | error e => trivial
  | ok =>
  apply Follows.request_bind trivial
  intro _
  apply Follows.request_bind (serves_quiet _ (.report _) trivial)
  intro _
  have served : Served client config guards (history ++
      [(⟨.record found.key (display found.event.swapId), .ok ()⟩ : Exchange interface)] ++
      [(⟨.ops (.accepted found.key (display found.event.swapId)), ()⟩ : Exchange interface)] ++
      [(⟨.report .LezLocking, ()⟩ : Exchange interface)]) found := by
    refine ⟨history, [⟨.ops (.accepted found.key (display found.event.swapId)), ()⟩,
      ⟨.report .LezLocking, ()⟩], by simp, matches', ?_⟩
    intro exchange member
    rcases List.mem_cons.mp member with rfl | last
    · exact id
    · obtain rfl := List.mem_singleton.mp last
      exact id
  apply Follows.run_bind_iff.mpr
  apply lock_serves served
  · intro later escrow txHash grown confirmed
    have journaled := served.journaled.mono grown
    apply Follows.request_bind ⟨found, escrow, rfl, confirmed⟩
    intro _
    apply Follows.request_bind (serves_quiet _ (.report _) trivial)
    intro _
    apply Follows.request_bind (serves_quiet _ (.report _) trivial)
    intro _
    apply Follows.request_bind (serves_quiet _ .lezConnect trivial)
    intro connected
    cases connected with
    | error e => trivial
    | ok =>
    apply Follows.run_bind_iff.mpr
    apply Follows.run_pure_iff.mpr
    exact watchReveal_rests ((((journaled.mono (List.prefix_append _ _)).mono
      (List.prefix_append _ _)).mono (List.prefix_append _ _)).mono (List.prefix_append _ _))
  · exact fun _ _ _ => trivial

/-- `run_maker` in loop mode. -/
theorem runMaker_rests :
    Follows (Serves client config guards) (fun _ _ => True)
      (runMaker client config (some guards) fuel none).run history := by
  apply Follows.request_bind (serves_quiet _ (.report _) trivial)
  intro _
  apply Follows.request_bind (serves_quiet _ .ethConnect trivial)
  intro connected
  cases connected with
  | error e => trivial
  | ok =>
  apply Follows.run_bind_iff.mpr
  apply Follows.run_pure_iff.mpr
  apply Follows.run_bind_iff.mpr
  apply Follows.iterate (fun later rejected => rejected = rejectedIn later) _ fuel []
  · rw [rejectedIn_concat, tally_concat]
    rfl
  · rintro later rejected rfl
    apply (awaitLock_rests serves_quiet).weaken
    intro last result ends
    match result with
    | .error _ => trivial
    | .ok (.inl _) => exact ends
    | .ok (.inr none) => trivial
    | .ok (.inr (some _)) =>
        obtain ⟨found, matches', rfl⟩ := ends
        exact serve_rests matches'

end Serving

section Loop

variable {client : LezClient} {config : SwapConfig} {history : Trace}
  {lezMinutes ethMinutes marginSecs now : U64} {fuel : Nat}

/-- Fresh timelocks leave everything alone that the maker's operations rest on. -/
theorem serves_fresh (guards : LoopGuards) :
    Serves client (config.withFreshTimelocks lezMinutes ethMinutes now) guards =
      Serves client config guards := rfl

/-- Reading the balance with retries is quiet, if the callback is. -/
theorem balanceWithRetry_rests {rule : Trace → Op → Prop} {onTransient : SwapError → Flow Unit}
    {accountId : AccountId} (quiet : ∀ history op, op.Quiet → rule history op)
    {post : Trace → Except SwapError (U128 × Bool) → Prop} (done : ∀ later result, post later result)
    (called : ∀ later e, Follows rule (fun _ _ => True) (onTransient e).run later) (left : Nat) :
    ∀ later lastErr,
      Follows rule post (balanceWithRetry onTransient accountId left lastErr).run later := by
  induction left with
  | zero =>
      intro later lastErr
      cases lastErr with
      | none => trivial
      | some e =>
          apply Follows.run_bind_iff.mpr
          apply (called later e).weaken
          intro next result _
          cases result <;> exact done _ _
  | succ left ih =>
      intro later lastErr
      apply Follows.run_bind_iff.mpr
      apply Follows.run_attempt_iff.mpr
      apply getBalance_rests quiet
      intro next result _
      cases result with
      | ok balance =>
          cases lastErr with
          | none => exact done _ _
          | some e =>
              apply Follows.run_bind_iff.mpr
              apply (called next e).weaken
              intro last result _
              cases result <;> exact done _ _
      | error e =>
          simp only
          split
          · apply Follows.request_bind (quiet _ .sleep trivial)
            exact fun _ => ih _ _
          · exact ih _ _

/-- Stopping or going on after an iteration. -/
theorem afterIteration_rests {counters : LoopCounters} {guards : LoopGuards} :
    Follows (Serves client config guards) (fun _ _ => True) (afterIteration counters).run
      history := by
  apply Follows.request_bind (serves_quiet _ .hasInFlight trivial)
  intro inFlight
  cases inFlight with
  | true =>
      apply Follows.request_bind (serves_quiet _ (.report _) trivial)
      exact fun _ => trivial
  | false => trivial

/-- The swap of an iteration. -/
theorem iterationSwap_rests {counters : LoopCounters} :
    Follows (Serves client config (loopGuards lezMinutes marginSecs)) (fun _ _ => True)
      (iterationSwap client lezMinutes marginSecs fuel
        (config.withFreshTimelocks lezMinutes ethMinutes now) counters).run history := by
  apply Follows.request_bind (serves_quiet _ (.report _) trivial)
  intro _
  apply Follows.request_bind (serves_quiet _ .ethConnect trivial)
  intro connected
  cases connected with
  | error e =>
      apply Follows.request_bind (serves_quiet _ (.report _) trivial)
      intro _
      apply Follows.request_bind (serves_quiet _ .sleep trivial)
      exact fun _ => trivial
  | ok =>
      apply Follows.run_bind_iff.mpr
      apply Follows.run_attempt_iff.mpr
      rw [← serves_fresh (loopGuards lezMinutes marginSecs)]
      apply runMaker_rests.weaken
      intro later result _
      have reported : ∀ (progress : SwapProgress) (counters : LoopCounters),
          Follows (Serves client config (loopGuards lezMinutes marginSecs)) (fun _ _ => True) (do
            report progress
            afterIteration counters : Flow (LoopCounters ⊕ LoopCounters)).run later := by
        intro progress counters
        apply Follows.request_bind (serves_quiet _ (.report _) trivial)
        exact fun _ => afterIteration_rests
      match result with
      | .ok (.Completed ..) => exact reported _ _
      | .ok (.Refunded ..) => exact reported _ _
      | .error .Cancelled =>
          apply Follows.request_bind (serves_quiet _ (.report _) trivial)
          exact fun _ => trivial
      | .error (.EthRpc _) | .error (.EthReverted _) | .error (.EthAbiMismatch _)
      | .error (.EthLogsUncorroborated _)
      | .error (.LezSequencer _) | .error (.LezTransaction _) | .error (.EscrowStateUnknown _)
      | .error (.EthClaimUnresolved _) | .error (.InvalidState ..) | .error (.Timeout _)
      | .error (.TimelockNotExpired _) | .error (.InvalidConfig _) => exact reported _ _

/-- One iteration of the loop. -/
theorem loopIteration_rests {counters : LoopCounters} :
    Follows (Serves client config (loopGuards lezMinutes marginSecs)) (fun _ _ => True)
      (loopIteration client config lezMinutes ethMinutes marginSecs fuel counters).run history := by
  apply Follows.request_bind (serves_quiet _ .cancelRequested trivial)
  intro cancelled
  cases cancelled with
  | true =>
      apply Follows.request_bind (serves_quiet _ (.report _) trivial)
      exact fun _ => trivial
  | false =>
  apply Follows.request_bind (serves_quiet _ .nowUnix trivial)
  intro now
  apply Follows.request_bind (serves_quiet _ .lezConnect trivial)
  intro connected
  cases connected with
  | error e =>
      apply Follows.request_bind (serves_quiet _ (.report _) trivial)
      intro _
      apply Follows.request_bind (serves_quiet _ .sleep trivial)
      exact fun _ => trivial
  | ok =>
      apply Follows.run_bind_iff.mpr
      apply Follows.run_attempt_iff.mpr
      apply balanceWithRetry_rests serves_quiet
      · intro later result
        cases result with
        | error e =>
            apply Follows.request_bind (serves_quiet _ .sleep trivial)
            exact fun _ => trivial
        | ok read =>
            obtain ⟨balance, retried⟩ := read
            simp only [Follows.run_ite_iff]
            refine ⟨fun _ => ?_, fun _ => iterationSwap_rests⟩
            apply Follows.request_bind (serves_quiet _ (.report _) trivial)
            intro _
            apply Follows.request_bind (serves_quiet _ .sleep trivial)
            exact fun _ => trivial
      · intro later e
        apply Follows.request_bind (serves_quiet _ (.report _) trivial)
        exact fun _ => trivial

/-- `run_maker_loop`: whatever it does, it does for a reason. -/
theorem runMakerLoop_rests :
    Follows (Serves client config (loopGuards lezMinutes marginSecs)) (fun _ _ => True)
      (runMakerLoop client config lezMinutes ethMinutes marginSecs fuel).run history := by
  apply Follows.request_bind (serves_quiet _ (.report _) trivial)
  intro _
  apply Follows.run_bind_iff.mpr
  apply Follows.iterate (fun _ _ => True) _ fuel _ trivial
  intro later counters _
  apply loopIteration_rests.weaken
  intro next result _
  match result with
  | .error _ => trivial
  | .ok (.inl _) => trivial
  | .ok (.inr counters) =>
      apply Follows.request_bind (serves_quiet _ (.report _) trivial)
      exact fun _ => trivial

end Loop

end AtomicSwaps.Swap
