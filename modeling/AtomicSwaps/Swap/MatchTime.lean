import AtomicSwaps.Swap.MakerRule

/-!
# The time of a match

With guards or without them, `run_maker` locks LEZ for a lock event it took up before, and
under an expiry that clears the event's ETH timelock by the margin. With guards the expiry
is counted from a clock read after the event was taken up; without them it is the one the
configuration was parsed with, however long ago that was.
-/

namespace AtomicSwaps.Swap

open Semantics
open Lez (LezClient HTLCInstruction buildLockInstruction)
open Eth

/-- The margin of a mode. -/
def marginSecs (guards : Option LoopGuards) : U64 :=
  (guards.map (·.timelockMarginSecs)).getD defaultTimelockMarginSecs

/-- Where the expiry of a match comes from: the clock as it was read right after the event
was taken up, or the configuration. -/
def ExpirySource (config : SwapConfig) (guards : Option LoopGuards) (after : Trace)
    (lezExpirySecs : U64) : Prop :=
  match guards with
  | some guards => ∃ now rest, after = ⟨.nowUnix, now⟩ :: rest ∧
      lezExpirySecs = freshLezExpirySecs now guards.lezTimelockSecs
  | none => lezExpirySecs = config.lezTimelock

/-- An event was announced as the lock that is served. -/
def AnnouncedIn (event : LockedEvent) (since : Trace) : Prop :=
  ⟨.report (.EthLockDetected (display event.swapId) (Hex.encode event.hashlock.toList)
    (Hex.encode event.takerLezAccount.toList) (display event.txHash)), ()⟩ ∈ since

/-- With guards, an event was written to the journal under its swap id. -/
def JournaledAs (guards : Option LoopGuards) (event : LockedEvent) (since : Trace) : Prop :=
  guards.isSome →
    ⟨.record (Hex.encode event.hashlock.toList) (display event.swapId), .ok ()⟩ ∈ since

/-- What the exchanges since an event say of the match that was made for it. -/
structure MatchOf (config : SwapConfig) (guards : Option LoopGuards) (event : LockedEvent)
    (after : Trace) (matched : Matched) : Prop where
  swapId : event.swapId = matched.swapId
  hashlock : event.hashlock = matched.hashlock
  announced : AnnouncedIn event after
  source : ExpirySource config guards after matched.lezExpirySecs
  covers : ethTimelockCoversLez event.timelock.saturatingTo64 matched.lezExpirySecs
    (marginSecs guards)

/-- A match, with the event it was made for and the exchanges since. -/
def MatchedAt (config : SwapConfig) (guards : Option LoopGuards) (history : Trace)
    (matched : Matched) : Prop :=
  ∃ earlier seconds event after,
    history = earlier ++ ⟨.selectEth seconds, .event (.Locked event)⟩ :: after ∧
    MatchOf config guards event after matched

/-- A match that is served: with guards it is in the journal. -/
def ServedAt (config : SwapConfig) (guards : Option LoopGuards) (history : Trace)
    (matched : Matched) : Prop :=
  ∃ earlier seconds event after,
    history = earlier ++ ⟨.selectEth seconds, .event (.Locked event)⟩ :: after ∧
    MatchOf config guards event after matched ∧ JournaledAs guards event after

/-- An instruction that locks is the one for a match that is served, and an ETH claim is for
the swap of one. -/
def LocksMatched (client : LezClient) (config : SwapConfig) (guards : Option LoopGuards)
    (history : Trace) : Op → Prop
  | .sendTransaction (.htlc escrowPda _ (.Lock hashlock takerId amount timelock)) =>
      ∃ matched, ServedAt config guards history matched ∧
        escrowPda = client.escrowPda matched.hashlock ∧
        HTLCInstruction.Lock hashlock takerId amount timelock =
          buildLockInstruction matched.hashlock matched.lezClaimant config.lezAmount
            matched.lezExpirySecs
  | .sendEth (.claim swapId _) =>
      ∃ matched, ServedAt config guards history matched ∧ swapId = matched.swapId
  | _ => True

section Walk

variable {client : LezClient} {config : SwapConfig} {guards : Option LoopGuards}
  {history later : Trace} {matched : Matched} {fuel : Nat}

theorem locksMatched_quiet (history : Trace) (op : Op) (quiet : op.Quiet) :
    LocksMatched client config guards history op := by
  cases op <;> first | exact quiet.elim | trivial

theorem ExpirySource.append {lezExpirySecs : U64}
    (source : ExpirySource config guards history lezExpirySecs) (rest : Trace) :
    ExpirySource config guards (history ++ rest) lezExpirySecs := by
  cases guards with
  | none => exact source
  | some guards =>
      obtain ⟨now, between, rfl, expiry⟩ := source
      exact ⟨now, between ++ rest, rfl, expiry⟩

theorem MatchOf.append {event : LockedEvent} {after : Trace}
    (match_of : MatchOf config guards event after matched) (rest : Trace) :
    MatchOf config guards event (after ++ rest) matched where
  __ := match_of
  announced := List.mem_append_left rest match_of.announced
  source := match_of.source.append rest

theorem ServedAt.mono (served : ServedAt config guards history matched)
    (grown : history <+: later) : ServedAt config guards later matched := by
  obtain ⟨rest, rfl⟩ := grown
  obtain ⟨earlier, seconds, event, after, rfl, found, journaled⟩ := served
  exact ⟨earlier, seconds, event, after ++ rest, by simp, found.append rest,
    fun looping => List.mem_append_left rest (journaled looping)⟩

/-- A match in single-shot mode is served as it stands. -/
theorem MatchedAt.served_once (found : MatchedAt config none history matched) :
    ServedAt config none history matched := by
  obtain ⟨earlier, seconds, event, after, rfl, found⟩ := found
  exact ⟨earlier, seconds, event, after, rfl, found, fun looping => by cases looping⟩

/-- A match in loop mode is served once it is written down. -/
theorem MatchedAt.served_journaled {guards : LoopGuards}
    (found : MatchedAt config (some guards) history matched) (rest : Trace) :
    ServedAt config (some guards) (history ++
      ⟨.record (Hex.encode matched.hashlock.toList) (display matched.swapId), .ok ()⟩ :: rest)
      matched := by
  obtain ⟨earlier, seconds, event, after, rfl, found⟩ := found
  refine ⟨earlier, seconds, event, after ++ _, List.append_assoc .., found.append _, fun _ => ?_⟩
  rw [found.hashlock, found.swapId]
  exact List.mem_append_right _ List.mem_cons_self

/-- An accepted candidate has a timelock that covers the LEZ expiry. -/
theorem classifyCandidate_covers {candidate : Candidate} {policy : MakerPolicy}
    {rejected : List Bytes32} {inJournal : Bool}
    (accepted : classifyCandidate candidate policy rejected inJournal = .Accept) :
    ethTimelockCoversLez candidate.ethTimelockSecs policy.lezExpirySecs
      (policy.margin.getD defaultTimelockMarginSecs) := by
  unfold classifyCandidate at accepted
  split at accepted
  · cases accepted
  split at accepted
  · cases accepted
  split at accepted
  · cases accepted
  split at accepted
  · cases accepted
  · rename_i covers
    simpa using covers

/-- What a wait for a lock ends with. -/
def EndsMatched (config : SwapConfig) (guards : Option LoopGuards) (history : Trace) :
    Except SwapError (List Bytes32 ⊕ Option Matched) → Prop
  | .ok (.inr (some matched)) => MatchedAt config guards history matched
  | _ => True

/-- The decision on a lock, once the expiry it would be matched with is known. -/
theorem classified_matches {rejected : List Bytes32} {seconds lezExpirySecs : U64}
    {event : LockedEvent} {inJournal : Bool} {after : Trace}
    (source : ExpirySource config guards after lezExpirySecs) :
    Follows (LocksMatched client config guards) (EndsMatched config guards)
      (match classifyCandidate ⟨event.hashlock, event.takerLezAccount,
          event.timelock.saturatingTo64⟩
          ⟨client.accountId, config.lezTakerAccountId, lezExpirySecs,
            guards.map (·.timelockMarginSecs)⟩ rejected inJournal with
        | .Skip => return .inl rejected
        | .Reject reason => do
            report (rejection event event.timelock.saturatingTo64 lezExpirySecs
              (guards.map (·.timelockMarginSecs)) reason)
            return .inl (remember rejected event.hashlock)
        | .Accept =>
            match designatedLezClaimant event.takerLezAccount client.accountId with
            | none => return .inl (remember rejected event.hashlock)
            | some lezClaimant => do
                match ← Program.attempt (EthClient.getHtlc event.swapId) with
                | .ok htlc =>
                    if htlc.state ≠ .OPEN then return .inl rejected
                    matchCandidate event lezExpirySecs lezClaimant
                | .error _ => matchCandidate event lezExpirySecs lezClaimant :
          Flow (List Bytes32 ⊕ Option Matched)).run
      (history ++ ⟨.selectEth seconds, .event (.Locked event)⟩ :: after) := by
  split
  · trivial
  · exact ⟨trivial, fun _ => trivial⟩
  · rename_i accepted
    have covers := classifyCandidate_covers accepted
    split
    · trivial
    · rename_i lezClaimant usable
      have matching : ∀ read : Trace, Follows (LocksMatched client config guards)
          (EndsMatched config guards) (matchCandidate event lezExpirySecs lezClaimant).run
          (history ++ ⟨.selectEth seconds, .event (.Locked event)⟩ :: after ++ read) := by
        intro read
        refine ⟨trivial, fun _ => ?_⟩
        apply Follows.run_pure_iff.mpr
        exact ⟨history, seconds, event, after ++ (read ++ [⟨.report (.EthLockDetected
            (display event.swapId) (Hex.encode event.hashlock.toList)
            (Hex.encode event.takerLezAccount.toList) (display event.txHash)), ()⟩]), by simp,
          rfl, rfl, by simp [AnnouncedIn], source.append _, covers⟩
      apply Follows.run_bind_iff.mpr
      apply Follows.run_attempt_iff.mpr
      apply EthClient.getHtlc_follows (locksMatched_quiet _ (.getHTLC _) trivial)
      · intro htlc
        simp only
        split
        · trivial
        · exact matching _
      · intro e
        exact matching _

/-- One wait for a lock, in either mode. -/
theorem awaitLock_matches {hashlock : Option Bytes32} {rejected : List Bytes32} :
    Follows (LocksMatched client config guards) (EndsMatched config guards)
      (awaitLock client config guards hashlock rejected).run history := by
  apply Follows.request_bind (locksMatched_quiet _ .nowUnix trivial)
  intro waited
  apply Follows.request_bind (locksMatched_quiet _ (.selectEth _) trivial)
  intro answer
  cases answer with
  | cancelled => trivial
  | timer => exact ⟨trivial, fun _ => trivial⟩
  | event event =>
      cases event with
      | Claimed | Refunded => trivial
      | Locked event =>
          simp only [Follows.run_ite_iff]
          refine ⟨fun _ => ?_, fun _ => trivial⟩
          unfold considerLock
          cases guards with
          | none =>
              exact classified_matches (show ExpirySource config none [] _ from rfl)
          | some guards =>
              apply Follows.request_bind (locksMatched_quiet _ .nowUnix trivial)
              intro now
              apply Follows.request_bind (locksMatched_quiet _ (.contains _) trivial)
              intro inJournal
              rw [show ∀ selected : Exchange interface, history ++ [⟨.nowUnix, waited⟩] ++
                [selected] ++ [⟨.nowUnix, now⟩] ++
                [⟨.contains (Hex.encode event.hashlock.toList), inJournal⟩] =
                history ++ [⟨.nowUnix, waited⟩] ++ selected :: [⟨.nowUnix, now⟩,
                  ⟨.contains (Hex.encode event.hashlock.toList), inJournal⟩] by simp]
              exact classified_matches ⟨now, _, rfl, rfl⟩

/-! Nothing after the lock locks again, and the ETH that is claimed is that of the match. -/

theorem settle_locks {hashlockHex : String} {call : OpsCall} :
    Follows (LocksMatched client config guards) (fun _ _ => True)
      (settle guards hashlockHex call).run history := by
  cases guards with
  | none => trivial
  | some guards => exact ⟨trivial, fun _ => ⟨trivial, fun _ => trivial⟩⟩

theorem collectEth_locks {preimage : Bytes32} {hashlockHex lezLockTx : String}
    (served : ServedAt config guards history matched) :
    Follows (LocksMatched client config guards) (fun _ _ => True)
      (collectEth guards matched.swapId hashlockHex lezLockTx preimage).run history := by
  apply Follows.request_bind (locksMatched_quiet _ (.report _) trivial)
  intro _
  have served := served.mono (List.prefix_append _ [⟨.report .ClaimingEth, ()⟩])
  apply Follows.run_bind_iff.mpr
  apply claimEthAfterReveal_rests locksMatched_quiet
  · exact fun _ grown => ⟨matched, served.mono grown, rfl⟩
  · intro later tx _ _
    apply Follows.request_bind (locksMatched_quiet _ (.report _) trivial)
    intro _
    apply Follows.run_bind_iff.mpr
    apply settle_locks.weaken
    intro last result _
    cases result <;> trivial
  · exact fun _ _ _ => trivial

theorem refundLez_locks {hashlockHex lezLockTx : String}
    (served : ServedAt config guards history matched) :
    Follows (LocksMatched client config guards) (fun _ _ => True)
      (refundLez client guards fuel matched hashlockHex lezLockTx).run history := by
  apply Follows.request_bind (locksMatched_quiet _ (.report _) trivial)
  intro _
  apply Follows.request_bind (locksMatched_quiet _ (.report _) trivial)
  intro _
  have served := (served.mono (List.prefix_append _ [⟨.report .TimelockExpired, ()⟩])).mono
    (List.prefix_append _ [⟨.report .Refunding, ()⟩])
  apply Follows.run_bind_iff.mpr
  apply refundConfirmed_rests locksMatched_quiet
  · exact fun _ _ _ _ _ _ => trivial
  · intro later txHash _ _
    apply Follows.request_bind (locksMatched_quiet _ (.report _) trivial)
    intro _
    apply Follows.run_bind_iff.mpr
    apply settle_locks.weaken
    intro last result _
    cases result <;> trivial
  · intro later preimage grown _
    apply Follows.request_bind (locksMatched_quiet _ (.report _) trivial)
    exact fun _ => collectEth_locks (served.mono (grown.trans (List.prefix_append _ _)))
  · exact fun _ _ _ => trivial

theorem awaitReveal_locks {hashlockHex lezLockTx : String}
    (served : ServedAt config guards history matched) :
    Follows (LocksMatched client config guards) (fun _ _ => True)
      (awaitReveal client guards fuel matched hashlockHex lezLockTx ()).run history := by
  apply Follows.request_bind (locksMatched_quiet _ .nowUnix trivial)
  intro now
  apply Follows.request_bind (locksMatched_quiet _ (.selectLez _ _) trivial)
  intro answer
  have served := (served.mono (List.prefix_append _ [⟨.nowUnix, now⟩])).mono
    (List.prefix_append _ [⟨.selectLez matched.hashlock _, answer⟩])
  cases answer with
  | timer =>
      apply Follows.run_bind_iff.mpr
      apply (refundLez_locks served).weaken
      intro later result _
      cases result <;> trivial
  | event event =>
      cases event with
      | Locked pda => trivial
      | Refunded pda =>
          apply Follows.run_bind_iff.mpr
          apply settle_locks.weaken
          intro later result _
          cases result <;> trivial
      | Claimed pda shown =>
          simp only
          split
          · trivial
          · exact ⟨trivial, fun _ => trivial⟩

theorem watchReveal_locks {hashlockHex lezLockTx : String}
    (served : ServedAt config guards history matched) :
    Follows (LocksMatched client config guards) (fun _ _ => True) (do
      match ← Program.iterate (awaitReveal client guards fuel matched hashlockHex lezLockTx)
          fuel () with
      | .inl preimage => collectEth guards matched.swapId hashlockHex lezLockTx preimage
      | .inr outcome => return outcome : Flow SwapOutcome).run history := by
  apply Follows.run_bind_iff.mpr
  apply Follows.iterate (fun later _ => ServedAt config guards later matched) _ fuel () served
  intro reached _ served
  apply ((awaitReveal_locks served).and (Follows.extends_history _ _)).mono
  · exact fun _ _ rules => rules.1
  · intro last result grown
    have served := served.mono grown.2
    match result with
    | .error _ => trivial
    | .ok (.inl ()) => exact served
    | .ok (.inr (.inr _)) => trivial
    | .ok (.inr (.inl preimage)) => exact collectEth_locks served

/-- What follows the lock. -/
theorem afterLock_locks {hashlockHex lezLockTx : String}
    (served : ServedAt config guards history matched) :
    Follows (LocksMatched client config guards) (fun _ _ => True) (do
      if guards.isSome then request (.markFunded hashlockHex)
      report (.LezLocked lezLockTx)
      report .WaitingForPreimage
      Program.returned (← request .lezConnect)
      match ← Program.iterate (awaitReveal client guards fuel matched hashlockHex lezLockTx)
          fuel () with
      | .inl preimage => collectEth guards matched.swapId hashlockHex lezLockTx preimage
      | .inr outcome => return outcome : Flow SwapOutcome).run history := by
  have reported : ∀ start, ServedAt config guards start matched →
      Follows (LocksMatched client config guards) (fun _ _ => True) (do
        report (.LezLocked lezLockTx)
        report .WaitingForPreimage
        Program.returned (← request .lezConnect)
        match ← Program.iterate (awaitReveal client guards fuel matched hashlockHex lezLockTx)
            fuel () with
        | .inl preimage => collectEth guards matched.swapId hashlockHex lezLockTx preimage
        | .inr outcome => return outcome : Flow SwapOutcome).run start := by
    intro start served
    apply Follows.request_bind (locksMatched_quiet _ (.report _) trivial)
    intro _
    have served := served.mono (List.prefix_append _ [⟨.report (.LezLocked lezLockTx), ()⟩])
    apply Follows.request_bind (locksMatched_quiet _ (.report _) trivial)
    intro _
    have served := served.mono (List.prefix_append _ [⟨.report .WaitingForPreimage, ()⟩])
    apply Follows.request_bind (locksMatched_quiet _ .lezConnect trivial)
    intro connected
    cases connected with
    | error e => trivial
    | ok =>
        apply Follows.run_bind_iff.mpr
        apply Follows.run_pure_iff.mpr
        exact watchReveal_locks (served.mono (List.prefix_append _ _))
  cases guards with
  | none => exact reported _ served
  | some guards =>
      exact ⟨trivial, fun _ => reported _ (served.mono (List.prefix_append _ _))⟩

/-- Locking for a match, and what follows. -/
theorem serve_locks (found : MatchedAt config guards history matched) :
    Follows (LocksMatched client config guards) (fun _ _ => True)
      (serve client config guards fuel matched).run history := by
  have locking : ∀ later, ServedAt config guards later matched →
      Follows (LocksMatched client config guards) (fun _ _ => True) (do
        report .LezLocking
        let lezLockTx ← client.lock fuel matched.hashlock matched.lezClaimant config.lezAmount
          matched.lezExpirySecs
        if guards.isSome then request (.markFunded (Hex.encode matched.hashlock.toList))
        report (.LezLocked lezLockTx)
        report .WaitingForPreimage
        Program.returned (← request .lezConnect)
        match ← Program.iterate (awaitReveal client guards fuel matched
            (Hex.encode matched.hashlock.toList) lezLockTx) fuel () with
        | .inl preimage =>
            collectEth guards matched.swapId (Hex.encode matched.hashlock.toList) lezLockTx preimage
        | .inr outcome => return outcome : Flow SwapOutcome).run later := by
    intro later served
    apply Follows.request_bind (locksMatched_quiet _ (.report _) trivial)
    intro _
    have served := served.mono (List.prefix_append _ [⟨.report .LezLocking, ()⟩])
    apply Follows.run_bind_iff.mpr
    apply lock_rests locksMatched_quiet
    · exact fun last nonces grown => ⟨matched, served.mono grown, rfl, rfl⟩
    · exact fun _ _ _ _ _ _ => trivial
    · exact fun _ _ _ grown _ => afterLock_locks (served.mono grown)
    · exact fun _ _ _ => trivial
  unfold serve
  cases guards with
  | none => exact locking _ found.served_once
  | some guards =>
      apply Follows.request_bind trivial
      intro answer
      cases answer with
      | error e => trivial
      | ok =>
          apply Follows.request_bind trivial
          intro _
          refine locking _ ?_
          rw [List.append_assoc]
          exact found.served_journaled _

/-- `run_maker` in either mode: every instruction that locks is the one for a match. -/
theorem runMaker_locks {hashlock : Option Bytes32} :
    Follows (LocksMatched client config guards) (fun _ _ => True)
      (runMaker client config guards fuel hashlock).run history := by
  apply Follows.request_bind (locksMatched_quiet _ (.report _) trivial)
  intro _
  apply Follows.request_bind (locksMatched_quiet _ .ethConnect trivial)
  intro connected
  cases connected with
  | error e => trivial
  | ok =>
  apply Follows.run_bind_iff.mpr
  apply Follows.run_pure_iff.mpr
  apply Follows.run_bind_iff.mpr
  apply Follows.iterate (fun _ _ => True) _ fuel [] trivial
  intro later rejected _
  apply awaitLock_matches.weaken
  intro last result ends
  match result with
  | .error _ => trivial
  | .ok (.inl _) => trivial
  | .ok (.inr none) => trivial
  | .ok (.inr (some _)) => exact serve_locks ends

end Walk

/-! ## What a lock is worth -/

/-- An instruction that locks does so for an event taken up before and announced since as the
swap that is served. With guards the event is in the journal under its swap id, and as long
as the times fit their width, the clock read since then stands before the expiry, and the
expiry leaves the ETH timelock the margin; without them the expiry is the configured one, and
leaves it the default margin. An ETH claim is for the swap id of such an event. -/
def Timely (config : SwapConfig) (guards : Option LoopGuards) (history : Trace) : Op → Prop
  | .sendTransaction (.htlc _ _ (.Lock hashlock _ _ timelock)) =>
      ∃ earlier seconds event after, ∃ lezExpirySecs : U64,
        history = earlier ++ ⟨.selectEth seconds, .event (.Locked event)⟩ :: after ∧
        event.hashlock = hashlock ∧ AnnouncedIn event after ∧ JournaledAs guards event after ∧
        (lezExpirySecs.toNat * 1000 < 2 ^ 64 → timelock.toNat = lezExpirySecs.toNat * 1000) ∧
        match guards with
        | some guards => ∃ now rest, after = ⟨.nowUnix, now⟩ :: rest ∧
            (0 < guards.lezTimelockSecs.toNat →
              now.toNat + guards.lezTimelockSecs.toNat + guards.timelockMarginSecs.toNat < 2 ^ 64 →
              lezExpirySecs.toNat = now.toNat + guards.lezTimelockSecs.toNat ∧
              now.toNat < lezExpirySecs.toNat ∧
              lezExpirySecs.toNat + guards.timelockMarginSecs.toNat ≤ event.timelock.toNat ∧
              guards.timelockMarginSecs.toNat < event.timelock.toNat - now.toNat)
        | none => lezExpirySecs = config.lezTimelock ∧
            (lezExpirySecs.toNat + 300 < 2 ^ 64 →
              lezExpirySecs.toNat + 300 ≤ event.timelock.toNat)
  | .sendEth (.claim swapId _) => ∃ earlier seconds event after,
      history = earlier ++ ⟨.selectEth seconds, .event (.Locked event)⟩ :: after ∧
      event.swapId = swapId ∧ AnnouncedIn event after ∧ JournaledAs guards event after
  | _ => True

/-- A timelock that covers an expiry leaves it the margin. -/
theorem covers_margin {ethTimelock : U256} {lezExpirySecs margin : U64}
    (covers : ethTimelockCoversLez ethTimelock.saturatingTo64 lezExpirySecs margin)
    (fits : lezExpirySecs.toNat + margin.toNat < 2 ^ 64) :
    lezExpirySecs.toNat + margin.toNat ≤ ethTimelock.toNat := by
  have order : (U64.saturatingAdd lezExpirySecs margin).toNat ≤
      ethTimelock.saturatingTo64.toNat := by
    simpa [ethTimelockCoversLez, BitVec.le_def] using covers
  rw [U64.toNat_saturatingAdd, U256.toNat_saturatingTo64] at order
  omega

theorem timely_of_matched {client : LezClient} {config : SwapConfig} {guards : Option LoopGuards}
    {history : Trace} {op : Op} (locks : LocksMatched client config guards history op) :
    Timely config guards history op := by
  unfold LocksMatched at locks
  split at locks
  · rename_i escrowPda nonces hashlock takerId amount timelock
    obtain ⟨matched, ⟨earlier, seconds, event, after, rfl, found, journaled⟩, -, built⟩ := locks
    obtain ⟨-, same, announced, source, covers⟩ := found
    simp only [buildLockInstruction, HTLCInstruction.Lock.injEq] at built
    obtain ⟨rfl, -, -, rfl⟩ := built
    refine ⟨earlier, seconds, event, after, matched.lezExpirySecs, rfl, same, announced,
      journaled, toNat_secsToMillis, ?_⟩
    cases guards with
    | none => exact ⟨source, covers_margin covers⟩
    | some guards =>
        obtain ⟨now, rest, rfl, expiry⟩ := source
        refine ⟨now, rest, rfl, fun positive fits => ?_⟩
        have fresh : matched.lezExpirySecs.toNat = now.toNat + guards.lezTimelockSecs.toNat := by
          rw [expiry, freshLezExpirySecs, U64.toNat_saturatingAdd]
          omega
        have margin : matched.lezExpirySecs.toNat + guards.timelockMarginSecs.toNat ≤
            event.timelock.toNat := covers_margin covers (by rw [fresh]; exact fits)
        refine ⟨fresh, ?_, margin, ?_⟩ <;> omega
  · obtain ⟨matched, ⟨earlier, seconds, event, after, rfl, found, journaled⟩, rfl⟩ := locks
    exact ⟨earlier, seconds, event, after, rfl, found.swapId, found.announced, journaled⟩
  · rename_i locking claiming
    unfold Timely
    split
    · exact (locking _ _ _ _ _ _ rfl).elim
    · exact (claiming _ _ rfl).elim
    · trivial

/-- Every run of `run_maker` locks in time: with guards under an expiry ahead of the clock,
without them under the configured one, and in both cases with the margin to spare. -/
theorem runMaker_timely (client : LezClient) (config : SwapConfig) (guards : Option LoopGuards)
    (fuel : Nat) (hashlock : Option Bytes32) :
    Follows (Timely config guards) (fun _ _ => True)
      (runMaker client config guards fuel hashlock).run [] :=
  runMaker_locks.mono (fun _ _ locks => timely_of_matched locks) (fun _ _ _ => trivial)

/-- An instruction that locks does so under an expiry that no clock reading has reached. -/
def Unexpired (history : Trace) : Op → Prop
  | .sendTransaction (.htlc _ _ (.Lock _ _ _ timelock)) =>
      ∀ now : U64, ⟨.nowUnix, now⟩ ∈ history → now.toNat * 1000 < timelock.toNat
  | _ => True

/-- What follows an operation, whatever its answer. -/
theorem opened {rule : Trace → Op → Prop} {α : Type} {post : Trace → Except SwapError α → Prop}
    {op : Op} {rest : interface.Answer op → Flow α} {history : Trace}
    (follows : Follows rule post (Program.request op >>= rest).run history)
    (answer : interface.Answer op) :
    Follows rule post (rest answer).run (history ++ [⟨op, answer⟩]) := follows.2 answer

/-- Without guards, an event that the configured expiry accepts is taken up, however late. -/
theorem awaitLock_late {rule : Trace → Op → Prop}
    {post : Trace → Except SwapError (List Bytes32 ⊕ Option Matched) → Prop}
    {client : LezClient} {config : SwapConfig} {event : LockedEvent} {history : Trace}
    (ours : event.recipient = config.ethRecipientAddress ∧
      config.ethAmount.setWidth 256 ≤ event.amount)
    (accepted : classifyCandidate ⟨event.hashlock, event.takerLezAccount,
      event.timelock.saturatingTo64⟩ ⟨client.accountId, config.lezTakerAccountId,
        config.lezTimelock, none⟩ [] false = .Accept)
    (follows : Follows rule post (awaitLock client config none none []).run history) (now : U64)
    (e : String) :
    ∃ since : Trace, ⟨.nowUnix, now⟩ ∈ since ∧ post (history ++ since)
      (.ok (.inr (some ⟨event.swapId, event.hashlock, config.lezTimelock,
        event.takerLezAccount⟩))) := by
  have claimant : designatedLezClaimant event.takerLezAccount client.accountId =
      some event.takerLezAccount := if_pos (classifyCandidate_accept accepted).2
  have selecting := opened follows now
  obtain ⟨answer, selected⟩ : ∃ answer : EthSelect, answer = .event (.Locked event) := ⟨_, rfl⟩
  have taken := opened selecting answer
  simp only [selected, Follows.run_ite_iff] at taken
  have considered := taken.1 ⟨by simp, ours⟩
  have known : ∀ {α β : Type} (value : α) (rest : α → Flow β), (pure value >>= rest) = rest value :=
    fun _ _ => rfl
  unfold considerLock at considered
  simp only [known, Option.map_none, accepted, claimant] at considered
  have matching := (considered.2 (.error e)).2 ()
  exact ⟨⟨.nowUnix, now⟩ :: [_, _, _], List.mem_cons_self,
    by simpa using Follows.run_pure_iff.mp matching⟩

/-- Without guards, the lock for a match is sent when the escrow is absent. -/
theorem serve_sends {rule : Trace → Op → Prop} {post : Trace → Except SwapError SwapOutcome → Prop}
    {client : LezClient} {config : SwapConfig} {fuel : Nat} {matched : Matched} {history : Trace}
    (follows : Follows rule post (serve client config none fuel matched).run history) :
    ∃ since, rule (history ++ since) (.sendTransaction (.htlc (client.escrowPda matched.hashlock) []
      (buildLockInstruction matched.hashlock matched.lezClaimant config.lezAmount
        matched.lezExpirySecs))) := by
  unfold serve at follows
  simp only [Option.isSome_none, Bool.false_eq_true, if_false] at follows
  have locking := Follows.run_bind_iff.mp (opened follows ())
  have reading := Follows.run_bind_iff.mp locking
  have absent := Follows.run_pure_iff.mp (opened reading (.ok []))
  have sending := Follows.run_bind_iff.mp absent
  have signed := Follows.run_bind_iff.mp sending
  have numbered := Follows.run_pure_iff.mp (opened signed (.ok []))
  exact ⟨[_, _, _], by simpa using numbered.1⟩

/-- A maker that runs a single swap, five minutes of LEZ timelock and fifteen of ETH timelock
after the second 1000000. -/
def testSingleShot : SwapConfig where
  lezAmount := 1
  ethAmount := 1
  lezTimelock := 1000300
  ethTimelock := 1000900
  ethRecipientAddress := Bytes.fill 20 2
  lezTakerAccountId := none

/-- A lock that arrives ten minutes later, with seven minutes of ETH timelock left. -/
def testLateLock : LockedEvent where
  swapId := Bytes.fill 32 4
  sender := Bytes.fill 20 1
  recipient := Bytes.fill 20 2
  amount := 1
  hashlock := testHashlock
  timelock := 1001020
  takerLezAccount := Bytes.fill 32 6
  txHash := Bytes.fill 32 7

/-- The signer of the test maker. -/
def testSingleShotClient : LezClient := ⟨Bytes.fill 32 5, id⟩

/-- Without guards the maker may lock under an expiry that passed five minutes ago. -/
theorem single_shot_locks_expired :
    ¬ Follows Unexpired (fun _ _ => True)
      (runMaker testSingleShotClient testSingleShot none 1 none).run [] := by
  intro follows
  have waiting := Follows.run_bind_iff.mp (opened (opened follows ()) (.ok ()))
  have awaiting := Follows.run_bind_iff.mp (Follows.run_pure_iff.mp waiting)
  have once := Follows.run_bind_iff.mp awaiting
  have ours : testLateLock.recipient = testSingleShot.ethRecipientAddress ∧
      testSingleShot.ethAmount.setWidth 256 ≤ testLateLock.amount := by decide
  obtain ⟨since, read, matched⟩ := awaitLock_late ours (by decide) once 1000600 "unreachable"
  obtain ⟨rest, sent⟩ := serve_sends (Follows.run_pure_iff.mp matched)
  have expired := sent 1000600 (List.mem_append_left _ (List.mem_append_right _ read))
  exact absurd expired (by decide)

end AtomicSwaps.Swap
