import AtomicSwaps.Cli.RecoveryRule
import AtomicSwaps.Swap.MatchTime

/-!
# Whose escrows recovery acts on

Anyone may lock an escrow at the PDA of a hashlock that the maker has journaled, and
recovery reads that PDA without looking at the maker it names. What may be read there
decides whether it acts on this maker's escrows only.
-/

namespace AtomicSwaps.Cli

open Semantics Swap
open Lez (AccountId HTLCEscrow LezClient escrowIn)

/-- A journal, and what can be read of any account. -/
structure Scene where
  entries : List InFlightSwap
  content : AccountId → List UInt8 → Prop

/-- What was answered is of the scene. -/
def Scene.Shows (scene : Scene) (history : Trace) : Prop :=
  (∀ entries, ⟨.snapshot, entries⟩ ∈ history → entries = scene.entries) ∧
    ∀ pda data, ⟨.getAccount pda, .ok data⟩ ∈ history → scene.content pda data

/-- An escrow of a kind was read for a hashlock, and all of that kind that were read are
this maker's. -/
def Ours (client : LezClient) (history : Trace) (hashlock : Bytes32)
    (kind : HTLCEscrow → Prop) : Prop :=
  (∃ escrow, EscrowRead client history hashlock escrow ∧ kind escrow) ∧
    ∀ escrow, EscrowRead client history hashlock escrow → kind escrow →
      escrow.makerId = client.accountId

/-- An operation of recovery on an escrow is on one of this maker's. -/
def ActsOnOurs (client : LezClient) (history : Trace) : Op → Prop
  | .markFunded key => ∃ hashlock, parseHashlockHex key = some hashlock ∧
      Ours client history hashlock fun _ => True
  | .spawnResume entry hashlock _ => parseHashlockHex entry.hashlock = some hashlock ∧
      Ours client history hashlock (·.state = .Locked)
  | .sendTransaction (.htlc pda _ .Refund) => ∃ hashlock, pda = client.escrowPda hashlock ∧
      Ours client history hashlock (·.state = .Locked)
  | .quarantine key _ => ∃ hashlock, parseHashlockHex key = some hashlock ∧
      ((∃ earlier reads, history = earlier ++ reads ∧
          AbsentReads client hashlock maxReads reads) ∨
        Ours client history hashlock (·.state = .Locked))
  | _ => True

/-- Every read was answered. -/
def AllRead (history : Trace) : Prop :=
  ⟨.lezConnect, .ok ()⟩ ∈ history ∧
    (∀ pda e, ⟨.getAccount pda, .error e⟩ ∉ history) ∧
    ∀ pda e, ⟨.getAccountBalance pda, .error e⟩ ∉ history

/-- An entry has left the journal. -/
def Left (history : Trace) (entry : InFlightSwap) : Prop :=
  ⟨.remove entry.hashlock, ()⟩ ∈ history ∨
    ∃ reason, ⟨.quarantine entry.hashlock reason, ()⟩ ∈ history

/-- No escrow of another maker was read for an entry that is kept as not locked. -/
def Unstalled (client : LezClient) (scene : Scene) (history : Trace) : Prop :=
  ∀ entry ∈ scene.entries, entry.stage = .PreLock →
    ∀ hashlock escrow, parseHashlockHex entry.hashlock = some hashlock →
      EscrowRead client history hashlock escrow → escrow.makerId ≠ client.accountId →
      Left history entry

/-- Recovery acts on this maker's escrows only, and no other escrow keeps an entry. -/
structure KeepsToOurs (client : LezClient) (scene : Scene) : Prop where
  reconciles : ∀ fuel, Follows
    (fun history op => scene.Shows history → ActsOnOurs client history op)
    (fun history _ => scene.Shows history → AllRead history → Unstalled client scene history)
    (reconcile client fuel).run []
  resumes : ∀ entry ∈ scene.entries, ∀ hashlock, parseHashlockHex entry.hashlock = some hashlock →
    ∀ fuel timelockMs, Follows
      (fun history op => scene.Shows history → ActsOnOurs client history op)
      (fun _ _ => True) (resumeSwap client fuel entry hashlock timelockMs).run []

/-- Whatever can be read for an entry is this maker's escrow, or a settled one of an entry
that is taken for funded. -/
def Uncontested (client : LezClient) (scene : Scene) : Prop :=
  ∀ entry ∈ scene.entries, ∀ hashlock, parseHashlockHex entry.hashlock = some hashlock →
    ∀ data escrow, scene.content (client.escrowPda hashlock) data →
      escrowIn hashlock data = .ok (some escrow) →
      escrow.makerId = client.accountId ∨ (entry.stage = .Funded ∧ escrow.state ≠ .Locked)

/-- What `reconcile` does about an entry concerns that entry: its quarantines name it, and
its refunds are of an escrow that was read locked. -/
def Concerns (client : LezClient) (entry : InFlightSwap) (history : Trace) : Op → Prop
  | .quarantine key _ => key = entry.hashlock
  | .sendTransaction (.htlc pda _ .Refund) => ∃ hashlock escrow,
      parseHashlockHex entry.hashlock = some hashlock ∧ pda = client.escrowPda hashlock ∧
      EscrowRead client history hashlock escrow ∧ escrow.state = .Locked
  | _ => True

/-- What `resume_swap` does: it upgrades, spawns and quarantines nothing. -/
def Resumes (client : LezClient) (entry : InFlightSwap) (history : Trace) : Op → Prop
  | .quarantine .. | .markFunded _ | .spawnResume .. => False
  | op => Concerns client entry history op

section Walk

variable {client : LezClient} {entry : InFlightSwap} {history : Trace} {hashlock : Bytes32}
  {fuel : Nat}

theorem concerns_quiet (history : Trace) (op : Op) (quiet : op.Quiet) :
    Concerns client entry history op := by
  cases op <;> first | exact quiet.elim | trivial

theorem resumes_quiet (history : Trace) (op : Op) (quiet : op.Quiet) :
    Resumes client entry history op := by
  cases op <;> first | exact quiet.elim | trivial

theorem claimAndDrop_concerns {preimage : Bytes32} :
    Follows (Concerns client entry) (fun _ _ => True)
      (claimAndDrop entry preimage).run history := by
  apply Follows.run_bind_iff.mpr
  apply claimEth_rests concerns_quiet
  · exact fun _ _ _ => trivial
  · intro later outcome _ _
    simp only [Follows.run_ite_iff]
    exact ⟨fun _ => ⟨trivial, fun _ => ⟨trivial, fun _ => trivial⟩⟩, fun _ => trivial⟩

theorem recoverClaimedEscrow_concerns {escrow : HTLCEscrow} :
    Follows (Concerns client entry) (fun _ _ => True)
      (recoverClaimedEscrow entry escrow).run history := by
  unfold recoverClaimedEscrow
  cases escrow.preimage.bind (Bytes.ofSlice? 32) with
  | some preimage => exact claimAndDrop_concerns
  | none => exact ⟨trivial, fun _ => ⟨trivial, fun _ => trivial⟩⟩

/-- The second look at a candidate. -/
theorem resolveWedge_concerns {escrow : HTLCEscrow} {balance : U128} :
    Follows (Concerns client entry) (fun _ _ => True)
      (resolveWedge client entry hashlock escrow balance).run history := by
  apply Follows.run_bind_iff.mpr
  apply readEscrowBounded_found concerns_quiet
  intro before pre _
  apply Follows.run_bind_iff.mpr
  apply maxEscrowBalance_rests concerns_quiet
  intro between freshBalance _
  apply Follows.run_bind_iff.mpr
  apply readEscrowBounded_found concerns_quiet
  intro after post _
  apply Follows.request_bind (concerns_quiet _ .nowUnix trivial)
  intro now
  split
  · exact ⟨rfl, fun _ => ⟨trivial, fun _ => trivial⟩⟩
  · split
    · exact recoverClaimedEscrow_concerns
    · trivial
  · exact ⟨trivial, fun _ => ⟨trivial, fun _ => trivial⟩⟩
  · trivial

/-- A refund of an expired escrow. -/
theorem refundEntry_concerns (parsed : parseHashlockHex entry.hashlock = some hashlock) :
    Follows (Concerns client entry) (fun _ _ => True)
      (refundEntry client fuel entry hashlock).run history := by
  apply Follows.run_bind_iff.mpr
  apply Follows.run_attempt_iff.mpr
  apply refundConfirmed_rests concerns_quiet
  · exact fun later nonces escrow _ read locked => ⟨hashlock, escrow, parsed, rfl, read, locked⟩
  · exact fun later txHash _ _ => ⟨trivial, fun _ => ⟨trivial, fun _ => trivial⟩⟩
  · exact fun later preimage _ _ => claimAndDrop_concerns
  · exact fun later e _ => trivial

theorem settleLocked_concerns {escrow : HTLCEscrow}
    (parsed : parseHashlockHex entry.hashlock = some hashlock) :
    Follows (Concerns client entry) (fun _ _ => True)
      (settleLocked client fuel entry hashlock escrow).run history := by
  apply Follows.run_bind_iff.mpr
  apply maxEscrowBalance_rests concerns_quiet
  intro middle highest _
  cases highest with
  | none => trivial
  | some balance =>
      apply Follows.request_bind (concerns_quiet _ .nowUnix trivial)
      intro now
      simp only [Follows.run_ite_iff]
      refine ⟨fun _ => resolveWedge_concerns, fun _ => ?_⟩
      apply Follows.request_bind (concerns_quiet _ .nowUnix trivial)
      intro later
      simp only [Follows.run_ite_iff]
      exact ⟨fun _ => refundEntry_concerns parsed, fun _ => ⟨trivial, fun _ => trivial⟩⟩

theorem reconcileFound_concerns {escrow : HTLCEscrow}
    (parsed : parseHashlockHex entry.hashlock = some hashlock) :
    Follows (Concerns client entry) (fun _ _ => True)
      (reconcileFound client fuel entry hashlock escrow).run history := by
  simp only [reconcileFound, Follows.run_ite_iff]
  refine ⟨fun _ => Follows.request_bind trivial fun _ => ?_, fun _ => ?_⟩
  all_goals
    split
    · exact recoverClaimedEscrow_concerns
    · exact ⟨trivial, fun _ => ⟨trivial, fun _ => trivial⟩⟩
    · exact settleLocked_concerns parsed

/-- The body of the loop of `reconcile` concerns its entry. -/
theorem reconcileEntry_concerns :
    Follows (Concerns client entry) (fun _ _ => True)
      (reconcileEntry client fuel entry).run history := by
  unfold reconcileEntry
  cases parsed : parseHashlockHex entry.hashlock with
  | none => exact ⟨trivial, fun _ => ⟨trivial, fun _ => trivial⟩⟩
  | some hashlock =>
      apply Follows.run_bind_iff.mpr
      apply readEscrowBounded_found concerns_quiet
      intro middle read _
      dsimp only
      split
      · exact reconcileFound_concerns parsed
      · unfold reconcileAbsent
        split
        · exact ⟨rfl, fun _ => ⟨trivial, fun _ => trivial⟩⟩
        all_goals trivial

/-- The loop of `reconcile` concerns its entries. -/
theorem reconcileEntries_concerns {entries journal : List InFlightSwap}
    (part : ∀ entry ∈ entries, entry ∈ journal) :
    ∀ history, Follows (fun later op => ∃ entry ∈ journal, Concerns client entry later op)
      (fun _ _ => True) (reconcileEntries client fuel entries).run history := by
  induction entries with
  | nil => exact fun _ => trivial
  | cons entry rest ih =>
      intro history
      apply Follows.run_bind_iff.mpr
      apply (reconcileEntry_concerns).mono
      · exact fun later op concerned => ⟨entry, part entry List.mem_cons_self, concerned⟩
      · intro later result _
        cases result with
        | error e => trivial
        | ok => exact ih (fun entry member => part entry (List.mem_cons_of_mem _ member)) later

theorem resumeClaim_resumes {preimage : Bytes32} :
    Follows (Resumes client entry) (fun _ _ => True) (resumeClaim entry preimage).run history := by
  apply Follows.run_bind_iff.mpr
  apply claimEth_rests resumes_quiet
  · exact fun _ _ _ => trivial
  · intro later outcome _ _
    simp only [Follows.run_ite_iff]
    exact ⟨fun _ => ⟨trivial, fun _ => trivial⟩, fun _ => trivial⟩

/-- One wait of `resume_swap`. -/
theorem resumeRound_resumes {expirySecs : U64}
    (parsed : parseHashlockHex entry.hashlock = some hashlock) :
    Follows (Resumes client entry) (fun _ _ => True)
      (resumeRound client fuel entry hashlock expirySecs ()).run history := by
  have claimed : ∀ later preimage, Follows (Resumes client entry) (fun _ _ => True) (do
      return .inr (← resumeClaim entry preimage) : Flow (Unit ⊕ Bool)).run later := by
    intro later preimage
    apply Follows.run_bind_iff.mpr
    apply resumeClaim_resumes.weaken
    intro next result _
    cases result <;> trivial
  apply Follows.request_bind (resumes_quiet _ (.selectLez _ _) trivial)
  intro answer
  cases answer with
  | timer =>
      apply Follows.run_bind_iff.mpr
      apply Follows.run_attempt_iff.mpr
      apply refundConfirmed_rests resumes_quiet
      · exact fun later nonces escrow _ read locked => ⟨hashlock, escrow, parsed, rfl, read, locked⟩
      · exact fun later txHash _ _ => ⟨trivial, fun _ => trivial⟩
      · exact fun later preimage _ _ => claimed _ _
      · exact fun later e _ => trivial
  | event event =>
      cases event with
      | Locked pda => trivial
      | Refunded pda => exact ⟨trivial, fun _ => trivial⟩
      | Claimed pda shown =>
          dsimp only
          split
          · exact claimed _ _
          · trivial

/-- `resume_swap` refunds escrows of its entry that were read locked. -/
theorem resumeSwap_resumes {timelockMs : U64}
    (parsed : parseHashlockHex entry.hashlock = some hashlock) :
    Follows (Resumes client entry) (fun _ _ => True)
      (resumeSwap client fuel entry hashlock timelockMs).run history := by
  apply Follows.request_bind (resumes_quiet _ .lezConnect trivial)
  intro connected
  cases connected with
  | error e => trivial
  | ok =>
  apply Follows.request_bind (resumes_quiet _ .lezConnect trivial)
  intro connected
  cases connected with
  | error e => trivial
  | ok =>
  apply Follows.request_bind (resumes_quiet _ .nowUnix trivial)
  intro now
  apply Follows.run_bind_iff.mpr
  apply Follows.iterate (fun _ _ => True) _ fuel () trivial
  intro reached _ _
  apply (resumeRound_resumes parsed).weaken
  intro later result _
  rcases result with e | _ | cleared
  · trivial
  · trivial
  · cases cleared with
    | false => trivial
    | true => exact ⟨trivial, fun _ => trivial⟩

end Walk

section Uncontested

variable {client : LezClient} {scene : Scene} {history : Trace} {hashlock : Bytes32}

/-- A locked escrow that was read for an entry is this maker's. -/
theorem Uncontested.locked (uncontested : Uncontested client scene) (shows : scene.Shows history)
    {entry : InFlightSwap} (member : entry ∈ scene.entries)
    (parsed : parseHashlockHex entry.hashlock = some hashlock) {escrow : HTLCEscrow}
    (read : EscrowRead client history hashlock escrow) (locked : escrow.state = .Locked) :
    Ours client history hashlock (·.state = .Locked) := by
  refine ⟨⟨escrow, read, locked⟩, fun other read locked => ?_⟩
  obtain ⟨data, answered, decoded⟩ := read
  rcases uncontested entry member hashlock parsed data other (shows.2 _ _ answered) decoded with
    ours | ⟨-, settled⟩
  · exact ours
  · exact absurd locked settled

/-- Any escrow that was read for an entry that is not taken for funded is this maker's. -/
theorem Uncontested.preLock (uncontested : Uncontested client scene) (shows : scene.Shows history)
    {entry : InFlightSwap} (member : entry ∈ scene.entries) (unlocked : entry.stage = .PreLock)
    (parsed : parseHashlockHex entry.hashlock = some hashlock) {escrow : HTLCEscrow}
    (read : EscrowRead client history hashlock escrow) : escrow.makerId = client.accountId := by
  obtain ⟨data, answered, decoded⟩ := read
  rcases uncontested entry member hashlock parsed data escrow (shows.2 _ _ answered) decoded with
    ours | ⟨funded, -⟩
  · exact ours
  · rw [unlocked] at funded
    cases funded

/-- An entry of the snapshot is an entry of the scene. -/
theorem Scene.Shows.member (shows : scene.Shows history) {entry : InFlightSwap}
    (journaled : Snapshotted history entry) : entry ∈ scene.entries := by
  obtain ⟨entries, answered, inside⟩ := journaled
  rwa [shows.1 entries answered] at inside

/-- A refund that concerns an entry is of this maker's escrow. -/
theorem Uncontested.refund (uncontested : Uncontested client scene) (shows : scene.Shows history)
    {entry : InFlightSwap} (member : entry ∈ scene.entries) {pda : AccountId} {nonces : List U128}
    (concerned : Concerns client entry history (.sendTransaction (.htlc pda nonces .Refund))) :
    ActsOnOurs client history (.sendTransaction (.htlc pda nonces .Refund)) := by
  obtain ⟨hashlock, escrow, parsed, same, read, locked⟩ := concerned
  exact ⟨hashlock, same, uncontested.locked shows member parsed read locked⟩

/-- What recovery does for a reason is done to this maker's escrows. -/
theorem Uncontested.acts (uncontested : Uncontested client scene) {op : Op}
    (recovers : Recovers client history op)
    (concerned : op.Quiet ∨ ∃ entry ∈ scene.entries, Concerns client entry history op)
    (shows : scene.Shows history) : ActsOnOurs client history op := by
  rcases concerned with quiet | ⟨entry, member, concerned⟩
  · cases op <;> first | exact quiet.elim | trivial
  cases op with
  | markFunded key =>
      obtain ⟨hashlock, escrow, found, parsed, read, journaled, rfl, unlocked⟩ := recovers
      refine ⟨hashlock, parsed, ⟨escrow, read, trivial⟩, fun other read _ => ?_⟩
      exact uncontested.preLock shows (shows.member journaled) unlocked parsed read
  | spawnResume found hashlock timelockMs =>
      obtain ⟨journaled, parsed, escrow, read, locked, -⟩ := recovers
      exact ⟨parsed, uncontested.locked shows (shows.member journaled) parsed read locked⟩
  | quarantine key reason =>
      obtain rfl : key = entry.hashlock := concerned
      cases recovers with
      | retired parsed journaled keyed unlocked split absent =>
          exact ⟨_, parsed, .inl ⟨_, _, split, absent⟩⟩
      | wedge parsed split before locked balances after still read expired =>
          refine ⟨_, parsed, .inr (uncontested.locked shows member parsed ?_ locked)⟩
          rw [split, List.append_assoc]
          exact before.mono (List.prefix_append _ _)
  | sendTransaction transaction =>
      cases transaction with
      | htlc pda nonces instruction =>
          cases instruction with
          | Refund => exact uncontested.refund shows member concerned
          | _ => trivial
      | _ => trivial
  | _ => trivial

/-- `reconcile` concerns the entries of the scene. -/
theorem reconcile_concerned {fuel : Nat} :
    Follows (fun later op => scene.Shows later →
        op.Quiet ∨ ∃ entry ∈ scene.entries, Concerns client entry later op) (fun _ _ => True)
      (reconcile client fuel).run [] := by
  apply Follows.request_bind fun _ => .inl trivial
  intro entries
  simp only [Follows.run_ite_iff]
  refine ⟨fun _ => trivial, fun _ => ?_⟩
  apply Follows.request_bind fun _ => .inl trivial
  intro connected
  cases connected with
  | error e => trivial
  | ok =>
      apply ((reconcileEntries_concerns (fun _ member => member) _).and
        (Follows.extends_history _ _)).mono
      · rintro later op ⟨⟨entry, member, concerned⟩, grown⟩ shows
        have same : entries = scene.entries := shows.1 entries (grown.subset (by simp))
        exact .inr ⟨entry, same ▸ member, concerned⟩
      · exact fun _ _ _ => trivial

/-- Uncontested, recovery keeps to this maker's escrows. -/
theorem Uncontested.keeps (uncontested : Uncontested client scene) : KeepsToOurs client scene where
  reconciles fuel := by
    have recovers : Follows (Recovers client) (fun _ _ => True) (reconcile client fuel).run [] :=
      reconcile_rests
    apply (recovers.and reconcile_concerned).mono
    · exact fun later op ruled shows => uncontested.acts ruled.1 (ruled.2 shows) shows
    · intro later _ _ shows _ entry member unlocked hashlock escrow parsed read foreign
      exact absurd (uncontested.preLock shows member unlocked parsed read) foreign
  resumes entry member hashlock parsed fuel timelockMs := by
    apply (resumeSwap_resumes parsed).mono
    · intro later op resumes shows
      cases op with
      | sendTransaction transaction =>
          cases transaction with
          | htlc pda nonces instruction =>
              cases instruction with
              | Refund => exact uncontested.refund shows member resumes
              | _ => trivial
          | _ => trivial
      | quarantine | markFunded | spawnResume => exact resumes.elim
      | _ => trivial
    · exact fun _ _ _ => trivial

end Uncontested

/-- Nothing was read of the journal or of an account. -/
def Silent (history : Trace) : Prop :=
  (∀ entries, ⟨.snapshot, entries⟩ ∉ history) ∧ ∀ pda data, ⟨.getAccount pda, .ok data⟩ ∉ history

section Contested

variable {client : LezClient} {scene : Scene} {rule : Trace → Op → Prop} {history : Trace}
  {entry : InFlightSwap} {hashlock : Bytes32} {data : List UInt8} {escrow : HTLCEscrow}
  {fuel : Nat}

theorem Silent.append {first second : Trace} (early : Silent first) (late : Silent second) :
    Silent (first ++ second) := by
  constructor
  · intro entries member
    exact (List.mem_append.mp member).elim (early.1 entries) (late.1 entries)
  · intro pda data member
    exact (List.mem_append.mp member).elim (early.2 pda data) (late.2 pda data)

theorem Scene.Shows.append_silent (shows : scene.Shows history) {middle : Trace}
    (silent : Silent middle) : scene.Shows (history ++ middle) := by
  constructor
  · intro entries member
    exact (List.mem_append.mp member).elim (shows.1 entries) fun late => absurd late (silent.1 _)
  · intro pda data member
    exact (List.mem_append.mp member).elim (shows.2 pda data) fun late => absurd late (silent.2 _ _)

/-- What was read is answered again. -/
theorem Scene.Shows.append_read (shows : scene.Shows history) {pda : AccountId}
    (held : scene.content pda data) : scene.Shows (history ++ [⟨.getAccount pda, .ok data⟩]) := by
  constructor
  · intro entries member
    rcases List.mem_append.mp member with early | late
    · exact shows.1 entries early
    · simp at late
  · intro other shown member
    rcases List.mem_append.mp member with early | late
    · exact shows.2 other shown early
    · simp only [List.mem_singleton, Exchange.mk.injEq, Op.getAccount.injEq] at late
      obtain ⟨rfl, same⟩ := late
      cases same
      exact held

/-- A read of an escrow may fail. -/
theorem getEscrow_failed {post : Trace → Except SwapError (Option HTLCEscrow) → Prop}
    (follows : Follows rule post (client.getEscrow hashlock).run history) :
    ∃ e, post (history ++ [⟨.getAccount (client.escrowPda hashlock), .error ""⟩]) (.error e) :=
  ⟨_, Follows.run_throw_iff.mp (opened follows (.error ""))⟩

/-- A read of an escrow may find what is there. -/
theorem getEscrow_answered {post : Trace → Except SwapError (Option HTLCEscrow) → Prop}
    (decoded : escrowIn hashlock data = .ok (some escrow))
    (follows : Follows rule post (client.getEscrow hashlock).run history) :
    post (history ++ [⟨.getAccount (client.escrowPda hashlock), .ok data⟩])
      (.ok (some escrow)) := by
  have next := opened follows (.ok data)
  simp only [decoded] at next
  exact Follows.run_pure_iff.mp next

/-- All the reads that are left may fail. -/
theorem readEscrowLeft_silent {post : Trace → Except SwapError BoundedEscrowRead → Prop}
    (left : Nat) : ∀ history anyErr absentReads,
      Follows rule post (readEscrowLeft client hashlock left anyErr absentReads).run history →
      ∃ middle, Silent middle ∧
        post (history ++ middle) (.ok ⟨none, anyErr || left != 0, absentReads⟩) := by
  induction left with
  | zero =>
      intro history anyErr absentReads follows
      exact ⟨[], by simp [Silent], by simpa using Follows.run_pure_iff.mp follows⟩
  | succ left ih =>
      intro history anyErr absentReads follows
      obtain ⟨e, next⟩ := getEscrow_failed
        (Follows.run_attempt_iff.mp (Follows.run_bind_iff.mp follows))
      have silent : Silent [(⟨.getAccount (client.escrowPda hashlock), .error ""⟩ :
          Exchange interface)] := by simp [Silent]
      simp only at next
      split at next
      · obtain ⟨middle, quiet, final⟩ := ih _ true absentReads (opened next ())
        refine ⟨_ ++ [⟨.sleep, ()⟩] ++ middle, (silent.append (by simp [Silent])).append quiet, ?_⟩
        simpa [List.append_assoc] using final
      · obtain ⟨middle, quiet, final⟩ := ih _ true absentReads next
        exact ⟨_ ++ middle, silent.append quiet, by simpa [List.append_assoc] using final⟩

/-- The entry before may be passed over without a read that finds anything. -/
theorem reconcileEntry_silent {post : Trace → Except SwapError Unit → Prop}
    (follows : Follows rule post (reconcileEntry client fuel entry).run history) :
    ∃ middle, Silent middle ∧ post (history ++ middle) (.ok ()) := by
  unfold reconcileEntry at follows
  cases parsed : parseHashlockHex entry.hashlock with
  | none =>
      simp only [parsed] at follows
      have dropped := opened follows ()
      have done : post (_ ++ [⟨.ops (.failed entry.hashlock .CorruptEntry), ()⟩]) (.ok ()) :=
        dropped.2 ()
      rw [List.append_assoc] at done
      exact ⟨_, by simp [Silent], done⟩
  | some hashlock =>
      simp only [parsed] at follows
      obtain ⟨middle, silent, next⟩ := readEscrowLeft_silent maxReads _ _ _
        (Follows.run_bind_iff.mp follows)
      exact ⟨middle, silent, Follows.run_pure_iff.mp next⟩

/-- Every entry may be the first one whose escrow is found. -/
theorem reconcileEntries_reach {post : Trace → Except SwapError Unit → Prop}
    {earlier later : List InFlightSwap} : ∀ {history},
      Follows rule post (reconcileEntries client fuel (earlier ++ entry :: later)).run history →
      ∃ middle, Silent middle ∧
        Follows rule (fun _ _ => True) (reconcileEntry client fuel entry).run
          (history ++ middle) := by
  induction earlier with
  | nil =>
      intro history follows
      refine ⟨[], by simp [Silent], ?_⟩
      rw [List.append_nil]
      exact (Follows.run_bind_iff.mp follows).weaken fun _ _ _ => trivial
  | cons passed rest ih =>
      intro history follows
      obtain ⟨middle, silent, onward⟩ := reconcileEntry_silent (Follows.run_bind_iff.mp follows)
      obtain ⟨further, quiet, reached⟩ := ih onward
      exact ⟨middle ++ further, silent.append quiet, by simpa [List.append_assoc] using reached⟩

/-- An escrow that is found is acted on. -/
theorem reconcileEntry_found {post : Trace → Except SwapError Unit → Prop}
    (parsed : parseHashlockHex entry.hashlock = some hashlock)
    (decoded : escrowIn hashlock data = .ok (some escrow))
    (follows : Follows rule post (reconcileEntry client fuel entry).run history) :
    Follows rule post (reconcileFound client fuel entry hashlock escrow).run
      (history ++ [⟨.getAccount (client.escrowPda hashlock), .ok data⟩]) := by
  simp only [reconcileEntry, parsed] at follows
  have reading := Follows.run_bind_iff.mp follows
  have once := Follows.run_attempt_iff.mp (Follows.run_bind_iff.mp reading)
  exact getEscrow_answered decoded once

/-- The balance of an escrow may be found to be enough at once. -/
theorem maxEscrowBalance_enough {pda : AccountId} {enough : U128}
    {post : Trace → Except SwapError (Option U128) → Prop}
    (follows : Follows rule post (maxEscrowBalance pda enough).run history) :
    post (history ++ [⟨.getAccountBalance pda, .ok enough⟩]) (.ok (some enough)) := by
  have once := opened (Follows.run_attempt_iff.mp (Follows.run_bind_iff.mp follows)) (.ok enough)
  exact (Follows.run_ite_iff.mp (Follows.run_pure_iff.mp once)).1 (BitVec.le_refl _)

/-- A refund is submitted once its escrow is read locked. -/
theorem refundConfirmed_submits {post : Trace → Except SwapError Lez.RefundOutcome → Prop}
    (decoded : escrowIn hashlock data = .ok (some escrow)) (locked : escrow.state = .Locked)
    (follows : Follows rule post (client.refundConfirmed 1 hashlock).run history) :
    rule (history ++ [⟨.getAccount (client.escrowPda hashlock), .ok data⟩] ++
        [⟨.getAccountsNonces client.accountId, .ok []⟩])
      (.sendTransaction (.htlc (client.escrowPda hashlock) [] .Refund)) := by
  have turn := Follows.run_bind_iff.mp (Follows.run_bind_iff.mp follows)
  have answered := getEscrow_answered decoded turn
  simp only [locked, Bool.false_eq_true, if_false] at answered
  have refunding := Follows.run_attempt_iff.mp (Follows.run_bind_iff.mp answered)
  have signing := Follows.run_bind_iff.mp refunding
  exact (opened signing (.ok [])).1

/-- A locked escrow that holds its amount is resumed, or refunded where it never was live. -/
theorem settleLocked_acts {post : Trace → Except SwapError Unit → Prop}
    (decoded : escrowIn hashlock data = .ok (some escrow)) (locked : escrow.state = .Locked)
    (follows : Follows rule post (settleLocked client 1 entry hashlock escrow).run history) :
    (∃ middle, Silent middle ∧
      rule (history ++ middle) (.spawnResume entry hashlock escrow.timelock)) ∨
    ∃ middle, Silent middle ∧ rule (history ++ middle ++
        [⟨.getAccount (client.escrowPda hashlock), .ok data⟩] ++
        [⟨.getAccountsNonces client.accountId, .ok []⟩])
      (.sendTransaction (.htlc (client.escrowPda hashlock) [] .Refund)) := by
  have paid := opened (maxEscrowBalance_enough (Follows.run_bind_iff.mp follows)) 0
  have funded : isPartialLockWedge escrow.state (0 * 1000) escrow.timelock escrow.amount
      escrow.amount ≠ true := by simp [isPartialLockWedge]
  have timed := opened ((Follows.run_ite_iff.mp paid).2 funded) 0
  have silent : Silent [⟨.getAccountBalance (client.escrowPda hashlock), .ok escrow.amount⟩,
      ⟨.nowUnix, 0⟩, ⟨.nowUnix, 0⟩] := by simp [Silent]
  have cases := Follows.run_ite_iff.mp timed
  by_cases expired : escrow.timelock ≤ 0 * 1000
  · refine .inr ⟨_, silent, ?_⟩
    have refunding := Follows.run_attempt_iff.mp (Follows.run_bind_iff.mp (cases.1 expired))
    simpa [List.append_assoc] using refundConfirmed_submits decoded locked refunding
  · refine .inl ⟨_, silent, ?_⟩
    simpa [List.append_assoc] using (cases.2 expired).1

/-- Where recovery keeps to this maker's escrows, whatever is found for an entry is its own,
or settled and taken for funded before. -/
theorem KeepsToOurs.uncontested (keeps : KeepsToOurs client scene) : Uncontested client scene := by
  intro entry member hashlock parsed data escrow held decoded
  obtain ⟨earlier, later, split⟩ := List.append_of_mem member
  have connecting := opened (keeps.reconciles 1) scene.entries
  have present : scene.entries.isEmpty ≠ true := by simp [split]
  have connected := opened ((Follows.run_ite_iff.mp connecting).2 present) (.ok ())
  rw [split] at connected
  obtain ⟨middle, silent, reached⟩ := reconcileEntries_reach connected
  have found := reconcileEntry_found parsed decoded reached
  have shown : scene.Shows ([⟨.snapshot, scene.entries⟩] ++ [⟨.lezConnect, .ok ()⟩] ++ middle ++
      [⟨.getAccount (client.escrowPda hashlock), .ok data⟩]) := by
    apply Scene.Shows.append_read _ held
    apply Scene.Shows.append_silent _ silent
    simp [Scene.Shows]
  rw [← split] at found
  have read : EscrowRead client ([⟨.snapshot, scene.entries⟩] ++ [⟨.lezConnect, .ok ()⟩] ++
      middle ++ [⟨.getAccount (client.escrowPda hashlock), .ok data⟩]) hashlock escrow :=
    ⟨data, by simp, decoded⟩
  have decided := Follows.run_ite_iff.mp found
  cases stage : entry.stage with
  | PreLock =>
      left
      obtain ⟨other, same, -, ours⟩ := (decided.1 stage).1 shown
      obtain rfl : hashlock = other := Option.some.inj (parsed.symm.trans same)
      exact ours escrow read trivial
  | Funded =>
      by_cases ours : escrow.makerId = client.accountId
      · exact .inl ours
      · refine .inr ⟨rfl, fun locked => ours ?_⟩
        have settling := decided.2 (by simp [stage])
        simp only [locked] at settling
        rcases settleLocked_acts decoded locked settling with
          ⟨after, quiet, acts⟩ | ⟨after, quiet, acts⟩
        · obtain ⟨-, -, ours⟩ := acts (shown.append_silent quiet)
          exact ours escrow (read.mono (List.prefix_append _ _)) locked
        · have reread := (shown.append_silent quiet).append_read held
          obtain ⟨other, -, ⟨again, reading, -⟩, ours⟩ :=
            acts (reread.append_silent (by simp [Silent]))
          -- all that was read is this escrow, so it is the one the refund is for
          obtain ⟨shownData, member, redecoded⟩ := reading
          have once : client.escrowPda other = client.escrowPda hashlock ∧ shownData = data := by
            simpa [silent.2, quiet.2] using member
          obtain ⟨-, rfl⟩ := once
          obtain ⟨stored, rfl⟩ := Lez.escrowIn_hashlock decoded
          obtain ⟨restored, rfl⟩ := Lez.escrowIn_hashlock redecoded
          rw [stored] at restored
          cases restored
          exact ours escrow (read.mono (by simp [List.append_assoc])) locked

/-- Recovery acts on this maker's escrows only, and on every one of them, exactly where no
other maker's escrow can be read for an entry that it would act on. -/
theorem keepsToOurs_iff (client : LezClient) (scene : Scene) :
    KeepsToOurs client scene ↔ Uncontested client scene :=
  ⟨fun keeps => keeps.uncontested, fun uncontested => uncontested.keeps⟩

end Contested

end AtomicSwaps.Cli
