import AtomicSwaps.Cli.Reconcile
import AtomicSwaps.Lez.EscrowFeed

/-!
# Reading escrows

The byte format both ways, and what becomes of the tasks that read an escrow account:
`get_escrow`, the watcher of `src/lez/watcher.rs`, the refund and startup reconciliation.
-/

namespace AtomicSwaps.Lez

open Semantics Swap Cli HTLCEscrow

/-- The byte format of escrows: what is written is read back, whatever follows it; what can
be read is what is well formed; and it is written back as it was read. -/
theorem escrow_codec :
    (∀ escrow : HTLCEscrow, escrow.Encodable → ∀ suffix,
      fromBytes (escrow.toBytes ++ suffix) = .ok escrow) ∧
      ∀ data, ((∃ escrow, fromBytes data = .ok escrow) ↔ WellFormed data) ∧
        ∀ escrow, fromBytes data = .ok escrow →
          escrow.toBytes = data.take (125 + preimageLength data) :=
  ⟨fun _ encodable suffix => fromBytes_toBytes_append encodable suffix,
    fun _ => ⟨fromBytes_ok_iff, fun _ read => toBytes_of_read read⟩⟩

variable (client : LezClient) (hashlock : Bytes32)

/-- The answers of a sequencer that has this data in an account. -/
def Holding (account : AccountId) (data : List UInt8) : (op : Op) → Answer op → Prop
  | .getAccount asked, answer => asked = account → answer = .ok data
  | _, _ => True

/-- The answers to a watcher of such a sequencer; its receiver may go at any time. -/
def WatchHolding (account : AccountId) (data : List UInt8) :
    (op : EscrowWatch.Op) → EscrowWatch.Answer op → Prop
  | EscrowWatchOp.client op, answer => Holding account data op answer
  | EscrowWatchOp.send _, _ => True

/-- Data that `get_escrow` can read: too short for an escrow, or a well-formed one. -/
def Readable (data : List UInt8) : Prop := data.length < 125 ∨ WellFormed data

instance (data : List UInt8) : Decidable (Readable data) := by
  unfold Readable
  infer_instance

/-- What a read of data amounts to, when it amounts to anything. -/
theorem escrowIn_ok_iff {data : List UInt8} :
    (∃ found, escrowIn hashlock data = .ok found) ↔ Readable data := by
  unfold escrowIn Readable
  by_cases short : data.length < 125
  · simp [short]
  · simp only [short, if_false, false_or, ← fromBytes_ok_iff, Assert.bind_eq_ok]
    constructor
    · rintro ⟨_, escrow, read, -⟩
      exact ⟨escrow, read⟩
    · rintro ⟨escrow, read⟩
      exact ⟨_, escrow, read, rfl⟩

variable {client hashlock} {data : List UInt8}

/-- A flow that reads the escrow first goes on with what is read, or not at all. -/
theorem getEscrow_returns_iff {post : Except SwapError (Option HTLCEscrow) → Prop} :
    Returns (Holding (client.escrowPda hashlock) data) post (client.getEscrow hashlock).run ↔
      ∃ found, escrowIn hashlock data = .ok found ∧ post (.ok found) := by
  unfold LezClient.getEscrow
  rw [Returns.request_bind_iff]
  constructor
  · intro returns
    have read := returns (.ok data) fun _ => rfl
    cases decoded : escrowIn hashlock data with
    | error message =>
        simp only [decoded] at read
        exact absurd read id
    | ok found =>
        simp only [decoded] at read
        exact ⟨found, rfl, read⟩
  · rintro ⟨found, decoded, holds⟩ answer given
    obtain rfl : answer = .ok data := given rfl
    simp only [decoded]
    exact holds

/-- Everything in the answers besides the account's data is free, so an operation that is
not a read of it cannot be stuck. -/
theorem getBalanceOrZero_returns (account : AccountId) :
    Returns (Holding (client.escrowPda hashlock) data) (fun _ => True)
      (LezClient.getBalanceOrZero account).run := by
  unfold LezClient.getBalanceOrZero LezClient.getBalance
  rw [Returns.run_bind_iff, Returns.run_attempt_iff, Returns.request_bind_iff]
  intro answer _
  cases answer <;> trivial

/-- A call of the client returns to the watcher what it returns. -/
theorem clientCall_returns_iff {α : Type} {flow : Flow α} {post : Except SwapError α → Prop} :
    Returns (WatchHolding (client.escrowPda hashlock) data) post (clientCall flow).run ↔
      Returns (Holding (client.escrowPda hashlock) data) post flow.run :=
  Returns.embed_iff (fun _ _ => Iff.rfl) fun _ => Function.surjective_id

theorem sendRead_returns (lastState : Option HTLCState) (escrow : HTLCEscrow) (balance : U128) :
    Returns (WatchHolding (client.escrowPda hashlock) data) (fun _ => True)
      (sendRead (client.escrowPda hashlock) lastState escrow balance).run := by
  unfold sendRead
  split
  · refine Returns.request_bind_iff.mpr fun delivered _ => ?_
    split
    · trivial
    · split
      · trivial
      · exact fun _ _ => trivial
  · exact fun _ _ => trivial

/-- The watcher's turn comes to an end exactly when its read does. -/
theorem watchTurn_returns_iff {lastState : Option HTLCState} :
    Returns (WatchHolding (client.escrowPda hashlock) data) (fun _ => True)
      (client.watchTurn hashlock lastState).run ↔ Readable data := by
  unfold LezClient.watchTurn
  simp only [Returns.run_bind_iff, clientCall_returns_iff, Returns.run_attempt_iff,
    getEscrow_returns_iff]
  rw [← escrowIn_ok_iff hashlock]
  constructor
  · rintro ⟨found, decoded, -⟩
    exact ⟨found, decoded⟩
  · rintro ⟨found, decoded⟩
    refine ⟨found, decoded, ?_⟩
    cases found with
    | none => exact fun _ _ => trivial
    | some escrow =>
        by_cases unannounced : escrow.state = .Locked ∧ lastState = none
        · simp only [unannounced, and_self, if_true, Returns.run_bind_iff, clientCall_returns_iff]
          refine (getBalanceOrZero_returns _).weaken fun result _ => ?_
          cases result with
          | ok balance => exact sendRead_returns none escrow balance
          | error error => trivial
        · simp only [unannounced, if_false]
          exact sendRead_returns lastState escrow 0

theorem refundPending_returns (progress : LezClient.RefundProgress) :
    Returns (Holding (client.escrowPda hashlock) data) (fun _ => True)
      (LezClient.refundPending progress).run := by
  unfold LezClient.refundPending
  rw [Returns.request_bind_iff]
  intro passed _
  cases passed with
  | true => trivial
  | false => exact fun _ _ => trivial

theorem refund_returns :
    Returns (Holding (client.escrowPda hashlock) data) (fun _ => True)
      (client.refund hashlock).run := by
  unfold LezClient.refund LezClient.sendHtlcInstruction LezClient.getNonces
  rw [Returns.run_bind_iff, Returns.request_bind_iff]
  intro nonces _
  cases nonces with
  | error message => trivial
  | ok nonces =>
      rintro (message | txHash) _ <;> trivial

/-- So does the round of a refund. -/
theorem refundRound_returns_iff {progress : LezClient.RefundProgress} :
    Returns (Holding (client.escrowPda hashlock) data) (fun _ => True)
      (client.refundRound hashlock progress).run ↔ Readable data := by
  unfold LezClient.refundRound
  simp only [Returns.run_bind_iff, getEscrow_returns_iff]
  rw [← escrowIn_ok_iff hashlock]
  constructor
  · rintro ⟨found, decoded, -⟩
    exact ⟨found, decoded⟩
  · rintro ⟨found, decoded⟩
    refine ⟨found, decoded, ?_⟩
    cases found with
    | none =>
        dsimp only
        split
        · trivial
        · exact refundPending_returns _
    | some escrow =>
        dsimp only
        split
        · trivial
        · rw [Returns.run_bind_iff]
          unfold LezClient.claimedOutcome
          split <;> trivial
        · split
          · exact refundPending_returns _
          · rw [Returns.run_bind_iff, Returns.run_attempt_iff]
            refine refund_returns.weaken fun outcome _ => ?_
            cases outcome <;> exact refundPending_returns _

/-- And so do the bounded reads of reconciliation. -/
theorem readEscrowBounded_returns_iff :
    Returns (Holding (client.escrowPda hashlock) data) (fun _ => True)
      (readEscrowBounded client hashlock).run ↔ Readable data := by
  suffices reads : ∀ left anyErr absentReads,
      Returns (Holding (client.escrowPda hashlock) data) (fun _ => True)
        (readEscrowLeft client hashlock (left + 1) anyErr absentReads).run ↔ Readable data from
    reads 4 false 0
  intro left
  induction left with
  | zero =>
      intro anyErr absentReads
      unfold readEscrowLeft
      rw [Returns.run_bind_iff, Returns.run_attempt_iff, getEscrow_returns_iff,
        ← escrowIn_ok_iff hashlock]
      constructor
      · rintro ⟨found, decoded, -⟩
        exact ⟨found, decoded⟩
      · rintro ⟨found, decoded⟩
        refine ⟨found, decoded, ?_⟩
        cases found <;> trivial
  | succ left ih =>
      intro anyErr absentReads
      unfold readEscrowLeft
      rw [Returns.run_bind_iff, Returns.run_attempt_iff, getEscrow_returns_iff]
      constructor
      · rintro ⟨found, decoded, -⟩
        exact (escrowIn_ok_iff hashlock).mp ⟨found, decoded⟩
      · intro readable
        obtain ⟨found, decoded⟩ := (escrowIn_ok_iff hashlock).mpr readable
        refine ⟨found, decoded, ?_⟩
        cases found with
        | none => exact fun _ _ => (ih anyErr (absentReads + 1)).mpr readable
        | some escrow => trivial

/-- A read of the escrow's account keeps its promise: an escrow with the hashlock that was
asked for or none, and the watcher, the refund and reconciliation go on from it. -/
def ReadsOn (client : LezClient) (hashlock : Bytes32) (data : List UInt8) : Prop :=
  Returns (Holding (client.escrowPda hashlock) data)
      (fun result => ∃ found, result = .ok found ∧
        ∀ escrow ∈ found, escrow.hashlock = hashlock) (client.getEscrow hashlock).run ∧
    (∀ lastState, Returns (WatchHolding (client.escrowPda hashlock) data) (fun _ => True)
      (client.watchTurn hashlock lastState).run) ∧
    (∀ progress, Returns (Holding (client.escrowPda hashlock) data) (fun _ => True)
      (client.refundRound hashlock progress).run) ∧
    Returns (Holding (client.escrowPda hashlock) data) (fun _ => True)
      (readEscrowBounded client hashlock).run

/-- Reads keep their promise on exactly the data that is too short for an escrow or holds a
well-formed one. -/
theorem reads_on_iff (client : LezClient) (hashlock : Bytes32) (data : List UInt8) :
    ReadsOn client hashlock data ↔ Readable data := by
  constructor
  · rintro ⟨-, watches, -⟩
    exact watchTurn_returns_iff.mp (watches none)
  · intro readable
    refine ⟨?_, fun _ => watchTurn_returns_iff.mpr readable,
      fun _ => refundRound_returns_iff.mpr readable, readEscrowBounded_returns_iff.mpr readable⟩
    obtain ⟨found, decoded⟩ := (escrowIn_ok_iff hashlock).mpr readable
    refine getEscrow_returns_iff.mpr ⟨found, decoded, found, rfl, ?_⟩
    rintro escrow rfl
    exact (escrowIn_hashlock decoded).2

/-- An account with 125 bytes that name no state is neither an escrow nor none. -/
theorem unreadable_state :
    ¬ ReadsOn ⟨Bytes.fill 32 5, id⟩ (Bytes.fill 32 7) (List.replicate 125 3) := by
  rintro ⟨-, watches, -⟩
  have readable := watchTurn_returns_iff.mp (watches none)
  exact absurd readable (by decide +kernel)

end AtomicSwaps.Lez
