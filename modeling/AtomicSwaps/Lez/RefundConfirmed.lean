import AtomicSwaps.Lez.EscrowReads
import AtomicSwaps.Swap.Evidence

/-!
# The confirmed refund

What `refund_confirmed` of `src/lez/client.rs` may submit, what its result rests on, and that
the clock ends it.
-/

namespace AtomicSwaps.Lez

open Semantics Swap

/-- What ends a confirmed refund: the read of a terminal escrow just before, or an error. -/
inductive Concluded (client : LezClient) (hashlock : Bytes32) :
    Trace → Except SwapError RefundOutcome → Prop where
  | refunded {before : Trace} {data : List UInt8} {escrow : HTLCEscrow} {txHash : String}
      (read : escrowIn hashlock data = .ok (some escrow)) (state : escrow.state = .Refunded) :
      Concluded client hashlock (before ++ [⟨.getAccount (client.escrowPda hashlock), .ok data⟩])
        (.ok (.Refunded txHash))
  | claimed {before : Trace} {data : List UInt8} {escrow : HTLCEscrow} {preimage : Bytes32}
      (read : escrowIn hashlock data = .ok (some escrow)) (state : escrow.state = .Claimed)
      (stored : escrow.preimage = some preimage.toList) :
      Concluded client hashlock (before ++ [⟨.getAccount (client.escrowPda hashlock), .ok data⟩])
        (.ok (.ClaimedByTaker preimage))
  | unread {before : Trace} {e text : String} :
      Concluded client hashlock (before ++ [⟨.getAccount (client.escrowPda hashlock), .error e⟩])
        (.error (.LezSequencer text))
  | malformed {before : Trace} {data : List UInt8} {escrow : HTLCEscrow} {expected actual : String}
      (read : escrowIn hashlock data = .ok (some escrow)) (state : escrow.state = .Claimed)
      (unstored : ∀ preimage : Bytes32, escrow.preimage ≠ some preimage.toList) :
      Concluded client hashlock (before ++ [⟨.getAccount (client.escrowPda hashlock), .ok data⟩])
        (.error (.InvalidState expected actual))
  | absent {before : Trace} {data : List UInt8} {text : String}
      (read : escrowIn hashlock data = .ok none) :
      Concluded client hashlock (before ++ [⟨.getAccount (client.escrowPda hashlock), .ok data⟩])
        (.error (.EscrowStateUnknown text))
  | late {before : Trace} {text : String} :
      Concluded client hashlock (before ++ [⟨.deadlinePassed, true⟩])
        (.error (.EscrowStateUnknown text))

/-- Nothing has been submitted. -/
def Unsubmitted (history : Trace) : Prop :=
  ∀ exchange ∈ history, ∀ transaction, exchange.op ≠ .sendTransaction transaction

/-- Only a refund is submitted, once, of an escrow that was read locked. -/
def RefundsOnce (client : LezClient) (hashlock : Bytes32) (history : Trace) : Op → Prop
  | .sendTransaction transaction => Unsubmitted history ∧
      (∃ nonces, transaction = .htlc (client.escrowPda hashlock) nonces .Refund) ∧
      ∃ escrow, EscrowRead client history hashlock escrow ∧ escrow.state = .Locked
  | _ => True

variable {client : LezClient} {hashlock : Bytes32} {history : Trace}

theorem Unsubmitted.append (unsubmitted : Unsubmitted history) {op : Op} {answer : Answer op}
    (other : ∀ transaction, op ≠ .sendTransaction transaction) :
    Unsubmitted (history ++ [⟨op, answer⟩]) := by
  intro exchange member
  rcases List.mem_append.mp member with earlier | last
  · exact unsubmitted exchange earlier
  · obtain rfl := List.mem_singleton.mp last
    exact other

/-- The invariant of the rounds: what was not submitted is known not to be. -/
def Known (history : Trace) (progress : LezClient.RefundProgress) : Prop :=
  progress.submitted = false → Unsubmitted history

/-- A turn goes on with the invariant, or has concluded. -/
def Turned (client : LezClient) (hashlock : Bytes32) (later : Trace) :
    Except SwapError (LezClient.RefundProgress ⊕ RefundOutcome) → Prop
  | .ok (.inl next) => Known later next
  | .ok (.inr outcome) => Concluded client hashlock later (.ok outcome)
  | .error error => Concluded client hashlock later (.error error)

theorem refundPending_follows {progress : LezClient.RefundProgress}
    (known : Known history progress) :
    Follows (RefundsOnce client hashlock) (Turned client hashlock)
      (LezClient.refundPending progress).run history := by
  apply Follows.request_bind trivial
  intro passed
  cases passed with
  | true => exact .late
  | false =>
      apply Follows.request_bind trivial
      intro slept fresh
      have waited : Unsubmitted (history ++ [⟨.deadlinePassed, false⟩]) :=
        (known fresh).append fun _ => nofun
      exact waited.append fun _ => nofun

/-- One turn: the cases of the read, and the single submission of a locked escrow. -/
theorem refundRound_follows {progress : LezClient.RefundProgress}
    (known : Known history progress) :
    Follows (RefundsOnce client hashlock) (Turned client hashlock)
      (client.refundRound hashlock progress).run history := by
  apply Follows.run_bind_iff.mpr
  apply LezClient.getEscrow_follows trivial
  · intro data found read
    have still : Known (history ++ [⟨.getAccount (client.escrowPda hashlock), .ok data⟩]) progress :=
      fun fresh => (known fresh).append fun _ => by simp
    cases found with
    | none =>
        dsimp only
        split
        · exact .absent read
        · exact refundPending_follows still
    | some escrow =>
        dsimp only
        cases state : escrow.state with
        | Refunded => exact .refunded read state
        | Claimed =>
            apply Follows.run_bind_iff.mpr
            simp only [LezClient.claimedOutcome]
            cases shown : escrow.preimage.bind (Bytes.ofSlice? 32) with
            | none =>
                refine .malformed read state fun preimage stored => ?_
                rw [stored, Option.bind_some, Bytes.ofSlice?_toList] at shown
                cases shown
            | some preimage =>
                obtain ⟨bytes, stored, long⟩ := Option.bind_eq_some_iff.mp shown
                rw [Bytes.ofSlice?_eq_some.mp long] at stored
                exact .claimed read state stored
        | Locked =>
            dsimp only
            split
            · rename_i submitted
              exact refundPending_follows fun fresh => by simp [submitted] at fresh
            · rename_i fresh
              have none := still (Bool.eq_false_iff.mpr fresh)
              apply Follows.run_bind_iff.mpr
              apply Follows.run_attempt_iff.mpr
              apply LezClient.sendHtlcInstruction_follows trivial
              · intro nonces
                exact ⟨none.append fun _ => by simp, ⟨nonces, rfl⟩, escrow,
                  ⟨data, by simp, read⟩, state⟩
              · exact fun e => refundPending_follows (by simp [Known])
              · intro nonces answer
                cases answer with
                | error e => exact refundPending_follows (by simp [Known])
                | ok txHash => exact refundPending_follows (by simp [Known])
  · exact fun e => .unread

/-- Whatever is read and whatever becomes of the submission, a confirmed refund submits one
refund at most, of an escrow that was read locked, and returns what it has just read. -/
theorem refundConfirmed_concludes (fuel : Nat) :
    Follows (RefundsOnce client hashlock) (Concluded client hashlock)
      (client.refundConfirmed fuel hashlock).run [] := by
  apply Follows.iterate Known _ fuel _ fun _ => by simp [Unsubmitted]
  intro later progress known
  refine (refundRound_follows known).weaken fun last result turned => ?_
  cases result with
  | error error => exact turned
  | ok broke => cases broke <;> exact turned

/-- `refund_confirmed` gives up 300 s after its start. -/
def refundDeadlineMs : Nat := 300000

/-- A clock in milliseconds that a sleep moves on by the poll interval at least, and reads that
fail or return data that can be read. -/
def polling (pollMs deadline : Nat) : Environment interface Nat where
  drift before after := before ≤ after
  perform
    | .sleep, before, _, after => before + pollMs ≤ after
    | .deadlinePassed, before, passed, after => passed = decide (deadline ≤ before) ∧ after = before
    | .getAccount _, before, answer, after =>
        (∀ data, answer = .ok data → Readable data) ∧ after = before
    | _, before, _, after => after = before

section Time

variable {pollMs deadline : Nat} {clock before : Nat}

theorem polling_drifts
    (drifted : Relation.ReflTransGen (polling pollMs deadline).drift clock before) :
    clock ≤ before := by
  induction drifted with
  | refl => exact le_refl _
  | tail _ step ih => exact le_trans ih step

/-- The fuel that is left lasts beyond the deadline. -/
def Lasts (pollMs deadline fuel clock : Nat) (_ : LezClient.RefundProgress) : Prop :=
  deadline + pollMs ≤ clock + fuel * pollMs ∧ 0 < fuel

/-- A turn that goes on has not passed the deadline, and has slept. -/
theorem refundPending_completes {fuel : Nat} {progress : LezClient.RefundProgress}
    (lasts : deadline + pollMs ≤ clock + (fuel + 1) * pollMs) :
    Completes (polling pollMs deadline) (fun later result =>
      match result with
      | .ok (.inl next) => Lasts pollMs deadline fuel later next
      | .ok (.inr _) => True
      | .error _ => True) (LezClient.refundPending progress).run clock := by
  rw [LezClient.refundPending, Completes.request_bind_iff]
  rintro before passed after drifted ⟨rfl, rfl⟩
  have grown := polling_drifts drifted
  by_cases past : deadline ≤ after
  · simp only [past, decide_true, if_true]
    trivial
  · simp only [past, decide_false, Bool.false_eq_true, if_false]
    intro start _ woken waited slept
    have later := polling_drifts waited
    have slept : start + pollMs ≤ woken := slept
    rw [Nat.succ_mul] at lasts
    refine ⟨by omega, ?_⟩
    rcases Nat.eq_zero_or_pos fuel with rfl | more
    · omega
    · exact more

theorem refund_completes :
    Completes (polling pollMs deadline) (fun later _ => clock ≤ later)
      (client.refund hashlock).run clock := by
  rw [LezClient.refund, LezClient.sendHtlcInstruction, LezClient.getNonces,
    Completes.run_bind_iff, Completes.request_bind_iff]
  rintro before nonces after drifted rfl
  have first := polling_drifts drifted
  cases nonces with
  | error e => exact first
  | ok nonces =>
      rintro start answer finish waited rfl
      have second := polling_drifts waited
      cases answer <;> exact le_trans first second

/-- A turn that goes on leaves enough for the next one. -/
def Onward (pollMs deadline fuel later : Nat) :
    Except SwapError (LezClient.RefundProgress ⊕ RefundOutcome) → Prop
  | .ok (.inl next) => Lasts pollMs deadline fuel later next
  | .ok (.inr _) | .error _ => True

/-- A turn uses up one unit of fuel and one poll interval. -/
theorem refundRound_completes {fuel : Nat} {progress : LezClient.RefundProgress}
    (lasts : Lasts pollMs deadline (fuel + 1) clock progress) :
    Completes (polling pollMs deadline) (Onward pollMs deadline fuel)
      (client.refundRound hashlock progress).run clock := by
  obtain ⟨enough, -⟩ := lasts
  rw [LezClient.refundRound, LezClient.getEscrow, Completes.run_bind_iff,
    Completes.request_bind_iff]
  rintro before answer after drifted ⟨readable, rfl⟩
  have grown := polling_drifts drifted
  cases answer with
  | error e => trivial
  | ok data =>
      obtain ⟨found, decoded⟩ := (escrowIn_ok_iff hashlock).mpr (readable data rfl)
      simp only [decoded]
      cases found with
      | none =>
          change Completes _ _ (if _ then _ else _ : Flow _).run _
          split
          · trivial
          · exact refundPending_completes (by omega)
      | some escrow =>
          change Completes _ (Onward pollMs deadline fuel) (ExceptT.run _) _
          dsimp only
          split
          · trivial
          · rw [Completes.run_bind_iff, LezClient.claimedOutcome]
            split <;> trivial
          · split
            · exact refundPending_completes (by omega)
            · rw [Completes.run_bind_iff, Completes.run_attempt_iff]
              refine refund_completes.weaken fun later outcome moved => ?_
              cases outcome <;> exact refundPending_completes (by omega)

/-- A confirmed refund ends: within the turns that fit before its deadline. -/
theorem refundConfirmed_completes (start : Nat) {fuel : Nat}
    (enough : refundDeadlineMs ≤ fuel * pollMs) :
    Completes (polling pollMs (start + refundDeadlineMs)) (fun _ _ => True)
      (client.refundConfirmed (fuel + 1) hashlock).run start := by
  apply Completes.iterate (Lasts pollMs (start + refundDeadlineMs))
  · exact fun _ _ none => absurd none.2 (lt_irrefl 0)
  · intro left clock progress lasts
    refine (refundRound_completes lasts).weaken fun later result kept => ?_
    cases result with
    | error error => trivial
    | ok broke =>
        cases broke with
        | inl next => exact kept
        | inr outcome => trivial
  · refine ⟨?_, Nat.succ_pos fuel⟩
    rw [Nat.succ_mul]
    omega

end Time

/-- A confirmed refund submits once at most and concludes from its last read, for any answers,
and it ends once the clock moves on by the poll interval. -/
theorem refund_confirmed (client : LezClient) (hashlock : Bytes32) {pollMs : Nat}
    (moves : 0 < pollMs) :
    (∀ fuel, Follows (RefundsOnce client hashlock) (Concluded client hashlock)
      (client.refundConfirmed fuel hashlock).run []) ∧
    ∃ turns, ∀ start fuel, turns ≤ fuel →
      Completes (polling pollMs (start + refundDeadlineMs)) (fun _ _ => True)
        (client.refundConfirmed fuel hashlock).run start := by
  refine ⟨refundConfirmed_concludes, refundDeadlineMs + 1, fun start fuel enough => ?_⟩
  obtain ⟨turns, rfl⟩ : ∃ turns, fuel = turns + 1 := ⟨fuel - 1, by omega⟩
  apply refundConfirmed_completes
  calc refundDeadlineMs
      _ ≤ turns := by omega
      _ ≤ turns * pollMs := Nat.le_mul_of_pos_right turns moves

/-- A client that polls every two seconds. -/
theorem refund_confirmed_test :
    ∃ turns, ∀ start fuel, turns ≤ fuel →
      Completes (polling 2000 (start + refundDeadlineMs)) (fun _ _ => True)
        ((LezClient.mk (Bytes.zero 32) fun _ => Bytes.zero 32).refundConfirmed fuel
          (Bytes.zero 32)).run start :=
  (refund_confirmed _ _ (show 0 < 2000 by decide)).2

end AtomicSwaps.Lez
