import AtomicSwaps.Lez.Runtime
import AtomicSwaps.Semantics.Run

/-!
# The life of an escrow

What one accepted instruction does, read through the byte format and the rules of
the runtime, and from it the history of every escrow PDA over a whole run: nothing,
or a lock, or a lock followed by one claim or one refund.
-/

namespace AtomicSwaps.Lez

open Assert Semantics

/-- A `Lock` creates the escrow at the PDA of its hashlock. -/
structure Locks (runtime : Runtime) (transaction : Transaction) (hashlock : Bytes32)
    (terms : Terms) (before after : Ledger) : Prop where
  seeded : hashlock ∈ runtime.seeds
  accounts : transaction.accounts = [terms.makerId, runtime.pda hashlock]
  instruction : transaction.instruction =
    .Lock hashlock terms.takerId terms.amount terms.timelock
  signed : terms.makerId ∈ transaction.signers
  differ : terms.makerId ≠ terms.takerId
  uninitialized : before.account (runtime.pda hashlock) = Account.default
  written : after.account = Function.update before.account (runtime.pda hashlock)
    { Account.default with
      programOwner := runtime.programId
      data := (terms.escrow hashlock .Locked none).toBytes }

/-- An instruction settles the locked escrow at a PDA: its amount goes to `payee`
and the account stores `settled`. -/
structure Settles (runtime : Runtime) (transaction : Transaction) (seed : Bytes32)
    (escrow settled : HTLCEscrow) (payee : AccountId) (before after : Ledger) : Prop where
  seeded : seed ∈ runtime.seeds
  accounts : transaction.accounts = [payee, runtime.pda seed]
  signed : payee ∈ transaction.signers
  owned : (before.account (runtime.pda seed)).programOwner = runtime.programId
  read : HTLCEscrow.fromBytes (before.account (runtime.pda seed)).data = .ok escrow
  locked : escrow.state = .Locked
  transfer : Transfer before.account after.account (runtime.pda seed) payee escrow.amount
  owner : (after.account (runtime.pda seed)).programOwner = runtime.programId
  data : (after.account (runtime.pda seed)).data = settled.toBytes
  payeeOwner : (after.account payee).programOwner = (before.account payee).programOwner

/-- A `Claim` settles in favour of the designated taker, who shows the preimage. -/
structure Claims (runtime : Runtime) (transaction : Transaction) (seed : Bytes32)
    (escrow : HTLCEscrow) (preimage : List UInt8) (before after : Ledger) : Prop where
  instruction : transaction.instruction = .Claim preimage
  length : preimage.length = 32
  matching : runtime.sha256 preimage = escrow.hashlock
  settles : Settles runtime transaction seed escrow
    { escrow with state := .Claimed, preimage := some preimage } escrow.takerId before after

/-- A `Refund` settles in favour of the maker, no earlier than the timelock. -/
structure Refunds (runtime : Runtime) (timestamp : U64) (transaction : Transaction)
    (seed : Bytes32) (escrow : HTLCEscrow) (before after : Ledger) : Prop where
  instruction : transaction.instruction = .Refund
  expired : escrow.timelock ≤ timestamp
  settles : Settles runtime transaction seed escrow { escrow with state := .Refunded }
    escrow.makerId before after

variable {runtime : Runtime} {timestamp : U64} {transaction : Transaction}
  {before after : Ledger}

/-- Settling a locked escrow rewrites its data, so the runtime demands ownership. -/
theorem settled_data_ne {data : List UInt8} {escrow settled : HTLCEscrow}
    (read : HTLCEscrow.fromBytes data = .ok escrow) (locked : escrow.state = .Locked)
    (encodable : settled.Encodable) (moved : settled.state ≠ .Locked) :
    settled.toBytes ≠ data := by
  intro same
  have reread := HTLCEscrow.fromBytes_toBytes encodable
  rw [same, read] at reread
  injection reread with equal
  exact moved (equal ▸ locked)

theorem encodable_claimed {escrow : HTLCEscrow} {preimage : List UInt8}
    (length : preimage.length = 32) :
    { escrow with state := .Claimed, preimage := some preimage }.Encodable := by
  rintro stored ⟨⟩
  omega

theorem encodable_refunded {escrow : HTLCEscrow} (encodable : escrow.Encodable) :
    { escrow with state := .Refunded }.Encodable :=
  encodable

/-- The accounts of an accepted settlement, from the post states the program returns. -/
theorem settles_of_store (owns : OwnsPdas runtime before) {payee escrowId : AccountId}
    {escrow settled : HTLCEscrow}
    (truthful : ∀ signer ∈ transaction.signers, ∀ seed ∈ runtime.seeds,
      signer ≠ runtime.pda seed)
    (accounts : transaction.accounts = [payee, escrowId])
    (signed : payee ∈ transaction.signers)
    (read : HTLCEscrow.fromBytes (before.account escrowId).data = .ok escrow)
    (locked : escrow.state = .Locked) (encodable : settled.Encodable)
    (moved : settled.state ≠ .Locked)
    (covered : escrow.amount ≤ (before.account escrowId).balance)
    (permitted : Permitted runtime
      ⟨before.account escrowId, decide (escrowId ∈ transaction.signers), escrowId⟩
      (AccountPostState.new { before.account escrowId with
        balance := (before.account escrowId).balance - escrow.amount
        data := settled.toBytes }))
    (stored : after.account = before.payout escrowId payee escrow.amount settled.toBytes) :
    ∃ seed, escrowId = runtime.pda seed ∧
      Settles runtime transaction seed escrow settled payee before after := by
  have owned : (before.account escrowId).programOwner = runtime.programId := by
    rcases permitted with owned | ⟨unchanged, -⟩
    · exact owned
    · exact absurd unchanged (settled_data_ne read locked encodable moved)
  obtain ⟨seed, seeded, rfl⟩ := owns escrowId owned
  have distinct : runtime.pda seed ≠ payee := (truthful payee signed seed seeded).symm
  exact ⟨seed, rfl, seeded, accounts, signed, owned, read, locked,
    stored ▸ before.payout_transfer _ distinct covered, by simp [stored, Ledger.payout, owned],
    by simp [stored, Ledger.payout], by simp [stored, Ledger.payout, distinct.symm]⟩

/-- What an accepted instruction did. -/
theorem Executes.cases (executes : Executes runtime timestamp transaction before after)
    (owns : OwnsPdas runtime before) :
    (∃ hashlock terms, Locks runtime transaction hashlock terms before after) ∨
    (∃ seed escrow preimage,
      Claims runtime transaction seed escrow preimage before after) ∨
    ∃ seed escrow, Refunds runtime timestamp transaction seed escrow before after := by
  obtain ⟨truthful, seeded, posts, window, returned, valid, permitted, stored⟩ := executes
  obtain ⟨accounts, signers, instruction⟩ := transaction
  obtain ⟨signer, escrowPda, shape⟩ := main_two_accounts returned
  obtain ⟨signerId, escrowId, rfl⟩ : ∃ signerId escrowId, accounts = [signerId, escrowId] := by
    match accounts, shape with
    | [signerId, escrowId], _ => exact ⟨signerId, escrowId, rfl⟩
  simp only [preStates, List.map_cons, List.map_nil] at returned permitted
  cases instruction with
  | Lock hashlock takerId amount timelock =>
      simp only [main, bind_eq_ok, executeLock_ok, pure_eq_ok] at returned
      obtain ⟨_, ⟨signed, differ, uninitialized, -, rfl⟩, same⟩ := returned
      injection same with same _
      subst same
      simp only [List.forall₂_cons] at permitted
      obtain ⟨-, ⟨-, atPda⟩, -⟩ := permitted
      refine .inl ⟨hashlock, ⟨signerId, takerId, amount, timelock⟩, ?_⟩
      have atPda : escrowId = runtime.pda hashlock := atPda
      subst atPda
      refine ⟨seeded _ _ _ _ rfl, rfl, rfl, by simpa using signed, differ, uninitialized, ?_⟩
      rw [stored]
      simp only [store, AccountPostState.settled, AccountPostState.new,
        AccountPostState.newClaimed, Function.update_eq_self]
      rw [uninitialized]
      rfl
  | Claim preimage =>
      simp only [main, bind_eq_ok, executeClaim_ok, pure_eq_ok] at returned
      obtain ⟨_, ⟨escrow, read, length, signed, locked, designated, matching, covered, -, rfl⟩,
        same⟩ := returned
      injection same with same _
      subst same
      simp only [List.forall₂_cons] at permitted
      have designated : signerId = escrow.takerId := designated
      subst designated
      obtain ⟨seed, rfl, settles⟩ := settles_of_store owns truthful rfl (by simpa using signed)
        read locked (encodable_claimed length) (by simp) covered permitted.2.1 stored
      exact .inr (.inl ⟨seed, escrow, preimage, rfl, length, matching, settles⟩)
  | Refund =>
      simp only [main, bind_eq_ok, Prod.exists, executeRefund_ok, pure_eq_ok] at returned
      obtain ⟨_, timelock, ⟨escrow, read, signed, locked, owner, covered, -, rfl, rfl⟩, same⟩ :=
        returned
      injection same with same window
      subst same
      simp only [List.forall₂_cons] at permitted
      have owner : signerId = escrow.makerId := owner
      subst owner
      obtain ⟨seed, rfl, settles⟩ := settles_of_store owns truthful rfl (by simpa using signed)
        read locked (encodable_refunded (HTLCEscrow.fromBytes_encodable read)) (by simp) covered
        permitted.2.1 stored
      exact .inr (.inr ⟨seed, escrow, rfl, valid _ window.symm, settles⟩)

/-- Whether an event names the escrow PDA of `hashlock`. -/
def concerns (runtime : Runtime) (hashlock : Bytes32) : Event → Bool
  | .execute _ transaction => transaction.accounts[1]? = some (runtime.pda hashlock)
  | .foreign => false

/-- The events of a run that name the escrow PDA of `hashlock`. -/
def history (runtime : Runtime) (hashlock : Bytes32) (events : List Event) : List Event :=
  events.filter (concerns runtime hashlock)

/-- The lock that created the escrow with these terms. -/
def lockEvent (runtime : Runtime) (hashlock : Bytes32) (terms : Terms) (timestamp : U64)
    (signers : List AccountId) : Event :=
  .execute timestamp ⟨[terms.makerId, runtime.pda hashlock], signers,
    .Lock hashlock terms.takerId terms.amount terms.timelock⟩

/-- The claim by the taker of these terms. -/
def claimEvent (runtime : Runtime) (hashlock : Bytes32) (terms : Terms)
    (preimage : List UInt8) (timestamp : U64) (signers : List AccountId) : Event :=
  .execute timestamp ⟨[terms.takerId, runtime.pda hashlock], signers, .Claim preimage⟩

/-- The refund to the maker of these terms. -/
def refundEvent (runtime : Runtime) (hashlock : Bytes32) (terms : Terms) (timestamp : U64)
    (signers : List AccountId) : Event :=
  .execute timestamp ⟨[terms.makerId, runtime.pda hashlock], signers, .Refund⟩

/-- The life of the account at the escrow PDA of `hashlock`: what happened to it, in
order, and what it stores now. -/
inductive Lifecycle (runtime : Runtime) (hashlock : Bytes32) : List Event → Account → Prop where
  | absent {account : Account} (unowned : account.programOwner ≠ runtime.programId) :
      Lifecycle runtime hashlock [] account
  | locked {account : Account} (terms : Terms) (lockTime : U64) (lockSigners : List AccountId)
      (owned : account.programOwner = runtime.programId)
      (stored : account.data = (terms.escrow hashlock .Locked none).toBytes) :
      Lifecycle runtime hashlock [lockEvent runtime hashlock terms lockTime lockSigners] account
  | claimed {account : Account} (terms : Terms) (preimage : List UInt8)
      (lockTime claimTime : U64) (lockSigners claimSigners : List AccountId)
      (owned : account.programOwner = runtime.programId)
      (length : preimage.length = 32) (matching : runtime.sha256 preimage = hashlock)
      (stored : account.data = (terms.escrow hashlock .Claimed (some preimage)).toBytes) :
      Lifecycle runtime hashlock
        [lockEvent runtime hashlock terms lockTime lockSigners,
          claimEvent runtime hashlock terms preimage claimTime claimSigners] account
  | refunded {account : Account} (terms : Terms) (lockTime refundTime : U64)
      (lockSigners refundSigners : List AccountId)
      (owned : account.programOwner = runtime.programId)
      (expired : terms.timelock ≤ refundTime)
      (stored : account.data = (terms.escrow hashlock .Refunded none).toBytes) :
      Lifecycle runtime hashlock
        [lockEvent runtime hashlock terms lockTime lockSigners,
          refundEvent runtime hashlock terms refundTime refundSigners] account

/-- What the program guarantees of all its accounts after `events`. -/
structure Lawful (runtime : Runtime) (events : List Event) (ledger : Ledger) : Prop where
  owns : OwnsPdas runtime ledger
  lives : ∀ hashlock ∈ runtime.seeds,
    Lifecycle runtime hashlock (history runtime hashlock events)
      (ledger.account (runtime.pda hashlock))

variable {hashlock : Bytes32} {terms : Terms} {past : List Event} {account later : Account}

theorem encodable_none (state : HTLCState) : (terms.escrow hashlock state none).Encodable := by
  rintro stored ⟨⟩

theorem encodable_some {preimage : List UInt8} (length : preimage.length = 32) :
    (terms.escrow hashlock .Claimed (some preimage)).Encodable := by
  rintro stored ⟨⟩
  omega

/-- An owned escrow account decodes to an escrow with its hashlock, whose preimage
is set, of 32 bytes and hashing to the hashlock, exactly when it is claimed. -/
theorem Lifecycle.decodes (life : Lifecycle runtime hashlock past account)
    (owned : account.programOwner = runtime.programId) :
    ∃ escrow, HTLCEscrow.fromBytes account.data = .ok escrow ∧ escrow.hashlock = hashlock ∧
      (escrow.state = .Claimed ↔ ∃ preimage, escrow.preimage = some preimage ∧
        preimage.length = 32 ∧ runtime.sha256 preimage = hashlock) := by
  cases life with
  | absent unowned => exact absurd owned unowned
  | locked terms lockTime lockSigners owned stored =>
      rw [stored]
      refine ⟨_, HTLCEscrow.fromBytes_toBytes (encodable_none .Locked), rfl, ?_⟩
      simp [Terms.escrow]
  | claimed terms preimage _ _ _ _ owned length matching stored =>
      rw [stored]
      refine ⟨_, HTLCEscrow.fromBytes_toBytes (encodable_some length), rfl, ?_⟩
      simp [Terms.escrow, length, matching]
  | refunded terms _ _ _ _ owned expired stored =>
      rw [stored]
      refine ⟨_, HTLCEscrow.fromBytes_toBytes (encodable_none .Refunded), rfl, ?_⟩
      simp [Terms.escrow]

/-- An account that reads back as locked is at the start of its life. -/
theorem Lifecycle.locked_of_read (life : Lifecycle runtime hashlock past account)
    (owned : account.programOwner = runtime.programId) {escrow : HTLCEscrow}
    (read : HTLCEscrow.fromBytes account.data = .ok escrow) (locked : escrow.state = .Locked) :
    ∃ (terms : Terms) (lockTime : U64) (lockSigners : List AccountId),
      escrow = terms.escrow hashlock .Locked none ∧
      past = [lockEvent runtime hashlock terms lockTime lockSigners] := by
  cases life with
  | absent unowned => exact absurd owned unowned
  | locked terms lockTime lockSigners owned stored =>
      rw [stored, HTLCEscrow.fromBytes_toBytes (encodable_none .Locked)] at read
      injection read with same
      exact ⟨terms, lockTime, lockSigners, same.symm, rfl⟩
  | claimed terms preimage _ _ _ _ owned length matching stored =>
      rw [stored, HTLCEscrow.fromBytes_toBytes (encodable_some length)] at read
      injection read with same
      simp [← same, Terms.escrow] at locked
  | refunded terms _ _ _ _ owned expired stored =>
      rw [stored, HTLCEscrow.fromBytes_toBytes (encodable_none .Refunded)] at read
      injection read with same
      simp [← same, Terms.escrow] at locked

/-- A life depends on the owner and the data of the account only. -/
theorem Lifecycle.congr (life : Lifecycle runtime hashlock past account)
    (owner : account.programOwner = runtime.programId →
      later.programOwner = runtime.programId ∧ later.data = account.data)
    (unowned : account.programOwner ≠ runtime.programId →
      later.programOwner ≠ runtime.programId) :
    Lifecycle runtime hashlock past later := by
  cases life with
  | absent free => exact .absent (unowned free)
  | locked terms lockTime lockSigners owned stored =>
      obtain ⟨still, same⟩ := owner owned
      exact .locked terms lockTime lockSigners still (same.trans stored)
  | claimed terms preimage lockTime claimTime lockSigners claimSigners owned length matching
      stored =>
      obtain ⟨still, same⟩ := owner owned
      exact .claimed terms preimage lockTime claimTime lockSigners claimSigners still length
        matching (same.trans stored)
  | refunded terms lockTime refundTime lockSigners refundSigners owned expired stored =>
      obtain ⟨still, same⟩ := owner owned
      exact .refunded terms lockTime refundTime lockSigners refundSigners still expired
        (same.trans stored)

/-- What an event does, with the escrow it acts on known from the run so far. -/
inductive Effect (runtime : Runtime) (before after : Ledger) : Event → Prop where
  | locks {timestamp : U64} {transaction : Transaction} (hashlock : Bytes32) (terms : Terms)
      (locks : Locks runtime transaction hashlock terms before after)
      (balances : ∀ id, (after.account id).balance = (before.account id).balance) :
      Effect runtime before after (.execute timestamp transaction)
  | claims {timestamp : U64} {transaction : Transaction} (hashlock : Bytes32) (terms : Terms)
      (preimage : List UInt8)
      (claims : Claims runtime transaction hashlock (terms.escrow hashlock .Locked none)
        preimage before after) :
      Effect runtime before after (.execute timestamp transaction)
  | refunds {timestamp : U64} {transaction : Transaction} (hashlock : Bytes32) (terms : Terms)
      (refunds : Refunds runtime timestamp transaction hashlock
        (terms.escrow hashlock .Locked none) before after) :
      Effect runtime before after (.execute timestamp transaction)
  | foreign (change : Foreign runtime before after) : Effect runtime before after .foreign

theorem Locks.balances (locks : Locks runtime transaction hashlock terms before after)
    (id : AccountId) : (after.account id).balance = (before.account id).balance := by
  rw [locks.written]
  by_cases same : id = runtime.pda hashlock
  · subst same
    simp [locks.uninitialized]
  · simp [same]

/-- Every step of a lawful run has an effect in terms of the escrow's own terms. -/
theorem Lawful.effect {events : List Event} {event : Event}
    (lawful : Lawful runtime events before) (step : Step runtime before event after) :
    Effect runtime before after event := by
  cases step with
  | foreign change => exact .foreign change
  | execute executes =>
      rcases executes.cases lawful.owns with
        ⟨hashlock, terms, locks⟩ | ⟨seed, escrow, preimage, claims⟩ | ⟨seed, escrow, refunds⟩
      · exact .locks hashlock terms locks locks.balances
      · obtain ⟨terms, _, _, rfl, -⟩ := (lawful.lives seed claims.settles.seeded).locked_of_read
          claims.settles.owned claims.settles.read claims.settles.locked
        exact .claims seed terms preimage claims
      · obtain ⟨terms, _, _, rfl, -⟩ := (lawful.lives seed refunds.settles.seeded).locked_of_read
          refunds.settles.owned refunds.settles.read refunds.settles.locked
        exact .refunds seed terms refunds

/-- Every accepted instruction conserves the sum of all balances. -/
theorem Effect.conserves {timestamp : U64} {transaction : Transaction}
    (effect : Effect runtime before after (.execute timestamp transaction)) :
    after.total = before.total := by
  cases effect with
  | locks hashlock terms locks balances => simp only [Ledger.total, balances]
  | claims hashlock terms preimage claims => exact claims.settles.transfer.total
  | refunds hashlock terms refunds => exact refunds.settles.transfer.total

theorem history_append (hashlock : Bytes32) (events : List Event) (event : Event) :
    history runtime hashlock (events ++ [event]) =
      history runtime hashlock events ++
        if concerns runtime hashlock event then [event] else [] := by
  by_cases named : concerns runtime hashlock event <;> simp [history, named]

/-- An instruction on one escrow leaves the account and the history of the others. -/
theorem Lifecycle.other {events : List Event} {other payee : AccountId}
    (life : Lifecycle runtime hashlock (history runtime hashlock events)
      (before.account (runtime.pda hashlock)))
    (accounts : transaction.accounts = [payee, other]) (apart : other ≠ runtime.pda hashlock)
    (unchanged : after.account (runtime.pda hashlock) =
      before.account (runtime.pda hashlock)) :
    Lifecycle runtime hashlock
      (history runtime hashlock (events ++ [.execute timestamp transaction]))
      (after.account (runtime.pda hashlock)) := by
  rw [history_append, unchanged]
  simpa [concerns, accounts, apart] using life

/-- Owned accounts after a settlement are the owned accounts before it. -/
theorem Settles.ownsPdas {seed : Bytes32} {escrow settled : HTLCEscrow} {payee : AccountId}
    (settles : Settles runtime transaction seed escrow settled payee before after)
    (owns : OwnsPdas runtime before) : OwnsPdas runtime after := by
  intro id owned
  by_cases atPda : id = runtime.pda seed
  · exact ⟨seed, settles.seeded, atPda⟩
  · by_cases atPayee : id = payee
    · subst atPayee
      exact owns id (settles.payeeOwner ▸ owned)
    · rw [settles.transfer.others id atPda atPayee] at owned
      exact owns id owned

/-- A settlement touches no other escrow PDA. -/
theorem Settles.other_pda {seed : Bytes32} {escrow settled : HTLCEscrow} {payee : AccountId}
    (settles : Settles runtime transaction seed escrow settled payee before after)
    (truthful : ∀ signer ∈ transaction.signers, ∀ seed ∈ runtime.seeds,
      signer ≠ runtime.pda seed)
    (seeded : hashlock ∈ runtime.seeds) (apart : runtime.pda hashlock ≠ runtime.pda seed) :
    after.account (runtime.pda hashlock) = before.account (runtime.pda hashlock) :=
  settles.transfer.others _ apart (truthful payee settles.signed hashlock seeded).symm

/-- A lock keeps the program lawful. -/
theorem Locks.lawful {events : List Event} {created : Bytes32}
    (locks : Locks runtime transaction created terms before after)
    (lawful : Lawful runtime events before) :
    Lawful runtime (events ++ [.execute timestamp transaction]) after := by
  have others : ∀ id, id ≠ runtime.pda created → after.account id = before.account id :=
    fun id apart => by simp [locks.written, apart]
  have free : (before.account (runtime.pda created)).programOwner ≠ runtime.programId := by
    rw [locks.uninitialized]
    exact runtime.programId_ne_default.symm
  refine ⟨?_, ?_⟩
  · intro id owned
    by_cases atPda : id = runtime.pda created
    · exact ⟨created, locks.seeded, atPda⟩
    · rw [others id atPda] at owned
      exact lawful.owns id owned
  · intro hashlock seeded
    by_cases same : hashlock = created
    · subst same
      obtain ⟨accounts, signers, instruction⟩ := transaction
      obtain rfl := locks.accounts
      obtain rfl := locks.instruction
      have life := lawful.lives hashlock seeded
      generalize past : history runtime hashlock events = earlier at life
      cases life with
      | absent =>
          rw [history_append, past, if_pos (by simp [concerns]), List.nil_append]
          exact .locked terms timestamp signers (by simp [locks.written])
            (by simp [locks.written])
      | locked | claimed | refunded => exact absurd ‹_› free
    · have apart : runtime.pda hashlock ≠ runtime.pda created :=
        fun equal => same (runtime.pda_injOn seeded locks.seeded equal)
      exact (lawful.lives hashlock seeded).other locks.accounts apart.symm (others _ apart)

/-- The history of a locked escrow is its lock. -/
theorem Lawful.history_locked {events : List Event} (lawful : Lawful runtime events before)
    (seeded : hashlock ∈ runtime.seeds)
    (owned : (before.account (runtime.pda hashlock)).programOwner = runtime.programId)
    (read : HTLCEscrow.fromBytes (before.account (runtime.pda hashlock)).data =
      .ok (terms.escrow hashlock .Locked none)) :
    ∃ lockTime lockSigners, history runtime hashlock events =
      [lockEvent runtime hashlock terms lockTime lockSigners] := by
  obtain ⟨written, lockTime, lockSigners, same, past⟩ :=
    (lawful.lives hashlock seeded).locked_of_read owned read rfl
  have sameTerms : terms = written := congrArg HTLCEscrow.terms same
  exact ⟨lockTime, lockSigners, sameTerms ▸ past⟩

/-- A settlement keeps the program lawful when the account it wrote is in its next
stage of life. -/
theorem Settles.lawful {events : List Event} {seed : Bytes32} {escrow settled : HTLCEscrow}
    {payee : AccountId}
    (settles : Settles runtime transaction seed escrow settled payee before after)
    (truthful : ∀ signer ∈ transaction.signers, ∀ seed ∈ runtime.seeds,
      signer ≠ runtime.pda seed)
    (lawful : Lawful runtime events before)
    (next : Lifecycle runtime seed
      (history runtime seed events ++ [.execute timestamp transaction])
      (after.account (runtime.pda seed))) :
    Lawful runtime (events ++ [.execute timestamp transaction]) after := by
  refine ⟨settles.ownsPdas lawful.owns, ?_⟩
  intro hashlock seeded
  by_cases same : hashlock = seed
  · subst same
    rw [history_append]
    simpa [concerns, settles.accounts] using next
  · have apart : runtime.pda hashlock ≠ runtime.pda seed :=
      fun equal => same (runtime.pda_injOn seeded settles.seeded equal)
    exact (lawful.lives hashlock seeded).other settles.accounts apart.symm
      (settles.other_pda truthful seeded apart)

/-- Every step keeps the program lawful. -/
theorem Lawful.step {events : List Event} {event : Event}
    (lawful : Lawful runtime events before) (step : Step runtime before event after) :
    Lawful runtime (events ++ [event]) after := by
  have effect := lawful.effect step
  cases step with
  | foreign change =>
      refine ⟨fun id owned => ?_, fun hashlock seeded => ?_⟩
      · have kept := change id
        by_cases ownedBefore : (before.account id).programOwner = runtime.programId
        · exact lawful.owns id ownedBefore
        · exact absurd owned (by simpa [ownedBefore] using kept)
      · have kept := change (runtime.pda hashlock)
        rw [history_append]
        refine Lifecycle.congr (by simpa [concerns] using lawful.lives hashlock seeded) ?_ ?_
        · intro owned
          rw [if_pos owned] at kept
          exact ⟨kept.1, kept.2.1⟩
        · intro unowned
          rwa [if_neg unowned] at kept
  | @execute timestamp transaction _ executes =>
      cases effect with
      | locks hashlock terms locks balances => exact locks.lawful lawful
      | claims hashlock terms preimage claims =>
          refine claims.settles.lawful executes.truthful lawful ?_
          obtain ⟨lockTime, lockSigners, past⟩ :=
            lawful.history_locked claims.settles.seeded claims.settles.owned claims.settles.read
          rw [past]
          obtain ⟨accounts, signers, instruction⟩ := transaction
          obtain rfl := claims.settles.accounts
          obtain rfl := claims.instruction
          exact .claimed terms preimage lockTime timestamp lockSigners signers
            claims.settles.owner claims.length claims.matching claims.settles.data
      | refunds hashlock terms refunds =>
          refine refunds.settles.lawful executes.truthful lawful ?_
          obtain ⟨lockTime, lockSigners, past⟩ :=
            lawful.history_locked refunds.settles.seeded refunds.settles.owned refunds.settles.read
          rw [past]
          obtain ⟨accounts, signers, instruction⟩ := transaction
          obtain rfl := refunds.settles.accounts
          obtain rfl := refunds.instruction
          exact .refunded terms lockTime timestamp lockSigners signers
            refunds.settles.owner refunds.expired refunds.settles.data

theorem Lawful.unused (unused : Unused runtime before) : Lawful runtime [] before where
  owns id owned := absurd owned (unused id)
  lives _ _ := .absent (unused _)

/-- Every run keeps the program lawful. -/
theorem Lawful.of_run {events : List Event} (unused : Unused runtime before)
    (run : Steps (Step runtime) before events after) : Lawful runtime events after := by
  induction run with
  | refl => exact Lawful.unused unused
  | snoc _ last ih => exact ih.step last

/-- A transaction that only its first account signs. -/
def signedBy (signer escrowId : AccountId) (instruction : HTLCInstruction) : Transaction where
  accounts := [signer, escrowId]
  signers := [signer]
  instruction

/-- The accounts such a transaction shows to the program. -/
def signedPreStates (ledger : Ledger) (signer escrowId : AccountId) : List AccountWithMetadata :=
  [⟨ledger.account signer, true, signer⟩, ⟨ledger.account escrowId, false, escrowId⟩]

theorem preStates_signedBy (ledger : Ledger) {signer escrowId : AccountId}
    (distinct : escrowId ≠ signer) (instruction : HTLCInstruction) :
    preStates ledger (signedBy signer escrowId instruction) =
      signedPreStates ledger signer escrowId := by
  simp [preStates, signedBy, signedPreStates, distinct]

/-- The post states of a settlement. -/
def settledPosts (ledger : Ledger) (payee escrowId : AccountId) (amount : U128)
    (data : List UInt8) : List AccountPostState :=
  [AccountPostState.new { ledger.account payee with
      balance := (ledger.account payee).balance + amount },
    AccountPostState.new { ledger.account escrowId with
      balance := (ledger.account escrowId).balance - amount, data }]

/-- A settlement the program agrees to is accepted by the runtime. -/
theorem executes_settlement {payee : AccountId} {seed : Bytes32} {amount : U128}
    {data : List UInt8} {instruction : HTLCInstruction} {window : Option U64}
    (notPda : ∀ seed ∈ runtime.seeds, payee ≠ runtime.pda seed) (seeded : seed ∈ runtime.seeds)
    (owned : (before.account (runtime.pda seed)).programOwner = runtime.programId)
    (covered : amount ≤ (before.account (runtime.pda seed)).balance)
    (returned : main runtime.toHost (signedPreStates before payee (runtime.pda seed))
      instruction = .ok (settledPosts before payee (runtime.pda seed) amount data, window))
    (settling : ∀ hashlock takerId amount timelock,
      instruction ≠ .Lock hashlock takerId amount timelock)
    (valid : ∀ start, window = some start → start ≤ timestamp) :
    Executes runtime timestamp (signedBy payee (runtime.pda seed) instruction) before
      (before.payout_transfer data (notPda seed seeded).symm covered).ledger := by
  have fits := before.credit_fits (notPda seed seeded).symm covered
  rw [← preStates_signedBy before (notPda seed seeded).symm] at returned
  refine ⟨by simpa [signedBy] using notPda, fun _ _ _ _ same => absurd same (settling _ _ _ _),
    _, window, returned, valid, ?_, rfl⟩
  refine .cons (.inr ⟨rfl, ?_⟩) (.cons (.inl owned) .nil)
  simp only [AccountPostState.new, BitVec.le_def, BitVec.toNat_add, Nat.mod_eq_of_lt fits]
  omega

theorem length_claimed_le (escrow : HTLCEscrow) {preimage : List UInt8}
    (length : preimage.length = 32) :
    { escrow with state := .Claimed, preimage := some preimage }.toBytes.length ≤
      runtime.dataMax := by
  have fits := runtime.dataFits
  rw [HTLCEscrow.length_toBytes]
  simp only [Option.getD_some]
  omega

/-- The program pays a covered escrow to its authorized taker for the preimage. -/
theorem main_claim (runtime : Runtime) {escrowId : AccountId} {escrow : HTLCEscrow}
    {preimage : List UInt8}
    (read : HTLCEscrow.fromBytes (before.account escrowId).data = .ok escrow)
    (locked : escrow.state = .Locked) (length : preimage.length = 32)
    (matching : runtime.sha256 preimage = escrow.hashlock)
    (covered : escrow.amount ≤ (before.account escrowId).balance) :
    main runtime.toHost (signedPreStates before escrow.takerId escrowId) (.Claim preimage) =
      .ok (settledPosts before escrow.takerId escrowId escrow.amount
        { escrow with state := .Claimed, preimage := some preimage }.toBytes, none) := by
  have body : executeClaim runtime.toHost (signedPreStates before escrow.takerId escrowId)
      preimage = .ok (settledPosts before escrow.takerId escrowId escrow.amount
        { escrow with state := .Claimed, preimage := some preimage }.toBytes) :=
    executeClaim_ok.mpr ⟨escrow, read, length, rfl, locked, rfl, matching, covered,
      length_claimed_le escrow length, rfl⟩
  simp only [main, body]
  rfl

/-- The program pays a covered escrow back to its authorized maker. -/
theorem main_refund (runtime : Runtime) {escrowId : AccountId} {escrow : HTLCEscrow}
    (read : HTLCEscrow.fromBytes (before.account escrowId).data = .ok escrow)
    (locked : escrow.state = .Locked) (unset : escrow.preimage = none)
    (covered : escrow.amount ≤ (before.account escrowId).balance) :
    main runtime.toHost (signedPreStates before escrow.makerId escrowId) .Refund =
      .ok (settledPosts before escrow.makerId escrowId escrow.amount
        { escrow with state := .Refunded }.toBytes, some escrow.timelock) := by
  have short : { escrow with state := .Refunded }.toBytes.length ≤ runtime.dataMax := by
    have fits := runtime.dataFits
    rw [HTLCEscrow.length_toBytes]
    simp only [unset, Option.getD_none, List.length_nil]
    omega
  have body : executeRefund runtime.toHost (signedPreStates before escrow.makerId escrowId) =
      .ok (settledPosts before escrow.makerId escrowId escrow.amount
        { escrow with state := .Refunded }.toBytes, escrow.timelock) :=
    executeRefund_ok.mpr ⟨escrow, read, rfl, locked, rfl, covered, short, rfl, rfl⟩
  simp only [main, body]
  rfl

/-- The designated taker can claim a covered escrow with its preimage. -/
theorem executes_claim {seed : Bytes32} {escrow : HTLCEscrow} {preimage : List UInt8}
    (notPda : ∀ seed ∈ runtime.seeds, escrow.takerId ≠ runtime.pda seed)
    (seeded : seed ∈ runtime.seeds)
    (owned : (before.account (runtime.pda seed)).programOwner = runtime.programId)
    (read : HTLCEscrow.fromBytes (before.account (runtime.pda seed)).data = .ok escrow)
    (locked : escrow.state = .Locked) (length : preimage.length = 32)
    (matching : runtime.sha256 preimage = escrow.hashlock)
    (covered : escrow.amount ≤ (before.account (runtime.pda seed)).balance) :
    ∃ after : Ledger, Executes runtime timestamp
      (signedBy escrow.takerId (runtime.pda seed) (.Claim preimage)) before after :=
  ⟨_, executes_settlement notPda seeded owned covered
    (main_claim runtime read locked length matching covered) (by simp) (by simp)⟩

/-- The post states of a lock. -/
def lockedPosts (ledger : Ledger) (escrowId : AccountId) (hashlock : Bytes32) (terms : Terms) :
    List AccountPostState :=
  [AccountPostState.new (ledger.account terms.makerId),
    AccountPostState.newClaimed { ledger.account escrowId with
      data := (terms.escrow hashlock .Locked none).toBytes } (.Pda hashlock)]

/-- The program locks an uninitialized account for its authorized maker. -/
theorem main_lock (runtime : Runtime) {escrowId : AccountId} (hashlock : Bytes32)
    (differ : terms.makerId ≠ terms.takerId)
    (uninitialized : before.account escrowId = Account.default) :
    main runtime.toHost (signedPreStates before terms.makerId escrowId)
      (.Lock hashlock terms.takerId terms.amount terms.timelock) =
        .ok (lockedPosts before escrowId hashlock terms, none) := by
  have short : (terms.escrow hashlock .Locked none).toBytes.length ≤ runtime.dataMax := by
    have fits := runtime.dataFits
    rw [HTLCEscrow.length_toBytes]
    simp only [Terms.escrow, Option.getD_none, List.length_nil]
    omega
  have body : executeLock runtime.toHost (signedPreStates before terms.makerId escrowId)
      hashlock terms.takerId terms.amount terms.timelock =
        .ok (lockedPosts before escrowId hashlock terms) :=
    executeLock_ok.mpr ⟨rfl, differ, uninitialized, short, rfl⟩
  simp only [main, body]
  rfl

/-- A lock changes no balance, so it leads to another ledger. -/
def Ledger.lock (ledger : Ledger) (runtime : Runtime) (hashlock : Bytes32) (terms : Terms) :
    Ledger where
  account := Function.update ledger.account (runtime.pda hashlock)
    { ledger.account (runtime.pda hashlock) with
      programOwner := runtime.programId
      data := (terms.escrow hashlock .Locked none).toBytes }
  supply := by
    have balances : ∀ id, (Function.update ledger.account (runtime.pda hashlock)
        { ledger.account (runtime.pda hashlock) with
          programOwner := runtime.programId
          data := (terms.escrow hashlock .Locked none).toBytes } id).balance =
        (ledger.account id).balance := by
      intro id
      by_cases same : id = runtime.pda hashlock
      · simp [same]
      · simp [same]
    simp only [balances]
    exact ledger.supply

/-- Anyone who is not a PDA can lock an uninitialized PDA. -/
theorem executes_lock (hashlock : Bytes32)
    (notPda : ∀ seed ∈ runtime.seeds, terms.makerId ≠ runtime.pda seed)
    (seeded : hashlock ∈ runtime.seeds)
    (differ : terms.makerId ≠ terms.takerId)
    (uninitialized : before.account (runtime.pda hashlock) = Account.default) :
    Executes runtime timestamp
      (signedBy terms.makerId (runtime.pda hashlock)
        (.Lock hashlock terms.takerId terms.amount terms.timelock)) before
      (before.lock runtime hashlock terms) := by
  have returned := main_lock runtime hashlock differ uninitialized
  rw [← preStates_signedBy before (notPda hashlock seeded).symm] at returned
  refine ⟨by simpa [signedBy] using notPda, ?_, _, none, returned, by simp, ?_, ?_⟩
  · rintro _ _ _ _ ⟨⟩
    exact seeded
  · exact .cons (.inr ⟨rfl, BitVec.le_refl _⟩)
      (.cons ⟨congrArg Account.programOwner uninitialized, rfl⟩ .nil)
  · simp [signedBy, store, lockedPosts, AccountPostState.settled, AccountPostState.new,
      AccountPostState.newClaimed, Ledger.lock]

/-- The program invariant. After every run from a chain the program owns nothing of:
it owns escrow PDAs only; the history of each is nothing, a lock, or a lock and then
one claim or one refund, and the account stores exactly what that history says; an
owned escrow holds the hashlock of its PDA and a preimage of it exactly when claimed;
and every further step has one of the program's effects, each of which moves exactly
the locked amount or nothing and conserves the sum of all balances. -/
theorem escrow_invariant {genesis ledger : Ledger} {events : List Event}
    (unused : Unused runtime genesis) (run : Steps (Step runtime) genesis events ledger) :
    OwnsPdas runtime ledger ∧
    (∀ hashlock ∈ runtime.seeds, Lifecycle runtime hashlock (history runtime hashlock events)
      (ledger.account (runtime.pda hashlock))) ∧
    (∀ hashlock ∈ runtime.seeds,
      (ledger.account (runtime.pda hashlock)).programOwner = runtime.programId →
      ∃ escrow,
        HTLCEscrow.fromBytes (ledger.account (runtime.pda hashlock)).data = .ok escrow ∧
        escrow.hashlock = hashlock ∧
        (escrow.state = .Claimed ↔ ∃ preimage, escrow.preimage = some preimage ∧
          preimage.length = 32 ∧ runtime.sha256 preimage = hashlock)) ∧
    ∀ event next, Step runtime ledger event next →
      Effect runtime ledger next event ∧ (event ≠ .foreign → next.total = ledger.total) := by
  have lawful := Lawful.of_run unused run
  refine ⟨lawful.owns, lawful.lives,
    fun hashlock seeded owned => (lawful.lives hashlock seeded).decodes owned,
    fun event next step => ⟨lawful.effect step, fun own => ?_⟩⟩
  cases step with
  | foreign => exact absurd rfl own
  | execute executes => exact (lawful.effect (.execute executes)).conserves

/-- A runtime for a single seed, with SHA-256 as it is on `testPreimage`. -/
def testRuntime : Runtime where
  sha256 _ := testHashlock
  dataMax := 102400
  programId := List.Vector.replicate 8 1
  programId_ne_default := by decide
  pda _ := Bytes.fill 32 9
  seeds := {testHashlock}
  pda_injOn := Set.injOn_singleton _ _
  dataFits := by decide

/-- The escrow of the test run: 1000 λ from account 1 to account 2. -/
def testTerms : Terms where
  makerId := Bytes.fill 32 1
  takerId := Bytes.fill 32 2
  amount := 1000
  timelock := 1700000000000

/-- A chain on which only the maker of the test run holds anything. -/
def testGenesis : Ledger where
  account id := if id = testTerms.makerId then { Account.default with balance := 1000 }
    else Account.default
  supply := by
    have sole : ∀ id, (if id = testTerms.makerId then { Account.default with balance := 1000 }
        else Account.default).balance.toNat = if id = testTerms.makerId then 1000 else 0 := by
      intro id
      split <;> rfl
    simp only [sole]
    have moved := Total.total_one (fun _ => 0)
      (fun id => if id = testTerms.makerId then 1000 else 0) testTerms.makerId
      (fun other apart => if_neg apart)
    simp only [Total.total_zero, if_true] at moved
    omega

theorem testGenesis_unused : Unused testRuntime testGenesis := by
  intro id
  by_cases same : id = testTerms.makerId
  · simp only [testGenesis, same, if_true]
    decide
  · simp only [testGenesis, same, if_false]
    decide

/-- The PDA of the only seed. -/
def testPda : AccountId := testRuntime.pda testHashlock

/-- The test escrow locked, before it is funded. -/
def testLocked : Ledger := testGenesis.lock testRuntime testHashlock testTerms

theorem test_distinct : testTerms.makerId ≠ testPda := by decide

theorem test_covered : testTerms.amount ≤ (testLocked.account testTerms.makerId).balance := by
  decide

/-- The test escrow funded by its maker. -/
def testFunded : Ledger :=
  (testLocked.payout_transfer [] test_distinct test_covered).ledger

theorem test_fund : Foreign testRuntime testLocked testFunded := by
  intro id
  by_cases atPda : id = testPda
  · subst atPda
    decide
  · have unowned : (testFunded.account id).programOwner = DEFAULT_PROGRAM_ID ∧
        (testLocked.account id).programOwner = DEFAULT_PROGRAM_ID := by
      by_cases atMaker : id = testTerms.makerId
      · subst atMaker
        decide
      · have elsewhere : testLocked.account id = Account.default := by
          have notPda : id ≠ testRuntime.pda testHashlock := atPda
          simp [testLocked, Ledger.lock, testGenesis, notPda, atMaker]
        have unchanged : testFunded.account id = testLocked.account id :=
          (testLocked.payout_transfer [] test_distinct test_covered).others id atMaker atPda
        rw [unchanged, elsewhere]
        exact ⟨rfl, rfl⟩
    rw [unowned.1, unowned.2, if_neg testRuntime.programId_ne_default.symm]
    exact testRuntime.programId_ne_default.symm

/-- A lock, its funding and the claim of the taker are a run of the program. -/
theorem escrow_invariant_test : ∃ ledger,
    Steps (Step testRuntime) testGenesis
      [.execute 0 (signedBy testTerms.makerId testPda
        (.Lock testHashlock testTerms.takerId testTerms.amount testTerms.timelock)),
       .foreign,
       .execute 1 (signedBy testTerms.takerId testPda (.Claim testPreimage.toList))]
      ledger ∧
    OwnsPdas testRuntime ledger := by
  have lock : Executes testRuntime 0 _ testGenesis testLocked :=
    executes_lock testHashlock
      (fun _ _ => (by decide : testTerms.makerId ≠ Bytes.fill 32 9)) rfl (by decide) rfl
  have read : HTLCEscrow.fromBytes (testFunded.account testPda).data =
      .ok (testTerms.escrow testHashlock .Locked none) :=
    HTLCEscrow.fromBytes_toBytes (encodable_none .Locked)
  obtain ⟨claimed, claim⟩ : ∃ after : Ledger, Executes testRuntime 1 _ testFunded after :=
    executes_claim
      (fun _ _ => (by decide : testTerms.takerId ≠ Bytes.fill 32 9)) rfl (by decide) read rfl
      testPreimage.2 rfl (by decide)
  have run := Steps.cons (Step.execute lock)
    (.cons (Step.foreign test_fund) (.single (Step.execute claim)))
  exact ⟨claimed, run, (escrow_invariant testGenesis_unused run).1⟩

end AtomicSwaps.Lez
