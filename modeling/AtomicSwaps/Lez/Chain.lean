import AtomicSwaps.Lez.Lifecycle

/-!
# The LEZ chain as seen from one swap

A chain some run of the program has led to, and what may happen on it to the escrow of
one hashlock: it appears locked, and is claimed or refunded once.
-/

namespace AtomicSwaps.Lez

open Assert Semantics Relation

/-- A chain that a run of the program has led to, with the time of its current block. -/
structure Chain (runtime : Runtime) where
  ledger : Ledger
  /-- Unix milliseconds. -/
  time : U64
  lawful : ∃ events, Lawful runtime events ledger

/-- The escrow of a hashlock: what the program's account at its PDA stores. -/
def escrowAt (runtime : Runtime) (ledger : Ledger) (hashlock : Bytes32) : Option HTLCEscrow :=
  if (ledger.account (runtime.pda hashlock)).programOwner = runtime.programId then
    (HTLCEscrow.fromBytes (ledger.account (runtime.pda hashlock)).data).toOption
  else none

/-- One move of the escrow of a hashlock. -/
inductive EscrowMove (runtime : Runtime) (hashlock : Bytes32) :
    Option HTLCEscrow → Option HTLCEscrow → Prop where
  | stay {escrow : Option HTLCEscrow} : EscrowMove runtime hashlock escrow escrow
  | lock (terms : Terms) :
      EscrowMove runtime hashlock none (some (terms.escrow hashlock .Locked none))
  | claim (terms : Terms) (preimage : List UInt8) (length : preimage.length = 32)
      (matching : runtime.sha256 preimage = hashlock) :
      EscrowMove runtime hashlock (some (terms.escrow hashlock .Locked none))
        (some (terms.escrow hashlock .Claimed (some preimage)))
  | refund (terms : Terms) :
      EscrowMove runtime hashlock (some (terms.escrow hashlock .Locked none))
        (some (terms.escrow hashlock .Refunded none))

/-- Any number of moves. -/
abbrev EscrowMoves (runtime : Runtime) (hashlock : Bytes32) :
    Option HTLCEscrow → Option HTLCEscrow → Prop :=
  ReflTransGen (EscrowMove runtime hashlock)

/-- What a chain may grow into. -/
structure Grows (runtime : Runtime) (before after : Ledger) : Prop where
  moves : ∀ hashlock ∈ runtime.seeds,
    EscrowMoves runtime hashlock (escrowAt runtime before hashlock)
      (escrowAt runtime after hashlock)
  /-- A locked escrow account is only paid into. -/
  balances : ∀ hashlock ∈ runtime.seeds, ∀ escrow,
    escrowAt runtime after hashlock = some escrow → escrow.state = .Locked →
      escrowAt runtime before hashlock = some escrow →
        (before.account (runtime.pda hashlock)).balance ≤
          (after.account (runtime.pda hashlock)).balance

variable {runtime : Runtime} {hashlock : Bytes32} {before after later : Ledger}
  {event : Event} {events : List Event} {transaction : Transaction}

theorem escrowAt_eq_some {escrow : HTLCEscrow} :
    escrowAt runtime before hashlock = some escrow ↔
      (before.account (runtime.pda hashlock)).programOwner = runtime.programId ∧
        HTLCEscrow.fromBytes (before.account (runtime.pda hashlock)).data = .ok escrow := by
  unfold escrowAt
  split
  · rename_i owned
    cases HTLCEscrow.fromBytes (before.account (runtime.pda hashlock)).data with
    | error message => simp [Except.toOption]
    | ok decoded => simp [Except.toOption, owned]
  · rename_i free
    simp [free]

theorem escrowAt_eq_none_of_free
    (free : (before.account (runtime.pda hashlock)).programOwner ≠ runtime.programId) :
    escrowAt runtime before hashlock = none := by
  simp [escrowAt, free]

/-- The escrow depends on owner and data only. -/
theorem escrowAt_congr
    (owner : (after.account (runtime.pda hashlock)).programOwner =
      (before.account (runtime.pda hashlock)).programOwner)
    (data : (after.account (runtime.pda hashlock)).data =
      (before.account (runtime.pda hashlock)).data) :
    escrowAt runtime after hashlock = escrowAt runtime before hashlock := by
  unfold escrowAt
  rw [owner, data]

/-- An escrow written by an instruction reads back. -/
theorem escrowAt_of_written {escrow : HTLCEscrow} (encodable : escrow.Encodable)
    (owner : (after.account (runtime.pda hashlock)).programOwner = runtime.programId)
    (data : (after.account (runtime.pda hashlock)).data = escrow.toBytes) :
    escrowAt runtime after hashlock = some escrow :=
  escrowAt_eq_some.mpr ⟨owner, data ▸ HTLCEscrow.fromBytes_toBytes encodable⟩

theorem Locks.escrowAt {terms : Terms} {created : Bytes32} (seeded : hashlock ∈ runtime.seeds)
    (locks : Locks runtime transaction created terms before after) :
    EscrowMove runtime hashlock (escrowAt runtime before hashlock)
      (escrowAt runtime after hashlock) := by
  by_cases same : hashlock = created
  · subst same
    have free : (before.account (runtime.pda hashlock)).programOwner ≠ runtime.programId := by
      rw [locks.uninitialized]
      exact runtime.programId_ne_default.symm
    have written : Lez.escrowAt runtime after hashlock = some (terms.escrow hashlock .Locked none) :=
      escrowAt_of_written (encodable_none .Locked) (by simp [locks.written])
        (by simp [locks.written])
    rw [escrowAt_eq_none_of_free free, written]
    exact .lock terms
  · have apart : runtime.pda hashlock ≠ runtime.pda created :=
      fun equal => same (runtime.pda_injOn seeded locks.seeded equal)
    have unchanged : after.account (runtime.pda hashlock) =
        before.account (runtime.pda hashlock) := by simp [locks.written, apart]
    rw [escrowAt_congr (by rw [unchanged]) (by rw [unchanged])]
    exact .stay

/-- A settlement leaves every other escrow as it is. -/
theorem Settles.escrowAt_other {seed : Bytes32} {escrow settled : HTLCEscrow}
    {payee : AccountId} (settles : Settles runtime transaction seed escrow settled payee before after)
    (truthful : ∀ signer ∈ transaction.signers, ∀ seed ∈ runtime.seeds,
      signer ≠ runtime.pda seed)
    (seeded : hashlock ∈ runtime.seeds) (other : hashlock ≠ seed) :
    after.account (runtime.pda hashlock) = before.account (runtime.pda hashlock) :=
  settles.other_pda truthful seeded
    fun equal => other (runtime.pda_injOn seeded settles.seeded equal)

/-- One step on the chain moves the escrow of a hashlock at most once. -/
theorem escrow_moves (lawful : Lawful runtime events before)
    (seeded : hashlock ∈ runtime.seeds) (step : Step runtime before event after) :
    EscrowMove runtime hashlock (escrowAt runtime before hashlock)
      (escrowAt runtime after hashlock) := by
  have effect := lawful.effect step
  cases step with
  | foreign change =>
      have kept := change (runtime.pda hashlock)
      by_cases owned : (before.account (runtime.pda hashlock)).programOwner = runtime.programId
      · rw [if_pos owned] at kept
        rw [escrowAt_congr (kept.1.trans owned.symm) kept.2.1]
        exact .stay
      · rw [if_neg owned] at kept
        rw [escrowAt_eq_none_of_free owned, escrowAt_eq_none_of_free kept]
        exact .stay
  | execute executes =>
      cases effect with
      | locks created terms locks balances => exact locks.escrowAt seeded
      | claims seed terms preimage claims =>
          by_cases same : hashlock = seed
          · subst same
            rw [escrowAt_eq_some.mpr ⟨claims.settles.owned, claims.settles.read⟩,
              escrowAt_of_written (encodable_claimed claims.length) claims.settles.owner
                claims.settles.data]
            exact .claim terms preimage claims.length claims.matching
          · have unchanged := claims.settles.escrowAt_other executes.truthful seeded same
            rw [escrowAt_congr (by rw [unchanged]) (by rw [unchanged])]
            exact .stay
      | refunds seed terms refunds =>
          by_cases same : hashlock = seed
          · subst same
            rw [escrowAt_eq_some.mpr ⟨refunds.settles.owned, refunds.settles.read⟩,
              escrowAt_of_written (encodable_refunded (encodable_none .Locked))
                refunds.settles.owner refunds.settles.data]
            exact .refund terms
          · have unchanged := refunds.settles.escrowAt_other executes.truthful seeded same
            rw [escrowAt_congr (by rw [unchanged]) (by rw [unchanged])]
            exact .stay

theorem Settles.escrowAt_settled {seed : Bytes32} {escrow settled : HTLCEscrow}
    {payee : AccountId} (settles : Settles runtime transaction seed escrow settled payee before after)
    (encodable : settled.Encodable) : escrowAt runtime after seed = some settled :=
  escrowAt_of_written encodable settles.owner settles.data

/-- A locked escrow account is only paid into by a step that leaves it locked. -/
theorem locked_balance (lawful : Lawful runtime events before)
    (seeded : hashlock ∈ runtime.seeds) (step : Step runtime before event after)
    {escrow : HTLCEscrow} (still : escrowAt runtime after hashlock = some escrow)
    (locked : escrow.state = .Locked) (was : escrowAt runtime before hashlock = some escrow) :
    (before.account (runtime.pda hashlock)).balance ≤
      (after.account (runtime.pda hashlock)).balance := by
  have owned := (escrowAt_eq_some.mp was).1
  have effect := lawful.effect step
  cases step with
  | foreign change =>
      have kept := change (runtime.pda hashlock)
      rw [if_pos owned] at kept
      exact kept.2.2
  | execute executes =>
      cases effect with
      | locks created terms locks balances =>
          rw [balances]
          exact BitVec.le_refl _
      | claims seed terms preimage claims =>
          by_cases same : hashlock = seed
          · subst same
            rw [claims.settles.escrowAt_settled (encodable_claimed claims.length)] at still
            cases still
            cases locked
          · rw [claims.settles.escrowAt_other executes.truthful seeded same]
            exact BitVec.le_refl _
      | refunds seed terms refunds =>
          by_cases same : hashlock = seed
          · subst same
            rw [refunds.settles.escrowAt_settled
              (encodable_refunded (encodable_none .Locked))] at still
            cases still
            cases locked
          · rw [refunds.settles.escrowAt_other executes.truthful seeded same]
            exact BitVec.le_refl _

/-- A move never removes an escrow, nor changes one that is settled. -/
theorem EscrowMove.some_cases {escrow : HTLCEscrow} {next : Option HTLCEscrow}
    (move : EscrowMove runtime hashlock (some escrow) next) :
    next = some escrow ∨ escrow.state = .Locked ∧ ∃ settled, next = some settled ∧
      settled.terms = escrow.terms ∧ settled.hashlock = escrow.hashlock ∧
      (settled.state = .Refunded ∨ settled.state = .Claimed ∧
        ∃ preimage, settled.preimage = some preimage ∧ preimage.length = 32 ∧
          runtime.sha256 preimage = hashlock) := by
  cases move with
  | stay => exact .inl rfl
  | claim terms preimage length matching =>
      exact .inr ⟨rfl, _, rfl, rfl, rfl, .inr ⟨rfl, preimage, rfl, length, matching⟩⟩
  | refund terms => exact .inr ⟨rfl, _, rfl, rfl, rfl, .inl rfl⟩

/-- An escrow stays as it is or is settled once, on its own terms. -/
theorem EscrowMoves.some_cases {escrow : HTLCEscrow} {next : Option HTLCEscrow}
    (moves : EscrowMoves runtime hashlock (some escrow) next) :
    next = some escrow ∨ escrow.state = .Locked ∧ ∃ settled, next = some settled ∧
      settled.terms = escrow.terms ∧ settled.hashlock = escrow.hashlock ∧
      (settled.state = .Refunded ∨ settled.state = .Claimed ∧
        ∃ preimage, settled.preimage = some preimage ∧ preimage.length = 32 ∧
          runtime.sha256 preimage = hashlock) := by
  induction moves with
  | refl => exact .inl rfl
  | tail _ last ih =>
      rcases ih with rfl | ⟨locked, settled, rfl, terms, hash, state⟩
      · exact last.some_cases
      · rcases last.some_cases with rfl | ⟨still, -⟩
        · exact .inr ⟨locked, settled, rfl, terms, hash, state⟩
        · rcases state with refunded | ⟨claimed, -⟩
          · rw [refunded] at still
            cases still
          · rw [claimed] at still
            cases still

/-- A settled escrow never changes. -/
theorem EscrowMoves.settled_eq {escrow : HTLCEscrow} {next : Option HTLCEscrow}
    (moves : EscrowMoves runtime hashlock (some escrow) next)
    (settled : escrow.state ≠ .Locked) : next = some escrow := by
  rcases moves.some_cases with same | ⟨locked, -⟩
  · exact same
  · exact absurd locked settled

/-- An escrow that is locked now was not there before, or was as it is. -/
theorem EscrowMoves.locked_cases {escrow : HTLCEscrow} {earlier : Option HTLCEscrow}
    (moves : EscrowMoves runtime hashlock earlier (some escrow)) (locked : escrow.state = .Locked) :
    earlier = none ∨ earlier = some escrow := by
  cases earlier with
  | none => exact .inl rfl
  | some first =>
      rcases moves.some_cases with same | ⟨-, settled, same, -, -, state⟩
      · exact .inr same.symm
      · cases same
        rcases state with refunded | ⟨claimed, -⟩
        · rw [refunded] at locked
          cases locked
        · rw [claimed] at locked
          cases locked

theorem Grows.refl (ledger : Ledger) : Grows runtime ledger ledger :=
  ⟨fun _ _ => .refl, fun _ _ _ _ _ _ => BitVec.le_refl _⟩

theorem Grows.trans (first : Grows runtime before after) (second : Grows runtime after later) :
    Grows runtime before later := by
  refine ⟨fun hashlock seeded => (first.moves hashlock seeded).trans (second.moves hashlock seeded),
    fun hashlock seeded escrow final locked initial => ?_⟩
  have middle : escrowAt runtime after hashlock = some escrow := by
    have moved := first.moves hashlock seeded
    have moves := second.moves hashlock seeded
    rw [initial] at moved
    rw [final] at moves
    rcases moved.some_cases with same | ⟨-, settled, same, -⟩
    · exact same
    · rcases moves.locked_cases locked with gone | same'
      · rw [same] at gone
        cases gone
      · exact same'
  exact BitVec.le_trans (first.balances hashlock seeded escrow middle locked initial)
    (second.balances hashlock seeded escrow final locked middle)

/-- Every step grows the chain. -/
theorem Step.grows (lawful : Lawful runtime events before) (step : Step runtime before event after) :
    Grows runtime before after :=
  ⟨fun _ seeded => .single (escrow_moves lawful seeded step),
    fun _ seeded _ still locked was => locked_balance lawful seeded step still locked was⟩

end AtomicSwaps.Lez
