import AtomicSwaps.Mcp.SubmissionRule

/-!
# Serialized writes

No two signed transactions with one nonce are outstanding, and what is reported as committed
is committed, as long as no call ends with its last transaction outstanding and no fallback is
misled. Without that, a wait that ends at its deadline lets the next call use the nonce again.
-/

namespace AtomicSwaps.Mcp

open Semantics
open Lez (AccountId Account)

variable {hashOf : Tx → String}

/-! ## What the sequencer has -/

/-- What the guard of `signed_write_lock` covers: all that is outstanding was pending when the
guard was taken, or was submitted last. If that was submitted with the account's nonce, it is
the only one that can use the nonce, until it is committed. -/
structure SubmitWorld.Covers (hashOf : Tx → String) (world : SubmitWorld) (last : LastSubmission) :
    Prop where
  own : ∀ tx, world.ledger.Outstanding tx → tx ∈ world.leftover ∨ ∃ answer, last = some (tx, answer)
  named : ∀ tx txHash, last = some (tx, .ok txHash) → hashOf tx = txHash ∧ tx ∈ world.ledger.sent
  sole : ∀ tx txHash, last = some (tx, .ok txHash) → tx.nonces = [world.submittedAt] →
    tx ∈ world.ledger.committed ∨ (world.ledger.nonce = world.submittedAt ∧
      ∀ other ∈ world.ledger.pending, other.nonces = [world.submittedAt] → other = tx)

/-- A claim that was submitted for the seed as it was is committed before the seed is rotated. -/
structure SubmitWorld.Claims (hashOf : Tx → String) (world : SubmitWorld) (solved : SolvedClaim)
    (txHash : String) : Prop where
  named : hashOf (.Claim solved) = txHash
  sole : solved.seed = world.claimedAt →
    .Claim solved ∈ world.ledger.committed ∨ world.ledger.seed = world.claimedAt

/-- What holds of the chain and the guards. -/
structure SubmitWorld.Sound (hashOf : Tx → String) (world : SubmitWorld) : Prop where
  pending : world.ledger.pending ⊆ world.ledger.sent
  committed : world.ledger.committed ⊆ world.ledger.sent
  apart : ∀ first ∈ world.ledger.sent, ∀ second ∈ world.ledger.sent,
    hashOf first = hashOf second → first = second
  spent : ∀ tx ∈ world.ledger.committed, ∀ nonce, tx.nonces = [nonce] → nonce < world.ledger.nonce
  distinct : ∀ first second, world.ledger.Outstanding first → world.ledger.Outstanding second →
    first.nonces = second.nonces → first = second
  signed : ∀ last, world.signed = some last → world.Covers hashOf last
  claim : ∀ solved txHash, world.claim = some (some (.Claim solved, .ok txHash)) →
    world.Claims hashOf solved txHash

/-- No transaction that was pending when the guard was taken is outstanding with the nonce of the
one that is signed now. -/
def Ledger.Clear (ledger : Ledger) (leftover : List Tx) (tx : Tx) : Prop :=
  ∀ other ∈ leftover, ledger.Outstanding other → other.nonces = tx.nonces → other = tx

/-- What spares an operation the defects: nothing left over is outstanding with the nonce that is
used, and a fallback that is content compares what the transaction was submitted with, by a
reading of the seed as it is. -/
def SubmitOp.Spared (before : SubmitWorld) : (op : SubmitOp) → SubmitAnswer op → Prop
  | .write (.tool (.sendInitialize accountId nonces)), _ =>
      before.ledger.Clear before.leftover (.Initialize accountId nonces)
  | .write (.tool (.sendTransfer fromId toId nonces amount)), _ =>
      before.ledger.Clear before.leftover (.Transfer fromId toId nonces amount)
  | .pollNonces _ submitted, .ok nonces => nonceAdvanced nonces.head? submitted →
      submitted = before.submittedAt ∧
        ∀ tx answer, before.signed = some (some (tx, answer)) → tx.nonces = [submitted]
  | .pollChallenge solved, .ok seed => seedRotated seed solved →
      solved = before.claimedAt ∧ seed = before.ledger.seed
  | _, _ => True

/-- While a claim of the server waits, the seed is not rotated before the claim is committed. -/
def SubmitWorld.Undisturbed (before after : SubmitWorld) : Prop :=
  ∀ solved txHash, before.claim = some (some (.Claim solved, .ok txHash)) →
    after.ledger.seed = before.ledger.seed ∨ .Claim solved ∈ after.ledger.committed

section Chain

variable {before after : Ledger} {tx other : Tx}

theorem toNat_next {nonce : U128} (room : nonce.toNat + 1 < 2 ^ 128) :
    (nonce + 1).toNat = nonce.toNat + 1 := by
  rw [BitVec.toNat_add]
  exact Nat.mod_eq_of_lt room

theorem Executes.grows (executed : Executes before tx after) :
    after.sent = before.sent ∧ after.committed = tx :: before.committed ∧
      after.pending = before.pending.erase tx ∧ tx ∈ before.pending := by
  cases executed with
  | signed pending => exact ⟨rfl, rfl, rfl, pending⟩
  | claim pending => exact ⟨rfl, rfl, rfl, pending⟩

theorem Executes.nonce_le (executed : Executes before tx after) : before.nonce ≤ after.nonce := by
  cases executed with
  | signed _ _ room =>
      change before.nonce.toNat ≤ (before.nonce + 1).toNat
      rw [toNat_next room]
      exact Nat.le_succ _
  | claim => exact BitVec.le_refl _

/-- Less is outstanding when transactions go or the nonce rises. -/
theorem Ledger.Outstanding.of_later (outstanding : after.Outstanding tx)
    (pending : after.pending ⊆ before.pending) (nonce : before.nonce ≤ after.nonce) :
    before.Outstanding tx := by
  obtain ⟨member, used, same, unused⟩ := outstanding
  exact ⟨pending member, used, same, BitVec.le_trans nonce unused⟩

/-- What a submission leaves as it is. -/
structure Received (before : Ledger) (tx : Tx) (after : Ledger) : Prop where
  nonce : after.nonce = before.nonce
  seed : after.seed = before.seed
  committed : after.committed = before.committed
  sent : before.sent ⊆ after.sent
  pending : ∀ other ∈ after.pending, other = tx ∨ other ∈ before.pending
  inside : before.pending ⊆ before.sent → after.pending ⊆ after.sent

theorem Receives.received {answer : Except String String}
    (receives : Receives hashOf before tx answer after) : Received before tx after := by
  obtain ⟨-, -, rfl | ⟨-, rfl⟩⟩ := receives
  · exact ⟨rfl, rfl, rfl, List.subset_cons_self _ _, fun other member => List.mem_cons.mp member,
      fun inside => List.cons_subset_cons _ inside⟩
  · exact ⟨rfl, rfl, rfl, List.Subset.refl _, fun other member => .inr member, id⟩

theorem Receives.apart {answer : Except String String}
    (receives : Receives hashOf before tx answer after)
    (apart : ∀ first ∈ before.sent, ∀ second ∈ before.sent, hashOf first = hashOf second → first = second) :
    ∀ first ∈ after.sent, ∀ second ∈ after.sent, hashOf first = hashOf second → first = second := by
  obtain ⟨-, alone, rfl | ⟨-, rfl⟩⟩ := receives
  · intro first member second member' same
    rcases List.mem_cons.mp member with rfl | old
    · rcases List.mem_cons.mp member' with rfl | old'
      · rfl
      · exact (alone second old' same.symm).symm
    · rcases List.mem_cons.mp member' with rfl | old'
      · exact alone first old same
      · exact apart first old second old' same
  · exact apart

theorem Receives.accepted {txHash : String}
    (receives : Receives hashOf before tx (.ok txHash) after) : hashOf tx = txHash ∧ tx ∈ after.sent := by
  obtain ⟨answered, -, rfl | ⟨⟨e, impossible⟩, -⟩⟩ := receives
  · exact ⟨(answered txHash rfl).symm, List.mem_cons_self⟩
  · cases impossible

/-- What is outstanding after a submission was so before, or is what was submitted. -/
theorem Received.outstanding (received : Received before tx after) (outstanding : after.Outstanding other) :
    other = tx ∨ before.Outstanding other := by
  obtain ⟨member, used, same, unused⟩ := outstanding
  rw [received.nonce] at unused
  exact (received.pending other member).imp_right fun there => ⟨there, used, same, unused⟩

end Chain

namespace SubmitWorld.Sound

variable {before after : SubmitWorld}

/-- An operation that neither submits nor takes or drops a guard. -/
theorem quiet (sound : before.Sound hashOf) (ledger : after.ledger = before.ledger)
    (signed : after.signed = before.signed) (claim : after.claim = before.claim)
    (leftover : after.leftover = before.leftover) (submittedAt : after.submittedAt = before.submittedAt)
    (claimedAt : after.claimedAt = before.claimedAt) : after.Sound hashOf := by
  obtain ⟨now, tokens, ledger', signed', claim', leftover', submittedAt', claimedAt'⟩ := after
  dsimp only at ledger signed claim leftover submittedAt claimedAt
  subst ledger signed claim leftover submittedAt claimedAt
  refine ⟨sound.pending, sound.committed, sound.apart, sound.spent, sound.distinct, fun last same => ?_,
    fun solved txHash same => ?_⟩
  · have covers := sound.signed last same
    exact ⟨covers.own, covers.named, covers.sole⟩
  · have claims := sound.claim solved txHash same
    exact ⟨claims.named, claims.sole⟩

section Submitting

variable {tx : Tx} {answer : Except String String}

/-- What was submitted last is settled, so whatever is outstanding was left over. -/
theorem leftover_of_settled (sound : before.Sound hashOf) {last : LastSubmission}
    (held : before.signed = some last)
    (settled : ∀ tx answer, last = some (tx, answer) → ∃ txHash, answer = .ok txHash ∧
      ∃ done ∈ before.ledger.committed, hashOf done = txHash) :
    ∀ tx, before.ledger.Outstanding tx → tx ∈ before.leftover := by
  intro tx outstanding
  have covers := sound.signed last held
  rcases covers.own tx outstanding with left | ⟨answer, same⟩
  · exact left
  · obtain ⟨txHash, rfl, done, committed, named⟩ := settled tx answer same
    obtain ⟨hash, sent⟩ := covers.named tx txHash same
    obtain rfl : done = tx := sound.apart done (sound.committed committed) tx sent (named.trans hash.symm)
    obtain ⟨-, nonce, nonces, unused⟩ := outstanding
    exact absurd unused (BitVec.not_le.mpr (sound.spent done committed nonce nonces))

/-- A signed transaction is submitted when what was submitted before it is settled. -/
theorem signs (sound : before.Sound hashOf) {last : LastSubmission}
    (receives : Receives hashOf before.ledger tx answer after.ledger)
    (held : before.signed = some last)
    (settled : ∀ tx answer, last = some (tx, answer) → ∃ txHash, answer = .ok txHash ∧
      ∃ done ∈ before.ledger.committed, hashOf done = txHash)
    (clear : before.ledger.Clear before.leftover tx)
    (signed : after.signed = before.signed.map fun _ => some (tx, answer))
    (claim : after.claim = before.claim) (leftover : after.leftover = before.leftover)
    (submittedAt : after.submittedAt = before.ledger.nonce)
    (claimedAt : after.claimedAt = before.claimedAt) : after.Sound hashOf := by
  have left := sound.leftover_of_settled held settled
  have received := receives.received
  have only : ∀ other, before.ledger.Outstanding other → other.nonces = tx.nonces → other = tx :=
    fun other outstanding => clear other (left other outstanding) outstanding
  constructor
  · exact received.inside sound.pending
  · rw [received.committed]
    exact List.Subset.trans sound.committed received.sent
  · exact receives.apart sound.apart
  · rw [received.committed, received.nonce]
    exact sound.spent
  · intro first second outstanding outstanding' same
    rcases received.outstanding outstanding with rfl | old
    · rcases received.outstanding outstanding' with rfl | old'
      · rfl
      · exact (only second old' same.symm).symm
    · rcases received.outstanding outstanding' with rfl | old'
      · exact only first old same
      · exact sound.distinct first second old old' same
  · intro last' same
    rw [signed, held] at same
    obtain rfl : some (tx, answer) = last' := Option.some.inj same
    constructor
    · intro other outstanding
      rw [leftover]
      rcases received.outstanding outstanding with rfl | old
      · exact .inr ⟨answer, rfl⟩
      · exact .inl (left other old)
    · intro tx' txHash same
      obtain ⟨rfl, rfl⟩ := Prod.mk.inj (Option.some.inj same)
      exact receives.accepted
    · intro tx' txHash same nonces
      obtain ⟨rfl, rfl⟩ := Prod.mk.inj (Option.some.inj same)
      refine .inr ⟨by rw [submittedAt, received.nonce], fun other member nonces' => ?_⟩
      rcases received.pending other member with rfl | old
      · rfl
      · refine only other ⟨old, after.submittedAt, nonces', ?_⟩ (nonces'.trans nonces.symm)
        rw [submittedAt]
        exact BitVec.le_refl _
  · intro solved txHash same
    rw [claim] at same
    have claims := sound.claim solved txHash same
    refine ⟨claims.named, fun current => ?_⟩
    rw [received.committed, received.seed, claimedAt]
    exact claims.sole (current.trans claimedAt)

/-- A claim is submitted. -/
theorem claims (sound : before.Sound hashOf) {solved : SolvedClaim}
    (receives : Receives hashOf before.ledger (.Claim solved) answer after.ledger)
    (claim : after.claim = before.claim.map fun _ => some (.Claim solved, answer))
    (signed : after.signed = before.signed) (leftover : after.leftover = before.leftover)
    (submittedAt : after.submittedAt = before.submittedAt)
    (claimedAt : after.claimedAt = before.ledger.seed) : after.Sound hashOf := by
  have received := receives.received
  have unsigned : ∀ other, after.ledger.Outstanding other → before.ledger.Outstanding other := by
    intro other outstanding
    rcases received.outstanding outstanding with rfl | old
    · obtain ⟨-, nonce, impossible, -⟩ := outstanding
      cases impossible
    · exact old
  constructor
  · exact received.inside sound.pending
  · rw [received.committed]
    exact List.Subset.trans sound.committed received.sent
  · exact receives.apart sound.apart
  · rw [received.committed, received.nonce]
    exact sound.spent
  · exact fun first second outstanding outstanding' =>
      sound.distinct first second (unsigned first outstanding) (unsigned second outstanding')
  · intro last same
    rw [signed] at same
    have covers := sound.signed last same
    constructor
    · intro tx outstanding
      rw [leftover]
      exact covers.own tx (unsigned tx outstanding)
    · exact fun tx txHash same => (covers.named tx txHash same).imp_right (received.sent ·)
    · intro tx txHash same nonces
      rw [submittedAt] at nonces ⊢
      rw [received.committed, received.nonce]
      refine (covers.sole tx txHash same nonces).imp_right fun alone => ⟨alone.1, fun other member used => ?_⟩
      rcases received.pending other member with rfl | old
      · cases used
      · exact alone.2 other old used
  · intro solved' txHash same
    rw [claim] at same
    obtain ⟨last, -, same⟩ := Option.map_eq_some_iff.mp same
    obtain ⟨named, rfl⟩ := Prod.mk.inj (Option.some.inj same)
    obtain rfl := Tx.Claim.inj named
    exact ⟨receives.accepted.1, fun _ => .inr (by rw [received.seed, claimedAt])⟩

end Submitting

/-- `signed_write_lock` is taken or dropped. -/
theorem guards (sound : before.Sound hashOf) (ledger : after.ledger = before.ledger)
    (claim : after.claim = before.claim) (claimedAt : after.claimedAt = before.claimedAt)
    (signed : ∀ last, after.signed = some last → last = none ∧ after.leftover = before.ledger.pending) :
    after.Sound hashOf := by
  obtain ⟨now, tokens, ledger', signed', claim', leftover', submittedAt', claimedAt'⟩ := after
  dsimp only at ledger signed claim claimedAt
  subst ledger claim claimedAt
  refine ⟨sound.pending, sound.committed, sound.apart, sound.spent, sound.distinct, fun last same => ?_,
    fun solved txHash same => ?_⟩
  · obtain ⟨rfl, rfl⟩ := signed last same
    exact ⟨fun tx outstanding => .inl outstanding.1, nofun, nofun⟩
  · have claims := sound.claim solved txHash same
    exact ⟨claims.named, claims.sole⟩

/-- `claim_lock` is taken or dropped. -/
theorem guardsClaim (sound : before.Sound hashOf) (ledger : after.ledger = before.ledger)
    (signed : after.signed = before.signed) (leftover : after.leftover = before.leftover)
    (submittedAt : after.submittedAt = before.submittedAt)
    (claim : ∀ last, after.claim = some last → last = none) : after.Sound hashOf := by
  obtain ⟨now, tokens, ledger', signed', claim', leftover', submittedAt', claimedAt'⟩ := after
  dsimp only at ledger signed claim leftover submittedAt
  subst ledger signed leftover submittedAt
  refine ⟨sound.pending, sound.committed, sound.apart, sound.spent, sound.distinct, fun last same => ?_,
    fun solved txHash same => ?_⟩
  · have covers := sound.signed last same
    exact ⟨covers.own, covers.named, covers.sole⟩
  · cases claim _ same

/-- An operation of a server that is spared keeps the chain and the guards sound, if what is
signed is signed when what was submitted before it is settled. -/
theorem performs (sound : before.Sound hashOf) {op : SubmitOp} {answer : SubmitAnswer op}
    (performed : SubmitPerforms hashOf op before answer after) (spared : op.Spared before answer)
    (settled : op.Signs → ∃ last, before.signed = some last ∧
      ∀ tx answer, last = some (tx, answer) → ∃ txHash, answer = .ok txHash ∧
        ∃ done ∈ before.ledger.committed, hashOf done = txHash) : after.Sound hashOf := by
  obtain ⟨ledger, tokens, free, clock, now, signed, claim, leftover, submittedAt, claimedAt⟩ := performed
  cases op with
  | write op =>
      cases op with
      | tool op =>
          cases op with
          | lockSignedWrite =>
              refine sound.guards ledger claim claimedAt fun last same => ⟨?_, leftover⟩
              rw [signed] at same
              exact (Option.some.inj same).symm
          | sendInitialize accountId nonces =>
              obtain ⟨last, held, settled⟩ := settled rfl
              exact sound.signs ledger held settled spared signed claim leftover submittedAt claimedAt
          | sendTransfer fromId toId nonces amount =>
              obtain ⟨last, held, settled⟩ := settled rfl
              exact sound.signs ledger held settled spared signed claim leftover submittedAt claimedAt
          | getAccountsNonces => exact sound.quiet ledger.2 signed claim leftover submittedAt claimedAt
          | _ => exact sound.quiet ledger signed claim leftover submittedAt claimedAt
      | dropSignedWrite =>
          refine sound.guards ledger claim claimedAt fun last same => ?_
          rw [signed] at same
          cases same
      | lockClaim =>
          refine sound.guardsClaim ledger signed leftover submittedAt fun last same => ?_
          rw [claim] at same
          exact (Option.some.inj same).symm
      | dropClaim =>
          refine sound.guardsClaim ledger signed leftover submittedAt fun last same => ?_
          rw [claim] at same
          cases same
      | submitClaim solved => exact sound.claims ledger claim signed leftover submittedAt claimedAt
      | _ => exact sound.quiet ledger signed claim leftover submittedAt claimedAt
  | getTransaction txHash => exact sound.quiet ledger.2 signed claim leftover submittedAt claimedAt
  | pollNonces => exact sound.quiet ledger.2 signed claim leftover submittedAt claimedAt
  | _ => exact sound.quiet ledger signed claim leftover submittedAt claimedAt

/-- What happens to the chain by itself keeps it sound, if claims that wait are not disturbed. -/
theorem chain (sound : before.Sound hashOf) {ledger : Ledger}
    (sent : ledger.sent = before.ledger.sent) (pending : ledger.pending ⊆ before.ledger.pending)
    (nonce : before.ledger.nonce ≤ ledger.nonce)
    (committed : before.ledger.committed ⊆ ledger.committed)
    (spent : ∀ tx ∈ ledger.committed, tx ∈ before.ledger.sent ∧
      ∀ nonce, tx.nonces = [nonce] → nonce < ledger.nonce)
    (used : ledger.nonce = before.ledger.nonce ∨
      ∃ tx ∈ ledger.committed, tx ∈ before.ledger.pending ∧ tx.nonces = [before.ledger.nonce])
    (undisturbed : before.Undisturbed { before with ledger }) :
    ({ before with ledger } : SubmitWorld).Sound hashOf := by
  have earlier : ∀ tx, ledger.Outstanding tx → before.ledger.Outstanding tx :=
    fun tx outstanding => outstanding.of_later pending nonce
  constructor
  · rw [sent]
    exact List.Subset.trans pending sound.pending
  · rw [sent]
    exact fun tx member => (spent tx member).1
  · rw [sent]
    exact sound.apart
  · exact fun tx member => (spent tx member).2
  · exact fun first second outstanding outstanding' =>
      sound.distinct first second (earlier first outstanding) (earlier second outstanding')
  · intro last same
    have covers := sound.signed last same
    refine ⟨fun tx outstanding => covers.own tx (earlier tx outstanding), ?_, fun tx txHash same nonces => ?_⟩
    · rw [sent]
      exact covers.named
    rcases covers.sole tx txHash same nonces with done | ⟨current, alone⟩
    · exact .inl (committed done)
    · rcases used with still | ⟨other, done, member, nonces'⟩
      · exact .inr ⟨still.trans current, fun other member => alone other (pending member)⟩
      · -- the nonce is used by the only transaction that could use it
        rw [current] at nonces'
        rw [← alone other member nonces']
        exact .inl done
  · intro solved txHash same
    have claims := sound.claim solved txHash same
    refine ⟨claims.named, fun current => ?_⟩
    rcases claims.sole current with done | unrotated
    · exact .inl (committed done)
    · rcases undisturbed solved txHash same with still | done
      · exact .inr (still.trans unrotated)
      · exact .inl done

theorem drifts (sound : before.Sound hashOf) (drifted : SubmitDrift before after)
    (undisturbed : before.Undisturbed after) : after.Sound hashOf := by
  cases drifted with
  | later => exact sound.quiet rfl rfl rfl rfl rfl rfl
  | drops =>
      exact sound.chain rfl (List.erase_subset) (BitVec.le_refl _) (List.Subset.refl _)
        (fun tx member => ⟨sound.committed member, sound.spent tx member⟩) (.inl rfl) undisturbed
  | rotates =>
      exact sound.chain rfl (List.Subset.refl _) (BitVec.le_refl _) (List.Subset.refl _)
        (fun tx member => ⟨sound.committed member, sound.spent tx member⟩) (.inl rfl) undisturbed
  | @commits tx ledger executed =>
      obtain ⟨sent, committed, pending, inside⟩ := executed.grows
      have later := executed.nonce_le
      refine sound.chain sent (pending ▸ List.erase_subset) later
        (committed ▸ List.subset_cons_self _ _) (fun done member => ?_) ?_ undisturbed
      · rw [committed] at member
        rcases List.mem_cons.mp member with rfl | old
        · refine ⟨sound.pending inside, fun nonce nonces => ?_⟩
          cases executed with
          | signed _ current room =>
              obtain rfl := List.cons.inj (nonces.symm.trans current) |>.1
              change before.ledger.nonce.toNat < (before.ledger.nonce + 1).toNat
              rw [toNat_next room]
              exact Nat.lt_succ_self _
          | claim => cases nonces
        · exact ⟨sound.committed old, fun nonce nonces =>
            Nat.lt_of_lt_of_le (show _ < _ from sound.spent done old nonce nonces) later⟩
      · cases executed with
        | signed _ current => exact .inr ⟨tx, List.mem_cons_self, inside, current⟩
        | claim => exact .inl rfl

end SubmitWorld.Sound

/-! ## The server -/

/-- What every operation of the server rests on. -/
def serverRule : SubmitTask → History submits → SubmitOp → Prop
  | .serve _, history, op => op = .write (.tool .accept) ∧
      ∀ exchange ∈ history, exchange.op = .write (.tool .accept)
  | _, history, op => submitRule history op

/-- Taking a call puts nothing into a thread's hands. -/
theorem handsOf_accepts {history : History submits}
    (taken : ∀ exchange ∈ history, exchange.op = SubmitOp.write (.tool .accept)) :
    handsOf history = ⟨none, none, []⟩ := by
  induction history using List.reverseRecOn with
  | nil => rfl
  | append_singleton history exchange ih =>
      obtain ⟨op, answer⟩ := exchange
      obtain rfl : op = .write (.tool .accept) := taken ⟨op, answer⟩ (by simp)
      rw [handsOf_append, ih fun other member => taken other (List.mem_append_left _ member)]
      rfl

/-- A call of a write tool that waits for itself keeps to the rule. -/
theorem waitingCall_follows {config : SubmitConfig} {program : Program writes Unit}
    {history : History submits}
    (taken : ∀ exchange ∈ history, exchange.op = SubmitOp.write (.tool .accept))
    (signs : Follows signRule (fun _ _ => True) program []) :
    Follows submitRule (fun _ _ => True)
      (do let _ ← program.expand (carrySubmit config) false : Program submits Unit) history := by
  have holds : Holds (signingOf []) false (handsOf history) := by
    rw [handsOf_accepts taken]
    exact ⟨rfl, nofun, nofun, List.Subset.refl _⟩
  exact Follows.bind_iff.mpr ((Follows.expand
    (fun history held below => Holds (signingOf history) held (handsOf below))
    carrySubmit_follows holds signs).weaken fun _ _ _ => trivial)

/-- Only the server takes calls, and it does nothing else. -/
theorem accepts_of_spawns {config : SubmitConfig} {task child : SubmitTask} {history : History submits}
    {op : SubmitOp} (ruled : serverRule task history op)
    (spawns : (submitSystem config).spawns op (some child)) :
    op = .write (.tool .accept) ∧ (∀ exchange ∈ history, exchange.op = .write (.tool .accept)) ∧
      ∀ calls, child ≠ .serve calls := by
  have accept : op = .write (.tool .accept) := by
    by_contra other
    unfold submitSystem at spawns
    dsimp only at spawns
    split at spawns
    · exact other rfl
    · cases spawns
  subst accept
  obtain ⟨spawned, same, plain⟩ := spawns
  obtain rfl : child = spawned := Option.some.inj same
  cases task with
  | serve calls => exact ⟨rfl, ruled.2, plain⟩
  | transfer params => exact ruled.2.elim
  | faucet params => exact ruled.2.elim

theorem submitSystem_ruled (config : SubmitConfig) : (submitSystem config).Ruled serverRule where
  main task main := by
    obtain ⟨calls, rfl⟩ := main
    suffices served : ∀ calls (history : History submits),
        (∀ exchange ∈ history, exchange.op = SubmitOp.write (.tool .accept)) →
        Follows (serverRule (.serve calls)) (fun _ _ => True) (takeCalls calls) history from
      served calls [] (by simp)
    intro calls
    induction calls with
    | zero => exact fun _ _ => trivial
    | succ calls ih =>
        refine fun history accepts => ⟨⟨rfl, accepts⟩, fun answer => ih _ ?_⟩
        simpa [or_imp, forall_and] using accepts
  child task history op answer child ruled spawns := by
    obtain ⟨rfl, accepts, plain⟩ := accepts_of_spawns ruled spawns
    have accepts : ∀ exchange ∈ history ++ [⟨.write (.tool .accept), answer⟩],
        exchange.op = SubmitOp.write (.tool .accept) := by
      simpa [or_imp, forall_and] using accepts
    cases child with
    | serve calls => exact (plain calls rfl).elim
    | transfer params => exact waitingCall_follows accepts transferCall_signs
    | faucet params => exact waitingCall_follows accepts faucetCall_signs

/-- The server and a sequencer, as long as operations are spared and claims are not disturbed. -/
def sparedSystem (config : SubmitConfig) : System submits SubmitWorld SubmitTask Unit :=
  { submitSystem config with
    environment :=
      ⟨fun op before answer after =>
        SubmitPerforms config.hashOf op before answer after ∧ op.Spared before answer,
      fun before after => SubmitDrift before after ∧ before.Undisturbed after⟩ }

theorem sparedSystem_ruled (config : SubmitConfig) : (sparedSystem config).Ruled serverRule :=
  ⟨(submitSystem_ruled config).main, (submitSystem_ruled config).child⟩

theorem sparedSystem_monotone (config : SubmitConfig) : (sparedSystem config).Monotone fun _ _ => True :=
  ⟨fun _ => trivial, fun _ _ => trivial, fun _ => trivial, fun _ => trivial, fun _ => trivial⟩

/-- `signed_write_lock`. -/
def signedLock : Lock submits SubmitWorld LastSubmission :=
  ⟨fun history => (handsOf history).signed, SubmitWorld.signed⟩

/-- `claim_lock`. -/
def claimLock : Lock submits SubmitWorld LastSubmission :=
  ⟨fun history => (handsOf history).claim, SubmitWorld.claim⟩

theorem SubmitDrift.guards {before after : SubmitWorld} (drifted : SubmitDrift before after) :
    after.signed = before.signed ∧ after.claim = before.claim := by
  cases drifted <;> exact ⟨rfl, rfl⟩

theorem hands_of_spawns {config : SubmitConfig} {task child : SubmitTask} {history : History submits}
    {op : SubmitOp} {answer : SubmitAnswer op} (ruled : serverRule task history op)
    (spawns : (submitSystem config).spawns op (some child)) :
    handsOf (history ++ [⟨op, answer⟩]) = ⟨none, none, []⟩ := by
  obtain ⟨rfl, accepts, -⟩ := accepts_of_spawns ruled spawns
  refine handsOf_accepts ?_
  simpa [or_imp, forall_and] using accepts

theorem serverRule_reports {task : SubmitTask} {history : History submits} {op : SubmitOp}
    (ruled : serverRule task history op) : op.Reports (handsOf history).confirmed := by
  cases task with
  | serve calls =>
      rw [ruled.1]
      trivial
  | transfer params => exact ruled.1
  | faucet params => exact ruled.1

/-- What an operation needs a thread to hold. -/
theorem serverRule_allows {task : SubmitTask} {history : History submits} {op : SubmitOp}
    (ruled : serverRule task history op) :
    op = .write (.tool .accept) ∨ (handsOf history).Allows op := by
  cases task with
  | serve calls => exact .inl ruled.1
  | transfer params => exact .inr ruled.2
  | faucet params => exact .inr ruled.2

theorem signedAfter_cases (op : SubmitOp) (answer : SubmitAnswer op) :
    (∀ held, signedAfter held ⟨op, answer⟩ = held) ∨ op = .write (.tool .lockSignedWrite) ∨
      op = .write .dropSignedWrite ∨ op.Signs := by
  cases op with
  | write op =>
      cases op with
      | tool op => cases op <;> first | exact .inl fun _ => rfl | exact .inr (.inl rfl) | exact .inr (.inr (.inr rfl))
      | dropSignedWrite => exact .inr (.inr (.inl rfl))
      | _ => exact .inl fun _ => rfl
  | _ => exact .inl fun _ => rfl

theorem claimAfter_cases (op : SubmitOp) (answer : SubmitAnswer op) :
    (∀ held, claimAfter held ⟨op, answer⟩ = held) ∨ op = .write .lockClaim ∨
      op = .write .dropClaim ∨ ∃ solved, op = .write (.submitClaim solved) := by
  cases op with
  | write op =>
      cases op with
      | lockClaim => exact .inr (.inl rfl)
      | dropClaim => exact .inr (.inr (.inl rfl))
      | submitClaim solved => exact .inr (.inr (.inr ⟨solved, rfl⟩))
      | _ => exact .inl fun _ => rfl
  | _ => exact .inl fun _ => rfl

/-- What is signed is signed under the guard, when what was submitted before it is settled. -/
theorem Hands.Allows.signs {hands : Hands} {op : SubmitOp} (allows : hands.Allows op)
    (signs : op.Signs) : ∃ last, hands.signed = some last ∧ Settled last hands.confirmed := by
  cases op with
  | write op =>
      cases op with
      | tool op => cases op <;> first | exact allows | cases signs
      | _ => cases signs
  | _ => cases signs

theorem signedLock_kept (config : SubmitConfig) : signedLock.Kept (sparedSystem config) serverRule where
  fresh := rfl
  drift drifted := drifted.1.guards.1
  perform {task history op before answer after} ruled performed := by
    have signed := performed.1.signed
    have free := performed.1.free
    have allows := serverRule_allows ruled
    change ((handsOf _).signed = (handsOf _).signed ∧ after.signed = before.signed) ∨
      ((before.signed = none ∨ (handsOf history).signed ≠ none) ∧
        (((handsOf history).signed ≠ none → (handsOf history).signed = before.signed) →
          (handsOf _).signed = after.signed))
    rw [handsOf_append, signed]
    rcases signedAfter_cases op answer with untouched | rfl | rfl | signs
    · exact .inl ⟨untouched _, untouched _⟩
    · exact .inr ⟨.inl free, fun _ => rfl⟩
    · exact .inr ⟨.inr (allows.resolve_left nofun), fun _ => rfl⟩
    · have allowed : (handsOf history).Allows op := allows.resolve_left fun accept => by
        subst accept
        cases signs
      have own : (handsOf history).signed ≠ none := by
        obtain ⟨last, same, -⟩ := allowed.signs signs
        simp [same]
      refine .inr ⟨.inr own, fun agrees => ?_⟩
      rw [← agrees own]
      rfl
  child ruled spawns := congrArg Hands.signed (@hands_of_spawns config _ _ _ _ _ ruled spawns)

theorem claimLock_kept (config : SubmitConfig) : claimLock.Kept (sparedSystem config) serverRule where
  fresh := rfl
  drift drifted := drifted.1.guards.2
  perform {task history op before answer after} ruled performed := by
    have claim := performed.1.claim
    have free := performed.1.free
    have allows := serverRule_allows ruled
    change ((handsOf _).claim = (handsOf _).claim ∧ after.claim = before.claim) ∨
      ((before.claim = none ∨ (handsOf history).claim ≠ none) ∧
        (((handsOf history).claim ≠ none → (handsOf history).claim = before.claim) →
          (handsOf _).claim = after.claim))
    rw [handsOf_append, claim]
    rcases claimAfter_cases op answer with untouched | rfl | rfl | ⟨solved, rfl⟩
    · exact .inl ⟨untouched _, untouched _⟩
    · exact .inr ⟨.inl free, fun _ => rfl⟩
    · exact .inr ⟨.inr (allows.resolve_left nofun), fun _ => rfl⟩
    · have own : (handsOf history).claim ≠ none := allows.resolve_left nofun
      refine .inr ⟨.inr own, fun agrees => ?_⟩
      rw [← agrees own]
      rfl
  child ruled spawns := congrArg Hands.claim (@hands_of_spawns config _ _ _ _ _ ruled spawns)

/-- Something committed has this hash. -/
def Ledger.Commits (hashOf : Tx → String) (ledger : Ledger) (txHash : String) : Prop :=
  ∃ tx ∈ ledger.committed, hashOf tx = txHash

/-- What holds of all threads: the chain and the guards are sound, what a thread has seen to be
committed is, and so was what it reported. -/
structure Serialized (hashOf : Tx → String) (pool : Pool submits SubmitWorld SubmitTask Unit) : Prop where
  sound : pool.world.Sound hashOf
  seen : ∀ thread ∈ pool.threads, ∀ txHash ∈ (handsOf thread.history).confirmed,
    pool.world.ledger.Commits hashOf txHash
  told : ∀ thread ∈ pool.threads, ∀ entry ∈ thread.log,
    entry.op.Reports (entry.before.ledger.committed.map hashOf)

section Runs

variable {config : SubmitConfig} {pool : Pool submits SubmitWorld SubmitTask Unit}
  {before after : SubmitWorld} {op : SubmitOp} {answer : SubmitAnswer op}

theorem Sequencer.committed {ledger later : Ledger} (sequenced : Sequencer hashOf ledger op answer later) :
    later.committed = ledger.committed := by
  cases op with
  | write op =>
      cases op with
      | tool op =>
          cases op with
          | sendInitialize => exact (Receives.received sequenced).committed
          | sendTransfer => exact (Receives.received sequenced).committed
          | getAccountsNonces => exact congrArg Ledger.committed sequenced.2
          | _ => exact congrArg Ledger.committed sequenced
      | submitClaim => exact (Receives.received sequenced).committed
      | _ => exact congrArg Ledger.committed sequenced
  | getTransaction => exact congrArg Ledger.committed sequenced.2
  | pollNonces => exact congrArg Ledger.committed sequenced.2
  | _ => exact congrArg Ledger.committed sequenced

theorem SubmitDrift.committed (drifted : SubmitDrift before after) :
    before.ledger.committed ⊆ after.ledger.committed := by
  cases drifted with
  | commits executed =>
      rw [executed.grows.2.1]
      exact List.subset_cons_self _ _
  | _ => exact List.Subset.refl _

/-- A nonce past the one that was submitted shows that the transaction is committed. -/
theorem commits_of_nonce (sound : before.Sound hashOf) {tx : Tx} {txHash : String} {submitted : U128}
    {nonces : List U128} (held : before.signed = some (some (tx, .ok txHash)))
    (lags : Lags before.ledger (.ok nonces)) (advanced : nonceAdvanced nonces.head? submitted)
    (current : submitted = before.submittedAt) (carried : tx.nonces = [submitted]) :
    before.ledger.Commits hashOf txHash := by
  have covers := sound.signed _ held
  subst current
  refine ⟨tx, ?_, (covers.named tx txHash rfl).1⟩
  rcases covers.sole tx txHash rfl carried with done | ⟨same, -⟩
  · exact done
  · -- the nodes show no nonce that the account has not reached
    obtain ⟨nonce, first, past⟩ := (Option.any_eq_true _ _).mp advanced
    have reached := lags nonces rfl nonce (List.mem_of_head? first)
    rw [same] at reached
    exact absurd (of_decide_eq_true past) (BitVec.not_lt.mpr reached)

/-- A seed that has been rotated shows that the claim is committed. -/
theorem commits_of_seed (sound : before.Sound hashOf) {claim : SolvedClaim} {txHash : String}
    {seed : Bytes32} (held : before.claim = some (some (.Claim claim, .ok txHash)))
    (rotated : seedRotated seed claim.seed) (current : claim.seed = before.claimedAt)
    (read : seed = before.ledger.seed) : before.ledger.Commits hashOf txHash := by
  have claims := sound.claim claim txHash held
  refine ⟨.Claim claim, ?_, claims.named⟩
  rcases claims.sole current with done | same
  · exact done
  · rw [read, same, ← current] at rotated
    exact absurd rfl (of_decide_eq_true rotated)

/-- What an operation shows to be committed is, if the thread knows the guards it holds. -/
theorem commits_of_shown (sound : before.Sound hashOf) {history : History submits}
    (performed : SubmitPerforms hashOf op before answer after) (spared : op.Spared before answer)
    (allowed : (handsOf history).Allows op)
    (signed : (handsOf history).signed ≠ none → (handsOf history).signed = before.signed)
    (claim : (handsOf history).claim ≠ none → (handsOf history).claim = before.claim) :
    ∀ txHash ∈ (handsOf history).shown ⟨op, answer⟩, before.ledger.Commits hashOf txHash := by
  intro txHash shown
  have sequenced := performed.ledger
  cases op with
  | getTransaction asked =>
      rcases answer with e | seen
      · cases shown
      cases seen with
      | false => cases shown
      | true =>
          obtain rfl := List.mem_singleton.mp shown
          exact sequenced.1 rfl
  | pollNonces account submitted =>
      rcases answer with e | nonces
      · cases shown
      obtain ⟨tx, hash, held⟩ := allowed
      change txHash ∈ if nonceAdvanced nonces.head? submitted then _ else _ at shown
      split_ifs at shown with advanced
      · rw [held] at shown
        obtain rfl := List.mem_singleton.mp shown
        have same := signed (by simp [held])
        rw [held] at same
        obtain ⟨current, carried⟩ := spared advanced
        exact commits_of_nonce sound same.symm sequenced.1 advanced current (carried tx _ same.symm)
      · cases shown
  | pollChallenge solved =>
      rcases answer with e | seed
      · cases shown
      obtain ⟨submission, hash, held, rfl⟩ := allowed
      change txHash ∈ if seedRotated seed submission.seed then _ else _ at shown
      split_ifs at shown with rotated
      · rw [held] at shown
        obtain rfl := List.mem_singleton.mp shown
        have same := claim (by simp [held])
        rw [held] at same
        obtain ⟨current, read⟩ := spared rotated
        exact commits_of_seed sound same.symm rotated current read
      · cases shown
  | _ => cases shown

theorem SubmitOp.Reports.grow {op : SubmitOp} {confirmed later : List String}
    (reports : op.Reports confirmed) (grown : confirmed ⊆ later) : op.Reports later := by
  cases op with
  | write op => exact WriteOp.Reports.grow reports grown
  | _ => trivial

theorem Ledger.Commits.grow {ledger later : Ledger} {txHash : String}
    (commits : ledger.Commits hashOf txHash) (grown : ledger.committed ⊆ later.committed) :
    later.Commits hashOf txHash :=
  commits.imp fun _ kept => ⟨grown kept.1, kept.2⟩

/-- Before the server is started for the first time. -/
def SubmitWorld.boot (nonce : U128) (seed : Bytes32) : SubmitWorld where
  now := 0
  tokens := fun _ => none
  ledger := ⟨nonce, seed, [], [], []⟩
  signed := none
  claim := none
  leftover := []
  submittedAt := 0
  claimedAt := Bytes.zero 32

theorem SubmitWorld.boot_sound (nonce : U128) (seed : Bytes32) :
    (SubmitWorld.boot nonce seed).Sound hashOf where
  pending := List.Subset.refl _
  committed := List.Subset.refl _
  apart := nofun
  spent := nofun
  distinct _ _ outstanding := nomatch outstanding.1
  signed := nofun
  claim := nofun

/-- One operation of a server that is spared. -/
theorem Serialized.perform {before after : List (Thread submits SubmitWorld SubmitTask Unit)}
    {thread : Thread submits SubmitWorld SubmitTask Unit} {world next : SubmitWorld} {op : SubmitOp}
    {rest : SubmitAnswer op → Program submits Unit} {answer : SubmitAnswer op} {child : Option SubmitTask}
    (serialized : Serialized hashOf ⟨world, before ++ thread :: after⟩)
    (running : thread.rest = .call op rest)
    (ruled : serverRule thread.task thread.history op)
    (signed : signedLock.Held ⟨world, before ++ thread :: after⟩)
    (claim : claimLock.Held ⟨world, before ++ thread :: after⟩)
    (performed : SubmitPerforms hashOf op world answer next) (spared : op.Spared world answer)
    (spawns : (submitSystem config).spawns op child) :
    Serialized hashOf ⟨next, before ++ thread.resumed ⟨op, answer, world, next⟩ (rest answer) :: after ++
      child.toList.map fun task => .spawned task (thread.entries ++ [⟨op, answer, world, next⟩])
        ((submitSystem config).body task)⟩ := by
  have here : thread ∈ before ++ thread :: after := by simp
  have unfinished := Thread.not_finished running
  have mine : (handsOf thread.history).signed ≠ none → (handsOf thread.history).signed = world.signed :=
    fun own => signed.agrees thread here ⟨unfinished, own⟩
  have mine' : (handsOf thread.history).claim ≠ none → (handsOf thread.history).claim = world.claim :=
    fun own => claim.agrees thread here ⟨unfinished, own⟩
  have grown : world.ledger.committed ⊆ next.ledger.committed := by
    rw [performed.ledger.committed]
    exact List.Subset.refl _
  have allows := serverRule_allows ruled
  constructor
  · refine serialized.sound.performs performed spared fun signs => ?_
    have allowed : (handsOf thread.history).Allows op := allows.resolve_left fun accept => by
      subst accept
      cases signs
    obtain ⟨last, held, settled⟩ := allowed.signs signs
    refine ⟨last, (mine (by simp [held])).symm.trans held, fun tx answer same => ?_⟩
    obtain ⟨txHash, same, confirmed⟩ := settled tx answer same
    exact ⟨txHash, same, serialized.seen thread here txHash confirmed⟩
  · have old : ∀ other ∈ before ++ after, ∀ txHash ∈ (handsOf other.history).confirmed,
        next.ledger.Commits hashOf txHash := by
      intro other member txHash confirmed
      refine (serialized.seen other ?_ txHash confirmed).grow grown
      rcases List.mem_append.mp member with early | late
      · exact List.mem_append_left _ early
      · exact List.mem_append_right _ (List.mem_cons_of_mem _ late)
    have extended : (thread.resumed ⟨op, answer, world, next⟩ (rest answer)).history =
        thread.history ++ [⟨op, answer⟩] := by
      simp [Thread.history, Entry.exchange]
    have resumed : ∀ txHash ∈ (handsOf (thread.history ++ [⟨op, answer⟩])).confirmed,
        next.ledger.Commits hashOf txHash := by
      intro txHash member
      rw [handsOf_append] at member
      rcases List.mem_append.mp member with shown | confirmed
      · rcases allows with rfl | allowed
        · cases shown
        · exact (commits_of_shown serialized.sound performed spared allowed mine mine' txHash shown).grow grown
      · exact (serialized.seen thread here txHash confirmed).grow grown
    intro other member txHash confirmed
    rcases List.mem_append.mp member with inside | born
    · rcases List.mem_append.mp inside with early | late
      · exact old other (List.mem_append_left _ early) txHash confirmed
      · rcases List.mem_cons.mp late with rfl | late
        · exact resumed txHash (extended ▸ confirmed)
        · exact old other (List.mem_append_right _ late) txHash confirmed
    · obtain ⟨task, there, rfl⟩ := List.mem_map.mp born
      obtain rfl := Option.mem_toList.mp there
      rw [Thread.history, Thread.entries_spawned, historyOf_append] at confirmed
      change txHash ∈ (handsOf (thread.history ++ [⟨op, answer⟩])).confirmed at confirmed
      exact resumed txHash confirmed
  · have now : op.Reports (world.ledger.committed.map hashOf) := by
      refine (serverRule_reports ruled).grow fun txHash confirmed => ?_
      exact List.mem_map.mpr (serialized.seen thread here txHash confirmed)
    intro other member entry inside
    rcases List.mem_append.mp member with running | born
    · rcases List.mem_append.mp running with early | late
      · exact serialized.told other (List.mem_append_left _ early) entry inside
      · rcases List.mem_cons.mp late with rfl | late
        · rcases List.mem_append.mp inside with old | last
          · exact serialized.told thread here entry old
          · obtain rfl := List.mem_singleton.mp last
            exact now
        · exact serialized.told other (List.mem_append_right _ (List.mem_cons_of_mem _ late)) entry inside
    · obtain ⟨task, there, rfl⟩ := List.mem_map.mp born
      cases inside

theorem reaches_serialized {nonce : U128} {seed : Bytes32}
    (reached : (sparedSystem config).Reaches (.boot nonce seed) pool) :
    Serialized config.hashOf pool := by
  induction reached with
  | refl => exact ⟨SubmitWorld.boot_sound nonce seed, by simp, by simp⟩
  | tail reached step ih =>
      have signed := Lock.held (signedLock_kept config) (sparedSystem_ruled config)
        (sparedSystem_monotone config) reached
      have claim := Lock.held (claimLock_kept config) (sparedSystem_ruled config)
        (sparedSystem_monotone config) reached
      have known := System.justified (sparedSystem_ruled config) (sparedSystem_monotone config) reached
      cases step with
      | drift drifted =>
          refine ⟨ih.sound.drifts drifted.1 drifted.2, fun thread member txHash confirmed => ?_, ih.told⟩
          exact (ih.seen thread member txHash confirmed).grow drifted.1.committed
      | @perform world next before after thread op rest answer child running performed waited spawns =>
          exact ih.perform running ((known thread (by simp)).allowed running) signed claim
            performed.1 performed.2 spawns
      | restart restarted main =>
          obtain rfl := restarted
          refine ⟨?_, fun thread member txHash confirmed => ?_, fun thread member entry inside => ?_⟩
          · exact ⟨ih.sound.pending, ih.sound.committed, ih.sound.apart, ih.sound.spent,
              ih.sound.distinct, nofun, nofun⟩
          · rcases List.mem_append.mp member with dead | fresh
            · obtain ⟨alive, there, rfl⟩ := List.mem_map.mp dead
              exact ih.seen alive there txHash confirmed
            · obtain rfl := List.mem_singleton.mp fresh
              cases confirmed
          · rcases List.mem_append.mp member with dead | fresh
            · obtain ⟨alive, there, rfl⟩ := List.mem_map.mp dead
              exact ih.told alive there entry inside
            · obtain rfl := List.mem_singleton.mp fresh
              cases inside

/-- As long as nothing left over is outstanding with the nonce that is used, fallbacks are not
misled and claims that wait are not disturbed, no two signed transactions with one nonce are
outstanding, and what is reported as committed is committed. -/
theorem writes_serialized {nonce : U128} {seed : Bytes32}
    (reached : (sparedSystem config).Reaches (.boot nonce seed) pool) :
    (∀ first second, pool.world.ledger.Outstanding first → pool.world.ledger.Outstanding second →
      first.nonces = second.nonces → first = second) ∧
    ∀ thread ∈ pool.threads, ∀ entry ∈ thread.log,
      entry.op.Reports (entry.before.ledger.committed.map config.hashOf) :=
  ⟨(reaches_serialized reached).sound.distinct, (reaches_serialized reached).told⟩

end Runs

section Tests

/-- A server that polls once. -/
def testWaiting : SubmitConfig where
  ctx := testCtx
  parses _ := true
  hashOf
    | .Transfer _ _ _ amount => if amount = 5 then "b5" else "b6"
    | _ => "a1"
  turns := 1

/-- The transfers: of five units, which is seen to be committed or given up, and of six after
either. -/
inductive TestCall where
  | settled
  | given
  | next
  | again

namespace TestCall

/-- The amount, as it is given. -/
def text : TestCall → String
  | .settled | .given => "5"
  | .next | .again => "6"

def units : TestCall → U128
  | .settled | .given => 5
  | .next | .again => 6

/-- The transaction of a transfer. -/
def tx : TestCall → Tx
  | .settled | .given => .Transfer (Bytes.fill 32 9) (Bytes.zero 32) [0] 5
  | .again => .Transfer (Bytes.fill 32 9) (Bytes.zero 32) [0] 6
  | .next => .Transfer (Bytes.fill 32 9) (Bytes.zero 32) [1] 6

end TestCall

/-- The server once it has issued a token for a transfer. -/
def testOffered (call : TestCall) (world : SubmitWorld) : SubmitWorld := { world with
  tokens := (prunePreviewTokensAt world.tokens world.now).insert (newPreviewToken testRandom)
    ⟨Bytes.fill 32 9, Bytes.zero 32, call.units, world.now + PREVIEW_TTL⟩ }

/-- The sender. -/
def testRich : Account := { testOwned with balance := 11 }

/-- A preview. -/
def testOfferLog (call : TestCall) (world : SubmitWorld) : List (Entry submits SubmitWorld) :=
  [.quiet world (.write (.tool (.getAccount (Bytes.fill 32 9)))) (.ok testRich),
    .quiet world (.write (.tool (.getAccount (Bytes.zero 32)))) (.ok testOwned),
    .quiet world (.write (.tool .getrandom)) testRandom,
    ⟨.write (.tool (.issue (newPreviewToken testRandom) (Bytes.fill 32 9) (Bytes.zero 32)
      call.units)), (world.now, world.now), world, testOffered call world⟩]

/-- An environment in which whatever is spared may happen. -/
structure Spares (environment : Environment submits SubmitWorld) : Prop where
  perform : ∀ {op before answer after}, SubmitPerforms testWaiting.hashOf op before answer after →
    op.Spared before answer → environment.perform op before answer after
  later : ∀ {before : SubmitWorld} {now}, before.now ≤ now → environment.drift before { before with now }
  commits : ∀ {before : SubmitWorld} {tx ledger}, before.claim = none →
    Executes before.ledger tx ledger → environment.drift before { before with ledger }

theorem test_offers {environment : Environment submits SubmitWorld} (spares : Spares environment)
    (call : TestCall) (world : SubmitWorld) : ∃ rest,
    Advances environment
      (SubmitTask.body testWaiting (.transfer ⟨"11111111111111111111111111111111", call.text, false, none⟩))
      world (testOfferLog call world) rest (testOffered call world) := by
  have quietly : ∀ {op answer}, SubmitPerforms testWaiting.hashOf op world answer world →
      op.Spared world answer → environment.perform op world answer world := spares.perform
  cases call <;>
  · refine Advances.more .refl (quietly ⟨rfl, rfl, trivial, trivial, rfl, rfl, rfl, rfl, rfl, rfl⟩ trivial) ?_
    refine Advances.more .refl (quietly ⟨rfl, rfl, trivial, trivial, rfl, rfl, rfl, rfl, rfl, rfl⟩ trivial) ?_
    refine Advances.more .refl (quietly ⟨rfl, rfl, trivial, trivial, rfl, rfl, rfl, rfl, rfl, rfl⟩ trivial) ?_
    exact Advances.more .refl
      (spares.perform ⟨rfl, rfl, trivial, trivial, rfl, rfl, rfl, rfl, rfl, rfl⟩ trivial) ⟨_, .none⟩

/-- The server once it has accepted the token. -/
def testTaken (call : TestCall) (world : SubmitWorld) : SubmitWorld := { testOffered call world with
  tokens := (prunePreviewTokensAt (testOffered call world).tokens (world.now + 1)).remove
    (newPreviewToken testRandom) }

/-- The guard is taken. -/
def testGuarded (call : TestCall) (world : SubmitWorld) : SubmitWorld := { testTaken call world with
  signed := some none
  leftover := world.ledger.pending }

/-- The transfer is submitted. -/
def testPending (call : TestCall) (world : SubmitWorld) : SubmitWorld := { testGuarded call world with
  ledger := { world.ledger with
    sent := call.tx :: world.ledger.sent
    pending := call.tx :: world.ledger.pending }
  signed := some (some (call.tx, .ok (testWaiting.hashOf call.tx)))
  submittedAt := world.ledger.nonce }

/-- The deadline has passed. -/
def testLate (call : TestCall) (world : SubmitWorld) : SubmitWorld := { testPending call world with
  now := world.now + COMMIT_TIMEOUT }

/-- The transfer of five units is committed. -/
def testCommitted : SubmitWorld :=
  { testPending .settled (.boot 0 (Bytes.zero 32)) with
    ledger := ⟨1, Bytes.zero 32, [TestCall.settled.tx], [], [TestCall.settled.tx]⟩ }

/-- The guard is dropped. -/
def testDropped (world : SubmitWorld) : SubmitWorld := { world with signed := none }

/-- The server before each of the transfers. -/
def testBefore : TestCall → SubmitWorld
  | .settled | .given => .boot 0 (Bytes.zero 32)
  | .next => testDropped testCommitted
  | .again => testDropped (testLate .given (.boot 0 (Bytes.zero 32)))

/-- The server when the wait of a transfer ends. -/
def testEnded : TestCall → SubmitWorld
  | .settled => testCommitted
  | call => testLate call (testBefore call)

/-- What is reported of a transfer. -/
def testReport (call : TestCall) (confirmed : Bool) (confirmation : String) : CallToolResult :=
  .broadcast
    { txHash := testWaiting.hashOf call.tx
      initTxHash := none
      fromId := Bytes.fill 32 9
      toId := Bytes.zero 32
      amount := call.units
      confirmed
      confirmation
      toBalanceAfter := 0 }

/-- The submission of a transfer. -/
def testSend (call : TestCall) : Entry submits SubmitWorld :=
  ⟨.write (.tool (.sendTransfer (Bytes.fill 32 9) (Bytes.zero 32) call.tx.nonces call.units)),
    .ok (testWaiting.hashOf call.tx), testGuarded call (testBefore call),
    testPending call (testBefore call)⟩

/-- A wait that sees the transfer committed, or ends at its deadline. -/
def testWait (call : TestCall) : List (Entry submits SubmitWorld) :=
  let pending := testPending call (testBefore call)
  let ended := testEnded call
  match call with
  | .settled =>
      [.quiet pending .now pending.now,
        .quiet ended (.getTransaction (testWaiting.hashOf call.tx)) (.ok true),
        .quiet ended (.write (.tool (.getAccountBalance (Bytes.zero 32)))) (.ok 0),
        ⟨.write .dropSignedWrite, (), ended, testDropped ended⟩,
        .quiet (testDropped ended)
          (.write (.tool (.respond (testReport call true "tx_committed")))) ()]
  | _ =>
      [.quiet pending .now pending.now,
        .quiet pending (.getTransaction (testWaiting.hashOf call.tx)) (.ok false),
        .quiet ended .now ended.now,
        .quiet ended (.write (.tool (.getAccountBalance (Bytes.zero 32)))) (.ok 0),
        ⟨.write .dropSignedWrite, (), ended, testDropped ended⟩,
        .quiet (testDropped ended)
          (.write (.tool (.respond (testReport call false "tx_uncommitted")))) ()]

/-- A broadcast. -/
def testCallLog (call : TestCall) : List (Entry submits SubmitWorld) :=
  let world := testBefore call
  [.quiet (testOffered call world) (.write (.tool (.getAccount (Bytes.fill 32 9)))) (.ok testRich),
    .quiet (testOffered call world) (.write (.tool (.getAccount (Bytes.zero 32)))) (.ok testOwned),
    ⟨.write (.tool (.consume (newPreviewToken testRandom) (Bytes.fill 32 9) (Bytes.zero 32)
      call.units)), (world.now + 1, .Ok), testOffered call world, testTaken call world⟩,
    .quiet (testTaken call world) (.write (.tool .ensureFreshWriteGate)) (.ok ()),
    ⟨.write (.tool .lockSignedWrite), (), testTaken call world, testGuarded call world⟩,
    .quiet (testGuarded call world) (.write (.tool .ensureFreshWriteGate)) (.ok ()),
    .quiet (testGuarded call world) (.write (.tool .ensureFreshWriteGate)) (.ok ()),
    .quiet (testGuarded call world) (.write (.tool (.getAccountBalance (Bytes.fill 32 9)))) (.ok 11),
    .quiet (testGuarded call world) (.write (.tool (.getAccountsNonces (Bytes.fill 32 9))))
      (.ok call.tx.nonces),
    .quiet (testGuarded call world) (.write (.tool (.getAccountsNonces (Bytes.fill 32 9))))
      (.ok call.tx.nonces),
    testSend call] ++ testWait call

theorem test_takes (call : TestCall) (world : SubmitWorld) :
    checkToken (prunePreviewTokensAt (testOffered call world).tokens (world.now + 1)
      (newPreviewToken testRandom)) (Bytes.fill 32 9) (Bytes.zero 32) call.units (world.now + 1) =
        .Ok := by
  apply checkToken_ok.mpr
  have fresh : world.now + 1 < world.now + PREVIEW_TTL := Nat.add_lt_add_left (by decide) _
  refine ⟨world.now + PREVIEW_TTL, ?_, fresh⟩
  simp [prunePreviewTokensAt, testOffered, TokenStore.insert, fresh]

theorem test_consumes (call : TestCall) (world : SubmitWorld) :
    Tokens (testOffered call world).tokens (.consume (newPreviewToken testRandom) (Bytes.fill 32 9)
      (Bytes.zero 32) call.units) (world.now + 1, .Ok) (testTaken call world).tokens :=
  Prod.ext (test_takes call world).symm rfl

theorem test_lags (call : TestCall) : Lags (testBefore call).ledger (.ok call.tx.nonces) := by
  intro nonces same nonce member
  obtain rfl := Except.ok.inj same
  cases call <;>
  · obtain rfl := List.mem_singleton.mp member
    decide

theorem test_commits : Executes (testPending .settled (testBefore .settled)).ledger
    TestCall.settled.tx testCommitted.ledger :=
  .signed List.mem_cons_self rfl (by decide)

theorem test_waits {environment : Environment submits SubmitWorld} (spares : Spares environment)
    (call : TestCall)
    (sends : environment.perform (testSend call).op (testSend call).before (testSend call).answer
      (testSend call).after) : ∃ rest,
    Advances environment
      (SubmitTask.body testWaiting (.transfer ⟨"11111111111111111111111111111111", call.text, true,
        some (newPreviewToken testRandom)⟩))
      (testOffered call (testBefore call)) (testCallLog call) rest (testDropped (testEnded call)) := by
  have quietly : ∀ {world op answer}, SubmitPerforms testWaiting.hashOf op world answer world →
      op.Spared world answer → environment.perform op world answer world := spares.perform
  have consumed := test_consumes call (testBefore call)
  have lags := test_lags call
  cases call
  all_goals
    refine Advances.more .refl (quietly ⟨rfl, rfl, trivial, trivial, rfl, rfl, rfl, rfl, rfl, rfl⟩ trivial) ?_
    refine Advances.more .refl (quietly ⟨rfl, rfl, trivial, trivial, rfl, rfl, rfl, rfl, rfl, rfl⟩ trivial) ?_
    refine Advances.more .refl (spares.perform
      ⟨rfl, consumed, trivial, trivial, rfl, rfl, rfl, rfl, rfl, rfl⟩ trivial) ?_
    refine Advances.more .refl (quietly ⟨rfl, rfl, trivial, trivial, rfl, rfl, rfl, rfl, rfl, rfl⟩ trivial) ?_
    refine Advances.more .refl
      (spares.perform ⟨rfl, rfl, rfl, trivial, rfl, rfl, rfl, rfl, rfl, rfl⟩ trivial) ?_
    iterate 3
      refine Advances.more .refl (quietly ⟨rfl, rfl, trivial, trivial, rfl, rfl, rfl, rfl, rfl, rfl⟩ trivial) ?_
    iterate 2
      refine Advances.more .refl
        (quietly ⟨⟨lags, rfl⟩, rfl, trivial, trivial, rfl, rfl, rfl, rfl, rfl, rfl⟩ trivial) ?_
    refine Advances.more .refl sends ?_
    refine Advances.more .refl (quietly ⟨rfl, rfl, trivial, rfl, rfl, rfl, rfl, rfl, rfl, rfl⟩ trivial) ?_
  case settled =>
    have shown : ∃ tx ∈ testCommitted.ledger.committed,
        testWaiting.hashOf tx = testWaiting.hashOf TestCall.settled.tx :=
      ⟨_, List.mem_cons_self, rfl⟩
    refine Advances.more (.single (spares.commits rfl test_commits))
      (quietly ⟨⟨fun _ => shown, rfl⟩, rfl, trivial, trivial, rfl, rfl, rfl, rfl, rfl, rfl⟩ trivial) ?_
    refine Advances.more .refl (quietly ⟨rfl, rfl, trivial, trivial, rfl, rfl, rfl, rfl, rfl, rfl⟩ trivial) ?_
    refine Advances.more .refl
      (spares.perform ⟨rfl, rfl, trivial, trivial, rfl, rfl, rfl, rfl, rfl, rfl⟩ trivial) ?_
    exact Advances.more .refl
      (quietly ⟨rfl, rfl, trivial, trivial, rfl, rfl, rfl, rfl, rfl, rfl⟩ trivial) ⟨_, .none⟩
  all_goals
    refine Advances.more .refl
      (quietly ⟨⟨nofun, rfl⟩, rfl, trivial, trivial, rfl, rfl, rfl, rfl, rfl, rfl⟩ trivial) ?_
    refine Advances.more (.single (spares.later (Nat.le_add_right _ _)))
      (quietly ⟨rfl, rfl, trivial, rfl, rfl, rfl, rfl, rfl, rfl, rfl⟩ trivial) ?_
    refine Advances.more .refl (quietly ⟨rfl, rfl, trivial, trivial, rfl, rfl, rfl, rfl, rfl, rfl⟩ trivial) ?_
    refine Advances.more .refl
      (spares.perform ⟨rfl, rfl, trivial, trivial, rfl, rfl, rfl, rfl, rfl, rfl⟩ trivial) ?_
    exact Advances.more .refl
      (quietly ⟨rfl, rfl, trivial, trivial, rfl, rfl, rfl, rfl, rfl, rfl⟩ trivial) ⟨_, .none⟩

/-- The server, in some environment. -/
abbrev testSystem (environment : Environment submits SubmitWorld) :
    System submits SubmitWorld SubmitTask Unit := { submitSystem testWaiting with environment }

/-- The server takes a call, which goes on as it may. -/
theorem test_goes {environment : Environment submits SubmitWorld} (spares : Spares environment)
    {start world final : SubmitWorld} {after : List (Thread submits SubmitWorld SubmitTask Unit)}
    {thread : Thread submits SubmitWorld SubmitTask Unit} {calls : Nat} {params : TransferParams}
    {log : List (Entry submits SubmitWorld)}
    (reached : (testSystem environment).Reaches start ⟨world, thread :: after⟩)
    (serving : thread.rest = takeCalls (calls + 1))
    (advances : ∃ rest, Advances environment (SubmitTask.body testWaiting (.transfer params)) world log
      rest final)
    (taken : ∀ entry ∈ log, entry.op ≠ .write (.tool .accept)) :
    ∃ server call, (testSystem environment).Reaches start ⟨final, server :: (after ++ [call])⟩ ∧
      server.rest = takeCalls calls ∧ call.log = log := by
  obtain ⟨rest, advances⟩ := advances
  have childless : ∀ entry ∈ log, (testSystem environment).spawns entry.op none := by
    intro entry member
    have other := taken entry member
    unfold testSystem submitSystem
    dsimp only
    split
    · exact (other ‹_›).elim
    · rfl
  have accepted : environment.perform (.write (.tool .accept)) world () world :=
    spares.perform ⟨rfl, rfl, trivial, trivial, rfl, rfl, rfl, rfl, rfl, rfl⟩ trivial
  have spawns : (testSystem environment).spawns (.write (.tool .accept)) (some (.transfer params)) :=
    ⟨.transfer params, rfl, nofun⟩
  have spawned : (testSystem environment).Step ⟨world, [] ++ thread :: after⟩ _ :=
    .perform serving accepted False.elim spawns
  have going := (show (testSystem environment).Reaches _ _ from reached.tail spawned).advance advances
    childless (fun _ _ impossible => impossible.elim)
  exact ⟨_, _, going, rfl, rfl⟩

/-- Two transfers are previewed and broadcast. -/
theorem test_transfers {environment : Environment submits SubmitWorld} (spares : Spares environment)
    {first second : TestCall} (boot : testBefore first = .boot 0 (Bytes.zero 32))
    (onward : testBefore second = testDropped (testEnded first))
    (sends : ∀ call, call = first ∨ call = second → environment.perform (testSend call).op
      (testSend call).before (testSend call).answer (testSend call).after) :
    ∃ pool, (testSystem environment).Reaches (.boot 0 (Bytes.zero 32)) pool ∧
      pool.world = testDropped (testEnded second) ∧
        ∀ call, call = first ∨ call = second → ∃ thread ∈ pool.threads, thread.log = testCallLog call := by
  have taken : ∀ call, (∀ entry ∈ testOfferLog call (testBefore call), entry.op ≠ .write (.tool .accept)) ∧
      ∀ entry ∈ testCallLog call, entry.op ≠ .write (.tool .accept) := by
    intro call
    constructor
    · simp [testOfferLog, Entry.quiet]
    · cases call <;> simp [testCallLog, testWait, testSend, Entry.quiet]
  have opened : (testSystem environment).Reaches (.boot 0 (Bytes.zero 32))
      ⟨.boot 0 (Bytes.zero 32), [.spawned (.serve 4) [] (takeCalls 4)]⟩ := .single (.restart rfl ⟨4, rfl⟩)
  rw [← boot] at opened ⊢
  obtain ⟨server, _, reached, serving, -⟩ :=
    test_goes spares opened rfl (test_offers spares first _) (taken first).1
  obtain ⟨server, one, reached, serving, same⟩ :=
    test_goes spares reached serving (test_waits spares first (sends first (.inl rfl))) (taken first).2
  rw [← onward] at reached
  obtain ⟨server, _, reached, serving, -⟩ :=
    test_goes spares reached serving (test_offers spares second _) (taken second).1
  obtain ⟨server, other, reached, serving, also⟩ :=
    test_goes spares reached serving (test_waits spares second (sends second (.inr rfl))) (taken second).2
  refine ⟨_, reached, rfl, ?_⟩
  rintro call (rfl | rfl)
  · exact ⟨one, by simp, same⟩
  · exact ⟨other, by simp, also⟩

theorem test_sends (call : TestCall) : SubmitPerforms testWaiting.hashOf (testSend call).op
    (testSend call).before (testSend call).answer (testSend call).after := by
  have apart : ∀ other ∈ (testBefore call).ledger.sent,
      testWaiting.hashOf other = testWaiting.hashOf call.tx → other = call.tx := by
    cases call with
    | settled | given => exact nofun
    | next | again =>
        rintro other member same
        obtain rfl := List.mem_singleton.mp member
        exact absurd same (by decide)
  cases call <;>
    exact ⟨⟨fun _ same => (Except.ok.inj same).symm, apart, .inl rfl⟩, rfl, trivial, trivial, rfl,
      rfl, rfl, rfl, rfl, rfl⟩

end Tests

/-- A wait that ends at its deadline lets the next transfer use the nonce again. -/
theorem nonce_reused : ¬ ∀ (config : SubmitConfig) (nonce : U128) (seed : Bytes32)
    (pool : Pool submits SubmitWorld SubmitTask Unit),
    (submitSystem config).Reaches (.boot nonce seed) pool →
      (∀ first second, pool.world.ledger.Outstanding first → pool.world.ledger.Outstanding second →
        first.nonces = second.nonces → first = second) ∧
      ∀ thread ∈ pool.threads, ∀ entry ∈ thread.log,
        entry.op.Reports (entry.before.ledger.committed.map config.hashOf) := by
  intro serialized
  have spares : Spares (submitSystem testWaiting).environment :=
    ⟨fun performed _ => performed, fun later => .later later, fun _ executed => .commits executed⟩
  obtain ⟨pool, reached, world, -⟩ := @test_transfers _ spares .given .again rfl rfl
    fun call _ => test_sends call
  have distinct := (serialized testWaiting 0 (Bytes.zero 32) pool reached).1 TestCall.given.tx
    TestCall.again.tx
  rw [world] at distinct
  have given : (testDropped (testEnded .again)).ledger.Outstanding TestCall.given.tx :=
    ⟨List.mem_cons_of_mem _ List.mem_cons_self, 0, rfl, Nat.zero_le _⟩
  have again : (testDropped (testEnded .again)).ledger.Outstanding TestCall.again.tx :=
    ⟨List.mem_cons_self, 0, rfl, Nat.zero_le _⟩
  exact absurd (distinct given again rfl) (by decide)

/-- A transfer that is committed and reported, and one whose wait ends at its deadline. -/
theorem writes_serialized_test : ∃ pool,
    (sparedSystem testWaiting).Reaches (.boot 0 (Bytes.zero 32)) pool ∧
      pool.world.ledger.committed = [TestCall.settled.tx] ∧
      pool.world.ledger.Outstanding TestCall.next.tx ∧
      (∀ other, pool.world.ledger.Outstanding other → other.nonces = [1] → other = TestCall.next.tx) ∧
      ∀ call, call = .settled ∨ call = .next →
        ∃ thread ∈ pool.threads, thread.log = testCallLog call ∧ ∀ entry ∈ testCallLog call,
          entry.op.Reports (entry.before.ledger.committed.map testWaiting.hashOf) := by
  have spares : Spares (sparedSystem testWaiting).environment :=
    ⟨fun performed spared => ⟨performed, spared⟩, fun later => ⟨.later later, fun _ _ _ => .inl rfl⟩,
      fun idle executed => ⟨.commits executed, fun _ _ claimed => by
        rw [idle] at claimed
        cases claimed⟩⟩
  obtain ⟨pool, reached, world, logs⟩ := @test_transfers _ spares .settled .next rfl rfl <| by
    rintro call (rfl | rfl)
    · exact ⟨test_sends .settled, nofun⟩
    · exact ⟨test_sends .next, nofun⟩
  have outstanding : pool.world.ledger.Outstanding TestCall.next.tx := by
    rw [world]
    exact ⟨List.mem_cons_self, 1, rfl, Nat.le_refl _⟩
  obtain ⟨distinct, told⟩ := writes_serialized reached
  refine ⟨pool, reached, by rw [world]; rfl, outstanding, fun other there nonces => ?_,
    fun call among => ?_⟩
  · exact distinct other _ there outstanding nonces
  · obtain ⟨thread, member, same⟩ := logs call among
    exact ⟨thread, member, same, fun entry inside => told thread member entry (same ▸ inside)⟩

end AtomicSwaps.Mcp
