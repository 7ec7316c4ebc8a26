import AtomicSwaps.Mcp.Submissions

/-!
# What submissions rest on

The write tools keep to their rule when they wait for themselves: what is signed is signed
under the guard, and after what was submitted under it before has been seen to be
committed; a fallback compares for what was submitted last.
-/

namespace AtomicSwaps.Mcp

open Semantics
open Lez (AccountId Account)

/-- What a thread holds: what the guards it has cover, and all it has seen to be committed. -/
structure Hands where
  signed : Option LastSubmission
  claim : Option LastSubmission
  confirmed : List String

/-- The hash of what was submitted last. -/
def acknowledged : Option LastSubmission → List String
  | some (some (_, .ok txHash)) => [txHash]
  | _ => []

/-- The hashes that an exchange shows to be committed. -/
def Hands.shown (hands : Hands) : Exchange submits → List String
  | ⟨.getTransaction txHash, .ok true⟩ => [txHash]
  | ⟨.pollNonces _ submitted, .ok nonces⟩ =>
      if nonceAdvanced nonces.head? submitted then acknowledged hands.signed else []
  | ⟨.pollChallenge solved, .ok seed⟩ =>
      if seedRotated seed solved then acknowledged hands.claim else []
  | _ => []

/-- What a thread holds after an exchange. -/
def Hands.after (hands : Hands) (exchange : Exchange submits) : Hands where
  signed := signedAfter hands.signed exchange
  claim := claimAfter hands.claim exchange
  confirmed := hands.shown exchange ++ hands.confirmed

/-- What a thread holds after a history. -/
def handsOf (history : History submits) : Hands := history.foldl Hands.after ⟨none, none, []⟩

theorem handsOf_append (history : History submits) (exchange : Exchange submits) :
    handsOf (history ++ [exchange]) = (handsOf history).after exchange := by
  simp [handsOf]

/-- Nothing was submitted last, or it has been seen to be committed. -/
def Settled (last : LastSubmission) (confirmed : List String) : Prop :=
  ∀ tx answer, last = some (tx, answer) → ∃ txHash, answer = .ok txHash ∧ txHash ∈ confirmed

/-- What an operation needs the thread to hold. -/
def Hands.Allows (hands : Hands) : SubmitOp → Prop
  | .write (.tool .accept) => False
  | .write (.tool (.sendInitialize ..)) | .write (.tool (.sendTransfer ..)) =>
      ∃ last, hands.signed = some last ∧ Settled last hands.confirmed
  | .write .dropSignedWrite => hands.signed ≠ none
  | .write .dropClaim | .write (.submitClaim _) => hands.claim ≠ none
  | .pollNonces .. => ∃ tx txHash, hands.signed = some (some (tx, .ok txHash))
  | .pollChallenge solved => ∃ claim txHash,
      hands.claim = some (some (.Claim claim, .ok txHash)) ∧ claim.seed = solved
  | _ => True

/-- What an answer reports as committed. -/
def SubmitOp.Reports (confirmed : List String) : SubmitOp → Prop
  | .write op => op.Reports confirmed
  | _ => True

/-- What an operation of a write tool rests on. -/
def submitRule (history : History submits) (op : SubmitOp) : Prop :=
  op.Reports (handsOf history).confirmed ∧ (handsOf history).Allows op

/-! ## The waits -/

/-- Waiting leaves the guards alone. -/
structure Hands.Keeps (hands later : Hands) : Prop where
  signed : later.signed = hands.signed
  claim : later.claim = hands.claim
  confirmed : hands.confirmed ⊆ later.confirmed

theorem Hands.Keeps.refl (hands : Hands) : hands.Keeps hands := ⟨rfl, rfl, List.Subset.refl _⟩

/-- The operations of a wait. -/
def SubmitOp.Polls : SubmitOp → Prop
  | .write _ => False
  | _ => True

section Waits

variable {hands : Hands} {below : History submits} {config : SubmitConfig}

theorem Hands.Keeps.polls (op : SubmitOp) {answer : SubmitAnswer op}
    (kept : hands.Keeps (handsOf below)) (polls : op.Polls) :
    hands.Keeps (handsOf (below ++ [⟨op, answer⟩])) := by
  rw [handsOf_append]
  refine ⟨?_, ?_, fun txHash member => List.mem_append_right _ (kept.confirmed member)⟩
  · rw [← kept.signed]
    cases op <;> first | rfl | exact polls.elim
  · rw [← kept.claim]
    cases op <;> first | rfl | exact polls.elim

/-- A wait for a transaction: if it is said to be committed, it has been seen to be. -/
def WaitsFor (hands : Hands) (txHash : String) (later : History submits) (confirmed : Prop) : Prop :=
  hands.Keeps (handsOf later) ∧ (confirmed → txHash ∈ (handsOf later).confirmed)

/-- Give up at the deadline, or go on waiting. -/
theorem deadline_follows {α : Type} {deadline : Instant} {value : α} {again : Program submits α}
    {post : History submits → α → Prop} (kept : hands.Keeps (handsOf below))
    (late : ∀ later, hands.Keeps (handsOf later) → post later value)
    (next : ∀ later, hands.Keeps (handsOf later) → Follows submitRule post again later) :
    Follows submitRule post
      (do if deadline ≤ (← submit .now) then return value else again : Program submits α) below := by
  refine ⟨⟨trivial, trivial⟩, fun now => ?_⟩
  have kept : hands.Keeps (handsOf (below ++ [⟨.now, now⟩])) := kept.polls .now trivial
  change Follows _ _ (if deadline ≤ now then pure value else again) _
  by_cases passed : deadline ≤ now
  · rw [if_pos passed]
    exact late _ kept
  · rw [if_neg passed]
    exact next _ kept

theorem pollTransaction_follows {txHash : String} {deadline : Instant} {turns rpcErrors : Nat}
    (kept : hands.Keeps (handsOf below)) :
    Follows submitRule (fun later concluded =>
        WaitsFor hands txHash later (∃ strength, concluded = some (true, strength)))
      (pollTransaction txHash deadline turns rpcErrors) below := by
  induction turns generalizing below rpcErrors with
  | zero => trivial
  | succ turns ih =>
      refine ⟨⟨trivial, trivial⟩, fun answer => ?_⟩
      have kept : hands.Keeps (handsOf (below ++ [⟨.getTransaction txHash, answer⟩])) :=
        kept.polls (.getTransaction txHash) trivial
      rcases answer with e | seen
      · change Follows _ _ (if GET_TX_MAX_RPC_ERRORS ≤ rpcErrors + 1 then pure none else _) _
        by_cases enough : GET_TX_MAX_RPC_ERRORS ≤ rpcErrors + 1
        · rw [if_pos enough]
          exact ⟨kept, nofun⟩
        · rw [if_neg enough]
          exact deadline_follows kept (fun later kept => ⟨kept, nofun⟩) fun later kept => ih kept
      · cases seen with
        | true => exact ⟨kept, fun _ => by rw [handsOf_append]; exact List.mem_cons_self⟩
        | false =>
            exact deadline_follows kept (fun later kept => ⟨kept, nofun⟩) fun later kept => ih kept

theorem pollForConfirmation_follows {txHash : String} {deadline : Instant} {strength onTimeout : String}
    {probe : Program submits (Except Unit Bool)} {turns : Nat}
    (probes : ∀ below, hands.Keeps (handsOf below) →
      Follows submitRule (fun later seen => WaitsFor hands txHash later (seen = .ok true)) probe below)
    (kept : hands.Keeps (handsOf below)) :
    Follows submitRule (fun later outcome =>
        WaitsFor hands txHash later (∃ strength, outcome = .ok (true, strength)))
      (pollForConfirmation deadline strength probe onTimeout turns) below := by
  induction turns generalizing below with
  | zero => trivial
  | succ turns ih =>
      refine Follows.bind_iff.mpr ((probes below kept).weaken fun later seen waits => ?_)
      obtain ⟨kept, shown⟩ := waits
      rcases seen with _ | seen
      · exact deadline_follows kept (fun later kept => ⟨kept, nofun⟩) fun later kept => ih kept
      · cases seen with
        | true => exact ⟨kept, fun _ => shown rfl⟩
        | false =>
            exact deadline_follows kept (fun later kept => ⟨kept, nofun⟩) fun later kept => ih kept

/-- A fallback compares for what was submitted last under the guard it rests on. -/
def ConfirmFallback.For (hands : Hands) (txHash : String) : ConfirmFallback → Prop
  | .SignerNonce .. => ∃ tx, hands.signed = some (some (tx, .ok txHash))
  | .PinataSeed solved => ∃ claim : SolvedClaim,
      hands.claim = some (some (.Claim claim, .ok txHash)) ∧ claim.seed = solved

theorem confirmVia_follows {txHash : String} {fallback : ConfirmFallback}
    (waiting : fallback.For hands txHash) (kept : hands.Keeps (handsOf below)) :
    Follows submitRule (fun later outcome =>
        WaitsFor hands txHash later (∃ strength, outcome = .ok (true, strength)))
      (confirmVia config fallback) below := by
  cases fallback with
  | SignerNonce account submitted =>
      obtain ⟨tx, last⟩ := waiting
      refine ⟨⟨trivial, trivial⟩, fun now => pollForConfirmation_follows ?_ (kept.polls .now trivial)⟩
      refine fun below kept => ⟨⟨trivial, tx, txHash, kept.signed.trans last⟩, fun answer => ?_⟩
      have later : hands.Keeps (handsOf (below ++ [⟨.pollNonces account submitted, answer⟩])) :=
        kept.polls (.pollNonces account submitted) trivial
      cases answer with
      | error e => exact ⟨later, nofun⟩
      | ok nonces =>
          refine ⟨later, fun advanced => ?_⟩
          rw [handsOf_append]
          refine List.mem_append_left _ ?_
          rw [Hands.shown, if_pos (Except.ok.inj advanced), kept.signed, last]
          exact List.mem_singleton_self txHash
  | PinataSeed solved =>
      obtain ⟨claim, last, same⟩ := waiting
      refine ⟨⟨trivial, trivial⟩, fun now => pollForConfirmation_follows ?_ (kept.polls .now trivial)⟩
      refine fun below kept => ⟨⟨trivial, claim, txHash, kept.claim.trans last, same⟩, fun answer => ?_⟩
      have later : hands.Keeps (handsOf (below ++ [⟨.pollChallenge solved, answer⟩])) :=
        kept.polls (.pollChallenge solved) trivial
      cases answer with
      | error e => exact ⟨later, nofun⟩
      | ok seed =>
          refine ⟨later, fun rotated => ?_⟩
          rw [handsOf_append]
          refine List.mem_append_left _ ?_
          rw [Hands.shown, if_pos (Except.ok.inj rotated), kept.claim, last]
          exact List.mem_singleton_self txHash

theorem confirmSubmittedTx_follows {txHash : String} {fallback : ConfirmFallback}
    (waiting : fallback.For hands txHash) (kept : hands.Keeps (handsOf below)) :
    Follows submitRule (fun later outcome =>
        WaitsFor hands txHash later (∃ strength, outcome = .ok (true, strength)))
      (confirmSubmittedTx config txHash fallback) below := by
  unfold confirmSubmittedTx
  split_ifs
  · refine ⟨⟨trivial, trivial⟩, fun now => ?_⟩
    change Follows _ _ (pollTransaction txHash (now + COMMIT_TIMEOUT) config.turns 0 >>= _) _
    refine Follows.bind_iff.mpr ((pollTransaction_follows (kept.polls .now trivial)).weaken ?_)
    intro later concluded waits
    cases concluded with
    | none => exact confirmVia_follows waiting waits.1
    | some concluded =>
        refine ⟨waits.1, fun ⟨strength, same⟩ => waits.2 ⟨strength, ?_⟩⟩
        rw [Except.ok.inj same]
  · exact confirmVia_follows waiting kept

end Waits

/-! ## The calls -/

/-- What the rule of the write tools knows of what a call that waits for itself holds. -/
structure Holds (signing : Signing) (held : Bool) (hands : Hands) : Prop where
  held : hands.signed.isSome = held
  locked : signing.locked → ∃ last, hands.signed = some last ∧ last.map Prod.snd = signing.last ∧
    (signing.settled → Settled last hands.confirmed)
  claiming : signing.claiming → hands.claim =
    some (signing.claimed.map fun submission => (.Claim submission.1, submission.2))
  confirmed : signing.confirmed ⊆ hands.confirmed

theorem Initialized.grow {confirmed later : List String} {initTxHash : Option String}
    (initialized : Initialized confirmed initTxHash) (grown : confirmed ⊆ later) :
    Initialized later initTxHash :=
  fun txHash same => (initialized txHash same).imp_right (grown ·)

theorem WriteOp.Reports.grow {op : WriteOp} {confirmed later : List String}
    (reports : op.Reports confirmed) (grown : confirmed ⊆ later) : op.Reports later := by
  cases op with
  | tool op =>
      cases op with
      | respond result =>
          cases result with
          | broadcast => exact ⟨reports.1.grow grown, fun confirms => grown (reports.2 confirms)⟩
          | _ => trivial
      | _ => trivial
  | answer result =>
      cases result with
      | claimed =>
          exact ⟨reports.1.grow grown, fun claim member confirms => grown (reports.2 claim member confirms)⟩
      | _ => trivial
  | _ => trivial

theorem Settled.grow {last : LastSubmission} {confirmed later : List String}
    (settled : Settled last confirmed) (grown : confirmed ⊆ later) : Settled last later :=
  fun tx answer same => (settled tx answer same).imp fun _ kept => ⟨kept.1, grown kept.2⟩

namespace Holds

variable {signing : Signing} {held : Bool} {hands later : Hands}

theorem locks (holds : Holds signing held hands) (answer : Unit) :
    Holds (signing.after ⟨.tool .lockSignedWrite, answer⟩) true
      (hands.after ⟨.write (.tool .lockSignedWrite), answer⟩) where
  held := rfl
  locked _ := ⟨none, rfl, rfl, fun _ => nofun⟩
  claiming := holds.claiming
  confirmed := holds.confirmed

theorem drops (holds : Holds signing held hands) (answer : Unit) :
    Holds (signing.after ⟨.dropSignedWrite, answer⟩) false
      (hands.after ⟨.write .dropSignedWrite, answer⟩) where
  held := rfl
  locked impossible := nomatch impossible
  claiming := holds.claiming
  confirmed := holds.confirmed

/-- Nothing is dropped where no guard is held. -/
theorem undropped (holds : Holds signing false hands) (answer : Unit) :
    Holds (signing.after ⟨.dropSignedWrite, answer⟩) false hands where
  held := holds.held
  locked impossible := nomatch impossible
  claiming := holds.claiming
  confirmed := holds.confirmed

/-- What is signed and submitted is what was submitted last. -/
theorem sends {tx : Tx} {outcome : Except String String} (holds : Holds signing held hands) :
    Holds { signing with last := some outcome, settled := false } held
      { hands with signed := hands.signed.map fun _ => some (tx, outcome) } where
  held := by simpa using holds.held
  locked locked := by
    obtain ⟨last, same, -⟩ := holds.locked locked
    exact ⟨some (tx, outcome), by rw [same, Option.map_some], rfl, fun impossible => nomatch impossible⟩
  claiming := holds.claiming
  confirmed := holds.confirmed

theorem locksClaim (holds : Holds signing held hands) (answer : Unit) :
    Holds (signing.after ⟨.lockClaim, answer⟩) held (hands.after ⟨.write .lockClaim, answer⟩) where
  held := holds.held
  locked := holds.locked
  claiming _ := rfl
  confirmed := holds.confirmed

theorem dropsClaim (holds : Holds signing held hands) (answer : Unit) :
    Holds (signing.after ⟨.dropClaim, answer⟩) held (hands.after ⟨.write .dropClaim, answer⟩) where
  held := holds.held
  locked := holds.locked
  claiming impossible := nomatch impossible
  confirmed := holds.confirmed

theorem claims {solved : SolvedClaim} (holds : Holds signing held hands)
    (answer : Except String String) :
    Holds (signing.after ⟨.submitClaim solved, answer⟩) held
      (hands.after ⟨.write (.submitClaim solved), answer⟩) where
  held := holds.held
  locked := holds.locked
  claiming claiming := by
    change hands.claim.map _ = _
    rw [holds.claiming claiming]
    rfl
  confirmed := holds.confirmed

theorem keeps (holds : Holds signing held hands) (kept : hands.Keeps later) :
    Holds signing held later where
  held := by
    rw [kept.signed]
    exact holds.held
  locked locked := by
    obtain ⟨last, same, answered, settled⟩ := holds.locked locked
    exact ⟨last, kept.signed.trans same, answered, fun known => (settled known).grow kept.confirmed⟩
  claiming claiming := kept.claim.trans (holds.claiming claiming)
  confirmed := List.Subset.trans holds.confirmed kept.confirmed

/-- The last signed transaction has been seen to be committed. -/
theorem settles {txHash : String} (holds : Holds signing held hands)
    (last : signing.last = some (.ok txHash)) (seen : txHash ∈ hands.confirmed) :
    Holds { signing with settled := true, confirmed := txHash :: signing.confirmed } held hands where
  held := holds.held
  locked locked := by
    obtain ⟨submission, same, answered, -⟩ := holds.locked locked
    refine ⟨submission, same, answered, fun _ tx answer submitted => ⟨txHash, ?_, seen⟩⟩
    rw [submitted, last] at answered
    exact Option.some.inj answered
  claiming := holds.claiming
  confirmed := List.cons_subset.mpr ⟨seen, holds.confirmed⟩

/-- A claim has been seen to be committed. -/
theorem claimed {txHash : String} (holds : Holds signing held hands) (seen : txHash ∈ hands.confirmed) :
    Holds { signing with confirmed := txHash :: signing.confirmed } held hands where
  held := holds.held
  locked := holds.locked
  claiming := holds.claiming
  confirmed := List.cons_subset.mpr ⟨seen, holds.confirmed⟩

end Holds

/-- The operations that touch neither guard, answers among them. -/
def WriteOp.Idle (op : WriteOp) : Prop :=
  op.Still ∨ (∃ result, op = .tool (.respond result)) ∨ ∃ result, op = .answer result

section Calls

variable {config : SubmitConfig} {history : History writes} {held : Bool} {below : History submits}

/-- What holds of a call after an operation and its answer. -/
abbrev Onward (history : History writes) (op : WriteOp) (later : History submits)
    (result : WriteAnswer op × Bool) : Prop :=
  Holds (signingOf (history ++ [⟨op, result.1⟩])) result.2 (handsOf later)

/-- An operation that is carried out as it is. -/
theorem plain_follows {op : WriteOp} {after : Bool} (allowed : submitRule below (.write op))
    (onward : ∀ answer, Holds ((signingOf history).after ⟨op, answer⟩) after
      ((handsOf below).after ⟨.write op, answer⟩)) :
    Follows submitRule (Onward history op)
      (do return (← submit (.write op), after) : Program submits (WriteAnswer op × Bool)) below := by
  refine ⟨allowed, fun answer => ?_⟩
  change Holds _ _ _
  rw [signingOf_append, handsOf_append]
  exact onward answer

theorem idle_follows {op : WriteOp} (holds : Holds (signingOf history) held (handsOf below))
    (idle : op.Idle) (allowed : signRule history op) :
    Follows submitRule (Onward history op)
      (do return (← submit (.write op), held) : Program submits (WriteAnswer op × Bool)) below := by
  refine plain_follows ⟨allowed.1.grow holds.confirmed, ?_⟩ fun answer => ?_
  · rcases idle with still | ⟨result, rfl⟩ | ⟨result, rfl⟩
    · cases op with
      | tool op => cases op <;> trivial
      | solveClaim => trivial
      | _ => exact still.elim
    · trivial
    · trivial
  · rcases idle with still | ⟨result, rfl⟩ | ⟨result, rfl⟩
    · rw [Signing.after_still _ still]
      cases op with
      | tool op => cases op <;> first | exact holds | exact still.elim
      | solveClaim => exact holds
      | _ => exact still.elim
    · exact holds
    · exact holds

/-- Every operation of a write tool is carried out in keeping with the rule. -/
theorem carrySubmit_follows {op : WriteOp} (holds : Holds (signingOf history) held (handsOf below))
    (allowed : signRule history op) :
    Follows submitRule (Onward history op) (carrySubmit config held op) below := by
  cases op with
  | tool op =>
      cases op with
      | accept => exact allowed.2.elim
      | lockSignedWrite => exact plain_follows ⟨trivial, trivial⟩ holds.locks
      | sendInitialize accountId nonces =>
          obtain ⟨last, same, -, settled⟩ := holds.locked allowed.2.1
          exact plain_follows ⟨trivial, last, same, settled allowed.2.2⟩ fun answer => holds.sends
      | sendTransfer fromId toId nonces amount =>
          obtain ⟨last, same, -, settled⟩ := holds.locked allowed.2.1
          exact plain_follows ⟨trivial, last, same, settled allowed.2.2⟩ fun answer => holds.sends
      | confirmSubmittedTx txHash account submitted =>
          obtain ⟨last, same, answered, -⟩ := holds.locked allowed.2.1
          have waiting : (ConfirmFallback.SignerNonce account submitted).For (handsOf below) txHash := by
            rw [allowed.2.2] at answered
            obtain ⟨⟨tx, answer⟩, rfl, rfl⟩ := Option.map_eq_some_iff.mp answered
            exact ⟨tx, same⟩
          refine Follows.bind_iff.mpr ((confirmSubmittedTx_follows waiting (.refl _)).weaken ?_)
          intro later answer waits
          change Holds (signingOf (history ++
            [⟨.tool (.confirmSubmittedTx txHash account submitted), answer⟩])) held (handsOf later)
          have kept := holds.keeps waits.1
          rw [signingOf_append]
          rcases answer with e | ⟨confirmed, strength⟩
          · exact kept
          · cases confirmed with
            | false => exact kept
            | true => exact kept.settles allowed.2.2 (waits.2 ⟨strength, rfl⟩)
      | respond result => exact idle_follows holds (.inr (.inl ⟨result, rfl⟩)) allowed
      | _ => exact idle_follows holds (.inl trivial) allowed
  | dropSignedWrite =>
      cases held with
      | true =>
          refine plain_follows ⟨trivial, fun none => ?_⟩ holds.drops
          have some := holds.held
          rw [none] at some
          cases some
      | false =>
          change Holds (signingOf (history ++ [⟨.dropSignedWrite, ()⟩])) false (handsOf below)
          rw [signingOf_append]
          exact holds.undropped ()
  | lockClaim => exact plain_follows ⟨trivial, trivial⟩ holds.locksClaim
  | dropClaim =>
      refine plain_follows ⟨trivial, ?_⟩ holds.dropsClaim
      change (handsOf below).claim ≠ none
      rw [holds.claiming allowed.2]
      exact nofun
  | submitClaim solved =>
      refine plain_follows ⟨trivial, ?_⟩ holds.claims
      change (handsOf below).claim ≠ none
      rw [holds.claiming allowed.2]
      exact nofun
  | confirmClaim txHash seed =>
      obtain ⟨claiming, solved, claimed, same⟩ := allowed.2
      have waiting : (ConfirmFallback.PinataSeed seed).For (handsOf below) txHash := by
        refine ⟨solved, ?_, same⟩
        rw [holds.claiming claiming, claimed]
        rfl
      refine Follows.bind_iff.mpr ((confirmSubmittedTx_follows waiting (.refl _)).weaken ?_)
      intro later answer waits
      change Holds (signingOf (history ++ [⟨.confirmClaim txHash seed, answer⟩])) held (handsOf later)
      have kept := holds.keeps waits.1
      rw [signingOf_append]
      rcases answer with e | ⟨confirmed, strength⟩
      · exact kept
      · cases confirmed with
        | false => exact kept
        | true => exact kept.claimed (waits.2 ⟨strength, rfl⟩)
  | solveClaim winner => exact idle_follows holds (.inl trivial) allowed
  | answer result => exact idle_follows holds (.inr (.inr ⟨result, rfl⟩)) allowed

end Calls

end AtomicSwaps.Mcp
