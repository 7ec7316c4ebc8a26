import AtomicSwaps.Lez.Onboard
import AtomicSwaps.Semantics.Guarded

/-!
# The tally of the faucet claims

What `claim_to_target` reports of its claims, held against the claims of the account that have
committed. Everybody may pay into the account and claim from the faucet between any two
operations, every request may fail, and what was submitted may commit late or never.
-/

namespace AtomicSwaps.Lez

open Semantics Program

/-- A claim for the account that the sequencer may still commit. -/
structure PendingClaim where
  txHash : String
  solution : U128
deriving DecidableEq

/-- A turn of the funding loop from the balance it has read: that balance, the number of claims
committed by then, and the claim whose commitment it awaits. -/
structure OpenTurn where
  opening : U128
  counted : Nat
  awaited : Option String
deriving DecidableEq

/-- The account, the faucet, the claims for the account, and the turn of the loop that is open. -/
structure FaucetChain where
  account : Account
  challenge : Bytes 33
  pending : List PendingClaim
  /-- The transactions of the claims for the account that have committed, oldest first. -/
  committed : List String
  turn : Option OpenTurn

namespace FaucetChain

/-- The account with another balance. -/
def withBalance (chain : FaucetChain) (balance : U128) : FaucetChain :=
  { chain with account := { chain.account with balance } }

/-- What happens beside the loop; `valid` tells which solutions a challenge has. -/
inductive Drift (valid : Bytes 33 → U128 → Prop) : FaucetChain → FaucetChain → Prop where
  /-- A foreign transfer into the account. -/
  | receive {chain : FaucetChain} {amount : U128}
      (fits : chain.account.balance.toNat + amount.toNat < 2 ^ 128) :
      Drift valid chain (chain.withBalance (chain.account.balance + amount))
  /-- A transfer out of the account. -/
  | spend {chain : FaucetChain} {amount : U128} (covered : amount ≤ chain.account.balance) :
      Drift valid chain (chain.withBalance (chain.account.balance - amount))
  /-- `Initialize` commits. -/
  | initialized {chain : FaucetChain} {owner : ProgramId} :
      Drift valid chain { chain with account := { chain.account with programOwner := owner } }
  /-- A claim for another account commits. -/
  | rotate {chain : FaucetChain} {challenge : Bytes 33}
      (other : seedOf challenge ≠ seedOf chain.challenge) :
      Drift valid chain { chain with challenge }
  /-- Another process submits a claim for the account. -/
  | join {chain : FaucetChain} {claim : PendingClaim} :
      Drift valid chain { chain with pending := chain.pending ++ [claim] }
  /-- A claim for the account commits. -/
  | commit {chain : FaucetChain} {claim : PendingClaim} {challenge : Bytes 33}
      (submitted : claim ∈ chain.pending) (solves : valid chain.challenge claim.solution)
      (once : claim.txHash ∉ chain.committed)
      (other : seedOf challenge ≠ seedOf chain.challenge)
      (fits : chain.account.balance.toNat + Mcp.PRIZE_PER_CLAIM.toNat < 2 ^ 128) :
      Drift valid chain
        { chain.withBalance (chain.account.balance + Mcp.PRIZE_PER_CLAIM) with
          challenge, committed := chain.committed ++ [claim.txHash] }

/-- The head of a turn has read the balance. -/
def opened (chain : FaucetChain) : FaucetChain :=
  match chain.turn with
  | none => { chain with turn := some ⟨chain.account.balance, chain.committed.length, none⟩ }
  | some _ => chain

/-- A claim has been accepted. -/
def accepted (chain : FaucetChain) (claim : PendingClaim) : FaucetChain :=
  { chain with pending := chain.pending ++ [claim] }

/-- The turn awaits a claim. -/
def awaiting (chain : FaucetChain) (txHash : String) : FaucetChain :=
  { chain with turn := chain.turn.map fun turn => { turn with awaited := some txHash } }

/-- What an event says of the turn: the loop reports its result at its end. -/
def told (chain : FaucetChain) : FundingProgress → FaucetChain
  | .Claimed .. | .ClaimFailed .. | .TargetReached _ => { chain with turn := none }
  | _ => chain

end FaucetChain

open FaucetChain in
/-- What the operations of the loop answer and do. -/
inductive Served (onboarding : Onboarding) :
    (op : FundingOp) → FaucetChain → Funding.Answer op → FaucetChain → Prop where
  | accountRead {chain : FaucetChain} {id : AccountId} {account : Account}
      (own : id = onboarding.accountId → account = chain.account)
      (faucet : id = onboarding.pinataId → account.data = chain.challenge.toList) :
      Served onboarding (.getAccount id) chain (.ok account) chain
  | accountUnread {chain : FaucetChain} {id : AccountId} {e : String} :
      Served onboarding (.getAccount id) chain (.error e) chain
  | balanceRead {chain : FaucetChain} :
      Served onboarding (.getAccountBalance onboarding.accountId) chain
        (.ok chain.account.balance) chain.opened
  | balanceUnread {chain : FaucetChain} {id : AccountId} {e : String} :
      Served onboarding (.getAccountBalance id) chain (.error e) chain
  | nonces {chain : FaucetChain} {id : AccountId} {answer : Except String (List U128)} :
      Served onboarding (.getAccountsNonces id) chain answer chain
  | sendInitialize {chain : FaucetChain} {id : AccountId} {nonces : List U128}
      {answer : Except String String} :
      Served onboarding (.sendInitialize id nonces) chain answer chain
  | solve {chain : FaucetChain} {challenge : Bytes 33} {answer : Except String U128} :
      Served onboarding (.computeSolution challenge) chain answer chain
  | claimSent {chain : FaucetChain} {solution : U128} {winner : AccountId} {txHash : String} :
      Served onboarding (.sendClaim solution winner) chain (.ok txHash)
        ((chain.accepted ⟨txHash, solution⟩).awaiting txHash)
  | claimUnsent {chain : FaucetChain} {solution : U128} {winner : AccountId} {e : String} :
      Served onboarding (.sendClaim solution winner) chain (.error e) chain
  /-- The claim was accepted and the acknowledgement lost. -/
  | claimLost {chain : FaucetChain} {solution : U128} {winner : AccountId} {txHash e : String} :
      Served onboarding (.sendClaim solution winner) chain (.error e)
        (chain.accepted ⟨txHash, solution⟩)
  | emit {chain : FaucetChain} {event : FundingProgress} :
      Served onboarding (.emit event) chain () (chain.told event)
  | deadlinePassed {chain : FaucetChain} {passed : Bool} :
      Served onboarding .deadlinePassed chain passed chain
  | sleep {chain : FaucetChain} : Served onboarding .sleep chain () chain

/-- The chain beside the loop, where balances are only read when `due`. -/
def faucet (valid : Bytes 33 → U128 → Prop) (onboarding : Onboarding) (due : FaucetChain → Prop) :
    Environment Funding FaucetChain where
  perform op before answer after := Served onboarding op before answer after ∧
    ∀ id, op = .getAccountBalance id → due before
  drift := FaucetChain.Drift valid

/-- While the turn awaits a claim, the balance is above what the turn began with only if that
claim has committed since. -/
def Undisturbed (chain : FaucetChain) : Prop :=
  ∀ turn txHash, chain.turn = some turn → turn.awaited = some txHash →
    turn.opening < chain.account.balance → txHash ∈ chain.committed.drop turn.counted

/-- An event is true of the claims that have committed since there were `already` of them. -/
def Accounted (already : Nat) (chain : FaucetChain) : FundingOp → Prop
  | .emit (.Claimed txHash totalClaims _) =>
      already + totalClaims.toNat ≤ chain.committed.length ∧
        ∀ hash, txHash = some hash → hash ∈ chain.committed
  | _ => True

variable {valid : Bytes 33 → U128 → Prop} {onboarding : Onboarding} {due : FaucetChain → Prop}

namespace FaucetChain

/-- What drifting leaves of a chain: its turn, and the claims that have committed. -/
structure Later (before after : FaucetChain) : Prop where
  turn : after.turn = before.turn
  committed : before.committed <+: after.committed

theorem Drift.later {before after : FaucetChain} (drift : Drift valid before after) :
    Later before after := by
  cases drift with
  | commit => exact ⟨rfl, List.prefix_append _ _⟩
  | _ => exact ⟨rfl, List.prefix_refl _⟩

theorem later_of_drifts {before after : FaucetChain}
    (drifts : Relation.ReflTransGen (faucet valid onboarding due).drift before after) :
    Later before after := by
  induction drifts with
  | refl => exact ⟨rfl, List.prefix_refl _⟩
  | tail _ drift ih =>
      have last := Drift.later drift
      exact ⟨last.turn.trans ih.turn, ih.committed.trans last.committed⟩

end FaucetChain

/-- Drifting does not make a condition false. -/
def Stable (holds : FaucetChain → Prop) : Prop :=
  ∀ before after, before.Later after → holds before → holds after

/-- At least as many claims have committed as the loop counts. -/
def Counted (already : Nat) (claims : U64) (chain : FaucetChain) : Prop :=
  already + claims.toNat ≤ chain.committed.length

/-- Between two turns. -/
def Idle (already : Nat) (claims : U64) (chain : FaucetChain) : Prop :=
  chain.turn = none ∧ Counted already claims chain

/-- A turn that began with a balance, by when what the loop counts had committed. -/
def Turning (already : Nat) (claims : U64) (opening : U128) (awaited : Option String)
    (chain : FaucetChain) : Prop :=
  ∃ counted, chain.turn = some ⟨opening, counted, awaited⟩ ∧ already + claims.toNat ≤ counted ∧
    counted ≤ chain.committed.length

/-- One claim more than the loop counts has committed, and the claim in question has. -/
def Settled (already : Nat) (claims : U64) (txHash : Option String) (chain : FaucetChain) : Prop :=
  already + claims.toNat < chain.committed.length ∧
    ∀ hash, txHash = some hash → hash ∈ chain.committed

section Conditions

variable {already : Nat} {claims : U64} {opening : U128} {awaited : Option String}

theorem counted_stable : Stable (Counted already claims) :=
  fun _ _ later counted => counted.trans later.committed.length_le

theorem idle_stable : Stable (Idle already claims) :=
  fun _ _ later idle => ⟨later.turn.trans idle.1, counted_stable _ _ later idle.2⟩

theorem turning_stable : Stable (Turning already claims opening awaited) :=
  fun _ _ later ⟨counted, turn, before, since⟩ =>
    ⟨counted, later.turn.trans turn, before, since.trans later.committed.length_le⟩

theorem settled_stable : Stable (Settled already claims awaited) :=
  fun _ _ later ⟨more, committed⟩ =>
    ⟨more.trans_le later.committed.length_le,
      fun hash same => later.committed.subset (committed hash same)⟩

theorem Turning.isCounted {chain : FaucetChain}
    (turning : Turning already claims opening awaited chain) : Counted already claims chain := by
  obtain ⟨counted, -, before, since⟩ := turning
  exact before.trans since

/-- What an undisturbed turn sees risen has been paid by the claim it awaits. -/
theorem Turning.settled {chain : FaucetChain} {txHash : String}
    (turning : Turning already claims opening (some txHash) chain) (undisturbed : Undisturbed chain)
    (risen : opening < chain.account.balance) : Settled already claims (some txHash) chain := by
  obtain ⟨counted, turn, before, -⟩ := turning
  have since : txHash ∈ chain.committed.drop counted := undisturbed _ _ turn rfl risen
  have some : 0 < (chain.committed.drop counted).length := List.length_pos_of_mem since
  rw [List.length_drop] at some
  refine ⟨by omega, fun hash same => ?_⟩
  obtain rfl := Option.some.inj same
  exact List.mem_of_mem_drop since

/-- A claim that is not named needs not be the one that has committed. -/
theorem Settled.unnamed {chain : FaucetChain} (settled : Settled already claims awaited chain) :
    Settled already claims none chain := ⟨settled.1, nofun⟩

/-- The loop counts the claim. -/
theorem Settled.next {chain : FaucetChain} (settled : Settled already claims awaited chain) :
    Counted already (claims + 1) chain := by
  have more := settled.1
  have one : (claims + 1).toNat ≤ claims.toNat + 1 := by
    rw [BitVec.toNat_add]
    exact Nat.mod_le _ _
  unfold Counted
  omega

end Conditions

/-- A program of the loop, in a world where turns are undisturbed. -/
abbrev Tallied (valid : Bytes 33 → U128 → Prop) (onboarding : Onboarding) (already : Nat) {α : Type}
    (post : FaucetChain → Except String α → Prop) (program : FundingM α) (chain : FaucetChain) :
    Prop :=
  Guarded (faucet valid onboarding Undisturbed) (Accounted already) post program.run chain

/-- The operations that leave the chain as it is, and of which nothing is claimed. -/
def FundingOp.Looks : FundingOp → Prop
  | .getAccountBalance _ | .sendClaim .. | .emit _ => False
  | _ => True

theorem Served.looks {op : FundingOp} {before after : FaucetChain} {answer : Funding.Answer op}
    (served : Served onboarding op before answer after) (looks : op.Looks) : after = before := by
  cases served <;> first | rfl | exact looks.elim

section Programs

variable {already : Nat} {chain : FaucetChain} {holds : FaucetChain → Prop} {α : Type}
  {post : FaucetChain → Except String α → Prop}

/-- An operation in a condition that drifting keeps. -/
theorem Tallied.request {op : FundingOp} {rest : Funding.Answer op → FundingM α}
    (stable : Stable holds) (held : holds chain)
    (ruled : ∀ before, holds before → Accounted already before op)
    (onward : ∀ before answer after, holds before → Served onboarding op before answer after →
      (∀ id, op = .getAccountBalance id → Undisturbed before) →
      Tallied valid onboarding already post (rest answer) after) :
    Tallied valid onboarding already post (Program.request (I := Funding) op >>= rest) chain := by
  apply Guarded.request_bind_iff.mpr
  intro before drifted
  have still := stable _ _ (FaucetChain.later_of_drifts drifted) held
  exact ⟨ruled before still, fun answer after performed =>
    onward before answer after still performed.1 performed.2⟩

/-- A look at the chain, in a condition that drifting keeps. -/
theorem Tallied.look {op : FundingOp} {rest : Funding.Answer op → FundingM α}
    (stable : Stable holds) (held : holds chain) (looks : op.Looks)
    (onward : ∀ later answer, holds later →
      Tallied valid onboarding already post (rest answer) later) :
    Tallied valid onboarding already post (Program.request (I := Funding) op >>= rest) chain := by
  apply Tallied.request stable held
  · intro before _
    cases op with
    | emit event => exact looks.elim
    | _ => trivial
  · intro before answer after still served _
    rw [served.looks looks]
    exact onward before answer still

/-- Whatever is returned, a condition is kept. -/
abbrev Keeping (holds : FaucetChain → Prop) : FaucetChain → Except String α → Prop :=
  fun later _ => holds later

/-- A program that is a read of the challenge keeps what drifting keeps. -/
theorem pinataChallenge_tallied (stable : Stable holds) (held : holds chain) :
    Tallied valid onboarding already (Keeping holds) onboarding.pinataChallenge chain := by
  unfold Onboarding.pinataChallenge
  refine Tallied.look stable held trivial fun before answer still => ?_
  cases answer with
  | error e => exact still
  | ok account =>
      apply Guarded.run_bind_iff.mpr
      simp only [orElseSay, ExceptT.run_pure, Program.monad_pure, Guarded]
      split <;> exact still

/-- A sequence, from what its first part leaves. -/
theorem Tallied.and_then {β : Type} {first : FundingM β} {rest : β → FundingM α}
    {middle : FaucetChain → Except String β → Prop}
    (begun : Tallied valid onboarding already middle first chain)
    (onward : ∀ later value, middle later (.ok value) →
      Tallied valid onboarding already post (rest value) later)
    (failed : ∀ later error, middle later (.error error) → post later (.error error)) :
    Tallied valid onboarding already post (first >>= rest) chain := by
  apply Guarded.run_bind_iff.mpr
  refine begun.weaken fun later result left => ?_
  cases result with
  | ok value => exact onward later value left
  | error error => exact failed later error left

/-- What a value is returned in, and what an error. -/
def Leaving (found : α → FaucetChain → Prop) (holds : FaucetChain → Prop) (later : FaucetChain) :
    Except String α → Prop
  | .ok value => found value later
  | .error _ => holds later

/-- A read that is tried again keeps what drifting keeps until it succeeds. -/
theorem readRetrying_tallied {read : FundingM (Except String α)} {retries : Nat}
    {message : String → String} {found : α → FaucetChain → Prop} (stable : Stable holds)
    (reads : ∀ chain, holds chain → Tallied valid onboarding already
      (Leaving (fun answer later => Leaving found holds later answer) holds) read chain)
    {left : Nat} {lastErr : String} (held : holds chain) :
    Tallied valid onboarding already (Leaving found holds)
      (readRetrying retries message read left lastErr) chain := by
  fun_induction readRetrying retries message read left lastErr generalizing chain with
  | case1 lastErr => exact held
  | case2 lastErr ih =>
      refine Tallied.and_then (reads chain held) (fun later answer kept => ?_) fun _ _ kept => kept
      cases answer with
      | ok value => exact kept
      | error e => exact ih e kept
  | case3 lastErr left ih =>
      refine Tallied.and_then (reads chain held) (fun later answer kept => ?_) fun _ _ kept => kept
      cases answer with
      | ok value => exact kept
      | error e =>
          exact Tallied.look stable kept trivial fun _ _ still => ih e still

/-- A request whose failure ends the program. -/
theorem orElseSay_keeps {message : String → String} {answer : Except String α}
    (held : holds chain) :
    Tallied valid onboarding already (Keeping holds) (orElseSay message answer) chain := by
  cases answer <;> exact held

/-- The account is initialized without anything being counted. -/
theorem ensureInitialized_tallied {fuel : Nat} (stable : Stable holds) (held : holds chain) :
    Tallied valid onboarding already (Keeping holds) (onboarding.ensureInitialized fuel) chain := by
  unfold Onboarding.ensureInitialized
  have reading : Tallied valid onboarding already (Leaving (fun _ => holds) holds)
      onboarding.readAccountRetrying chain := by
    refine readRetrying_tallied stable (fun before still => ?_) held
    refine Tallied.look stable still trivial fun later answer kept => ?_
    cases answer <;> exact kept
  refine Tallied.and_then reading (fun later existing kept => ?_) fun _ _ kept => kept
  split
  · exact kept
  · refine Tallied.look stable kept trivial fun before answer still => ?_
    refine (orElseSay_keeps still).and_then (fun later nonces kept => ?_) fun _ _ kept => kept
    refine Tallied.look stable kept trivial fun before answer still => ?_
    refine (orElseSay_keeps still).and_then (fun later txHash kept => ?_) fun _ _ kept => kept
    refine Guarded.iterate (fun later _ => holds later) (fun world _ begun => ?_) kept
    refine Tallied.look stable begun trivial fun before account still => ?_
    split
    · exact still
    · refine Tallied.look stable still trivial fun later passed kept => ?_
      split
      · exact kept
      · exact Tallied.look stable kept trivial fun _ _ slept => slept

/-- The head of a turn reads the balance that the turn begins with. -/
theorem readBalanceRetrying_tallied {claims : U64} (idle : Idle already claims chain) :
    Tallied valid onboarding already
      (Leaving (fun balance => Turning already claims balance none) (Idle already claims))
      onboarding.readBalanceRetrying chain := by
  refine readRetrying_tallied idle_stable (fun before still => ?_) idle
  refine Tallied.request idle_stable still (fun _ _ => trivial)
    fun start answer after kept served _ => ?_
  cases served with
  | balanceUnread => exact kept
  | balanceRead =>
      refine ⟨start.committed.length, ?_, ?_, ?_⟩
      · simp only [FaucetChain.opened, kept.1]
      · exact kept.2
      · simp only [FaucetChain.opened, kept.1, le_refl]

variable {claims : U64} {opening : U128} {txHash : String}

/-- A rise that the wait reads has been paid by the claim. -/
theorem risen_tallied (turning : Turning already claims opening (some txHash) chain) :
    Tallied valid onboarding already (Leaving (fun balance later =>
        match balance with
        | some _ => Settled already claims (some txHash) later
        | none => Turning already claims opening (some txHash) later) (Counted already claims))
      (onboarding.risen opening) chain := by
  unfold Onboarding.risen
  refine Tallied.request turning_stable turning (fun _ _ => trivial)
    fun before answer after still served undisturbed => ?_
  cases served with
  | balanceUnread => exact still
  | balanceRead =>
      have kept : before.opened = before := by
        obtain ⟨counted, turn, -⟩ := still
        simp only [FaucetChain.opened, turn]
      rw [kept]
      dsimp only
      split
      · rename_i above
        exact still.settled (undisturbed _ rfl) above
      · exact still

/-- Looking at the challenge keeps what drifting keeps. -/
theorem rotated_tallied {seed : Bytes32} (stable : Stable holds) (held : holds chain) :
    Tallied valid onboarding already (Leaving (fun _ => holds) (Counted already claims))
      (onboarding.rotated seed) chain := by
  have looked : Tallied valid onboarding already (Leaving (fun _ => holds) (Counted already claims))
      (attempt onboarding.pinataChallenge) chain :=
    Guarded.run_attempt_iff.mpr (pinataChallenge_tallied stable held)
  refine looked.and_then (fun later answer kept => ?_) fun _ _ kept => kept
  cases answer <;> exact kept

/-- The wait ends when the claim has committed, or with what had committed before. -/
theorem awaitClaimCommit_tallied {fuel : Nat} {seed : Bytes32}
    (turning : Turning already claims opening (some txHash) chain) :
    Tallied valid onboarding already
      (Leaving (fun _ => Settled already claims (some txHash)) (Counted already claims))
      (onboarding.awaitClaimCommit fuel opening seed) chain := by
  refine Guarded.iterate (fun later _ => Turning already claims opening (some txHash) later)
    (fun world _ begun => ?_) turning
  refine (risen_tallied begun).and_then (fun later balance left => ?_) fun _ _ kept => kept
  cases balance with
  | some balance =>
      exact (rotated_tallied settled_stable left).and_then (fun _ _ kept => kept)
        fun _ _ kept => kept
  | none =>
      refine (rotated_tallied turning_stable left).and_then (fun later away still => ?_)
        fun _ _ kept => kept
      split
      · refine (risen_tallied still).and_then (fun later balance left => ?_) fun _ _ kept => kept
        cases balance with
        | some balance => exact left
        | none => exact left.isCounted
      · refine Tallied.look turning_stable still trivial fun before passed kept => ?_
        split
        · exact kept.isCounted
        · exact Tallied.look turning_stable kept trivial fun _ _ slept => slept

/-- A claim that is submitted is the one that the turn awaits. -/
theorem attemptClaim_tallied (turning : Turning already claims opening none chain) :
    Tallied valid onboarding already
      (Leaving (fun claim => Turning already claims opening (some claim.txHash))
        (Counted already claims)) onboarding.attemptClaim chain := by
  have solving : Tallied valid onboarding already
      (Leaving (fun _ => Turning already claims opening none) (Counted already claims))
      onboarding.solveClaim chain := by
    refine (pinataChallenge_tallied turning_stable turning).and_then
      (fun later challenge kept => ?_) fun _ _ kept => kept.isCounted
    refine Tallied.look turning_stable kept trivial fun before answer still => ?_
    cases answer with
    | ok solution => exact still
    | error e => exact still.isCounted
  refine solving.and_then (fun later solved kept => ?_) fun _ _ kept => kept
  have sending : Tallied valid onboarding already
      (Leaving (fun txHash => Turning already claims opening (some txHash))
        (Counted already claims))
      (submitSolvedClaim solved) later := by
    refine Tallied.request turning_stable kept (fun _ _ => trivial)
      fun before answer after still served _ => ?_
    cases served with
    | claimUnsent => exact still.isCounted
    | claimLost => exact still.isCounted
    | @claimSent _ _ _ txHash =>
        obtain ⟨counted, turn, less, since⟩ := still
        exact ⟨counted, by simp [FaucetChain.awaiting, FaucetChain.accepted, turn], less, since⟩
  exact sending.and_then (fun _ _ kept => kept) fun _ _ kept => kept

/-- An attempt that succeeds has a commitment of its own. -/
theorem claimAttempt_tallied {fuel : Nat} (turning : Turning already claims opening none chain) :
    Tallied valid onboarding already
      (Leaving (fun result => Settled already claims result.1) (Counted already claims))
      (onboarding.claimAttempt fuel opening) chain := by
  refine (attemptClaim_tallied turning).and_then (fun later claim kept => ?_) fun _ _ kept => kept
  refine Tallied.request turning_stable kept (fun _ _ => trivial)
    fun before answer after still served _ => ?_
  cases served
  refine (awaitClaimCommit_tallied still).and_then (fun later result settled => ?_)
    fun _ _ kept => kept
  change Settled already claims (if result.2 then some claim.txHash else none) later
  split
  · exact settled
  · exact settled.unnamed

/-- What is told of an attempt is true, and the loop is between two turns again. -/
theorem settle_tallied {loop : FundingLoop} {result : Except String (Option String × U128)}
    (left : Leaving (fun result => Settled already loop.claims result.1)
      (Counted already loop.claims) chain result) :
    Tallied valid onboarding already (Leaving (fun next => Idle already next.claims) fun _ => True)
      (loop.settle result) chain := by
  cases result with
  | ok result =>
      refine Tallied.request (settled_stable) left (fun before settled => ?_)
        fun before answer after settled served _ => ?_
      · exact ⟨settled.next, settled.2⟩
      · cases served
        exact ⟨rfl, settled.next⟩
  | error error =>
      refine Tallied.request (counted_stable) left (fun _ _ => trivial)
        fun before answer after still served _ => ?_
      cases served
      split
      · trivial
      · exact ⟨rfl, still⟩

/-- One turn of the loop tells the truth. -/
theorem fundingRound_tallied {target : U128} {fuel : Nat} {loop : FundingLoop}
    (idle : Idle already loop.claims chain) :
    Tallied valid onboarding already
      (Leaving (fun next later =>
        match next with
        | .inl loop => Idle already loop.claims later
        | .inr _ => True) fun _ => True)
      (onboarding.fundingRound target fuel loop) chain := by
  refine (readBalanceRetrying_tallied idle).and_then (fun later balance turning => ?_)
    fun _ _ _ => trivial
  split
  · refine Tallied.request turning_stable turning (fun _ _ => trivial) fun _ _ _ _ _ _ => ?_
    trivial
  · refine Tallied.request turning_stable turning (fun _ _ => trivial)
      fun before answer after still served _ => ?_
    cases served
    have attempted : Tallied valid onboarding already
        (Leaving (fun result later => Leaving (fun result => Settled already loop.claims result.1)
          (Counted already loop.claims) later result) fun _ => True)
        (attempt (onboarding.claimAttempt fuel balance)) before :=
      Guarded.run_attempt_iff.mpr (claimAttempt_tallied still)
    refine attempted.and_then (fun later result left => ?_) fun _ _ kept => kept
    refine (settle_tallied left).and_then (fun later next idle => ?_) fun _ _ kept => kept
    exact Tallied.look idle_stable idle trivial fun _ _ slept => slept

/-- All that the loop tells of its claims is true. -/
theorem claimToTarget_tallied {target : U128} {fuel : Nat} (unopened : chain.turn = none) :
    Tallied valid onboarding chain.committed.length (fun _ _ => True)
      (onboarding.claimToTarget target fuel) chain := by
  have idle : Idle chain.committed.length 0 chain := ⟨unopened, le_refl _⟩
  refine Tallied.request idle_stable idle (fun _ _ => trivial)
    fun before _ after still served _ => ?_
  cases served
  refine (ensureInitialized_tallied idle_stable still).and_then (fun later outcome kept => ?_)
    fun _ _ _ => trivial
  refine Tallied.request idle_stable kept (fun _ _ => ?_) fun before _ after still served _ => ?_
  · cases outcome <;> trivial
  · cases served
    have same : before.told (Onboarding.toldOf outcome) = before := by cases outcome <;> rfl
    rw [same]
    refine Guarded.iterate (fun later loop => Idle chain.committed.length loop.claims later)
      (fun world loop begun => ?_) still
    refine (fundingRound_tallied begun).weaken fun later result left => ?_
    cases result with
    | error error => trivial
    | ok next => cases next <;> exact left

end Programs

/-- The loop stops with the balance that was read last, which has reached the target. -/
def Funded (onboarding : Onboarding) (target : U128) (history : History Funding) :
    Except String U128 → Prop
  | .ok balance => target ≤ balance ∧ ∃ earlier, history = earlier ++
      [⟨.getAccountBalance onboarding.accountId, (.ok balance : Except String U128)⟩,
        ⟨.emit (.TargetReached balance), ()⟩]
  | .error _ => True

/-- A program of the loop with a result that its history bears out. -/
abbrev Ending {α : Type} (post : History Funding → Except String α → Prop) (program : FundingM α)
    (history : History Funding) : Prop :=
  Follows (fun _ _ => True) post program.run history

section Endings

variable {α β : Type} {history : History Funding} {post : History Funding → Except String β → Prop}

/-- A sequence, of whose first part nothing needs to be known. -/
theorem ending_after {first : FundingM α} {rest : α → FundingM β}
    (failed : ∀ later error, post later (.error error))
    (onward : ∀ later value, Ending post (rest value) later) :
    Ending post (first >>= rest) history := by
  apply Follows.run_bind_iff.mpr
  apply (Follows.extends_history first.run history).mono (fun _ _ _ => trivial)
  intro later result _
  cases result with
  | ok value => exact onward later value
  | error error => exact failed later error

/-- What a read that is tried again returns, it has just read. -/
theorem readRetrying_ending {read : FundingM (Except String α)} (found : History Funding → α → Prop)
    (reads : ∀ history, Ending (fun later result => ∀ value, result = .ok (.ok value) →
      found later value) read history)
    {retries left : Nat} {message : String → String} {lastErr : String} :
    Ending (fun later result => ∀ value, result = .ok value → found later value)
      (readRetrying retries message read left lastErr) history := by
  fun_induction readRetrying retries message read left lastErr generalizing history with
  | case1 lastErr => exact nofun
  | case2 lastErr ih =>
      apply Follows.run_bind_iff.mpr
      refine (reads history).weaken fun later result kept => ?_
      rcases result with error | e | value
      · exact nofun
      · exact ih e
      · exact fun _ same => kept _ (congrArg _ same)
  | case3 lastErr left ih =>
      apply Follows.run_bind_iff.mpr
      refine (reads history).weaken fun later result kept => ?_
      rcases result with error | e | value
      · exact nofun
      · exact Follows.request_bind trivial fun _ => ih e
      · exact fun _ same => kept _ (congrArg _ same)

/-- A balance that is returned has just been read. -/
theorem readBalanceRetrying_ending :
    Ending (fun later result => ∀ balance, result = .ok balance → ∃ earlier, later = earlier ++
      [⟨.getAccountBalance onboarding.accountId, (.ok balance : Except String U128)⟩])
      onboarding.readBalanceRetrying history := by
  refine readRetrying_ending (fun later balance => ∃ earlier, later = earlier ++
    [⟨.getAccountBalance onboarding.accountId, (.ok balance : Except String U128)⟩])
    fun history => ?_
  refine ⟨trivial, fun answer balance same => ?_⟩
  obtain rfl : answer = .ok balance := Except.ok.inj same
  exact ⟨history, rfl⟩

/-- The loop ends funded. -/
theorem claimToTarget_ending {target : U128} {fuel : Nat} :
    Ending (Funded onboarding target) (onboarding.claimToTarget target fuel) history := by
  refine Follows.request_bind trivial fun _ => ?_
  refine ending_after (fun _ _ => trivial) fun later outcome => ?_
  refine Follows.request_bind trivial fun _ => ?_
  refine Follows.iterate (fun _ _ => True) (fun history loop _ => ?_) _ _ trivial
  apply Follows.run_bind_iff.mpr
  refine readBalanceRetrying_ending.weaken fun later result read => ?_
  cases result with
  | error error => trivial
  | ok balance =>
      obtain ⟨earlier, rfl⟩ := read balance rfl
      dsimp only
      split
      · rename_i reached
        refine Follows.request_bind trivial fun told => ⟨reached, earlier, ?_⟩
        simp only [List.append_assoc, List.cons_append, List.nil_append]
        rfl
      · refine ending_after (fun _ _ => trivial) fun _ _ => ?_
        refine ending_after (fun _ _ => trivial) fun _ _ => ?_
        refine ending_after (fun _ _ => trivial) fun _ _ => ?_
        exact ending_after (fun _ _ => trivial) fun _ _ => trivial

end Endings

/-- In every run whose turns are undisturbed, complete or not, no more claims are reported than have
committed since it began, a claim that is named has committed, and the loop ends with the balance
it has read last, at the target. -/
theorem claims_accounted {target : U128} {fuel : Nat} {start final : FaucetChain}
    {log : List (Entry Funding FaucetChain)} {rest : Program Funding (Except String U128)}
    (unopened : start.turn = none)
    (run : Advances (faucet valid onboarding Undisturbed) (onboarding.claimToTarget target fuel).run
      start log rest final) :
    (∀ entry ∈ log, ∀ txHash totalClaims balance,
      entry.op = .emit (.Claimed txHash totalClaims balance) →
        start.committed.length + totalClaims.toNat ≤ entry.before.committed.length ∧
          ∀ hash, txHash = some hash → hash ∈ entry.before.committed) ∧
      ∀ balance, rest = .pure (.ok balance) → target ≤ balance ∧
        ∃ earlier, historyOf log = earlier ++
          [⟨.getAccountBalance onboarding.accountId, (.ok balance : Except String U128)⟩,
            ⟨.emit (.TargetReached balance), ()⟩] := by
  constructor
  · intro entry member txHash totalClaims balance same
    have accounted := (run.guarded (claimToTarget_tallied unopened)).1 entry member
    rw [same] at accounted
    exact accounted
  · intro balance same
    have ends : Ending (Funded onboarding target) (onboarding.claimToTarget target fuel) [] :=
      claimToTarget_ending
    have ending := run.follows ends
    rw [same] at ending
    exact ending

/-- An account, its program and the faucet. -/
def testOnboarding : Onboarding where
  accountId := Bytes.fill 32 1
  authTransferId := List.Vector.replicate 8 1
  pinataId := Bytes.fill 32 2

/-- An empty account at a faucet of difficulty zero. -/
def testEmpty : FaucetChain where
  account := { Account.default with programOwner := testOnboarding.authTransferId }
  challenge := Bytes.zero 33
  pending := []
  committed := []
  turn := none

/-- The first claim of the account awaits its commitment. -/
def testClaiming : FaucetChain :=
  (testEmpty.opened.accepted ⟨"c1", 0⟩).awaiting "c1"

/-- The challenge after the first claim that committed. -/
def testRotated : Bytes 33 := ⟨0 :: List.replicate 32 7, rfl⟩

/-- A first turn, whose claim is taken for committed when the chain has drifted to `paid`. -/
def testTurn (paid : FaucetChain) : List (Entry Funding FaucetChain) :=
  [.quiet testEmpty (.emit .Initializing) (),
    .quiet testEmpty (.getAccount testOnboarding.accountId) (.ok testEmpty.account),
    .quiet testEmpty (.emit .AlreadyInitialized) (),
    ⟨.getAccountBalance testOnboarding.accountId, (.ok 0 : Except String U128), testEmpty,
      testEmpty.opened⟩,
    .quiet testEmpty.opened (.emit (.CheckingBalance 0 1000)) (),
    .quiet testEmpty.opened (.getAccount testOnboarding.pinataId)
      (.ok { Account.default with data := testEmpty.challenge.toList }),
    .quiet testEmpty.opened (.computeSolution testEmpty.challenge) (.ok 0 : Except String U128),
    ⟨.sendClaim 0 testOnboarding.accountId, (.ok "c1" : Except String String), testEmpty.opened,
      testClaiming⟩,
    .quiet testClaiming (.emit (.ClaimSubmitted "c1")) (),
    .quiet paid (.getAccountBalance testOnboarding.accountId) (.ok 150 : Except String U128),
    .quiet paid (.getAccount testOnboarding.pinataId)
      (.ok { Account.default with data := testRotated.toList }),
    ⟨.emit (.Claimed (some "c1") 1 150), (), paid, { paid with turn := none }⟩]

theorem test_turn {paid : FaucetChain} (fresh : due testEmpty) (paidDue : due paid)
    (turn : paid.turn = testClaiming.turn) (balance : paid.account.balance = 150)
    (challenge : paid.challenge = testRotated)
    (drifts : Relation.ReflTransGen (FaucetChain.Drift valid) testClaiming paid) : ∃ rest,
    Advances (faucet valid testOnboarding due) (testOnboarding.claimToTarget 1000 1).run testEmpty
      (testTurn paid) rest { paid with turn := none } := by
  have quiet : ∀ {op : FundingOp} {chain : FaucetChain} {P : FaucetChain → Prop},
      (∀ id, op ≠ .getAccountBalance id) → ∀ id, op = .getAccountBalance id → P chain :=
    fun other id same => absurd same (other id)
  have kept : paid.opened = paid := by
    simp [FaucetChain.opened, turn, testClaiming, FaucetChain.awaiting, FaucetChain.accepted,
      testEmpty]
  refine Advances.more .refl ⟨.emit, quiet nofun⟩ ?_
  have apart : testOnboarding.accountId ≠ testOnboarding.pinataId := by decide
  refine Advances.more .refl ⟨.accountRead (fun _ => rfl) (absurd · apart), quiet nofun⟩ ?_
  refine Advances.more .refl ⟨.emit, quiet nofun⟩ ?_
  refine Advances.more .refl ⟨.balanceRead, fun _ _ => fresh⟩ ?_
  refine Advances.more .refl ⟨.emit, quiet nofun⟩ ?_
  refine Advances.more .refl ⟨.accountRead (absurd · apart.symm) (fun _ => rfl), quiet nofun⟩ ?_
  refine Advances.more .refl ⟨.solve, quiet nofun⟩ ?_
  refine Advances.more .refl ⟨.claimSent, quiet nofun⟩ ?_
  refine Advances.more .refl ⟨.emit, quiet nofun⟩ ?_
  have read : Served testOnboarding (.getAccountBalance testOnboarding.accountId) paid
      (.ok 150) paid := by
    have opened : Served testOnboarding (.getAccountBalance testOnboarding.accountId) paid
      (.ok paid.account.balance) paid.opened := .balanceRead
    rwa [kept, balance] at opened
  refine Advances.more drifts ⟨read, fun _ _ => paidDue⟩ ?_
  have rotated : Served testOnboarding (.getAccount testOnboarding.pinataId) paid
      (.ok { Account.default with data := testRotated.toList }) paid :=
    .accountRead (absurd · apart.symm) fun _ => by rw [challenge]
  refine Advances.more .refl ⟨rotated, quiet nofun⟩ ?_
  exact Advances.more .refl ⟨.emit, quiet nofun⟩ ⟨_, .none⟩

/-- The awaited claim has committed. -/
def testCommitted : FaucetChain :=
  { testClaiming.withBalance 150 with challenge := testRotated, committed := ["c1"] }

/-- A turn that its own claim ends. -/
theorem claims_accounted_test :
    testEmpty.committed.length + (1 : U64).toNat ≤ testCommitted.committed.length ∧
      ∀ hash, some "c1" = some hash → hash ∈ testCommitted.committed := by
  have submitted : (⟨"c1", 0⟩ : PendingClaim) ∈ testClaiming.pending := List.mem_singleton.mpr rfl
  have commits : FaucetChain.Drift (fun _ _ => True) testClaiming testCommitted :=
    .commit submitted trivial (by decide) (by decide) (by decide)
  have paidDue : Undisturbed testCommitted := by
    intro turn txHash same awaited _
    obtain rfl := Option.some.inj same
    obtain rfl := Option.some.inj awaited
    exact List.mem_singleton.mpr rfl
  have fresh : Undisturbed testEmpty := nofun
  obtain ⟨rest, run⟩ := test_turn fresh paidDue rfl rfl rfl (.single commits)
  have told := List.mem_of_getLast? (l := testTurn testCommitted) rfl
  exact (claims_accounted rfl run).1 _ told (some "c1") 1 150 rfl

/-- The account has been paid by somebody, and another account has claimed. -/
def testTransferred : FaucetChain :=
  { testClaiming.withBalance 150 with challenge := testRotated }

/-- A foreign transfer and a foreign claim are reported as the account's own claim. -/
theorem foreign_transfer_claimed : ∃ log rest final,
    Advances (faucet (fun _ _ => True) testOnboarding fun _ => True)
      (testOnboarding.claimToTarget 1000 1).run testEmpty log rest final ∧
        ∃ entry ∈ log, entry.op = .emit (.Claimed (some "c1") 1 150) ∧
          entry.before.committed = [] := by
  have paid : FaucetChain.Drift (fun _ _ => True) testClaiming
      (testClaiming.withBalance (0 + 150)) :=
    .receive (by decide)
  have claimed : FaucetChain.Drift (fun _ _ => True) (testClaiming.withBalance 150)
      testTransferred :=
    .rotate (by decide)
  have transferred : Relation.ReflTransGen (FaucetChain.Drift fun _ _ => True) testClaiming
      testTransferred := .tail (.single paid) claimed
  have balance : testTransferred.account.balance = 150 := rfl
  obtain ⟨rest, run⟩ : ∃ rest, Advances (faucet (fun _ _ => True) testOnboarding fun _ => True)
      (testOnboarding.claimToTarget 1000 1).run testEmpty (testTurn testTransferred) rest
        { testTransferred with turn := none } :=
    test_turn trivial trivial rfl balance rfl transferred
  exact ⟨_, rest, _, run, _, List.mem_of_getLast? rfl, rfl, rfl⟩

end AtomicSwaps.Lez
