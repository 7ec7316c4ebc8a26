import AtomicSwaps.Mcp.WriteRule

/-!
# What signed writes rest on

A write tool signs under `signed_write_lock`, and only when what it has signed under the
lock before is confirmed. It waits for what it has submitted last, and it reports as
committed what has been confirmed.
-/

namespace AtomicSwaps.Mcp

open Semantics
open Lez (AccountId Account)

/-- Where the locks of a call stand: what was submitted last under each of them and how that was
answered, whether the signed one is confirmed, and all that has been confirmed. -/
structure Signing where
  locked : Bool
  last : Option (Except String String)
  settled : Bool
  claiming : Bool
  claimed : Option (SolvedClaim × Except String String)
  confirmed : List String

/-- Where they stand after an exchange. -/
def Signing.after (signing : Signing) : Exchange writes → Signing
  | ⟨.tool .lockSignedWrite, _⟩ => { signing with locked := true, last := none, settled := true }
  | ⟨.dropSignedWrite, _⟩ => { signing with locked := false }
  | ⟨.tool (.sendInitialize ..), answer⟩ => { signing with last := some answer, settled := false }
  | ⟨.tool (.sendTransfer ..), answer⟩ => { signing with last := some answer, settled := false }
  | ⟨.tool (.confirmSubmittedTx txHash _ _), .ok (true, _)⟩ =>
      { signing with settled := true, confirmed := txHash :: signing.confirmed }
  | ⟨.lockClaim, _⟩ => { signing with claiming := true, claimed := none }
  | ⟨.dropClaim, _⟩ => { signing with claiming := false }
  | ⟨.submitClaim solved, answer⟩ => { signing with claimed := some (solved, answer) }
  | ⟨.confirmClaim txHash _, .ok (true, _)⟩ =>
      { signing with confirmed := txHash :: signing.confirmed }
  | _ => signing

/-- Where they stand after a history. -/
def signingOf (history : History writes) : Signing :=
  history.foldl Signing.after ⟨false, none, true, false, none, []⟩

/-- An `Initialize` is reported: there was nothing to initialize, or it is confirmed. -/
def Initialized (confirmed : List String) (initTxHash : Option String) : Prop :=
  ∀ txHash, initTxHash = some txHash → txHash = "already-initialized" ∨ txHash ∈ confirmed

/-- What an answer reports as committed has been confirmed. -/
def WriteOp.Reports (confirmed : List String) : WriteOp → Prop
  | .tool (.respond (.broadcast broadcast)) =>
      Initialized confirmed broadcast.initTxHash ∧
        (broadcast.confirmed → broadcast.txHash ∈ confirmed)
  | .answer (.claimed result) =>
      Initialized confirmed result.initTxHash ∧
        ∀ claim ∈ result.claims, claim.confirmed → claim.txHash ∈ confirmed
  | _ => True

/-- An `Initialize` is reported in keeping with what has been confirmed. -/
abbrev Signing.Initialized (signing : Signing) (initTxHash : Option String) : Prop :=
  Mcp.Initialized signing.confirmed initTxHash

/-- An answer is in keeping with what has been confirmed. -/
abbrev Signing.Reports (signing : Signing) (op : WriteOp) : Prop := op.Reports signing.confirmed

/-- What an operation of a write tool rests on. -/
def signRule (history : History writes) (op : WriteOp) : Prop :=
  (signingOf history).Reports op ∧
    match op with
    | .tool .accept => False
    | .tool (.sendInitialize ..) | .tool (.sendTransfer ..) =>
        (signingOf history).locked ∧ (signingOf history).settled
    | .tool (.confirmSubmittedTx txHash _ _) =>
        (signingOf history).locked ∧ (signingOf history).last = some (.ok txHash)
    | .submitClaim _ | .dropClaim => (signingOf history).claiming
    | .confirmClaim txHash seed => (signingOf history).claiming ∧
        ∃ solved, (signingOf history).claimed = some (solved, .ok txHash) ∧ solved.seed = seed
    | _ => True

theorem signingOf_append (history : History writes) (exchange : Exchange writes) :
    signingOf (history ++ [exchange]) = (signingOf history).after exchange := by
  simp [signingOf]

/-- The operations that leave the locks and what is submitted under them alone. -/
def WriteOp.Still : WriteOp → Prop
  | .tool .accept | .tool .lockSignedWrite | .tool (.sendInitialize ..) | .tool (.sendTransfer ..)
  | .tool (.confirmSubmittedTx ..) | .tool (.respond _) | .dropSignedWrite | .lockClaim | .dropClaim
  | .submitClaim _ | .confirmClaim .. | .answer _ => False
  | _ => True

theorem Signing.after_still (signing : Signing) {op : WriteOp} {answer : WriteAnswer op}
    (still : op.Still) : signing.after ⟨op, answer⟩ = signing := by
  cases op with
  | tool op => cases op <;> first | rfl | exact still.elim
  | solveClaim => rfl
  | _ => exact still.elim

theorem signRule_still {history : History writes} {op : WriteOp} (still : op.Still) :
    signRule history op := by
  cases op with
  | tool op => cases op <;> first | exact ⟨trivial, trivial⟩ | exact still.elim
  | solveClaim => exact ⟨trivial, trivial⟩
  | _ => exact still.elim

/-- The rule for `lez_transfer` after a history of its call. -/
def toolSignRule (base : History writes) (history : History interface) (op : Op) : Prop :=
  signRule (whole base history) (.tool op)

section Transfer

variable {α β : Type} {ctx : Ctx} {base : History writes} {history : History interface}
  {signing : Signing} {post : History interface → Except CallToolResult β → Prop}

/-- An operation, and then the rest. -/
theorem sign_bind {op : Op} {rest : Answer op → Tool β}
    (here : signingOf (whole base history) = signing)
    (allowed : toolSignRule base history op)
    (next : ∀ answer, signingOf (whole base (history ++ [⟨op, answer⟩])) =
        signing.after ⟨.tool op, answer⟩ →
      Follows (toolSignRule base) post (rest answer).run (history ++ [⟨op, answer⟩])) :
    Follows (toolSignRule base) post (request op >>= rest).run history := by
  refine .request_bind allowed fun answer => next answer ?_
  rw [whole_append, signingOf_append, here]
  rfl

/-- An operation that leaves the locks alone, and then the rest. -/
theorem still_bind {op : Op} {rest : Answer op → Tool β}
    (here : signingOf (whole base history) = signing) (still : (WriteOp.tool op).Still)
    (next : ∀ answer, signingOf (whole base (history ++ [⟨op, answer⟩])) = signing →
      Follows (toolSignRule base) post (rest answer).run (history ++ [⟨op, answer⟩])) :
    Follows (toolSignRule base) post (request op >>= rest).run history := by
  refine sign_bind here (signRule_still still) fun answer there => next answer ?_
  rw [there, Signing.after_still _ still]

/-- Refuse, or go on with what was there. -/
theorem refusing_bind {refusal : String → Refusal} {result : Except String α} {rest : α → Tool β}
    (refused : ∀ e, post history (.error (.refused (refusal e))))
    (next : ∀ value, Follows (toolSignRule base) post (rest value).run history) :
    Follows (toolSignRule base) post (orRefuse refusal result >>= rest).run history := by
  cases result with
  | error e => exact refused e
  | ok value => exact next value

/-- The gate may be checked at any time. -/
theorem gated_bind {rest : Unit → Tool β} (here : signingOf (whole base history) = signing)
    (refused : ∀ later fingerprint, post later (.error (.refused (.writesDisabled fingerprint))))
    (next : ∀ later, signingOf (whole base later) = signing →
      Follows (toolSignRule base) post (rest ()).run later) :
    Follows (toolSignRule base) post (ensureFreshWriteGate >>= rest).run history := by
  refine Follows.run_bind_iff.mpr ⟨signRule_still trivial, fun answer => ?_⟩
  cases answer with
  | error fingerprint => exact refused _ fingerprint
  | ok =>
      refine next _ ?_
      rw [whole_append, signingOf_append, here]
      rfl

/-- What is thrown reports nothing. -/
def CallToolResult.Silent : CallToolResult → Prop
  | .broadcast _ => False
  | _ => True

/-- A part of `lez_transfer` has come to a value in this standing, or throws. -/
def SignsTo {α : Type} (base : History writes) (holds : Signing → α → Prop)
    (later : History interface) : Except CallToolResult α → Prop
  | .ok value => holds (signingOf (whole base later)) value
  | .error result => result.Silent

/-- The lock is held, and what was submitted under it is confirmed. -/
structure Signing.Ready (signing : Signing) (initTxHash : Option String) : Prop where
  locked : signing.locked
  settled : signing.settled
  initialized : signing.Initialized initTxHash

theorem initializeSignerAccount_signs {signer : AccountId}
    (here : signingOf (whole base history) = signing) (ready : signing.Ready none) :
    Follows (toolSignRule base) (SignsTo base fun later txHash => later.Ready (some txHash))
      (initializeSignerAccount ctx signer).run history := by
  refine still_bind here trivial fun answer here => ?_
  refine refusing_bind (fun e => trivial) fun existing => ?_
  refine Follows.run_ite_iff.mpr ⟨fun _ => ?_, fun _ => ?_⟩
  · refine ⟨?_, ?_, fun txHash same => .inl (Option.some.inj same).symm⟩
    · rw [here]
      exact ready.locked
    · rw [here]
      exact ready.settled
  refine still_bind here trivial fun answer here => ?_
  refine refusing_bind (fun e => trivial) fun nonces => ?_
  refine sign_bind here ⟨trivial, ?_⟩ fun answer here => ?_
  · rw [here]
    exact ⟨ready.locked, ready.settled⟩
  cases answer with
  | error e => trivial
  | ok txHash =>
  refine sign_bind here ⟨trivial, ?_⟩ fun answer here => ?_
  · rw [here]
    exact ⟨ready.locked, rfl⟩
  rcases answer with e | ⟨confirmed, strength⟩
  · trivial
  cases confirmed with
  | false => trivial
  | true =>
  refine still_bind here trivial fun answer here => ?_
  refine refusing_bind (fun e => trivial) fun account => ?_
  refine Follows.run_ite_iff.mpr ⟨fun _ => trivial, fun _ => ?_⟩
  refine ⟨?_, ?_, fun txHash' same => .inr ?_⟩
  · rw [here]
    exact ready.locked
  · rw [here]
    rfl
  · rw [here, ← Option.some.inj same]
    exact List.mem_cons_self

theorem initializeFirst_signs {signer : AccountId} {senderNeedsInit : Bool}
    (here : signingOf (whole base history) = signing) (ready : signing.Ready none) :
    Follows (toolSignRule base) (SignsTo base fun later initTxHash => later.Ready initTxHash)
      (initializeFirst ctx signer senderNeedsInit).run history := by
  refine Follows.run_ite_iff.mpr ⟨fun _ => ?_, fun _ => ?_⟩
  · refine Follows.run_bind_iff.mpr ((initializeSignerAccount_signs here ready).weaken ?_)
    intro later result comes
    cases result with
    | error result => exact comes
    | ok txHash => exact comes
  · change Signing.Ready _ none
    rw [here]
    exact ready

/-- A transfer has been submitted, and nothing else since it was ready. -/
structure Signing.Sent (signing : Signing) (initTxHash : Option String) (txHash : String) : Prop where
  locked : signing.locked
  last : signing.last = some (.ok txHash)
  initialized : signing.Initialized initTxHash

theorem transfer_signs {signer toId : AccountId} {amount : U128} {initTxHash : Option String}
    (here : signingOf (whole base history) = signing) (ready : signing.Ready initTxHash) :
    Follows (toolSignRule base) (SignsTo base fun later txHash => later.Sent initTxHash txHash)
      (transfer signer toId amount).run history := by
  refine still_bind here trivial fun answer here => ?_
  cases answer with
  | error e => trivial
  | ok nonces =>
      refine sign_bind here ⟨trivial, ?_⟩ fun answer here => ?_
      · rw [here]
        exact ⟨ready.locked, ready.settled⟩
      cases answer with
      | error e => trivial
      | ok txHash =>
          change Signing.Sent _ initTxHash txHash
          rw [here]
          exact ⟨ready.locked, rfl, ready.initialized⟩

/-- What `lez_transfer` returns has been confirmed as far as it says so. -/
abbrev ReportsResult (signing : Signing) (result : CallToolResult) : Prop :=
  signing.Reports (.tool (.respond result))

theorem CallToolResult.Silent.reports {result : CallToolResult} (silent : result.Silent)
    (signing : Signing) : ReportsResult signing result := by
  cases result with
  | broadcast => exact silent.elim
  | _ => trivial

theorem submitTransfer_signs {fromId toId : AccountId} {amount toBalance : U128}
    {senderNeedsInit : Bool} (here : signingOf (whole base history) = signing)
    (ready : signing.Ready none) :
    Follows (toolSignRule base) (SignsTo base ReportsResult)
      (submitTransfer ctx fromId toId amount senderNeedsInit toBalance).run history := by
  refine gated_bind here (fun _ _ => trivial) fun later here => ?_
  refine Follows.run_bind_iff.mpr ((initializeFirst_signs here ready).weaken fun later result comes => ?_)
  cases result with
  | error result => exact comes
  | ok initTxHash =>
  refine gated_bind rfl (fun _ _ => trivial) fun after here => ?_
  refine still_bind here trivial fun answer here => ?_
  refine refusing_bind (fun e => trivial) fun currentBalance => ?_
  refine Follows.run_ite_iff.mpr ⟨fun _ => trivial, fun _ => ?_⟩
  refine still_bind here trivial fun answer here => ?_
  refine refusing_bind (fun e => trivial) fun nonces => ?_
  refine Follows.run_bind_iff.mpr ((transfer_signs here comes).weaken fun last result sent => ?_)
  cases result with
  | error result => exact sent
  | ok txHash =>
  refine sign_bind rfl ⟨trivial, sent.locked, sent.last⟩ fun answer here => ?_
  rcases answer with e | ⟨confirmed, confirmation⟩
  · trivial
  refine still_bind here trivial fun answer here => ?_
  refine ⟨?_, fun confirms => ?_⟩
  · rw [here]
    cases confirmed with
    | false => exact sent.initialized
    | true => exact fun hash same => (sent.initialized hash same).imp_right (List.mem_cons_of_mem _)
  · obtain rfl : confirmed = true := confirms
    rw [here]
    exact List.mem_cons_self

theorem previewTransfer_signs {fromId toId : AccountId} {amount : U128}
    {fromAccount toAccount : Account} {senderInitialized : Bool} :
    Follows (toolSignRule base) (SignsTo base ReportsResult) (previewTransfer fromId toId amount
      fromAccount toAccount senderInitialized).run history := by
  refine still_bind rfl trivial fun random here => ?_
  refine still_bind here trivial fun readings here => ?_
  exact still_bind here trivial fun _ here => trivial

theorem confirmTransfer_signs {previewToken : Option String} {fromId toId : AccountId} {amount : U128}
    {fromAccount toAccount : Account} {senderInitialized : Bool} :
    Follows (toolSignRule base) (SignsTo base ReportsResult) (confirmTransfer ctx previewToken fromId
      toId amount fromAccount toAccount senderInitialized).run history := by
  cases previewToken with
  | none => trivial
  | some token =>
  refine still_bind rfl trivial fun answer here => ?_
  obtain ⟨now, check⟩ := answer
  cases check with
  | Missing => trivial
  | Expired => trivial
  | Mismatch => trivial
  | Ok =>
      refine gated_bind here (fun _ _ => trivial) fun later here => ?_
      refine Follows.run_ite_iff.mpr ⟨fun _ => trivial, fun _ => ?_⟩
      refine Follows.run_ite_iff.mpr ⟨fun _ => trivial, fun _ => ?_⟩
      refine Follows.run_ite_iff.mpr ⟨fun _ => trivial, fun _ => ?_⟩
      refine sign_bind here ⟨trivial, trivial⟩ fun _ here => ?_
      exact submitTransfer_signs here ⟨rfl, rfl, nofun⟩

theorem lezTransfer_signs {params : TransferParams} :
    Follows (toolSignRule base) (SignsTo base ReportsResult) (lezTransfer ctx params).run history := by
  unfold lezTransfer
  cases ctx.signer with
  | none => trivial
  | some fromId =>
  cases ctx.base58.parse params.to_ with
  | error e => trivial
  | ok toId =>
  cases parseU128 params.amount with
  | error e => trivial
  | ok amount =>
  refine Follows.run_ite_iff.mpr ⟨fun _ => trivial, fun _ => ?_⟩
  refine still_bind rfl trivial fun answer here => ?_
  refine refusing_bind (fun e => trivial) fun fromAccount => ?_
  refine still_bind here trivial fun answer here => ?_
  refine refusing_bind (fun e => trivial) fun toAccount => ?_
  exact Follows.run_ite_iff.mpr ⟨fun _ => confirmTransfer_signs, fun _ => previewTransfer_signs⟩

end Transfer

section Faucet

variable {α β : Type} {ctx : Ctx} {history : History writes} {signing : Signing}
  {post : History writes → Except FaucetAnswer β → Prop}

/-- An operation of the faucet tool, and then the rest. -/
theorem claim_bind {op : WriteOp} {rest : WriteAnswer op → Faucet β}
    (here : signingOf history = signing) (allowed : signRule history op)
    (next : ∀ answer, signingOf (history ++ [⟨op, answer⟩]) = signing.after ⟨op, answer⟩ →
      Follows signRule post (rest answer).run (history ++ [⟨op, answer⟩])) :
    Follows signRule post (write op >>= rest).run history := by
  refine .request_bind allowed fun answer => next answer ?_
  rw [signingOf_append, here]

/-- An operation that leaves the locks alone, and then the rest. -/
theorem calm_bind {op : WriteOp} {rest : WriteAnswer op → Faucet β}
    (here : signingOf history = signing) (still : op.Still)
    (next : ∀ answer, signingOf (history ++ [⟨op, answer⟩]) = signing →
      Follows signRule post (rest answer).run (history ++ [⟨op, answer⟩])) :
    Follows signRule post (write op >>= rest).run history := by
  refine claim_bind here (signRule_still still) fun answer there => next answer ?_
  rw [there, Signing.after_still _ still]

theorem orFailing_bind {message : String → String} {result : Except String α} {rest : α → Faucet β}
    (failed : ∀ e, post history (.error (.failed e)))
    (next : ∀ value, Follows signRule post (rest value).run history) :
    Follows signRule post (orFail message result >>= rest).run history := by
  cases result with
  | error e => exact failed _
  | ok value => exact next value

/-- What is thrown reports nothing. -/
def FaucetAnswer.Silent : FaucetAnswer → Prop
  | .claimed _ => False
  | _ => True

/-- A part of the faucet tool has come to a value in this standing, or throws. -/
def FaucetTo {α : Type} (holds : Signing → α → Prop) (later : History writes) :
    Except FaucetAnswer α → Prop
  | .ok value => holds (signingOf later) value
  | .error answer => answer.Silent

theorem signingOf_whole {base : History writes} : signingOf (whole base []) = signingOf base := by
  rw [whole, List.map_nil, List.append_nil]

theorem initializeUnderLock_signs {signer : AccountId} :
    Follows signRule (FaucetTo fun later txHash => later.Initialized (some txHash))
      (initializeUnderLock ctx signer).run history := by
  refine claim_bind rfl ⟨trivial, trivial⟩ fun _ here => ?_
  refine calm_bind here trivial fun answer here => ?_
  cases answer with
  | error fingerprint => exact ⟨⟨trivial, trivial⟩, fun _ => trivial⟩
  | ok =>
  have ready : (signingOf history |>.after ⟨.tool .lockSignedWrite, ()⟩).Ready none :=
    ⟨rfl, rfl, nofun⟩
  have initialized : Follows signRule (fun later outcome =>
      match outcome with
      | .ok txHash => (signingOf later).Ready (some txHash)
      | .error result => result.Silent) ((initializeSignerAccount ctx signer).run.embed ofTool)
      (history ++ [⟨.tool .lockSignedWrite, ()⟩] ++ [⟨.tool .ensureFreshWriteGate, Except.ok ()⟩]) :=
    embed_rests ((initializeSignerAccount_signs (signingOf_whole.trans here) ready).weaken
      fun later outcome comes => by cases outcome <;> exact comes)
  refine Follows.run_bind_iff.mpr ?_
  rw [ExceptT.run_lift]
  refine Follows.bind_iff.mpr (initialized.weaken fun later outcome comes => ?_)
  refine claim_bind rfl ⟨trivial, trivial⟩ fun _ here => ?_
  cases outcome with
  | ok txHash =>
      change Signing.Initialized _ (some txHash)
      rw [here]
      exact comes.initialized
  | error result =>
      cases result with
      | refused refusal => trivial
      | _ => trivial

theorem ensureAccount_signs {accountId : AccountId} :
    Follows signRule (FaucetTo fun later initTxHash => later.Initialized initTxHash)
      (ensureAccount ctx accountId).run history := by
  refine calm_bind rfl trivial fun answer here => ?_
  refine orFailing_bind (fun e => trivial) fun account => ?_
  refine Follows.run_ite_iff.mpr ⟨fun _ => nofun, fun _ => ?_⟩
  refine Follows.run_ite_iff.mpr ⟨fun _ => ?_, fun _ => trivial⟩
  refine Follows.run_bind_iff.mpr (initializeUnderLock_signs.weaken ?_)
  intro later result comes
  cases result with
  | ok txHash => exact comes
  | error answer => exact comes

/-- What is told of an account's `Initialize` and of the claims made so far. -/
structure Signing.Tells (signing : Signing) (initTxHash : Option String) (claims : List Claim) :
    Prop where
  initialized : signing.Initialized initTxHash
  confirmed : ∀ claim ∈ claims, claim.confirmed → claim.txHash ∈ signing.confirmed

theorem Signing.Tells.grow {signing later : Signing} {initTxHash : Option String}
    {claims : List Claim} (tells : signing.Tells initTxHash claims)
    (grown : signing.confirmed ⊆ later.confirmed) : later.Tells initTxHash claims :=
  ⟨fun txHash same => (tells.initialized txHash same).imp_right (grown ·),
    fun claim member confirms => grown (tells.confirmed claim member confirms)⟩

/-- What one claim comes to: what was told before still holds, and it is confirmed if it says so. -/
def ClaimComes (initTxHash : Option String) (claims : List Claim) (later : Signing)
    (came : U128 × Option (Except String (SolvedClaim × String × Bool × String))) : Prop :=
  later.Tells initTxHash claims ∧ ∀ solved txHash confirmation,
    came.2 = some (.ok (solved, txHash, true, confirmation)) → txHash ∈ later.confirmed

theorem claimOnce_signs {accountId : AccountId} {target : Option U128} {balance : U128}
    {initTxHash : Option String} {claims : List Claim} (here : signingOf history = signing)
    (tells : signing.Tells initTxHash claims) :
    Follows signRule (FaucetTo (ClaimComes initTxHash claims))
      (claimOnce accountId target balance).run history := by
  refine claim_bind here ⟨trivial, trivial⟩ fun _ here => ?_
  refine calm_bind here trivial fun answer here => ?_
  -- a claim that is given up drops its guard and tells nothing new
  have given : ∀ {later : History writes} {confirmed : List String} {claimed : Option _}
      {came : U128 × Option (Except String (SolvedClaim × String × Bool × String))},
      signingOf later = { signing with claiming := true, claimed, confirmed } →
      signing.confirmed ⊆ confirmed →
      (∀ solved txHash confirmation, came.2 = some (.ok (solved, txHash, true, confirmation)) →
        txHash ∈ confirmed) →
      Follows signRule (FaucetTo (ClaimComes initTxHash claims))
        (do let _ ← write .dropClaim; return came : Faucet _).run later := by
    intro later confirmed claimed came there grown confirms
    have claiming : (signingOf later).claiming := by rw [there]
    refine claim_bind there ⟨trivial, claiming⟩ fun _ there => ?_
    refine ⟨?_, fun solved txHash confirmation same => ?_⟩
    · rw [there]
      exact tells.grow grown
    · rw [there]
      exact confirms solved txHash confirmation same
  refine Follows.run_ite_iff.mpr ⟨fun _ => given here (List.Subset.refl _) nofun, fun _ => ?_⟩
  refine calm_bind here trivial fun answer here => ?_
  cases answer with
  | error e => exact given here (List.Subset.refl _) nofun
  | ok solved =>
  refine calm_bind here trivial fun answer here => ?_
  cases answer with
  | error fingerprint =>
      refine claim_bind here ⟨trivial, ?_⟩ fun _ here => trivial
      change (signingOf _).claiming
      rw [here]
      rfl
  | ok =>
  refine claim_bind here ⟨trivial, ?_⟩ fun answer here => ?_
  · rw [here]
    rfl
  cases answer with
  | error e => exact given here (List.Subset.refl _) nofun
  | ok txHash =>
  refine claim_bind here ⟨trivial, ?_⟩ fun outcome here => ?_
  · rw [here]
    exact ⟨rfl, solved, rfl, rfl⟩
  rcases outcome with e | ⟨confirmed, confirmation⟩
  · exact given here (List.Subset.refl _) nofun
  cases confirmed with
  | false => exact given here (List.Subset.refl _) nofun
  | true =>
      refine given here (List.subset_cons_self _ _) fun solved txHash confirmation same => ?_
      cases same
      exact List.mem_cons_self

theorem claimLoop_signs {accountId : AccountId} {target : Option U128} {turns : Nat} {balance : U128}
    {initTxHash : Option String} {claims : List Claim} (here : signingOf history = signing)
    (tells : signing.Tells initTxHash claims) :
    Follows signRule (FaucetTo fun later (came : U128 × List Claim × Option String) =>
      later.Tells initTxHash came.2.1) (claimLoop accountId target turns balance claims).run history := by
  induction turns generalizing history signing balance claims with
  | zero =>
      change Signing.Tells _ initTxHash claims
      rw [here]
      exact tells
  | succ turns ih =>
      refine Follows.run_ite_iff.mpr ⟨fun _ => ?_, fun _ => ?_⟩
      · change Signing.Tells _ initTxHash claims
        rw [here]
        exact tells
      refine Follows.run_bind_iff.mpr ((claimOnce_signs here tells).weaken fun later result comes => ?_)
      cases result with
      | error answer => exact comes
      | ok outcome =>
          obtain ⟨tells, confirms⟩ := comes
          obtain ⟨balance, outcome⟩ := outcome
          rcases outcome with _ | _ | ⟨solved, txHash, confirmed, confirmation⟩
          · exact tells
          · exact tells
          · refine calm_bind rfl trivial fun answer here => ?_
            extract_lets balance' claims'
            have tells : (signingOf later).Tells initTxHash claims' := by
              refine ⟨tells.initialized, fun claim member confirmed' => ?_⟩
              rcases List.mem_append.mp member with earlier | last
              · exact tells.confirmed claim earlier confirmed'
              · obtain rfl := List.mem_singleton.mp last
                obtain rfl : confirmed = true := confirmed'
                exact confirms solved txHash confirmation rfl
            have told : ∀ warning : Option String, FaucetTo (fun later
                (came : U128 × List Claim × Option String) => later.Tells initTxHash came.2.1)
                (later ++ [⟨.tool (.getAccountBalance accountId), answer⟩])
                (.ok (balance', claims', warning)) := by
              intro warning
              change Signing.Tells _ initTxHash claims'
              rw [here]
              exact tells
            refine Follows.run_ite_iff.mpr ⟨fun _ => told _, fun _ => ?_⟩
            exact Follows.run_ite_iff.mpr ⟨fun _ => told _, fun _ => ih here tells⟩

theorem lezFaucetClaim_signs {params : FaucetParams} :
    Follows signRule (FaucetTo fun later result => later.Reports (.answer (.claimed result)))
      (lezFaucetClaim ctx params).run history := by
  refine calm_bind rfl trivial fun answer here => ?_
  cases answer with
  | error fingerprint => trivial
  | ok =>
  dsimp only
  cases ctx.base58.parse params.accountId with
  | error e => trivial
  | ok accountId =>
  cases params.targetBalance.mapM parseU128 with
  | error e => trivial
  | ok target =>
  refine Follows.run_bind_iff.mpr (ensureAccount_signs.weaken fun later result comes => ?_)
  cases result with
  | error answer => exact comes
  | ok initTxHash =>
  refine calm_bind rfl trivial fun answer here => ?_
  refine orFailing_bind (fun e => trivial) fun startBalance => ?_
  have tells : (signingOf later).Tells initTxHash [] := ⟨comes, by simp⟩
  refine Follows.run_bind_iff.mpr ((claimLoop_signs here tells).weaken fun later result comes => ?_)
  cases result with
  | error answer => exact comes
  | ok outcome =>
      obtain ⟨balance, claims, incomplete⟩ := outcome
      exact ⟨comes.initialized, comes.confirmed⟩

end Faucet

/-- A call of `lez_faucet_claim` keeps to the rule. -/
theorem faucetCall_signs {ctx : Ctx} {params : FaucetParams} {history : History writes} :
    Follows signRule (fun _ _ => True) (faucetCall ctx params) history := by
  refine Follows.bind_iff.mpr (lezFaucetClaim_signs.weaken fun later result comes => ?_)
  cases result with
  | ok result => exact ⟨⟨comes, trivial⟩, fun _ => trivial⟩
  | error answer =>
      cases answer with
      | claimed result => exact comes.elim
      | _ => exact ⟨⟨trivial, trivial⟩, fun _ => trivial⟩

/-- A transfer has come to a result that reports what was signed, or to an error. -/
def ReportsOutcome (later : History writes) : Except CallToolResult CallToolResult → Prop
  | .ok result => ReportsResult (signingOf later) result
  | .error result => result.Silent

/-- A call of `lez_transfer` keeps to the rule. -/
theorem transferCall_signs {ctx : Ctx} {params : TransferParams} {history : History writes} :
    Follows signRule (fun _ _ => True) (transferCall ctx params) history := by
  have embedded : Follows signRule ReportsOutcome ((lezTransfer ctx params).run.embed ofTool)
      history :=
    embed_rests (lezTransfer_signs.weaken fun later outcome comes => by cases outcome <;> exact comes)
  refine Follows.bind_iff.mpr (embedded.weaken fun later outcome comes => ?_)
  have reports : ∀ result, ReportsResult (signingOf later) result →
      Follows signRule (fun _ _ => True) (Program.perform (I := writes) (.tool (.respond result)))
        (later ++ [⟨.dropSignedWrite, ()⟩]) := by
    intro result told
    refine ⟨⟨?_, trivial⟩, fun _ => trivial⟩
    rw [signingOf_append]
    cases result <;> exact told
  refine ⟨⟨trivial, trivial⟩, fun answer => ?_⟩
  cases outcome with
  | ok result => exact reports result comes
  | error result => exact reports result (comes.reports _)

end AtomicSwaps.Mcp
