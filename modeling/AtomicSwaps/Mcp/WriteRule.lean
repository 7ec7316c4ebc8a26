import AtomicSwaps.Mcp.Faucet

/-!
# What the write tools rest on

Every submission of a write tool follows a check of the write gate that passed, with no
other submission between them; after a check that failed a call submits nothing any more
and answers that writes are disabled.
-/

namespace AtomicSwaps.Mcp

open Semantics
open Lez (AccountId Account)

/-- A transaction is submitted. -/
def WriteOp.Submits : WriteOp → Prop
  | .tool (.sendInitialize ..) | .tool (.sendTransfer ..) | .submitClaim _ => True
  | _ => False

/-- Where a call stands: a check has passed since its last submission, and one has failed. -/
structure Standing where
  gated : Bool
  refused : Bool

/-- Where a call stands after an exchange. -/
def Standing.after (standing : Standing) : Exchange writes → Standing
  | ⟨.tool .ensureFreshWriteGate, .ok _⟩ => { standing with gated := true }
  | ⟨.tool .ensureFreshWriteGate, .error _⟩ => ⟨false, true⟩
  | ⟨.tool (.sendInitialize ..), _⟩ | ⟨.tool (.sendTransfer ..), _⟩ | ⟨.submitClaim _, _⟩ =>
      { standing with gated := false }
  | _ => standing

/-- Where a call stands after a history. -/
def standingOf (history : History writes) : Standing := history.foldl Standing.after ⟨false, false⟩

/-- The answer that a refused write gets. -/
def WriteOp.SaysDisabled : WriteOp → Prop
  | .tool (.respond result) => ∃ fingerprint, result = .refused (.writesDisabled fingerprint)
  | .answer result => ∃ fingerprint, result = .writesDisabled fingerprint
  | _ => True

/-- What every operation of a write tool rests on. -/
def writeRule (history : History writes) (op : WriteOp) : Prop :=
  op ≠ .tool .accept ∧
    (op.Submits → (standingOf history).gated ∧ (standingOf history).refused = false) ∧
      ((standingOf history).refused → op.SaysDisabled)

/-- The operations of a call that neither check the gate nor submit or answer anything. -/
def WriteOp.Quiet : WriteOp → Prop
  | .tool .accept | .tool .ensureFreshWriteGate | .tool (.sendInitialize ..) | .tool (.sendTransfer ..)
  | .tool (.respond _) | .submitClaim _ | .answer _ => False
  | _ => True

/-- A call no check of which has failed. -/
structure Stands (history : History writes) (gated : Bool) : Prop where
  gated : (standingOf history).gated = gated
  clear : (standingOf history).refused = false

section Histories

variable {history : History writes} {op : WriteOp} {answer : WriteAnswer op} {gated : Bool}

theorem standingOf_append (history : History writes) (exchange : Exchange writes) :
    standingOf (history ++ [exchange]) = (standingOf history).after exchange := by
  simp [standingOf]

theorem Standing.after_quiet (standing : Standing) (quiet : op.Quiet) :
    standing.after ⟨op, answer⟩ = standing := by
  cases op with
  | tool op => cases op <;> first | rfl | exact quiet.elim
  | submitClaim => exact quiet.elim
  | _ => rfl

theorem Stands.quiet (stands : Stands history gated) (quiet : op.Quiet) :
    Stands (history ++ [⟨op, answer⟩]) gated := by
  constructor
  · rw [standingOf_append, Standing.after_quiet _ quiet]
    exact stands.gated
  · rw [standingOf_append, Standing.after_quiet _ quiet]
    exact stands.clear

theorem Stands.passed (stands : Stands history gated) :
    Stands (history ++ [⟨.tool .ensureFreshWriteGate, Except.ok ()⟩]) true := by
  constructor
  · rw [standingOf_append]
    rfl
  · rw [standingOf_append]
    exact stands.clear

theorem Stands.submitted (stands : Stands history gated) (submits : op.Submits) :
    Stands (history ++ [⟨op, answer⟩]) false := by
  cases op with
  | tool op =>
      cases op <;> first
        | exact submits.elim
        | exact ⟨by rw [standingOf_append]; rfl, by rw [standingOf_append]; exact stands.clear⟩
  | submitClaim => exact ⟨by rw [standingOf_append]; rfl, by rw [standingOf_append]; exact stands.clear⟩
  | _ => exact submits.elim

/-- A call that no check has refused may do anything but submit. -/
theorem Stands.may (stands : Stands history gated) (other : ¬ op.Submits)
    (call : op ≠ .tool .accept) : writeRule history op :=
  ⟨call, fun submits => (other submits).elim, fun refused => by simp [stands.clear] at refused⟩

/-- A call whose last check has passed may submit. -/
theorem Stands.may_submit (stands : Stands history true) (submits : op.Submits) :
    writeRule history op :=
  ⟨fun same => by simp [same, WriteOp.Submits] at submits, fun _ => ⟨stands.gated, stands.clear⟩,
    fun refused => by simp [stands.clear] at refused⟩

theorem WriteOp.Quiet.not_submits (quiet : op.Quiet) : ¬ op.Submits := by
  cases op with
  | tool op => cases op <;> first | exact id | exact quiet.elim
  | submitClaim => exact quiet.elim
  | _ => exact id

theorem WriteOp.Quiet.ne_accept (quiet : op.Quiet) : op ≠ .tool .accept := by
  rintro rfl
  exact quiet

theorem WriteOp.Quiet.disabled (quiet : op.Quiet) : op.SaysDisabled := by
  cases op with
  | tool op => cases op <;> trivial
  | answer => exact quiet.elim
  | _ => trivial

/-- A quiet operation may be performed at any time. -/
theorem writeRule_quiet (quiet : op.Quiet) : writeRule history op :=
  ⟨quiet.ne_accept, fun submits => (quiet.not_submits submits).elim, fun _ => quiet.disabled⟩

end Histories

/-- What a part of `lez_transfer` comes to: a call that stands, or one whose refusal says that
writes are disabled. -/
def Comes {α : Type} (later : History writes) : Except CallToolResult α → Prop
  | .ok _ => ∃ gated, Stands later gated
  | .error result =>
      (∃ gated, Stands later gated) ∨ ∃ fingerprint, result = .refused (.writesDisabled fingerprint)

/-- The exchanges of `lez_transfer` among those of the write tools. -/
def toolExchange (exchange : Exchange interface) : Exchange writes := ⟨.tool exchange.op, exchange.answer⟩

/-- The rule for `lez_transfer` after a history of its call. -/
def toolRule (base : History writes) (history : History interface) (op : Op) : Prop :=
  writeRule (base ++ history.map toolExchange) (.tool op)

section Transfer

variable {α β : Type} {ctx : Ctx} {base : History writes} {history : History interface}
  {gated : Bool} {post : History interface → Except CallToolResult β → Prop}

/-- The history of a call after a part of `lez_transfer`. -/
abbrev whole (base : History writes) (history : History interface) : History writes :=
  base ++ history.map toolExchange

theorem whole_append (base : History writes) (history : History interface)
    (exchange : Exchange interface) :
    whole base (history ++ [exchange]) = whole base history ++ [toolExchange exchange] := by
  simp [whole]

/-- A quiet operation, and then the rest. -/
theorem tool_bind {op : Op} {rest : Answer op → Tool β} (stands : Stands (whole base history) gated)
    (quiet : (WriteOp.tool op).Quiet)
    (next : ∀ answer, Stands (whole base (history ++ [⟨op, answer⟩])) gated →
      Follows (toolRule base) post (rest answer).run (history ++ [⟨op, answer⟩])) :
    Follows (toolRule base) post (request op >>= rest).run history := by
  refine .request_bind (writeRule_quiet quiet) fun answer => next answer ?_
  rw [whole_append]
  exact stands.quiet quiet

/-- Refuse, or go on with what was there. -/
theorem refuse_bind {refusal : String → Refusal} {result : Except String α} {rest : α → Tool β}
    (refused : ∀ e, post history (.error (.refused (refusal e))))
    (next : ∀ value, Follows (toolRule base) post (rest value).run history) :
    Follows (toolRule base) post (orRefuse refusal result >>= rest).run history := by
  cases result with
  | error e => exact refused e
  | ok value => exact next value

/-- Check the gate, and go on if it passes. -/
theorem gate_bind {rest : Unit → Tool β} (stands : Stands (whole base history) gated)
    (refused : ∀ later fingerprint, post later (.error (.refused (.writesDisabled fingerprint))))
    (next : ∀ later, Stands (whole base later) true →
      Follows (toolRule base) post (rest ()).run later) :
    Follows (toolRule base) post (ensureFreshWriteGate >>= rest).run history := by
  refine Follows.run_bind_iff.mpr ⟨stands.may id nofun, fun answer => ?_⟩
  cases answer with
  | error fingerprint => exact refused _ fingerprint
  | ok =>
      refine next _ ?_
      rw [whole_append]
      exact stands.passed

/-- Submit, and then the rest. -/
theorem submit_bind {op : Op} {rest : Answer op → Tool β} (stands : Stands (whole base history) true)
    (submits : (WriteOp.tool op).Submits)
    (next : ∀ answer, Stands (whole base (history ++ [⟨op, answer⟩])) false →
      Follows (toolRule base) post (rest answer).run (history ++ [⟨op, answer⟩])) :
    Follows (toolRule base) post (request op >>= rest).run history := by
  refine .request_bind (stands.may_submit submits) fun answer => next answer ?_
  rw [whole_append]
  exact stands.submitted submits

/-- What a part of `lez_transfer` comes to, after a history of its call. -/
abbrev ComesTo (base : History writes) (later : History interface)
    (result : Except CallToolResult α) : Prop :=
  Comes (whole base later) result

/-- Initializing the sender comes to no check. -/
theorem initializeSignerAccount_rests {signer : AccountId} (stands : Stands (whole base history) true) :
    Follows (toolRule base) (fun later _ => ∃ gated, Stands (whole base later) gated)
      (initializeSignerAccount ctx signer).run history := by
  refine tool_bind stands trivial fun answer stands => ?_
  refine refuse_bind (fun e => ⟨_, stands⟩) fun existing => ?_
  refine Follows.run_ite_iff.mpr ⟨fun _ => ⟨_, stands⟩, fun _ => ?_⟩
  refine tool_bind stands trivial fun answer stands => ?_
  refine refuse_bind (fun e => ⟨_, stands⟩) fun nonces => ?_
  refine submit_bind stands trivial fun answer stands => ?_
  refine refuse_bind (fun e => ⟨_, stands⟩) fun txHash => ?_
  refine tool_bind stands trivial fun answer stands => ?_
  refine refuse_bind (fun e => ⟨_, stands⟩) fun confirmation => ?_
  refine Follows.run_ite_iff.mpr ⟨fun _ => ⟨_, stands⟩, fun _ => ?_⟩
  refine tool_bind stands trivial fun answer stands => ?_
  refine refuse_bind (fun e => ⟨_, stands⟩) fun account => ?_
  exact Follows.run_ite_iff.mpr ⟨fun _ => ⟨_, stands⟩, fun _ => ⟨_, stands⟩⟩

theorem initializeFirst_rests {signer : AccountId} {senderNeedsInit : Bool}
    (stands : Stands (whole base history) true) :
    Follows (toolRule base) (ComesTo base) (initializeFirst ctx signer senderNeedsInit).run history := by
  refine Follows.run_ite_iff.mpr ⟨fun _ => ?_, fun _ => ⟨_, stands⟩⟩
  refine Follows.run_bind_iff.mpr ((initializeSignerAccount_rests stands).weaken ?_)
  intro later result stands
  cases result with
  | error result => exact .inl stands
  | ok txHash => exact stands

theorem transfer_rests {signer toId : AccountId} {amount : U128}
    (stands : Stands (whole base history) true) :
    Follows (toolRule base) (ComesTo base) (transfer signer toId amount).run history := by
  refine tool_bind stands trivial fun answer stands => ?_
  cases answer with
  | error e => exact .inl ⟨_, stands⟩
  | ok nonces =>
      refine submit_bind stands trivial fun answer stands => ?_
      cases answer with
      | error e => exact .inl ⟨_, stands⟩
      | ok txHash => exact ⟨_, stands⟩

theorem submitTransfer_rests {fromId toId : AccountId} {amount toBalance : U128}
    {senderNeedsInit : Bool} (stands : Stands (whole base history) gated) :
    Follows (toolRule base) (ComesTo base)
      (submitTransfer ctx fromId toId amount senderNeedsInit toBalance).run history := by
  refine gate_bind stands (fun _ fingerprint => .inr ⟨fingerprint, rfl⟩) fun later stands => ?_
  refine Follows.run_bind_iff.mpr ((initializeFirst_rests stands).weaken fun later result comes => ?_)
  cases result with
  | error result => exact comes
  | ok initTxHash =>
  obtain ⟨_, stands⟩ := comes
  refine gate_bind stands (fun _ fingerprint => .inr ⟨fingerprint, rfl⟩) fun later stands => ?_
  refine tool_bind stands trivial fun answer stands => ?_
  refine refuse_bind (fun e => .inl ⟨_, stands⟩) fun currentBalance => ?_
  refine Follows.run_ite_iff.mpr ⟨fun _ => .inl ⟨_, stands⟩, fun _ => ?_⟩
  refine tool_bind stands trivial fun answer stands => ?_
  refine refuse_bind (fun e => .inl ⟨_, stands⟩) fun nonces => ?_
  refine Follows.run_bind_iff.mpr ((transfer_rests stands).weaken fun later result comes => ?_)
  cases result with
  | error result => exact comes
  | ok txHash =>
  obtain ⟨_, stands⟩ := comes
  refine tool_bind stands trivial fun answer stands => ?_
  cases answer with
  | error e => exact .inl ⟨_, stands⟩
  | ok confirmation => exact tool_bind stands trivial fun answer stands => ⟨_, stands⟩

theorem previewTransfer_rests {fromId toId : AccountId} {amount : U128}
    {fromAccount toAccount : Account} {senderInitialized : Bool}
    (stands : Stands (whole base history) gated) :
    Follows (toolRule base) (ComesTo base) (previewTransfer fromId toId amount fromAccount toAccount
      senderInitialized).run history := by
  refine tool_bind stands trivial fun random stands => ?_
  refine tool_bind stands trivial fun readings stands => ?_
  exact tool_bind stands trivial fun _ stands => ⟨_, stands⟩

theorem confirmTransfer_rests {previewToken : Option String} {fromId toId : AccountId} {amount : U128}
    {fromAccount toAccount : Account} {senderInitialized : Bool}
    (stands : Stands (whole base history) gated) :
    Follows (toolRule base) (ComesTo base) (confirmTransfer ctx previewToken fromId toId amount
      fromAccount toAccount senderInitialized).run history := by
  cases previewToken with
  | none => exact .inl ⟨_, stands⟩
  | some token =>
  refine tool_bind stands trivial fun answer stands => ?_
  obtain ⟨now, check⟩ := answer
  cases check with
  | Missing => exact .inl ⟨_, stands⟩
  | Expired => exact .inl ⟨_, stands⟩
  | Mismatch => exact .inl ⟨_, stands⟩
  | Ok =>
      refine gate_bind stands (fun _ fingerprint => .inr ⟨fingerprint, rfl⟩) fun later stands => ?_
      refine Follows.run_ite_iff.mpr ⟨fun _ => .inl ⟨_, stands⟩, fun _ => ?_⟩
      refine Follows.run_ite_iff.mpr ⟨fun _ => .inl ⟨_, stands⟩, fun _ => ?_⟩
      refine Follows.run_ite_iff.mpr ⟨fun _ => .inl ⟨_, stands⟩, fun _ => ?_⟩
      exact tool_bind stands trivial fun _ stands => submitTransfer_rests stands

theorem lezTransfer_rests {params : TransferParams} (stands : Stands (whole base history) gated) :
    Follows (toolRule base) (ComesTo base) (lezTransfer ctx params).run history := by
  unfold lezTransfer
  cases ctx.signer with
  | none => exact .inl ⟨_, stands⟩
  | some fromId =>
  cases ctx.base58.parse params.to_ with
  | error e => exact .inl ⟨_, stands⟩
  | ok toId =>
  cases parseU128 params.amount with
  | error e => exact .inl ⟨_, stands⟩
  | ok amount =>
  refine Follows.run_ite_iff.mpr ⟨fun _ => .inl ⟨_, stands⟩, fun _ => ?_⟩
  refine tool_bind stands trivial fun answer stands => ?_
  refine refuse_bind (fun e => .inl ⟨_, stands⟩) fun fromAccount => ?_
  refine tool_bind stands trivial fun answer stands => ?_
  refine refuse_bind (fun e => .inl ⟨_, stands⟩) fun toAccount => ?_
  exact Follows.run_ite_iff.mpr ⟨fun _ => confirmTransfer_rests stands,
    fun _ => previewTransfer_rests stands⟩

end Transfer

/-- A part of `lez_transfer` among the write tools keeps to a rule of theirs. -/
theorem embed_rests {α : Type} {rule : History writes → WriteOp → Prop}
    {program : Program interface α} {base : History writes} {post : History writes → α → Prop}
    (rests : Follows (fun history op => rule (whole base history) (.tool op))
      (fun later result => post (whole base later) result) program []) :
    Follows rule post (program.embed ofTool) base := by
  have embedded : Follows rule (fun later result =>
      ∃ history, later = whole base history ∧ post (whole base history) result)
      (program.embed ofTool) base := by
    refine Follows.embed (fun history below => below = whole base history)
      (fun same allowed => same ▸ allowed) (fun answer same => ?_) (by simp [whole]) rests
    rw [same, whole_append]
    rfl
  refine embedded.weaken fun later result kept => ?_
  obtain ⟨history, rfl, comes⟩ := kept
  exact comes

/-- A call of which nothing has been done in `lez_transfer`. -/
theorem Stands.whole {base : History writes} {gated : Bool} (stands : Stands base gated) :
    Stands (whole base []) gated := by
  simpa [Mcp.whole] using stands

section Faucet

variable {α β : Type} {ctx : Ctx} {history : History writes} {gated : Bool}
  {post : History writes → Except FaucetAnswer β → Prop}

/-- What a part of `lez_faucet_claim` comes to. -/
def FaucetComes (later : History writes) : Except FaucetAnswer α → Prop
  | .ok _ => ∃ gated, Stands later gated
  | .error answer =>
      (∃ gated, Stands later gated) ∨ ∃ fingerprint, answer = .writesDisabled fingerprint

theorem write_bind {op : WriteOp} {rest : WriteAnswer op → Faucet β} (stands : Stands history gated)
    (quiet : op.Quiet)
    (next : ∀ answer, Stands (history ++ [⟨op, answer⟩]) gated →
      Follows writeRule post (rest answer).run (history ++ [⟨op, answer⟩])) :
    Follows writeRule post (write op >>= rest).run history :=
  .request_bind (writeRule_quiet quiet) fun answer => next answer (stands.quiet quiet)

/-- Check the gate: the refusal says that writes are disabled, whatever is done before it. -/
theorem check_bind {rest : Except String Unit → Faucet β} (stands : Stands history gated)
    (refused : ∀ fingerprint later, (standingOf later).refused →
      Follows writeRule post (rest (.error fingerprint)).run later)
    (next : Stands (history ++ [⟨.tool .ensureFreshWriteGate, Except.ok ()⟩]) true →
      Follows writeRule post (rest (.ok ())).run
        (history ++ [⟨.tool .ensureFreshWriteGate, Except.ok ()⟩])) :
    Follows writeRule post (write (.tool .ensureFreshWriteGate) >>= rest).run history := by
  refine .request_bind (stands.may id nofun) fun answer => ?_
  cases answer with
  | error fingerprint =>
      refine refused fingerprint _ ?_
      rw [standingOf_append]
      rfl
  | ok => exact next stands.passed

/-- Drop a guard and refuse. -/
theorem drop_refuse {op : WriteOp} {fingerprint : String} (quiet : op.Quiet)
    (comes : ∀ later, post later (.error (.writesDisabled fingerprint))) :
    Follows writeRule post
      (do let _ ← write op; throw (.writesDisabled fingerprint) : Faucet β).run history :=
  ⟨writeRule_quiet quiet, fun _ => comes _⟩

theorem orFail_bind {message : String → String} {result : Except String α} {rest : α → Faucet β}
    (failed : ∀ e, post history (.error (.failed e)))
    (next : ∀ value, Follows writeRule post (rest value).run history) :
    Follows writeRule post (orFail message result >>= rest).run history := by
  cases result with
  | error e => exact failed _
  | ok value => exact next value

theorem initializeUnderLock_rests {signer : AccountId} (stands : Stands history gated) :
    Follows writeRule FaucetComes (initializeUnderLock ctx signer).run history := by
  refine write_bind stands trivial fun _ stands => ?_
  refine check_bind stands (fun fingerprint later refused =>
    drop_refuse trivial fun _ => .inr ⟨fingerprint, rfl⟩) fun stands => ?_
  have initialized : Follows writeRule (fun later _ => ∃ gated, Stands later gated)
      ((initializeSignerAccount ctx signer).run.embed ofTool) _ :=
    embed_rests (initializeSignerAccount_rests stands.whole)
  refine Follows.run_bind_iff.mpr ?_
  rw [ExceptT.run_lift]
  refine Follows.bind_iff.mpr (initialized.weaken fun later outcome stands => ?_)
  obtain ⟨gated, stands⟩ := stands
  refine write_bind stands trivial fun _ stands => ?_
  cases outcome with
  | ok txHash => exact ⟨_, stands⟩
  | error result =>
      cases result with
      | refused refusal => exact .inl ⟨_, stands⟩
      | _ => exact .inl ⟨_, stands⟩

theorem ensureAccount_rests {accountId : AccountId} (stands : Stands history gated) :
    Follows writeRule FaucetComes (ensureAccount ctx accountId).run history := by
  refine write_bind stands trivial fun answer stands => ?_
  refine orFail_bind (fun e => .inl ⟨_, stands⟩) fun account => ?_
  refine Follows.run_ite_iff.mpr ⟨fun _ => ⟨_, stands⟩, fun _ => ?_⟩
  refine Follows.run_ite_iff.mpr ⟨fun _ => ?_, fun _ => .inl ⟨_, stands⟩⟩
  refine Follows.run_bind_iff.mpr ((initializeUnderLock_rests stands).weaken ?_)
  intro later result comes
  cases result with
  | ok txHash => exact comes
  | error answer => exact comes

theorem claimOnce_rests {accountId : AccountId} {target : Option U128} {balance : U128}
    (stands : Stands history gated) :
    Follows writeRule FaucetComes (claimOnce accountId target balance).run history := by
  refine write_bind stands trivial fun _ stands => ?_
  refine write_bind stands trivial fun answer stands => ?_
  refine Follows.run_ite_iff.mpr ⟨fun _ => ?_, fun _ => ?_⟩
  · exact write_bind stands trivial fun _ stands => ⟨_, stands⟩
  refine write_bind stands trivial fun answer stands => ?_
  cases answer with
  | error e => exact write_bind stands trivial fun _ stands => ⟨_, stands⟩
  | ok solved =>
  refine check_bind stands (fun fingerprint later refused =>
    drop_refuse trivial fun _ => .inr ⟨fingerprint, rfl⟩) fun stands => ?_
  refine .request_bind (stands.may_submit trivial) fun answer => ?_
  have stands : Stands (_ ++ [⟨.submitClaim solved, answer⟩]) false := stands.submitted trivial
  cases answer with
  | error e => exact write_bind stands trivial fun _ stands => ⟨_, stands⟩
  | ok txHash =>
  refine write_bind stands trivial fun outcome stands => ?_
  refine write_bind stands trivial fun _ stands => ?_
  cases outcome with
  | error e => exact ⟨_, stands⟩
  | ok confirmation => exact ⟨_, stands⟩

theorem claimLoop_rests {accountId : AccountId} {target : Option U128} {turns : Nat} {balance : U128}
    {claims : List Claim} (stands : Stands history gated) :
    Follows writeRule FaucetComes (claimLoop accountId target turns balance claims).run history := by
  induction turns generalizing history gated balance claims with
  | zero => exact ⟨_, stands⟩
  | succ turns ih =>
      refine Follows.run_ite_iff.mpr ⟨fun _ => ⟨_, stands⟩, fun _ => ?_⟩
      refine Follows.run_bind_iff.mpr ((claimOnce_rests stands).weaken fun later result comes => ?_)
      cases result with
      | error answer => exact comes
      | ok outcome =>
          obtain ⟨_, stands⟩ := comes
          obtain ⟨balance, outcome⟩ := outcome
          rcases outcome with _ | _ | ⟨solved, txHash, confirmed, confirmation⟩
          · exact ⟨_, stands⟩
          · exact ⟨_, stands⟩
          · refine write_bind stands trivial fun answer stands => ?_
            refine Follows.run_ite_iff.mpr ⟨fun _ => ⟨_, stands⟩, fun _ => ?_⟩
            exact Follows.run_ite_iff.mpr ⟨fun _ => ⟨_, stands⟩, fun _ => ih stands⟩

theorem lezFaucetClaim_rests {params : FaucetParams} (stands : Stands history gated) :
    Follows writeRule FaucetComes (lezFaucetClaim ctx params).run history := by
  refine check_bind stands (fun fingerprint later refused => .inr ⟨fingerprint, rfl⟩) fun stands => ?_
  dsimp only
  cases ctx.base58.parse params.accountId with
  | error e => exact .inl ⟨_, stands⟩
  | ok accountId =>
  cases params.targetBalance.mapM parseU128 with
  | error e => exact .inl ⟨_, stands⟩
  | ok target =>
  refine Follows.run_bind_iff.mpr ((ensureAccount_rests stands).weaken fun later result comes => ?_)
  cases result with
  | error answer => exact comes
  | ok initTxHash =>
  obtain ⟨_, stands⟩ := comes
  refine write_bind stands trivial fun answer stands => ?_
  refine orFail_bind (fun e => .inl ⟨_, stands⟩) fun startBalance => ?_
  refine Follows.run_bind_iff.mpr ((claimLoop_rests stands).weaken fun later result comes => ?_)
  cases result with
  | error answer => exact comes
  | ok outcome => exact comes

end Faucet

/-- A call of `lez_faucet_claim` keeps to the rule. -/
theorem faucetCall_rests {ctx : Ctx} {params : FaucetParams} {history : History writes} {gated : Bool}
    (stands : Stands history gated) :
    Follows writeRule (fun _ _ => True) (faucetCall ctx params) history := by
  refine Follows.bind_iff.mpr ((lezFaucetClaim_rests stands).weaken fun later result comes => ?_)
  cases result with
  | ok result =>
      obtain ⟨_, stands⟩ := comes
      exact ⟨stands.may id nofun, fun _ => trivial⟩
  | error answer =>
      rcases comes with ⟨_, stands⟩ | ⟨fingerprint, rfl⟩
      · exact ⟨stands.may id nofun, fun _ => trivial⟩
      · exact ⟨⟨nofun, False.elim, fun _ => ⟨fingerprint, rfl⟩⟩, fun _ => trivial⟩

/-- A call of `lez_transfer` keeps to the rule. -/
theorem transferCall_rests {ctx : Ctx} {params : TransferParams} {history : History writes}
    {gated : Bool} (stands : Stands history gated) :
    Follows writeRule (fun _ _ => True) (transferCall ctx params) history := by
  have embedded : Follows writeRule Comes ((lezTransfer ctx params).run.embed ofTool) history :=
    embed_rests (lezTransfer_rests stands.whole)
  refine Follows.bind_iff.mpr (embedded.weaken fun later outcome comes => ?_)
  refine ⟨writeRule_quiet trivial, fun answer => ?_⟩
  cases outcome with
  | ok result =>
      obtain ⟨_, stands⟩ := comes
      have stands : Stands (_ ++ [⟨.dropSignedWrite, answer⟩]) _ := stands.quiet trivial
      exact ⟨stands.may id nofun, fun _ => trivial⟩
  | error result =>
      rcases comes with ⟨_, stands⟩ | ⟨fingerprint, rfl⟩
      · have stands : Stands (_ ++ [⟨.dropSignedWrite, answer⟩]) _ := stands.quiet trivial
        exact ⟨stands.may id nofun, fun _ => trivial⟩
      · exact ⟨⟨nofun, False.elim, fun _ => ⟨fingerprint, rfl⟩⟩, fun _ => trivial⟩

end AtomicSwaps.Mcp
