import AtomicSwaps.Mcp.Transfer

/-!
# What the transfer tool rests on

A call submits a transfer at most once and only what its token was accepted for, and it
answers once, at its end. What it refuses it has not transferred; the one thing it may
have submitted then is the `Initialize` of its own sender, once, after its token was accepted
and after it has read the sender without an owner.
-/

namespace AtomicSwaps.Mcp

open Semantics
open Lez (AccountId Account)

/-- The exchanges of the tool. -/
abbrev Trace := History interface

/-- No operation of a kind has been performed. -/
def Never (kind : Op → Prop) (history : Trace) : Prop := ∀ exchange ∈ history, ¬ kind exchange.op

/-- A transfer is submitted. -/
def Op.Transfers : Op → Prop
  | .sendTransfer .. => True
  | _ => False

/-- A sender is initialized. -/
def Op.Initializes : Op → Prop
  | .sendInitialize .. => True
  | _ => False

/-- The caller is answered. -/
def Op.Responds : Op → Prop
  | .respond _ => True
  | _ => False

/-- A preview is issued. -/
def Op.Issues : Op → Prop
  | .issue .. => True
  | _ => False

/-- A token has been accepted for this transfer. -/
def Accepts (history : Trace) (fromId toId : AccountId) (amount : U128) : Prop :=
  ∃ token now, (⟨.consume token fromId toId amount, (now, TokenCheck.Ok)⟩ : Exchange interface) ∈
    history

/-- A call that has initialized no sender yet and has read this one as not initialized. -/
structure Initializable (history : Trace) (fromId : AccountId) : Prop where
  once : Never Op.Initializes history
  uninitialized : ∃ account, (⟨.getAccount fromId, .ok account⟩ : Exchange interface) ∈ history ∧
    account.programOwner = Lez.DEFAULT_PROGRAM_ID

/-- What every operation of a call rests on. -/
def callRule (history : Trace) (op : Op) : Prop :=
  Never Op.Responds history ∧
    match op with
    | .accept => False
    | .sendTransfer fromId toId _ amount => Never Op.Transfers history ∧ Accepts history fromId toId amount
    | .sendInitialize fromId _ => Never Op.Transfers history ∧ Initializable history fromId ∧
        ∃ toId amount, Accepts history fromId toId amount
    | .issue token _ _ _ => Never Op.Issues history ∧ ∃ random,
        (⟨.getrandom, random⟩ : Exchange interface) ∈ history ∧ token = newPreviewToken random
    | .respond (.refused _) => Never Op.Transfers history
    | _ => True

/-- The operations that neither submit, preview nor answer anything. -/
def Op.Quiet : Op → Prop
  | .accept | .issue .. | .sendTransfer .. | .sendInitialize .. | .respond _ => False
  | _ => True

/-- What a call may answer with. -/
def Ends (later : Trace) (result : CallToolResult) : Prop :=
  Never Op.Responds later ∧ ∀ refusal, result = .refused refusal → Never Op.Transfers later

/-- The tool returns what it may answer with. -/
def Returns (later : Trace) : Except CallToolResult CallToolResult → Prop
  | .ok result | .error result => Ends later result

/-- A call that has neither previewed nor submitted nor answered anything. -/
structure Pending (history : Trace) : Prop where
  unanswered : Never Op.Responds history
  unsent : Never Op.Transfers history
  unissued : Never Op.Issues history
  once : Never Op.Initializes history

section Histories

variable {kind : Op → Prop} {history : Trace} {op : Op} {answer : Answer op}
  {fromId toId : AccountId} {amount : U128}

theorem Never.append (never : Never kind history) (other : ¬ kind op) :
    Never kind (history ++ [⟨op, answer⟩]) := by
  intro exchange member
  rcases List.mem_append.mp member with earlier | last
  · exact never exchange earlier
  · obtain rfl := List.mem_singleton.mp last
    exact other

theorem Accepts.append (accepts : Accepts history fromId toId amount) (exchange : Exchange interface) :
    Accepts (history ++ [exchange]) fromId toId amount := by
  obtain ⟨token, now, member⟩ := accepts
  exact ⟨token, now, List.mem_append_left _ member⟩

theorem Pending.append (pending : Pending history) (quiet : op.Quiet) :
    Pending (history ++ [⟨op, answer⟩]) where
  unanswered := pending.unanswered.append (by cases op <;> simp_all [Op.Responds, Op.Quiet])
  unsent := pending.unsent.append (by cases op <;> simp_all [Op.Transfers, Op.Quiet])
  unissued := pending.unissued.append (by cases op <;> simp_all [Op.Issues, Op.Quiet])
  once := pending.once.append (by cases op <;> simp_all [Op.Initializes, Op.Quiet])

theorem Initializable.append (initializable : Initializable history fromId) (quiet : op.Quiet) :
    Initializable (history ++ [⟨op, answer⟩]) fromId where
  once := initializable.once.append (by cases op <;> simp_all [Op.Initializes, Op.Quiet])
  uninitialized := by
    obtain ⟨account, member, default⟩ := initializable.uninitialized
    exact ⟨account, List.mem_append_left _ member, default⟩

theorem Pending.ends (pending : Pending history) (result : CallToolResult) : Ends history result :=
  ⟨pending.unanswered, fun _ _ => pending.unsent⟩

/-- A quiet operation rests on nothing but that the caller is still waiting. -/
theorem callRule_quiet (unanswered : Never Op.Responds history) (quiet : op.Quiet) : callRule history op := by
  refine ⟨unanswered, ?_⟩
  cases op <;> trivial

end Histories

section Parts

variable {α β : Type} {history : Trace} {ctx : Ctx} {fromId toId : AccountId} {amount : U128}
  {post : Trace → Except CallToolResult β → Prop}

/-- Refuse, or go on with what was there. -/
theorem orRefuse_bind {refusal : String → Refusal} {result : Except String α} {rest : α → Tool β}
    (refused : ∀ e, post history (.error (.refused (refusal e))))
    (next : ∀ value, result = .ok value → Follows callRule post (rest value).run history) :
    Follows callRule post (orRefuse refusal result >>= rest).run history := by
  cases result with
  | error e => exact refused e
  | ok value => exact next value rfl

/-- A quiet operation of a pending call. -/
theorem quiet_bind {op : Op} {rest : Answer op → Tool β} (pending : Pending history)
    (quiet : op.Quiet)
    (next : ∀ answer, Pending (history ++ [⟨op, answer⟩]) →
      Follows callRule post (rest answer).run (history ++ [⟨op, answer⟩])) :
    Follows callRule post (request op >>= rest).run history :=
  .request_bind (callRule_quiet pending.unanswered quiet)
    fun answer => next answer (pending.append quiet)

/-- A call whose token has been accepted, and which may initialize its sender if it `needs`
to. -/
structure Accepted (needs : Prop) (history : Trace) (fromId toId : AccountId) (amount : U128) :
    Prop where
  unanswered : Never Op.Responds history
  unsent : Never Op.Transfers history
  accepts : Accepts history fromId toId amount
  initializable : needs → Initializable history fromId

variable {needs : Prop}

theorem Accepted.append {op : Op} {answer : Answer op}
    (accepted : Accepted needs history fromId toId amount) (quiet : op.Quiet) :
    Accepted needs (history ++ [⟨op, answer⟩]) fromId toId amount where
  unanswered := accepted.unanswered.append (by cases op <;> simp_all [Op.Responds, Op.Quiet])
  unsent := accepted.unsent.append (by cases op <;> simp_all [Op.Transfers, Op.Quiet])
  accepts := accepted.accepts.append _
  initializable need := (accepted.initializable need).append quiet

theorem Accepted.ends (accepted : Accepted needs history fromId toId amount)
    (result : CallToolResult) : Ends history result :=
  ⟨accepted.unanswered, fun _ _ => accepted.unsent⟩

/-- What is initialized already need not be initialized. -/
theorem Accepted.done (accepted : Accepted needs history fromId toId amount) :
    Accepted False history fromId toId amount :=
  { accepted with initializable := False.elim }

/-- A quiet operation of a call whose token has been accepted. -/
theorem accepted_bind {op : Op} {rest : Answer op → Tool β}
    (accepted : Accepted needs history fromId toId amount) (quiet : op.Quiet)
    (next : ∀ answer, Accepted needs (history ++ [⟨op, answer⟩]) fromId toId amount →
      Follows callRule post (rest answer).run (history ++ [⟨op, answer⟩])) :
    Follows callRule post (request op >>= rest).run history :=
  .request_bind (callRule_quiet accepted.unanswered quiet)
    fun answer => next answer (accepted.append quiet)

/-- What comes of a part that leaves the transfer to the rest. -/
def Proceeds (fromId toId : AccountId) (amount : U128) (later : Trace) : Except CallToolResult α → Prop
  | .ok _ => Accepted False later fromId toId amount
  | .error result => Ends later result

theorem ensureFreshWriteGate_bind {rest : Unit → Tool CallToolResult}
    (accepted : Accepted needs history fromId toId amount)
    (next : ∀ later, Accepted needs later fromId toId amount →
      Follows callRule Returns (rest ()).run later) :
    Follows callRule Returns (ensureFreshWriteGate >>= rest).run history := by
  simp only [ensureFreshWriteGate]
  refine accepted_bind accepted trivial fun answer accepted => ?_
  exact orRefuse_bind (fun e => accepted.ends _) fun _ _ => next _ accepted

/-- Initializing the sender needs its token, and leaves the transfer to the rest. -/
theorem initializeSignerAccount_follows (accepted : Accepted True history fromId toId amount) :
    Follows callRule (Proceeds fromId toId amount) (initializeSignerAccount ctx fromId).run history := by
  refine accepted_bind accepted trivial fun account accepted => ?_
  refine orRefuse_bind (fun e => accepted.ends _) fun existing _ => ?_
  refine Follows.run_ite_iff.mpr ⟨fun _ => accepted.done, fun _ => ?_⟩
  refine accepted_bind accepted trivial fun answer accepted => ?_
  refine orRefuse_bind (fun e => accepted.ends _) fun nonces _ => ?_
  refine .request_bind ⟨accepted.unanswered, accepted.unsent, accepted.initializable trivial, toId,
    amount, accepted.accepts⟩ fun answer => ?_
  have accepted : Accepted False
      (history ++ [_] ++ [_] ++ [⟨.sendInitialize fromId nonces, answer⟩]) fromId toId amount := {
    unanswered := accepted.unanswered.append id
    unsent := accepted.unsent.append id
    accepts := accepted.accepts.append _
    initializable := False.elim }
  refine orRefuse_bind (fun e => accepted.ends _) fun txHash _ => ?_
  refine accepted_bind accepted trivial fun answer accepted => ?_
  refine orRefuse_bind (fun e => accepted.ends _) fun confirmation _ => ?_
  refine Follows.run_ite_iff.mpr ⟨fun _ => accepted.ends _, fun _ => ?_⟩
  refine accepted_bind accepted trivial fun answer accepted => ?_
  refine orRefuse_bind (fun e => accepted.ends _) fun account _ => ?_
  exact Follows.run_ite_iff.mpr ⟨fun _ => accepted.ends _, fun _ => accepted⟩

theorem initializeFirst_follows {senderNeedsInit : Bool}
    (accepted : Accepted (senderNeedsInit = true) history fromId toId amount) :
    Follows callRule (Proceeds fromId toId amount)
      (initializeFirst ctx fromId senderNeedsInit).run history := by
  refine Follows.run_ite_iff.mpr ⟨fun needs => ?_, fun _ => accepted.done⟩
  have initializable : Accepted True history fromId toId amount :=
    { accepted with initializable := fun _ => accepted.initializable needs }
  refine Follows.run_bind_iff.mpr ((initializeSignerAccount_follows initializable).weaken ?_)
  intro later result kept
  cases result with
  | error result => exact kept
  | ok txHash => exact kept

/-- Submitting a transfer needs its token, and ends the call. -/
theorem transfer_bind {rest : String → Tool CallToolResult}
    (accepted : Accepted needs history fromId toId amount)
    (next : ∀ txHash later, Never Op.Responds later → Follows callRule Returns (rest txHash).run later) :
    Follows callRule Returns (transfer fromId toId amount >>= rest).run history := by
  have failed : ∀ later, Never Op.Responds later → ∀ e, Ends later (.transferFailed e) :=
    fun later unanswered e => ⟨unanswered, by rintro _ ⟨⟩⟩
  simp only [transfer]
  refine accepted_bind accepted trivial fun answer accepted => ?_
  cases answer with
  | error e => exact failed _ accepted.unanswered _
  | ok nonces =>
      refine .request_bind ⟨accepted.unanswered, accepted.unsent, accepted.accepts⟩ fun answer => ?_
      have unanswered : Never Op.Responds
          (_ ++ [⟨.sendTransfer fromId toId nonces amount, answer⟩]) := accepted.unanswered.append id
      cases answer with
      | error e => exact failed _ unanswered _
      | ok txHash => exact next txHash _ unanswered

/-- The critical section of a call whose token has been accepted. -/
theorem submitTransfer_follows {senderNeedsInit : Bool} {toBalance : U128}
    (accepted : Accepted (senderNeedsInit = true) history fromId toId amount) :
    Follows callRule Returns
      (submitTransfer ctx fromId toId amount senderNeedsInit toBalance).run history := by
  refine ensureFreshWriteGate_bind accepted fun later accepted => ?_
  refine Follows.run_bind_iff.mpr ((initializeFirst_follows accepted).weaken
    fun later result kept => ?_)
  cases result with
  | error result => exact kept
  | ok initTxHash =>
  refine ensureFreshWriteGate_bind kept fun later accepted => ?_
  refine accepted_bind accepted trivial fun answer accepted => ?_
  refine orRefuse_bind (fun e => accepted.ends _) fun currentBalance _ => ?_
  refine Follows.run_ite_iff.mpr ⟨fun _ => accepted.ends _, fun _ => ?_⟩
  refine accepted_bind accepted trivial fun answer accepted => ?_
  refine orRefuse_bind (fun e => accepted.ends _) fun nonces _ => ?_
  refine transfer_bind accepted fun txHash later unanswered => ?_
  refine .request_bind (callRule_quiet unanswered trivial) fun answer => ?_
  have unanswered : Never Op.Responds
      (_ ++ [⟨.confirmSubmittedTx txHash fromId (nonces.headD 0), answer⟩]) := unanswered.append id
  cases answer with
  | error e => exact ⟨unanswered, by rintro _ ⟨⟩⟩
  | ok confirmation =>
      refine .request_bind (callRule_quiet unanswered trivial) fun answer => ?_
      exact ⟨unanswered.append id, by rintro _ ⟨⟩⟩

/-- A preview neither submits nor refuses anything. -/
theorem previewTransfer_follows {fromAccount toAccount : Account} {senderInitialized : Bool}
    (pending : Pending history) :
    Follows callRule Returns (previewTransfer fromId toId amount fromAccount toAccount
      senderInitialized).run history := by
  refine quiet_bind pending trivial fun random pending => ?_
  refine .request_bind ⟨pending.unanswered, pending.unissued, random, by simp, rfl⟩ fun readings => ?_
  refine .request_bind (callRule_quiet (pending.unanswered.append id) trivial) fun _ => ?_
  exact ⟨(pending.unanswered.append id).append id, by rintro _ ⟨⟩⟩

/-- A broadcast submits nothing before its token is accepted. -/
theorem confirmTransfer_follows {previewToken : Option String} {fromAccount toAccount : Account}
    {senderInitialized : Bool} (pending : Pending history)
    (read : (⟨.getAccount fromId, .ok fromAccount⟩ : Exchange interface) ∈ history) :
    Follows callRule Returns (confirmTransfer ctx previewToken fromId toId amount fromAccount
      toAccount senderInitialized).run history := by
  cases previewToken with
  | none => exact pending.ends _
  | some token =>
  refine quiet_bind pending trivial fun answer pending => ?_
  obtain ⟨now, check⟩ := answer
  cases check with
  | Missing => exact pending.ends _
  | Expired => exact pending.ends _
  | Mismatch => exact pending.ends _
  | Ok =>
      have accepted : Accepted (fromAccount.programOwner = Lez.DEFAULT_PROGRAM_ID)
          (history ++ [⟨.consume token fromId toId amount, (now, .Ok)⟩]) fromId toId amount := {
        pending with
        accepts := ⟨token, now, by simp⟩
        initializable := fun default =>
          ⟨pending.once, fromAccount, List.mem_append_left _ read, default⟩ }
      refine ensureFreshWriteGate_bind accepted fun later accepted => ?_
      refine Follows.run_ite_iff.mpr ⟨fun _ => accepted.ends _, fun _ => ?_⟩
      refine Follows.run_ite_iff.mpr ⟨fun _ => accepted.ends _, fun owned => ?_⟩
      refine Follows.run_ite_iff.mpr ⟨fun _ => accepted.ends _, fun _ => ?_⟩
      refine accepted_bind accepted trivial fun _ accepted => submitTransfer_follows ?_
      -- a sender of another program has been refused
      have default : senderInitialized = false →
          fromAccount.programOwner = Lez.DEFAULT_PROGRAM_ID := by
        rintro rfl
        simpa using owned
      exact { accepted with initializable := fun needs => accepted.initializable (default (by
        simpa using needs)) }

/-- Whatever the tool does rests on the rule. -/
theorem lezTransfer_follows {params : TransferParams} (pending : Pending history) :
    Follows callRule Returns (lezTransfer ctx params).run history := by
  unfold lezTransfer
  cases ctx.signer with
  | none => exact pending.ends _
  | some fromId =>
  cases ctx.base58.parse params.to_ with
  | error e => exact pending.ends _
  | ok toId =>
  cases parseU128 params.amount with
  | error e => exact pending.ends _
  | ok amount =>
  refine Follows.run_ite_iff.mpr ⟨fun _ => pending.ends _, fun _ => ?_⟩
  refine quiet_bind pending trivial fun sender pending => ?_
  refine orRefuse_bind (fun e => pending.ends _) fun fromAccount read => ?_
  refine quiet_bind pending trivial fun answer pending => ?_
  refine orRefuse_bind (fun e => pending.ends _) fun toAccount _ => ?_
  exact Follows.run_ite_iff.mpr ⟨fun _ => confirmTransfer_follows pending (by simp [← read]),
    fun _ => previewTransfer_follows pending⟩

/-- A call answers once, at its end. -/
theorem handle_follows {params : TransferParams} (pending : Pending history) :
    Follows callRule (fun _ _ => True) (handle ctx params) history := by
  have answered : ∀ later result, Ends later result →
      Follows callRule (fun _ _ => True) (Program.perform (I := interface) (.respond result)) later := by
    rintro later result ⟨unanswered, unsent⟩
    refine ⟨⟨unanswered, ?_⟩, fun _ => trivial⟩
    cases result with
    | refused refusal => exact unsent refusal rfl
    | preview => trivial
    | broadcast => trivial
    | transferFailed => trivial
    | unconfirmed => trivial
  refine Follows.bind_iff.mpr ((lezTransfer_follows pending).weaken fun later result ends => ?_)
  cases result with
  | ok result => exact answered later result ends
  | error result => exact answered later result ends

end Parts

end AtomicSwaps.Mcp
