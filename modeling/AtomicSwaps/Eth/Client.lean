import AtomicSwaps.Swap.Interface

/-!
# The Ethereum client

`EthClient` of `src/eth/client.rs`. A transaction that was mined comes back as its
receipt, whether it reverted or not; only `lock` looks further into it.
-/

namespace AtomicSwaps.Eth

open Semantics Swap

/-- `EthLockReceipt`. -/
structure EthLockReceipt where
  swapId : Bytes32
  txHash : Bytes32

/-- The swap id of a `Locked` log. -/
def lockedSwapId : Log → Option Bytes32
  | .Locked swapId .. => some swapId
  | .Claimed .. | .Refunded _ => none

namespace EthClient

/-- `send().await?.get_receipt().await?`. -/
def send (call : EthCall) : Flow Receipt := do
  match ← request (.sendEth call) with
  | .error e => throw (.EthRpc e)
  | .ok receipt => return receipt

/-- `EthClient::lock`. -/
def lock (hashlock : Bytes32) (timelock : U64) (recipient : Address)
    (takerLezAccount : Bytes32) (ethAmount : U256) : Flow EthLockReceipt := do
  let receipt ← send (.lock hashlock (timelock.setWidth 256) recipient takerLezAccount ethAmount)
  match receipt.logs.findSome? lockedSwapId with
  | none => throw (.EthReverted "no Locked event in receipt")
  | some swapId => return ⟨swapId, receipt.transactionHash⟩

/-- `EthClient::claim`. -/
def claim (swapId preimage : Bytes32) : Flow Bytes32 := do
  let receipt ← send (.claim swapId preimage)
  return receipt.transactionHash

/-- `EthClient::refund`. -/
def refund (swapId : Bytes32) : Flow Bytes32 := do
  let receipt ← send (.refund swapId)
  return receipt.transactionHash

/-- `EthClient::get_htlc`. -/
def getHtlc (swapId : Bytes32) : Flow HTLC := do
  match ← request (.getHTLC swapId) with
  | .error e => throw (.EthRpc e)
  | .ok htlc => return htlc

variable {rule : Trace → Op → Prop} {history : Trace}

/-- What `lock` returns for an answer. -/
def lockResult : Except String Receipt → Except SwapError EthLockReceipt
  | .error e => .error (.EthRpc e)
  | .ok receipt =>
      match receipt.logs.findSome? lockedSwapId with
      | none => .error (.EthReverted "no Locked event in receipt")
      | some swapId => .ok ⟨swapId, receipt.transactionHash⟩

/-- What `claim` and `refund` return for an answer: a receipt is enough. -/
def sendResult : Except String Receipt → Except SwapError Bytes32
  | .error e => .error (.EthRpc e)
  | .ok receipt => .ok receipt.transactionHash

theorem lock_follows {hashlock : Bytes32} {timelock : U64} {recipient : Address}
    {takerLezAccount : Bytes32} {ethAmount : U256}
    {post : Trace → Except SwapError EthLockReceipt → Prop}
    (allowed : rule history
      (.sendEth (.lock hashlock (timelock.setWidth 256) recipient takerLezAccount ethAmount)))
    (answered : ∀ answer, post (history ++ [⟨.sendEth
      (.lock hashlock (timelock.setWidth 256) recipient takerLezAccount ethAmount), answer⟩])
      (lockResult answer)) :
    Follows rule post (lock hashlock timelock recipient takerLezAccount ethAmount).run history := by
  refine Follows.run_bind_iff.mpr (.request_bind allowed fun answer => ?_)
  have result := answered answer
  cases answer with
  | error e => exact result
  | ok receipt =>
      refine Follows.run_pure_iff.mpr ?_
      simp only [lockResult] at result
      cases found : receipt.logs.findSome? lockedSwapId with
      | none => simp only [found] at result ⊢; exact result
      | some swapId => simp only [found] at result ⊢; exact result

theorem claim_follows {swapId preimage : Bytes32} {post : Trace → Except SwapError Bytes32 → Prop}
    (allowed : rule history (.sendEth (.claim swapId preimage)))
    (answered : ∀ answer,
      post (history ++ [⟨.sendEth (.claim swapId preimage), answer⟩]) (sendResult answer)) :
    Follows rule post (claim swapId preimage).run history := by
  refine Follows.run_bind_iff.mpr (.request_bind allowed fun answer => ?_)
  have result := answered answer
  cases answer with
  | error e => exact result
  | ok receipt => exact result

theorem refund_follows {swapId : Bytes32} {post : Trace → Except SwapError Bytes32 → Prop}
    (allowed : rule history (.sendEth (.refund swapId)))
    (answered : ∀ answer,
      post (history ++ [⟨.sendEth (.refund swapId), answer⟩]) (sendResult answer)) :
    Follows rule post (refund swapId).run history := by
  refine Follows.run_bind_iff.mpr (.request_bind allowed fun answer => ?_)
  have result := answered answer
  cases answer with
  | error e => exact result
  | ok receipt => exact result

theorem getHtlc_follows {swapId : Bytes32} {post : Trace → Except SwapError HTLC → Prop}
    (allowed : rule history (.getHTLC swapId))
    (read : ∀ htlc : HTLC, post (history ++ [⟨.getHTLC swapId, .ok htlc⟩]) (.ok htlc))
    (failed : ∀ e, post (history ++ [⟨.getHTLC swapId, .error e⟩]) (.error (.EthRpc e))) :
    Follows rule post (getHtlc swapId).run history := by
  refine .request_bind allowed fun answer => ?_
  cases answer with
  | error e => exact failed e
  | ok htlc => exact read htlc

end EthClient

end AtomicSwaps.Eth
