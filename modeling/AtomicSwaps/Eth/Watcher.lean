import AtomicSwaps.Eth.SwapTally
import AtomicSwaps.Semantics.Process
import AtomicSwaps.Swap.Types

/-!
# The watcher of the contract

`watch_events` of `src/eth/watcher.rs`: the logs of the contract are polled and forwarded, from
256 blocks before the first head that is read up to one block behind the head of each round. The
cursor moves past a range once the logs of all three kinds in it have been queried.
-/

namespace AtomicSwaps.Eth

open Semantics Program

/-- `REPLAY_BLOCKS`. -/
def REPLAY_BLOCKS : U64 := 256

/-- A log of the contract in a block. -/
structure MinedLog where
  block : U64
  transactionHash : Option Bytes32
  event : Log
deriving DecidableEq

/-- The event that is sent for a log. -/
def MinedLog.forwarded (log : MinedLog) : EthHtlcEvent :=
  match log.event with
  | .Locked swapId sender recipient amount hashlock timelock takerLezAccount =>
      .Locked
        { swapId, sender, recipient, amount, hashlock, timelock, takerLezAccount
          txHash := log.transactionHash.getD (Bytes.zero 32) }
  | .Claimed swapId preimage => .Claimed swapId preimage
  | .Refunded swapId => .Refunded swapId

/-- What the watcher asks the provider, and the receiver of the events. -/
inductive WatchOp where
  | getBlockNumber
  | query (kind : EventKind) (fromBlock toBlock : U64)
  | send (event : EthHtlcEvent)
  | sleep

/-- The provider and the receiver; `send` tells whether the receiver is still there. -/
def Watch : Interface where
  Op := WatchOp
  Answer
    | .getBlockNumber => Except String U64
    | .query .. => Except String (List MinedLog)
    | .send _ => Bool
    | .sleep => Unit

/-- A fallible program of the watcher. -/
abbrev WatchM := ExceptT SwapError (Program Watch)

/-- The first head, for which the watcher tries until it is told one. -/
def initialBlock (fuel : Nat) : WatchM U64 :=
  iterate (fun _ : Unit => do
    match ← request (I := Watch) .getBlockNumber with
    | .ok block => return .inr block
    | .error _ => do
        request (I := Watch) .sleep
        return .inl ()) fuel ()

/-- Send events until the receiver is gone. -/
def forward : List EthHtlcEvent → WatchM Bool
  | [] => return true
  | event :: events => do
      let delivered : Bool ← request (I := Watch) (.send event)
      if delivered then forward events else return false

/-- How the query of a range ends. -/
inductive Forwarded where
  | Sent
  | Failed
  | Closed
deriving DecidableEq

/-- The query for the logs of one kind. -/
def forwardKind (kind : EventKind) (fromBlock toBlock : U64) : WatchM Forwarded := do
  match ← request (I := Watch) (.query kind fromBlock toBlock) with
  | .ok logs => do
      if ← forward (logs.map MinedLog.forwarded) then return .Sent else return .Closed
  | .error _ => do
      request (I := Watch) .sleep
      return .Failed

/-- The queries for several kinds, up to the first that fails. -/
def forwardKinds (fromBlock toBlock : U64) : List EventKind → WatchM Forwarded
  | [] => return .Sent
  | kind :: kinds => do
      match ← forwardKind kind fromBlock toBlock with
      | .Sent => forwardKinds fromBlock toBlock kinds
      | .Failed => return .Failed
      | .Closed => return .Closed

/-- One turn of the loop, from a cursor to the next one. -/
def watchRound (fromBlock : U64) : WatchM (U64 ⊕ Unit) := do
  match ← request (I := Watch) .getBlockNumber with
  | .error _ => do
      request (I := Watch) .sleep
      return .inl fromBlock
  | .ok latest =>
      let toBlock := U64.saturatingSub latest 1
      if fromBlock ≤ toBlock then do
        match ← forwardKinds fromBlock toBlock [.Locked, .Claimed, .Refunded] with
        | .Sent => do
            request (I := Watch) .sleep
            return .inl (toBlock + 1)
        | .Failed => return .inl fromBlock
        | .Closed => return .inr ()
      else do
        request (I := Watch) .sleep
        return .inl fromBlock

/-- `watch_events`. -/
def watchEvents (fuel : Nat) : WatchM Unit := do
  let currentBlock ← initialBlock fuel
  iterate watchRound fuel (U64.saturatingSub currentBlock REPLAY_BLOCKS)

/-- A query that succeeds returns all logs of its range, and the receiver is still there. -/
def Faithful (chain : Set MinedLog) : (op : WatchOp) → Watch.Answer op → Prop
  | .getBlockNumber, _ => True
  | .query kind fromBlock toBlock, result => ∀ logs, result = .ok logs → ∀ log ∈ chain,
      log.event.kind = kind → fromBlock ≤ log.block → log.block ≤ toBlock → log ∈ logs
  | .send _, delivered => delivered = true
  | .sleep, _ => True

/-- A chain whose logs stay as they are, behind a provider that may fail and lag. -/
def provider (chain : Set MinedLog) : Environment Watch Unit where
  perform op _ answer _ := Faithful chain op answer
  drift _ _ := False

/-- A head has been read. -/
def HeadSeen (head : U64) (history : History Watch) : Prop :=
  (⟨.getBlockNumber, (.ok head : Except String U64)⟩ : Exchange Watch) ∈ history

/-- An event has been sent. -/
def Sent (event : EthHtlcEvent) (history : History Watch) : Prop :=
  (⟨.send event, (true : Bool)⟩ : Exchange Watch) ∈ history

/-- The turns of the loop so far: the cursors, newest first, and what has been exchanged. -/
inductive Watching (chain : Set MinedLog) (start : U64) : List U64 → History Watch → Prop where
  | begin {fuel : Nat} {log : List (Entry Watch Unit)}
      (found : Execution (provider chain) (initialBlock fuel).run () log (.ok start) ()) :
      Watching chain start [U64.saturatingSub start REPLAY_BLOCKS] (historyOf log)
  | round {cursor next : U64} {earlier : List U64} {history : History Watch}
      {log : List (Entry Watch Unit)} (watching : Watching chain start (cursor :: earlier) history)
      (turn : Execution (provider chain) (watchRound cursor).run () log (.ok (.inl next)) ()) :
      Watching chain start (next :: cursor :: earlier) (history ++ historyOf log)

/-- Some turns of the loop, and the next one up to any of its operations. -/
def Within (chain : Set MinedLog) (start cursor : U64) (earlier : List U64)
    (history : History Watch) : Prop :=
  ∃ turned part left, Watching chain start (cursor :: earlier) turned ∧
    Advances (provider chain) (watchRound cursor).run () part left () ∧
    history = turned ++ historyOf part

variable {chain : Set MinedLog} {start cursor : U64} {history : History Watch}
  {log : List (Entry Watch Unit)} {before after : Unit}

theorem Sent.later {event : EthHtlcEvent} (sent : Sent event history) (more : History Watch) :
    Sent event (history ++ more) := List.mem_append_left more sent

/-- All events are sent while the receiver is there. -/
theorem forward_sends {events : List EthHtlcEvent} {result : Except SwapError Bool}
    (execution : Execution (provider chain) (forward events).run before log result after) :
    result = .ok true ∧ ∀ event ∈ events, Sent event (historyOf log) := by
  induction events generalizing log before with
  | nil =>
      obtain ⟨rfl, rfl, -⟩ := execution.run_pure
      exact ⟨rfl, by simp⟩
  | cons event events ih =>
      simp only [forward] at execution
      obtain ⟨answer, _, _, late, rfl, rest⟩ := execution.request_bind
      have delivered : answer = true := execution.performed List.mem_cons_self
      subst delivered
      obtain ⟨done, sent⟩ := ih rest
      refine ⟨done, fun other member => ?_⟩
      rcases List.mem_cons.mp member with rfl | member
      · exact List.mem_cons_self
      · exact List.mem_cons_of_mem _ (sent other member)

/-- The logs of some kinds in a range have been sent. -/
def Delivered (chain : Set MinedLog) (kinds : List EventKind) (fromBlock toBlock : U64)
    (history : History Watch) : Prop :=
  ∀ log ∈ chain, log.event.kind ∈ kinds → fromBlock ≤ log.block → log.block ≤ toBlock →
    Sent log.forwarded history

theorem forwardKind_covers {kind : EventKind} {fromBlock toBlock : U64}
    {result : Except SwapError Forwarded}
    (execution : Execution (provider chain) (forwardKind kind fromBlock toBlock).run before log
      result after) :
    result = .ok .Failed ∨
      result = .ok .Sent ∧ Delivered chain [kind] fromBlock toBlock (historyOf log) := by
  obtain ⟨answer, _, _, late, rfl, rest⟩ := execution.request_bind
  have complete := execution.performed List.mem_cons_self
  cases answer with
  | error message =>
      obtain ⟨_, _, _, _, rfl, last⟩ := rest.request_bind
      exact .inl last.run_pure.2.1
  | ok logs =>
      obtain ⟨early, late, sent, middle, rfl, forwards, last⟩ := rest.run_bind
      obtain ⟨rfl, all⟩ := forward_sends forwards
      obtain ⟨rfl, rfl, -⟩ := last.run_pure
      refine .inr ⟨rfl, fun mined there kinds first last => ?_⟩
      have returned : mined ∈ logs :=
        complete logs rfl mined there (List.mem_singleton.mp kinds) first last
      have sent := all _ (List.mem_map_of_mem returned)
      rw [historyOf_cons, List.append_nil]
      exact List.mem_cons_of_mem _ sent

theorem forwardKinds_covers {fromBlock toBlock : U64} {kinds : List EventKind}
    {result : Except SwapError Forwarded}
    (execution : Execution (provider chain) (forwardKinds fromBlock toBlock kinds).run before log
      result after) :
    result = .ok .Failed ∨
      result = .ok .Sent ∧ Delivered chain kinds fromBlock toBlock (historyOf log) := by
  induction kinds generalizing log before with
  | nil =>
      obtain ⟨rfl, rfl, -⟩ := execution.run_pure
      exact .inr ⟨rfl, fun _ _ none => by cases none⟩
  | cons kind kinds ih =>
      obtain ⟨early, late, ended, middle, rfl, first, rest⟩ := execution.run_bind
      rcases forwardKind_covers first with rfl | ⟨rfl, covered⟩
      · exact .inl rest.run_pure.2.1
      · rcases ih rest with failed | ⟨sent, others⟩
        · exact .inl failed
        · refine .inr ⟨sent, fun mined there member least greatest => ?_⟩
          rw [historyOf_append]
          rcases List.mem_cons.mp member with rfl | member
          · exact (covered mined there (by simp) least greatest).later _
          · exact List.mem_append_right _ (others mined there member least greatest)

/-- A round leaves the cursor where it is, or has sent all that it passes. -/
theorem watchRound_moves {result : Except SwapError (U64 ⊕ Unit)}
    (execution : Execution (provider chain) (watchRound cursor).run before log result after) :
    ∃ next, result = .ok (.inl next) ∧ (next = cursor ∨
      ∃ head, HeadSeen head (historyOf log) ∧ cursor ≤ U64.saturatingSub head 1 ∧
        next = U64.saturatingSub head 1 + 1 ∧ ∀ mined ∈ chain, cursor ≤ mined.block →
          mined.block ≤ U64.saturatingSub head 1 → Sent mined.forwarded (historyOf log)) := by
  obtain ⟨answer, _, _, late, rfl, rest⟩ := execution.request_bind
  cases answer with
  | error message =>
      obtain ⟨_, _, _, _, rfl, last⟩ := rest.request_bind
      exact ⟨cursor, last.run_pure.2.1, .inl rfl⟩
  | ok head =>
      dsimp only at rest
      split at rest
      · rename_i ahead
        obtain ⟨early, late, ended, middle, rfl, kinds, last⟩ := rest.run_bind
        rcases forwardKinds_covers kinds with rfl | ⟨rfl, covered⟩
        · exact ⟨cursor, last.run_pure.2.1, .inl rfl⟩
        · obtain ⟨_, _, _, _, rfl, slept⟩ := Execution.request_bind last
          refine ⟨_, slept.run_pure.2.1, .inr ⟨head, List.mem_cons_self, ahead, rfl, ?_⟩⟩
          intro mined there first last
          have any : mined.event.kind ∈ [EventKind.Locked, .Claimed, .Refunded] := by
            cases mined.event.kind <;> decide
          have sent := (covered mined there any first last).later
          rw [historyOf_cons, historyOf_append]
          exact List.mem_cons_of_mem _ (sent _)
      · obtain ⟨_, _, _, _, rfl, last⟩ := rest.request_bind
        exact ⟨cursor, last.run_pure.2.1, .inl rfl⟩

/-- The loop, from any of its turns and wherever it is cut off, is within one of its turns. -/
theorem Watching.within {fuel : Nat} {earlier : List U64}
    {rest : Program Watch (Except SwapError Unit)}
    (watching : Watching chain start (cursor :: earlier) history)
    (advances : Advances (provider chain) (iterate watchRound fuel cursor).run () log rest ()) :
    ∃ cursor earlier, Within chain start cursor earlier (history ++ historyOf log) := by
  induction fuel generalizing cursor earlier history log with
  | zero =>
      cases advances
      exact ⟨cursor, earlier, history, [], _, watching, .none, rfl⟩
  | succ fuel ih =>
      simp only [iterate, ExceptT.run_bind] at advances
      rcases advances.bind with ⟨left, inside⟩ | ⟨early, late, ended, _, rfl, turn, onward⟩
      · exact ⟨cursor, earlier, history, log, left, watching, inside, rfl⟩
      · obtain ⟨next, rfl, -⟩ := watchRound_moves turn
        rw [historyOf_append, ← List.append_assoc]
        exact ih (watching.round turn) onward

/-- Every run of the watcher, wherever it is cut off, is still at its first head or is within a
turn of the loop. -/
theorem watchEvents_watching {fuel : Nat} {rest : Program Watch (Except SwapError Unit)}
    (advances : Advances (provider chain) (watchEvents fuel).run () log rest ()) :
    (∃ left, Advances (provider chain) (initialBlock fuel).run () log left ()) ∨
      ∃ start cursor earlier, Within chain start cursor earlier (historyOf log) := by
  rw [watchEvents, ExceptT.run_bind] at advances
  rcases advances.bind with inside | ⟨early, late, found, _, rfl, first, onward⟩
  · exact .inl inside
  · cases found with
    | error error =>
        cases onward
        rw [List.append_nil]
        exact .inl ⟨_, .complete first⟩
    | ok start =>
        right
        rw [historyOf_append]
        exact ⟨start, Watching.within (.begin first) onward⟩

/-- What the receiver has been sent, and how far the cursor may be. -/
structure Delivering (chain : Set MinedLog) (start cursor : U64) (history : History Watch) : Prop where
  behind : ∃ head, HeadSeen head history ∧ cursor.toNat ≤ head.toNat + 1
  delivered : ∀ mined ∈ chain, start.toNat - 256 ≤ mined.block.toNat →
    mined.block.toNat < cursor.toNat → Sent mined.forwarded history

theorem Delivering.later (delivering : Delivering chain start cursor history)
    (more : History Watch) : Delivering chain start cursor (history ++ more) := by
  obtain ⟨⟨head, seen, near⟩, delivered⟩ := delivering
  exact ⟨⟨head, List.mem_append_left more seen, near⟩, fun mined there first last =>
    (delivered mined there first last).later more⟩

/-- The first head has been read. -/
theorem initialBlock_seen {fuel : Nat} (found : Execution (provider chain) (initialBlock fuel).run
    before log (.ok start) after) : HeadSeen start (historyOf log) := by
  induction fuel generalizing before log with
  | zero => cases found
  | succ fuel ih =>
      simp only [initialBlock, iterate] at found
      obtain ⟨early, late, ended, middle, rfl, turn, onward⟩ := found.run_bind
      obtain ⟨answer, _, _, _, rfl, answered⟩ := turn.request_bind
      rw [historyOf_append]
      cases answer with
      | error message =>
          obtain ⟨_, _, _, _, rfl, slept⟩ := Execution.request_bind answered
          obtain ⟨rfl, rfl, -⟩ := slept.run_pure
          exact List.mem_append_right _ (ih onward)
      | ok head =>
          obtain ⟨rfl, rfl, -⟩ := Execution.run_pure answered
          obtain ⟨rfl, same, -⟩ := Execution.run_pure onward
          cases same
          exact List.mem_cons_self

/-- What holds at the start of every round. -/
theorem Watching.delivers {earlier : List U64}
    (watching : Watching chain start (cursor :: earlier) history) :
    (cursor :: earlier).Pairwise (fun later before => before ≤ later) ∧
      Delivering chain start cursor history := by
  generalize whole : cursor :: earlier = cursors at watching
  induction watching generalizing cursor earlier with
  | begin found =>
      obtain ⟨rfl, rfl⟩ := List.cons.inj whole
      refine ⟨List.pairwise_singleton _ _, ⟨start, initialBlock_seen found, ?_⟩, ?_⟩
      · rw [U64.toNat_saturatingSub]
        omega
      · intro mined there first last
        rw [U64.toNat_saturatingSub] at last
        exact absurd last (Nat.not_lt.mpr first)
  | @round previous next earlier history log watching turn ih =>
      obtain ⟨rfl, rfl⟩ := List.cons.inj whole
      obtain ⟨sorted, delivering⟩ := ih rfl
      obtain ⟨_, same, moved⟩ := watchRound_moves turn
      cases same
      rcases moved with rfl | ⟨head, seen, ahead, rfl, sent⟩
      · refine ⟨List.pairwise_cons.mpr ⟨fun other member => ?_, sorted⟩, delivering.later _⟩
        rcases List.mem_cons.mp member with rfl | member
        · exact BitVec.le_refl _
        · exact (List.pairwise_cons.mp sorted).1 other member
      · have last := U64.toNat_saturatingSub head 1
        have one : (1 : U64).toNat = 1 := rfl
        have small := head.isLt
        have after : (U64.saturatingSub head 1 + 1).toNat = head.toNat - 1 + 1 := by
          rw [BitVec.toNat_add, last, one]
          omega
        have ahead : previous.toNat ≤ head.toNat - 1 := by
          rw [← one, ← last]
          exact ahead
        refine ⟨List.pairwise_cons.mpr ⟨fun other member => ?_, sorted⟩, ⟨head,
          List.mem_append_right _ seen, by omega⟩, ?_⟩
        · have before : other ≤ previous := by
            rcases List.mem_cons.mp member with rfl | member
            · exact BitVec.le_refl _
            · exact (List.pairwise_cons.mp sorted).1 other member
          rw [BitVec.le_def] at before ⊢
          omega
        · intro mined there first below
          rw [after] at below
          by_cases passed : mined.block.toNat < previous.toNat
          · exact (delivering.delivered mined there first passed).later _
          · apply List.mem_append_right
            apply sent mined there
            · rw [BitVec.le_def]
              omega
            · rw [BitVec.le_def, last, one]
              omega

/-- Every run of the watcher, wherever it is cut off, is still at its first head or is within a
turn of the loop. There the cursor has only moved on, is at most one past a head that was read,
and everything from the replayed blocks up to it has been sent. -/
theorem watcher_delivers :
    (∀ fuel log rest, Advances (provider chain) (watchEvents fuel).run () log rest () →
      (∃ left, Advances (provider chain) (initialBlock fuel).run () log left ()) ∨
        ∃ start cursor earlier, Within chain start cursor earlier (historyOf log)) ∧
    ∀ start cursor earlier history, Within chain start cursor earlier history →
      (cursor :: earlier).Pairwise (fun later before => before ≤ later) ∧
        Delivering chain start cursor history := by
  constructor
  · intro fuel log rest advances
    exact watchEvents_watching advances
  · rintro start cursor earlier history ⟨turned, part, left, watching, -, rfl⟩
    obtain ⟨sorted, delivering⟩ := watching.delivers
    exact ⟨sorted, delivering.later _⟩

/-- A claim in block 10. -/
def minedClaim : MinedLog := ⟨10, none, .Claimed (Bytes.zero 32) (Bytes.zero 32)⟩

/-- The first head, and a round that meets a claim. -/
def testWatched : List (Entry Watch Unit) :=
  [⟨.getBlockNumber, .ok 12, (), ()⟩, ⟨.getBlockNumber, .ok 12, (), ()⟩,
    ⟨.query .Locked 0 11, .ok [], (), ()⟩, ⟨.query .Claimed 0 11, .ok [minedClaim], (), ()⟩,
    ⟨.send minedClaim.forwarded, true, (), ()⟩, ⟨.query .Refunded 0 11, .ok [], (), ()⟩,
    ⟨.sleep, (), (), ()⟩]

/-- A round that meets a claim sends it, and the run is past it then. -/
theorem watcher_delivers_test :
    (∃ rest, Advances (provider {minedClaim}) (watchEvents 1).run () testWatched rest ()) ∧
    Delivering {minedClaim} 12 12 (historyOf testWatched) := by
  have idle : ∀ kind, kind ≠ EventKind.Claimed →
      Faithful {minedClaim} (.query kind 0 11) (.ok []) := by
    rintro kind other logs same mined rfl here
    exact absurd here.symm other
  have claims : Faithful {minedClaim} (.query .Claimed 0 11) (.ok [minedClaim]) := by
    rintro logs same mined rfl - - -
    cases same
    exact List.mem_singleton.mpr rfl
  have first : Execution (provider {minedClaim}) (initialBlock 1).run ()
      [⟨.getBlockNumber, .ok 12, (), ()⟩] (.ok 12) () := .step .refl trivial .done
  have turn : Execution (provider {minedClaim}) (watchRound 0).run () testWatched.tail
      (.ok (.inl 12)) () :=
    .step .refl trivial (.step .refl (idle _ (by decide)) (.step .refl claims (.step .refl rfl
      (.step .refl (idle _ (by decide)) (.step .refl trivial .done)))))
  have watching := (Watching.begin first).round turn
  have within : Within {minedClaim} 12 12 [0] (historyOf testWatched) :=
    ⟨_, [], _, watching, .none, rfl⟩
  have runs : ∃ rest, Advances (provider {minedClaim}) (watchEvents 1).run () testWatched rest () :=
    Advances.after first (Advances.after turn ⟨_, .none⟩)
  exact ⟨runs, (watcher_delivers.2 12 12 [0] _ within).2⟩

end AtomicSwaps.Eth
