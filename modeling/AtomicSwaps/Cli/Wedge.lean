import AtomicSwaps.Cli.MakerProcess

/-!
# The verdict on a wedge

A locked escrow that has expired and holds less than its amount may be a lock whose
funding never landed. Before it is quarantined it is looked at again, before and after
its balance, and the chain goes on meanwhile. A locked escrow that reads the same twice
was locked at every moment in between.
-/

namespace AtomicSwaps.Cli

open Semantics Swap
open Lez (HTLCEscrow escrowIn escrowAt)

variable {setting : Setting} {hashlock : Bytes32} {escrow : HTLCEscrow}

/-- What a run has done, in order. -/
abbrev Log (setting : Setting) := List (Entry interface (World setting))

/-- An escrow is read in a world. -/
def ReadIn (log : Log setting) (hashlock : Bytes32) (escrow : HTLCEscrow)
    (world : World setting) : Prop :=
  ∃ data after, ⟨.getAccount (setting.lezClient.escrowPda hashlock), .ok data, world, after⟩ ∈ log ∧
    escrowIn hashlock data = .ok (some escrow)

/-- The second look at a candidate: the escrow, its balance, and the escrow again. -/
def Rereads (hashlock : Bytes32) (candidate : HTLCEscrow) (start : World setting)
    (before between after : Log setting) (pre post : BoundedEscrowRead)
    (balance : Option U128) (final : World setting) : Prop :=
  ∃ first second,
    Execution (environment setting) (readEscrowBounded setting.lezClient hashlock).run
      start before (.ok pre) first ∧
    Execution (environment setting) (maxEscrowBalance (setting.lezClient.escrowPda hashlock)
      ((pre.escrow.map (·.amount)).getD candidate.amount)).run first between (.ok balance) second ∧
    Execution (environment setting) (readEscrowBounded setting.lezClient hashlock).run
      second after (.ok post) final

/-- A wedge: the escrow is locked from the first read of it to the last one, every balance
that was read in between is below its amount, and it has expired. -/
structure Wedged (hashlock : Bytes32) (before between after : Log setting) (now : U64)
    (escrow : HTLCEscrow) : Prop where
  locked : escrow.state = .Locked
  throughout : ∃ first last, ReadIn before hashlock escrow first ∧
    ReadIn after hashlock escrow last ∧ Grows first last ∧
    ∀ world, Grows first world → Grows world last → world.escrow hashlock = some escrow
  unpaid : BalancesBelow (setting.lezClient.escrowPda hashlock) escrow.amount (historyOf between)
  expired : escrow.timelock.toNat ≤ now.toNat * 1000

/-- What is done about a candidate after the second look at it. -/
structure Verdict (entry : InFlightSwap) (hashlock : Bytes32) (before between after : Log setting)
    (pre post : Option HTLCEscrow) (now : U64) (rest : Log setting) : Prop where
  quarantined : ∀ done ∈ rest, ∀ key reason, done.op = .quarantine key reason →
    key = entry.hashlock ∧
      ∃ escrow, pre = some escrow ∧ post = some escrow ∧ Wedged hashlock before between after now escrow
  recovered : ∀ escrow, pre = some escrow ∨ post = some escrow → escrow.state = .Claimed →
    ∃ preimage : Bytes32, escrow.preimage = some preimage.toList ∧
      ∃ start final, Execution (environment setting) (claimAndDrop entry preimage).run start rest
        (.ok ()) final
  dropped : ∀ escrow, post = some escrow → escrow.state = .Refunded →
    rest.map (·.op) = [.remove entry.hashlock, .ops (.refunded entry.hashlock)]
  retained : (∀ escrow, pre = some escrow ∨ post = some escrow → escrow.state ≠ .Claimed) →
    (∀ escrow, post = some escrow → escrow.state ≠ .Refunded) →
    (∀ escrow, pre = some escrow → post = some escrow →
      ¬ Wedged hashlock before between after now escrow) → rest = []

section Reads

variable {start final world first last : World setting} {log before between after : Log setting}
  {pre post : BoundedEscrowRead} {balance : Option U128} {candidate : HTLCEscrow}

/-- A bounded read of the escrow, performed. -/
theorem readEscrowBounded_run {result : Except SwapError BoundedEscrowRead}
    (execution : Execution (environment setting)
      (readEscrowBounded setting.lezClient hashlock).run start log result final) :
    ∃ read, result = .ok read ∧ ∀ escrow, read.escrow = some escrow →
      ∃ world, ReadIn log hashlock escrow world := by
  have follows : Follows (fun _ _ => True) (fun history result => ∃ read, result = .ok read ∧
      ∀ escrow, read.escrow = some escrow → EscrowRead setting.lezClient history hashlock escrow)
      (readEscrowBounded setting.lezClient hashlock).run [] :=
    readEscrowBounded_found (fun _ _ _ => trivial) fun middle read found => ⟨read, rfl, found⟩
  obtain ⟨read, same, found⟩ := execution.returns follows
  refine ⟨read, same, fun escrow present => ?_⟩
  obtain ⟨data, member, decoded⟩ := found escrow present
  obtain ⟨world, after, member⟩ := entry_of_mem member
  exact ⟨world, data, after, member, decoded⟩

/-- The bounded reads of a balance, performed. -/
theorem maxEscrowBalance_run {enough : U128} {pda : Lez.AccountId}
    {result : Except SwapError (Option U128)}
    (execution : Execution (environment setting) (maxEscrowBalance pda enough).run start log
      result final) : ∃ highest, result = .ok highest ∧ Highest pda highest (historyOf log) := by
  have follows : Follows (fun _ _ => True) (fun history result => ∃ highest,
      result = .ok highest ∧ Highest pda highest history) (maxEscrowBalance pda enough).run [] :=
    maxEscrowBalance_rests (fun _ _ _ => trivial) fun middle highest found =>
      ⟨highest, rfl, found⟩
  exact execution.returns follows

/-- An escrow that is read is there. -/
theorem ReadIn.there {α : Type} {program : Program interface α} {value : α}
    (read : ReadIn log hashlock escrow world)
    (execution : Execution (environment setting) program start log value final)
    (seeded : hashlock ∈ setting.runtime.seeds) :
    world.escrow hashlock = some escrow ∧ Grows start world ∧ Grows world final := by
  obtain ⟨data, after, member, decoded⟩ := read
  obtain ⟨middle, ⟨rfl, truthful⟩, drifts⟩ := execution.performed member
  have ordered := execution.ordered Grows.refl (fun first second => first.trans second)
    Drift.grows performed_grows
  exact ⟨truthful hashlock seeded rfl data escrow rfl decoded, (ordered.2 _ member).1,
    (drifts_grow drifts).trans (ordered.2 _ member).2⟩

/-- What an escrow was between two worlds in which it is the same and locked. -/
theorem escrow_between (seeded : hashlock ∈ setting.runtime.seeds)
    (early : first.escrow hashlock = some escrow) (late : last.escrow hashlock = some escrow)
    (locked : escrow.state = .Locked) (since : Grows first world) (until' : Grows world last) :
    world.escrow hashlock = some escrow := by
  have moved := since.lez.moves hashlock seeded
  have moves := until'.lez.moves hashlock seeded
  unfold World.escrow at early late ⊢
  rw [early] at moved
  rw [late] at moves
  rcases moved.some_cases with same | ⟨-, settled, same, -⟩
  · exact same
  · rcases moves.locked_cases locked with gone | same'
    · rw [same] at gone
      cases gone
    · exact same'

/-- A claimed escrow shows a preimage. -/
theorem claimed_shows (seeded : hashlock ∈ setting.runtime.seeds)
    (there : world.escrow hashlock = some escrow) (claimed : escrow.state = .Claimed) :
    ∃ preimage : Bytes32, escrow.preimage = some preimage.toList := by
  obtain ⟨events, lawful⟩ := world.lez.lawful
  obtain ⟨owned, stored⟩ := Lez.escrowAt_eq_some.mp there
  obtain ⟨decoded, read, -, shown⟩ := (lawful.lives hashlock seeded).decodes owned
  rw [stored] at read
  cases read
  obtain ⟨preimage, same, length, -⟩ := shown.mp claimed
  exact ⟨⟨preimage, length⟩, same⟩

/-- The escrows that are read first and last are there, one after the other. -/
theorem Rereads.there (rereads : Rereads hashlock candidate start before between after pre post
      balance final) (seeded : hashlock ∈ setting.runtime.seeds) {early late : HTLCEscrow}
    (preRead : pre.escrow = some early) (postRead : post.escrow = some late) :
    ∃ first last, ReadIn before hashlock early first ∧ ReadIn after hashlock late last ∧
      first.escrow hashlock = some early ∧ last.escrow hashlock = some late ∧ Grows first last := by
  obtain ⟨middle, second, preRun, balanceRun, postRun⟩ := rereads
  obtain ⟨_, ⟨⟩, found⟩ := readEscrowBounded_run preRun
  obtain ⟨first, earlyRead⟩ := found early preRead
  obtain ⟨_, ⟨⟩, found⟩ := readEscrowBounded_run postRun
  obtain ⟨last, lateRead⟩ := found late postRead
  obtain ⟨earlyThere, -, onward⟩ := earlyRead.there preRun seeded
  obtain ⟨lateThere, since, -⟩ := lateRead.there postRun seeded
  have through : Grows middle second := (balanceRun.ordered Grows.refl
    (fun first second => first.trans second) Drift.grows performed_grows).1
  exact ⟨first, last, earlyRead, lateRead, earlyThere, lateThere,
    (onward.trans through).trans since⟩

/-- An escrow that is settled at the first read is the same at the last one. -/
theorem Rereads.settled (rereads : Rereads hashlock candidate start before between after pre post
      balance final) (seeded : hashlock ∈ setting.runtime.seeds) {early late : HTLCEscrow}
    (preRead : pre.escrow = some early) (postRead : post.escrow = some late)
    (settled : early.state ≠ .Locked) : late = early := by
  obtain ⟨first, last, -, -, earlyThere, lateThere, grown⟩ :=
    rereads.there seeded preRead postRead
  have kept := grown.settled seeded earlyThere settled
  rw [lateThere] at kept
  exact Option.some.inj kept

/-- An escrow that is locked at the last read was the same at the first one. -/
theorem Rereads.locked (rereads : Rereads hashlock candidate start before between after pre post
      balance final) (seeded : hashlock ∈ setting.runtime.seeds) {early late : HTLCEscrow}
    (preRead : pre.escrow = some early) (postRead : post.escrow = some late)
    (locked : late.state = .Locked) : late = early := by
  obtain ⟨first, last, -, -, earlyThere, lateThere, grown⟩ :=
    rereads.there seeded preRead postRead
  have moves := grown.lez.moves hashlock seeded
  unfold World.escrow at earlyThere lateThere
  rw [earlyThere, lateThere] at moves
  rcases moves.locked_cases locked with gone | same
  · cases gone
  · exact (Option.some.inj same).symm

/-- The claimed escrow that is chosen for recovery is the one on the chain, and no read
showed another one. -/
theorem Rereads.claimed (rereads : Rereads hashlock candidate start before between after pre post
      balance final) (seeded : hashlock ∈ setting.runtime.seeds) {claimed : HTLCEscrow}
    (chosen : (post.escrow.filter (·.state = .Claimed)).or
      (pre.escrow.filter (·.state = .Claimed)) = some claimed) :
    claimed.state = .Claimed ∧ (∃ world : World setting, world.escrow hashlock = some claimed) ∧
      (∀ escrow, post.escrow = some escrow → escrow = claimed) ∧
      ∀ escrow, pre.escrow = some escrow → escrow.state = .Claimed → escrow = claimed := by
  have settled : ∀ early late, pre.escrow = some early → post.escrow = some late →
      early.state ≠ .Locked → late = early := fun _ _ => rereads.settled seeded
  obtain ⟨_, _, preRun, -, postRun⟩ := rereads
  rcases Option.or_eq_some_iff.mp chosen with late | ⟨-, early⟩
  · obtain ⟨postRead, state⟩ := Option.filter_eq_some_iff.mp late
    obtain ⟨_, ⟨⟩, found⟩ := readEscrowBounded_run postRun
    obtain ⟨world, read⟩ := found claimed postRead
    have state : claimed.state = .Claimed := by simpa using state
    refine ⟨state, ⟨world, (read.there postRun seeded).1⟩, fun escrow read => ?_,
      fun escrow read early => ?_⟩
    · exact Option.some.inj (read.symm.trans postRead)
    · exact (settled escrow claimed read postRead (by simp [early])).symm
  · obtain ⟨preRead, state⟩ := Option.filter_eq_some_iff.mp early
    obtain ⟨_, ⟨⟩, found⟩ := readEscrowBounded_run preRun
    obtain ⟨world, read⟩ := found claimed preRead
    have state : claimed.state = .Claimed := by simpa using state
    refine ⟨state, ⟨world, (read.there preRun seeded).1⟩, fun escrow read => ?_,
      fun escrow read _ => ?_⟩
    · exact settled claimed escrow preRead read (by simp [state])
    · exact Option.some.inj (read.symm.trans preRead)

/-- Two reads of a locked escrow, and what was read in between. -/
theorem Wedged.of_reads {now timelock : U64} {amount : U128}
    (seeded : hashlock ∈ setting.runtime.seeds)
    (rereads : Rereads hashlock candidate start before between after pre post balance final)
    (decided : classifyWedgeReread (pre.escrow.map (·.state)) balance (post.escrow.map (·.state))
      (now * 1000) timelock amount = .Quarantine)
    (timelocked : ∀ escrow, post.escrow = some escrow → timelock = escrow.timelock)
    (amounted : ∀ escrow, post.escrow = some escrow → amount = escrow.amount) :
    ∃ escrow, pre.escrow = some escrow ∧ post.escrow = some escrow ∧
      Wedged hashlock before between after now escrow := by
  obtain ⟨locked, still, top, rfl, expired, below⟩ := classifyWedgeReread_quarantine decided
  obtain ⟨escrow, preRead, locked⟩ := Option.map_eq_some_iff.mp locked
  obtain ⟨late, postRead, still⟩ := Option.map_eq_some_iff.mp still
  obtain rfl := rereads.locked seeded preRead postRead still
  obtain ⟨first, last, earlyRead, lateRead, early, late', grown⟩ :=
    rereads.there seeded preRead postRead
  obtain ⟨_, _, -, balanceRun, -⟩ := rereads
  obtain ⟨_, ⟨⟩, highest⟩ := maxEscrowBalance_run balanceRun
  rw [timelocked _ postRead] at expired
  rw [amounted _ postRead] at below
  refine ⟨_, preRead, postRead, locked, ⟨first, last, earlyRead, lateRead, grown,
    fun world since until' => escrow_between seeded early late' locked since until'⟩,
    ⟨highest.2 top rfl, fun balance read => ?_⟩, ?_⟩
  · obtain ⟨_, ⟨⟩, lower⟩ := highest.1 balance read
    bv_omega
  · have wrapped : (now * 1000).toNat ≤ now.toNat * 1000 := by
      rw [BitVec.toNat_mul]
      exact Nat.mod_le _ _
    exact Nat.le_trans (BitVec.le_def.mp expired) wrapped

end Reads

section Verdicts

variable {start final : World setting} {log : Log setting} {entry : InFlightSwap}

/-- A candidate is recovered exactly when it was claimed at one of the two reads. -/
theorem classifyWedgeReread_recover_iff {pre post : Option Lez.HTLCState} {balance : Option U128}
    {nowMs timelockMs : U64} {amount : U128} :
    classifyWedgeReread pre balance post nowMs timelockMs amount = .RecoverClaimed ↔
      pre = some .Claimed ∨ post = some .Claimed := by
  unfold classifyWedgeReread
  split
  · rename_i claimed
    simp [claimed]
  · rename_i unclaimed
    constructor
    · intro recovered
      split at recovered
      · cases recovered
      · split at recovered
        · split at recovered <;> cases recovered
        · cases recovered
    · exact fun claimed => absurd claimed unclaimed

/-- A candidate that was refunded at the last read is dropped, unless it was claimed. -/
theorem classifyWedgeReread_refunded {pre post : Option Lez.HTLCState} {balance : Option U128}
    {nowMs timelockMs : U64} {amount : U128} (refunded : post = some .Refunded)
    (unclaimed : pre ≠ some .Claimed) :
    classifyWedgeReread pre balance post nowMs timelockMs amount = .Dropped := by
  simp [classifyWedgeReread, refunded, unclaimed]

/-- A complete run of two operations. -/
theorem two_requests_run {first second : Op} {result : Except SwapError (Answer second)}
    (execution : Execution (environment setting)
      (request first >>= fun _ => request second).run start log result final) :
    log.map (·.op) = [first, second] := by
  obtain ⟨_, _, _, later, rfl, onward⟩ := execution.request_bind
  cases onward with
  | step drifted performed last =>
      cases last
      rfl

/-- On the way to the maker's ETH nothing fails and no entry is quarantined. -/
theorem claimAndDrop_spares {preimage : Bytes32} {history : Trace} :
    Follows (fun _ op => ∀ key reason, op ≠ Op.quarantine key reason)
      (fun _ result => result = .ok ()) (claimAndDrop entry preimage).run history := by
  apply Follows.run_bind_iff.mpr
  apply claimEth_rests
  · rintro later op quiet key reason rfl
    exact quiet
  · simp
  · intro later outcome _ _
    simp only [Follows.run_ite_iff]
    refine ⟨fun _ => ?_, fun _ => rfl⟩
    refine .request_bind (by simp) fun _ => ?_
    exact ⟨by simp, fun _ => rfl⟩

/-- A complete run of the second look at a candidate and what follows from it. -/
theorem resolveWedge_run {candidate : HTLCEscrow} {balance : U128} {result : Except SwapError Unit}
    (execution : Execution (environment setting)
      (resolveWedge setting.lezClient entry hashlock candidate balance).run start log result final)
    (seeded : hashlock ∈ setting.runtime.seeds) :
    ∃ before between after pre post fresh middle now read reached rest,
      log = before ++ between ++ after ++ ⟨.nowUnix, now, read, reached⟩ :: rest ∧
      Rereads hashlock candidate start before between after pre post fresh middle ∧
      Verdict entry hashlock before between after pre.escrow post.escrow now rest := by
  obtain ⟨before, _, _, first, rfl, preRun, onward⟩ := execution.run_bind
  obtain ⟨pre, rfl, -⟩ := readEscrowBounded_run preRun
  obtain ⟨between, _, _, second, rfl, balanceRun, onward⟩ := onward.run_bind
  obtain ⟨fresh, rfl, -⟩ := maxEscrowBalance_run balanceRun
  obtain ⟨after, _, _, third, rfl, postRun, timed⟩ := onward.run_bind
  obtain ⟨post, rfl, -⟩ := readEscrowBounded_run postRun
  obtain ⟨now, read, reached, rest, rfl, decides⟩ := timed.request_bind
  have rereads : Rereads hashlock candidate start before between after pre post fresh third :=
    ⟨first, second, preRun, balanceRun, postRun⟩
  refine ⟨before, between, after, pre, post, fresh, third, now, read, reached, rest, by simp,
    rereads, ?_⟩
  generalize decided : classifyWedgeReread (pre.escrow.map (·.state)) fresh
    (post.escrow.map (·.state)) (now * 1000)
    ((post.escrow.map (·.timelock)).getD ((pre.escrow.map (·.timelock)).getD candidate.timelock))
    ((post.escrow.map (·.amount)).getD ((pre.escrow.map (·.amount)).getD candidate.amount)) =
      disposition at decides
  have unclaimed : disposition ≠ .RecoverClaimed → ∀ escrow,
      pre.escrow = some escrow ∨ post.escrow = some escrow → escrow.state ≠ .Claimed := by
    rintro other escrow read claimed
    apply other
    rw [← decided, classifyWedgeReread_recover_iff]
    exact read.imp (fun read => by simp [read, claimed]) fun read => by simp [read, claimed]
  cases disposition with
  | Quarantine =>
      have wedge := Wedged.of_reads seeded rereads decided
        (fun escrow present => by simp [present]) (fun escrow present => by simp [present])
      obtain ⟨-, still, -⟩ := classifyWedgeReread_quarantine decided
      refine ⟨fun done member key reason same => ?_, fun escrow read claimed =>
        absurd claimed (unclaimed (by simp) escrow read), fun escrow read refunded => ?_,
        fun _ _ unwedged => ?_⟩
      · have operation : Op.quarantine key reason ∈ rest.map (·.op) :=
          List.mem_map.mpr ⟨done, member, same⟩
        rw [two_requests_run decides] at operation
        simp only [List.mem_cons, Op.quarantine.injEq, reduceCtorEq, List.not_mem_nil, or_self,
          or_false] at operation
        exact ⟨operation.1, wedge⟩
      · simp [read, refunded] at still
      · obtain ⟨escrow, early, late, wedged⟩ := wedge
        exact absurd wedged (unwedged escrow early late)
  | RecoverClaimed =>
      dsimp only at decides
      split at decides
      · rename_i claimed chosen
        obtain ⟨state, ⟨world, there⟩, late, early⟩ := rereads.claimed seeded chosen
        obtain ⟨preimage, shown⟩ := claimed_shows seeded there state
        have same : recoverClaimedEscrow entry claimed = claimAndDrop entry preimage := by
          simp [recoverClaimedEscrow, shown]
        rw [same] at decides
        have follows := @claimAndDrop_spares entry preimage []
        refine ⟨fun done member key reason quarantines => ?_, fun escrow read claimed => ?_,
          fun escrow read refunded => ?_, fun unclaimed _ _ => ?_⟩
        · obtain ⟨earlier, later, rfl⟩ := List.append_of_mem member
          exact absurd quarantines (decides.obeys follows rfl key reason)
        · have found : escrow = _ := read.elim (fun read => early _ read claimed) (late _)
          obtain rfl : result = .ok () := decides.returns follows
          exact ⟨preimage, found ▸ shown, reached, final, decides⟩
        · rw [late escrow read, state] at refunded
          cases refunded
        · rcases classifyWedgeReread_recover_iff.mp decided with seen | seen
          · obtain ⟨escrow, read, claimed⟩ := Option.map_eq_some_iff.mp seen
            exact absurd claimed (unclaimed escrow (.inl read))
          · obtain ⟨escrow, read, claimed⟩ := Option.map_eq_some_iff.mp seen
            exact absurd claimed (unclaimed escrow (.inr read))
      · cases decides
  | Dropped =>
      refine ⟨fun done member key reason same => ?_, fun escrow read claimed =>
        absurd claimed (unclaimed (by simp) escrow read), fun _ _ _ => two_requests_run decides,
        fun _ unrefunded _ => ?_⟩
      · have operation : Op.quarantine key reason ∈ rest.map (·.op) :=
          List.mem_map.mpr ⟨done, member, same⟩
        rw [two_requests_run decides] at operation
        simp at operation
      · obtain ⟨escrow, read, refunded⟩ :=
          Option.map_eq_some_iff.mp (classifyWedgeReread_dropped decided)
        exact absurd refunded (unrefunded escrow read)
  | Retain =>
      cases decides
      refine ⟨by simp, fun escrow read claimed => absurd claimed (unclaimed (by simp) escrow read),
        fun escrow read refunded => ?_, fun _ _ _ => rfl⟩
      have early : pre.escrow.map (·.state) ≠ some .Claimed := by
        intro claimed
        obtain ⟨escrow, read, claimed⟩ := Option.map_eq_some_iff.mp claimed
        exact unclaimed (by simp) escrow (.inl read) claimed
      rw [classifyWedgeReread_refunded (by simp [read, refunded]) early] at decided
      cases decided

/-- A quarantine retires an entry whose escrow was never seen, or follows from a second
look at a candidate. -/
def Explained (log : Log setting) (done : Entry interface (World setting)) (reason : String) :
    Prop :=
  (∃ reads, reason = retiredReason reads) ∨
    ∃ run, run <:+: log ∧ done ∈ run ∧
      ∃ (entry : InFlightSwap) (hashlock : Bytes32) (candidate : HTLCEscrow) (balance : U128)
        (start final : World setting) (result : Except SwapError Unit),
        parseHashlockHex entry.hashlock = some hashlock ∧
        Execution (environment setting)
          (resolveWedge setting.lezClient entry hashlock candidate balance).run start run result final

/-- Every quarantine of a run is explained. -/
def Explains (log : Log setting) : Prop :=
  ∀ done ∈ log, ∀ key reason, done.op = .quarantine key reason → Explained log done reason

theorem Explains.append {early late : Log setting} (first : Explains early)
    (second : Explains late) : Explains (early ++ late) := by
  intro done member key reason same
  rcases List.mem_append.mp member with there | there
  · refine (first done there key reason same).imp_right ?_
    rintro ⟨run, part, rest⟩
    exact ⟨run, part.trans (List.prefix_append _ _).isInfix, rest⟩
  · refine (second done there key reason same).imp_right ?_
    rintro ⟨run, part, rest⟩
    exact ⟨run, part.trans (List.suffix_append _ _).isInfix, rest⟩

theorem Explains.cons {done : Entry interface (World setting)} (rest : Explains log)
    (other : ∀ key reason, done.op ≠ .quarantine key reason) : Explains (done :: log) := by
  have alone : Explains [done] := by
    intro one member key reason same
    obtain rfl := List.mem_singleton.mp member
    exact absurd same (other key reason)
  exact alone.append rest

theorem Explains.nil : Explains ([] : Log setting) := by
  intro done member
  cases member

/-- A program that quarantines nothing. -/
def Spares {α : Type} (program : Program interface α) : Prop :=
  Follows (fun _ op => ∀ key reason, op ≠ Op.quarantine key reason) (fun _ _ => True) program []

/-- What quarantines nothing needs no explanation. -/
theorem Explains.of_spares {α : Type} {program : Program interface α} {value : α}
    (execution : Execution (environment setting) program start log value final)
    (spares : Spares program) : Explains log := by
  intro done member key reason same
  obtain ⟨earlier, later, rfl⟩ := List.append_of_mem member
  exact absurd same (execution.obeys spares rfl key reason)

/-- No quiet operation is a quarantine. -/
theorem spares_quiet (_ : Trace) (op : Op) (quiet : op.Quiet) :
    ∀ key reason, op ≠ Op.quarantine key reason := by
  rintro key reason rfl
  exact quiet

theorem drop_explains {key : String} {call : OpsCall} {result : Except SwapError Unit}
    (execution : Execution (environment setting) (drop key call).run start log result final) :
    Explains log := by
  intro done member other reason same
  have operation : Op.quarantine other reason ∈ log.map (·.op) :=
    List.mem_map.mpr ⟨done, member, same⟩
  rw [two_requests_run execution] at operation
  simp at operation

theorem recoverClaimedEscrow_explains {result : Except SwapError Unit}
    (execution : Execution (environment setting) (recoverClaimedEscrow entry escrow).run start log
      result final) : Explains log := by
  unfold recoverClaimedEscrow at execution
  split at execution
  · exact .of_spares execution (claimAndDrop_spares.weaken fun _ _ _ => trivial)
  · exact drop_explains execution

theorem refundEntry_explains {fuel : Nat} {result : Except SwapError Unit}
    (execution : Execution (environment setting)
      (refundEntry setting.lezClient fuel entry hashlock).run start log result final) :
    Explains log := by
  have spares : Spares (refundEntry setting.lezClient fuel entry hashlock).run := by
    apply Follows.run_bind_iff.mpr
    apply Follows.run_attempt_iff.mpr
    apply refundConfirmed_rests spares_quiet
    · simp
    · intro later txHash _ _
      exact .request_bind (by simp) fun _ => ⟨by simp, fun _ => trivial⟩
    · exact fun later preimage _ _ => claimAndDrop_spares.weaken fun _ _ _ => trivial
    · exact fun _ _ _ => trivial
  exact .of_spares execution spares

theorem settleLocked_explains {fuel : Nat} {result : Except SwapError Unit}
    (parsed : parseHashlockHex entry.hashlock = some hashlock)
    (execution : Execution (environment setting)
      (settleLocked setting.lezClient fuel entry hashlock escrow).run start log result final) :
    Explains log := by
  obtain ⟨reads, _, balance, _, rfl, balanceRun, onward⟩ := execution.run_bind
  have spares : Spares (maxEscrowBalance (setting.lezClient.escrowPda hashlock) escrow.amount).run :=
    maxEscrowBalance_rests spares_quiet fun _ _ _ => trivial
  refine .append (.of_spares balanceRun spares) ?_
  obtain ⟨highest, rfl, -⟩ := maxEscrowBalance_run balanceRun
  cases highest with
  | none =>
      cases onward
      exact .nil
  | some balance =>
      obtain ⟨_, _, _, _, rfl, judged⟩ := onward.request_bind
      refine .cons ?_ (by simp)
      split at judged
      · exact fun done member key reason _ =>
          .inr ⟨_, List.infix_refl _, member, entry, hashlock, escrow, balance, _, _, _, parsed, judged⟩
      · obtain ⟨_, _, _, _, rfl, decided⟩ := judged.request_bind
        refine .cons ?_ (by simp)
        split at decided
        · exact refundEntry_explains decided
        · cases decided with
          | step drifted performed last =>
              cases last
              exact .cons .nil (by simp)

theorem reconcileFound_explains {fuel : Nat} {result : Except SwapError Unit}
    (parsed : parseHashlockHex entry.hashlock = some hashlock)
    (execution : Execution (environment setting)
      (reconcileFound setting.lezClient fuel entry hashlock escrow).run start log result final) :
    Explains log := by
  by_cases unlocked : entry.stage = .PreLock
  · simp only [reconcileFound, unlocked, if_true] at execution
    obtain ⟨_, _, _, _, rfl, onward⟩ := execution.request_bind
    refine .cons ?_ (by simp)
    split at onward
    · exact recoverClaimedEscrow_explains onward
    · exact drop_explains onward
    · exact settleLocked_explains parsed onward
  · simp only [reconcileFound, unlocked, if_false] at execution
    split at execution
    · exact recoverClaimedEscrow_explains execution
    · exact drop_explains execution
    · exact settleLocked_explains parsed execution

theorem reconcileAbsent_explains {read : BoundedEscrowRead} {result : Except SwapError Unit}
    (execution : Execution (environment setting) (reconcileAbsent entry read).run start log result
      final) : Explains log := by
  unfold reconcileAbsent at execution
  split at execution
  · intro done member key reason same
    have operation : Op.quarantine key reason ∈ log.map (·.op) :=
      List.mem_map.mpr ⟨done, member, same⟩
    rw [two_requests_run execution] at operation
    simp only [List.mem_cons, Op.quarantine.injEq, reduceCtorEq, List.not_mem_nil, or_self,
      or_false] at operation
    exact .inl ⟨_, operation.2⟩
  all_goals
    cases execution
    exact .nil

theorem reconcileEntry_explains {fuel : Nat} {result : Except SwapError Unit}
    (execution : Execution (environment setting)
      (reconcileEntry setting.lezClient fuel entry).run start log result final) :
    Explains log := by
  unfold reconcileEntry at execution
  split at execution
  · exact drop_explains execution
  · rename_i hashlock parsed
    obtain ⟨reads, _, read, _, rfl, readRun, onward⟩ := execution.run_bind
    have spares : Spares (readEscrowBounded setting.lezClient hashlock).run :=
      readEscrowBounded_found spares_quiet fun _ _ _ => trivial
    refine .append (.of_spares readRun spares) ?_
    obtain ⟨read, rfl, -⟩ := readEscrowBounded_run readRun
    dsimp only at onward
    split at onward
    · exact reconcileFound_explains parsed onward
    · exact reconcileAbsent_explains onward

/-- The loop of `reconcile`. -/
theorem reconcileEntries_explains {fuel : Nat} {entries : List InFlightSwap} :
    ∀ {start : World setting} {log : Log setting} {result : Except SwapError Unit},
      Execution (environment setting) (reconcileEntries setting.lezClient fuel entries).run start
        log result final → Explains log := by
  induction entries with
  | nil =>
      intro start log result execution
      cases execution
      exact .nil
  | cons entry rest ih =>
      intro start log result execution
      obtain ⟨_, _, first, _, rfl, here, onward⟩ := execution.run_bind
      refine .append (reconcileEntry_explains here) ?_
      cases first with
      | ok => exact ih onward
      | error e =>
          obtain ⟨rfl, -⟩ := onward
          exact .nil

/-- `reconcile` retires entries whose escrow was never seen, and quarantines no other one
without a second look. -/
theorem reconcile_explains {fuel : Nat} {result : Except SwapError Unit}
    (execution : Execution (environment setting) (reconcile setting.lezClient fuel).run start log
      result final) : Explains log := by
  obtain ⟨entries, _, _, _, rfl, onward⟩ := execution.request_bind
  refine .cons ?_ (by simp)
  split at onward
  · cases onward
    exact .nil
  · obtain ⟨connected, _, _, _, rfl, listed⟩ := onward.request_bind
    refine .cons ?_ (by simp)
    cases connected with
    | error e =>
        cases listed
        exact .nil
    | ok => exact reconcileEntries_explains listed

/-- A wedge is quarantined only if its escrow was locked from the first of the two reads to
the last one, below its amount at every balance read in between, and expired. A claim seen
at either read leads to the maker's ETH, a refund at the last one drops the entry, and
everything else keeps it. -/
theorem wedge_quarantine_sound (setting : Setting) :
    (∀ fuel start log result final,
      Execution (environment setting) (reconcile setting.lezClient fuel).run start log result final →
        Explains log) ∧
    ∀ entry hashlock candidate balance start log result final,
      hashlock ∈ setting.runtime.seeds →
      Execution (environment setting)
        (resolveWedge setting.lezClient entry hashlock candidate balance).run start log result final →
      ∃ before between after pre post fresh middle now read reached rest,
        log = before ++ between ++ after ++ ⟨.nowUnix, now, read, reached⟩ :: rest ∧
        Rereads hashlock candidate start before between after pre post fresh middle ∧
        Verdict entry hashlock before between after pre.escrow post.escrow now rest := by
  refine ⟨fun fuel start log result final execution => reconcile_explains execution, ?_⟩
  intro entry hashlock candidate balance start log result final seeded execution
  exact resolveWedge_run execution seeded

end Verdicts

/-- The test escrow locked but never funded, after it has expired. -/
def testStranded : World testMakerSetting :=
  { testMakerWorld testEscrowLocked [testEntry .Funded] with now := 1700000001, synced := trivial }

/-- The same once the entry is quarantined. -/
def testRetired : World testMakerSetting :=
  testStranded.withStore (testStranded.store.quarantine (testEntry .Funded).hashlock
    (wedgeReason 0 Lez.testTerms.amount) testStranded.now .ok)

/-- Balance reads that find nothing. -/
theorem test_balances (left : Nat) : ∃ log, Execution (environment testMakerSetting)
    (maxBalanceLeft Lez.testPda Lez.testTerms.amount left (some 0)).run testStranded log
      (.ok (some 0)) testStranded := by
  induction left with
  | zero => exact ⟨[], .done⟩
  | succ left ih =>
      obtain ⟨log, rest⟩ := ih
      have found : (environment testMakerSetting).perform (.getAccountBalance Lez.testPda)
          testStranded (.ok 0) testStranded := ⟨_, rfl, .refl⟩
      have slept : (environment testMakerSetting).perform .sleep testStranded () testStranded :=
        ⟨_, rfl, .refl⟩
      cases left with
      | zero => exact ⟨_, .step .refl found .done⟩
      | succ left => exact ⟨_, .step .refl found (.step .refl slept rest)⟩

/-- The second look at the test escrow. -/
theorem test_second_look : ∃ log, Execution (environment testMakerSetting)
    (resolveWedge testMakerSetting.lezClient (testEntry .Funded) testHashlock
      (Lez.testTerms.escrow testHashlock .Locked none) 0).run testStranded log (.ok ()) testRetired := by
  have reads : escrowIn testHashlock (Lez.testTerms.escrow testHashlock .Locked none).toBytes =
      .ok (some (Lez.testTerms.escrow testHashlock .Locked none)) :=
    Lez.escrowIn_toBytes (Lez.encodable_none .Locked)
  have answered : (environment testMakerSetting).perform
      (.getAccount (testMakerSetting.lezClient.escrowPda testHashlock)) testStranded
      (.ok (Lez.testTerms.escrow testHashlock .Locked none).toBytes) testStranded := by
    refine ⟨_, ⟨rfl, ?_⟩, .refl⟩
    rintro hashlock rfl - data escrow ⟨⟩ decoded
    rw [reads] at decoded
    cases decoded
    exact Lez.escrowAt_of_written (Lez.encodable_none .Locked) rfl rfl
  have read : ∃ log, Execution (environment testMakerSetting)
      (readEscrowBounded testMakerSetting.lezClient testHashlock).run testStranded log
      (.ok ⟨some (Lez.testTerms.escrow testHashlock .Locked none), false, 0⟩) testStranded := by
    refine ⟨[.quiet testStranded (.getAccount Lez.testPda)
      (.ok (Lez.testTerms.escrow testHashlock .Locked none).toBytes)], .step .refl answered ?_⟩
    simp only [Program.bind, ExceptT.bindCont, Function.comp, reads]
    exact .done
  obtain ⟨looks, look⟩ := read
  obtain ⟨balances, empty⟩ := test_balances 4
  have found : (environment testMakerSetting).perform (.getAccountBalance Lez.testPda)
      testStranded (.ok 0) testStranded := ⟨_, rfl, .refl⟩
  have slept : (environment testMakerSetting).perform .sleep testStranded () testStranded :=
    ⟨_, rfl, .refl⟩
  have now : (environment testMakerSetting).perform .nowUnix testStranded 1700000001
      testStranded := ⟨_, ⟨rfl, rfl⟩, .refl⟩
  have retired : (environment testMakerSetting).perform (.quarantine (testEntry .Funded).hashlock
      (wedgeReason 0 Lez.testTerms.amount)) testStranded () testRetired := ⟨_, ⟨.ok, rfl⟩, .refl⟩
  have failed : (environment testMakerSetting).perform
      (.ops (.failed (testEntry .Funded).hashlock .PartialLockWedge)) testRetired () testRetired :=
    ⟨_, rfl, .refl⟩
  have poor : Execution (environment testMakerSetting) (maxEscrowBalance Lez.testPda
      Lez.testTerms.amount).run testStranded _ (.ok (some 0)) testStranded :=
    .step .refl found (.step .refl slept empty)
  exact ⟨_, look.run_and_then (poor.run_and_then (look.run_and_then
    (.step .refl now (.step .refl retired (.step .refl failed .done)))))⟩

/-- The second look at the test escrow ends with its quarantine, and for a reason. -/
theorem wedge_quarantine_sound_test : ∃ log, Execution (environment testMakerSetting)
    (resolveWedge testMakerSetting.lezClient (testEntry .Funded) testHashlock
      (Lez.testTerms.escrow testHashlock .Locked none) 0).run testStranded log (.ok ()) testRetired ∧
    ∃ before between after pre post fresh middle now read reached rest,
      log = before ++ between ++ after ++ ⟨.nowUnix, now, read, reached⟩ :: rest ∧
      Rereads testHashlock (Lez.testTerms.escrow testHashlock .Locked none) testStranded before
        between after pre post fresh middle ∧
      Verdict (testEntry .Funded) testHashlock before between after pre.escrow post.escrow now
        rest := by
  obtain ⟨log, run⟩ := test_second_look
  exact ⟨log, run, (wedge_quarantine_sound testMakerSetting).2 _ _ _ _ _ _ _ _ rfl run⟩

end AtomicSwaps.Cli
