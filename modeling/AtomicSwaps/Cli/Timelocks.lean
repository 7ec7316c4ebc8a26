import AtomicSwaps.Cli.MakerLoop
import AtomicSwaps.Swap.Taker

/-!
# The timelock rules together

The startup guard speaks of minutes, the gate at match time and the taker's check of
seconds, and the escrow of milliseconds. What passes the first passes the others, as long
as the products and sums fit.
-/

namespace AtomicSwaps.Cli

open Swap
open Lez (buildLockInstruction lockedEscrow)

variable {lezMinutes ethMinutes marginMinutes now : U64}

/-- The guard passes a margin of five minutes and an ETH timelock that covers the rest. -/
theorem validateTimelocks_eq_ok :
    validateTimelocks lezMinutes ethMinutes marginMinutes = .ok () ↔
      5 ≤ marginMinutes.toNat ∧
        min (lezMinutes.toNat + marginMinutes.toNat + 2) (2 ^ 64 - 1) ≤ ethMinutes.toNat := by
  have five : (5 : U64).toNat = 5 := rfl
  have slack : timelockTransitSlackMinutes.toNat = 2 := rfl
  simp only [validateTimelocks, BitVec.lt_def, U64.toNat_saturatingAdd, five, slack]
  split
  · simp only [reduceCtorEq, false_iff]
    omega
  · split
    · simp only [reduceCtorEq, false_iff]
      omega
    · simp only [true_iff]
      omega

/-- A number of minutes in seconds, on top of a clock reading. -/
theorem toNat_add_minutes {minutes : U64} (fits : now.toNat + minutes.toNat * 60 < 2 ^ 64) :
    (now + minutes * 60).toNat = now.toNat + minutes.toNat * 60 := by
  have sixty : (60 : U64).toNat = 60 := rfl
  simp only [BitVec.toNat_add, BitVec.toNat_mul, sixty]
  omega

theorem toNat_minutes {minutes : U64} (fits : minutes.toNat * 60 < 2 ^ 64) :
    (minutes * 60).toNat = minutes.toNat * 60 := by
  have sixty : (60 : U64).toNat = 60 := rfl
  simp only [BitVec.toNat_mul, sixty]
  omega

/-- The expiry at match time, where it fits. -/
theorem toNat_freshLezExpirySecs (fits : now.toNat + lezMinutes.toNat * 60 < 2 ^ 64) :
    (freshLezExpirySecs now (lezMinutes * 60)).toNat = now.toNat + lezMinutes.toNat * 60 := by
  rw [freshLezExpirySecs, U64.toNat_saturatingAdd, toNat_minutes (by omega)]
  omega

/-- The seconds of the wire format, read back. -/
theorem secsToMillis_div {secs : U64} (fits : secs.toNat * 1000 < 2 ^ 64) :
    secsToMillis secs / 1000 = secs := by
  have thousand : (1000 : U64).toNat = 1000 := rfl
  apply BitVec.eq_of_toNat_eq
  rw [BitVec.toNat_udiv, toNat_secsToMillis fits, thousand]
  omega

section Acceptance

variable {takerNow matchNow : U64} {hashlock taker maker : Bytes32}
  {designated : Option Bytes32} {rejected : List Bytes32}

/-- A lock whose timelocks passed the startup guard is turned away at match time for its
account only, when it reaches the maker within the slack. -/
theorem classifyCandidate_validated
    (valid : validateTimelocks lezMinutes ethMinutes marginMinutes = .ok ())
    (transit : matchNow.toNat ≤ takerNow.toNat + 120)
    (ethFits : takerNow.toNat + ethMinutes.toNat * 60 < 2 ^ 64)
    (usable : takerLezAccountIsUsable taker maker = true) (fresh : hashlock ∉ rejected) :
    classifyCandidate ⟨hashlock, taker, takerNow + ethMinutes * 60⟩
      ⟨maker, designated, freshLezExpirySecs matchNow (lezMinutes * 60),
        some (marginMinutes * 60)⟩ rejected false =
      if ∃ account ∈ designated, taker ≠ account then .Reject .NotDesignatedTaker else .Accept := by
  obtain ⟨_, guarded⟩ := validateTimelocks_eq_ok.mp valid
  -- an ETH timelock that fits leaves no room for the guard to saturate
  have enough : lezMinutes.toNat + marginMinutes.toNat + 2 ≤ ethMinutes.toNat := by omega
  have covers : ethTimelockCoversLez (takerNow + ethMinutes * 60)
      (freshLezExpirySecs matchNow (lezMinutes * 60)) (marginMinutes * 60) = true := by
    rw [ethTimelockCoversLez, decide_eq_true_eq, BitVec.le_def, U64.toNat_saturatingAdd,
      toNat_freshLezExpirySecs (by omega), toNat_minutes (by omega), toNat_add_minutes ethFits]
    omega
  simp only [classifyCandidate, fresh, usable, covers, Option.getD_some, Bool.false_eq_true,
    or_self, Bool.not_true, if_false]

/-- The escrow of an accepted lock passes the taker's check while its claim margin lasts. -/
theorem verifyEscrowBinding_validated {amount : U128}
    (valid : validateTimelocks lezMinutes ethMinutes marginMinutes = .ok ())
    (transit : matchNow.toNat ≤ takerNow.toNat + 120)
    (ethFits : takerNow.toNat + ethMinutes.toNat * 60 < 2 ^ 64)
    (lezFits : (matchNow.toNat + lezMinutes.toNat * 60) * 1000 < 2 ^ 64)
    (early : now.toNat + 300 ≤ matchNow.toNat + lezMinutes.toNat * 60) :
    verifyEscrowBinding
      (lockedEscrow maker hashlock taker amount
        (secsToMillis (freshLezExpirySecs matchNow (lezMinutes * 60))))
      taker hashlock (takerNow + ethMinutes * 60) now = .ok () := by
  obtain ⟨_, guarded⟩ := validateTimelocks_eq_ok.mp valid
  have expiry : (freshLezExpirySecs matchNow (lezMinutes * 60)).toNat =
      matchNow.toNat + lezMinutes.toNat * 60 := toNat_freshLezExpirySecs (by omega)
  have margin : lezClaimMarginSecs.toNat = 300 := rfl
  have claimable : ¬ freshLezExpirySecs matchNow (lezMinutes * 60) <
      U64.saturatingAdd now lezClaimMarginSecs := by
    rw [BitVec.lt_def, U64.toNat_saturatingAdd, expiry, margin]
    omega
  have before : ¬ takerNow + ethMinutes * 60 ≤ freshLezExpirySecs matchNow (lezMinutes * 60) := by
    rw [BitVec.le_def, expiry, toNat_add_minutes ethFits]
    omega
  have millis : (freshLezExpirySecs matchNow (lezMinutes * 60)).toNat * 1000 < 2 ^ 64 := by
    rw [expiry]
    exact lezFits
  have wire := secsToMillis_div millis
  simp only [verifyEscrowBinding, lockedEscrow, wire, claimable, before, ne_eq, not_true,
    if_false]

/-- What the startup guard passes, the gate at match time accepts, unless the maker serves
another taker only, and the taker claims the escrow up to its margin. -/
theorem validated_accepted
    (valid : validateTimelocks lezMinutes ethMinutes marginMinutes = .ok ())
    (transit : matchNow.toNat ≤ takerNow.toNat + 120)
    (ethFits : takerNow.toNat + ethMinutes.toNat * 60 < 2 ^ 64)
    (lezFits : (matchNow.toNat + lezMinutes.toNat * 60) * 1000 < 2 ^ 64)
    (usable : takerLezAccountIsUsable taker maker = true) (fresh : hashlock ∉ rejected) :
    (classifyCandidate ⟨hashlock, taker, takerNow + ethMinutes * 60⟩
      ⟨maker, designated, freshLezExpirySecs matchNow (lezMinutes * 60),
        some (marginMinutes * 60)⟩ rejected false =
      if ∃ account ∈ designated, taker ≠ account then .Reject .NotDesignatedTaker else .Accept) ∧
    ∀ (amount : U128) (timelock now : U64),
      buildLockInstruction hashlock taker amount
        (freshLezExpirySecs matchNow (lezMinutes * 60)) = .Lock hashlock taker amount timelock →
      now.toNat + 300 ≤ (freshLezExpirySecs matchNow (lezMinutes * 60)).toNat →
      verifyEscrowBinding (lockedEscrow maker hashlock taker amount timelock) taker hashlock
        (takerNow + ethMinutes * 60) now = .ok () := by
  refine ⟨classifyCandidate_validated valid transit ethFits usable fresh, ?_⟩
  intro amount timelock now built early
  have wire : secsToMillis (freshLezExpirySecs matchNow (lezMinutes * 60)) = timelock := by
    simpa [buildLockInstruction] using built
  rw [toNat_freshLezExpirySecs (by omega)] at early
  rw [← wire]
  exact verifyEscrowBinding_validated valid transit ethFits lezFits early

theorem validated_accepted_test :
    (classifyCandidate ⟨Bytes.fill 32 3, Bytes.fill 32 2, 1700000000 + 37 * 60⟩
      ⟨Bytes.fill 32 1, none, freshLezExpirySecs 1700000120 (30 * 60), some (5 * 60)⟩ [] false =
      .Accept) ∧
    verifyEscrowBinding (lockedEscrow (Bytes.fill 32 1) (Bytes.fill 32 3) (Bytes.fill 32 2) 1000
      1700001920000) (Bytes.fill 32 2) (Bytes.fill 32 3) (1700000000 + 37 * 60) 1700001620 =
      .ok () := by
  have valid : validateTimelocks 30 37 5 = .ok () := by decide
  have transit : (1700000120 : U64).toNat ≤ (1700000000 : U64).toNat + 120 := by decide
  have usable : takerLezAccountIsUsable (Bytes.fill 32 2) (Bytes.fill 32 1) = true := by decide
  have fresh : Bytes.fill 32 3 ∉ ([] : List Bytes32) := List.not_mem_nil
  have both := @validated_accepted 30 37 5 1700000000 1700000120 (Bytes.fill 32 3) (Bytes.fill 32 2)
    (Bytes.fill 32 1) none [] valid transit (by decide) (by decide) usable fresh
  exact ⟨both.1, both.2 1000 _ _ (by decide) (by decide)⟩

/-- A maker for one taker turns the lock of another away, whatever its timelocks. -/
theorem other_taker_turned_away :
    validateTimelocks 30 37 5 = .ok () ∧
    takerLezAccountIsUsable (Bytes.fill 32 2) (Bytes.fill 32 1) = true ∧
    classifyCandidate ⟨Bytes.fill 32 3, Bytes.fill 32 2, 1700000000 + 37 * 60⟩
      ⟨Bytes.fill 32 1, some (Bytes.fill 32 4), freshLezExpirySecs 1700000120 (30 * 60),
        some (5 * 60)⟩ [] false ≠ .Accept := by
  decide

end Acceptance

/-- Seconds and milliseconds stay within their 64 bits at a clock reading, and the timelock of
the `Lock` is the expiry that the margin was checked against. -/
structure TimelocksInRange (lezMinutes ethMinutes marginMinutes now : U64) : Prop where
  lezSeconds : lezMinutes.toNat * 60 < 2 ^ 64
  ethSeconds : ethMinutes.toNat * 60 < 2 ^ 64
  marginSeconds : marginMinutes.toNat * 60 < 2 ^ 64
  lezExpiry : now.toNat + (lezMinutes * 60).toNat < 2 ^ 64
  ethExpiry : now.toNat + (ethMinutes * 60).toNat < 2 ^ 64
  millis : (freshLezExpirySecs now (lezMinutes * 60)).toNat * 1000 < 2 ^ 64
  wire : ∀ hashlock takerId amount timelock,
    buildLockInstruction hashlock takerId amount (freshLezExpirySecs now (lezMinutes * 60)) =
      .Lock hashlock takerId amount timelock →
    timelock / 1000 = freshLezExpirySecs now (lezMinutes * 60)

/-- The arithmetic stays in range exactly up to a LEZ timelock that fits in milliseconds and
an ETH timelock that fits in seconds. -/
theorem timelocks_in_range_iff
    (valid : validateTimelocks lezMinutes ethMinutes marginMinutes = .ok ())
    (clock : now.toNat < 2 ^ 33) :
    TimelocksInRange lezMinutes ethMinutes marginMinutes now ↔
      lezMinutes.toNat ≤ (18446744073709551 - now.toNat) / 60 ∧
        ethMinutes.toNat ≤ (18446744073709551615 - now.toNat) / 60 := by
  constructor
  · intro inRange
    have lezSeconds := toNat_minutes inRange.lezSeconds
    have ethSeconds := toNat_minutes inRange.ethSeconds
    have lezExpiry := inRange.lezExpiry
    have ethExpiry := inRange.ethExpiry
    have millis := inRange.millis
    rw [toNat_freshLezExpirySecs (by omega)] at millis
    constructor <;> omega
  · rintro ⟨lezBound, ethBound⟩
    obtain ⟨_, guarded⟩ := validateTimelocks_eq_ok.mp valid
    have millis : (freshLezExpirySecs now (lezMinutes * 60)).toNat * 1000 < 2 ^ 64 := by
      rw [toNat_freshLezExpirySecs (by omega)]
      omega
    exact {
      lezSeconds := by omega
      ethSeconds := by omega
      marginSeconds := by omega
      lezExpiry := by
        rw [toNat_minutes (by omega)]
        omega
      ethExpiry := by
        rw [toNat_minutes (by omega)]
        omega
      millis
      wire := by
        intro hashlock takerId amount timelock built
        have wire : secsToMillis (freshLezExpirySecs now (lezMinutes * 60)) = timelock := by
          simpa [buildLockInstruction] using built
        rw [← wire, secsToMillis_div millis] }

theorem timelocks_in_range_test :
    TimelocksInRange 30 50 5 1700000000 :=
  (timelocks_in_range_iff (by decide) (by decide)).mpr (by decide)

/-- A product that wraps leaves a LEZ timelock of 44 seconds, which the guard passes. -/
theorem wrapped_timelock :
    validateTimelocks 307445734561825861 307445734561825868 5 = .ok () ∧
    freshLezExpirySecs 1700000000 (307445734561825861 * 60) = 1700000044 ∧
    ¬ TimelocksInRange 307445734561825861 307445734561825868 5 1700000000 :=
  ⟨by decide, by decide, fun inRange => absurd inRange.lezSeconds (by decide)⟩

end AtomicSwaps.Cli
