import AtomicSwaps.Lez.Client
import AtomicSwaps.Swap.EthAmount

/-!
# Refunding by hand

`swap-cli refund lez` and `swap_ffi_refund_lez`: the configuration that each of them builds, and
the gate of `src/swap/refund.rs` that they pass the timelock of the configuration to.
-/

namespace AtomicSwaps.Cli

open Semantics Swap Decimal
open Lez (AccountId LezClient)

/-- The libraries that read addresses, base58 and hexadecimal text, with the texts of their
errors. -/
structure Readers where
  ethAddress : String → Except String Eth.Address
  base58 : String → Except String (List UInt8)
  hex : String → Except String (List UInt8)

/-- `strip_prefix("0x")`, or the text itself. -/
def stripHexPrefix (text : String) : String :=
  match text.toList with
  | '0' :: 'x' :: digits => String.ofList digits
  | _ => text

/-- `LezAuth`. -/
inductive LezAuth where
  | RawKey (key : String)
  | Wallet (home : String) (accountId : AccountId)
deriving DecidableEq

/-- `ConfigArgs`, without the endpoints. -/
structure ConfigArgs where
  ethHtlcAddress : String
  ethRecipient : String
  lezHtlcProgramId : String
  lezTakerAccount : Option String
  lezWalletHome : Option String
  lezAccountId : Option String
  lezSigningKey : Option String
  lezAmount : U128
  ethAmount : String
  lezTimelockMinutes : Option U64
  ethTimelockMinutes : Option U64

/-- `FfiConfig`, without the endpoints. -/
structure FfiConfig where
  ethHtlcAddress : String
  ethRecipientAddress : String
  lezHtlcProgramId : String
  lezTakerAccountId : Option String
  lezWalletHome : Option String
  lezAccountId : Option String
  lezSigningKey : Option String
  lezAmount : String
  ethAmount : String
  lezTimelockMinutes : String
  ethTimelockMinutes : String
  pollIntervalMs : String

/-- `DEFAULT_LEZ_TIMELOCK_MINUTES`. -/
def DEFAULT_LEZ_TIMELOCK_MINUTES : U64 := 5

/-- `DEFAULT_ETH_TIMELOCK_MINUTES`. -/
def DEFAULT_ETH_TIMELOCK_MINUTES : U64 := 15

section Parsing

variable (readers : Readers)

/-- `parse_bytes32`. -/
def parseBytes32 (hexStr name : String) : Except SwapError Bytes32 :=
  match readers.hex (stripHexPrefix hexStr) with
  | .error e => .error (.InvalidConfig s!"invalid {name} hex: {e}")
  | .ok bytes =>
      match Bytes.ofSlice? 32 bytes with
      | some array => .ok array
      | none => .error (.InvalidConfig s!"{name} must be 32 bytes")

/-- `parse_program_id`; the words of the id are its bytes, four at a time. -/
def parseProgramId (hexStr : String) : Except SwapError Bytes32 :=
  match readers.hex (stripHexPrefix hexStr) with
  | .error e => .error (.InvalidConfig s!"invalid program ID hex: {e}")
  | .ok bytes =>
      match Bytes.ofSlice? 32 bytes with
      | some array => .ok array
      | none => .error (.InvalidConfig "program ID must be 32 bytes")

/-- `parse_base58_account_id`. -/
def parseBase58AccountId (s : String) : Except SwapError AccountId :=
  match readers.base58 s with
  | .error e => .error (.InvalidConfig s!"invalid base58 account ID: {e}")
  | .ok bytes =>
      match Bytes.ofSlice? 32 bytes with
      | some array => .ok array
      | none => .error (.InvalidConfig "base58 account ID must decode to 32 bytes")

/-- The address in an argument. -/
def parseAddress (text name : String) : Except SwapError Eth.Address :=
  match readers.ethAddress text with
  | .error e => .error (.InvalidConfig s!"invalid {name}: {e}")
  | .ok address => .ok address

/-- How `into_swap_config` chooses the keys. -/
def ConfigArgs.lezAuth (args : ConfigArgs) : Except SwapError LezAuth :=
  match args.lezWalletHome, args.lezAccountId, args.lezSigningKey with
  | some home, some accountId, _ => do
      let accountId ← parseBase58AccountId readers accountId
      return .Wallet home accountId
  | none, none, some key => .ok (.RawKey key)
  | some _, none, _ => .error (.InvalidConfig "LEZ_WALLET_HOME requires LEZ_ACCOUNT_ID")
  | none, some _, _ => .error (.InvalidConfig "LEZ_ACCOUNT_ID requires LEZ_WALLET_HOME")
  | none, none, none => .error (.InvalidConfig
      "either LEZ_SIGNING_KEY or LEZ_WALLET_HOME + LEZ_ACCOUNT_ID must be set")

/-- What `into_swap_config` reads before the clock: the recipient and the taker. -/
def ConfigArgs.parties (args : ConfigArgs) : Except SwapError (Eth.Address × Option AccountId) := do
  let _ ← parseAddress readers args.ethHtlcAddress "eth-htlc-address"
  let recipient ← parseAddress readers args.ethRecipient "eth-recipient"
  let _ ← parseProgramId readers args.lezHtlcProgramId
  let taker ← args.lezTakerAccount.mapM (parseBase58AccountId readers)
  let _ ← args.lezAuth readers
  return (recipient, taker)

/-- The configured amount, or no return where `eth_to_wei` panics. -/
def weiOf (ethAmount : String) : ExceptT String (Program interface) U128 :=
  match ethToWei ethAmount with
  | none => ExceptT.mk .hang
  | some amount => ExceptT.mk (.pure amount)

/-- `ConfigArgs::into_swap_config`. -/
def ConfigArgs.intoSwapConfig (args : ConfigArgs) : Flow SwapConfig := do
  let (recipient, taker) ← Program.returned (args.parties readers)
  let now ← request .nowUnix
  let ethAmount ← (weiOf args.ethAmount).adapt .InvalidConfig
  return {
    lezAmount := args.lezAmount
    ethAmount
    lezTimelock := now + args.lezTimelockMinutes.getD DEFAULT_LEZ_TIMELOCK_MINUTES * 60
    ethTimelock := now + args.ethTimelockMinutes.getD DEFAULT_ETH_TIMELOCK_MINUTES * 60
    ethRecipientAddress := recipient
    lezTakerAccountId := taker }

/-- An error of a flow as its text. -/
def asText {α : Type} (flow : Flow α) : ExceptT String (Program interface) α :=
  flow.adapt SwapError.toString

/-- An integer of this many values in a field. -/
def parseField (bound : Nat) (text name : String) : Except String Nat :=
  match parseUnsigned bound text.toList with
  | .error e => .error s!"invalid {name}: {e.toString}"
  | .ok number => .ok number

/-- The designated taker of a form, where a blank field names none. -/
def FfiConfig.taker (config : FfiConfig) : Except String (Option AccountId) :=
  match (config.lezTakerAccountId.map fun text => String.ofList (Trimming.strTrim text.toList)).filter
      (· ≠ "") with
  | some text => ((parseBase58AccountId readers text).map some).mapError SwapError.toString
  | none => .ok none

/-- How `parse_config` chooses the keys. -/
def FfiConfig.lezAuth (config : FfiConfig) : Except String LezAuth :=
  match config.lezWalletHome, config.lezAccountId with
  | some home, some accountId =>
      ((parseBase58AccountId readers accountId).map (.Wallet home)).mapError SwapError.toString
  | _, _ =>
      match config.lezSigningKey with
      | some key => .ok (.RawKey key)
      | none => .error "lez_signing_key is required when lez_wallet_home is not set"

/-- The address in a field. -/
def parseAddressField (text name : String) : Except String Eth.Address :=
  (readers.ethAddress text).mapError fun e => s!"invalid {name}: {e}"

/-- What `parse_config` reads before the amount in ETH: the recipient, the taker and the amount
in LEZ. -/
def FfiConfig.parties (config : FfiConfig) :
    Except String (Eth.Address × Option AccountId × U128) := do
  let _ ← parseAddressField readers config.ethHtlcAddress "eth_htlc_address"
  let recipient ← parseAddressField readers config.ethRecipientAddress "eth_recipient_address"
  let _ ← (parseProgramId readers config.lezHtlcProgramId).mapError SwapError.toString
  let taker ← config.taker readers
  let lezAmount ← parseField (2 ^ 128) config.lezAmount "lez_amount"
  return (recipient, taker, BitVec.ofNat 128 lezAmount)

/-- The minutes that `parse_config` reads: of the LEZ and of the ETH timelock. -/
def FfiConfig.minutes (config : FfiConfig) : Except String (U64 × U64) := do
  let lezMinutes ← parseField (2 ^ 64) config.lezTimelockMinutes "lez_timelock_minutes"
  let ethMinutes ← parseField (2 ^ 64) config.ethTimelockMinutes "eth_timelock_minutes"
  let _ ← parseField (2 ^ 64) config.pollIntervalMs "poll_interval_ms"
  return (BitVec.ofNat 64 lezMinutes, BitVec.ofNat 64 ethMinutes)

/-- `parse_config`, from the fields of the JSON on. -/
def FfiConfig.parse (config : FfiConfig) : ExceptT String (Program interface) SwapConfig := do
  let (recipient, taker, lezAmount) ← Program.returned (config.parties readers)
  let ethAmount ← weiOf config.ethAmount
  let (lezMinutes, ethMinutes) ← Program.returned config.minutes
  let now ← Program.request (I := interface) .nowUnix
  let _ ← Program.returned (config.lezAuth readers)
  return {
    lezAmount
    ethAmount
    lezTimelock := now + lezMinutes * 60
    ethTimelock := now + ethMinutes * 60
    ethRecipientAddress := recipient
    lezTakerAccountId := taker }

/-- The hashlock of `swap_ffi_refund_lez`. -/
def parseHashlockArg (hashlockHex : String) : Except String Bytes32 :=
  match readers.hex (stripHexPrefix hashlockHex) with
  | .error e => .error s!"invalid hashlock hex: {e}"
  | .ok bytes =>
      match Bytes.ofSlice? 32 bytes with
      | some array => .ok array
      | none => .error "hashlock must be 32 bytes (64 hex chars)"

end Parsing

/-- `check_lez_timelock`. -/
def checkLezTimelock (lezTimelock : U64) : Flow Unit := do
  let now ← request .nowUnix
  if now < lezTimelock then throw (.TimelockNotExpired (lezTimelock - now)) else return ()

/-- `refund_lez`. -/
def refundLez (client : LezClient) (hashlock : Bytes32) (lezTimelock : U64) : Flow String := do
  checkLezTimelock lezTimelock
  client.refund hashlock

/-- `create_clients`. -/
def createClients : Flow Unit := do
  Program.returned (← request .ethConnect)
  Program.returned (← request .lezConnect)

section Paths

variable (readers : Readers) (client : LezClient)

/-- `swap-cli refund lez`: the configuration, and `cmd_refund`. -/
def cmdRefundLez (args : ConfigArgs) (hashlock : String) : Flow String := do
  let config ← args.intoSwapConfig readers
  let hashlock ← Program.returned (parseBytes32 readers hashlock "hashlock")
  createClients
  refundLez client hashlock config.lezTimelock

/-- `swap_ffi_refund_lez`, whose arguments may be null and whose first may be no JSON of a
configuration; an error is the text in the JSON that it returns. -/
def swapFfiRefundLez (configJson : Option (Except String FfiConfig)) (hashlockHex : Option String) :
    ExceptT String (Program interface) String := do
  match configJson, hashlockHex with
  | none, _ => throw "null or invalid config_json"
  | some _, none => throw "null or invalid hashlock_hex"
  | some (.error e), some _ => throw s!"bad config JSON: {e}"
  | some (.ok fields), some hashlockHex => do
      let config ← fields.parse readers
      let hashlock ← Program.returned (parseHashlockArg readers hashlockHex)
      asText do
        Program.returned (← request .lezConnect)
        refundLez client hashlock config.lezTimelock

end Paths

/-- The readings of the clock. -/
def clockReadings (history : Trace) : List U64 := history.filterMap fun
  | ⟨.nowUnix, now⟩ => some now
  | _ => none

/-- A refund was submitted, if the nonces for it could be read. -/
inductive Submitted (client : LezClient) (hashlock : Bytes32) : Trace → Prop where
  | unread {before : Trace} {e : String} :
      Submitted client hashlock (before ++ [⟨.getAccountsNonces client.accountId, .error e⟩])
  | sent {before : Trace} {nonces : List U128} {answer : Except String String} :
      Submitted client hashlock (before ++ [⟨.getAccountsNonces client.accountId, .ok nonces⟩] ++
        [⟨.sendTransaction (.htlc (client.escrowPda hashlock) nonces .Refund), answer⟩])

/-- A refund is refused as too early before the timelock of the escrow, and submitted after. -/
structure FollowsEscrow (early submitted : Prop) (escrowTimelock now : U64) : Prop where
  refuses : early ↔ now.toNat * 1000 < escrowTimelock.toNat
  submits : escrowTimelock.toNat ≤ now.toNat * 1000 → submitted

/-- A gate that goes by another timelock is right when both are on the same side of the clock. -/
theorem followsEscrow_iff {early submitted : Prop} {lezTimelock escrowTimelock now : U64}
    (before : now < lezTimelock → early) (after : ¬ now < lezTimelock → ¬ early ∧ submitted) :
    FollowsEscrow early submitted escrowTimelock now ↔
      (now < lezTimelock ↔ now.toNat * 1000 < escrowTimelock.toNat) := by
  by_cases waiting : now < lezTimelock
  · have refused := before waiting
    constructor
    · intro follows
      exact iff_of_true waiting (follows.refuses.mp refused)
    · intro same
      have locked := same.mp waiting
      exact ⟨iff_of_true refused locked, fun expired => absurd expired (Nat.not_le.mpr locked)⟩
  · obtain ⟨open_, submitted⟩ := after waiting
    constructor
    · intro follows
      exact iff_of_false waiting fun locked => open_ (follows.refuses.mpr locked)
    · intro same
      exact ⟨iff_of_false open_ fun locked => waiting (same.mpr locked), fun _ => submitted⟩

section Runs

variable {readers : Readers} {client : LezClient} {history : Trace}

@[simp] theorem clockReadings_append (earlier later : Trace) :
    clockReadings (earlier ++ later) = clockReadings earlier ++ clockReadings later :=
  List.filterMap_append

/-- The errors of a refund that the gate has let through. -/
def SubmitError (error : SwapError) : Prop :=
  ∃ message, error = .LezSequencer message ∨ error = .LezTransaction message

/-- What the gate does at a reading of the clock. -/
structure Gated (client : LezClient) (hashlock : Bytes32) (lezTimelock now : U64) (history : Trace)
    (result : Except SwapError String) : Prop where
  before : now < lezTimelock → ∃ seconds, result = .error (.TimelockNotExpired seconds)
  after : ¬ now < lezTimelock →
    (∀ error, result = .error error → SubmitError error) ∧ Submitted client hashlock history

/-- The gate reads the clock, and goes by it alone. -/
theorem refundLez_follows {hashlock : Bytes32} {lezTimelock : U64} :
    Follows (fun _ _ => True) (fun later result => ∃ now,
      clockReadings later = clockReadings history ++ [now] ∧
        Gated client hashlock lezTimelock now later result)
      (refundLez client hashlock lezTimelock).run history := by
  rw [refundLez, Follows.run_bind_iff, checkLezTimelock]
  apply Follows.request_bind trivial
  intro now
  by_cases early : now < lezTimelock
  · rw [if_pos early]
    exact ⟨now, clockReadings_append _ _, fun _ => ⟨_, rfl⟩, fun late => absurd early late⟩
  · rw [if_neg early]
    apply Follows.run_pure_iff.mpr
    apply LezClient.sendHtlcInstruction_follows trivial
    · exact fun _ => trivial
    · intro e
      refine ⟨now, ?_, fun waiting => absurd waiting early, fun _ => ⟨?_, .unread⟩⟩
      · rw [clockReadings_append, clockReadings_append]
        exact List.append_nil _
      · rintro error ⟨⟩
        exact ⟨_, .inl rfl⟩
    · intro nonces answer
      refine ⟨now, ?_, fun waiting => absurd waiting early, fun _ => ⟨?_, .sent⟩⟩
      · rw [clockReadings_append, clockReadings_append, clockReadings_append]
        exact (List.append_nil _).trans (List.append_nil _)
      · intro error failed
        cases answer with
        | error e =>
            cases failed
            exact ⟨_, .inr rfl⟩
        | ok txHash => cases failed

theorem head?_append {first second : String} {char : Char} {rest : List Char}
    (shape : first.toList = char :: rest) : (first ++ second).toList.head? = some char := by
  rw [String.toList_append, shape]
  rfl

/-- The texts of these errors are not that of the gate. -/
theorem SubmitError.toString_ne {error : SwapError} (submits : SubmitError error) (seconds : U64) :
    error.toString ≠ (SwapError.TimelockNotExpired seconds).toString := by
  intro same
  have first : error.toString.toList.head? = some 'L' := by
    obtain ⟨message, rfl | rfl⟩ := submits
    · exact @head?_append "LEZ sequencer error: " message 'L' "EZ sequencer error: ".toList
        (by decide +kernel)
    · exact @head?_append "LEZ transaction failed: " message 'L' "EZ transaction failed: ".toList
        (by decide +kernel)
  have other : (SwapError.TimelockNotExpired seconds).toString.toList.head? = some 't' := by
    have text : (SwapError.TimelockNotExpired seconds).toString = "timelock not expired: " ++
        (toString seconds.toNat ++ " seconds remaining") := String.append_assoc
    rw [text]
    exact head?_append (show _ = 't' :: "imelock not expired: ".toList by decide +kernel)
  rw [same, other] at first
  exact absurd first (by decide)

/-- The configuration of the command line reads the clock once. -/
theorem intoSwapConfig_follows {args : ConfigArgs} :
    Follows (fun _ _ => True) (fun history result =>
      (clockReadings history).length ≤ 1 ∧ ∀ config, result = .ok config → ∃ configured,
        clockReadings history = [configured] ∧ config.lezTimelock =
          configured + args.lezTimelockMinutes.getD DEFAULT_LEZ_TIMELOCK_MINUTES * 60)
      (args.intoSwapConfig readers).run [] := by
  rw [ConfigArgs.intoSwapConfig, Follows.run_bind_iff, Follows.run_returned_iff]
  cases args.parties readers with
  | error e => exact ⟨Nat.zero_le 1, nofun⟩
  | ok parties =>
      apply Follows.request_bind trivial
      intro now
      rw [Follows.run_bind_iff, weiOf]
      cases ethToWei args.ethAmount with
      | none => trivial
      | some amount =>
          cases amount with
          | error e => exact ⟨le_refl 1, nofun⟩
          | ok amount =>
              refine ⟨le_refl 1, ?_⟩
              rintro config ⟨⟩
              exact ⟨now, rfl, rfl⟩

/-- So does that of a form. -/
theorem FfiConfig.parse_follows {config : FfiConfig} :
    Follows (fun _ _ => True) (fun history result =>
      (clockReadings history).length ≤ 1 ∧ ∀ parsed, result = .ok parsed →
        ∃ configured minutes, clockReadings history = [configured] ∧ config.minutes = .ok minutes ∧
          parsed.lezTimelock = configured + minutes.1 * 60)
      (config.parse readers).run [] := by
  rw [FfiConfig.parse, Follows.run_bind_iff, Follows.run_returned_iff]
  cases config.parties readers with
  | error e => exact ⟨Nat.zero_le 1, nofun⟩
  | ok parties =>
      change Follows _ _ (weiOf config.ethAmount >>= _ : ExceptT String (Program interface) _).run _
      rw [Follows.run_bind_iff, weiOf]
      cases ethToWei config.ethAmount with
      | none => trivial
      | some amount =>
          cases amount with
          | error e => exact ⟨Nat.zero_le 1, nofun⟩
          | ok amount =>
              change Follows _ _ (Program.returned config.minutes >>= _ :
                ExceptT String (Program interface) _).run _
              rw [Follows.run_bind_iff, Follows.run_returned_iff]
              cases read : config.minutes with
              | error e => exact ⟨Nat.zero_le 1, nofun⟩
              | ok minutes =>
                  apply Follows.request_bind trivial
                  intro now
                  rw [Follows.run_bind_iff, Follows.run_returned_iff]
                  cases config.lezAuth readers with
                  | error e => exact ⟨le_refl 1, nofun⟩
                  | ok auth =>
                      refine ⟨le_refl 1, ?_⟩
                      rintro parsed ⟨⟩
                      exact ⟨now, minutes, rfl, rfl, rfl⟩

/-- A flow whose error is turned into its text. -/
theorem asText_follows {α : Type} {flow : Flow α} {rule : Trace → Op → Prop}
    {post : Trace → Except String α → Prop} :
    Follows rule post (asText flow).run history ↔
      Follows rule (fun later result => post later (result.mapError SwapError.toString)) flow.run
        history := Follows.bind_iff

/-- Connecting does not read the clock. -/
theorem createClients_follows :
    Follows (fun _ _ => True) (fun later _ => clockReadings later = clockReadings history)
      createClients.run history := by
  apply Follows.request_bind trivial
  intro connected
  rw [Follows.run_bind_iff, Follows.run_returned_iff]
  have first : clockReadings (history ++ [⟨.ethConnect, connected⟩]) = clockReadings history :=
    (clockReadings_append _ _).trans (List.append_nil _)
  cases connected with
  | error e => exact first
  | ok _ =>
      apply Follows.request_bind trivial
      intro connected
      exact (clockReadings_append _ _).trans ((List.append_nil _).trans first)

/-- A run that reads the clock once at most has not come to the gate. -/
theorem not_twice {configured now : U64} (few : (clockReadings history).length ≤ 1) :
    clockReadings history ≠ [configured, now] := by
  intro same
  rw [same] at few
  exact absurd few (by simp)

/-- Between the two readings of the clock a command has parsed its hashlock. -/
theorem cmdRefundLez_follows {args : ConfigArgs} {hashlock : String} :
    Follows (fun _ _ => True) (fun history result => ∀ configured now,
      clockReadings history = [configured, now] → ∃ parsed,
        parseBytes32 readers hashlock "hashlock" = .ok parsed ∧ Gated client parsed
          (configured + args.lezTimelockMinutes.getD DEFAULT_LEZ_TIMELOCK_MINUTES * 60) now history
          result)
      (cmdRefundLez readers client args hashlock).run [] := by
  rw [cmdRefundLez, Follows.run_bind_iff]
  refine intoSwapConfig_follows.weaken fun later result read => ?_
  obtain ⟨few, built⟩ := read
  cases result with
  | error e => exact fun _ _ same => absurd same (not_twice few)
  | ok config =>
      obtain ⟨configured, reading, timelock⟩ := built config rfl
      dsimp only
      rw [Follows.run_bind_iff, Follows.run_returned_iff]
      cases arg : parseBytes32 readers hashlock "hashlock" with
      | error e => exact fun _ _ same => absurd same (not_twice few)
      | ok parsed =>
          dsimp only
          rw [Follows.run_bind_iff]
          refine createClients_follows.weaken fun next result same => ?_
          rw [reading] at same
          cases result with
          | error e => exact fun _ _ twice => absurd twice (not_twice (same ▸ le_refl 1))
          | ok _ =>
              refine refundLez_follows.weaken fun last result gated => ?_
              obtain ⟨reached, readings, gated⟩ := gated
              rw [timelock] at gated
              intro first now twice
              rw [readings, same] at twice
              cases twice
              exact ⟨parsed, rfl, gated⟩

/-- So has the library. -/
theorem swapFfiRefundLez_follows {configJson : Option (Except String FfiConfig)}
    {hashlockHex : Option String} :
    Follows (fun _ _ => True) (fun history result => ∀ configured now,
      clockReadings history = [configured, now] → ∃ fields text parsed minutes outcome,
        configJson = some (.ok fields) ∧ hashlockHex = some text ∧
        parseHashlockArg readers text = .ok parsed ∧ fields.minutes = .ok minutes ∧
        result = outcome.mapError SwapError.toString ∧
        Gated client parsed (configured + minutes.1 * 60) now history outcome)
      (swapFfiRefundLez readers client configJson hashlockHex).run [] := by
  match configJson, hashlockHex with
  | none, _ => exact nofun
  | some (.error e), none => exact nofun
  | some (.ok fields), none => exact nofun
  | some (.error e), some _ => exact nofun
  | some (.ok fields), some hashlockHex =>
      change Follows _ _ (fields.parse readers >>= _ : ExceptT String (Program interface) _).run _
      rw [Follows.run_bind_iff]
      refine FfiConfig.parse_follows.weaken fun later result read => ?_
      obtain ⟨few, built⟩ := read
      cases result with
      | error e => exact fun _ _ same => absurd same (not_twice few)
      | ok config =>
          obtain ⟨configured, minutes, reading, read, timelock⟩ := built config rfl
          dsimp only
          rw [Follows.run_bind_iff, Follows.run_returned_iff]
          cases arg : parseHashlockArg readers hashlockHex with
          | error e => exact fun _ _ same => absurd same (not_twice few)
          | ok parsed =>
              apply asText_follows.mpr
              apply Follows.request_bind trivial
              intro connected
              have same : clockReadings (later ++ [⟨.lezConnect, connected⟩]) = [configured] :=
                (clockReadings_append _ _).trans ((List.append_nil _).trans reading)
              rw [Follows.run_bind_iff, Follows.run_returned_iff]
              cases connected with
              | error e => exact fun _ _ twice => absurd twice (not_twice (same ▸ le_refl 1))
              | ok _ =>
                  refine refundLez_follows.weaken fun last outcome gated => ?_
                  obtain ⟨reached, readings, gated⟩ := gated
                  rw [timelock] at gated
                  intro first now twice
                  rw [readings, same] at twice
                  cases twice
                  exact ⟨fields, hashlockHex, parsed, minutes, outcome, rfl, rfl, arg, read, rfl, gated⟩

end Runs

/-- Whether a gate that reads `now` waits for the end of a number of minutes after `configured`. -/
def Waits (configured minutes now : U64) : Prop := now < configured + minutes * 60

/-- A manual refund follows the escrow exactly when the configured minutes, counted from the start
of the command, end on the same side of the clock as the timelock of the escrow: on the command
line, and in the library. -/
theorem manual_refund_iff (readers : Readers) (client : LezClient) (escrowTimelock : U64) :
    (∀ args hashlock, Follows (fun _ _ => True) (fun history result => ∀ configured now,
        clockReadings history = [configured, now] → ∃ parsed,
          parseBytes32 readers hashlock "hashlock" = .ok parsed ∧
          (FollowsEscrow (∃ seconds, result = .error (.TimelockNotExpired seconds))
              (Submitted client parsed history) escrowTimelock now ↔
            (Waits configured (args.lezTimelockMinutes.getD DEFAULT_LEZ_TIMELOCK_MINUTES) now ↔
              now.toNat * 1000 < escrowTimelock.toNat)))
      (cmdRefundLez readers client args hashlock).run []) ∧
    ∀ configJson hashlockHex, Follows (fun _ _ => True) (fun history result => ∀ configured now,
        clockReadings history = [configured, now] → ∃ fields text parsed minutes,
          configJson = some (.ok fields) ∧ hashlockHex = some text ∧
          parseHashlockArg readers text = .ok parsed ∧ fields.minutes = .ok minutes ∧
          (FollowsEscrow
              (∃ seconds, result = .error (SwapError.TimelockNotExpired seconds).toString)
              (Submitted client parsed history) escrowTimelock now ↔
            (Waits configured minutes.1 now ↔ now.toNat * 1000 < escrowTimelock.toNat)))
      (swapFfiRefundLez readers client configJson hashlockHex).run [] := by
  constructor
  · intro args hashlock
    refine cmdRefundLez_follows.weaken fun history result gates configured now twice => ?_
    obtain ⟨parsed, read, gated⟩ := gates configured now twice
    refine ⟨parsed, read, followsEscrow_iff gated.before fun open_ => ?_⟩
    obtain ⟨errors, submitted⟩ := gated.after open_
    refine ⟨?_, submitted⟩
    rintro ⟨seconds, refused⟩
    obtain ⟨message, other | other⟩ := errors _ refused
    · cases other
    · cases other
  · intro configJson hashlockHex
    refine swapFfiRefundLez_follows.weaken fun history result gates configured now twice => ?_
    obtain ⟨fields, text, parsed, minutes, outcome, json, hex, read, configMinutes, rfl, gated⟩ :=
      gates configured now twice
    refine ⟨fields, text, parsed, minutes, json, hex, read, configMinutes,
      followsEscrow_iff (fun waiting => ?_) fun open_ => ?_⟩
    · obtain ⟨seconds, rfl⟩ := gated.before waiting
      exact ⟨seconds, rfl⟩
    · obtain ⟨errors, submitted⟩ := gated.after open_
      refine ⟨?_, submitted⟩
      rintro ⟨seconds, refused⟩
      cases outcome with
      | ok txHash => cases refused
      | error error => exact (errors error rfl).toString_ne seconds (Except.error.inj refused)

/-- Libraries that read zeros everywhere. -/
def zeroReaders : Readers where
  ethAddress _ := .ok (Bytes.zero 20)
  base58 _ := .ok (List.replicate 32 0)
  hex _ := .ok (List.replicate 32 0)

/-- Arguments without timelocks. -/
def plainArgs : ConfigArgs where
  ethHtlcAddress := "0x00"
  ethRecipient := "0x00"
  lezHtlcProgramId := "00"
  lezTakerAccount := none
  lezWalletHome := none
  lezAccountId := none
  lezSigningKey := some "00"
  lezAmount := 1
  ethAmount := "1"
  lezTimelockMinutes := none
  ethTimelockMinutes := none

/-- A client of no account. -/
def zeroClient : LezClient := ⟨Bytes.zero 32, fun _ => Bytes.zero 32⟩

/-- The refund of an escrow that expired in the first second of 1970 is refused as too early. -/
theorem expired_escrow_refused :
    ¬ Follows (fun _ _ => True) (fun history result => ∀ configured now,
        clockReadings history = [configured, now] → ∃ parsed,
          FollowsEscrow (∃ seconds, result = .error (.TimelockNotExpired seconds))
            (Submitted zeroClient parsed history) 1000 now)
      (cmdRefundLez zeroReaders zeroClient plainArgs "00").run [] := by
  intro follows
  have run := (((follows.2 (1800000000 : U64)).2 (.ok ())).2 (.ok ())).2 (1800000000 : U64)
  obtain ⟨parsed, escrow⟩ := run 1800000000 1800000000 rfl
  have locked := escrow.refuses.mp ⟨300, rfl⟩
  revert locked
  decide

end AtomicSwaps.Cli
