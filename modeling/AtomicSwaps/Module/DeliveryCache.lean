import AtomicSwaps.Semantics.Run
import AtomicSwaps.Ui.Text

/-!
# The delivery cache

The receiving side of `swap_delivery_adapter.cpp`: offers and swap events that arrive from
the network are checked and cached, and calls of the module fetch them. A step is what one
thread does under the state's lock; one call at a time subscribes or unsubscribes, and its
remote call is answered by a later step. Starting and stopping the messaging is left out, and
so is what the delivery module does with a payload before it is a JSON object.

Every message that is accepted gets a ticket, which the program does not have: it tells apart
messages that say the same, so that one can say what becomes of each.
-/

namespace AtomicSwaps.Module

open Semantics
open Trimming (trim)
open Ui (qtSpace isHexDigit withoutHexPrefix toLongLong? splitAtFirst integer? jsDecimal?
  roundsAboveZero roundsToFinite)

/-- A `QJsonValue`: of a number, the text that `QVariant` gives it, which is short. -/
inductive JsonValue where
  | string (text : String)
  | number (text : String) (short : text.length ≤ 24)
  | bool (value : Bool)
  | other

/-- `toVariant().toString()`. -/
def JsonValue.variantText : JsonValue → String
  | .string text | .number text _ => text
  | .bool value => if value then "true" else "false"
  | .other => ""

/-- `QJsonValue::toString`. -/
def JsonValue.text : JsonValue → String
  | .string text => text
  | _ => ""

/-- A `QJsonObject`. -/
abbrev JsonObject := String → Option JsonValue

/-- The text of a field, as `QJsonObject::value` and `QJsonValue::toString` give it. -/
def textOf (object : JsonObject) (key : String) : String := ((object key).map (·.text)).getD ""

/-- `strOf`. -/
def strOf (object : JsonObject) (key : String) : List Char :=
  trim qtSpace (((object key).map (·.variantText)).getD "").toList

/-- `kMaxCachedOffers`. -/
def kMaxCachedOffers : Nat := 256

/-- `kMaxCachedOffersPerMaker`. -/
def kMaxCachedOffersPerMaker : Nat := 8

/-- `kMaxCachedSwapEventsPerSwap`. -/
def kMaxCachedSwapEventsPerSwap : Nat := 32

/-- `kMaxTrackedSwaps`. -/
def kMaxTrackedSwaps : Nat := 64

/-- `kOffersTopic`. -/
def kOffersTopic : String := "/atomic-swaps/1/offers/json"

/-- `offerKeys`. -/
def offerKeys : List String :=
  ["hashlock", "lez_amount", "eth_amount", "maker_eth_address", "maker_lez_account",
    "lez_timelock", "eth_timelock", "lez_htlc_program_id", "eth_htlc_address"]

/-- `swapAcceptKeys`. -/
def swapAcceptKeys : List String :=
  ["hashlock", "eth_swap_id", "taker_lez_account", "taker_eth_address"]

/-- The fields of an object under some keys: `filteredOfferFields`, `filteredSwapAcceptFields`. -/
def filteredFields (keys : List String) (source : JsonObject) : JsonObject := fun key =>
  if key ∈ keys then source key else none

/-- `hasOfferCoreFields`. -/
def hasOfferCoreFields (offer : JsonObject) : Bool :=
  ["lez_amount", "eth_amount", "maker_eth_address", "maker_lez_account", "lez_timelock",
    "eth_timelock", "lez_htlc_program_id", "eth_htlc_address"].all fun key => (offer key).isSome

/-- `hasSwapAcceptCoreFields`. -/
def hasSwapAcceptCoreFields (accept : JsonObject) : Bool :=
  swapAcceptKeys.all fun key =>
    match accept key with
    | some (.string text) => trim qtSpace text.toList ≠ []
    | _ => false

/-- `\A(0x)?[0-9a-fA-F]{digits}\z`. -/
def isHexText (digits : Nat) (text : List Char) : Bool :=
  let body := match text with
    | '0' :: 'x' :: rest => rest
    | text => text
  body.length = digits && body.all isHexDigit

/-- `positiveNumber`: what `QString::toDouble` reads is finite and above zero. -/
def positiveNumber (text : List Char) : Bool :=
  let unsigned := match text with
    | '+' :: rest => rest
    | text => text
  match splitAtFirst (fun char => char == 'e' || char == 'E') unsigned with
  | (decimal, none) => (jsDecimal? decimal).any fun (mantissa, places) =>
      roundsAboveZero mantissa places && roundsToFinite mantissa places
  | (decimal, some exponent) =>
      match jsDecimal? decimal, integer? exponent with
      | some (mantissa, places), some exponent =>
          let mantissa := mantissa * 10 ^ exponent.toNat
          let places := places + (-exponent).toNat
          roundsAboveZero mantissa places && roundsToFinite mantissa places
      | _, _ => false

/-- `positiveInteger`. -/
def positiveInteger (text : List Char) : Bool := (toLongLong? (String.ofList text)).any (0 < ·)

/-- `swapDeliveryOfferIsWellFormed`. -/
def swapDeliveryOfferIsWellFormed (offer : JsonObject) : Bool :=
  isHexText 40 (strOf offer "maker_eth_address") && isHexText 40 (strOf offer "eth_htlc_address") &&
    isHexText 64 (strOf offer "lez_htlc_program_id") &&
    (positiveNumber (strOf offer "lez_amount") && positiveNumber (strOf offer "eth_amount")) &&
    (positiveInteger (strOf offer "lez_timelock") && positiveInteger (strOf offer "eth_timelock"))

/-- `canonicalHashlockHex`; empty text is nothing here. -/
def canonicalHashlockHex (raw : String) : Option String :=
  let body := withoutHexPrefix raw.toList
  if body.length = 64 ∧ body.all isHexDigit then some (String.ofList (body.map Char.toLower)) else none

/-- What stands between two texts. -/
def between (front back text : List Char) : Option (List Char) :=
  if front.isPrefixOf text ∧ back.isSuffixOf text ∧ front.length + back.length ≤ text.length then
    some ((text.drop front.length).take (text.length - front.length - back.length))
  else none

/-- `canonicalHashlockFromSwapTopic`; like every `$`, the one of its pattern stands before a
newline at the end as well. -/
def canonicalHashlockFromSwapTopic (topic : String) : Option String :=
  let line := if topic.toList.getLast? = some '\n' then topic.toList.dropLast else topic.toList
  (between "/atomic-swaps/1/swap-".toList "/json".toList line).bind fun hashlock =>
    if hashlock.length = 64 ∧ hashlock.all isHexDigit then
      canonicalHashlockHex (String.ofList hashlock)
    else none

/-- A message in the cache: its fields, and what is added to them on arrival. -/
structure Cached where
  ticket : Nat
  fields : JsonObject
  messageHash : String
  timestampMs : Int

/-- The text that the cap on a maker's offers goes by. -/
def makerKey (offer : JsonObject) : List Char :=
  (trim qtSpace (textOf offer "maker_eth_address").toList).map Char.toLower

/-- The address that the text denotes: its digits, without prefix and in lower case. -/
def makerAddress (offer : JsonObject) : List Char :=
  (withoutHexPrefix (strOf offer "maker_eth_address")).map Char.toLower

/-- The loop that makes room for one more message under a cap. -/
def makeRoom (cap : Nat) (messages : List Cached) : List Cached :=
  messages.drop (messages.length + 1 - cap)

/-- The loop that evicts the oldest offers of a maker, cut off after `turns`. -/
def evictMaker (key : List Char) : Nat → List Cached → List Cached
  | 0, offers => offers
  | turns + 1, offers =>
      if kMaxCachedOffersPerMaker ≤ offers.countP (fun cached => makerKey cached.fields = key) then
        evictMaker key turns (offers.eraseP fun cached => makerKey cached.fields = key)
      else offers

/-- The offers that stay when another one is cached. -/
def roomForOffer (offer : JsonObject) (offers : List Cached) : List Cached :=
  let kept := makeRoom kMaxCachedOffers offers
  if makerKey offer ≠ [] then evictMaker (makerKey offer) kept.length kept else kept

/-- What `messageReceived` is called with: the hash, the topic, the object that the payload
is if it is one, and the time. -/
structure Message where
  hash : String
  contentTopic : String
  object : Option JsonObject
  nowMs : Int

/-- The offer that a message on the offers' topic brings. -/
def offerOf (message : Message) : Option JsonObject :=
  if message.contentTopic = kOffersTopic then
    (message.object.map (filteredFields offerKeys)).filter fun offer =>
      hasOfferCoreFields offer && swapDeliveryOfferIsWellFormed offer
  else none

/-- The swap event that a message on another topic brings, with its hashlock. -/
def acceptOf (message : Message) : Option (String × JsonObject) :=
  if message.contentTopic = kOffersTopic then none
  else
    match canonicalHashlockFromSwapTopic message.contentTopic, message.object with
    | some hashlock, some object =>
        let accept := filteredFields swapAcceptKeys object
        if hasSwapAcceptCoreFields accept ∧
            canonicalHashlockHex (textOf accept "hashlock") = some hashlock then
          some (hashlock, Function.update accept "hashlock" (some (.string hashlock)))
        else none
    | _, _ => none

/-- A call of the module that waits for the delivery module. -/
inductive Operation where
  | subscribe (hashlock : String)
  | unsubscribe (hashlock : String) (remote : Bool)
deriving DecidableEq

/-- `DeliveryState`: the offers, the swap events and the subscriptions; the call that holds
`operationMutex`; and how many tickets were given. -/
structure DeliveryState where
  started : Bool
  offers : List Cached
  swapEvents : String → Option (List Cached)
  swapSubscriptions : List (String × Bool)
  operation : Option Operation
  tickets : Nat

/-- What `swapDeliveryFetchSwapEvents` answers. -/
structure FetchedEvents where
  hashlock : String
  subscribed : Bool
  events : List Cached

namespace DeliveryState

/-- Messaging has been started, and nothing has happened. -/
def initial : DeliveryState where
  started := true
  offers := []
  swapEvents _ := none
  swapSubscriptions := []
  operation := none
  tickets := 0

/-- A hashlock is a key of the subscriptions. -/
def Tracked (state : DeliveryState) (hashlock : String) : Prop :=
  hashlock ∈ state.swapSubscriptions.map (·.1)

instance (state : DeliveryState) (hashlock : String) : Decidable (state.Tracked hashlock) :=
  inferInstanceAs (Decidable (_ ∈ _))

/-- `swapSubscriptions[hashlock] = value`. -/
def setSubscription (state : DeliveryState) (hashlock : String) (value : Bool) :
    List (String × Bool) :=
  if state.Tracked hashlock then
    state.swapSubscriptions.map fun entry => if entry.1 = hashlock then (hashlock, value) else entry
  else state.swapSubscriptions ++ [(hashlock, value)]

/-- `swapSubscriptions.erase`. -/
def eraseSubscription (state : DeliveryState) (hashlock : String) : List (String × Bool) :=
  state.swapSubscriptions.filter (·.1 ≠ hashlock)

/-- The bucket of a hashlock, empty when there is none. -/
def bucket (state : DeliveryState) (hashlock : String) : List Cached :=
  (state.swapEvents hashlock).getD []

/-- `messageReceived` with an offer. -/
def cacheOffer (state : DeliveryState) (message : Message) (offer : JsonObject) : DeliveryState :=
  { state with
    offers := roomForOffer offer state.offers ++
      [⟨state.tickets, offer, message.hash, message.nowMs⟩]
    tickets := state.tickets + 1 }

/-- `messageReceived` with a swap event. -/
def cacheEvent (state : DeliveryState) (message : Message) (hashlock : String)
    (accept : JsonObject) : DeliveryState :=
  if state.Tracked hashlock then
    let kept := makeRoom kMaxCachedSwapEventsPerSwap (state.bucket hashlock)
    { state with
      swapEvents := Function.update state.swapEvents hashlock
        (some (kept ++ [⟨state.tickets, accept, message.hash, message.nowMs⟩]))
      tickets := state.tickets + 1 }
  else state

/-- `messageReceived`. -/
def messageReceived (state : DeliveryState) (message : Message) : DeliveryState :=
  match offerOf message with
  | some offer => state.cacheOffer message offer
  | none =>
      match acceptOf message with
      | some (hashlock, accept) => state.cacheEvent message hashlock accept
      | none => state

/-- `swapDeliveryFetchOffers`, with the offers that it answers. -/
def fetchOffers (state : DeliveryState) : List Cached × DeliveryState :=
  (state.offers, { state with offers := [] })

/-- `swapDeliveryFetchSwapEvents`, with its answer. -/
def fetchSwapEvents (state : DeliveryState) (hashlockHex : String) :
    Except String FetchedEvents × DeliveryState :=
  match canonicalHashlockHex hashlockHex with
  | none => (.error "hashlock must be 32 bytes of hex", state)
  | some hashlock =>
      match state.swapEvents hashlock with
      | none => (.ok ⟨hashlock, state.Tracked hashlock, []⟩, state)
      | some events =>
          (.ok ⟨hashlock, state.Tracked hashlock, events⟩,
            { state with swapEvents := Function.update state.swapEvents hashlock (some []) })

/-- `swapDeliverySubscribeSwap` up to its remote call, if it gets there. -/
def subscribeSwap (state : DeliveryState) (hashlockHex : String) : DeliveryState :=
  match canonicalHashlockHex hashlockHex with
  | none => state
  | some hashlock =>
      if !state.started then state
      else if kMaxTrackedSwaps ≤ state.swapSubscriptions.length ∧ ¬ state.Tracked hashlock then state
      else if (hashlock, true) ∈ state.swapSubscriptions then state
      else
        { state with
          swapSubscriptions := state.setSubscription hashlock false
          operation := some (.subscribe hashlock) }

/-- `swapDeliveryUnsubscribeSwap` up to its remote call, which it leaves out for a swap that
is not tracked. -/
def unsubscribeSwap (state : DeliveryState) (hashlockHex : String) : DeliveryState :=
  match canonicalHashlockHex hashlockHex with
  | none => state
  | some hashlock =>
      if !state.started then state
      else { state with operation := some (.unsubscribe hashlock (state.Tracked hashlock)) }

/-- The rest of a call once the delivery module has answered. -/
def answered (state : DeliveryState) (success : Bool) : DeliveryState :=
  match state.operation with
  | none => state
  | some (.subscribe hashlock) =>
      { state with
        operation := none
        swapSubscriptions :=
          if success then state.setSubscription hashlock true
          else state.eraseSubscription hashlock }
  | some (.unsubscribe hashlock remote) =>
      if remote ∧ success = false then { state with operation := none }
      else
        { state with
          operation := none
          swapSubscriptions := state.eraseSubscription hashlock
          swapEvents := Function.update state.swapEvents hashlock none }

end DeliveryState

/-- What happens to the cache; of a fetch, what it answers as well. -/
inductive DeliveryEvent where
  | messageReceived (message : Message)
  | fetchOffers (offers : List Cached)
  | fetchSwapEvents (hashlockHex : String) (answer : Except String FetchedEvents)
  | subscribeSwap (hashlockHex : String)
  | unsubscribeSwap (hashlockHex : String)
  | answered (success : Bool)

/-- The messages that a fetch returns. -/
def DeliveryEvent.returned : DeliveryEvent → List Cached
  | .fetchOffers offers => offers
  | .fetchSwapEvents _ (.ok answer) => answer.events
  | _ => []

/-- The messages that the fetches of a run return. -/
def returnedBy (events : List DeliveryEvent) : List Cached := events.flatMap (·.returned)

namespace DeliveryState

/-- The cache after an event. -/
def after (state : DeliveryState) : DeliveryEvent → DeliveryState
  | .messageReceived message => state.messageReceived message
  | .fetchOffers _ => state.fetchOffers.2
  | .fetchSwapEvents hashlockHex _ => (state.fetchSwapEvents hashlockHex).2
  | .subscribeSwap hashlockHex => state.subscribeSwap hashlockHex
  | .unsubscribeSwap hashlockHex => state.unsubscribeSwap hashlockHex
  | .answered success => state.answered success

/-- The cache after some events. -/
def stateAfter (events : List DeliveryEvent) : DeliveryState := events.foldl after initial

/-- A fetch answers what it does, and one call at a time holds `operationMutex`, until it is
answered. -/
def Enabled (state : DeliveryState) : DeliveryEvent → Prop
  | .fetchOffers offers => state.fetchOffers.1 = offers
  | .fetchSwapEvents hashlockHex answer => (state.fetchSwapEvents hashlockHex).1 = answer
  | .subscribeSwap _ | .unsubscribeSwap _ => state.operation = none
  | .answered _ => state.operation ≠ none
  | _ => True

/-- A step of the cache. -/
def DeliveryStep (state : DeliveryState) (event : DeliveryEvent) (next : DeliveryState) : Prop :=
  state.Enabled event ∧ state.after event = next

/-- What a step does to the cache. -/
inductive Effect (state : DeliveryState) : DeliveryEvent → DeliveryState → Prop where
  | ignored {event : DeliveryEvent} (nothing : event.returned = []) : Effect state event state
  | offerCached {message : Message} {offer : JsonObject} (brought : offerOf message = some offer) :
      Effect state (.messageReceived message) (state.cacheOffer message offer)
  | eventCached {message : Message} {hashlock : String} {accept : JsonObject}
      (brought : acceptOf message = some (hashlock, accept)) (tracked : state.Tracked hashlock) :
      Effect state (.messageReceived message) (state.cacheEvent message hashlock accept)
  | offersFetched : Effect state (.fetchOffers state.offers) { state with offers := [] }
  | eventsFetched {hashlockHex hashlock : String} {events : List Cached}
      (canonical : canonicalHashlockHex hashlockHex = some hashlock)
      (found : state.swapEvents hashlock = some events) :
      Effect state (.fetchSwapEvents hashlockHex (.ok ⟨hashlock, state.Tracked hashlock, events⟩))
        { state with swapEvents := Function.update state.swapEvents hashlock (some []) }
  | subscribing {hashlockHex hashlock : String}
      (room : state.Tracked hashlock ∨ state.swapSubscriptions.length < kMaxTrackedSwaps) :
      Effect state (.subscribeSwap hashlockHex)
        { state with
          swapSubscriptions := state.setSubscription hashlock false
          operation := some (.subscribe hashlock) }
  | unsubscribing {hashlockHex hashlock : String} {remote : Bool} :
      Effect state (.unsubscribeSwap hashlockHex)
        { state with operation := some (.unsubscribe hashlock remote) }
  | subscribed {hashlock : String} (calling : state.operation = some (.subscribe hashlock)) :
      Effect state (.answered true)
        { state with
          operation := none
          swapSubscriptions := state.setSubscription hashlock true }
  | refused {hashlock : String} (calling : state.operation = some (.subscribe hashlock)) :
      Effect state (.answered false)
        { state with
          operation := none
          swapSubscriptions := state.eraseSubscription hashlock }
  | keptSubscribed : Effect state (.answered false) { state with operation := none }
  | unsubscribed {hashlock : String} {remote success : Bool}
      (calling : state.operation = some (.unsubscribe hashlock remote))
      (accepted : remote → success) :
      Effect state (.answered success)
        { state with
          operation := none
          swapSubscriptions := state.eraseSubscription hashlock
          swapEvents := Function.update state.swapEvents hashlock none }

variable {state next : DeliveryState} {event : DeliveryEvent}

theorem effect_of_step (step : DeliveryStep state event next) : Effect state event next := by
  obtain ⟨enabled, rfl⟩ := step
  cases event with
  | messageReceived message =>
      simp only [after, messageReceived]
      split
      · next offer brought => exact .offerCached brought
      · split
        · next hashlock accept brought =>
            by_cases tracked : state.Tracked hashlock
            · exact .eventCached brought tracked
            · rw [cacheEvent, if_neg tracked]
              exact .ignored rfl
        · exact .ignored rfl
  | fetchOffers offers =>
      cases enabled
      exact .offersFetched
  | fetchSwapEvents hashlockHex answer =>
      cases enabled
      simp only [after, fetchSwapEvents]
      split
      · exact .ignored rfl
      · next hashlock canonical =>
          split
          · exact .ignored rfl
          · next events found => exact .eventsFetched canonical found
  | subscribeSwap hashlockHex =>
      simp only [after, subscribeSwap]
      split
      · exact .ignored rfl
      · split_ifs with stopped full subscribed
        · exact .ignored rfl
        · exact .ignored rfl
        · exact .ignored rfl
        · refine .subscribing ?_
          by_contra none
          obtain ⟨untracked, long⟩ := not_or.mp none
          exact full ⟨Nat.not_lt.mp long, untracked⟩
  | unsubscribeSwap hashlockHex =>
      simp only [after, unsubscribeSwap]
      split
      · exact .ignored rfl
      · split_ifs
        · exact .ignored rfl
        · exact .unsubscribing
  | answered success =>
      simp only [after, answered]
      split
      · exact .ignored rfl
      · next hashlock calling =>
          cases success with
          | true => exact .subscribed calling
          | false => exact .refused calling
      · next hashlock remote calling =>
          split_ifs with failed
          · obtain ⟨-, rfl⟩ := failed
            exact .keptSubscribed
          · exact .unsubscribed calling (by simpa using failed)

end DeliveryState

/-! ## What a message may bring -/

/-- What a well-formed offer says for its maker is a text, so that the cap goes by it. -/
theorem makerKey_ne_nil {offer : JsonObject} (wellFormed : swapDeliveryOfferIsWellFormed offer) :
    makerKey offer ≠ [] := by
  have hex : isHexText 40 (strOf offer "maker_eth_address") := by
    simp only [swapDeliveryOfferIsWellFormed, Bool.and_eq_true] at wellFormed
    exact wellFormed.1.1.1.1
  have long : 40 ≤ (strOf offer "maker_eth_address").length := by
    unfold isHexText at hex
    split at hex <;> simp only [Bool.and_eq_true, decide_eq_true_eq] at hex <;> grind
  cases field : offer "maker_eth_address" with
  | none =>
      rw [strOf, field] at long
      exact absurd (long.trans (Trimming.length_trim_le _ _)) (by decide)
  | some value =>
      cases value with
      | string text =>
          have same : makerKey offer = (strOf offer "maker_eth_address").map Char.toLower := by
            simp only [makerKey, textOf, strOf, field]
            rfl
          intro empty
          rw [same, List.map_eq_nil_iff] at empty
          rw [empty] at long
          exact absurd long (by decide)
      | number text short =>
          rw [strOf, field] at long
          have bound := long.trans (Trimming.length_trim_le _ _)
          change 40 ≤ text.toList.length at bound
          rw [String.length_toList] at bound
          omega
      | bool value =>
          rw [strOf, field] at long
          have bound := long.trans (Trimming.length_trim_le _ _)
          cases value <;> exact absurd bound (by decide)
      | other =>
          rw [strOf, field] at long
          exact absurd (long.trans (Trimming.length_trim_le _ _)) (by decide)

theorem isHexDigit_toLower {char : Char} (hex : isHexDigit char) :
    isHexDigit char.toLower ∧ char.toLower.toLower = char.toLower ∧ char.toLower ≠ 'x' ∧
      char.toLower ≠ 'X' := by
  have small : char.toNat < 103 := by
    simp only [isHexDigit, Char.isDigit, Char.le_def, UInt32.le_iff_toNat_le, Bool.and_eq_true,
      decide_eq_true_eq, Bool.decide_or, Bool.or_eq_true, Bool.decide_and] at hex
    have size : char.toNat = char.val.toNat := rfl
    have nine : '9'.val.toNat = 57 := rfl
    have f : 'f'.val.toNat = 102 := rfl
    have capital : 'F'.val.toNat = 70 := rfl
    have nine' : (57 : UInt32).toNat = 57 := rfl
    grind
  have every : ∀ number < 103, isHexDigit (Char.ofNat number) →
      isHexDigit (Char.ofNat number).toLower ∧
        (Char.ofNat number).toLower.toLower = (Char.ofNat number).toLower ∧
        (Char.ofNat number).toLower ≠ 'x' ∧ (Char.ofNat number).toLower ≠ 'X' := by
    decide +kernel
  have here := every char.toNat small
  rw [Char.ofNat_toNat] at here
  exact here hex

theorem withoutHexPrefix_of_second {text : List Char} (short : ∀ char ∈ text, char ≠ 'x' ∧ char ≠ 'X') :
    withoutHexPrefix text = text := by
  unfold withoutHexPrefix
  split
  · exact absurd rfl (short 'x' (by simp)).1
  · exact absurd rfl (short 'X' (by simp)).2
  · rfl

/-- A canonical hashlock is its own canonical form. -/
theorem canonicalHashlockHex_idem {raw hashlock : String}
    (canonical : canonicalHashlockHex raw = some hashlock) :
    canonicalHashlockHex hashlock = some hashlock := by
  simp only [canonicalHashlockHex, Option.ite_none_right_eq_some, Option.some.injEq] at canonical
  obtain ⟨⟨length, hex⟩, rfl⟩ := canonical
  generalize withoutHexPrefix raw.toList = body at length hex
  have digits : ∀ char ∈ body, isHexDigit char := by simpa [List.all_eq_true] using hex
  have kept : withoutHexPrefix (body.map Char.toLower) = body.map Char.toLower := by
    refine withoutHexPrefix_of_second fun char member => ?_
    obtain ⟨digit, inBody, rfl⟩ := List.mem_map.mp member
    exact (isHexDigit_toLower (digits digit inBody)).2.2
  have lower : (body.map Char.toLower).map Char.toLower = body.map Char.toLower := by
    rw [List.map_map]
    refine List.map_congr_left fun char member => ?_
    exact (isHexDigit_toLower (digits char member)).2.1
  have hexLower : (body.map Char.toLower).all isHexDigit := by
    rw [List.all_map, List.all_eq_true]
    exact fun char member => (isHexDigit_toLower (digits char member)).1
  rw [canonicalHashlockHex, String.toList_ofList, kept, if_pos ⟨by simpa using length, hexLower⟩, lower]

/-! ## Making room -/

theorem makeRoom_sublist (cap : Nat) (messages : List Cached) :
    (makeRoom cap messages).Sublist messages :=
  List.drop_sublist _ _

theorem makeRoom_length {cap : Nat} (messages : List Cached) (positive : 0 < cap) :
    (makeRoom cap messages).length < cap := by
  rw [makeRoom, List.length_drop]
  omega

/-- Nothing is evicted below the cap. -/
theorem makeRoom_of_room {cap : Nat} {messages : List Cached} (room : messages.length < cap) :
    makeRoom cap messages = messages := by
  rw [makeRoom, Nat.sub_eq_zero_of_le room, List.drop_zero]

theorem evictMaker_sublist (key : List Char) (turns : Nat) (offers : List Cached) :
    (evictMaker key turns offers).Sublist offers := by
  induction turns generalizing offers with
  | zero => exact .refl _
  | succ turns ih =>
      rw [evictMaker]
      split
      · exact (ih _).trans List.eraseP_sublist
      · exact .refl _

/-- The loop ends below the cap. -/
theorem evictMaker_countP (key : List Char) (turns : Nat) (offers : List Cached)
    (enough : offers.length ≤ turns) :
    (evictMaker key turns offers).countP (fun cached => makerKey cached.fields = key) <
      kMaxCachedOffersPerMaker := by
  induction turns generalizing offers with
  | zero =>
      rw [List.length_eq_zero_iff.mp (Nat.le_zero.mp enough)]
      exact Nat.zero_lt_succ 7
  | succ turns ih =>
      rw [evictMaker]
      split
      · next crowded =>
          have some : 0 < offers.countP (fun cached => makerKey cached.fields = key) :=
            Nat.lt_of_lt_of_le (by decide) crowded
          obtain ⟨cached, member, same⟩ := List.countP_pos_iff.mp some
          refine ih _ ?_
          rw [List.length_eraseP_of_mem member same]
          omega
      · next room => exact Nat.not_le.mp room

/-- The loop evicts offers of the maker only, and only when the maker's share is full. -/
theorem evictMaker_left {key : List Char} {turns : Nat} {offers : List Cached} {cached : Cached}
    (here : cached ∈ offers) (left : cached ∉ evictMaker key turns offers) :
    makerKey cached.fields = key ∧
      kMaxCachedOffersPerMaker ≤ offers.countP (fun cached => makerKey cached.fields = key) := by
  induction turns generalizing offers with
  | zero => exact absurd here left
  | succ turns ih =>
      rw [evictMaker] at left
      split at left
      · next crowded =>
          refine ⟨Decidable.byContradiction fun other => ?_, crowded⟩
          have stays : cached ∈ offers.eraseP fun cached => makerKey cached.fields = key :=
            (List.mem_eraseP_of_neg (by simpa using other)).mpr here
          exact other (ih stays left).1
      · exact absurd here left

theorem roomForOffer_sublist_kept (offer : JsonObject) (offers : List Cached) :
    (roomForOffer offer offers).Sublist (makeRoom kMaxCachedOffers offers) := by
  unfold roomForOffer
  dsimp only
  split_ifs
  · exact evictMaker_sublist _ _ _
  · exact .refl _

theorem roomForOffer_sublist (offer : JsonObject) (offers : List Cached) :
    (roomForOffer offer offers).Sublist offers :=
  (roomForOffer_sublist_kept offer offers).trans (makeRoom_sublist _ _)

/-- An offer is evicted only when the cache is full, or the share of the maker that is its own. -/
theorem roomForOffer_left {offer : JsonObject} {offers : List Cached} {cached : Cached}
    (here : cached ∈ offers) (left : cached ∉ roomForOffer offer offers) :
    kMaxCachedOffers ≤ offers.length ∨ makerKey cached.fields = makerKey offer ∧
      kMaxCachedOffersPerMaker ≤
        offers.countP fun cached => makerKey cached.fields = makerKey offer := by
  rcases Nat.lt_or_ge offers.length kMaxCachedOffers with room | full
  · right
    unfold roomForOffer at left
    dsimp only at left
    rw [makeRoom_of_room room] at left
    split_ifs at left
    · exact evictMaker_left here left
    · exact absurd here left
  · exact .inl full

/-- How many cached offers are of an address. -/
def makerCount (offers : List Cached) (address : List Char) : Nat :=
  offers.countP fun cached => makerAddress cached.fields = address

/-- The share of the offer's address is full, with an offer that spells the address in another
way. -/
def Respelled (offers : List Cached) (offer : JsonObject) : Prop :=
  makerCount offers (makerAddress offer) = kMaxCachedOffersPerMaker ∧
    ∃ cached ∈ offers, makerAddress cached.fields = makerAddress offer ∧
      makerKey cached.fields ≠ makerKey offer

/-- The cap holds for the address of a new offer, if the address is spelled in one way. -/
theorem makerCount_roomForOffer {offer : JsonObject} {offers : List Cached}
    (keyed : makerKey offer ≠ [])
    (capped : makerCount offers (makerAddress offer) ≤ kMaxCachedOffersPerMaker)
    (one : ¬ Respelled (makeRoom kMaxCachedOffers offers) offer) :
    makerCount (roomForOffer offer offers) (makerAddress offer) < kMaxCachedOffersPerMaker := by
  have within := (roomForOffer_sublist_kept offer offers).countP_le
    (p := fun cached => makerAddress cached.fields = makerAddress offer)
  have atMost : makerCount (makeRoom kMaxCachedOffers offers) (makerAddress offer) ≤
      kMaxCachedOffersPerMaker :=
    ((makeRoom_sublist _ _).countP_le).trans capped
  rcases Nat.lt_or_eq_of_le atMost with room | full
  · exact Nat.lt_of_le_of_lt within room
  · have spelled : ∀ cached ∈ makeRoom kMaxCachedOffers offers,
        makerAddress cached.fields = makerAddress offer →
          makerKey cached.fields = makerKey offer := by
      intro cached member same
      exact Decidable.byContradiction fun other => one ⟨full, cached, member, same, other⟩
    have below : (roomForOffer offer offers).countP
        (fun cached => makerKey cached.fields = makerKey offer) < kMaxCachedOffersPerMaker := by
      unfold roomForOffer
      dsimp only
      rw [if_pos keyed]
      exact evictMaker_countP _ _ _ le_rfl
    refine Nat.lt_of_le_of_lt (List.countP_mono_left fun cached member same => ?_) below
    have inKept := (roomForOffer_sublist_kept offer offers).subset member
    exact decide_eq_true (spelled cached inKept (of_decide_eq_true same))

/-! ## The bounds -/

theorem offerOf_wellFormed {message : Message} {offer : JsonObject}
    (brought : offerOf message = some offer) : swapDeliveryOfferIsWellFormed offer := by
  simp only [offerOf, Option.ite_none_right_eq_some, Option.filter_eq_some_iff,
    Bool.and_eq_true] at brought
  exact brought.2.2.2

/-- The hashlock of a swap event is canonical, and the event's own. -/
theorem acceptOf_hashlock {message : Message} {hashlock : String} {accept : JsonObject}
    (brought : acceptOf message = some (hashlock, accept)) :
    canonicalHashlockHex hashlock = some hashlock ∧ accept "hashlock" = some (.string hashlock) := by
  unfold acceptOf at brought
  split at brought
  · cases brought
  · split at brought
    · next ofTopic object topic _ =>
        simp only [Option.ite_none_right_eq_some, Option.some.injEq, Prod.mk.injEq] at brought
        obtain ⟨⟨-, same⟩, rfl, rfl⟩ := brought
        exact ⟨canonicalHashlockHex_idem same, Function.update_self ..⟩
    · cases brought

namespace DeliveryState

/-- The offers are within the cap and well-formed. -/
structure OffersBounded (state : DeliveryState) : Prop where
  length_le : state.offers.length ≤ kMaxCachedOffers
  wellFormed : ∀ cached ∈ state.offers, swapDeliveryOfferIsWellFormed cached.fields

/-- The subscriptions are within the cap, and one that waits for its answer is among them. -/
structure SubscriptionsBounded (state : DeliveryState) : Prop where
  length_le : state.swapSubscriptions.length ≤ kMaxTrackedSwaps
  calling : ∀ hashlock, state.operation = some (.subscribe hashlock) → state.Tracked hashlock

/-- The events of a swap are within the cap and its own, and the swap can be fetched. -/
structure EventsBounded (state : DeliveryState) : Prop where
  canonical : ∀ hashlock, state.swapEvents hashlock ≠ none →
    canonicalHashlockHex hashlock = some hashlock
  length_le : ∀ hashlock, (state.bucket hashlock).length ≤ kMaxCachedSwapEventsPerSwap
  agreed : ∀ hashlock, ∀ cached ∈ state.bucket hashlock,
    cached.fields "hashlock" = some (.string hashlock)

variable {state next : DeliveryState} {event : DeliveryEvent}

theorem mem_setSubscription {hashlock : String} {value : Bool} {other : String} :
    other ∈ (state.setSubscription hashlock value).map (·.1) ↔
      other = hashlock ∨ state.Tracked other := by
  unfold setSubscription
  split_ifs with tracked
  · have keys : (state.swapSubscriptions.map fun entry =>
        if entry.1 = hashlock then (hashlock, value) else entry).map (·.1) =
          state.swapSubscriptions.map (·.1) := by
      rw [List.map_map]
      refine List.map_congr_left fun entry _ => ?_
      simp only [Function.comp_apply]
      split_ifs with same
      · exact same.symm
      · rfl
    rw [keys]
    exact ⟨.inr, fun which => which.elim (fun same => same ▸ tracked) id⟩
  · simp [Tracked, or_comm]

theorem length_setSubscription_le (state : DeliveryState) (hashlock : String) (value : Bool) :
    (state.setSubscription hashlock value).length ≤ state.swapSubscriptions.length + 1 := by
  unfold setSubscription
  split_ifs <;> simp

theorem length_setSubscription_of_tracked {hashlock : String} (value : Bool)
    (tracked : state.Tracked hashlock) :
    (state.setSubscription hashlock value).length = state.swapSubscriptions.length := by
  rw [setSubscription, if_pos tracked, List.length_map]

theorem mem_eraseSubscription {hashlock other : String} :
    other ∈ (state.eraseSubscription hashlock).map (·.1) ↔
      state.Tracked other ∧ other ≠ hashlock := by
  simp only [eraseSubscription, Tracked, List.mem_map, List.mem_filter, decide_eq_true_eq]
  grind

theorem length_eraseSubscription_le (state : DeliveryState) (hashlock : String) :
    (state.eraseSubscription hashlock).length ≤ state.swapSubscriptions.length :=
  List.length_filter_le _ _

theorem OffersBounded.step (bounded : state.OffersBounded) (step : DeliveryStep state event next) :
    next.OffersBounded := by
  cases effect_of_step step with
  | @offerCached message offer brought =>
      refine ⟨?_, fun cached member => ?_⟩
      · have room : (roomForOffer offer state.offers).length < kMaxCachedOffers :=
          Nat.lt_of_le_of_lt (roomForOffer_sublist_kept offer state.offers).length_le
            (makeRoom_length state.offers (by decide))
        rw [cacheOffer, List.length_append]
        exact room
      · rcases List.mem_append.mp member with inKept | new
        · exact bounded.wellFormed cached ((roomForOffer_sublist offer state.offers).subset inKept)
        · rw [List.mem_singleton.mp new]
          exact offerOf_wellFormed brought
  | @eventCached message hashlock accept brought tracked =>
      rw [cacheEvent, if_pos tracked]
      exact ⟨bounded.length_le, bounded.wellFormed⟩
  | offersFetched => exact ⟨Nat.zero_le _, nofun⟩
  | _ => exact ⟨bounded.length_le, bounded.wellFormed⟩

theorem SubscriptionsBounded.step (bounded : state.SubscriptionsBounded)
    (step : DeliveryStep state event next) : next.SubscriptionsBounded := by
  cases effect_of_step step with
  | @eventCached message hashlock accept brought tracked =>
      rw [cacheEvent, if_pos tracked]
      exact ⟨bounded.length_le, bounded.calling⟩
  | @subscribing _ hashlock room =>
      refine ⟨?_, fun other calling => ?_⟩
      · rcases room with tracked | room
        · rw [length_setSubscription_of_tracked false tracked]
          exact bounded.length_le
        · exact (length_setSubscription_le state hashlock false).trans room
      · cases calling
        exact mem_setSubscription.mpr (.inl rfl)
  | unsubscribing => exact ⟨bounded.length_le, nofun⟩
  | subscribed calling =>
      refine ⟨?_, nofun⟩
      rw [length_setSubscription_of_tracked true (bounded.calling _ calling)]
      exact bounded.length_le
  | refused calling => exact ⟨(length_eraseSubscription_le _ _).trans bounded.length_le, nofun⟩
  | keptSubscribed => exact ⟨bounded.length_le, nofun⟩
  | unsubscribed => exact ⟨(length_eraseSubscription_le _ _).trans bounded.length_le, nofun⟩
  | _ => exact ⟨bounded.length_le, bounded.calling⟩

theorem EventsBounded.step (bounded : state.EventsBounded) (step : DeliveryStep state event next) :
    next.EventsBounded := by
  cases effect_of_step step with
  | @eventCached message hashlock accept brought tracked =>
      obtain ⟨canonical, own⟩ := acceptOf_hashlock brought
      rw [cacheEvent, if_pos tracked]
      refine ⟨fun other some => ?_, fun other => ?_, fun other cached member => ?_⟩ <;>
        rcases eq_or_ne other hashlock with rfl | different
      · exact canonical
      · exact bounded.canonical other (by simpa [different] using some)
      · have room := makeRoom_length (state.bucket other)
          (show 0 < kMaxCachedSwapEventsPerSwap by decide)
        have fits := Nat.succ_le_of_lt room
        simpa [bucket] using fits
      · simpa [bucket, different] using bounded.length_le other
      · simp only [bucket, Function.update_self, Option.getD_some, List.mem_append,
          List.mem_singleton] at member
        rcases member with inKept | rfl
        · exact bounded.agreed other cached ((makeRoom_sublist _ _).subset inKept)
        · exact own
      · exact bounded.agreed other cached (by simpa [bucket, different] using member)
  | @eventsFetched hashlockHex hashlock events canonical found =>
      refine ⟨fun other some => ?_, fun other => ?_, fun other cached member => ?_⟩ <;>
        rcases eq_or_ne other hashlock with rfl | different
      · exact canonicalHashlockHex_idem canonical
      · exact bounded.canonical other (by simpa [different] using some)
      · simp [bucket]
      · simpa [bucket, different] using bounded.length_le other
      · simp [bucket] at member
      · exact bounded.agreed other cached (by simpa [bucket, different] using member)
  | @unsubscribed hashlock =>
      refine ⟨fun other some => ?_, fun other => ?_, fun other cached member => ?_⟩ <;>
        rcases eq_or_ne other hashlock with rfl | different
      · simp at some
      · exact bounded.canonical other (by simpa [different] using some)
      · simp [bucket]
      · simpa [bucket, different] using bounded.length_le other
      · simp [bucket] at member
      · exact bounded.agreed other cached (by simpa [bucket, different] using member)
  | _ => exact ⟨bounded.canonical, bounded.length_le, bounded.agreed⟩

/-! ## Runs -/

/-- What the two gaps of the cache are shut for: a new offer whose address has its full share
of the cache under several spellings, and a refused subscription of a swap that has a bucket. -/
def Tame (state : DeliveryState) : DeliveryEvent → Prop
  | .messageReceived message => ∀ offer, offerOf message = some offer →
      ¬ Respelled (makeRoom kMaxCachedOffers state.offers) offer
  | .answered false => ∀ hashlock, state.operation = some (.subscribe hashlock) →
      state.swapEvents hashlock = none
  | _ => True

/-- A step that keeps clear of the gaps. -/
def TameStep (state : DeliveryState) (event : DeliveryEvent) (next : DeliveryState) : Prop :=
  state.Tame event ∧ DeliveryStep state event next

/-- No address has more than its share of the offers. -/
def Shared (state : DeliveryState) : Prop :=
  ∀ address, makerCount state.offers address ≤ kMaxCachedOffersPerMaker

/-- There are events of tracked swaps only. -/
def Bucketed (state : DeliveryState) : Prop :=
  ∀ hashlock, state.swapEvents hashlock ≠ none → state.Tracked hashlock

theorem Shared.step (shared : state.Shared) (step : TameStep state event next) : next.Shared := by
  obtain ⟨tame, step⟩ := step
  cases effect_of_step step with
  | @offerCached message offer brought =>
      intro address
      have sum : makerCount (state.cacheOffer message offer).offers address =
          makerCount (roomForOffer offer state.offers) address +
            if makerAddress offer = address then 1 else 0 := by
        simp [makerCount, cacheOffer, List.countP_singleton]
      rw [sum]
      split_ifs with same
      · subst same
        have keyed := makerKey_ne_nil (offerOf_wellFormed brought)
        exact Nat.succ_le_of_lt (makerCount_roomForOffer keyed (shared _) (tame offer brought))
      · rw [Nat.add_zero]
        have fewer : makerCount (roomForOffer offer state.offers) address ≤
            makerCount state.offers address := (roomForOffer_sublist offer state.offers).countP_le
        exact fewer.trans (shared address)
  | @eventCached message hashlock accept brought tracked =>
      rw [cacheEvent, if_pos tracked]
      exact fun address => shared address
  | offersFetched => exact fun address => Nat.zero_le _
  | _ => exact fun address => shared address

theorem Bucketed.step (bucketed : state.Bucketed) (step : TameStep state event next) :
    next.Bucketed := by
  obtain ⟨tame, step⟩ := step
  cases effect_of_step step with
  | @eventCached message hashlock accept brought tracked =>
      rw [cacheEvent, if_pos tracked]
      intro other some
      rcases eq_or_ne other hashlock with rfl | different
      · exact tracked
      · exact bucketed other (by simpa [different] using some)
  | @eventsFetched hashlockHex hashlock events canonical found =>
      intro other some
      rcases eq_or_ne other hashlock with rfl | different
      · exact bucketed other (by simp [found])
      · exact bucketed other (by simpa [different] using some)
  | subscribing room => exact fun other some => mem_setSubscription.mpr (.inr (bucketed other some))
  | subscribed calling =>
      exact fun other some => mem_setSubscription.mpr (.inr (bucketed other some))
  | @refused hashlock calling =>
      intro other some
      refine mem_eraseSubscription.mpr ⟨bucketed other some, ?_⟩
      rintro rfl
      exact some (tame other calling)
  | @unsubscribed hashlock =>
      intro other some
      rcases eq_or_ne other hashlock with rfl | different
      · simp at some
      · exact mem_eraseSubscription.mpr ⟨bucketed other (by simpa [different] using some), different⟩
  | _ => exact bucketed

end DeliveryState
end AtomicSwaps.Module
