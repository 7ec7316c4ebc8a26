import AtomicSwaps.Ui.Number

/-!
# The offer board

`OfferFilter.js` and the row model of `OfferBoard.qml`: a batch of fetched offers is
classified, what is admitted becomes a row, and rows leave once they are long expired. The
receiving side lets addresses, amounts and timelocks of one kind through only; the hashlock
and the maker's account come as they were sent, and reach JavaScript as values of any kind. The
age of a row, the selection and the rates are display and left out.
-/

namespace AtomicSwaps.Ui

/-! ## Values of JavaScript -/

/-- What `JSON.parse` gives for a field, or `undefined` where it is missing. A number is the
text that JavaScript writes for it, and of an object the names of its properties count. -/
inductive JsValue where
  | undefined
  | null
  | bool (value : Bool)
  | number (text : String)
  | string (text : String)
  | array (items : List JsValue)
  | object (names : List String)

/-- The types that a role of a `ListModel` may have. -/
inductive RoleType where
  | bool
  | number
  | string
  | list
  | map
deriving DecidableEq

namespace JsValue

/-- A condition takes the value for true. -/
def truthy : JsValue → Bool
  | .undefined | .null => false
  | .bool value => value
  | .number text => text ≠ "0"
  | .string text => text ≠ ""
  | .array _ | .object _ => true

/-- `===`. Arrays and objects are compared by reference, and none here is met twice. -/
def same : JsValue → JsValue → Bool
  | .undefined, .undefined | .null, .null => true
  | .bool value, .bool other => value = other
  | .number text, .number other | .string text, .string other => text = other
  | _, _ => false

mutual

/-- `String(value)`, which throws for an object whose `toString` is not the one of every object. -/
def toText? : JsValue → Option String
  | .undefined => some "undefined"
  | .null => some "null"
  | .bool value => some (if value then "true" else "false")
  | .number text | .string text => some text
  | .array items => joined? items
  | .object names => if "toString" ∈ names then none else some "[object Object]"

/-- `Array.prototype.join`: an item that is null is left empty. -/
def joined? : List JsValue → Option String
  | [] => some ""
  | [.null] | [.undefined] => some ""
  | [item] => item.toText?
  | .null :: rest | .undefined :: rest => (joined? rest).map ("," ++ ·)
  | item :: rest => do return (← item.toText?) ++ "," ++ (← joined? rest)

end

/-- `String(value || "")`. -/
def textOrEmpty? (value : JsValue) : Option String :=
  if value.truthy then value.toText? else some ""

/-- The type of role that a value asks for. -/
def roleType : JsValue → Option RoleType
  | .undefined | .null => none
  | .bool _ => some .bool
  | .number _ => some .number
  | .string _ => some .string
  | .array _ => some .list
  | .object _ => some .map

end JsValue

/-- A role of a `ListModel` has the type of the first value that it is given. -/
def roleAfter (role : Option RoleType) (value : JsValue) : Option RoleType := role.or value.roleType

/-- What a role gives back of a value: nothing, if it has another type. -/
def kept (role : Option RoleType) (value : JsValue) : JsValue :=
  if roleAfter role value = value.roleType then value else .undefined

/-! ## Offers -/

/-- An offer as it is sent. Of the fields that the receiving side checks, one that is omitted is
empty, or zero; the timelocks are absolute Unix seconds, and integers, as it lets no others
through. -/
structure Offer where
  hashlock : JsValue
  lezAmount : String
  ethAmount : String
  makerEthAddress : String
  makerLezAccount : JsValue
  lezTimelock : Int
  ethTimelock : Int
  lezHtlcProgramId : String
  ethHtlcAddress : String

/-- `offerWellFormed`. -/
def offerWellFormed (offer : Offer) : Bool :=
  isHexBytes jsSpace offer.makerEthAddress 20 && isHexBytes jsSpace offer.ethHtlcAddress 20 &&
    isHexBytes jsSpace offer.lezHtlcProgramId 32 && (jsNumber offer.lezAmount).positive &&
    (jsNumber offer.ethAmount).positive && decide (0 < offer.lezTimelock) &&
    decide (0 < offer.ethTimelock)

/-- The venue the board compares with. -/
structure Venue where
  canonicalEth : String
  canonicalLez : String

/-- `offerVenueOk`: a pin that is not known yet matches everything. -/
def offerVenueOk (venue : Venue) (offer : Offer) : Bool :=
  (normalHex jsSpace venue.canonicalEth = [] ||
      normalHex jsSpace offer.ethHtlcAddress = normalHex jsSpace venue.canonicalEth) &&
    (normalHex jsSpace venue.canonicalLez = [] ||
      normalHex jsSpace offer.lezHtlcProgramId = normalHex jsSpace venue.canonicalLez)

/-- `offerExpirySec`. -/
def offerExpirySec (offer : Offer) : Int := min offer.lezTimelock offer.ethTimelock

/-- `offerKey`: the hashlock itself, whatever it is, or a text. -/
def offerKey (offer : Offer) : JsValue :=
  if offer.hashlock.truthy then offer.hashlock
  else .string (offer.makerEthAddress ++ ":" ++ offer.lezAmount ++ ":" ++ offer.ethAmount)

/-- `maxOffers`. -/
def maxOffers : Nat := 200

/-- `maxGhostRows`. -/
def maxGhostRows : Nat := 4

/-- `expiredGraceSec`. -/
def expiredGraceSec : Int := 15

/-- What `classifyOffers` is told about the board. -/
structure FilterContext where
  nowSec : Int
  venue : Venue
  existingKeys : List JsValue
  ghostCount : Nat
  honestCount : Nat

/-- An offer to admit. -/
structure Admission where
  offer : Offer
  key : JsValue
  blocked : Bool

/-- The variables of the loop of `classifyOffers`. -/
structure Filing where
  seen : List JsValue
  ghosts : Nat
  honest : Nat
  admitted : List Admission

/-- One turn of the loop. -/
def classifyOffer (context : FilterContext) (filing : Filing) (offer : Offer) : Filing :=
  if !offerWellFormed offer then filing
  else if offerExpirySec offer ≤ context.nowSec then filing
  else if filing.seen.any (·.same (offerKey offer)) then filing
  else
    let taken (blocked : Bool) : Filing :=
      ⟨filing.seen ++ [offerKey offer], filing.ghosts + blocked.toNat,
        filing.honest + (!blocked).toNat, filing.admitted ++ [⟨offer, offerKey offer, blocked⟩]⟩
    if !offerVenueOk context.venue offer then
      if maxGhostRows ≤ filing.ghosts then filing else taken true
    else if maxOffers ≤ filing.honest then filing
    else taken false

/-- `classifyOffers`. -/
def classifyOffers (offers : List Offer) (context : FilterContext) : List Admission :=
  (offers.foldl (classifyOffer context)
    ⟨context.existingKeys, context.ghostCount, context.honestCount, []⟩).admitted

/-! ## Rows -/

/-- A row of the board. -/
structure Row where
  key : JsValue
  hashlock : String
  lezAmount : String
  ethAmountWei : String
  makerEth : String
  makerLez : String
  lezTimelock : Int
  ethTimelock : Int
  lezProgramId : String
  ethHtlcAddr : String
  blocked : Bool

/-- The row an admission becomes, with the texts that were made of the two unchecked fields. -/
def Row.ofTexts (admission : Admission) (key : JsValue) (hashlock makerLez : String) : Row where
  key
  hashlock
  lezAmount := admission.offer.lezAmount
  ethAmountWei := admission.offer.ethAmount
  makerEth := admission.offer.makerEthAddress
  makerLez
  lezTimelock := admission.offer.lezTimelock
  ethTimelock := admission.offer.ethTimelock
  lezProgramId := admission.offer.lezHtlcProgramId
  ethHtlcAddr := admission.offer.ethHtlcAddress
  blocked := admission.blocked

/-- The row an admission becomes, unless `String` throws. -/
def Row.ofAdmission? (keyRole : Option RoleType) (admission : Admission) : Option Row := do
  let hashlock ← admission.offer.hashlock.textOrEmpty?
  let makerLez ← admission.offer.makerLezAccount.textOrEmpty?
  return .ofTexts admission (kept keyRole admission.key) hashlock makerLez

/-- `wireOffer`. -/
def Row.wireOffer (row : Row) : Offer where
  hashlock := .string row.hashlock
  lezAmount := row.lezAmount
  ethAmount := row.ethAmountWei
  makerEthAddress := row.makerEth
  makerLezAccount := .string row.makerLez
  lezTimelock := row.lezTimelock
  ethTimelock := row.ethTimelock
  lezHtlcProgramId := row.lezProgramId
  ethHtlcAddress := row.ethHtlcAddr

/-- `offersModel`: the rows, newest first, and the type of their `key`. -/
structure OffersModel where
  rows : List Row
  keyRole : Option RoleType

/-- `ghostRowCount`. -/
def ghostRowCount (rows : List Row) : Nat := rows.countP (·.blocked)

/-- `evictOldestHonest`. -/
def evictOldestHonest (rows : List Row) : List Row :=
  (rows.reverse.eraseP (fun row => !row.blocked)).reverse

/-- The body of the loop of `mergeOffers`: the row that it inserts, if nothing throws, and what it
leaves. -/
def placeRow (model : OffersModel) (admission : Admission) : Option Row × OffersModel :=
  let rows :=
    if !admission.blocked && decide (maxOffers ≤ model.rows.length - ghostRowCount model.rows) then
      evictOldestHonest model.rows
    else model.rows
  match Row.ofAdmission? model.keyRole admission with
  | none => (none, ⟨rows, model.keyRole⟩)
  | some row => (some row, ⟨row :: rows, roleAfter model.keyRole admission.key⟩)

/-- The loop of `mergeOffers`, which ends where something throws: the rows that it inserts, in
order, and what it leaves. -/
def placeRows : OffersModel → List Admission → List Row × OffersModel
  | model, [] => ([], model)
  | model, admission :: rest =>
      match placeRow model admission with
      | (none, left) => ([], left)
      | (some row, left) => ⟨row :: (placeRows left rest).1, (placeRows left rest).2⟩

/-- What `mergeOffers` asks `classifyOffers` with. -/
def filterContext (nowSec : Int) (venue : Venue) (rows : List Row) : FilterContext where
  nowSec := nowSec
  venue := venue
  existingKeys := rows.map (·.key)
  ghostCount := ghostRowCount rows
  honestCount := rows.length - ghostRowCount rows

/-- `mergeOffers`. -/
def mergeOffers (nowSec : Int) (venue : Venue) (offers : List Offer) (model : OffersModel) :
    List Row × OffersModel :=
  placeRows model (classifyOffers offers (filterContext nowSec venue model.rows))

/-- `sweep`. -/
def sweep (nowSec : Int) (rows : List Row) : List Row :=
  rows.filter fun row =>
    !(decide (0 < min row.lezTimelock row.ethTimelock) &&
      decide (min row.lezTimelock row.ethTimelock + expiredGraceSec < nowSec))

/-! ## What is admitted -/

namespace JsValue

/-- A search for the value finds it again. -/
def findable (value : JsValue) : Bool := value.truthy && value.same value

theorem same_iff {value other : JsValue} :
    value.same other = true ↔ value = other ∧ other.same other = true := by
  constructor
  · intro equal
    unfold same at equal
    split at equal <;> simp_all [same]
  · rintro ⟨rfl, equal⟩
    exact equal

end JsValue

/-- The keys that can be found again. -/
def held (keys : List JsValue) : List JsValue := keys.filter (·.findable)

@[simp] theorem held_append (keys more : List JsValue) : held (keys ++ more) = held keys ++ held more :=
  List.filter_append ..

theorem held_sublist {keys more : List JsValue} (sublist : keys.Sublist more) :
    (held keys).Sublist (held more) :=
  sublist.filter _

theorem mem_held {keys : List JsValue} {key : JsValue} :
    key ∈ held keys ↔ key ∈ keys ∧ key.findable = true :=
  List.mem_filter

theorem offerKey_truthy (offer : Offer) : (offerKey offer).truthy = true := by
  unfold offerKey
  split
  · assumption
  · have some : offer.makerEthAddress ++ ":" ++ offer.lezAmount ++ ":" ++ offer.ethAmount ≠ "" := by
      intro empty
      have length := congrArg String.length empty
      simp only [String.length_append] at length
      exact absurd length (by simp)
    simp [JsValue.truthy, some]

/-- The search for a key. -/
theorem seen_iff {seen : List JsValue} {offer : Offer} :
    seen.any (·.same (offerKey offer)) = true ↔ offerKey offer ∈ held seen := by
  rw [List.any_eq_true, mem_held, JsValue.findable, offerKey_truthy, Bool.true_and]
  constructor
  · rintro ⟨key, among, equal⟩
    obtain ⟨rfl, equal⟩ := JsValue.same_iff.mp equal
    exact ⟨among, equal⟩
  · rintro ⟨among, equal⟩
    exact ⟨_, among, equal⟩

instance (seen : List JsValue) (offer : Offer) : Decidable (offerKey offer ∈ held seen) :=
  decidable_of_iff _ seen_iff

/-- The loop has admitted offers of the batch, each for a reason, under keys new to the
board and to one another. -/
structure Filing.Sound (context : FilterContext) (batch : List Offer) (filing : Filing) :
    Prop where
  seen : filing.seen = context.existingKeys ++ filing.admitted.map (·.key)
  fresh : ∀ admission ∈ filing.admitted, admission.key ∉ held context.existingKeys
  distinct : (held (filing.admitted.map (·.key))).Nodup
  checked : ∀ admission ∈ filing.admitted, admission.offer ∈ batch ∧
    offerWellFormed admission.offer ∧ context.nowSec < offerExpirySec admission.offer ∧
    admission.key = offerKey admission.offer ∧
    admission.blocked = !offerVenueOk context.venue admission.offer

/-- A turn leaves the loop as it is, or admits the offer under a key not seen before. -/
theorem classifyOffer_cases (context : FilterContext) (filing : Filing) (offer : Offer) :
    classifyOffer context filing offer = filing ∨
      offerWellFormed offer ∧ context.nowSec < offerExpirySec offer ∧
      offerKey offer ∉ held filing.seen ∧
      (classifyOffer context filing offer).seen = filing.seen ++ [offerKey offer] ∧
      (classifyOffer context filing offer).admitted =
        filing.admitted ++ [⟨offer, offerKey offer, !offerVenueOk context.venue offer⟩] := by
  unfold classifyOffer
  rw [← seen_iff]
  split
  · exact .inl rfl
  rename_i formed
  split
  · exact .inl rfl
  rename_i unexpired
  split
  · exact .inl rfl
  rename_i unseen
  have formed : offerWellFormed offer := by simpa using formed
  have unexpired : context.nowSec < offerExpirySec offer := by omega
  split
  · rename_i foreign
    split
    · exact .inl rfl
    · refine .inr ⟨formed, unexpired, unseen, rfl, ?_⟩
      simp [foreign]
  · rename_i canonical
    split
    · exact .inl rfl
    · refine .inr ⟨formed, unexpired, unseen, rfl, ?_⟩
      simp [canonical]

theorem Filing.Sound.turn {context : FilterContext} {batch : List Offer}
    {filing : Filing} (sound : filing.Sound context batch) {offer : Offer}
    (fetched : offer ∈ batch) : (classifyOffer context filing offer).Sound context batch := by
  obtain unchanged | ⟨formed, unexpired, unseen, seen, grown⟩ :=
    classifyOffer_cases context filing offer
  · rw [unchanged]
    exact sound
  · rw [sound.seen, held_append, List.mem_append, not_or] at unseen
    constructor
    · rw [seen, grown, sound.seen]
      simp
    · intro admission among
      rw [grown] at among
      rcases List.mem_append.mp among with earlier | last
      · exact sound.fresh admission earlier
      · obtain rfl := List.mem_singleton.mp last
        exact unseen.1
    · rw [grown, List.map_append, held_append, List.nodup_append]
      refine ⟨sound.distinct, (List.nodup_singleton _).sublist List.filter_sublist, ?_⟩
      intro earlier among last same
      obtain rfl := List.mem_singleton.mp (mem_held.mp same).1
      rintro rfl
      exact unseen.2 among
    · intro admission among
      rw [grown] at among
      rcases List.mem_append.mp among with earlier | last
      · exact sound.checked admission earlier
      · obtain rfl := List.mem_singleton.mp last
        exact ⟨fetched, formed, unexpired, rfl, rfl⟩

theorem Filing.Sound.turns {context : FilterContext} {batch : List Offer} {rest : List Offer}
    (among : rest ⊆ batch) {filing : Filing} (sound : filing.Sound context batch) :
    (rest.foldl (classifyOffer context) filing).Sound context batch := by
  induction rest generalizing filing with
  | nil => exact sound
  | cons offer rest ih =>
      have later : rest ⊆ batch := fun _ member => among (List.mem_cons_of_mem _ member)
      exact ih later (sound.turn (among List.mem_cons_self))

/-- The loop has admitted nothing when it starts. -/
theorem Filing.Sound.start (context : FilterContext) (batch : List Offer) :
    Filing.Sound context batch
      ⟨context.existingKeys, context.ghostCount, context.honestCount, []⟩ :=
  ⟨by simp, by simp, by simp [held], by simp⟩

/-- What `classifyOffers` admits. -/
theorem classifyOffers_sound (offers : List Offer) (context : FilterContext) :
    (∀ admission ∈ classifyOffers offers context,
        admission.key ∉ held context.existingKeys) ∧
      (held ((classifyOffers offers context).map (·.key))).Nodup ∧
      ∀ admission ∈ classifyOffers offers context, admission.offer ∈ offers ∧
        offerWellFormed admission.offer ∧ context.nowSec < offerExpirySec admission.offer ∧
        admission.key = offerKey admission.offer ∧
        admission.blocked = !offerVenueOk context.venue admission.offer := by
  have done := (Filing.Sound.start context offers).turns (List.Subset.refl offers)
  exact ⟨done.fresh, done.distinct, done.checked⟩

/-- The turn of an honest offer. -/
theorem classifyOffer_canonical {context : FilterContext} {offer : Offer} (filing : Filing)
    (canonical : offerVenueOk context.venue offer = true) :
    classifyOffer context filing offer =
      if offerWellFormed offer ∧ context.nowSec < offerExpirySec offer ∧
          offerKey offer ∉ held filing.seen ∧ filing.honest < maxOffers then
        ⟨filing.seen ++ [offerKey offer], filing.ghosts, filing.honest + 1,
          filing.admitted ++ [⟨offer, offerKey offer, false⟩]⟩
      else filing := by
  simp only [classifyOffer, seen_iff]
  split_ifs <;> simp_all <;> omega

/-- The turn of a ghost. -/
theorem classifyOffer_foreign {context : FilterContext} {offer : Offer} (filing : Filing)
    (foreign : offerVenueOk context.venue offer = false) :
    classifyOffer context filing offer =
      if offerWellFormed offer ∧ context.nowSec < offerExpirySec offer ∧
          offerKey offer ∉ held filing.seen ∧ filing.ghosts < maxGhostRows then
        ⟨filing.seen ++ [offerKey offer], filing.ghosts + 1, filing.honest,
          filing.admitted ++ [⟨offer, offerKey offer, true⟩]⟩
      else filing := by
  simp only [classifyOffer, seen_iff]
  split_ifs <;> simp_all <;> omega

/-- The admissions that are not blocked. -/
def honestOf (admissions : List Admission) : List Admission := admissions.filter (!·.blocked)

/-- The counts of the loop are true, and it admits nobody above a cap. -/
structure Filing.Counted (context : FilterContext) (filing : Filing) : Prop where
  ghosts : filing.ghosts = context.ghostCount + filing.admitted.countP (·.blocked)
  honest : filing.honest = context.honestCount + (honestOf filing.admitted).length
  ghosts_le : context.ghostCount ≤ maxGhostRows → filing.ghosts ≤ maxGhostRows
  honest_le : honestOf filing.admitted = [] ∨ filing.honest ≤ maxOffers

theorem Filing.Counted.turn {context : FilterContext} {filing : Filing}
    (counted : filing.Counted context) (offer : Offer) :
    (classifyOffer context filing offer).Counted context := by
  cases canonical : offerVenueOk context.venue offer with
  | false =>
      rw [classifyOffer_foreign filing canonical]
      split
      · rename_i taken
        constructor
        · simp [counted.ghosts, add_assoc]
        · simpa [honestOf] using counted.honest
        · exact fun _ => taken.2.2.2
        · simpa [honestOf] using counted.honest_le
      · exact counted
  | true =>
      rw [classifyOffer_canonical filing canonical]
      split
      · rename_i taken
        constructor
        · simpa using counted.ghosts
        · simp [honestOf, counted.honest, add_assoc]
        · exact counted.ghosts_le
        · exact .inr taken.2.2.2
      · exact counted

/-- A batch pushes neither kind of row over its cap. -/
theorem classifyOffers_counted (offers : List Offer) (context : FilterContext) :
    (context.ghostCount ≤ maxGhostRows →
      context.ghostCount + (classifyOffers offers context).countP (·.blocked) ≤ maxGhostRows) ∧
      (honestOf (classifyOffers offers context) = [] ∨
        context.honestCount + (honestOf (classifyOffers offers context)).length ≤ maxOffers) := by
  have turns : ∀ (rest : List Offer) (filing : Filing), filing.Counted context →
      (rest.foldl (classifyOffer context) filing).Counted context := by
    intro rest
    induction rest with
    | nil => exact fun _ counted => counted
    | cons offer rest ih => exact fun filing counted => ih _ (counted.turn offer)
  have done := turns offers ⟨context.existingKeys, context.ghostCount, context.honestCount, []⟩
    ⟨rfl, rfl, id, .inl rfl⟩
  exact ⟨fun capped => done.ghosts ▸ done.ghosts_le capped,
    done.honest_le.imp_right fun capped => done.honest ▸ capped⟩

/-! ## Rows and their keys -/

/-- The keys of the rows. -/
abbrev keys (rows : List Row) : List JsValue := rows.map (·.key)

/-- A row is inserted with its key, or with one that is never found. -/
theorem held_kept (keyRole : Option RoleType) (key : JsValue) :
    (held [kept keyRole key]).Sublist (held [key]) := by
  unfold kept
  split
  · exact .refl _
  · exact List.nil_sublist _

/-- `String` throws for neither of the unchecked fields. -/
def Admission.printable (admission : Admission) : Bool :=
  admission.offer.hashlock.textOrEmpty?.isSome &&
    admission.offer.makerLezAccount.textOrEmpty?.isSome

theorem Row.ofAdmission?_cases (keyRole : Option RoleType) (admission : Admission) :
    admission.printable = false ∧ Row.ofAdmission? keyRole admission = none ∨
      admission.printable = true ∧ ∃ hashlock makerLez, ∀ keyRole,
        Row.ofAdmission? keyRole admission =
          some (.ofTexts admission (kept keyRole admission.key) hashlock makerLez) := by
  unfold Admission.printable Row.ofAdmission?
  cases admission.offer.hashlock.textOrEmpty? with
  | none => simp
  | some hashlock =>
      cases admission.offer.makerLezAccount.textOrEmpty? with
      | none => simp
      | some makerLez => exact .inr ⟨rfl, hashlock, makerLez, fun _ => rfl⟩

/-- The rows that are not blocked. -/
def honestRows (rows : List Row) : List Row := rows.filter (!·.blocked)

/-- The rows that admissions become, in order, until one throws. -/
def inserted : Option RoleType → List Admission → List Row
  | _, [] => []
  | keyRole, admission :: rest =>
      match Row.ofAdmission? keyRole admission with
      | none => []
      | some row => row :: inserted (roleAfter keyRole admission.key) rest

/-- The type of the key once they are inserted. -/
def roleOf : Option RoleType → List Admission → Option RoleType
  | keyRole, [] => keyRole
  | keyRole, admission :: rest =>
      if admission.printable then roleOf (roleAfter keyRole admission.key) rest else keyRole

theorem honest_length (rows : List Row) :
    rows.length - ghostRowCount rows = (honestRows rows).length := by
  have both := List.length_eq_countP_add_countP (fun row : Row => row.blocked) (l := rows)
  have honest : (honestRows rows).length = rows.countP fun row => decide ¬ row.blocked = true := by
    rw [honestRows, ← List.countP_eq_length_filter]
    congr 1
    funext row
    cases row.blocked <;> rfl
  rw [ghostRowCount, honest]
  omega

/-- With room for the honest ones nothing is evicted, and the admissions become rows as they are. -/
theorem placeRows_of_room {admissions : List Admission} {model : OffersModel}
    (room : honestOf admissions = [] ∨
      (honestRows model.rows).length + (honestOf admissions).length ≤ maxOffers) :
    placeRows model admissions = (inserted model.keyRole admissions,
      ⟨(inserted model.keyRole admissions).reverse ++ model.rows,
        roleOf model.keyRole admissions⟩) := by
  induction admissions generalizing model with
  | nil => rfl
  | cons admission rest ih =>
      have stays : (!admission.blocked &&
          decide (maxOffers ≤ model.rows.length - ghostRowCount model.rows)) = false := by
        rw [honest_length]
        cases blocked : admission.blocked with
        | true => rfl
        | false =>
            simp only [honestOf, blocked, Bool.not_false, List.filter_cons_of_pos, reduceCtorEq,
              List.length_cons, false_or] at room
            simp only [Bool.not_false, Bool.true_and, decide_eq_false_iff_not]
            omega
      rcases Row.ofAdmission?_cases model.keyRole admission with
        ⟨throws, none⟩ | ⟨prints, hashlock, makerLez, made⟩
      · simp [placeRows, placeRow, stays, none, inserted, roleOf, throws]
      · have later : honestOf rest = [] ∨ (honestRows
            (Row.ofTexts admission (kept model.keyRole admission.key) hashlock makerLez ::
              model.rows)).length + (honestOf rest).length ≤ maxOffers := by
          cases blocked : admission.blocked <;>
            simp [honestOf, honestRows, Row.ofTexts, blocked] at room ⊢ <;> grind
        have next := @ih ⟨_ :: model.rows, roleAfter model.keyRole admission.key⟩ later
        simp [placeRows, placeRow, stays, made, inserted, roleOf, prints, next]

theorem held_inserted (keyRole : Option RoleType) (admissions : List Admission) :
    (held (keys (inserted keyRole admissions))).Sublist (held (admissions.map (·.key))) := by
  induction admissions generalizing keyRole with
  | nil => exact .refl _
  | cons admission rest ih =>
      rcases Row.ofAdmission?_cases keyRole admission with ⟨-, none⟩ | ⟨-, hashlock, makerLez, made⟩
      · simp [inserted, none, held]
      · have both := (held_kept keyRole admission.key).append (ih (roleAfter keyRole admission.key))
        simpa [inserted, made, Row.ofTexts, ← held_append] using both

/-- What `mergeOffers` does: it never finds a row to evict. -/
theorem mergeOffers_eq (nowSec : Int) (venue : Venue) (offers : List Offer) (model : OffersModel) :
    mergeOffers nowSec venue offers model =
      (inserted model.keyRole (classifyOffers offers (filterContext nowSec venue model.rows)),
        ⟨(inserted model.keyRole
            (classifyOffers offers (filterContext nowSec venue model.rows))).reverse ++ model.rows,
          roleOf model.keyRole
            (classifyOffers offers (filterContext nowSec venue model.rows))⟩) := by
  apply placeRows_of_room
  rw [← honest_length]
  exact (classifyOffers_counted offers (filterContext nowSec venue model.rows)).2

/-- The board: no two of its rows have the same key, if it is found again. -/
structure Board extends OffersModel where
  distinct : (held (keys rows)).Nodup

namespace Board

/-- The board before anything is fetched. -/
def empty : Board := ⟨⟨[], none⟩, List.nodup_nil⟩

/-- What a merge leaves has distinct keys. -/
theorem mergeOffers_distinct (board : Board) (nowSec : Int) (venue : Venue) (offers : List Offer) :
    (held (keys (mergeOffers nowSec venue offers board.toOffersModel).2.rows)).Nodup := by
  obtain ⟨fresh, apart, -⟩ :=
    classifyOffers_sound offers (filterContext nowSec venue board.rows)
  rw [mergeOffers_eq]
  set admissions := classifyOffers offers (filterContext nowSec venue board.rows)
  have fewer := held_inserted board.keyRole admissions
  simp only [keys, List.map_append, List.map_reverse, held_append, List.nodup_append]
  refine ⟨?_, board.distinct, ?_⟩
  · rw [held, List.filter_reverse, List.nodup_reverse]
    exact apart.sublist fewer
  · intro key inNew other stood
    rintro rfl
    rw [held, List.filter_reverse, List.mem_reverse] at inNew
    obtain ⟨among, findable⟩ := mem_held.mp (fewer.subset inNew)
    obtain ⟨admission, admitted, rfl⟩ := List.mem_map.mp among
    exact fresh admission admitted stood

/-- `mergeOffers` on the board. -/
def merge (board : Board) (nowSec : Int) (venue : Venue) (offers : List Offer) : Board :=
  ⟨(mergeOffers nowSec venue offers board.toOffersModel).2,
    board.mergeOffers_distinct nowSec venue offers⟩

theorem merge_model (board : Board) (nowSec : Int) (venue : Venue) (offers : List Offer) :
    (board.merge nowSec venue offers).toOffersModel =
      ⟨(inserted board.keyRole
          (classifyOffers offers (filterContext nowSec venue board.rows))).reverse ++ board.rows,
        roleOf board.keyRole (classifyOffers offers (filterContext nowSec venue board.rows))⟩ :=
  congrArg Prod.snd (mergeOffers_eq nowSec venue offers board.toOffersModel)

/-- `sweep` on the board. -/
def sweep (board : Board) (nowSec : Int) : Board :=
  ⟨⟨Ui.sweep nowSec board.rows, board.keyRole⟩,
    board.distinct.sublist (held_sublist (List.filter_sublist.map _))⟩

end Board

end AtomicSwaps.Ui
