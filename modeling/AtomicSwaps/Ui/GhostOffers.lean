import AtomicSwaps.Ui.OfferBoard

/-!
# Ghosts beside honest offers

Offers of a foreign venue become blocked rows, the ghosts. Ghosts have a cap of their own, but
share three things with honest offers: the keys of `classifyOffers`, where an offer under the key
of a ghost is dropped as a duplicate; the loop of `mergeOffers`, which ends where an offer throws;
and the type of the `key` role, which the first row gives. A board fed with ghosts is compared
here with the board that is fed the same batches without them.
-/

namespace AtomicSwaps.Ui

/-- The keys that ghosts hold: on the board, or admitted by the loop. -/
def ghostKeys (rows : List Row) (filing : Filing) : List JsValue :=
  keys (rows.filter (·.blocked)) ++ (filing.admitted.filter (·.blocked)).map (·.key)

/-- A turn of the loop finds the key of an honest offer taken by a ghost, with room left for
the offer. -/
def Suppressed (context : FilterContext) (rows : List Row) (filing : Filing) (offer : Offer) :
    Prop :=
  offerWellFormed offer ∧ context.nowSec < offerExpirySec offer ∧
    offerVenueOk context.venue offer ∧ filing.honest < maxOffers ∧
    offerKey offer ∈ held (ghostKeys rows filing)

/-- No turn of the loop does. -/
def Unsuppressed (context : FilterContext) (rows : List Row) : Filing → List Offer → Prop
  | _, [] => True
  | filing, offer :: rest =>
      ¬ Suppressed context rows filing offer ∧
        Unsuppressed context rows (classifyOffer context filing offer) rest

/-- The first admission that throws is a ghost, and the next honest one would not. -/
def Interrupted : List Admission → Prop
  | [] => False
  | admission :: rest =>
      if admission.printable then Interrupted rest
      else admission.blocked ∧ ∃ next ∈ (honestOf rest).head?, next.printable

/-- The first honest row finds the type of the `key` role free, or that of its own key. -/
def WellTyped : Option RoleType → List Admission → Prop
  | _, [] => True
  | keyRole, admission :: rest =>
      admission.printable →
        if admission.blocked then WellTyped (roleAfter keyRole admission.key) rest
        else keyRole = none ∨ keyRole = admission.key.roleType

instance (context : FilterContext) (rows : List Row) (filing : Filing) (offer : Offer) :
    Decidable (Suppressed context rows filing offer) :=
  inferInstanceAs (Decidable (_ ∧ _))

instance decidableUnsuppressed (context : FilterContext) (rows : List Row) :
    ∀ (filing : Filing) (offers : List Offer), Decidable (Unsuppressed context rows filing offers)
  | _, [] => .isTrue trivial
  | filing, offer :: rest =>
      have := decidableUnsuppressed context rows (classifyOffer context filing offer) rest
      inferInstanceAs (Decidable (_ ∧ _))

instance decidableInterrupted : ∀ admissions, Decidable (Interrupted admissions)
  | [] => .isFalse id
  | admission :: rest =>
      have := decidableInterrupted rest
      inferInstanceAs (Decidable (if admission.printable then _ else _ ∧ _))

instance decidableWellTyped :
    ∀ (keyRole : Option RoleType) (admissions : List Admission), Decidable (WellTyped keyRole admissions)
  | _, [] => .isTrue trivial
  | keyRole, admission :: rest =>
      have := decidableWellTyped (roleAfter keyRole admission.key) rest
      inferInstanceAs (Decidable (_ → if admission.blocked then _ else _ ∨ _))

/-! ## The first of several admissions -/

section First

variable {admission : Admission} {rest : List Admission} {keyRole : Option RoleType}

theorem honestOf_ghost (blocked : admission.blocked = true) :
    honestOf (admission :: rest) = honestOf rest := by
  simp [honestOf, blocked]

theorem honestOf_honest (honest : admission.blocked = false) :
    honestOf (admission :: rest) = admission :: honestOf rest := by
  simp [honestOf, honest]

theorem interrupted_printed (prints : admission.printable = true) :
    Interrupted (admission :: rest) ↔ Interrupted rest := by
  simp only [Interrupted, prints, if_true]

theorem interrupted_thrown (throws : admission.printable = false) :
    Interrupted (admission :: rest) ↔
      admission.blocked ∧ ∃ next ∈ (honestOf rest).head?, next.printable := by
  simp only [Interrupted, throws, Bool.false_eq_true, if_false]

theorem wellTyped_thrown (throws : admission.printable = false) :
    WellTyped keyRole (admission :: rest) := by
  simp [WellTyped, throws]

theorem wellTyped_ghost (prints : admission.printable = true) (blocked : admission.blocked = true) :
    WellTyped keyRole (admission :: rest) ↔
      WellTyped (roleAfter keyRole admission.key) rest := by
  simp only [WellTyped, prints, blocked, if_true, true_implies]

theorem wellTyped_honest (prints : admission.printable = true)
    (honest : admission.blocked = false) :
    WellTyped keyRole (admission :: rest) ↔
      keyRole = none ∨ keyRole = admission.key.roleType := by
  simp only [WellTyped, prints, honest, Bool.false_eq_true, if_false, true_implies]

end First

/-! ## One turn -/

/-- The loop with ghosts and the loop without them, as long as they admit the same honest
offers. -/
structure Shadows (rows : List Row) (filing honest : Filing) : Prop where
  seen : ∀ key, key ∈ held filing.seen ↔
    key ∈ held honest.seen ∨ key ∈ held (ghostKeys rows filing)
  apart : ∀ key ∈ held (ghostKeys rows filing), key ∉ held honest.seen
  count : filing.honest = honest.honest
  admitted : honestOf filing.admitted = honest.admitted

namespace Shadows

variable {context : FilterContext} {rows : List Row} {filing honest : Filing} {offer : Offer}

/-- A ghost is no offer of the other loop. -/
theorem foreign (shadows : Shadows rows filing honest)
    (foreign : offerVenueOk context.venue offer = false) :
    Shadows rows (classifyOffer context filing offer) honest := by
  rw [classifyOffer_foreign filing foreign]
  split
  · rename_i taken
    obtain ⟨-, -, unseen, -⟩ := taken
    have keysOf : ghostKeys rows ⟨filing.seen ++ [offerKey offer], filing.ghosts + 1,
        filing.honest, filing.admitted ++ [⟨offer, offerKey offer, true⟩]⟩ =
        ghostKeys rows filing ++ [offerKey offer] := by
      simp [ghostKeys]
    constructor
    · intro key
      rw [keysOf, held_append, held_append, List.mem_append, List.mem_append, shadows.seen,
        or_assoc]
    · intro key taken
      rw [keysOf, held_append, List.mem_append] at taken
      rcases taken with taken | last
      · exact shadows.apart key taken
      · obtain rfl := List.mem_singleton.mp (mem_held.mp last).1
        exact fun stood => unseen ((shadows.seen _).mpr (.inl stood))
    · exact shadows.count
    · simpa [honestOf] using shadows.admitted
  · exact shadows

/-- An honest offer is one of both, and has the same turn in both unless a ghost has its
key. -/
theorem canonical (shadows : Shadows rows filing honest)
    (canonical : offerVenueOk context.venue offer = true)
    (clear : ¬ Suppressed context rows filing offer) :
    Shadows rows (classifyOffer context filing offer) (classifyOffer context honest offer) := by
  rw [classifyOffer_canonical filing canonical, classifyOffer_canonical honest canonical]
  by_cases due : offerWellFormed offer ∧ context.nowSec < offerExpirySec offer ∧
      filing.honest < maxOffers
  · obtain ⟨formed, unexpired, room⟩ := due
    have unheld : offerKey offer ∉ held (ghostKeys rows filing) := fun taken =>
      clear ⟨formed, unexpired, canonical, room, taken⟩
    have both : offerKey offer ∈ held filing.seen ↔ offerKey offer ∈ held honest.seen := by
      rw [shadows.seen]
      exact or_iff_left unheld
    by_cases stood : offerKey offer ∈ held filing.seen
    · rw [if_neg (fun free => free.2.2.1 stood), if_neg (fun free => free.2.2.1 (both.mp stood))]
      exact shadows
    · rw [if_pos ⟨formed, unexpired, stood, room⟩,
        if_pos ⟨formed, unexpired, fun known => stood (both.mpr known), shadows.count ▸ room⟩]
      have keysOf : ghostKeys rows ⟨filing.seen ++ [offerKey offer], filing.ghosts,
          filing.honest + 1, filing.admitted ++ [⟨offer, offerKey offer, false⟩]⟩ =
          ghostKeys rows filing := by
        simp [ghostKeys]
      constructor
      · intro key
        rw [keysOf, held_append, held_append, List.mem_append, List.mem_append, shadows.seen]
        tauto
      · rw [keysOf]
        intro key taken among
        rw [held_append, List.mem_append] at among
        rcases among with earlier | last
        · exact shadows.apart key taken earlier
        · obtain rfl := List.mem_singleton.mp (mem_held.mp last).1
          exact unheld taken
      · exact congrArg (· + 1) shadows.count
      · have earlier := shadows.admitted
        simp only [honestOf] at earlier
        simp [honestOf, earlier]
  · rw [if_neg (fun free => due ⟨free.1, free.2.1, free.2.2.2⟩),
      if_neg (fun free => due ⟨free.1, free.2.1, shadows.count ▸ free.2.2.2⟩)]
    exact shadows

/-- The two loops admit the same honest offers while no offer is suppressed. -/
theorem foldl (shadows : Shadows rows filing honest) {offers : List Offer}
    (clear : Unsuppressed context rows filing offers) :
    Shadows rows (offers.foldl (classifyOffer context) filing)
      ((offers.filter (offerVenueOk context.venue)).foldl (classifyOffer context) honest) := by
  induction offers generalizing filing honest with
  | nil => exact shadows
  | cons offer rest ih =>
      obtain ⟨turn, clear⟩ := clear
      cases canonical : offerVenueOk context.venue offer with
      | false =>
          rw [List.filter_cons_of_neg (by simp [canonical])]
          exact ih (shadows.foreign canonical) clear
      | true =>
          rw [List.filter_cons_of_pos canonical]
          exact ih (shadows.canonical canonical turn) clear

end Shadows

/-- What the loop has admitted stays admitted. -/
theorem admitted_foldl (context : FilterContext) (offers : List Offer) (filing : Filing) :
    filing.admitted ⊆ (offers.foldl (classifyOffer context) filing).admitted := by
  induction offers generalizing filing with
  | nil => exact List.Subset.refl _
  | cons offer rest ih =>
      refine List.Subset.trans ?_ (ih (classifyOffer context filing offer))
      obtain unchanged | ⟨-, -, -, -, grown⟩ := classifyOffer_cases context filing offer
      · rw [unchanged]
        exact List.Subset.refl _
      · rw [grown]
        exact List.subset_append_left _ _

section Converse

variable {context : FilterContext} {rows : List Row} {batch : List Offer}
  {filing honest : Filing} {offer : Offer}

/-- Two admissions with one key that is found again are one. -/
theorem Filing.Sound.unique (sound : filing.Sound context batch) {admission other : Admission}
    (admitted : admission ∈ filing.admitted) (alsoAdmitted : other ∈ filing.admitted)
    (same : admission.key = other.key) (findable : other.key.findable = true) :
    admission = other := by
  have distinct := sound.distinct
  rw [held, List.filter_map] at distinct
  exact List.inj_on_of_nodup_map distinct (List.mem_filter.mpr ⟨admitted, by simpa [same] using findable⟩)
    (List.mem_filter.mpr ⟨alsoAdmitted, findable⟩) same

/-- A suppressed offer is admitted by the loop without ghosts, and by the other one never. -/
theorem suppressed_lost (shadows : Shadows rows filing honest)
    (boarded : context.existingKeys = keys rows) (sound : filing.Sound context batch)
    (suppressed : Suppressed context rows filing offer) {rest : List Offer} (among : rest ⊆ batch) :
    ⟨offer, offerKey offer, false⟩ ∈ (classifyOffer context honest offer).admitted ∧
      ⟨offer, offerKey offer, false⟩ ∉ (rest.foldl (classifyOffer context) filing).admitted := by
  obtain ⟨formed, unexpired, canonical, room, taken⟩ := suppressed
  constructor
  · rw [classifyOffer_canonical honest canonical,
      if_pos ⟨formed, unexpired, shadows.apart _ taken, shadows.count ▸ room⟩]
    simp
  · intro later
    have done := sound.turns among
    obtain ⟨taken, findable⟩ := mem_held.mp taken
    rcases List.mem_append.mp taken with row | ghost
    · apply done.fresh _ later
      rw [boarded, mem_held]
      exact ⟨(List.filter_sublist.map _).subset row, findable⟩
    · obtain ⟨other, filed, same⟩ := List.mem_map.mp ghost
      obtain ⟨filed, blocked⟩ := List.mem_filter.mp filed
      have one := done.unique (admitted_foldl context rest filing filed) later same findable
      rw [one] at blocked
      cases blocked

/-- If the two loops admit the same honest offers, none was suppressed. -/
theorem unsuppressed_of_agree {offers : List Offer} (shadows : Shadows rows filing honest)
    (boarded : context.existingKeys = keys rows) (sound : filing.Sound context batch)
    (among : offers ⊆ batch)
    (agree : honestOf (offers.foldl (classifyOffer context) filing).admitted =
      ((offers.filter (offerVenueOk context.venue)).foldl (classifyOffer context)
        honest).admitted) :
    Unsuppressed context rows filing offers := by
  induction offers generalizing filing honest with
  | nil => trivial
  | cons offer rest ih =>
      have restAmong : rest ⊆ batch := fun _ later => among (List.mem_cons_of_mem _ later)
      have sound' := sound.turn (among List.mem_cons_self)
      cases canonical : offerVenueOk context.venue offer with
      | false =>
          rw [List.filter_cons_of_neg (by simp [canonical])] at agree
          refine ⟨fun suppressed => ?_, ih (shadows.foreign canonical) sound' restAmong agree⟩
          exact absurd suppressed.2.2.1 (by simp [canonical])
      | true =>
          rw [List.filter_cons_of_pos canonical] at agree
          by_cases suppressed : Suppressed context rows filing offer
          · obtain ⟨admitted, lost⟩ := suppressed_lost shadows boarded sound suppressed among
            have kept := admitted_foldl context (rest.filter (offerVenueOk context.venue)) _ admitted
            rw [← List.foldl_cons, ← agree] at kept
            exact absurd (List.mem_of_mem_filter kept) lost
          · exact ⟨suppressed, ih (shadows.canonical canonical suppressed) sound' restAmong agree⟩

end Converse

/-! ## One batch -/

/-- The loop at its start. -/
def startOf (context : FilterContext) : Filing :=
  ⟨context.existingKeys, context.ghostCount, context.honestCount, []⟩

@[simp] theorem ghostRowCount_honestRows (rows : List Row) : ghostRowCount (honestRows rows) = 0 := by
  simp [ghostRowCount, honestRows, List.countP_eq_zero]

/-- Rows with the same key are the same row, if the key is found again. -/
theorem Board.row_unique (board : Board) {row other : Row} (stands : row ∈ board.rows)
    (alsoStands : other ∈ board.rows) (same : row.key = other.key)
    (findable : other.key.findable = true) : row = other := by
  have distinct := board.distinct
  rw [held, keys, List.filter_map] at distinct
  exact List.inj_on_of_nodup_map distinct (List.mem_filter.mpr ⟨stands, by simpa [same] using findable⟩)
    (List.mem_filter.mpr ⟨alsoStands, findable⟩) same

/-- The loops over a board and over its honest rows. -/
theorem shadows_start (board : Board) (nowSec : Int) (venue : Venue) :
    Shadows board.rows (startOf (filterContext nowSec venue board.rows))
      (startOf (filterContext nowSec venue (honestRows board.rows))) := by
  have ghosts : ghostKeys board.rows (startOf (filterContext nowSec venue board.rows)) =
      keys (board.rows.filter (·.blocked)) := by
    simp [ghostKeys, startOf]
  constructor
  · intro key
    rw [ghosts]
    simp only [startOf, filterContext, honestRows, mem_held, List.mem_map, List.mem_filter]
    constructor
    · rintro ⟨⟨row, stands, rfl⟩, findable⟩
      cases blocked : row.blocked with
      | false => exact .inl ⟨⟨row, ⟨stands, by simp [blocked]⟩, rfl⟩, findable⟩
      | true => exact .inr ⟨⟨row, ⟨stands, blocked⟩, rfl⟩, findable⟩
    · rintro (⟨⟨row, ⟨stands, -⟩, rfl⟩, findable⟩ | ⟨⟨row, ⟨stands, -⟩, rfl⟩, findable⟩) <;>
        exact ⟨⟨row, stands, rfl⟩, findable⟩
  · intro key taken stood
    rw [ghosts] at taken
    obtain ⟨taken, findable⟩ := mem_held.mp taken
    obtain ⟨ghost, among, rfl⟩ := List.mem_map.mp taken
    obtain ⟨row, stands, same⟩ := List.mem_map.mp (mem_held.mp stood).1
    obtain ⟨among, blocked⟩ := List.mem_filter.mp among
    obtain ⟨stands, honest⟩ := List.mem_filter.mp stands
    obtain rfl := board.row_unique stands among same findable
    simp [blocked] at honest
  · simp [startOf, filterContext, honest_length]
  · rfl

/-- The batch admits the same honest offers as without its ghosts, on the board without
ghosts, if and only if none is suppressed. -/
theorem classifyOffers_honest_iff (board : Board) (nowSec : Int) (venue : Venue)
    (offers : List Offer) :
    honestOf (classifyOffers offers (filterContext nowSec venue board.rows)) =
        classifyOffers (offers.filter (offerVenueOk venue))
          (filterContext nowSec venue (honestRows board.rows)) ↔
      Unsuppressed (filterContext nowSec venue board.rows) board.rows
        (startOf (filterContext nowSec venue board.rows)) offers := by
  have shadows := shadows_start board nowSec venue
  constructor
  · exact fun agree => unsuppressed_of_agree shadows rfl (Filing.Sound.start _ offers)
      (List.Subset.refl offers) agree
  · exact fun clear => (shadows.foldl clear).admitted

/-! ## The rows of a batch -/

theorem roleAfter_some {keyRole : Option RoleType} {type : RoleType} (key : JsValue)
    (set : keyRole = some type) : roleAfter keyRole key = some type := by
  rw [set]
  rfl

theorem roleType_of_truthy {key : JsValue} (some : key.truthy = true) :
    ∃ type, key.roleType = Option.some type := by
  cases key <;> first | exact ⟨_, rfl⟩ | exact absurd some (by decide)

/-- A key is kept where the role is free, or has its type. -/
theorem kept_iff {keyRole : Option RoleType} {key : JsValue} (some : key.truthy = true) :
    kept keyRole key = key ↔ keyRole = none ∨ keyRole = key.roleType := by
  obtain ⟨type, typed⟩ := roleType_of_truthy some
  have defined : JsValue.undefined ≠ key := by
    rintro rfl
    cases some
  unfold kept roleAfter
  cases keyRole with
  | none => simp
  | some own =>
      simp only [reduceCtorEq, false_or]
      split <;> simp_all

theorem inserted_eq_nil_iff {keyRole : Option RoleType} {admissions : List Admission} :
    inserted keyRole admissions = [] ↔ ¬ ∃ next ∈ admissions.head?, next.printable := by
  cases admissions with
  | nil => simp [inserted]
  | cons admission rest =>
      rcases Row.ofAdmission?_cases keyRole admission with ⟨throws, none⟩ | ⟨prints, _, _, made⟩
      · simp [inserted, none, throws]
      · simp [inserted, made, prints]

theorem inserted_of_made {keyRole : Option RoleType} {admission : Admission} {row : Row}
    (rest : List Admission) (made : Row.ofAdmission? keyRole admission = some row) :
    inserted keyRole (admission :: rest) = row :: inserted (roleAfter keyRole admission.key) rest := by
  simp only [inserted, made]

theorem Row.ofTexts_inj {admission : Admission} {key other : JsValue} {hashlock makerLez : String} :
    Row.ofTexts admission key hashlock makerLez = .ofTexts admission other hashlock makerLez ↔
      key = other :=
  ⟨congrArg Row.key, fun same => same ▸ rfl⟩

/-- The honest rows of a batch are those of its honest admissions exactly if no ghost ends the
loop before one of them, or gives the role another type than the first of them. -/
theorem honestRows_inserted_iff {admissions : List Admission} {keyRole honestRole : Option RoleType}
    (keyed : ∀ admission ∈ admissions, admission.key.truthy = true)
    (fits : honestRole = none ∨ keyRole = honestRole) :
    honestRows (inserted keyRole admissions) = inserted honestRole (honestOf admissions) ↔
      ¬ Interrupted admissions ∧ (honestRole = none → WellTyped keyRole admissions) := by
  induction admissions generalizing keyRole honestRole with
  | nil => simp [inserted, honestOf, honestRows, Interrupted, WellTyped]
  | cons admission rest ih =>
      obtain ⟨here, later⟩ := List.forall_mem_cons.mp keyed
      obtain ⟨type, typed⟩ := roleType_of_truthy here
      rcases Row.ofAdmission?_cases keyRole admission with
        ⟨throws, none⟩ | ⟨prints, hashlock, makerLez, made⟩
      · rw [interrupted_thrown throws]
        simp only [wellTyped_thrown throws, implies_true, and_true]
        have nothing : inserted keyRole (admission :: rest) = [] := by
          simp [inserted, none]
        rw [nothing, show honestRows [] = [] from rfl, eq_comm, inserted_eq_nil_iff]
        cases blocked : admission.blocked with
        | false => simp [honestOf_honest blocked, throws]
        | true => simp [honestOf_ghost blocked]
      · have shown := inserted_of_made rest (made keyRole)
        rw [interrupted_printed prints]
        cases blocked : admission.blocked with
        | true =>
            have fits' : honestRole = .none ∨ roleAfter keyRole admission.key = honestRole := by
              rcases fits with free | same
              · exact .inl free
              · cases honestRole with
                | none => exact .inl rfl
                | some own => exact .inr (roleAfter_some admission.key same)
            rw [shown, honestOf_ghost blocked, wellTyped_ghost prints blocked, ← ih later fits',
              honestRows, honestRows, List.filter_cons_of_neg (by simp [Row.ofTexts, blocked])]
        | false =>
            have rows : honestRows (inserted keyRole (admission :: rest)) =
                .ofTexts admission (kept keyRole admission.key) hashlock makerLez ::
                  honestRows (inserted (roleAfter keyRole admission.key) rest) := by
              rw [shown, honestRows, List.filter_cons_of_pos (by simp [Row.ofTexts, blocked])]
              rfl
            rw [rows, honestOf_honest blocked, inserted_of_made (honestOf rest) (made honestRole),
              wellTyped_honest prints blocked, List.cons.injEq, Row.ofTexts_inj]
            cases honestRole with
            | none =>
                rw [(kept_iff here).mpr (.inl rfl), kept_iff here]
                simp only [true_implies]
                rw [and_comm]
                refine and_congr_left fun own => ?_
                have same : roleAfter keyRole admission.key = roleAfter none admission.key := by
                  rcases own with rfl | rfl <;> simp [roleAfter, typed]
                have rows := ih later (.inr same)
                simpa [roleAfter, typed] using rows
            | some own =>
                obtain rfl : keyRole = Option.some own := by simpa using fits
                have rows := ih later (.inr (rfl : roleAfter (Option.some own) admission.key = _))
                simpa [roleAfter] using rows

theorem roleOf_some {keyRole : Option RoleType} {type : RoleType} (set : keyRole = some type)
    (admissions : List Admission) : roleOf keyRole admissions = some type := by
  induction admissions generalizing keyRole with
  | nil => exact set
  | cons admission rest ih =>
      rw [roleOf]
      split
      · exact ih (roleAfter_some admission.key set)
      · exact set

/-- The type of the role stays that of the honest rows, once there are some. -/
theorem roleOf_fits {admissions : List Admission} {keyRole honestRole : Option RoleType}
    (keyed : ∀ admission ∈ admissions, admission.key.truthy = true)
    (fits : honestRole = none ∨ keyRole = honestRole) (complete : ¬ Interrupted admissions)
    (typed : honestRole = none → WellTyped keyRole admissions) :
    roleOf honestRole (honestOf admissions) = none ∨
      roleOf keyRole admissions = roleOf honestRole (honestOf admissions) := by
  cases honestRole with
  | some own =>
      right
      rw [roleOf_some rfl, roleOf_some (by simpa using fits)]
  | none =>
      replace typed := typed rfl
      clear fits
      induction admissions generalizing keyRole with
      | nil => exact .inl rfl
      | cons admission rest ih =>
          obtain ⟨here, later⟩ := List.forall_mem_cons.mp keyed
          obtain ⟨type, own⟩ := roleType_of_truthy here
          cases prints : admission.printable with
          | false =>
              left
              rw [interrupted_thrown prints] at complete
              cases blocked : admission.blocked with
              | false => rw [honestOf_honest blocked, roleOf, if_neg (by simp [prints])]
              | true =>
                  rw [honestOf_ghost blocked]
                  cases next : honestOf rest with
                  | nil => rfl
                  | cons first others =>
                      have throws : first.printable = false := by
                        simpa [blocked, next] using complete
                      rw [roleOf, if_neg (by simp [throws])]
          | true =>
              rw [interrupted_printed prints] at complete
              cases blocked : admission.blocked with
              | true =>
                  rw [honestOf_ghost blocked, roleOf, if_pos prints]
                  exact ih later complete ((wellTyped_ghost prints blocked).mp typed)
              | false =>
                  right
                  have set : roleAfter keyRole admission.key = some type := by
                    rcases (wellTyped_honest prints blocked).mp typed with rfl | rfl <;>
                      simp [roleAfter, own]
                  rw [honestOf_honest blocked, roleOf, roleOf, if_pos prints, if_pos prints,
                    roleOf_some set,
                    roleOf_some (show roleAfter none admission.key = some type from own)]

theorem mem_inserted {admissions : List Admission} {keyRole : Option RoleType} {row : Row}
    (shown : row ∈ inserted keyRole admissions) :
    ∃ admission ∈ admissions, ∃ key hashlock makerLez,
      row = .ofTexts admission key hashlock makerLez := by
  induction admissions generalizing keyRole with
  | nil => cases shown
  | cons admission rest ih =>
      rcases Row.ofAdmission?_cases keyRole admission with
        ⟨-, none⟩ | ⟨-, hashlock, makerLez, made⟩
      · simp [inserted, none] at shown
      · rw [inserted_of_made rest (made keyRole)] at shown
        rcases List.mem_cons.mp shown with rfl | later
        · exact ⟨admission, List.mem_cons_self, _, hashlock, makerLez, rfl⟩
        · obtain ⟨other, among, parts⟩ := ih later
          exact ⟨other, List.mem_cons_of_mem _ among, parts⟩

/-- No more ghosts are inserted than admitted. -/
theorem countP_inserted (keyRole : Option RoleType) (admissions : List Admission) :
    ghostRowCount (inserted keyRole admissions) ≤ admissions.countP (·.blocked) := by
  induction admissions generalizing keyRole with
  | nil => exact le_rfl
  | cons admission rest ih =>
      rcases Row.ofAdmission?_cases keyRole admission with
        ⟨-, none⟩ | ⟨-, hashlock, makerLez, made⟩
      · simp [inserted, none, ghostRowCount]
      · have later := ih (roleAfter keyRole admission.key)
        rw [inserted_of_made rest (made keyRole)]
        simp only [ghostRowCount, List.countP_cons, Row.ofTexts] at later ⊢
        omega

/-! ## Any number of batches -/

/-- What the board is fed with. -/
inductive Feed where
  | batch (nowSec : Int) (offers : List Offer)
  | sweep (nowSec : Int)

namespace Feed

/-- What a feed admits. -/
def admits (venue : Venue) (board : Board) : Feed → List Admission
  | .batch nowSec offers => classifyOffers offers (filterContext nowSec venue board.rows)
  | .sweep _ => []

/-- The rows that a feed puts on the board. -/
def shows (venue : Venue) (board : Board) : Feed → List Row
  | .batch nowSec offers => (mergeOffers nowSec venue offers board.toOffersModel).1
  | .sweep _ => []

/-- The board after a feed. -/
def after (venue : Venue) (board : Board) : Feed → Board
  | .batch nowSec offers => board.merge nowSec venue offers
  | .sweep nowSec => board.sweep nowSec

/-- A feed without its ghosts. A batch of nothing else is no batch. -/
def withoutGhosts (venue : Venue) : Feed → Option Feed
  | .batch nowSec offers =>
      match offers.filter (offerVenueOk venue) with
      | [] => none
      | honest => some (.batch nowSec honest)
  | .sweep nowSec => some (.sweep nowSec)

/-- No offer of a feed is lost to a ghost, or forgotten for one: none is suppressed, the loop is
not ended before one, and the first honest row of all is not given a key of another type. -/
def Clear (venue : Venue) (honestRole : Option RoleType) (board : Board) : Feed → Prop
  | .batch nowSec offers =>
      Unsuppressed (filterContext nowSec venue board.rows) board.rows
          (startOf (filterContext nowSec venue board.rows)) offers ∧
        ¬ Interrupted (classifyOffers offers (filterContext nowSec venue board.rows)) ∧
        (honestRole = none → WellTyped board.keyRole
          (classifyOffers offers (filterContext nowSec venue board.rows)))
  | .sweep _ => True

end Feed

/-- What a run admits. -/
def admissions (venue : Venue) : Board → List Feed → List Admission
  | _, [] => []
  | board, feed :: rest => feed.admits venue board ++ admissions venue (feed.after venue board) rest

/-- The rows that a run puts on the board, in order. -/
def shown (venue : Venue) : Board → List Feed → List Row
  | _, [] => []
  | board, feed :: rest => feed.shows venue board ++ shown venue (feed.after venue board) rest

/-- The board after a run. -/
def boardAfter (venue : Venue) (board : Board) (feeds : List Feed) : Board :=
  feeds.foldl (fun board feed => feed.after venue board) board

/-- A run without its ghosts. -/
def withoutGhosts (venue : Venue) (feeds : List Feed) : List Feed :=
  feeds.filterMap (Feed.withoutGhosts venue)

/-- No offer of a run is lost to a ghost. `honestRole` is the type of the keys of the honest rows,
if there have been some. -/
def Clear (venue : Venue) : Option RoleType → Board → List Feed → Prop
  | _, _, [] => True
  | honestRole, board, feed :: rest =>
      feed.Clear venue honestRole board ∧
        Clear venue (roleOf honestRole (honestOf (feed.admits venue board)))
          (feed.after venue board) rest

instance (venue : Venue) (honestRole : Option RoleType) (board : Board) :
    ∀ feed : Feed, Decidable (feed.Clear venue honestRole board)
  | .batch _ _ => inferInstanceAs (Decidable (_ ∧ _))
  | .sweep _ => .isTrue trivial

instance decidableClear (venue : Venue) : ∀ (honestRole : Option RoleType) (board : Board)
    (feeds : List Feed), Decidable (Clear venue honestRole board feeds)
  | _, _, [] => .isTrue trivial
  | honestRole, board, feed :: rest =>
      have := decidableClear venue (roleOf honestRole (honestOf (feed.admits venue board)))
        (feed.after venue board) rest
      inferInstanceAs (Decidable (_ ∧ _))

/-- A board without its ghosts. -/
def Board.honest (board : Board) (honestRole : Option RoleType) : Board :=
  ⟨⟨honestRows board.rows, honestRole⟩,
    board.distinct.sublist (held_sublist (List.filter_sublist.map _))⟩

@[simp] theorem Board.honest_rows (board : Board) (honestRole : Option RoleType) :
    (board.honest honestRole).rows = honestRows board.rows := rfl

@[simp] theorem Board.honest_keyRole (board : Board) (honestRole : Option RoleType) :
    (board.honest honestRole).keyRole = honestRole := rfl

theorem Board.eq_of_model {board other : Board}
    (same : board.toOffersModel = other.toOffersModel) : board = other := by
  cases board
  cases other
  obtain rfl : _ = _ := same
  rfl

section Runs

variable {venue : Venue}

/-- The feed's share of what is admitted without ghosts. -/
def honestAdmits (venue : Venue) (board : Board) (feed : Feed) : List Admission :=
  ((feed.withoutGhosts venue).map (Feed.admits venue board)).getD []

/-- The rows that a feed puts on the board without its ghosts. -/
def honestShows (venue : Venue) (board : Board) (feed : Feed) : List Row :=
  ((feed.withoutGhosts venue).map (Feed.shows venue board)).getD []

/-- The board after a feed without its ghosts. -/
def honestAfter (venue : Venue) (board : Board) (feed : Feed) : Board :=
  ((feed.withoutGhosts venue).map (Feed.after venue board)).getD board

theorem admissions_withoutGhosts_cons (board : Board) (feed : Feed) (rest : List Feed) :
    admissions venue board (withoutGhosts venue (feed :: rest)) =
      honestAdmits venue board feed ++
        admissions venue (honestAfter venue board feed) (withoutGhosts venue rest) := by
  cases stripped : feed.withoutGhosts venue <;>
    simp [withoutGhosts, honestAdmits, honestAfter, stripped, admissions]

theorem shown_withoutGhosts_cons (board : Board) (feed : Feed) (rest : List Feed) :
    shown venue board (withoutGhosts venue (feed :: rest)) =
      honestShows venue board feed ++
        shown venue (honestAfter venue board feed) (withoutGhosts venue rest) := by
  cases stripped : feed.withoutGhosts venue <;>
    simp [withoutGhosts, honestShows, honestAfter, stripped, shown]

theorem honestAdmits_batch (board : Board) (nowSec : Int) (offers : List Offer) :
    honestAdmits venue board (.batch nowSec offers) =
      classifyOffers (offers.filter (offerVenueOk venue))
        (filterContext nowSec venue board.rows) := by
  cases honest : offers.filter (offerVenueOk venue) <;>
    simp only [honestAdmits, Feed.withoutGhosts, honest] <;> rfl

theorem honestShows_batch (board : Board) (nowSec : Int) (offers : List Offer) :
    honestShows venue board (.batch nowSec offers) =
      (mergeOffers nowSec venue (offers.filter (offerVenueOk venue)) board.toOffersModel).1 := by
  cases honest : offers.filter (offerVenueOk venue) <;>
    simp only [honestShows, Feed.withoutGhosts, honest] <;> rfl

theorem honestAfter_batch (board : Board) (nowSec : Int) (offers : List Offer) :
    honestAfter venue board (.batch nowSec offers) =
      board.merge nowSec venue (offers.filter (offerVenueOk venue)) := by
  cases honest : offers.filter (offerVenueOk venue) <;>
    simp only [honestAfter, Feed.withoutGhosts, honest] <;> rfl

theorem admitted_truthy (offers : List Offer) (context : FilterContext) :
    ∀ admission ∈ classifyOffers offers context, admission.key.truthy = true := by
  intro admission admitted
  obtain ⟨-, -, checked⟩ := classifyOffers_sound offers context
  rw [(checked admission admitted).2.2.2.1]
  exact offerKey_truthy admission.offer

/-- A feed admits and shows the same honest offers as without its ghosts exactly if it is clear. -/
theorem feed_honest_iff {board : Board} {honestRole : Option RoleType} (feed : Feed)
    (fits : honestRole = none ∨ board.keyRole = honestRole) :
    honestOf (feed.admits venue board) = honestAdmits venue (board.honest honestRole) feed ∧
        honestRows (feed.shows venue board) = honestShows venue (board.honest honestRole) feed ↔
      feed.Clear venue honestRole board := by
  cases feed with
  | batch nowSec offers =>
      have keyed := admitted_truthy offers (filterContext nowSec venue board.rows)
      rw [honestAdmits_batch, honestShows_batch, Feed.Clear,
        ← classifyOffers_honest_iff board nowSec venue offers]
      refine and_congr_right fun agree => ?_
      rw [Feed.admits, Board.honest_rows] at agree
      rw [Feed.shows, mergeOffers_eq, mergeOffers_eq, Board.honest_rows, Board.honest_keyRole,
        ← agree]
      exact honestRows_inserted_iff keyed fits
  | sweep nowSec => exact iff_of_true ⟨rfl, rfl⟩ trivial

/-- A clear feed leaves the same honest rows as without its ghosts. -/
theorem after_honest {board : Board} {honestRole : Option RoleType} {feed : Feed}
    (fits : honestRole = none ∨ board.keyRole = honestRole)
    (clear : feed.Clear venue honestRole board) :
    (feed.after venue board).honest (roleOf honestRole (honestOf (feed.admits venue board))) =
        honestAfter venue (board.honest honestRole) feed ∧
      (roleOf honestRole (honestOf (feed.admits venue board)) = none ∨
        (feed.after venue board).keyRole =
          roleOf honestRole (honestOf (feed.admits venue board))) := by
  obtain ⟨agree, rows⟩ := (feed_honest_iff feed fits).mpr clear
  cases feed with
  | batch nowSec offers =>
      obtain ⟨-, complete, typed⟩ := clear
      have keyed := admitted_truthy offers (filterContext nowSec venue board.rows)
      rw [honestAdmits_batch, Feed.admits, Board.honest_rows] at agree
      rw [honestShows_batch, Feed.shows, mergeOffers_eq, mergeOffers_eq, Board.honest_rows,
        Board.honest_keyRole, ← agree] at rows
      dsimp only at rows
      have left := board.merge_model nowSec venue offers
      refine ⟨Board.eq_of_model ?_, ?_⟩
      · rw [honestAfter_batch, Board.merge_model, Board.honest_rows, Board.honest_keyRole, ← agree,
          ← rows]
        simp [Board.honest, Feed.after, left, honestRows, Feed.admits]
      · rw [Feed.after, left]
        exact roleOf_fits keyed fits complete typed
  | sweep nowSec =>
      refine ⟨Board.eq_of_model ?_, fits⟩
      have filtered : honestRows (sweep nowSec board.rows) = sweep nowSec (honestRows board.rows) := by
        simp only [honestRows, sweep, List.filter_filter, Bool.and_comm]
      exact congrArg (OffersModel.mk · honestRole) filtered

/-- At every point of a run the honest offers admitted and shown are those of the run without its
ghosts exactly if the run is clear. -/
theorem run_honest_iff (feeds : List Feed) {board : Board} {honestRole : Option RoleType}
    (fits : honestRole = none ∨ board.keyRole = honestRole) :
    (∀ earlier, earlier <+: feeds →
        honestOf (admissions venue board earlier) =
            admissions venue (board.honest honestRole) (withoutGhosts venue earlier) ∧
          honestRows (shown venue board earlier) =
            shown venue (board.honest honestRole) (withoutGhosts venue earlier)) ↔
      Clear venue honestRole board feeds := by
  induction feeds generalizing board honestRole with
  | nil =>
      refine iff_of_true ?_ trivial
      intro earlier none
      obtain rfl := List.prefix_nil.mp none
      exact ⟨rfl, rfl⟩
  | cons feed rest ih =>
      have split : ∀ earlier, honestOf (admissions venue board (feed :: earlier)) =
          honestOf (feed.admits venue board) ++
            honestOf (admissions venue (feed.after venue board) earlier) := fun earlier =>
        List.filter_append ..
      have splitRows : ∀ earlier, honestRows (shown venue board (feed :: earlier)) =
          honestRows (feed.shows venue board) ++
            honestRows (shown venue (feed.after venue board) earlier) := fun earlier =>
        List.filter_append ..
      constructor
      · intro agree
        have first : feed.Clear venue honestRole board := by
          rw [← feed_honest_iff feed fits]
          have alone := agree [feed] (List.prefix_append [feed] rest)
          rw [split, splitRows, admissions_withoutGhosts_cons, shown_withoutGhosts_cons] at alone
          simpa [admissions, shown, honestOf, honestRows, withoutGhosts] using alone
        obtain ⟨same, fits'⟩ := after_honest fits first
        obtain ⟨admits, shows⟩ := (feed_honest_iff feed fits).mpr first
        refine ⟨first, (ih fits').mp fun earlier before => ?_⟩
        have both := agree (feed :: earlier) ((List.prefix_cons_inj feed).mpr before)
        rw [split, splitRows, admissions_withoutGhosts_cons, shown_withoutGhosts_cons, admits, shows,
          List.append_cancel_left_eq, List.append_cancel_left_eq] at both
        rw [same]
        exact both
      · rintro ⟨first, later⟩ earlier before
        obtain ⟨same, fits'⟩ := after_honest fits first
        obtain ⟨admits, shows⟩ := (feed_honest_iff feed fits).mpr first
        cases earlier with
        | nil => exact ⟨rfl, rfl⟩
        | cons head earlier =>
            obtain ⟨rfl, shorter⟩ := List.cons_prefix_cons.mp before
            obtain ⟨restAdmits, restShows⟩ := (ih fits').mpr later earlier shorter
            rw [split, splitRows, admissions_withoutGhosts_cons, shown_withoutGhosts_cons, admits,
              shows, restAdmits, restShows, same]
            exact ⟨rfl, rfl⟩

/-- Ghosts stay under their cap. -/
theorem boardAfter_capped (feeds : List Feed) {board : Board}
    (capped : ghostRowCount board.rows ≤ maxGhostRows) :
    ghostRowCount (boardAfter venue board feeds).rows ≤ maxGhostRows := by
  induction feeds generalizing board with
  | nil => exact capped
  | cons feed rest ih =>
      apply ih
      cases feed with
      | batch nowSec offers =>
          have counted :=
            (classifyOffers_counted offers (filterContext nowSec venue board.rows)).1 capped
          have fewer := countP_inserted board.keyRole
            (classifyOffers offers (filterContext nowSec venue board.rows))
          change ghostRowCount (mergeOffers nowSec venue offers board.toOffersModel).2.rows ≤ _
          rw [mergeOffers_eq, ghostRowCount, List.countP_append, List.countP_reverse]
          simp only [filterContext, ghostRowCount] at counted fewer ⊢
          omega
      | sweep nowSec =>
          exact (List.Sublist.countP_le List.filter_sublist).trans capped

/-- Every honest row is of the venue. -/
theorem shown_venue (feeds : List Feed) (board : Board) {row : Row}
    (among : row ∈ shown venue board feeds) (honest : row.blocked = false) :
    offerVenueOk venue row.wireOffer = true := by
  induction feeds generalizing board with
  | nil => cases among
  | cons feed rest ih =>
      rcases List.mem_append.mp among with first | later
      · cases feed with
        | batch nowSec offers =>
            obtain ⟨-, -, checked⟩ :=
              classifyOffers_sound offers (filterContext nowSec venue board.rows)
            rw [Feed.shows, mergeOffers_eq] at first
            obtain ⟨admission, admitted, key, hashlock, makerLez, rfl⟩ := mem_inserted first
            obtain ⟨-, -, -, -, decided⟩ := checked admission admitted
            have decided : offerVenueOk venue admission.offer = true := by
              simpa [Row.ofTexts, filterContext] using decided.symm.trans honest
            exact decided
        | sweep nowSec => cases first
      · exact ih _ later

end Runs

/-- With both pins known, an offer is of the venue if it names both. -/
theorem offerVenueOk_iff {venue : Venue}
    (pinned : normalHex jsSpace venue.canonicalEth ≠ [] ∧ normalHex jsSpace venue.canonicalLez ≠ [])
    (offer : Offer) :
    offerVenueOk venue offer = true ↔
      normalHex jsSpace offer.ethHtlcAddress = normalHex jsSpace venue.canonicalEth ∧
        normalHex jsSpace offer.lezHtlcProgramId = normalHex jsSpace venue.canonicalLez := by
  simp [offerVenueOk, pinned.1, pinned.2]

/-- On a board with a known venue, ghosts take nothing from honest offers exactly while no honest
offer finds its key held by a ghost, a ghost in front that ends the loop, or a role that a ghost has
given another type: then the honest offers admitted, and the honest rows, are those of the run
without ghosts, at every point of it, and two such runs that differ by ghosts only show the same. In
every run ghosts stay under their cap, and no offer of a foreign venue is shown unblocked. -/
theorem ghosts_suppress_iff (venue : Venue)
    (pinned : normalHex jsSpace venue.canonicalEth ≠ [] ∧
      normalHex jsSpace venue.canonicalLez ≠ []) :
    (∀ feeds, (∀ earlier, earlier <+: feeds →
          honestOf (admissions venue .empty earlier) =
              admissions venue .empty (withoutGhosts venue earlier) ∧
            honestRows (shown venue .empty earlier) =
              shown venue .empty (withoutGhosts venue earlier)) ↔
        Clear venue none .empty feeds) ∧
      (∀ feeds others, withoutGhosts venue feeds = withoutGhosts venue others →
        Clear venue none .empty feeds → Clear venue none .empty others →
        honestRows (shown venue .empty feeds) = honestRows (shown venue .empty others)) ∧
      ∀ feeds, ghostRowCount (boardAfter venue .empty feeds).rows ≤ maxGhostRows ∧
        ∀ row ∈ shown venue .empty feeds, row.blocked = false →
          normalHex jsSpace row.ethHtlcAddr = normalHex jsSpace venue.canonicalEth ∧
            normalHex jsSpace row.lezProgramId = normalHex jsSpace venue.canonicalLez := by
  have agree : ∀ feeds, (∀ earlier, earlier <+: feeds →
        honestOf (admissions venue .empty earlier) =
            admissions venue .empty (withoutGhosts venue earlier) ∧
          honestRows (shown venue .empty earlier) =
            shown venue .empty (withoutGhosts venue earlier)) ↔
      Clear venue none .empty feeds :=
    fun feeds => run_honest_iff feeds (.inl rfl)
  refine ⟨agree, ?_, fun feeds => ⟨boardAfter_capped feeds (Nat.zero_le _), ?_⟩⟩
  · intro feeds others same clear clear'
    rw [((agree feeds).mpr clear feeds (List.prefix_refl _)).2,
      ((agree others).mpr clear' others (List.prefix_refl _)).2, same]
  · intro row among honest
    exact (offerVenueOk_iff pinned row.wireOffer).mp (shown_venue feeds .empty among honest)

/-- A venue with both pins. -/
def testVenue : Venue where
  canonicalEth := "0x5FbDB2315678afecb367f032d93F642f64180aa3"
  canonicalLez := "1111111111111111111111111111111111111111111111111111111111111111"

/-- An offer of the venue. -/
def testHonest : Offer where
  hashlock := .undefined
  lezAmount := "10"
  ethAmount := "20"
  makerEthAddress := "0x2222222222222222222222222222222222222222"
  makerLezAccount := .string "3333333333333333333333333333333333333333333333333333333333333333"
  lezTimelock := 2000
  ethTimelock := 3000
  lezHtlcProgramId := testVenue.canonicalLez
  ethHtlcAddress := testVenue.canonicalEth

/-- A copy of it that names another contract, with a hashlock. -/
def testGhost (hashlock : JsValue) : Offer :=
  { testHonest with hashlock, ethHtlcAddress := "0x4444444444444444444444444444444444444444" }

/-- A ghost under a key of its own, and an honest offer that is fetched twice. -/
def testFeeds : List Feed :=
  [.batch 1000 [testGhost (.string "00"), testHonest], .batch 1001 [testHonest]]

/-- The ghost is on the board, and the honest offer as well. -/
theorem ghosts_suppress_iff_quiet :
    honestRows (shown testVenue .empty testFeeds) =
        shown testVenue .empty (withoutGhosts testVenue testFeeds) ∧
      (shown testVenue .empty testFeeds).map (·.blocked) = [true, false] := by
  have clear : Clear testVenue none .empty testFeeds := by decide +kernel
  have same := ((ghosts_suppress_iff testVenue (by decide +kernel)).1 testFeeds).mpr clear testFeeds
    (List.prefix_refl _)
  exact ⟨same.2, by decide +kernel⟩

/-- A ghost that is fetched before the offer it copies keeps it off the board; so does one whose
hashlock is an object that has no text; and after one with a number for its hashlock an offer that
is fetched again is shown again. -/
theorem ghost_suppresses_honest :
    (withoutGhosts testVenue [.batch 1000 [testGhost .undefined, testHonest]] =
        withoutGhosts testVenue [.batch 1000 [testHonest]] ∧
      (honestRows (shown testVenue .empty [.batch 1000 [testGhost .undefined, testHonest]])).length <
        (honestRows (shown testVenue .empty [.batch 1000 [testHonest]])).length) ∧
    (withoutGhosts testVenue [.batch 1000 [testGhost (.object ["toString"]), testHonest]] =
        withoutGhosts testVenue [.batch 1000 [testHonest]] ∧
      (honestRows (shown testVenue .empty
          [.batch 1000 [testGhost (.object ["toString"]), testHonest]])).length <
        (honestRows (shown testVenue .empty [.batch 1000 [testHonest]])).length) ∧
    withoutGhosts testVenue
        [.batch 1000 [testGhost (.number "1"), testHonest], .batch 1001 [testHonest]] =
      withoutGhosts testVenue [.batch 1000 [testHonest], .batch 1001 [testHonest]] ∧
    (honestRows (shown testVenue .empty
        [.batch 1000 [testHonest], .batch 1001 [testHonest]])).length <
      (honestRows (shown testVenue .empty
        [.batch 1000 [testGhost (.number "1"), testHonest], .batch 1001 [testHonest]])).length := by
  have stripped (hashlock : JsValue) : Feed.withoutGhosts testVenue
      (.batch 1000 [testGhost hashlock, testHonest]) =
        Feed.withoutGhosts testVenue (.batch 1000 [testHonest]) := by
    have foreign : offerVenueOk testVenue (testGhost hashlock) = false := by
      change offerVenueOk testVenue (testGhost .undefined) = false
      decide +kernel
    simp only [Feed.withoutGhosts, List.filter_cons, foreign, Bool.false_eq_true, if_false]
  refine ⟨⟨?_, by decide +kernel⟩, ⟨?_, by decide +kernel⟩, ?_, by decide +kernel⟩
  all_goals simp only [withoutGhosts, List.filterMap_cons, stripped]

end AtomicSwaps.Ui
