import AtomicSwaps.Module.DeliveryCache
import AtomicSwaps.Semantics.Placement

/-!
# What becomes of a message in the delivery cache

Every message that was accepted waits in its place, or was returned by one fetch, or was evicted
by a cap or dropped with its swap.
-/

namespace AtomicSwaps.Module

open Semantics

/-- The places of the cache. -/
inductive Place where
  | offers
  | events (hashlock : String)
deriving DecidableEq

/-- A fetch returns a message from a place. -/
inductive DeliveryEvent.Fetches : DeliveryEvent → Place → Cached → Prop where
  | offers {offers : List Cached} {cached : Cached} (returned : cached ∈ offers) :
      Fetches (.fetchOffers offers) .offers cached
  | events {hashlockHex : String} {answer : FetchedEvents} {cached : Cached}
      (returned : cached ∈ answer.events) :
      Fetches (.fetchSwapEvents hashlockHex (.ok answer)) (.events answer.hashlock) cached

namespace DeliveryState

/-- The messages in a place. -/
def messages (state : DeliveryState) : Place → List Cached
  | .offers => state.offers
  | .events hashlock => state.bucket hashlock

/-- A message is an offer, or an event of a tracked swap: where it belongs, and its fields. -/
inductive Accepts (state : DeliveryState) (message : Message) : Place → JsonObject → Prop where
  | offer {offer : JsonObject} (brought : offerOf message = some offer) :
      Accepts state message .offers offer
  | event {hashlock : String} {accept : JsonObject}
      (brought : acceptOf message = some (hashlock, accept)) (tracked : state.Tracked hashlock) :
      Accepts state message (.events hashlock) accept

/-- A message is evicted by a cap, for a new one, or its swap is unsubscribed. -/
inductive Drops (state : DeliveryState) : DeliveryEvent → Place → Cached → Prop where
  | full {message : Message} {offer : JsonObject} {cached : Cached}
      (brought : offerOf message = some offer) (full : kMaxCachedOffers ≤ state.offers.length) :
      Drops state (.messageReceived message) .offers cached
  | share {message : Message} {offer : JsonObject} {cached : Cached}
      (brought : offerOf message = some offer) (same : makerKey cached.fields = makerKey offer)
      (full : kMaxCachedOffersPerMaker ≤
        state.offers.countP fun cached => makerKey cached.fields = makerKey offer) :
      Drops state (.messageReceived message) .offers cached
  | bucket {message : Message} {hashlock : String} {accept : JsonObject} {cached : Cached}
      (brought : acceptOf message = some (hashlock, accept)) (tracked : state.Tracked hashlock)
      (full : kMaxCachedSwapEventsPerSwap ≤ (state.bucket hashlock).length) :
      Drops state (.messageReceived message) (.events hashlock) cached
  | unsubscribed {hashlock : String} {remote success : Bool} {cached : Cached}
      (calling : state.operation = some (.unsubscribe hashlock remote))
      (accepted : remote → success) :
      Drops state (.answered success) (.events hashlock) cached

/-- In a run, a message was accepted for a place, with the next ticket. -/
def Accepted (events : List DeliveryEvent) (place : Place) (cached : Cached) : Prop :=
  ∃ earlier message later fields, events = earlier ++ .messageReceived message :: later ∧
    (stateAfter earlier).Accepts message place fields ∧
    cached = ⟨(stateAfter earlier).tickets, fields, message.hash, message.nowMs⟩

/-- A ticket was given, and is not in the cache. -/
def Gone (state : DeliveryState) (ticket : Nat) : Prop :=
  ticket < state.tickets ∧ ∀ place, ∀ cached ∈ state.messages place, cached.ticket ≠ ticket

/-- How often the fetches of a run return a ticket. -/
def returns (events : List DeliveryEvent) (ticket : Nat) : Nat :=
  (returnedBy events).countP (·.ticket = ticket)

/-- What has become of a message: it waits in its place, or it was in its place until it was
fetched, once, or dropped. -/
inductive Fate (events : List DeliveryEvent) (state : DeliveryState) (place : Place)
    (cached : Cached) : Prop where
  | waiting (here : cached ∈ state.messages place) (never : returns events cached.ticket = 0)
  | fetched {earlier : List DeliveryEvent} {event : DeliveryEvent} {later : List DeliveryEvent}
      (split : events = earlier ++ event :: later)
      (here : cached ∈ (stateAfter earlier).messages place)
      (left : cached ∉ (stateAfter (earlier ++ [event])).messages place)
      (fetches : event.Fetches place cached) (once : returns events cached.ticket = 1)
      (gone : state.Gone cached.ticket)
  | dropped {earlier : List DeliveryEvent} {event : DeliveryEvent} {later : List DeliveryEvent}
      (split : events = earlier ++ event :: later)
      (here : cached ∈ (stateAfter earlier).messages place)
      (left : cached ∉ (stateAfter (earlier ++ [event])).messages place)
      (drops : (stateAfter earlier).Drops event place cached)
      (never : returns events cached.ticket = 0) (gone : state.Gone cached.ticket)

variable {state next : DeliveryState} {event : DeliveryEvent} {events : List DeliveryEvent}
  {place : Place} {cached : Cached}

@[simp] theorem messages_setOffers (offers : List Cached) :
    { state with offers }.messages = Function.update state.messages .offers offers := by
  funext place
  cases place <;> simp [messages, DeliveryState.bucket]

@[simp] theorem messages_setEvents (hashlock : String) (bucket : Option (List Cached)) :
    { state with swapEvents := Function.update state.swapEvents hashlock bucket }.messages =
      Function.update state.messages (.events hashlock) (bucket.getD []) := by
  funext place
  cases place with
  | offers => rfl
  | events other =>
      by_cases same : other = hashlock
      · subst same
        simp [messages, DeliveryState.bucket]
      · simp [messages, DeliveryState.bucket, same]

theorem messages_cacheOffer (message : Message) (offer : JsonObject) :
    (state.cacheOffer message offer).messages = Function.update state.messages .offers
      (roomForOffer offer state.offers ++
        [⟨state.tickets, offer, message.hash, message.nowMs⟩]) :=
  messages_setOffers _

theorem messages_cacheEvent (message : Message) {hashlock : String} (accept : JsonObject)
    (tracked : state.Tracked hashlock) :
    (state.cacheEvent message hashlock accept).messages =
      Function.update state.messages (.events hashlock)
        (makeRoom kMaxCachedSwapEventsPerSwap (state.bucket hashlock) ++
          [⟨state.tickets, accept, message.hash, message.nowMs⟩]) := by
  rw [cacheEvent, if_pos tracked]
  exact messages_setEvents hashlock (some _)

/-! ## The numbering -/

/-- The tickets in the places, and those that have left. -/
def content (state : DeliveryState) (left : List Nat) : Option Place → List Nat
  | none => left
  | some place => (state.messages place).map (·.ticket)

/-- Every ticket that was given is in one place, or has left. -/
def Accounted (state : DeliveryState) : Prop :=
  ∃ left home, Placed (state.content left) state.tickets home

theorem content_left (left others : List Nat) :
    state.content others = Function.update (state.content left) none others := by
  funext place
  cases place <;> simp [content]

theorem content_set {kept : List Cached}
    (now : next.messages = Function.update state.messages place kept) (left : List Nat) :
    next.content left =
      Function.update (state.content left) (some place) (kept.map (·.ticket)) := by
  funext other
  rcases other with _ | other
  · simp [content]
  · by_cases same : other = place
    · subst same
      simp [content, now]
    · simp [content, now, same]

theorem Accounted.initial : Accounted initial := by
  refine ⟨[], fun _ => none, ?_⟩
  have nothing : DeliveryState.initial.content [] = fun _ => [] := by
    funext place
    rcases place with _ | _ | _ <;> rfl
  rw [nothing]
  exact .empty _

/-- Some messages leave a place. -/
theorem Accounted.removed (accounted : state.Accounted) (place : Place) {kept : List Cached}
    (sublist : kept.Sublist (state.messages place))
    (now : next.messages = Function.update state.messages place kept)
    (tickets : next.tickets = state.tickets) : next.Accounted := by
  obtain ⟨left, home, placed⟩ := accounted
  have distinct : ((state.messages place).map (·.ticket)).Nodup := placed.nodup (some place)
  have moved := placed.move (Option.some_ne_none place)
    (perm_append_rest (sublist.map (·.ticket)) distinct)
  rw [← content_set now, ← content_left, ← tickets] at moved
  exact ⟨_, _, moved⟩

/-- A message is put in a place, with the next ticket. -/
theorem Accounted.added (accounted : state.Accounted) (place : Place) (cached : Cached)
    (new : cached.ticket = state.tickets)
    (now : next.messages = Function.update state.messages place (state.messages place ++ [cached]))
    (tickets : next.tickets = state.tickets + 1) : next.Accounted := by
  obtain ⟨left, home, placed⟩ := accounted
  have added := placed.add (some place)
  have content := content_set now left
  rw [List.map_append, List.map_singleton, new] at content
  rw [← tickets] at added
  exact ⟨left, _, content ▸ added⟩

/-- A step accounts for every ticket that it gives or takes from its place. -/
theorem Accounted.step (accounted : state.Accounted) (step : DeliveryStep state event next) :
    next.Accounted := by
  cases effect_of_step step with
  | @offerCached message offer brought =>
      have room : { state with offers := roomForOffer offer state.offers }.Accounted :=
        accounted.removed .offers (roomForOffer_sublist offer state.offers)
          (messages_setOffers _) rfl
      refine room.added .offers
        ⟨state.tickets, offer, message.hash, message.nowMs⟩ rfl ?_ rfl
      simp [messages_cacheOffer, messages]
  | @eventCached message hashlock accept brought tracked =>
      let kept := makeRoom kMaxCachedSwapEventsPerSwap (state.bucket hashlock)
      have room : { state with
          swapEvents := Function.update state.swapEvents hashlock (some kept) }.Accounted :=
        accounted.removed (.events hashlock) (makeRoom_sublist _ _)
          (messages_setEvents hashlock (some kept)) rfl
      refine room.added (.events hashlock)
        ⟨state.tickets, accept, message.hash, message.nowMs⟩ rfl ?_ ?_
      · simp [messages_cacheEvent message accept tracked, kept]
      · rw [cacheEvent, if_pos tracked]
  | offersFetched =>
      exact accounted.removed .offers (List.nil_sublist _) (messages_setOffers _) rfl
  | @eventsFetched _ hashlock events _ found =>
      exact accounted.removed (.events hashlock) (List.nil_sublist _)
        (messages_setEvents hashlock (some [])) rfl
  | @unsubscribed hashlock =>
      exact accounted.removed (.events hashlock) (List.nil_sublist _)
        (messages_setEvents hashlock none) rfl
  | _ => exact accounted

/-- A ticket in the cache was given. -/
theorem Accounted.below (accounted : state.Accounted) (here : cached ∈ state.messages place) :
    cached.ticket < state.tickets := by
  obtain ⟨left, home, placed⟩ := accounted
  have inPlace : cached.ticket ∈ state.content left (some place) := List.mem_map_of_mem here
  exact (placed.mem_iff.mp inPlace).1

/-- A ticket in the cache belongs to one message in one place. -/
theorem Accounted.unique (accounted : state.Accounted) {elsewhere : Place} {other : Cached}
    (here : cached ∈ state.messages place) (there : other ∈ state.messages elsewhere)
    (same : other.ticket = cached.ticket) : elsewhere = place ∧ other = cached := by
  obtain ⟨left, home, placed⟩ := accounted
  have inPlace : cached.ticket ∈ state.content left (some place) := List.mem_map_of_mem here
  have inOther : other.ticket ∈ state.content left (some elsewhere) := List.mem_map_of_mem there
  obtain rfl : elsewhere = place := by
    rw [same] at inOther
    exact Option.some.inj ((placed.mem_iff.mp inOther).2.symm.trans (placed.mem_iff.mp inPlace).2)
  exact ⟨rfl, List.inj_on_of_nodup_map (placed.nodup (some elsewhere)) there here same⟩

/-! ## What a step does to a message -/

theorem mem_of_set {elsewhere : Place} {kept : List Cached}
    (here : cached ∈ Function.update state.messages elsewhere kept place) :
    place = elsewhere ∧ cached ∈ kept ∨ cached ∈ state.messages place := by
  by_cases same : place = elsewhere
  · subst same
    exact .inl ⟨rfl, by simpa using here⟩
  · exact .inr (by simpa [same] using here)

/-- What leaves when a place is set was there, and is not kept. -/
theorem left_of_set {elsewhere : Place} {kept : List Cached} (here : cached ∈ state.messages place)
    (left : cached ∉ Function.update state.messages elsewhere kept place) :
    place = elsewhere ∧ cached ∉ kept := by
  by_cases same : place = elsewhere
  · subst same
    exact ⟨rfl, by simpa using left⟩
  · exact absurd here (by simpa [same] using left)

/-- A message on another topic is no offer. -/
theorem offerOf_other {message : Message} (other : message.contentTopic ≠ kOffersTopic) :
    offerOf message = none := if_neg other

theorem messageReceived_offer {message : Message} {offer : JsonObject}
    (brought : offerOf message = some offer) :
    state.messageReceived message = state.cacheOffer message offer := by
  simp only [messageReceived, brought]

theorem messageReceived_event {message : Message} {hashlock : String} {accept : JsonObject}
    (other : message.contentTopic ≠ kOffersTopic)
    (brought : acceptOf message = some (hashlock, accept)) :
    state.messageReceived message = state.cacheEvent message hashlock accept := by
  simp only [messageReceived, offerOf_other other, brought]

/-- What is accepted is put in its place, with the next ticket. -/
theorem Accepts.mem_messages {message : Message} {fields : JsonObject}
    (accepts : state.Accepts message place fields) :
    ⟨state.tickets, fields, message.hash, message.nowMs⟩ ∈
      (state.messageReceived message).messages place := by
  cases accepts with
  | offer brought => simp [messageReceived_offer brought, messages_cacheOffer]
  | @event hashlock accept brought tracked =>
      have other : message.contentTopic ≠ kOffersTopic := by
        unfold acceptOf at brought
        split at brought
        · cases brought
        · assumption
      simp [messageReceived_event other brought, messages_cacheEvent message _ tracked]

/-- What is in the cache after a step was there before, or has just been accepted. -/
theorem mem_before (step : DeliveryStep state event next) (here : cached ∈ next.messages place) :
    cached ∈ state.messages place ∨ ∃ message fields, event = .messageReceived message ∧
      state.Accepts message place fields ∧
      cached = ⟨state.tickets, fields, message.hash, message.nowMs⟩ := by
  cases effect_of_step step with
  | @offerCached message offer brought =>
      rw [messages_cacheOffer] at here
      rcases mem_of_set here with ⟨rfl, inNew⟩ | before
      · rcases List.mem_append.mp inNew with kept | new
        · exact .inl ((roomForOffer_sublist offer state.offers).subset kept)
        · exact .inr ⟨message, offer, rfl, .offer brought, List.mem_singleton.mp new⟩
      · exact .inl before
  | @eventCached message hashlock accept brought tracked =>
      rw [messages_cacheEvent message accept tracked] at here
      rcases mem_of_set here with ⟨rfl, inNew⟩ | before
      · rcases List.mem_append.mp inNew with kept | new
        · exact .inl ((makeRoom_sublist _ _).subset kept)
        · exact .inr ⟨message, accept, rfl, .event brought tracked, List.mem_singleton.mp new⟩
      · exact .inl before
  | offersFetched =>
      rw [messages_setOffers] at here
      rcases mem_of_set here with ⟨-, none⟩ | before
      · exact absurd none List.not_mem_nil
      · exact .inl before
  | @eventsFetched _ hashlock =>
      rw [messages_setEvents] at here
      rcases mem_of_set here with ⟨-, none⟩ | before
      · exact absurd none List.not_mem_nil
      · exact .inl before
  | @unsubscribed hashlock =>
      change cached ∈ DeliveryState.messages
        { state with swapEvents := Function.update state.swapEvents hashlock none } place at here
      rw [messages_setEvents] at here
      rcases mem_of_set here with ⟨-, none⟩ | before
      · exact absurd none List.not_mem_nil
      · exact .inl before
  | _ => exact .inl here

/-- A message leaves its place when it is fetched or dropped. -/
theorem leaves (step : DeliveryStep state event next) (here : cached ∈ state.messages place)
    (left : cached ∉ next.messages place) :
    event.Fetches place cached ∨ state.Drops event place cached := by
  cases effect_of_step step with
  | @offerCached message offer brought =>
      rw [messages_cacheOffer] at left
      obtain ⟨rfl, out⟩ := left_of_set here left
      rcases roomForOffer_left here fun kept => out (List.mem_append_left _ kept) with
        full | ⟨same, full⟩
      · exact .inr (.full brought full)
      · exact .inr (.share brought same full)
  | @eventCached message hashlock accept brought tracked =>
      rw [messages_cacheEvent message accept tracked] at left
      obtain ⟨rfl, out⟩ := left_of_set here left
      refine .inr (.bucket brought tracked (Nat.not_lt.mp fun room => ?_))
      rw [makeRoom_of_room room] at out
      exact out (List.mem_append_left _ here)
  | offersFetched =>
      rw [messages_setOffers] at left
      obtain ⟨rfl, -⟩ := left_of_set here left
      exact .inl (.offers here)
  | @eventsFetched _ hashlock events _ found =>
      rw [messages_setEvents] at left
      obtain ⟨rfl, -⟩ := left_of_set here left
      refine .inl (.events ?_)
      simpa [messages, DeliveryState.bucket, found] using here
  | @unsubscribed hashlock _ _ calling accepted =>
      change cached ∉ DeliveryState.messages
        { state with swapEvents := Function.update state.swapEvents hashlock none } place at left
      rw [messages_setEvents] at left
      obtain ⟨rfl, -⟩ := left_of_set here left
      exact .inr (.unsubscribed calling accepted)
  | _ => exact absurd here left

/-- A fetch returns a place, and empties it. -/
theorem returned_of_step (step : DeliveryStep state event next) : event.returned = [] ∨
    ∃ place, event.returned = state.messages place ∧ next.messages place = [] := by
  cases effect_of_step step with
  | ignored nothing => exact .inl nothing
  | offersFetched => exact .inr ⟨.offers, rfl, rfl⟩
  | @eventsFetched _ hashlock events _ found =>
      refine .inr ⟨.events hashlock, ?_, ?_⟩
      · simp [messages, DeliveryState.bucket, found, DeliveryEvent.returned]
      · simp
  | _ => exact .inl rfl

theorem tickets_le (step : DeliveryStep state event next) : state.tickets ≤ next.tickets := by
  cases effect_of_step step with
  | offerCached => exact Nat.le_succ _
  | @eventCached message hashlock accept _ tracked =>
      rw [cacheEvent, if_pos tracked]
      exact Nat.le_succ _
  | _ => exact le_rfl

/-- What is gone does not come back. -/
theorem Gone.step {ticket : Nat} (gone : state.Gone ticket)
    (step : DeliveryStep state event next) : next.Gone ticket := by
  refine ⟨gone.1.trans_le (tickets_le step), fun place cached here => ?_⟩
  rcases mem_before step here with before | ⟨message, fields, -, -, rfl⟩
  · exact gone.2 place cached before
  · exact gone.1.ne'

/-- What is gone is not returned. -/
theorem Gone.unreturned {ticket : Nat} (gone : state.Gone ticket)
    (step : DeliveryStep state event next) :
    event.returned.countP (·.ticket = ticket) = 0 := by
  rw [List.countP_eq_zero]
  intro cached here
  rcases returned_of_step step with nothing | ⟨place, all, -⟩
  · simp [nothing] at here
  · rw [all] at here
    simpa using gone.2 place cached here

/-- What leaves its place is gone. -/
theorem Accounted.gone (accounted : state.Accounted) (step : DeliveryStep state event next)
    (here : cached ∈ state.messages place) (left : cached ∉ next.messages place) :
    next.Gone cached.ticket := by
  refine ⟨(accounted.below here).trans_le (tickets_le step), fun elsewhere other there same => ?_⟩
  rcases mem_before step there with before | ⟨message, fields, -, -, rfl⟩
  · obtain ⟨rfl, rfl⟩ := accounted.unique here before same
    exact left there
  · exact absurd same (accounted.below here).ne'

/-- What stays is not returned. -/
theorem Accounted.stays (accounted : state.Accounted) (step : DeliveryStep state event next)
    (here : cached ∈ state.messages place) (stays : cached ∈ next.messages place) :
    event.returned.countP (·.ticket = cached.ticket) = 0 := by
  rw [List.countP_eq_zero]
  intro other returned
  rcases returned_of_step step with nothing | ⟨elsewhere, all, empty⟩
  · simp [nothing] at returned
  · rw [all] at returned
    simp only [decide_eq_true_eq]
    intro same
    obtain ⟨rfl, rfl⟩ := accounted.unique here returned same
    rw [empty] at stays
    exact List.not_mem_nil stays

/-- What is fetched is returned once. -/
theorem Accounted.fetched (accounted : state.Accounted) (step : DeliveryStep state event next)
    (fetches : event.Fetches place cached) :
    event.returned.countP (·.ticket = cached.ticket) = 1 := by
  have returned : cached ∈ event.returned := by cases fetches <;> assumption
  rcases returned_of_step step with nothing | ⟨elsewhere, all, -⟩
  · simp [nothing] at returned
  · rw [all] at returned ⊢
    obtain ⟨left, home, placed⟩ := accounted
    have distinct : ((state.messages elsewhere).map (·.ticket)).Nodup :=
      placed.nodup (some elsewhere)
    have once := List.count_eq_one_of_mem distinct (List.mem_map_of_mem returned)
    rw [List.count, List.countP_map] at once
    exact (List.countP_congr (by simp)).trans once

/-! ## Over a run -/

/-- What holds of a run besides the bounds. -/
structure Ledger (events : List DeliveryEvent) (state : DeliveryState) : Prop where
  reached : stateAfter events = state
  accounted : state.Accounted
  fate : ∀ place cached, Accepted events place cached → Fate events state place cached
  source : ∀ place, ∀ cached ∈ state.messages place, Accepted events place cached
  returned : ∀ cached ∈ returnedBy events, ∃ place, Accepted events place cached

theorem returns_append (events : List DeliveryEvent) (event : DeliveryEvent) (ticket : Nat) :
    returns (events ++ [event]) ticket =
      returns events ticket + event.returned.countP (·.ticket = ticket) := by
  simp [returns, returnedBy]

theorem Accepted.later (accepted : Accepted events place cached) (event : DeliveryEvent) :
    Accepted (events ++ [event]) place cached := by
  obtain ⟨earlier, message, later, fields, rfl, accepts, same⟩ := accepted
  exact ⟨earlier, message, later ++ [event], fields, by simp, accepts, same⟩

/-- What is accepted in a run was accepted before its last event, or by it. -/
theorem Accepted.before_or_last (accepted : Accepted (events ++ [event]) place cached) :
    Accepted events place cached ∨ ∃ message fields, event = .messageReceived message ∧
      (stateAfter events).Accepts message place fields ∧
      cached = ⟨(stateAfter events).tickets, fields, message.hash, message.nowMs⟩ := by
  obtain ⟨earlier, message, later, fields, split, accepts, rfl⟩ := accepted
  rcases List.eq_nil_or_concat later with rfl | ⟨later, last, rfl⟩
  · obtain ⟨rfl, same⟩ := List.append_inj' split rfl
    exact .inr ⟨message, fields, List.singleton_inj.mp same, accepts, rfl⟩
  · rw [List.concat_eq_append, ← List.cons_append, ← List.append_assoc] at split
    exact .inl ⟨earlier, message, later, fields, (List.append_inj' split rfl).1, accepts, rfl⟩

theorem Ledger.start : Ledger [] initial where
  reached := rfl
  accounted := Accounted.initial
  fate place cached accepted := by
    obtain ⟨earlier, message, later, fields, split, -⟩ := accepted
    simp at split
  source place cached here := by cases place <;> exact absurd here List.not_mem_nil
  returned cached here := absurd here List.not_mem_nil

theorem stateAfter_step (reached : stateAfter events = state)
    (step : DeliveryStep state event next) : stateAfter (events ++ [event]) = next := by
  have last := step.2
  rw [← reached] at last
  simpa [stateAfter] using last

/-- What becomes of a message in one more step. -/
theorem Fate.step (fate : Fate events state place cached) (reached : stateAfter events = state)
    (accounted : state.Accounted) (step : DeliveryStep state event next) :
    Fate (events ++ [event]) next place cached := by
  cases fate with
  | waiting here never =>
      have total (count : Nat) (counted : event.returned.countP (·.ticket = cached.ticket) = count) :
          returns (events ++ [event]) cached.ticket = count := by
        rw [returns_append, never, counted, Nat.zero_add]
      by_cases stays : cached ∈ next.messages place
      · exact .waiting stays (total 0 (accounted.stays step here stays))
      · have gone := accounted.gone step here stays
        have left : cached ∉ (stateAfter (events ++ [event])).messages place := by
          rwa [stateAfter_step reached step]
        rcases leaves step here stays with fetches | drops
        · exact .fetched rfl (reached ▸ here) left fetches
            (total 1 (accounted.fetched step fetches)) gone
        · refine .dropped rfl (reached ▸ here) left (reached ▸ drops) (total 0 ?_) gone
          cases drops <;> rfl
  | @fetched earlier exit later split here left fetches once gone =>
      have longer : events ++ [event] = earlier ++ exit :: (later ++ [event]) := by simp [split]
      have total : returns (events ++ [event]) cached.ticket = 1 := by
        rw [returns_append, once, gone.unreturned step]
      exact .fetched longer here left fetches total (gone.step step)
  | @dropped earlier exit later split here left drops never gone =>
      have longer : events ++ [event] = earlier ++ exit :: (later ++ [event]) := by simp [split]
      have total : returns (events ++ [event]) cached.ticket = 0 := by
        rw [returns_append, never, gone.unreturned step]
      exact .dropped longer here left drops total (gone.step step)

/-- A ticket that is yet to be given has not been returned. -/
theorem Ledger.unreturned (ledger : Ledger events state) {ticket : Nat}
    (new : state.tickets ≤ ticket) : returns events ticket = 0 := by
  rw [returns, List.countP_eq_zero]
  intro cached here
  simp only [decide_eq_true_eq]
  rintro rfl
  obtain ⟨place, accepted⟩ := ledger.returned cached here
  have given : cached.ticket < state.tickets := by
    cases ledger.fate place cached accepted with
    | waiting here => exact ledger.accounted.below here
    | fetched _ _ _ _ _ gone => exact gone.1
    | dropped _ _ _ _ _ gone => exact gone.1
  exact absurd new (Nat.not_le.mpr given)

theorem Ledger.step (ledger : Ledger events state) (step : DeliveryStep state event next) :
    Ledger (events ++ [event]) next where
  reached := stateAfter_step ledger.reached step
  accounted := ledger.accounted.step step
  fate place cached accepted := by
    rcases accepted.before_or_last with before | ⟨message, fields, rfl, accepts, rfl⟩
    · exact (ledger.fate place cached before).step ledger.reached ledger.accounted step
    · rw [ledger.reached] at accepts ⊢
      have here := accepts.mem_messages
      obtain ⟨-, rfl⟩ := step
      refine .waiting here ?_
      rw [returns_append, ledger.unreturned le_rfl]
      rfl
  source place cached here := by
    rcases mem_before step here with before | ⟨message, fields, rfl, accepts, rfl⟩
    · exact (ledger.source place cached before).later event
    · rw [← ledger.reached] at accepts ⊢
      exact ⟨events, message, [], fields, rfl, accepts, rfl⟩
  returned cached here := by
    rw [returnedBy, List.flatMap_append, List.mem_append] at here
    rcases here with before | last
    · obtain ⟨place, accepted⟩ := ledger.returned cached before
      exact ⟨place, accepted.later event⟩
    · rcases returned_of_step step with nothing | ⟨place, all, -⟩
      · simp [nothing] at last
      · simp only [List.flatMap_singleton, all] at last
        exact ⟨place, (ledger.source place cached last).later event⟩

theorem Ledger.of_run (run : Steps DeliveryStep initial events state) : Ledger events state := by
  induction run with
  | refl => exact .start
  | snoc _ last ih => exact ih.step last

/-- What holds of the cache after a run: the caps; that what is cached is well-formed, belongs to
its swap and is tracked; that every message that was accepted waits in its place, or was fetched
once, or dropped, and nothing else is returned; and that the next fetch returns what waits. -/
structure Kept (events : List DeliveryEvent) (state : DeliveryState) : Prop where
  offers_le : state.offers.length ≤ kMaxCachedOffers
  maker_le : ∀ address, makerCount state.offers address ≤ kMaxCachedOffersPerMaker
  wellFormed : ∀ cached ∈ state.offers, swapDeliveryOfferIsWellFormed cached.fields
  tracked_le : state.swapSubscriptions.length ≤ kMaxTrackedSwaps
  tracked : ∀ hashlock, state.swapEvents hashlock ≠ none → state.Tracked hashlock
  events_le : ∀ hashlock, (state.bucket hashlock).length ≤ kMaxCachedSwapEventsPerSwap
  agreed : ∀ hashlock, ∀ cached ∈ state.bucket hashlock,
    cached.fields "hashlock" = some (.string hashlock)
  fate : ∀ place cached, Accepted events place cached → Fate events state place cached
  returned : ∀ cached ∈ returnedBy events, ∃ place, Accepted events place cached
  offers_fetched : ∀ cached ∈ state.messages .offers, cached ∈ state.fetchOffers.1
  events_fetched : ∀ hashlock, ∀ cached ∈ state.messages (.events hashlock),
    ∃ answer, (state.fetchSwapEvents hashlock).1 = .ok answer ∧ answer.hashlock = hashlock ∧
      cached ∈ answer.events

theorem fetchSwapEvents_found {hashlockHex hashlock : String} {waiting : List Cached}
    (canonical : canonicalHashlockHex hashlockHex = some hashlock)
    (found : state.swapEvents hashlock = some waiting) :
    state.fetchSwapEvents hashlockHex = (.ok ⟨hashlock, state.Tracked hashlock, waiting⟩,
      { state with swapEvents := Function.update state.swapEvents hashlock (some []) }) := by
  simp only [fetchSwapEvents, canonical, found]

/-- A fetch of events leaves the offers alone. -/
theorem offers_fetchSwapEvents (state : DeliveryState) (hashlockHex : String) :
    (state.fetchSwapEvents hashlockHex).2.offers = state.offers := by
  unfold fetchSwapEvents
  repeat' split
  all_goals rfl

theorem EventsBounded.fetched (bounded : state.EventsBounded) {hashlock : String} {cached : Cached}
    (here : cached ∈ state.messages (.events hashlock)) :
    ∃ answer, (state.fetchSwapEvents hashlock).1 = .ok answer ∧ answer.hashlock = hashlock ∧
      cached ∈ answer.events := by
  cases found : state.swapEvents hashlock with
  | none => simp [messages, bucket, found] at here
  | some events =>
      have canonical := bounded.canonical hashlock (by simp [found])
      refine ⟨⟨hashlock, state.Tracked hashlock, events⟩, ?_, rfl, ?_⟩
      · rw [fetchSwapEvents_found canonical found]
      · simpa [messages, bucket, found] using here

/-- In a run of tame steps the cache keeps its bounds, and every accepted message is fetched
once unless a cap evicts it or its swap is unsubscribed. -/
theorem kept_of_tame {events : List DeliveryEvent} (run : Steps TameStep initial events state) :
    Kept events state := by
  have offers := run.invariant OffersBounded (fun bounded last => bounded.step last.2)
    ⟨Nat.zero_le _, fun _ member => absurd member List.not_mem_nil⟩
  have subscriptions := run.invariant SubscriptionsBounded (fun bounded last => bounded.step last.2)
    ⟨Nat.zero_le _, fun _ calling => absurd calling (Option.some_ne_none _).symm⟩
  have bounded := run.invariant EventsBounded (fun bounded last => bounded.step last.2)
    ⟨fun _ some => absurd rfl some, fun _ => Nat.zero_le _,
      fun _ _ member => absurd member List.not_mem_nil⟩
  have shared := run.invariant Shared Shared.step fun _ => Nat.zero_le _
  have bucketed := run.invariant Bucketed Bucketed.step fun _ some => absurd rfl some
  have ledger := Ledger.of_run (run.mono fun (step : TameStep _ _ _) => step.2)
  exact
    { offers_le := offers.length_le
      maker_le := shared
      wellFormed := offers.wellFormed
      tracked_le := subscriptions.length_le
      tracked := bucketed
      events_le := bounded.length_le
      agreed := bounded.agreed
      fate := ledger.fate
      returned := ledger.returned
      offers_fetched := fun _ here => here
      events_fetched := fun _ _ here => bounded.fetched here }

/-- A fetch may come at any time. -/
theorem tame_fetchSwapEvents (state : DeliveryState) (hashlockHex : String) :
    TameStep state (.fetchSwapEvents hashlockHex (state.fetchSwapEvents hashlockHex).1)
      (state.fetchSwapEvents hashlockHex).2 := ⟨trivial, rfl, rfl⟩

theorem tame_fetchOffers (state : DeliveryState) :
    TameStep state (.fetchOffers state.fetchOffers.1) state.fetchOffers.2 := ⟨trivial, rfl, rfl⟩

/-- Messages may come at any time. -/
theorem steps_messages (messages : List Message) (state : DeliveryState) :
    Steps DeliveryStep state (messages.map .messageReceived)
      (messages.foldl messageReceived state) := by
  induction messages generalizing state with
  | nil => exact .refl
  | cons message messages ih => exact .cons ⟨trivial, rfl⟩ (ih _)

end DeliveryState

/-- Thirty-two bytes. -/
def testHash : String := String.ofList (List.replicate 64 'a')

/-- An offer of a maker, in a message. -/
def testOffer (maker : String) : Message where
  hash := "h"
  contentTopic := kOffersTopic
  object := some fun key =>
    (List.lookup key
      [("lez_amount", "150"), ("eth_amount", "2"), ("maker_eth_address", maker),
        ("maker_lez_account", "m"), ("lez_timelock", "1800"), ("eth_timelock", "900"),
        ("lez_htlc_program_id", testHash),
        ("eth_htlc_address", String.ofList (List.replicate 40 'b'))]).map .string
  nowMs := 0

/-- A swap event, in a message. -/
def testEvent : Message where
  hash := "h"
  contentTopic := "/atomic-swaps/1/swap-" ++ testHash ++ "/json"
  object := some fun key =>
    (List.lookup key
      [("hashlock", testHash), ("eth_swap_id", "1"), ("taker_lez_account", "t"),
        ("taker_eth_address", "e")]).map .string
  nowMs := 0

/-- Eight offers of an address and a ninth that spells it in another way. -/
def testSpellings : List Message :=
  List.replicate 8 (testOffer (String.ofList (List.replicate 40 'c'))) ++
    [testOffer (String.ofList ('0' :: 'x' :: List.replicate 40 'c'))]

theorem test_canonical : canonicalHashlockHex testHash = some testHash := by
  decide +kernel

theorem test_topic : testEvent.contentTopic ≠ kOffersTopic := by
  intro same
  have long : testHash.length = 64 := String.length_ofList.trans List.length_replicate
  have lengths : ("/atomic-swaps/1/swap-".length + testHash.length) + "/json".length =
      kOffersTopic.length := by
    rw [← same, ← String.length_append, ← String.length_append, testEvent]
  rw [long] at lengths
  exact absurd lengths (by decide +kernel)

theorem test_accept : ∃ accept, acceptOf testEvent = some (testHash, accept) := by
  have hashlock : (acceptOf testEvent).map Prod.fst = some testHash := by
    rw [acceptOf, if_neg test_topic]
    decide +kernel
  obtain ⟨⟨_, accept⟩, brought, rfl⟩ := Option.map_eq_some_iff.mp hashlock
  exact ⟨accept, brought⟩

namespace DeliveryState

/-- The cache while a subscription is asked for, with what is put in it. -/
def testAsking (offers : List Cached) (events : Option (List Cached)) (tickets : Nat) :
    DeliveryState where
  started := true
  offers
  swapEvents := Function.update (fun _ => none) testHash events
  swapSubscriptions := [(testHash, false)]
  operation := some (.subscribe testHash)
  tickets

theorem test_asking : initial.after (.subscribeSwap testHash) = testAsking [] none 0 := by
  simp [after, subscribeSwap, test_canonical, initial, testAsking, setSubscription, Tracked,
    kMaxTrackedSwaps]

/-- The event comes. -/
theorem test_come : ∃ event, event.ticket = 0 ∧
    (testAsking [] none 0).messageReceived testEvent = testAsking [] (some [event]) 1 := by
  obtain ⟨accept, brought⟩ := test_accept
  refine ⟨⟨0, accept, "h", 0⟩, rfl, ?_⟩
  rw [messageReceived_event test_topic brought]
  simp [cacheEvent, testAsking, Tracked, makeRoom, bucket, kMaxCachedSwapEventsPerSwap, testEvent]

/-- The cap counts the spellings of an address apart, and a refused subscription leaves a bucket
that was filled while it was asked for. -/
theorem cache_gaps :
    (∃ events state address, Steps DeliveryStep initial events state ∧
      kMaxCachedOffersPerMaker < makerCount state.offers address) ∧
    ∃ events state hashlock, Steps DeliveryStep initial events state ∧
      state.swapEvents hashlock ≠ none ∧ ¬ state.Tracked hashlock := by
  obtain ⟨event, -, come⟩ := test_come
  refine ⟨⟨_, _, List.replicate 40 'c', steps_messages testSpellings initial, ?_⟩,
    [.subscribeSwap testHash, .messageReceived testEvent, .answered false], _, testHash,
    .cons ⟨rfl, test_asking⟩ (.cons ⟨trivial, come⟩ (.single ⟨?_, rfl⟩)), ?_, ?_⟩
  · decide +kernel
  · exact Option.some_ne_none _
  · simp [after, answered, testAsking]
  · simp [after, answered, testAsking, Tracked, eraseSubscription]

/-- The offer of a maker that is alone. -/
def testFirst : Message := testOffer (String.ofList (List.replicate 40 'c'))

/-- The offer comes as well. -/
theorem test_offered (events : Option (List Cached)) : ∃ offer, offer.ticket = 1 ∧
    (testAsking [] events 1).messageReceived testFirst = testAsking [offer] events 2 := by
  have some : (offerOf testFirst).isSome := by decide +kernel
  obtain ⟨offer, brought⟩ := Option.isSome_iff_exists.mp some
  refine ⟨⟨1, offer, "h", 0⟩, rfl, ?_⟩
  have room : roomForOffer offer [] = [] :=
    List.eq_nil_of_sublist_nil (roomForOffer_sublist offer [])
  rw [messageReceived_offer brought]
  simp [cacheOffer, testAsking, room, testFirst, testOffer]

/-- The cache when a swap is subscribed, and its event and an offer come before the answer. -/
def testWaiting : DeliveryState :=
  (((initial.after (.subscribeSwap testHash)).after (.messageReceived testEvent)).after
    (.messageReceived testFirst)).after (.answered true)

/-- These events, and two fetches with their answers. -/
def testRun : List DeliveryEvent :=
  [.subscribeSwap testHash, .messageReceived testEvent, .messageReceived testFirst, .answered true,
    .fetchSwapEvents testHash (testWaiting.fetchSwapEvents testHash).1,
    .fetchOffers (testWaiting.fetchSwapEvents testHash).2.fetchOffers.1]

/-- The event and the offer are returned, once. -/
theorem kept_of_tame_subscribed :
    Kept testRun (testWaiting.fetchSwapEvents testHash).2.fetchOffers.2 ∧
      (returnedBy testRun).map (·.ticket) = [0, 1] := by
  obtain ⟨event, first, come⟩ := test_come
  obtain ⟨offer, second, offered⟩ := test_offered (some [event])
  have waiting : testWaiting = (testAsking [offer] (some [event]) 2).answered true := by
    rw [testWaiting, test_asking]
    simp only [after, come, offered]
  have apart := offerOf_other test_topic
  have asked : TameStep initial (.subscribeSwap testHash) (testAsking [] none 0) :=
    ⟨trivial, rfl, test_asking⟩
  have came : TameStep (testAsking [] none 0) (.messageReceived testEvent)
      (testAsking [] (some [event]) 1) :=
    ⟨fun offer brought => absurd (apart.symm.trans brought) (Option.some_ne_none offer).symm,
      trivial, come⟩
  have alone : (testAsking [] (some [event]) 1).Tame (.messageReceived testFirst) := by
    rintro offer - ⟨crowded, -⟩
    simp [testAsking, makerCount, makeRoom, kMaxCachedOffersPerMaker] at crowded
  have came' : TameStep (testAsking [] (some [event]) 1) (.messageReceived testFirst)
      (testAsking [offer] (some [event]) 2) := ⟨alone, trivial, offered⟩
  have answered : TameStep (testAsking [offer] (some [event]) 2) (.answered true) testWaiting :=
    ⟨trivial, Option.some_ne_none _, waiting.symm⟩
  have run : Steps TameStep initial testRun
      (testWaiting.fetchSwapEvents testHash).2.fetchOffers.2 :=
    .cons asked (.cons came (.cons came' (.cons answered
      (.cons (tame_fetchSwapEvents _ _) (.single (tame_fetchOffers _))))))
  refine ⟨kept_of_tame run, ?_⟩
  have found : testWaiting.swapEvents testHash = some [event] := by
    simp [waiting, DeliveryState.answered, testAsking]
  have offers : testWaiting.offers = [offer] := by
    rw [waiting]
    rfl
  have events := congrArg Prod.fst (fetchSwapEvents_found test_canonical found)
  have last : (testWaiting.fetchSwapEvents testHash).2.fetchOffers.1 = [offer] := by
    rw [fetchOffers, offers_fetchSwapEvents, offers]
  rw [returnedBy, testRun, events, last]
  simp [DeliveryEvent.returned, first, second]

end DeliveryState
end AtomicSwaps.Module
