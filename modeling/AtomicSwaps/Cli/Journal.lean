import AtomicSwaps.Cli.StateStore

/-!
# The journal over a run

Calls of the store in any order, each write ending in any way, and a new process at any
point. What a call hands to `persist` is the same however the write ends; how it ends
only decides which of memory and file take it over. What memory has in flight is always
on disk, and a hashlock stays in one of the two lists as long as no quarantined one is
recorded again.
-/

namespace AtomicSwaps.Cli

namespace BotState

/-- A hashlock with an in-flight entry. -/
def InFlight (state : BotState) (hashlock : String) : Prop :=
  hashlock ∈ state.inFlight.map (·.hashlock)

/-- A hashlock in quarantine. -/
def Quarantined (state : BotState) (hashlock : String) : Prop :=
  hashlock ∈ state.quarantined.map (·.hashlock)

/-- A hashlock the journal knows. -/
def Knows (state : BotState) (hashlock : String) : Prop :=
  state.InFlight hashlock ∨ state.Quarantined hashlock

instance (state : BotState) (hashlock : String) : Decidable (state.InFlight hashlock) :=
  inferInstanceAs (Decidable (_ ∈ _))

instance (state : BotState) (hashlock : String) : Decidable (state.Quarantined hashlock) :=
  inferInstanceAs (Decidable (_ ∈ _))

instance (state : BotState) (hashlock : String) : Decidable (state.Knows hashlock) :=
  inferInstanceAs (Decidable (_ ∨ _))

/-- An entry, whatever its stage has become. -/
def Holds (state : BotState) (swap : InFlightSwap) : Prop :=
  ∃ stage, { swap with stage } ∈ state.inFlight

/-- A hashlock occurs at most once in either list, and never in both. -/
structure Separate (state : BotState) : Prop where
  inFlight : (state.inFlight.map (·.hashlock)).Nodup
  quarantined : (state.quarantined.map (·.hashlock)).Nodup
  apart : ∀ hashlock, state.InFlight hashlock → ¬ state.Quarantined hashlock

variable {state : BotState} {hashlock other : String} {swap : InFlightSwap}

theorem contains_iff : state.contains hashlock = true ↔ state.InFlight hashlock := by
  simp [contains, InFlight]

theorem Holds.inFlight (held : state.Holds swap) : state.InFlight swap.hashlock := by
  obtain ⟨stage, member⟩ := held
  exact List.mem_map.mpr ⟨_, member, rfl⟩

@[simp] theorem inFlight_retainOthers :
    (state.retainOthers hashlock).InFlight other ↔ state.InFlight other ∧ other ≠ hashlock := by
  simp only [InFlight, retainOthers, List.mem_map, List.mem_filter, decide_eq_true_eq]
  constructor
  · rintro ⟨swap, ⟨member, kept⟩, rfl⟩
    exact ⟨⟨swap, member, rfl⟩, kept⟩
  · rintro ⟨⟨swap, member, rfl⟩, kept⟩
    exact ⟨swap, ⟨member, kept⟩, rfl⟩

@[simp] theorem hashlocks_funded :
    (state.funded hashlock).inFlight.map (·.hashlock) = state.inFlight.map (·.hashlock) := by
  simp only [funded, List.map_map]
  apply List.map_congr_left
  intro swap _
  simp only [Function.comp]
  split <;> rfl

end BotState

/-- A call of the store, or a new process that loads it. A process that dies during a
call is one whose write failed and which is followed by a new one. -/
inductive StoreEvent where
  | record (swap : InFlightSwap) (result : PersistResult)
  | markFunded (hashlock : String) (result : PersistResult)
  | remove (hashlock : String) (result : PersistResult)
  | quarantine (hashlock reason : String) (now : U64) (result : PersistResult)
  | load

namespace StoreEvent

/-- What becomes of the store. -/
def apply : StoreEvent → StateStore → StateStore
  | .record swap result, store => (store.record swap result).2
  | .markFunded hashlock result, store => store.markFunded hashlock result
  | .remove hashlock result, store => store.remove hashlock result
  | .quarantine hashlock reason now result, store => store.quarantine hashlock reason now result
  | .load, store => store.load

/-- The entry in quarantine that a call of `quarantine` adds. -/
def quarantinedSwap (state : BotState) (hashlock reason : String) (now : U64) : QuarantinedSwap :=
  { hashlock
    swapId := ((state.inFlight.find? (·.hashlock = hashlock)).map (·.swapId)).getD ""
    reason
    quarantinedAt := now }

/-- What a call hands to `persist`. -/
def target : StoreEvent → BotState → BotState
  | .record swap _, state => { state with inFlight := state.inFlight ++ [swap] }
  | .markFunded hashlock _, state => state.funded hashlock
  | .remove hashlock _, state => state.retainOthers hashlock
  | .quarantine hashlock reason now _, state =>
      if state.Quarantined hashlock then state.retainOthers hashlock
      else { state.retainOthers hashlock with
        quarantined := state.quarantined ++ [quarantinedSwap state hashlock reason now] }
  | .load, state => state

/-- Which of memory and file take over what a call hands to `persist`. -/
inductive Outcome (event : StoreEvent) (store next : StateStore) : Prop where
  | saved (state : next.state = event.target store.state)
      (file : next.file = event.target store.state)
      (fresh : ∀ swap result, event = .record swap result →
        result = .ok ∧ ¬ store.state.InFlight swap.hashlock)
  /-- The write failed, which everything but `record` only logs. -/
  | unsaved (logged : ∀ swap result, event ≠ .record swap result)
      (state : next.state = event.target store.state) (file : next.file = store.file)
  | kept (state : next.state = store.state) (file : next.file = store.file)
  /-- `record` reports an error although the file has the new entry. -/
  | strayed {swap : InFlightSwap} {result : PersistResult} (recorded : event = .record swap result)
      (fresh : ¬ store.state.InFlight swap.hashlock) (renamed : ∀ error, result ≠ .beforeRename error)
      (state : next.state = store.state) (file : next.file = event.target store.state)
  | loaded (load : event = .load) (state : next.state = store.file) (file : next.file = store.file)

end StoreEvent

namespace StateStore

/-- A write replaces the file or leaves it as it is. -/
theorem persist_cases (store : StateStore) (result : PersistResult) :
    (store.persist result).state = store.state ∧
      ((store.persist result).file = store.state ∨ (store.persist result).file = store.file) := by
  cases result with
  | ok => exact ⟨rfl, .inl rfl⟩
  | beforeRename error => exact ⟨rfl, .inr rfl⟩
  | afterRename error => exact ⟨rfl, .inl rfl⟩

/-- What `record` returns and leaves behind. -/
theorem record_eq (store : StateStore) (swap : InFlightSwap) (result : PersistResult) :
    store.record swap result =
      let pushed := { store.state with inFlight := store.state.inFlight ++ [swap] }
      let failed := fun error =>
        s!"failed to durably journal in-flight swap to {store.path}: {error}"
      if store.state.InFlight swap.hashlock then (.ok (), store)
      else match result with
        | .ok => (.ok (), { store with state := pushed, file := pushed })
        | .beforeRename error => (.error (failed error), store)
        | .afterRename error => (.error (failed error), { store with file := pushed }) := by
  by_cases known : store.state.InFlight swap.hashlock
  · simp [record, BotState.contains_iff.mpr known, known]
  · have fresh : store.state.contains swap.hashlock = false := by
      simpa [← BotState.contains_iff] using known
    cases result with
    | ok => simp [record, fresh, known, persist, PersistResult.error?]
    | beforeRename error => simp [record, fresh, known, persist, PersistResult.error?]
    | afterRename error => simp [record, fresh, known, persist, PersistResult.error?]

/-- How a call that only logs a failed write ends. -/
theorem outcome_of_persist {event : StoreEvent} {store : StateStore} {result : PersistResult}
    (logged : ∀ swap result, event ≠ .record swap result) :
    event.Outcome store ({ store with state := event.target store.state }.persist result) := by
  obtain ⟨state, saved | unsaved⟩ :=
    persist_cases { store with state := event.target store.state } result
  · exact .saved state saved fun swap result same => absurd same (logged swap result)
  · exact .unsaved logged state unsaved

/-- How a call ends. -/
theorem apply_outcome (event : StoreEvent) (store : StateStore) :
    event.Outcome store (event.apply store) := by
  cases event with
  | record swap result =>
      have same := record_eq store swap result
      split at same
      · exact .kept (congrArg (·.2.state) same) (congrArg (·.2.file) same)
      · rename_i fresh
        cases result with
        | ok =>
            refine .saved (congrArg (·.2.state) same) (congrArg (·.2.file) same) ?_
            rintro _ _ ⟨⟩
            exact ⟨rfl, fresh⟩
        | beforeRename error => exact .kept (congrArg (·.2.state) same) (congrArg (·.2.file) same)
        | afterRename error =>
            exact .strayed rfl fresh (by simp) (congrArg (·.2.state) same)
              (congrArg (·.2.file) same)
  | markFunded hashlock result =>
      simp only [StoreEvent.apply, markFunded]
      split
      · exact outcome_of_persist (by simp)
      · exact .kept rfl rfl
  | remove hashlock result =>
      simp only [StoreEvent.apply, remove]
      split
      · exact outcome_of_persist (by simp)
      · exact .kept rfl rfl
  | quarantine hashlock reason now result =>
      have same : (StoreEvent.quarantine hashlock reason now result).apply store =
          { store with
            state := StoreEvent.target (.quarantine hashlock reason now result)
              store.state }.persist result := by
        by_cases known : store.state.Quarantined hashlock
        · have known' : store.state.quarantined.any (·.hashlock = hashlock) = true := by
            simpa [BotState.Quarantined] using known
          simp [StoreEvent.apply, quarantine, StoreEvent.target, known, known',
            BotState.retainOthers]
        · have known' : store.state.quarantined.any (·.hashlock = hashlock) = false := by
            simpa [BotState.Quarantined] using known
          simp [StoreEvent.apply, quarantine, StoreEvent.target, known, known',
            BotState.retainOthers, StoreEvent.quarantinedSwap]
      rw [same]
      exact outcome_of_persist (by simp)
  | load => exact .loaded rfl rfl rfl

/-- The store after a run of calls and new processes. -/
def after (store : StateStore) (events : List StoreEvent) : StateStore :=
  events.foldl (fun store event => event.apply store) store

@[simp] theorem after_nil (store : StateStore) : store.after [] = store := rfl

@[simp] theorem after_concat (store : StateStore) (events : List StoreEvent)
    (event : StoreEvent) : store.after (events ++ [event]) = event.apply (store.after events) := by
  simp [after]

@[simp] theorem after_append (store : StateStore) (earlier later : List StoreEvent) :
    store.after (earlier ++ later) = (store.after earlier).after later := by
  simp [after]

end StateStore

section Durability

variable {state : BotState} {event : StoreEvent} {hashlock : String} {swap : InFlightSwap}

/-- The events that may take a hashlock out of the in-flight list. -/
def StoreEvent.Drops (hashlock : String) : StoreEvent → Prop
  | .remove other _ | .quarantine other _ _ _ => other = hashlock
  | .record .. | .markFunded .. | .load => False

/-- The write of a call gets as far as the rename. -/
def PersistResult.Renames : PersistResult → Prop
  | .ok | .afterRename _ => True
  | .beforeRename _ => False

/-- The calls that replace the file, and a new process, which reads it. -/
def StoreEvent.Renews (state : BotState) : StoreEvent → Prop
  | .record swap result => ¬ state.InFlight swap.hashlock ∧ result.Renames
  | .markFunded hashlock result =>
      (∃ swap ∈ state.inFlight, swap.hashlock = hashlock ∧ swap.stage ≠ .Funded) ∧ result.Renames
  | .remove hashlock result => state.InFlight hashlock ∧ result.Renames
  | .quarantine _ _ _ result => result.Renames
  | .load => True

/-- Nothing but `record` adds to what is in flight. -/
theorem StoreEvent.inFlight_of_target (added : ∀ swap result, event ≠ .record swap result)
    (inFlight : (event.target state).InFlight hashlock) : state.InFlight hashlock := by
  cases event with
  | record swap result => exact absurd rfl (added swap result)
  | markFunded other result =>
      simpa only [target, BotState.InFlight, BotState.hashlocks_funded] using inFlight
  | remove other result => exact (BotState.inFlight_retainOthers.mp inFlight).1
  | quarantine other reason now result =>
      simp only [target] at inFlight
      split at inFlight
      · exact (BotState.inFlight_retainOthers.mp inFlight).1
      · exact (BotState.inFlight_retainOthers.mp inFlight).1
  | load => exact inFlight

/-- Nothing but `quarantine` adds to what is quarantined. -/
theorem StoreEvent.quarantined_of_target
    (quarantined : (event.target state).Quarantined hashlock) : state.Quarantined hashlock ∨
      ∃ reason now result, event = .quarantine hashlock reason now result := by
  cases event with
  | quarantine other reason now result =>
      simp only [target] at quarantined
      split at quarantined
      · exact .inl quarantined
      · simp only [BotState.Quarantined, List.map_append, List.mem_append, List.map_cons,
          List.map_nil, List.mem_singleton, quarantinedSwap] at quarantined
        rcases quarantined with old | rfl
        · exact .inl old
        · exact .inr ⟨reason, now, result, rfl⟩
  | record | markFunded | remove | load => exact .inl quarantined

/-- `record` keeps what is in flight. -/
theorem StoreEvent.inFlight_target_record {result : PersistResult}
    (inFlight : state.InFlight hashlock) :
    ((StoreEvent.record swap result).target state).InFlight hashlock := by
  simp only [target, BotState.InFlight, List.map_append, List.mem_append]
  exact .inl inFlight

/-- An entry stays, up to its stage, unless its hashlock is dropped. -/
theorem StoreEvent.holds_target (held : state.Holds swap) (kept : ¬ event.Drops swap.hashlock) :
    (event.target state).Holds swap := by
  obtain ⟨stage, member⟩ := held
  cases event with
  | record other result => exact ⟨stage, List.mem_append_left _ member⟩
  | markFunded other result =>
      by_cases same : swap.hashlock = other
      · refine ⟨.Funded, List.mem_map.mpr ⟨_, member, ?_⟩⟩
        simp [same]
      · refine ⟨stage, List.mem_map.mpr ⟨_, member, ?_⟩⟩
        simp [same]
  | remove other result =>
      have apart : swap.hashlock ≠ other := fun same => kept same.symm
      exact ⟨stage, List.mem_filter.mpr ⟨member, by simpa using apart⟩⟩
  | quarantine other reason now result =>
      have apart : swap.hashlock ≠ other := fun same => kept same.symm
      have retained : (state.retainOthers other).Holds swap :=
        ⟨stage, List.mem_filter.mpr ⟨member, by simpa using apart⟩⟩
      simp only [target]
      split
      · exact retained
      · exact retained
  | load => exact ⟨stage, member⟩

/-- A hashlock stays in flight unless it is dropped. -/
theorem StoreEvent.inFlight_target (inFlight : state.InFlight hashlock)
    (kept : ¬ event.Drops hashlock) : (event.target state).InFlight hashlock := by
  obtain ⟨swap, member, rfl⟩ := List.mem_map.mp inFlight
  exact (StoreEvent.holds_target ⟨swap.stage, member⟩ kept).inFlight

/-- A store whose process has just loaded its file. -/
def StateStore.opened (path : String) (file : BotState) : StateStore := ⟨path, file, file⟩

namespace StateStore

variable {store : StateStore}

/-- What memory has in flight is on disk as well, after every call. -/
theorem inFlight_apply (covered : ∀ hashlock, store.state.InFlight hashlock →
    store.file.InFlight hashlock) (inFlight : (event.apply store).state.InFlight hashlock) :
    (event.apply store).file.InFlight hashlock := by
  cases store.apply_outcome event with
  | saved state file fresh =>
      rw [state] at inFlight
      rwa [file]
  | unsaved logged state file =>
      rw [state] at inFlight
      rw [file]
      exact covered hashlock (StoreEvent.inFlight_of_target logged inFlight)
  | kept state file =>
      rw [state] at inFlight
      rw [file]
      exact covered hashlock inFlight
  | strayed recorded fresh renamed state file =>
      rw [state] at inFlight
      rw [file, recorded]
      exact StoreEvent.inFlight_target_record inFlight
  | loaded load state file =>
      rw [state] at inFlight
      rwa [file]

/-- What memory has in flight is on disk as well. -/
theorem inFlight_after {path : String} {file : BotState} (events : List StoreEvent) :
    ∀ hashlock, ((opened path file).after events).state.InFlight hashlock →
      ((opened path file).after events).file.InFlight hashlock := by
  induction events using List.reverseRecOn with
  | nil => exact fun hashlock inFlight => inFlight
  | append_singleton events event ih =>
      intro hashlock inFlight
      rw [after_concat] at inFlight ⊢
      exact inFlight_apply ih inFlight

/-- A write that gets as far as the rename leaves the file like memory. -/
theorem persist_renamed {result : PersistResult} (renames : result.Renames) :
    (store.persist result).file = (store.persist result).state := by
  cases result with
  | ok => rfl
  | beforeRename error => exact renames.elim
  | afterRename error => rfl

/-- A hashlock in flight is one that `remove` finds. -/
theorem length_retainOthers (inFlight : state.InFlight hashlock) :
    (state.retainOthers hashlock).inFlight.length ≠ state.inFlight.length := by
  obtain ⟨swap, member, same⟩ := List.mem_map.mp inFlight
  apply Nat.ne_of_lt
  apply List.length_filter_lt_length_iff_exists.mpr
  exact ⟨swap, member, by simp [same]⟩

/-- After a write that replaces the file, and in a new process, memory knows nothing that is
not on disk. -/
theorem knows_renewed (renews : event.Renews store.state)
    (known : (event.apply store).state.Knows hashlock) : (event.apply store).file.Knows hashlock := by
  cases event with
  | record swap result =>
      obtain ⟨fresh, renames⟩ := renews
      simp only [StoreEvent.apply, record_eq, if_neg fresh] at known ⊢
      cases result with
      | ok => exact known
      | beforeRename error => exact renames.elim
      | afterRename error =>
          exact known.imp_left (@StoreEvent.inFlight_target_record store.state hashlock swap .ok)
  | markFunded other result =>
      obtain ⟨unfunded, renames⟩ := renews
      simp only [StoreEvent.apply, markFunded] at known ⊢
      rw [if_pos (by simpa using unfunded)] at known ⊢
      rwa [persist_renamed renames]
  | remove other result =>
      obtain ⟨inFlight, renames⟩ := renews
      simp only [StoreEvent.apply, remove] at known ⊢
      rw [if_pos (length_retainOthers inFlight)] at known ⊢
      rwa [persist_renamed renames]
  | quarantine other reason now result =>
      simp only [StoreEvent.apply, quarantine] at known ⊢
      rwa [persist_renamed renews]
  | load => exact known

/-- What memory knows after a call is known on disk, or the file is as it was: memory knew it
before, or it has just been quarantined. -/
theorem knows_apply (known : (event.apply store).state.Knows hashlock) :
    (event.apply store).file.Knows hashlock ∨ (event.apply store).file = store.file ∧
      (store.state.Knows hashlock ∨
        ∃ reason now result, event = .quarantine hashlock reason now result) := by
  cases store.apply_outcome event with
  | saved state file fresh =>
      rw [state] at known
      exact .inl (file ▸ known)
  | unsaved logged state file =>
      rw [state] at known
      refine .inr ⟨file, ?_⟩
      rcases known with inFlight | quarantined
      · exact .inl (.inl (StoreEvent.inFlight_of_target logged inFlight))
      · exact (StoreEvent.quarantined_of_target quarantined).imp_left .inr
  | kept state file => exact .inr ⟨file, .inl (state ▸ known)⟩
  | strayed recorded fresh renamed state file =>
      rw [state] at known
      rw [file, recorded]
      exact .inl (known.imp_left StoreEvent.inFlight_target_record)
  | loaded load state file =>
      rw [state] at known
      exact .inl (file ▸ known)

/-- A hashlock that was quarantined when memory did not know it, by a call whose write failed
before the rename, while nothing has replaced or read the file since. -/
def Estranged (store : StateStore) (events : List StoreEvent) (hashlock : String) : Prop :=
  ∃ earlier reason now error later,
    events = earlier ++ .quarantine hashlock reason now (.beforeRename error) :: later ∧
      ¬ (store.after earlier).state.Knows hashlock ∧
        ∀ between event rest, later = between ++ event :: rest →
          ¬ event.Renews (store.after (earlier ++
            .quarantine hashlock reason now (.beforeRename error) :: between)).state

/-- A hashlock stays estranged until the file is replaced or read. -/
theorem Estranged.concat {events : List StoreEvent} (estranged : store.Estranged events hashlock)
    (stays : ¬ event.Renews (store.after events).state) :
    store.Estranged (events ++ [event]) hashlock := by
  obtain ⟨earlier, reason, now, error, later, rfl, unknown, still⟩ := estranged
  refine ⟨earlier, reason, now, error, later ++ [event], by simp, unknown, ?_⟩
  intro between other rest split
  rcases List.eq_nil_or_concat rest with rfl | ⟨init, last, rfl⟩
  · obtain ⟨rfl, same⟩ := List.append_inj' split rfl
    obtain rfl := List.singleton_inj.mp same
    exact stays
  · have shorter : later ++ [event] = (between ++ other :: init) ++ [last] := by simpa using split
    obtain ⟨rfl, -⟩ := List.append_inj' shorter rfl
    exact still between other init rfl

/-- What memory knows is known on disk as well, unless it is estranged. -/
theorem knows_after {path : String} {file : BotState} (events : List StoreEvent)
    (known : ((opened path file).after events).state.Knows hashlock) :
    ((opened path file).after events).file.Knows hashlock ∨
      (opened path file).Estranged events hashlock := by
  induction events using List.reverseRecOn with
  | nil => exact .inl known
  | append_singleton events event ih =>
      rw [after_concat] at known ⊢
      by_cases renews : event.Renews ((opened path file).after events).state
      · exact .inl (knows_renewed renews known)
      by_cases familiar : ((opened path file).after events).state.Knows hashlock
      · rcases knows_apply known with written | ⟨same, -⟩
        · exact .inl written
        · rw [same]
          exact (ih familiar).imp_right fun estranged => estranged.concat renews
      · rcases knows_apply known with written | ⟨-, before | ⟨reason, now, result, rfl⟩⟩
        · exact .inl written
        · exact absurd before familiar
        · -- a write that got as far as the rename would have replaced the file
          cases result with
          | ok => exact absurd trivial renews
          | beforeRename error => exact .inr ⟨events, reason, now, error, [], rfl, familiar, by simp⟩
          | afterRename error => exact absurd trivial renews

/-- What every call keeps in what it hands to `persist` stays in memory and on disk. -/
theorem kept_after {keeps : BotState → Prop} {later : List StoreEvent}
    (target : ∀ event ∈ later, ∀ state, keeps state → keeps (event.target state))
    (held : keeps store.state ∧ keeps store.file) :
    keeps (store.after later).state ∧ keeps (store.after later).file := by
  induction later using List.reverseRecOn with
  | nil => exact held
  | append_singleton later event ih =>
      have before := ih fun event member => target event (List.mem_append_left _ member)
      have written := target event List.mem_concat_self _ before.1
      rw [after_concat]
      cases (store.after later).apply_outcome event with
      | saved state file fresh => exact ⟨state ▸ written, file ▸ written⟩
      | unsaved logged state file => exact ⟨state ▸ written, file ▸ before.2⟩
      | kept state file => exact ⟨state ▸ before.1, file ▸ before.2⟩
      | strayed recorded fresh renamed state file => exact ⟨state ▸ before.1, file ▸ written⟩
      | loaded load state file => exact ⟨state ▸ before.2, file ▸ before.2⟩

/-- A call of `record` that returns `Ok` found an entry of its hashlock, or has written
its own one. -/
theorem record_ok {result : PersistResult} (recorded : (store.record swap result).1 = .ok ()) :
    store.state.InFlight swap.hashlock ∧ (store.record swap result).2 = store ∨
      ¬ store.state.InFlight swap.hashlock ∧ (store.record swap result).2.state.Holds swap ∧
        (store.record swap result).2.file.Holds swap := by
  have same := record_eq store swap result
  split at same
  · rename_i known
    exact .inl ⟨known, congrArg (·.2) same⟩
  · rename_i fresh
    cases result with
    | ok =>
        refine .inr ⟨fresh, ⟨swap.stage, ?_⟩, ⟨swap.stage, ?_⟩⟩
        · simp [same]
        · simp [same]
    | beforeRename error | afterRename error =>
        rw [same] at recorded
        cases recorded

/-- A call of `record` that returns an error leaves memory as it was. -/
theorem record_error {result : PersistResult} {error : String}
    (failed : (store.record swap result).1 = .error error) :
    (store.record swap result).2.state = store.state := by
  have same := record_eq store swap result
  split at same
  · rw [same]
  · cases result with
    | ok =>
        rw [same] at failed
        cases failed
    | beforeRename error | afterRename error => rw [same]

end StateStore

/-- The journal over any run of calls, failed writes and new processes: what `record` has
returned `Ok` for is on disk until it is dropped, whatever memory has in flight is on
disk, whatever it knows is known on disk unless the file is still as it was before it was
quarantined as a stranger, and a `record` that fails leaves memory as it was. -/
theorem journal_durable (path : String) (file : BotState) (events : List StoreEvent) :
    (∀ earlier swap result later, events = earlier ++ .record swap result :: later →
      (((StateStore.opened path file).after earlier).record swap result).1 = .ok () →
      (∀ event ∈ later, ¬ event.Drops swap.hashlock) →
        ((StateStore.opened path file).after events).file.InFlight swap.hashlock ∧
        (¬ ((StateStore.opened path file).after earlier).state.InFlight swap.hashlock →
          ((StateStore.opened path file).after events).file.Holds swap)) ∧
    (∀ hashlock, ((StateStore.opened path file).after events).state.InFlight hashlock →
      ((StateStore.opened path file).after events).file.InFlight hashlock) ∧
    (∀ hashlock, ((StateStore.opened path file).after events).state.Knows hashlock →
      ((StateStore.opened path file).after events).file.Knows hashlock ∨
        (StateStore.opened path file).Estranged events hashlock) ∧
    ∀ swap result error,
      (((StateStore.opened path file).after events).record swap result).1 = .error error →
        (((StateStore.opened path file).after events).record swap result).2.state =
          ((StateStore.opened path file).after events).state := by
  refine ⟨?_, StateStore.inFlight_after events, fun hashlock => StateStore.knows_after events,
    fun swap result error => StateStore.record_error⟩
  rintro earlier swap result later rfl recorded kept
  have covered := @StateStore.inFlight_after path file earlier
  rw [StateStore.after_append]
  change (((StateStore.after _ earlier).record swap result).2.after later).file.InFlight _ ∧
    (_ → (((StateStore.after _ earlier).record swap result).2.after later).file.Holds _)
  -- what `record` found or wrote is in memory and on disk, and stays in both
  rcases StateStore.record_ok recorded with ⟨known, same⟩ | ⟨fresh, written⟩
  · have stays := @StateStore.kept_after _ (fun state => state.InFlight swap.hashlock) later
      (fun event member state inFlight => StoreEvent.inFlight_target inFlight (kept event member))
      ⟨known, covered _ known⟩
    rw [same]
    exact ⟨stays.2, fun unknown => absurd known unknown⟩
  · have stays := @StateStore.kept_after _ (fun state => state.Holds swap) later
      (fun event member state held => StoreEvent.holds_target held (kept event member)) written
    exact ⟨stays.2.inFlight, fun _ => stays.2⟩

/-- A hashlock that was not in flight is quarantined, the write fails: memory knows it,
the disk does not. -/
theorem stranger_lost_on_disk : ¬ ∀ (path : String) (file : BotState) (events : List StoreEvent)
    (hashlock : String), ((StateStore.opened path file).after events).state.Knows hashlock →
      ((StateStore.opened path file).after events).file.Knows hashlock := by
  intro durable
  have known := durable "maker-state.json" ⟨[], []⟩
    [.quarantine "00" "stranded" 0 (.beforeRename "No space left on device")] "00"
    (by decide)
  exact absurd known (by decide)

end Durability

section Separation

variable {state : BotState} {store : StateStore} {event : StoreEvent} {hashlock : String}

/-- What keeps the lists apart: no write puts a quarantined hashlock in flight, and a
process that ends has what it quarantined on disk. -/
def StoreEvent.Heeds (store : StateStore) : StoreEvent → Prop
  | .record _ (.beforeRename _) => True
  | .record swap .ok | .record swap (.afterRename _) => ¬ store.state.Quarantined swap.hashlock
  | .load => ∀ hashlock, store.state.Quarantined hashlock → store.file.Quarantined hashlock
  | .markFunded .. | .remove .. | .quarantine .. => True

/-- Memory and file keep the lists apart. -/
def StateStore.Separate (store : StateStore) : Prop := store.state.Separate ∧ store.file.Separate

/-- Taking a hashlock out keeps the lists apart. -/
theorem BotState.Separate.retainOthers (separate : state.Separate) :
    (state.retainOthers hashlock).Separate where
  inFlight := List.Nodup.sublist (List.Sublist.map _ List.filter_sublist) separate.inFlight
  quarantined := separate.quarantined
  apart := fun other inFlight => separate.apart other (inFlight_retainOthers.mp inFlight).1

/-- Adding a hashlock that is in neither list keeps them apart. -/
theorem BotState.Separate.record {swap : InFlightSwap} (separate : state.Separate)
    (fresh : ¬ state.InFlight swap.hashlock) (free : ¬ state.Quarantined swap.hashlock) :
    BotState.Separate { state with inFlight := state.inFlight ++ [swap] } where
  inFlight := by
    rw [List.map_append, List.map_singleton, ← List.concat_eq_append]
    exact separate.inFlight.concat fresh
  quarantined := separate.quarantined
  apart := by
    intro other inFlight
    rw [InFlight, List.map_append, List.mem_append] at inFlight
    rcases inFlight with old | new
    · exact separate.apart other old
    · rw [List.map_cons, List.map_nil, List.mem_singleton] at new
      exact new ▸ free

/-- What a call hands to `persist` keeps the lists apart, unless it is a `record`. -/
theorem StoreEvent.separate_target (separate : state.Separate)
    (added : ∀ swap result, event ≠ .record swap result) : (event.target state).Separate := by
  cases event with
  | record swap result => exact absurd rfl (added swap result)
  | markFunded other result =>
      refine ⟨?_, separate.quarantined, fun hashlock inFlight => separate.apart hashlock ?_⟩
      · simpa only [target, BotState.hashlocks_funded] using separate.inFlight
      · exact inFlight_of_target added inFlight
  | remove other result => exact separate.retainOthers
  | quarantine other reason now result =>
      simp only [target]
      split
      · exact separate.retainOthers
      · rename_i free
        refine ⟨separate.retainOthers.inFlight, ?_, ?_⟩
        · rw [List.map_append, List.map_singleton, ← List.concat_eq_append]
          exact separate.quarantined.concat free
        · intro hashlock inFlight quarantined
          have retained := BotState.inFlight_retainOthers.mp inFlight
          rw [BotState.Quarantined, List.map_append, List.mem_append] at quarantined
          rcases quarantined with old | new
          · exact separate.apart hashlock retained.1 old
          · rw [List.map_cons, List.map_nil, List.mem_singleton] at new
            exact retained.2 new
  | load => exact separate

/-- No call takes a hashlock out of quarantine. -/
theorem StoreEvent.quarantined_target (quarantined : state.Quarantined hashlock) :
    (event.target state).Quarantined hashlock := by
  cases event with
  | quarantine other reason now result =>
      simp only [target]
      split
      · exact quarantined
      · simp only [BotState.Quarantined, List.map_append, List.mem_append]
        exact .inl quarantined
  | record | markFunded | remove | load => exact quarantined

namespace StateStore

/-- A call that heeds keeps memory and file separate. -/
theorem separate_apply (separate : store.Separate) (heeds : event.Heeds store) :
    (event.apply store).Separate := by
  have others (added : ∀ swap result, event ≠ .record swap result) :=
    StoreEvent.separate_target separate.1 added
  cases store.apply_outcome event with
  | saved state file fresh =>
      rw [Separate, state, file, and_self]
      by_cases recorded : ∃ swap result, event = .record swap result
      · obtain ⟨swap, result, rfl⟩ := recorded
        obtain ⟨rfl, new⟩ := fresh swap result rfl
        exact separate.1.record new heeds
      · exact others fun swap result same => recorded ⟨swap, result, same⟩
  | unsaved logged state file => exact ⟨state ▸ others logged, file ▸ separate.2⟩
  | kept state file => exact ⟨state ▸ separate.1, file ▸ separate.2⟩
  | strayed recorded fresh renamed state file =>
      rename_i swap result
      subst recorded
      refine ⟨state ▸ separate.1, file ▸ separate.1.record fresh ?_⟩
      cases result with
      | beforeRename error => exact absurd rfl (renamed error)
      | ok | afterRename error => exact heeds
  | loaded load state file => exact ⟨state ▸ separate.2, file ▸ separate.2⟩

/-- A call that heeds releases nothing from quarantine. -/
theorem quarantined_apply (heeds : event.Heeds store) (quarantined : store.state.Quarantined hashlock) :
    (event.apply store).state.Quarantined hashlock := by
  cases store.apply_outcome event with
  | saved state file fresh => exact state ▸ StoreEvent.quarantined_target quarantined
  | unsaved logged state file => exact state ▸ StoreEvent.quarantined_target quarantined
  | kept state file => exact state ▸ quarantined
  | strayed recorded fresh renamed state file => exact state ▸ quarantined
  | loaded load state file =>
      subst load
      exact state ▸ heeds hashlock quarantined

/-- A call that keeps the lists apart and releases nothing from quarantine heeds. -/
theorem heeds_of_apply (separate : store.Separate) (still : (event.apply store).Separate)
    (retired : ∀ hashlock, store.state.Quarantined hashlock →
      (event.apply store).state.Quarantined hashlock) : event.Heeds store := by
  cases event with
  | record swap result =>
      -- an entry that was there is not in quarantine, a new one has reached the file
      have free (renamed : ∀ error, result ≠ .beforeRename error) :
          ¬ store.state.Quarantined swap.hashlock := by
        by_cases known : store.state.InFlight swap.hashlock
        · exact separate.1.apart _ known
        · have file : (store.record swap result).2.file =
              { store.state with inFlight := store.state.inFlight ++ [swap] } := by
            rw [record_eq]
            cases result with
            | beforeRename error => exact absurd rfl (renamed error)
            | ok | afterRename error => simp [known]
          have apart := still.2.apart swap.hashlock
          simp only [StoreEvent.apply, file] at apart
          exact apart (List.mem_map.mpr ⟨swap, List.mem_append_right _ (by simp), rfl⟩)
      cases result with
      | beforeRename error => trivial
      | ok => exact free (by simp)
      | afterRename error => exact free (by simp)
  | load => exact retired
  | markFunded | remove | quarantine => trivial

end StateStore

/-- Memory and file hold every hashlock at most once, in one of the two lists, and what
is quarantined stays so, exactly in the runs whose steps all heed: no quarantined
hashlock is recorded again, and no process ends with a quarantine that is not on disk. -/
theorem retired_iff_heeds (path : String) (file : BotState) (clean : file.Separate)
    (events : List StoreEvent) :
    (∀ earlier, earlier <+: events → ((StateStore.opened path file).after earlier).Separate ∧
      ∀ before, before <+: earlier → ∀ hashlock,
        ((StateStore.opened path file).after before).state.Quarantined hashlock →
          ((StateStore.opened path file).after earlier).state.Quarantined hashlock ∧
          ¬ ((StateStore.opened path file).after earlier).state.InFlight hashlock) ↔
    ∀ earlier event, earlier ++ [event] <+: events →
      event.Heeds ((StateStore.opened path file).after earlier) := by
  constructor
  · intro retired earlier event reached
    have started := (List.prefix_append earlier [event]).trans reached
    obtain ⟨still, kept⟩ := retired _ reached
    rw [StateStore.after_concat] at still kept
    refine StateStore.heeds_of_apply (retired earlier started).1 still fun hashlock quarantined => ?_
    exact (kept earlier (List.prefix_append ..) hashlock quarantined).1
  · intro heeds earlier reached
    -- along the run both facts are kept call by call
    induction earlier using List.reverseRecOn with
    | nil =>
        refine ⟨⟨clean, clean⟩, fun before started hashlock quarantined => ?_⟩
        rw [List.prefix_nil.mp started] at quarantined
        exact ⟨quarantined, fun inFlight => clean.apart hashlock inFlight quarantined⟩
    | append_singleton earlier event ih =>
        have heeded := heeds earlier event reached
        obtain ⟨separate, kept⟩ := ih ((List.prefix_append ..).trans reached)
        have still := StateStore.separate_apply separate heeded
        rw [StateStore.after_concat]
        refine ⟨still, fun before started hashlock quarantined => ?_⟩
        have retained : (event.apply ((StateStore.opened path file).after earlier)).state.Quarantined
            hashlock := by
          rcases List.prefix_concat_iff.mp started with rfl | started
          · rwa [StateStore.after_concat] at quarantined
          · exact StateStore.quarantined_apply heeded (kept before started hashlock quarantined).1
        exact ⟨retained, fun inFlight => still.1.apart hashlock inFlight retained⟩

/-- A swap is recorded and quarantined, and a new process starts. -/
theorem retired_iff_heeds_test :
    ((StateStore.opened "maker-state.json" ⟨[], []⟩).after
      [.record ⟨"00", "0x01", 0, .PreLock⟩ .ok, .quarantine "00" "stranded" 0 .ok,
        .load]).Separate := by
  refine ((retired_iff_heeds "maker-state.json" ⟨[], []⟩
    ⟨.nil, .nil, by simp [BotState.InFlight]⟩ _).mpr ?_ _ (List.prefix_refl _)).1
  intro earlier event reached
  match earlier, reached with
  | [], reached =>
      obtain ⟨rfl, -⟩ := List.cons_prefix_cons.mp reached
      exact List.not_mem_nil
  | [_], reached =>
      obtain ⟨rfl, second⟩ := List.cons_prefix_cons.mp reached
      obtain ⟨rfl, -⟩ := List.cons_prefix_cons.mp second
      trivial
  | [_, _], reached =>
      obtain ⟨rfl, second⟩ := List.cons_prefix_cons.mp reached
      obtain ⟨rfl, third⟩ := List.cons_prefix_cons.mp second
      obtain ⟨rfl, -⟩ := List.cons_prefix_cons.mp third
      exact fun hashlock quarantined => quarantined
  | _ :: _ :: _ :: _, reached => exact absurd reached.length_le (by simp)

/-- A hashlock that is recorded again after its quarantine is in both lists. -/
theorem quarantined_recorded_again : ¬ ∀ (path : String) (file : BotState) (events : List StoreEvent),
    file.Separate → ∀ hashlock,
      ((StateStore.opened path file).after events).state.InFlight hashlock →
        ¬ ((StateStore.opened path file).after events).state.Quarantined hashlock := by
  intro apart
  exact apart "maker-state.json" ⟨[], []⟩
    [.record ⟨"00", "0x01", 0, .PreLock⟩ .ok, .quarantine "00" "stranded" 0 .ok,
      .record ⟨"00", "0x01", 0, .PreLock⟩ .ok]
    ⟨.nil, .nil, by simp [BotState.InFlight]⟩ "00" (by decide) (by decide)

end Separation

end AtomicSwaps.Cli
