import AtomicSwaps.Module.Jobs

/-!
# Stops of the maker loop

One flag of the process stops every maker loop: a stop sets it from the calling thread, and
`swap_ffi_run_maker_loop` clears it when the worker gets there. A stop is heeded if its store
comes after the loop it is for has been entered, and before another one has.
-/

namespace AtomicSwaps.Module

open Semantics

namespace Registry

/-- The maker loop of a job has been entered and has not returned. -/
def LoopRuns (state : Registry) (id : JobId) : Prop :=
  id.role = .makerLoop ∧ (state.phase id = .inside ∨ state.phase id = .leaving)

/-- A stop has been requested for a job. -/
def Requested (state : Registry) (id : JobId) : Prop :=
  ∃ job, state.jobs id = some job ∧ job.cancelRequested = true

/-- A stop has been requested for a maker loop whose job is not terminal. -/
def StopDue (state : Registry) (id : JobId) : Prop :=
  id.role = .makerLoop ∧ ∃ job, state.jobs id = some job ∧ job.cancelRequested = true ∧
    job.status.isTerminal = false

end Registry

open Registry

/-- A store of the flag comes while the loop it is for runs, or, when it comes later or is
for none, while no loop runs. A store that never comes is not excluded: a call that is on its
way to `swap_ffi_stop_maker_loop` may stay on its way. -/
def Prompt (state : Registry) : Event → Prop
  | .signal (some id) =>
      state.LoopRuns id ∨ state.phase id ≠ .spawned ∧ ∀ other, ¬ state.LoopRuns other
  | .signal none => ∀ other, ¬ state.LoopRuns other
  | _ => True

/-- A step whose store of the flag, if it is one, is prompt. -/
def PromptStep (state : Registry) (event : Event) (next : Registry) : Prop :=
  Prompt state event ∧ Step state event next

theorem Step.promptly {state next : Registry} {event : Event} (step : Step state event next)
    (prompt : Prompt state event) : PromptStep state event next := ⟨prompt, step⟩

/-- A requested stop stays requested. -/
theorem Move.requested {role : Role} {job : JobState} {later : Option JobState}
    {phase next : Phase} (move : Move role (some job) phase later next)
    (requested : job.cancelRequested = true) :
    ∃ last, later = some last ∧ last.cancelRequested = true := by
  cases move with
  | still | entered | left | returned | handedOver => exact ⟨job, rfl, requested⟩
  | stopped => exact ⟨_, rfl, rfl⟩
  | progressed step inside => exact ⟨_, rfl, requested⟩
  | recorded =>
      refine ⟨_, rfl, ?_⟩
      unfold JobState.finished
      split_ifs <;> exact requested

/-- A worker that has gone past its start does not go back. -/
theorem Move.entered_stays {role : Role} {job later : Option JobState} {phase next : Phase}
    (move : Move role job phase later next) (past : phase ≠ .absent ∧ phase ≠ .spawned) :
    next ≠ .absent ∧ next ≠ .spawned := by
  cases move <;> simp_all

/-- Unless it is entered or reads the flag, a loop that runs ran before. -/
theorem Move.running_loop {role : Role} {job later : Option JobState} {phase next : Phase}
    (move : Move role job phase later next) (runs : next = .inside ∨ next = .leaving) :
    phase = .inside ∨ phase = .leaving ∨ phase = .spawned ∧ next = .inside := by
  cases move with
  | still | stopped => tauto
  | entered => exact .inr (.inr ⟨rfl, rfl⟩)
  | left => exact .inl rfl
  | progressed step inside => tauto
  | registered | returned | recorded | handedOver => simp at runs

/-- A job that is asked to stop and goes on was asked before, or is asked by this very step. -/
theorem Move.asked_before {role : Role} {job : Option JobState} {last : JobState}
    {phase next : Phase} (move : Move role job phase (some last) next)
    (asked : last.cancelRequested = true) (running : last.status.isTerminal = false) :
    ∃ earlier, job = some earlier ∧ earlier.status.isTerminal = false ∧
      (earlier.cancelRequested = true ∨ last = earlier.stopRequested) := by
  cases move with
  | still | entered | left | returned | handedOver => exact ⟨last, rfl, running, .inl asked⟩
  | registered => cases asked
  | @stopped job => exact ⟨job, rfl, by simpa using running, .inr rfl⟩
  | @progressed job step inside => exact ⟨job, rfl, running, .inl asked⟩
  | recorded => simp at running

namespace Registry

variable {state next : Registry} {event : Event} {id other : JobId}

theorem Requested.step (sound : state.Sound) (step : Step state event next)
    (requested : state.Requested id) : next.Requested id := by
  obtain ⟨job, known, asked⟩ := requested
  have moved := move sound step id
  rw [known] at moved
  exact moved.requested asked

/-- Only one loop has been spawned and has not returned. -/
theorem one_loop (sound : state.Sound) (loop : id.role = .makerLoop)
    (alive : state.phase id = .spawned ∨ state.phase id = .inside ∨ state.phase id = .leaving)
    (runs : state.LoopRuns other) : id = other := by
  have unfinished : ∀ id, state.phase id = .spawned ∨ state.phase id = .inside ∨
      state.phase id = .leaving → ∃ job, state.jobs id = some job ∧
        job.status.isTerminal = false := by
    intro id alive
    have paired := sound.paired id
    cases known : state.jobs id with
    | none =>
        rw [known] at paired
        rcases alive with phase | phase | phase <;> cases paired.symm.trans phase
    | some job =>
        rw [known] at paired
        refine ⟨job, rfl, ?_⟩
        rw [Bool.eq_false_iff]
        intro terminal
        rcases alive with phase | phase | phase <;> simpa [phase] using paired.2.mp terminal
  obtain ⟨job, known, running⟩ := unfinished id alive
  obtain ⟨second, alsoKnown, alsoRunning⟩ := unfinished other (.inr runs.2)
  exact sound.one_active known alsoKnown (loop.trans runs.1.symm) running alsoRunning

/-- Stops are heeded: those carried through have set the flag of a loop that was entered, and
the flag is set for a stop of the loop that runs. -/
structure Heeding (state : Registry) : Prop where
  sound : state.Sound
  roles : ∀ role id, state.active role = some id → id.role = role
  due : ∀ id, some id ∈ state.signals → id.role = .makerLoop ∧ state.Requested id
  carried : ∀ id, state.StopDue id → some id ∈ state.signals ∨ id ∈ state.signalled
  entered : ∀ id ∈ state.signalled, state.phase id ≠ .absent ∧ state.phase id ≠ .spawned
  set : ∀ id ∈ state.signalled, state.LoopRuns id → state.cancelFlag = true
  meant : ∀ id, state.LoopRuns id → state.cancelFlag = true → state.Requested id
  left : ∀ id, id.role = .makerLoop → state.phase id = .leaving → state.Requested id

/-- What a step does to the flag. -/
theorem flag_cases (step : Step state event next) :
    next.cancelFlag = state.cancelFlag ∨
      (∃ id, event = .enter id ∧ id.role = .makerLoop ∧ state.phase id = .spawned ∧
        next.cancelFlag = false) ∨
      ∃ origin, event = .signal origin ∧ next.cancelFlag = true ∧ next.phase = state.phase := by
  cases step with
  | @enter id spawned =>
      by_cases loop : id.role = .makerLoop
      · exact .inr (.inl ⟨id, rfl, loop, spawned, by simp [loop]⟩)
      · exact .inl (by simp [loop])
  | signal due => exact .inr (.inr ⟨_, rfl, rfl, rfl⟩)
  | turn => split <;> exact .inl rfl
  | _ => exact .inl rfl

/-- A worker gets inside when it enters, and a loop leaves when it reads a flag that is set. -/
theorem phase_events (step : Step state event next) :
    (state.phase id = .spawned → next.phase id = .inside → event = .enter id) ∧
      (state.phase id = .inside → next.phase id = .leaving → state.cancelFlag = true) := by
  have moved : ∀ (other : JobId) (phase : Phase), id ≠ other →
      (state.withPhase other phase).phase id = state.phase id := fun other phase different =>
    Function.update_of_ne different _ _
  have unmoved : next.phase id = state.phase id →
      (state.phase id = .spawned → next.phase id = .inside → event = .enter id) ∧
        (state.phase id = .inside → next.phase id = .leaving → state.cancelFlag = true) := by
    intro same
    rw [same]
    exact ⟨fun here there => absurd (here.symm.trans there) (by decide),
      fun here there => absurd (here.symm.trans there) (by decide)⟩
  cases step with
  | @enter other spawned =>
      by_cases same : id = other
      · subst same
        exact ⟨fun _ _ => rfl, fun inside => by cases inside.symm.trans spawned⟩
      · exact unmoved (moved other _ same)
  | @turn other loop inside =>
      cases flag : state.cancelFlag with
      | false => simpa [flag] using unmoved
      | true =>
          refine ⟨fun spawned there => ?_, fun _ _ => rfl⟩
          by_cases same : id = other
          · subst same
            cases spawned.symm.trans inside
          · simp only [if_true, moved other _ same] at there
            cases spawned.symm.trans there
  | @register other drawn free =>
      by_cases same : id = other
      · subst same
        simp [withPhase]
      · exact unmoved (moved other _ same)
  | @giveBack other resultJson inside =>
      by_cases same : id = other
      · subst same
        simp [withPhase]
      · exact unmoved (moved other _ same)
  | @record other job resultJson known returned =>
      by_cases same : id = other
      · subst same
        simp [withPhase]
      · exact unmoved (moved other _ same)
  | @handOver other job known recorded =>
      by_cases same : id = other
      · subst same
        simp [withPhase]
      · exact unmoved (moved other _ same)
  | _ => exact unmoved rfl

/-- A loop that runs after a step is entered by it or ran before. -/
theorem loop_before (sound : state.Sound) (step : Step state event next)
    (runs : next.LoopRuns id) : state.LoopRuns id ∨ event = .enter id ∧ state.phase id = .spawned := by
  rcases (move sound step id).running_loop runs.2 with inside | leaving | ⟨spawned, inside⟩
  · exact .inl ⟨runs.1, .inl inside⟩
  · exact .inl ⟨runs.1, .inr leaving⟩
  · exact .inr ⟨(phase_events step).1 spawned inside, spawned⟩

namespace Heeding

theorem roles_step (heeding : state.Heeding) (step : Step state event next) :
    ∀ role id, next.active role = some id → id.role = role := by
  intro role id active
  cases step with
  | @register other drawn free =>
      by_cases same : role = other.role
      · subst same
        simp only [Function.update_self, Option.some.injEq] at active
        rw [active]
      · simp only [Function.update_of_ne same] at active
        exact heeding.roles role id active
  | turn => split at active <;> exact heeding.roles role id active
  | _ => exact heeding.roles role id active

theorem due_step (heeding : state.Heeding) (step : Step state event next) :
    ∀ id, some id ∈ next.signals → id.role = .makerLoop ∧ next.Requested id := by
  intro id due
  have kept : some id ∈ state.signals → id.role = .makerLoop ∧ next.Requested id := fun due =>
    ⟨(heeding.due id due).1, (heeding.due id due).2.step heeding.sound step⟩
  cases step with
  | @requestStop other job known =>
      simp only at due
      split at due
      · rename_i loop
        rcases List.mem_cons.mp due with same | due
        · obtain rfl := Option.some.inj same
          exact ⟨loop.1, job.stopRequested, by simp [withJob], rfl⟩
        · exact kept due
      · exact kept due
  | stopIdle idle =>
      rcases List.mem_cons.mp due with same | due
      · cases same
      · exact kept due
  | destroy =>
      rcases List.mem_cons.mp due with same | due
      · obtain ⟨active, job, known, running⟩ := activeJob_eq_some.mp same.symm
        exact ⟨heeding.roles _ id active, job.stopRequested, by simp [known, running], rfl⟩
      · exact kept due
  | signal there => exact kept (List.mem_of_mem_erase due)
  | turn => split at due <;> exact kept due
  | _ => exact kept due

/-- A stop that is asked for a loop that is not over is on its way to the flag. -/
theorem asked_due (sound : state.Sound) (loop : id.role = .makerLoop) {job : JobState}
    (known : state.jobs id = some job) (running : job.status.isTerminal = false)
    (step : Step state event next) (asked : next.jobs id = some job.stopRequested)
    (fresh : job.cancelRequested = false) : some id ∈ next.signals := by
  have changed : next.jobs id ≠ state.jobs id := by
    rw [known, asked]
    intro same
    have flags := congrArg JobState.cancelRequested (Option.some.inj same)
    rw [fresh] at flags
    cases flags
  cases step with
  | @requestStop other earlier there =>
      by_cases same : id = other
      · subst same
        obtain rfl := Option.some.inj (known.symm.trans there)
        simp [loop, running]
      · exact absurd (Function.update_of_ne same _ _) changed
  | destroy =>
      have active := sound.active id job known running
      rw [loop] at active
      have found := activeJob_eq_some.mpr ⟨active, job, known, running⟩
      simp [found]
  | @register other drawn free =>
      by_cases same : id = other
      · subst same
        rw [sound.fresh id drawn] at known
        cases known
      · exact absurd (Function.update_of_ne same _ _) changed
  | @progress other earlier step there inside =>
      by_cases same : id = other
      · subst same
        obtain rfl := Option.some.inj (known.symm.trans there)
        have flags : job.progressed step = job.stopRequested := by
          simpa [withJob] using asked
        have flag := congrArg JobState.cancelRequested flags
        rw [show (job.progressed step).cancelRequested = job.cancelRequested from rfl, fresh] at flag
        cases flag
      · exact absurd (Function.update_of_ne same _ _) changed
  | @record other earlier resultJson there returned =>
      by_cases same : id = other
      · subst same
        have ended : earlier.finished id.role resultJson = job.stopRequested := by
          simpa [withJob, withPhase] using asked
        have status := congrArg (·.status.isTerminal) ended
        simp [running] at status
      · exact absurd (Function.update_of_ne same _ _) changed
  | turn => split at changed <;> exact absurd rfl changed
  | _ => exact absurd rfl changed

/-- A stop that is on its way or carried through stays so. -/
theorem carried_mono (step : Step state event next)
    (carried : some id ∈ state.signals ∨ id ∈ state.signalled) :
    some id ∈ next.signals ∨ id ∈ next.signalled := by
  cases step with
  | requestStop =>
      refine carried.imp_left fun due => ?_
      simp only
      split
      · exact List.mem_cons_of_mem _ due
      · exact due
  | stopIdle | destroy => exact carried.imp_left (List.mem_cons_of_mem _)
  | @signal origin there =>
      rcases carried with due | signalled
      · by_cases same : some id = origin
        · subst same
          exact .inr (List.mem_append_left _ (by simp))
        · exact .inl ((List.mem_erase_of_ne same).mpr due)
      · exact .inr (List.mem_append_right _ signalled)
  | turn => split <;> exact carried
  | _ => exact carried

theorem carried_step (heeding : state.Heeding) (step : Step state event next) :
    ∀ id, next.StopDue id → some id ∈ next.signals ∨ id ∈ next.signalled := by
  rintro id ⟨loop, last, there, asked, running⟩
  have moved := move heeding.sound step id
  rw [there] at moved
  obtain ⟨job, known, alive, before⟩ := moved.asked_before asked running
  cases earlier : job.cancelRequested with
  | true => exact carried_mono step (heeding.carried id ⟨loop, job, known, earlier, alive⟩)
  | false =>
      rcases before with impossible | rfl
      · rw [earlier] at impossible
        cases impossible
      · exact .inl (asked_due heeding.sound loop known alive step there earlier)

theorem entered_step (heeding : state.Heeding) (prompt : Prompt state event)
    (step : Step state event next) :
    ∀ id ∈ next.signalled, next.phase id ≠ .absent ∧ next.phase id ≠ .spawned := by
  intro id signalled
  have kept : id ∈ state.signalled → next.phase id ≠ .absent ∧ next.phase id ≠ .spawned :=
    fun signalled => (move heeding.sound step id).entered_stays (heeding.entered id signalled)
  cases step with
  | @signal origin due =>
      rcases List.mem_append.mp signalled with same | signalled
      · obtain rfl := Option.mem_toList.mp same
        obtain ⟨-, job, known, -⟩ := heeding.due id due
        have paired := heeding.sound.paired id
        rw [known] at paired
        refine ⟨paired.1, ?_⟩
        rcases prompt with runs | ⟨past, -⟩
        · rcases runs.2 with inside | leaving <;> simp [*]
        · exact past
      · exact kept signalled
  | turn => split at signalled <;> exact kept signalled
  | _ => exact kept signalled

theorem set_step (heeding : state.Heeding) (step : Step state event next) :
    ∀ id ∈ next.signalled, next.LoopRuns id → next.cancelFlag = true := by
  intro id signalled runs
  obtain same | ⟨other, rfl, loop, spawned, -⟩ | ⟨origin, -, set, -⟩ := flag_cases step
  · have before : id ∈ state.signalled → next.cancelFlag = true := by
      intro signalled
      rcases loop_before heeding.sound step runs with ran | ⟨-, spawned⟩
      · rw [same]
        exact heeding.set id signalled ran
      · exact absurd spawned (heeding.entered id signalled).2
    cases step with
    | signal => rfl
    | turn => split at signalled <;> exact before signalled
    | _ => exact before signalled
  · have before : id ∈ state.signalled := by
      cases step
      exact signalled
    rcases loop_before heeding.sound step runs with ran | ⟨-, fresh⟩
    · obtain rfl := one_loop heeding.sound loop (.inl spawned) ran
      exact absurd spawned (heeding.entered _ before).2
    · exact absurd fresh (heeding.entered id before).2
  · exact set

theorem meant_step (heeding : state.Heeding) (prompt : Prompt state event)
    (step : Step state event next) :
    ∀ id, next.LoopRuns id → next.cancelFlag = true → next.Requested id := by
  intro id runs set
  obtain same | ⟨other, -, -, -, cleared⟩ | ⟨origin, rfl, -, still⟩ := flag_cases step
  · rcases loop_before heeding.sound step runs with ran | ⟨rfl, -⟩
    · exact (heeding.meant id ran (same ▸ set)).step heeding.sound step
    · cases step
      simp [runs.1] at set
  · rw [cleared] at set
    cases set
  · have ran : state.LoopRuns id := ⟨runs.1, still ▸ runs.2⟩
    cases origin with
    | none => exact absurd ran (prompt id)
    | some other =>
        rcases prompt with runs' | ⟨-, nobody⟩
        · obtain rfl := one_loop heeding.sound runs'.1 (.inr runs'.2) ran
          cases step with
          | signal due =>
              exact (heeding.due _ due).2.step heeding.sound (.signal due)
        · exact absurd ran (nobody id)

theorem left_step (heeding : state.Heeding) (step : Step state event next) :
    ∀ id, id.role = .makerLoop → next.phase id = .leaving → next.Requested id := by
  intro id loop left
  have moved := move heeding.sound step id
  rcases moved.running_loop (.inr left) with inside | leaving | ⟨-, inside⟩
  · have set := (phase_events step).2 inside left
    exact (heeding.meant id ⟨loop, .inl inside⟩ set).step heeding.sound step
  · exact (heeding.left id loop leaving).step heeding.sound step
  · cases left.symm.trans inside

theorem step (heeding : state.Heeding) (step : PromptStep state event next) : next.Heeding where
  sound := heeding.sound.step step.2
  roles := heeding.roles_step step.2
  due := heeding.due_step step.2
  carried := heeding.carried_step step.2
  entered := heeding.entered_step step.1 step.2
  set := heeding.set_step step.2
  meant := heeding.meant_step step.1 step.2
  left := heeding.left_step step.2

theorem reached {events : List Event} (run : Steps PromptStep started events state) :
    state.Heeding := by
  refine run.invariant Heeding (fun heeding step => heeding.step step) ?_
  constructor
  · exact started_sound
  · rintro _ _ ⟨⟩
  · rintro _ ⟨⟩
  · rintro _ ⟨-, _, ⟨⟩, -⟩
  · rintro _ ⟨⟩
  · rintro _ ⟨⟩
  · rintro _ ⟨-, inside | leaving⟩
    · cases inside
    · cases leaving
  · rintro _ _ ⟨⟩

end Heeding

end Registry

/-- A stop of a maker loop is heeded. -/
structure StopHeeded (state : Registry) (id : JobId) : Prop where
  /-- The stop is on its way to the flag, or it has been carried through, by then to a loop that
  was entered. -/
  carried : some id ∈ state.signals ∨
    id ∈ state.signalled ∧ state.phase id ≠ .absent ∧ state.phase id ≠ .spawned
  /-- Carried through, it keeps the flag set until the loop has returned: its next reading of the
  flag is its last. -/
  last : id ∈ state.signalled → state.LoopRuns id → state.cancelFlag = true ∧
    ∀ next, Step state (.turn id) next → next.phase id = .leaving

/-- In a run whose stops are prompt, every stop that is requested for a maker loop that is not
over is heeded, and so is every stop that has been carried through; and a loop leaves only after a
stop of its own. -/
theorem stops_heeded {events : List Event} {state : Registry}
    (run : Steps PromptStep started events state) :
    (∀ id, state.StopDue id ∨ id ∈ state.signalled → StopHeeded state id) ∧
    ∀ id, id.role = .makerLoop → state.phase id = .leaving → state.Requested id := by
  have heeding := Heeding.reached run
  refine ⟨fun id stop => ?_, heeding.left⟩
  have carried : some id ∈ state.signals ∨ id ∈ state.signalled :=
    stop.elim (heeding.carried id) .inr
  constructor
  · exact carried.imp_right fun signalled => ⟨signalled, heeding.entered id signalled⟩
  · intro signalled runs
    have set := heeding.set id signalled runs
    refine ⟨set, fun next step => ?_⟩
    cases step
    simp [set, withPhase]

/-- A stop that comes before the worker has entered the loop is cleared by it, and the loop
goes on; and a stop that comes after its own loop has returned ends the next one. -/
theorem stops_lost :
    (∃ events state, Steps Step started events state ∧ ⟨.makerLoop, 1⟩ ∈ state.signalled ∧
      state.LoopRuns ⟨.makerLoop, 1⟩ ∧ state.cancelFlag = false ∧
      Step state (.turn ⟨.makerLoop, 1⟩) state) ∧
    ∃ events state, Steps Step started events state ∧
      state.phase ⟨.makerLoop, 2⟩ = .leaving ∧ ¬ state.Requested ⟨.makerLoop, 2⟩ := by
  constructor
  · refine ⟨_, _, .snoc (.snoc (.snoc (.snoc (.snoc .refl (.draw .makerLoop))
      (@Step.register _ ⟨.makerLoop, 1⟩ List.mem_cons_self rfl))
      (@Step.requestStop _ ⟨.makerLoop, 1⟩ _ rfl))
      (@Step.signal _ (some ⟨.makerLoop, 1⟩) List.mem_cons_self))
      (@Step.enter _ ⟨.makerLoop, 1⟩ rfl), List.mem_cons_self, ⟨rfl, .inl rfl⟩, rfl, ?_⟩
    exact @Step.turn _ ⟨.makerLoop, 1⟩ rfl rfl
  · have stopping : Steps Step started _ _ := .snoc (.snoc (.snoc (.snoc .refl (.draw .makerLoop))
      (@Step.register _ ⟨.makerLoop, 1⟩ List.mem_cons_self rfl)) (@Step.enter _ ⟨.makerLoop, 1⟩ rfl))
      (@Step.requestStop _ ⟨.makerLoop, 1⟩ _ rfl)
    have returned := (stopping.snoc (@Step.giveBack _ ⟨.makerLoop, 1⟩ "" (.inl rfl))).snoc
      (@Step.record _ ⟨.makerLoop, 1⟩ _ _ rfl rfl)
    have again := ((returned.snoc (.draw .makerLoop)).snoc
      (@Step.register _ ⟨.makerLoop, 2⟩ List.mem_cons_self (by decide +kernel))).snoc
      (@Step.enter _ ⟨.makerLoop, 2⟩ rfl)
    have stopped := (again.snoc (@Step.signal _ (some ⟨.makerLoop, 1⟩) List.mem_cons_self)).snoc
      (@Step.turn _ ⟨.makerLoop, 2⟩ rfl rfl)
    refine ⟨_, _, stopped, rfl, ?_⟩
    rintro ⟨job, known, requested⟩
    obtain rfl := Option.some.inj known
    cases requested

/-- A prompt stop of a loop that runs. -/
theorem stops_heeded_prompt : ∃ events state, Steps PromptStep started events state ∧
    ⟨.makerLoop, 1⟩ ∈ state.signalled ∧ state.LoopRuns ⟨.makerLoop, 1⟩ ∧
    state.StopDue ⟨.makerLoop, 1⟩ ∧ StopHeeded state ⟨.makerLoop, 1⟩ := by
  have spawned : Steps PromptStep started _ _ := .snoc (.snoc .refl
    ((Step.draw .makerLoop).promptly trivial))
    ((@Step.register _ ⟨.makerLoop, 1⟩ List.mem_cons_self rfl).promptly trivial)
  have asked := (spawned.snoc ((@Step.enter _ ⟨.makerLoop, 1⟩ rfl).promptly trivial)).snoc
    ((@Step.requestStop _ ⟨.makerLoop, 1⟩ _ rfl).promptly trivial)
  have run := asked.snoc
    ((@Step.signal _ (some ⟨.makerLoop, 1⟩) List.mem_cons_self).promptly (.inl ⟨rfl, .inl rfl⟩))
  refine ⟨_, _, run, List.mem_cons_self, ⟨rfl, .inl rfl⟩, ?_,
    (stops_heeded run).1 ⟨.makerLoop, 1⟩ (.inl ?_)⟩
  all_goals exact ⟨rfl, ({} : JobState).stopRequested, rfl, rfl, rfl⟩

end AtomicSwaps.Module
