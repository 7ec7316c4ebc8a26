import AtomicSwaps.Module.ResultText
import AtomicSwaps.Semantics.Run
import Mathlib.Logic.Function.Basic

/-!
# The jobs of the swap module

The job registry of `swap_impl.cpp`. A step is what one thread does under one lock, or one
access to an atomic: the threads that call the module, one worker for every job, and the
thread that owns the dispatcher. The FFI returns any text at any time. The blocking calls
keep no registered job and are left out.
-/

namespace AtomicSwaps.Module

open Semantics

/-- The roles of jobs: those `normalizeRole` lets through, and that of the funding job. -/
inductive Role where
  | maker
  | taker
  | makerLoop
  | lezSetup
deriving DecidableEq

/-- `JobState::status`. -/
inductive Status where
  | running
  | cancelling
  | completed
  | failed
  | cancelled
deriving DecidableEq

/-- The text of a status. -/
def Status.text : Status → String
  | .running => "running"
  | .cancelling => "cancelling"
  | .completed => "completed"
  | .failed => "failed"
  | .cancelled => "cancelled"

/-- `isTerminalStatus`. -/
def Status.isTerminal : Status → Bool
  | .completed | .failed | .cancelled => true
  | .running | .cancelling => false

/-- What `newJobId` writes into the text of an id. -/
structure JobId where
  role : Role
  number : Nat
deriving DecidableEq

/-- `JobState`, apart from its id and role. -/
structure JobState where
  status : Status := .running
  step : String := ""
  resultJson : String := ""
  error : String := ""
  cancelRequested : Bool := false
deriving DecidableEq

namespace JobState

/-- What `stopJob` and the destructor do to a job. -/
def stopRequested (job : JobState) : JobState :=
  { job with
    cancelRequested := true
    status := if job.status.isTerminal then job.status else .cancelling }

/-- What `progressPayload` does to a job. -/
def progressed (job : JobState) (step : String) : JobState := { job with step }

/-- `setJobFinished`. -/
def finished (job : JobState) (role : Role) (resultJson : String) : JobState :=
  if resultError resultJson ≠ "" then
    { job with resultJson, status := .failed, error := resultError resultJson }
  else if job.cancelRequested ∧ role ≠ .makerLoop then
    { job with resultJson, status := .cancelled, error := "cancelled" }
  else { job with resultJson, status := .completed, error := "" }

@[simp] theorem stopRequested_isTerminal (job : JobState) :
    job.stopRequested.status.isTerminal = job.status.isTerminal := by
  cases same : job.status.isTerminal with
  | false => simp only [stopRequested, same, Bool.false_eq_true, if_false]; rfl
  | true => simp only [stopRequested, same, if_true]

/-- A stop leaves what a terminal job says. -/
theorem stopRequested_terminal {job : JobState} (terminal : job.status.isTerminal) :
    job.stopRequested = { job with cancelRequested := true } := by
  simp [stopRequested, terminal]

@[simp] theorem progressed_status (job : JobState) (step : String) :
    (job.progressed step).status = job.status := rfl

@[simp] theorem finished_isTerminal (job : JobState) (role : Role) (resultJson : String) :
    (job.finished role resultJson).status.isTerminal = true := by
  unfold finished
  split_ifs <;> rfl

@[simp] theorem finished_resultJson (job : JobState) (role : Role) (resultJson : String) :
    (job.finished role resultJson).resultJson = resultJson := by
  unfold finished
  split_ifs <;> rfl

end JobState

/-- The data of `finishedPayload`, before it is rendered. -/
structure Payload where
  jobId : JobId
  step : String
  result : String
  error : String
deriving DecidableEq

/-- `finishedPayload`. -/
def finishedPayload (id : JobId) (job : JobState) : Payload where
  jobId := id
  step := if job.step = "" then job.status.text else job.step
  result := job.resultJson
  error := job.error

/-- Where the worker of a job stands. -/
inductive Phase where
  /-- There is no worker. -/
  | absent
  /-- It has not called the FFI yet. -/
  | spawned
  | inside
  /-- The maker loop has read a cancel flag that was set, and does not go on. -/
  | leaving
  | returned (resultJson : String)
  /-- `setJobFinished` is done. -/
  | recorded
  /-- The finished event is handed over. -/
  | done
deriving DecidableEq

/-- `EmitterState`: the flag, and whether there are a callback and a dispatcher. -/
structure Emitter where
  active : Bool
  emit : Bool
  dispatcher : Bool

/-- The module: the members of `SwapImpl`, `MAKER_LOOP_CANCEL` of the FFI, its workers, the
calls that are on their way to `swap_ffi_stop_maker_loop` with the job they stop, the jobs
whose stop has been carried through, and the finished events queued and emitted. -/
structure Registry where
  nextJobId : Nat
  drawn : List JobId
  jobs : JobId → Option JobState
  active : Role → Option JobId
  phase : JobId → Phase
  cancelFlag : Bool
  signals : List (Option JobId)
  signalled : List JobId
  emitter : Emitter
  queued : List Payload
  emitted : List Payload

namespace Registry

/-- The module as it is constructed. -/
def started : Registry where
  nextJobId := 1
  drawn := []
  jobs _ := none
  active _ := none
  phase _ := .absent
  cancelFlag := false
  signals := []
  signalled := []
  emitter := ⟨true, false, false⟩
  queued := []
  emitted := []

/-- The registered job of a role that is not terminal, as `startJob` and `stopMakerLoop` look
for it. -/
def activeJob (state : Registry) (role : Role) : Option JobId :=
  (state.active role).filter fun id =>
    match state.jobs id with
    | some job => !job.status.isTerminal
    | none => false

/-- Store the state of a job. -/
def withJob (state : Registry) (id : JobId) (job : JobState) : Registry :=
  { state with jobs := Function.update state.jobs id (some job) }

/-- Move the worker of a job. -/
def withPhase (state : Registry) (id : JobId) (phase : Phase) : Registry :=
  { state with phase := Function.update state.phase id phase }

end Registry

/-- What happens in the module. -/
inductive Event where
  | bind (callback : Bool)
  | draw (role : Role)
  | register (id : JobId)
  | refuse (id : JobId)
  | requestStop (id : JobId)
  | stopIdle
  | destroy
  | signal (origin : Option JobId)
  | enter (id : JobId)
  | turn (id : JobId)
  | progress (id : JobId) (step : String)
  | giveBack (id : JobId) (resultJson : String)
  | record (id : JobId)
  | handOver (id : JobId)
  | dispatch

open Registry in
/-- The steps of the module. -/
inductive Step (state : Registry) : Event → Registry → Prop where
  /-- `startJob` binds the emitter. -/
  | bind (callback : Bool) :
      Step state (.bind callback) { state with emitter := ⟨true, callback, true⟩ }
  /-- `startJob` draws an id. -/
  | draw (role : Role) :
      Step state (.draw role)
        { state with
          nextJobId := state.nextJobId + 1
          drawn := ⟨role, state.nextJobId⟩ :: state.drawn }
  /-- `startJob` registers the job under the jobs lock, and spawns its worker. -/
  | register {id : JobId} (drawn : id ∈ state.drawn) (free : state.activeJob id.role = none) :
      Step state (.register id)
        { (state.withJob id {}).withPhase id .spawned with
          drawn := state.drawn.erase id
          active := Function.update state.active id.role (some id) }
  /-- `startJob` finds a job of the role that is still active. -/
  | refuse {id : JobId} (drawn : id ∈ state.drawn) (taken : state.activeJob id.role ≠ none) :
      Step state (.refuse id) { state with drawn := state.drawn.erase id }
  /-- `stopJob` under the lock of the job. -/
  | requestStop {id : JobId} {job : JobState} (known : state.jobs id = some job) :
      Step state (.requestStop id)
        { state.withJob id job.stopRequested with
          signals :=
            if id.role = .makerLoop ∧ job.status.isTerminal = false then some id :: state.signals
            else state.signals }
  /-- `stopMakerLoop` finds no active job. -/
  | stopIdle (idle : state.activeJob .makerLoop = none) :
      Step state .stopIdle { state with signals := none :: state.signals }
  /-- The destructor stops every job. -/
  | destroy :
      Step state .destroy
        { state with
          jobs := fun id => (state.jobs id).map fun job =>
            if job.status.isTerminal then job else job.stopRequested
          emitter := ⟨false, false, false⟩
          signals := state.activeJob .makerLoop :: state.signals }
  /-- `swap_ffi_stop_maker_loop`. -/
  | signal {origin : Option JobId} (due : origin ∈ state.signals) :
      Step state (.signal origin)
        { state with
          cancelFlag := true
          signals := state.signals.erase origin
          signalled := origin.toList ++ state.signalled }
  /-- The worker calls the FFI; `swap_ffi_run_maker_loop` clears the flag first. -/
  | enter {id : JobId} (spawned : state.phase id = .spawned) :
      Step state (.enter id)
        { state.withPhase id .inside with
          cancelFlag := if id.role = .makerLoop then false else state.cancelFlag }
  /-- `run_maker_loop` reads the flag, between iterations or while it waits for a lock. -/
  | turn {id : JobId} (loop : id.role = .makerLoop) (inside : state.phase id = .inside) :
      Step state (.turn id)
        (if state.cancelFlag then state.withPhase id .leaving else state)
  | progress {id : JobId} {job : JobState} {step : String} (known : state.jobs id = some job)
      (inside : state.phase id = .inside ∨ state.phase id = .leaving) :
      Step state (.progress id step) (state.withJob id (job.progressed step))
  /-- The FFI returns. -/
  | giveBack {id : JobId} {resultJson : String}
      (inside : state.phase id = .inside ∨ state.phase id = .leaving) :
      Step state (.giveBack id resultJson) (state.withPhase id (.returned resultJson))
  /-- `setJobFinished`. -/
  | record {id : JobId} {job : JobState} {resultJson : String} (known : state.jobs id = some job)
      (returned : state.phase id = .returned resultJson) :
      Step state (.record id)
        ((state.withJob id (job.finished id.role resultJson)).withPhase id .recorded)
  /-- `safeEmit`: queued for the dispatcher, or dropped when there is none. -/
  | handOver {id : JobId} {job : JobState} (known : state.jobs id = some job)
      (recorded : state.phase id = .recorded) :
      Step state (.handOver id)
        { state.withPhase id .done with
          queued :=
            if state.emitter.dispatcher then state.queued ++ [finishedPayload id job]
            else state.queued }
  /-- The dispatcher runs what was queued first: it emits, or drops. -/
  | dispatch {payload : Payload} {rest : List Payload} (first : state.queued = payload :: rest) :
      Step state .dispatch
        { state with
          queued := rest
          emitted :=
            if state.emitter.active && state.emitter.emit then state.emitted ++ [payload]
            else state.emitted }

/-! ## The life of a job -/

/-- What a step can do to a job and its worker. -/
inductive Move (role : Role) : Option JobState → Phase → Option JobState → Phase → Prop where
  | still {job : Option JobState} {phase : Phase} : Move role job phase job phase
  | registered : Move role none .absent (some {}) .spawned
  | stopped {job : JobState} {phase : Phase} :
      Move role (some job) phase (some job.stopRequested) phase
  | entered {job : Option JobState} : Move role job .spawned job .inside
  | left {job : Option JobState} : Move role job .inside job .leaving
  | progressed {job : JobState} {phase : Phase} (step : String)
      (inside : phase = .inside ∨ phase = .leaving) :
      Move role (some job) phase (some (job.progressed step)) phase
  | returned {job : Option JobState} {phase : Phase} (resultJson : String)
      (inside : phase = .inside ∨ phase = .leaving) :
      Move role job phase job (.returned resultJson)
  | recorded {job : JobState} {resultJson : String} :
      Move role (some job) (.returned resultJson) (some (job.finished role resultJson)) .recorded
  | handedOver {job : Option JobState} : Move role job .recorded job .done

/-- Job and worker go together: there is a worker once the job is registered, and the job is
terminal once the worker has recorded its result. -/
def Paired (job : Option JobState) (phase : Phase) : Prop :=
  match job with
  | none => phase = .absent
  | some job => phase ≠ .absent ∧ (job.status.isTerminal ↔ phase = .recorded ∨ phase = .done)

theorem Move.paired {role : Role} {job later : Option JobState} {phase next : Phase}
    (move : Move role job phase later next) (paired : Paired job phase) : Paired later next := by
  cases move with
  | still => exact paired
  | registered => exact ⟨by simp, by simp [Status.isTerminal]⟩
  | stopped => simpa [Paired] using paired
  | progressed step inside => exact paired
  | recorded => exact ⟨by simp, by simp⟩
  | entered | left | handedOver => cases job <;> simp_all [Paired]
  | returned resultJson inside =>
      cases job with
      | none => rcases inside with rfl | rfl <;> cases paired
      | some job => rcases inside with rfl | rfl <;> simp_all [Paired]

/-- Nothing changes what a terminal job says, apart from a stop that comes too late. -/
theorem Move.terminal {role : Role} {job : JobState} {later : Option JobState} {phase next : Phase}
    (move : Move role (some job) phase later next) (paired : Paired (some job) phase)
    (terminal : job.status.isTerminal) :
    later = some job ∨ later = some { job with cancelRequested := true } := by
  have past := paired.2.mp terminal
  cases move with
  | still | entered | left | returned | handedOver => exact .inl rfl
  | stopped => exact .inr (by rw [JobState.stopRequested_terminal terminal])
  | progressed step inside => rcases inside with rfl | rfl <;> simp at past
  | recorded => simp at past

/-- A job stays registered. -/
theorem Move.stays {role : Role} {job : JobState} {later : Option JobState} {phase next : Phase}
    (move : Move role (some job) phase later next) : later ≠ none := by
  cases move <;> simp

/-- A job that is not terminal was not before, or is new. -/
theorem Move.running {role : Role} {job : Option JobState} {later : JobState} {phase next : Phase}
    (move : Move role job phase (some later) next) (running : later.status.isTerminal = false) :
    job = none ∨ ∃ earlier, job = some earlier ∧ earlier.status.isTerminal = false := by
  cases move with
  | registered => exact .inl rfl
  | still | entered | left | returned | handedOver => exact .inr ⟨later, rfl, running⟩
  | stopped => exact .inr ⟨_, rfl, by simpa using running⟩
  | progressed step inside => exact .inr ⟨_, rfl, running⟩
  | recorded => simp at running

namespace Registry

/-- What holds of the module at all times. -/
structure Sound (state : Registry) : Prop where
  paired : ∀ id, Paired (state.jobs id) (state.phase id)
  /-- An id that was drawn is not registered yet. -/
  fresh : ∀ id ∈ state.drawn, state.jobs id = none
  once : state.drawn.Nodup
  numbered : ∀ id, id ∈ state.drawn ∨ state.jobs id ≠ none → id.number < state.nextJobId
  /-- A job that is not terminal is the active one of its role. -/
  active : ∀ id job, state.jobs id = some job → job.status.isTerminal = false →
    state.active id.role = some id

theorem started_sound : started.Sound where
  paired _ := rfl
  fresh _ drawn := absurd drawn List.not_mem_nil
  once := List.nodup_nil
  numbered _ either := by simp [started] at either
  active _ _ known := by simp [started] at known

/-- A step moves every job and its worker. -/
theorem move {state next : Registry} {event : Event} (sound : state.Sound)
    (step : Step state event next) (id : JobId) :
    Move id.role (state.jobs id) (state.phase id) (next.jobs id) (next.phase id) := by
  cases step with
  | bind | draw | refuse | stopIdle | signal | dispatch => exact .still
  | @register other drawn free =>
      by_cases same : id = other
      · subst same
        have absent := sound.paired id
        rw [sound.fresh id drawn] at absent ⊢
        rw [show state.phase id = .absent from absent]
        simpa [withJob, withPhase] using Move.registered
      · simpa [withJob, withPhase, Function.update_of_ne same] using Move.still
  | @requestStop other job known =>
      by_cases same : id = other
      · subst same
        simpa [withJob, known] using Move.stopped
      · simpa [withJob, Function.update_of_ne same] using Move.still
  | destroy =>
      cases known : state.jobs id with
      | none => simpa [known] using Move.still
      | some job =>
          by_cases terminal : job.status.isTerminal = true
          · simpa [known, terminal] using Move.still
          · simpa [known, terminal] using Move.stopped
  | @enter other spawned =>
      by_cases same : id = other
      · subst same
        simpa [withPhase, spawned] using Move.entered
      · simpa [withPhase, Function.update_of_ne same] using Move.still
  | @turn other loop inside =>
      split
      · by_cases same : id = other
        · subst same
          simpa [withPhase, inside] using Move.left
        · simpa [withPhase, Function.update_of_ne same] using Move.still
      · exact .still
  | @progress other job step known inside =>
      by_cases same : id = other
      · subst same
        simpa [withJob, known] using Move.progressed step inside
      · simpa [withJob, Function.update_of_ne same] using Move.still
  | @giveBack other resultJson inside =>
      by_cases same : id = other
      · subst same
        simpa [withPhase] using Move.returned resultJson inside
      · simpa [withPhase, Function.update_of_ne same] using Move.still
  | @record other job resultJson known returned =>
      by_cases same : id = other
      · subst same
        simpa [withJob, withPhase, known, returned] using Move.recorded
      · simpa [withJob, withPhase, Function.update_of_ne same] using Move.still
  | @handOver other job known recorded =>
      by_cases same : id = other
      · subst same
        simpa [withPhase, recorded] using Move.handedOver
      · simpa [withPhase, Function.update_of_ne same] using Move.still

variable {state next : Registry} {event : Event} {id : JobId}

/-- Only `register` makes a job. -/
theorem made (step : Step state event next) (absent : state.jobs id = none)
    (known : next.jobs id ≠ none) : event = .register id := by
  cases step with
  | @register other drawn free =>
      by_cases same : id = other
      · rw [same]
      · simp [withJob, withPhase, Function.update_of_ne same, absent] at known
  | bind | draw | refuse | stopIdle | signal | dispatch => exact absurd absent known
  | destroy => simp [absent] at known
  | turn => split at known <;> exact absurd absent known
  | enter | giveBack | handOver => exact absurd absent known
  | @requestStop other job known' | @progress other job step known' inside
  | @record other job resultJson known' returned =>
      have other_ne : id ≠ other := by
        rintro rfl
        rw [absent] at known'
        cases known'
      simp [withJob, withPhase, Function.update_of_ne other_ne, absent] at known

theorem activeJob_eq_some {role : Role} :
    state.activeJob role = some id ↔ state.active role = some id ∧
      ∃ job, state.jobs id = some job ∧ job.status.isTerminal = false := by
  unfold activeJob
  rw [Option.filter_eq_some_iff]
  cases state.jobs id <;> simp

/-- What `drawn` and the counter hold after a step. -/
theorem drawn_cases (step : Step state event next) :
    (next.drawn = state.drawn ∧ next.nextJobId = state.nextJobId) ∨
      (∃ role, next.drawn = ⟨role, state.nextJobId⟩ :: state.drawn ∧
        next.nextJobId = state.nextJobId + 1 ∧ next.jobs = state.jobs) ∨
      ∃ id ∈ state.drawn, next.drawn = state.drawn.erase id ∧ next.nextJobId = state.nextJobId ∧
        (event = .register id ∨ event = .refuse id) := by
  cases step with
  | draw role => exact .inr (.inl ⟨role, rfl, rfl, rfl⟩)
  | register drawn free => exact .inr (.inr ⟨_, drawn, rfl, rfl, .inl rfl⟩)
  | refuse drawn taken => exact .inr (.inr ⟨_, drawn, rfl, rfl, .inr rfl⟩)
  | turn => split <;> exact .inl ⟨rfl, rfl⟩
  | _ => exact .inl ⟨rfl, rfl⟩

theorem Sound.fresh_step (sound : state.Sound) (step : Step state event next) :
    ∀ id ∈ next.drawn, next.jobs id = none := by
  intro id drawn
  by_contra known
  obtain ⟨same, -⟩ | ⟨role, grown, -, same⟩ | ⟨other, there, less, -, done⟩ := drawn_cases step
  · have absent := sound.fresh id (same ▸ drawn)
    obtain rfl := made step absent known
    cases step
    exact sound.once.not_mem_erase drawn
  · rw [grown] at drawn
    rw [same] at known
    rcases List.mem_cons.mp drawn with rfl | drawn
    · have small := sound.numbered _ (.inr known)
      exact absurd small (lt_irrefl _)
    · exact known (sound.fresh id drawn)
  · rw [less] at drawn
    obtain ⟨other_ne, drawn⟩ := sound.once.mem_erase_iff.mp drawn
    have same := made step (sound.fresh id drawn) known
    subst same
    simp [other_ne] at done

theorem Sound.numbered_step (sound : state.Sound) (step : Step state event next) :
    ∀ id, id ∈ next.drawn ∨ next.jobs id ≠ none → id.number < next.nextJobId := by
  have before : ∀ id, next.jobs id ≠ none → id.number < state.nextJobId := by
    intro id known
    apply sound.numbered
    by_cases absent : state.jobs id = none
    · left
      obtain rfl := made step absent known
      cases step with
      | register drawn free => exact drawn
    · exact .inr absent
  intro id either
  obtain ⟨same, count⟩ | ⟨role, grown, count, -⟩ | ⟨other, there, less, count, -⟩ := drawn_cases step
  · rw [count]
    exact either.elim (fun drawn => sound.numbered id (.inl (same ▸ drawn))) (before id)
  · rw [count]
    rcases either with drawn | known
    · rw [grown] at drawn
      rcases List.mem_cons.mp drawn with rfl | drawn
      · exact Nat.lt_succ_self _
      · exact Nat.lt_succ_of_lt (sound.numbered id (.inl drawn))
    · exact Nat.lt_succ_of_lt (before id known)
  · rw [count]
    rcases either with drawn | known
    · rw [less] at drawn
      exact sound.numbered id (.inl (List.mem_of_mem_erase drawn))
    · exact before id known

theorem Sound.once_step (sound : state.Sound) (step : Step state event next) : next.drawn.Nodup := by
  obtain ⟨same, -⟩ | ⟨role, grown, -⟩ | ⟨other, there, less, -⟩ := drawn_cases step
  · exact same ▸ sound.once
  · rw [grown, List.nodup_cons]
    refine ⟨fun drawn => ?_, sound.once⟩
    have small := sound.numbered _ (.inl drawn)
    exact absurd small (lt_irrefl _)
  · exact less ▸ sound.once.erase _

theorem Sound.active_step (sound : state.Sound) (step : Step state event next) :
    ∀ id job, next.jobs id = some job → job.status.isTerminal = false →
      next.active id.role = some id := by
  intro id job known running
  have moved := move sound step id
  rw [known] at moved
  rcases moved.running running with absent | ⟨earlier, there, running⟩
  · obtain rfl := made step absent (by simp [known])
    cases step
    simp
  · have active := sound.active id earlier there running
    cases step with
    | @register other drawn free =>
        by_cases same : id.role = other.role
        · have taken := activeJob_eq_some.mpr ⟨active, earlier, there, running⟩
          rw [same, free] at taken
          cases taken
        · simpa [Function.update_of_ne same] using active
    | turn => split <;> exact active
    | _ => exact active

theorem Sound.step (sound : state.Sound) (step : Step state event next) : next.Sound where
  paired id := (move sound step id).paired (sound.paired id)
  fresh := sound.fresh_step step
  once := sound.once_step step
  numbered := sound.numbered_step step
  active := sound.active_step step

/-- Of the jobs of a role at most one is not terminal. -/
theorem Sound.one_active (sound : state.Sound) {other : JobId} {job second : JobState}
    (known : state.jobs id = some job) (alsoKnown : state.jobs other = some second)
    (same : id.role = other.role) (running : job.status.isTerminal = false)
    (alsoRunning : second.status.isTerminal = false) : id = other := by
  have mine := sound.active id job known running
  have theirs := sound.active other second alsoKnown alsoRunning
  rw [same, theirs] at mine
  simpa using mine.symm

/-! ## What is told of a job -/

/-- Every finished event, queued or emitted, is the one of its job, which stays as it was told. -/
structure Truthful (state : Registry) : Prop where
  told : ∀ payload ∈ state.queued ++ state.emitted, state.phase payload.jobId = .done ∧
    ∃ job, state.jobs payload.jobId = some job ∧ payload = finishedPayload payload.jobId job
  once : ((state.queued ++ state.emitted).map (·.jobId)).Nodup

/-- A terminal job keeps what it says through a step. -/
theorem terminal_step (sound : state.Sound) (step : Step state event next) {job : JobState}
    (known : state.jobs id = some job) (terminal : job.status.isTerminal) :
    next.jobs id = some job ∨ next.jobs id = some { job with cancelRequested := true } := by
  have moved := move sound step id
  rw [known] at moved
  exact moved.terminal (known ▸ sound.paired id) terminal

/-- Through any number of steps. -/
theorem terminal_run {events : List Event} (sound : state.Sound)
    (run : Steps Step state events next) {job : JobState} (known : state.jobs id = some job)
    (terminal : job.status.isTerminal) :
    ∃ last, next.jobs id = some last ∧ last.status = job.status ∧
      last.resultJson = job.resultJson ∧ last.error = job.error ∧ last.step = job.step := by
  have kept := run.invariant
    (fun current => current.Sound ∧ ∃ last, current.jobs id = some last ∧
      last.status = job.status ∧ last.resultJson = job.resultJson ∧ last.error = job.error ∧
      last.step = job.step) ?_ ⟨sound, job, known, rfl, rfl, rfl, rfl⟩
  · exact kept.2
  · rintro current event later ⟨sound, last, there, same⟩ step
    refine ⟨sound.step step, ?_⟩
    have past : last.status.isTerminal = true := by rw [same.1, terminal]
    rcases terminal_step sound step there past with stays | late
    · exact ⟨last, stays, same⟩
    · exact ⟨_, late, same⟩

/-- The worker of a told job does nothing more, and the job says the same. -/
theorem told_step (sound : state.Sound) (step : Step state event next) {job : JobState}
    (known : state.jobs id = some job) (done : state.phase id = .done) :
    next.phase id = .done ∧ ∃ later, next.jobs id = some later ∧
      finishedPayload id later = finishedPayload id job := by
  have paired := sound.paired id
  rw [known] at paired
  constructor
  · have moved := move sound step id
    rw [known, done] at moved
    generalize next.phase id = phase at moved
    generalize next.jobs id = later at moved
    cases moved with
    | still | stopped => rfl
    | progressed step inside | returned resultJson inside => simp at inside
  · rcases terminal_step sound step known (paired.2.mpr (.inr done)) with stays | late
    · exact ⟨job, stays, rfl⟩
    · exact ⟨_, late, rfl⟩

/-- What a step does to the finished events. -/
theorem told_cases (step : Step state event next) :
    (∃ id job, state.jobs id = some job ∧ state.phase id = .recorded ∧
      next.queued ++ next.emitted = state.queued ++ finishedPayload id job :: state.emitted ∧
      next.jobs = state.jobs ∧ next.phase id = .done) ∨
      ∃ told, told.Subperm (state.queued ++ state.emitted) ∧
        told = next.queued ++ next.emitted := by
  have kept : (state.queued ++ state.emitted).Subperm (state.queued ++ state.emitted) :=
    List.Subperm.refl _
  cases step with
  | @handOver id job known recorded =>
      by_cases there : state.emitter.dispatcher = true
      · exact .inl ⟨id, job, known, recorded, by simp [there, withPhase], rfl, by simp [withPhase]⟩
      · exact .inr ⟨_, kept, by simp [there, withPhase]⟩
  | @dispatch payload rest first =>
      right
      refine ⟨_, ?_, rfl⟩
      rw [first]
      simp only
      split
      · apply List.Perm.subperm
        rw [← List.append_assoc, List.cons_append]
        exact List.perm_append_singleton payload (rest ++ state.emitted)
      · exact (List.sublist_cons_self payload (rest ++ state.emitted)).subperm
  | turn => split <;> exact .inr ⟨_, kept, rfl⟩
  | _ => exact .inr ⟨_, kept, rfl⟩

theorem Truthful.step (truthful : state.Truthful) (sound : state.Sound)
    (step : Step state event next) : next.Truthful := by
  have later : ∀ payload ∈ state.queued ++ state.emitted, next.phase payload.jobId = .done ∧
      ∃ job, next.jobs payload.jobId = some job ∧ payload = finishedPayload payload.jobId job := by
    intro payload among
    obtain ⟨done, job, known, same⟩ := truthful.told payload among
    obtain ⟨done, last, there, unchanged⟩ := told_step sound step known done
    exact ⟨done, last, there, by rw [unchanged]; exact same⟩
  obtain ⟨id, job, known, recorded, grown, same, done⟩ | ⟨told, fewer, rfl⟩ := told_cases step
  · have shuffled : (next.queued ++ next.emitted).Perm
        (finishedPayload id job :: (state.queued ++ state.emitted)) := by
      rw [grown]
      exact List.perm_middle
    constructor
    · intro payload among
      rcases List.mem_cons.mp (shuffled.mem_iff.mp among) with rfl | there
      · exact ⟨done, job, by rw [same]; exact known, rfl⟩
      · exact later payload there
    · rw [(shuffled.map _).nodup_iff, List.map_cons, List.nodup_cons]
      refine ⟨fun among => ?_, truthful.once⟩
      obtain ⟨payload, there, named⟩ := List.mem_map.mp among
      have other := (truthful.told payload there).1
      rw [named] at other
      exact absurd (recorded.symm.trans other) (by simp)
  · constructor
    · exact fun payload among => later payload (fewer.subset among)
    · obtain ⟨list, perm, sublist⟩ := fewer
      exact (perm.map _).nodup_iff.mp ((truthful.once.sublist (sublist.map _)))

/-- The module at any time. -/
theorem reached {events : List Event} (run : Steps Step started events state) :
    state.Sound ∧ state.Truthful := by
  refine run.invariant (fun state => state.Sound ∧ state.Truthful) ?_
    ⟨started_sound, by simp [started], by simp [started]⟩
  rintro current event later ⟨sound, truthful⟩ step
  exact ⟨sound.step step, truthful.step sound step⟩

/-- What `setJobFinished` makes of a result stays. -/
theorem recorded_run {events : List Event} (sound : state.Sound)
    (step : Step state (.record id) next) {finish : Registry}
    (run : Steps Step next events finish) :
    ∃ job resultJson last, state.jobs id = some job ∧ state.phase id = .returned resultJson ∧
      finish.jobs id = some last ∧ last.resultJson = resultJson ∧
      last.status = (job.finished id.role resultJson).status ∧
      last.error = (job.finished id.role resultJson).error := by
  have sound' := sound.step step
  cases step with
  | @record _ job resultJson known returned =>
      have there : ((state.withJob id (job.finished id.role resultJson)).withPhase id
          .recorded).jobs id = some (job.finished id.role resultJson) := by
        simp [withJob, withPhase]
      obtain ⟨last, found, status, result, error, -⟩ := terminal_run sound' run there (by simp)
      exact ⟨job, resultJson, last, known, returned, found, by simpa using result, status, error⟩

end Registry

open Registry

/-- The registry is truthful in every run. At most one registered job of a role is not
terminal; what a terminal job says does not change; a finished event is emitted once for a
job at most and says what the job says; and once a result is recorded the job is failed
exactly if the result has an error, and otherwise cancelled exactly if a stop was requested
before and its role is not that of the maker loop. -/
theorem registry_truthful {events : List Event} {state : Registry}
    (run : Steps Step started events state) :
    (∀ id other job second, state.jobs id = some job → state.jobs other = some second →
      id.role = other.role → job.status.isTerminal = false → second.status.isTerminal = false →
      id = other) ∧
    (∀ id job more finish, state.jobs id = some job → job.status.isTerminal →
      Steps Step state more finish → ∃ last, finish.jobs id = some last ∧
        last.status = job.status ∧ last.resultJson = job.resultJson ∧ last.error = job.error) ∧
    ((state.emitted.map (·.jobId)).Nodup ∧ ∀ payload ∈ state.emitted,
      ∃ job, state.jobs payload.jobId = some job ∧ job.status.isTerminal ∧
        payload = finishedPayload payload.jobId job) ∧
    ∀ id next more finish, Step state (.record id) next → Steps Step next more finish →
      ∃ job resultJson last, state.jobs id = some job ∧
        state.phase id = .returned resultJson ∧ finish.jobs id = some last ∧
        last.resultJson = resultJson ∧
        (last.status = .failed ↔ resultError resultJson ≠ "") ∧
        (last.status = .cancelled ↔
          resultError resultJson = "" ∧ job.cancelRequested ∧ id.role ≠ .makerLoop) ∧
        (last.status = .completed ↔
          resultError resultJson = "" ∧ ¬ (job.cancelRequested ∧ id.role ≠ .makerLoop)) := by
  obtain ⟨sound, truthful⟩ := reached run
  refine ⟨?_, ?_, ⟨?_, ?_⟩, ?_⟩
  · exact fun id other job second known alsoKnown same running alsoRunning =>
      sound.one_active known alsoKnown same running alsoRunning
  · intro id job more finish known terminal run
    obtain ⟨last, there, status, result, error, -⟩ := terminal_run sound run known terminal
    exact ⟨last, there, status, result, error⟩
  · have once := truthful.once
    rw [List.map_append] at once
    exact (List.nodup_append.mp once).2.1
  · intro payload among
    obtain ⟨done, job, known, same⟩ := truthful.told payload (List.mem_append_right _ among)
    have paired := sound.paired payload.jobId
    rw [known, done] at paired
    exact ⟨job, known, paired.2.mpr (.inr rfl), same⟩
  · intro id next more finish step run
    obtain ⟨job, resultJson, last, known, returned, there, result, status, -⟩ :=
      recorded_run sound step run
    refine ⟨job, resultJson, last, known, returned, there, result, ?_⟩
    rw [status]
    unfold JobState.finished
    split_ifs with failed stopped <;> simp_all

/-- What `swap_ffi_run_taker` returns for a swap that completed. -/
def testOutcome : String :=
  "\x7b\"eth_tx\":\"0x01\",\"lez_tx\":\"02\",\"preimage\":\"03\",\"status\":\"completed\"\x7d"

/-- A taker job that is stopped while it runs and then completes its swap is cancelled. -/
theorem completed_job_cancelled : ∃ events state job, Steps Step started events state ∧
    state.jobs ⟨.taker, 1⟩ = some job ∧ job.status = .cancelled ∧
    job.resultJson = testOutcome ∧ resultError testOutcome = "" := by
  have outcome : resultError testOutcome = "" := by decide +kernel
  refine ⟨_, _, _, .snoc (.snoc (.snoc (.snoc (.snoc (.snoc .refl (.draw .taker))
    (@Step.register _ ⟨.taker, 1⟩ List.mem_cons_self rfl)) (@Step.enter _ ⟨.taker, 1⟩ rfl))
    (@Step.requestStop _ ⟨.taker, 1⟩ _ rfl))
    (@Step.giveBack _ ⟨.taker, 1⟩ testOutcome (.inl rfl)))
    (@Step.record _ ⟨.taker, 1⟩ _ testOutcome rfl rfl), rfl, ?_, ?_, outcome⟩
  · simp [JobState.finished, JobState.stopRequested, outcome]
  · simp

/-- A maker loop, and a taker job that was stopped and completes its swap all the same. -/
theorem test_stopped : ∃ events state, Steps Step started events state ∧
    state.jobs ⟨.taker, 1⟩ = some ({} : JobState).stopRequested ∧
    state.phase ⟨.taker, 1⟩ = .returned testOutcome ∧ state.jobs ⟨.makerLoop, 2⟩ = some {} ∧
    state.emitter = ⟨true, true, true⟩ ∧ state.queued = [] ∧ state.emitted = [] :=
  ⟨_, _, .snoc (.snoc (.snoc (.snoc (.snoc (.snoc (.snoc (.snoc .refl (.bind true)) (.draw .taker))
    (.draw .makerLoop)) (@Step.register _ ⟨.taker, 1⟩ (by simp [started]) rfl))
    (@Step.register _ ⟨.makerLoop, 2⟩ (by simp [started]) rfl))
    (@Step.enter _ ⟨.taker, 1⟩ rfl)) (@Step.requestStop _ ⟨.taker, 1⟩ _ rfl))
    (@Step.giveBack _ ⟨.taker, 1⟩ testOutcome (.inl rfl)), rfl, rfl, rfl, rfl, rfl, rfl⟩

/-- Its result is recorded, and its finished event emitted. -/
theorem test_emits {state : Registry} {job : JobState}
    (known : state.jobs ⟨.taker, 1⟩ = some job)
    (returned : state.phase ⟨.taker, 1⟩ = .returned testOutcome)
    (emitter : state.emitter = ⟨true, true, true⟩) (queued : state.queued = [])
    (emitted : state.emitted = []) :
    ∃ recorded finish, Step state (.record ⟨.taker, 1⟩) recorded ∧
      Steps Step recorded [.handOver ⟨.taker, 1⟩, .dispatch] finish ∧
      finish.jobs = Function.update state.jobs ⟨.taker, 1⟩ (some (job.finished .taker testOutcome)) ∧
      finish.emitted = [finishedPayload ⟨.taker, 1⟩ (job.finished .taker testOutcome)] := by
  have there : ((state.withJob ⟨.taker, 1⟩ (job.finished .taker testOutcome)).withPhase ⟨.taker, 1⟩
      .recorded).jobs ⟨.taker, 1⟩ = some (job.finished .taker testOutcome) := by
    simp [withJob, withPhase]
  have hands := Step.handOver there (by simp [withPhase])
  refine ⟨_, _, .record known returned, .snoc (.single hands) (@Step.dispatch _
    (finishedPayload ⟨.taker, 1⟩ (job.finished .taker testOutcome)) [] ?_), rfl, ?_⟩
  · simp [withJob, withPhase, emitter, queued]
  · simp [withJob, withPhase, emitter, emitted]

/-- A taker job is stopped beside a maker loop, and its finished event is emitted. -/
theorem registry_truthful_started : ∃ earlier state recorded later finish,
    Steps Step started earlier state ∧ Step state (.record ⟨.taker, 1⟩) recorded ∧
    Steps Step recorded later finish ∧
    (∃ last, finish.jobs ⟨.taker, 1⟩ = some last ∧ last.status = .cancelled ∧
      last.resultJson = testOutcome ∧ finish.emitted = [finishedPayload ⟨.taker, 1⟩ last]) ∧
    finish.jobs ⟨.makerLoop, 2⟩ = some {} ∧
    ∀ other second, finish.jobs other = some second → Role.makerLoop = other.role →
      second.status.isTerminal = false → ⟨.makerLoop, 2⟩ = other := by
  have outcome : resultError testOutcome = "" := by decide +kernel
  obtain ⟨earlier, state, run, known, returned, loop, emitter, queued, emitted⟩ := test_stopped
  obtain ⟨recorded, finish, records, emits, jobs, told⟩ :=
    test_emits known returned emitter queued emitted
  have beside : finish.jobs ⟨.makerLoop, 2⟩ = some {} := by
    rw [jobs, Function.update_of_ne (by simp), loop]
  have whole := (run.snoc records).trans emits
  obtain ⟨job, resultJson, last, there, result, final, same, -, cancelled, -⟩ :=
    (registry_truthful run).2.2.2 ⟨.taker, 1⟩ recorded _ finish records emits
  obtain rfl := Option.some.inj (known.symm.trans there)
  obtain rfl : testOutcome = resultJson := by simpa [returned] using result
  have ended : last = ({} : JobState).stopRequested.finished .taker testOutcome := by
    simpa [jobs] using final.symm
  refine ⟨earlier, state, recorded, _, finish, run, records, emits,
    ⟨last, final, cancelled.mpr ⟨outcome, rfl, by simp⟩, same, ended ▸ told⟩, beside, ?_⟩
  exact fun other second known same running =>
    (registry_truthful whole).1 ⟨.makerLoop, 2⟩ other {} second beside known same rfl running

end AtomicSwaps.Module
