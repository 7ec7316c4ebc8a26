import AtomicSwaps.Semantics.Run

/-!
# Nested revertible calls

A store that hands control to foreign code in the middle of a call. The foreign code may
issue further calls; when it ends, its result goes back to the call, which goes on with it
or reverts. Whoever fails takes along what was done since its frame was opened. The machine
is generic in the store, the calls and the block context. Library results: what every call keeps
in its context holds of the current store and of every saved one (`Machine.invariant`), a
preorder containing every call relates saved stores to the stores opened above them
(`Growth.ordered`), and a call whose foreign code fails goes on from the store it called it
in, whatever ran inside (`FailedCall.resumed`).
-/

namespace Semantics.Nested

variable {Context Call Store : Type}

/-- A call of foreign code: the store it is made in, which comes back when the code fails, the
store the code finds, and what becomes of the result; nothing when the caller reverts. -/
structure Callout (Store : Type) where
  calling : Store
  called : Store
  resume : Bool → Store → Option Store

/-- What the calls of a protocol do to its store. `act` runs to completion; `calls` runs up to
the point where foreign code is called. -/
structure Protocol (Context Call Store : Type) where
  act : Context → Call → Store → Store → Prop
  calls : Context → Call → Store → Callout Store → Prop
  /-- How the context may change between two top-level transactions. -/
  advances : Context → Context → Prop

/-- Foreign code that is running, with the store it started from: of its own accord, or called
by a call of the protocol, which has a frame of its own and waits for the result. -/
inductive Frame (Store : Type) where
  | foreign (saved : Store)
  | waiting (origin : Store) (callout : Callout Store)

namespace Frame

/-- The store that comes back when the frame is undone. -/
def saved : Frame Store → Store
  | .foreign saved => saved
  | .waiting origin _ => origin

/-- The store once the foreign code has ended, and whoever waited for it has gone on or
reverted. -/
def resumed : Frame Store → Bool → Store → Store
  | .foreign saved, success, store => if success then store else saved
  | .waiting origin callout, success, store =>
      (callout.resume success (if success then store else callout.calling)).getD origin

end Frame

/-- The current store under the frames still open, innermost first. -/
structure Machine (Context Store : Type) where
  context : Context
  store : Store
  frames : List (Frame Store)

/-- One visible event of the machine. -/
inductive Event (Call : Type) where
  | act (call : Call)
  | enter
  | call (call : Call)
  | returns (success : Bool)
  | abort
  | advance

variable (protocol : Protocol Context Call Store)

/-- One step: a call, foreign code that starts or ends, a frame that is undone, since it has run
out of gas, or a context change outside every frame. -/
inductive Step : Machine Context Store → Event Call → Machine Context Store → Prop where
  | act {context store next frames call} (effect : protocol.act context call store next) :
      Step ⟨context, store, frames⟩ (.act call) ⟨context, next, frames⟩
  | enter {context store frames} :
      Step ⟨context, store, frames⟩ .enter ⟨context, store, .foreign store :: frames⟩
  | call {context store frames call callout} (effect : protocol.calls context call store callout) :
      Step ⟨context, store, frames⟩ (.call call) ⟨context, callout.called, .waiting store callout :: frames⟩
  | returns {context store frame frames success} :
      Step ⟨context, store, frame :: frames⟩ (.returns success)
        ⟨context, frame.resumed success store, frames⟩
  | abort {context store frame frames} :
      Step ⟨context, store, frame :: frames⟩ .abort ⟨context, frame.saved, frames⟩
  | advance {context later store} (effect : protocol.advances context later) :
      Step ⟨context, store, []⟩ .advance ⟨later, store, []⟩

/-- Complete top-level calls: every frame they open is closed again. -/
def Transaction (context : Context) (before after : Store) : Prop :=
  ∃ events, Steps (Step protocol) ⟨context, before, []⟩ events ⟨context, after, []⟩

/-- Every call that waits was made by the protocol, from the store of its frame. -/
def Made (machine : Machine Context Store) : Prop :=
  ∀ origin callout, .waiting origin callout ∈ machine.frames →
    ∃ context call, protocol.calls context call origin callout

variable {protocol}

theorem Made.step {machine next : Machine Context Store} {event : Event Call}
    (made : Made protocol machine) (step : Step protocol machine event next) : Made protocol next := by
  cases step with
  | act | advance => exact made
  | returns | abort =>
      exact fun origin callout member => made origin callout (List.mem_cons_of_mem _ member)
  | enter =>
      intro origin callout member
      rcases List.mem_cons.mp member with same | deeper
      · cases same
      · exact made origin callout deeper
  | call effect =>
      intro origin callout member
      rcases List.mem_cons.mp member with same | deeper
      · cases same
        exact ⟨_, _, effect⟩
      · exact made origin callout deeper

/-- Along every run that starts outside all frames, whatever waits was made by the protocol. -/
theorem made {context : Context} {store : Store} {machine : Machine Context Store}
    {events : List (Event Call)} (run : Steps (Step protocol) ⟨context, store, []⟩ events machine) :
    Made protocol machine :=
  run.invariant _ (fun current step => current.step step) (by simp [Made])

/-- `holds` at the current store and at every saved store. -/
def Everywhere (holds : Store → Prop) (machine : Machine Context Store) : Prop :=
  holds machine.store ∧ ∀ frame ∈ machine.frames, holds frame.saved

/-- A predicate of the context and the store that calls keep, while they run and when they go on
with a result, and that stays true when the context moves. -/
structure Keeps (protocol : Protocol Context Call Store) (holds : Context → Store → Prop) :
    Prop where
  act : ∀ {context call store next}, holds context store → protocol.act context call store next →
    holds context next
  calls : ∀ {context call store callout}, holds context store →
    protocol.calls context call store callout → holds context callout.called
  succeeds : ∀ {context made call store callout later next},
    protocol.calls made call store callout → holds context later →
      callout.resume true later = some next → holds context next
  fails : ∀ {context made call store callout next}, protocol.calls made call store callout →
    holds context store → callout.resume false callout.calling = some next → holds context next
  advance : ∀ {context later store}, holds context store → protocol.advances context later →
    holds later store

namespace Keeps

variable {holds : Context → Store → Prop} {machine next : Machine Context Store}
  {event : Event Call}

theorem resumed (keeps : Keeps protocol holds) {frame : Frame Store} {frames : List (Frame Store)}
    {context : Context} {store : Store} {success : Bool} (made : Made protocol ⟨context, store, frame :: frames⟩)
    (current : Everywhere (holds context) (⟨context, store, frame :: frames⟩ : Machine Context Store)) :
    holds context (frame.resumed success store) := by
  obtain ⟨here, below⟩ := current
  have origin := below frame List.mem_cons_self
  cases frame with
  | foreign saved =>
      cases success with
      | true => exact here
      | false => exact origin
  | waiting saved callout =>
      obtain ⟨_, _, effect⟩ := made saved callout List.mem_cons_self
      have origin : holds context saved := origin
      simp only [Frame.resumed]
      cases success with
      | true =>
          cases result : callout.resume true store with
          | none => simpa [result] using origin
          | some next => simpa [result] using keeps.succeeds effect here result
      | false =>
          cases result : callout.resume false callout.calling with
          | none => simpa [result] using origin
          | some next => simpa [result] using keeps.fails effect origin result

theorem step (keeps : Keeps protocol holds) (made : Made protocol machine)
    (current : Everywhere (holds machine.context) machine) (step : Step protocol machine event next) :
    Everywhere (holds next.context) next := by
  obtain ⟨here, below⟩ := current
  cases step with
  | act effect => exact ⟨keeps.act here effect, below⟩
  | enter => exact ⟨here, List.forall_mem_cons.mpr ⟨here, below⟩⟩
  | call effect => exact ⟨keeps.calls here effect, List.forall_mem_cons.mpr ⟨here, below⟩⟩
  | @returns context store frame frames success =>
      exact ⟨keeps.resumed made ⟨here, below⟩, (List.forall_mem_cons.mp below).2⟩
  | abort => exact List.forall_mem_cons.mp below
  | advance effect => exact ⟨keeps.advance here effect, by simp⟩

end Keeps

/-- What every call keeps holds everywhere along every run. -/
theorem Machine.invariant {holds : Context → Store → Prop} (keeps : Keeps protocol holds)
    {context : Context} {start : Store} {machine : Machine Context Store}
    {events : List (Event Call)} (initially : holds context start)
    (run : Steps (Step protocol) ⟨context, start, []⟩ events machine) :
    Everywhere (holds machine.context) machine := by
  have whole := run.invariant
    (fun current => Made protocol current ∧ Everywhere (holds current.context) current)
    (fun current step => ⟨current.1.step step, keeps.step current.1 current.2 step⟩)
    ⟨by simp [Made], initially, by simp⟩
  exact whole.2

/-- A preorder on stores that contains everything a call may do. -/
structure Growth (protocol : Protocol Context Call Store) where
  relation : Store → Store → Prop
  reflexive : ∀ store, relation store store
  transitive : ∀ {first second third}, relation first second → relation second third →
    relation first third
  act : ∀ {context call store next}, protocol.act context call store next →
    relation store next
  calls : ∀ {context call store callout}, protocol.calls context call store callout →
    relation store callout.called
  succeeds : ∀ {context call store callout later next}, protocol.calls context call store callout →
    callout.resume true later = some next → relation later next
  fails : ∀ {context call store callout next}, protocol.calls context call store callout →
    callout.resume false callout.calling = some next → relation store next

namespace Growth

variable (growth : Growth protocol)

/-- Every saved store precedes the stores above it, and all of them follow `origin`. -/
def Ordered (origin : Store) (machine : Machine Context Store) : Prop :=
  (machine.store :: (machine.frames.map Frame.saved ++ [origin])).Pairwise fun later earlier =>
    growth.relation earlier later

variable {growth}

/-- Moving the current store forward keeps it after everything it was after. -/
theorem Ordered.forward {origin store next : Store} {context : Context} {frames : List (Frame Store)}
    (current : growth.Ordered origin ⟨context, store, frames⟩)
    (moved : growth.relation store next) :
    ∀ earlier ∈ frames.map Frame.saved ++ [origin], growth.relation earlier next := by
  intro earlier member
  exact growth.transitive ((List.pairwise_cons.mp current).1 earlier member) moved

/-- Foreign code that ends leads on from what it has led to, or from what its frame has saved. -/
theorem resumed {frame : Frame Store} {frames : List (Frame Store)} {context : Context}
    {store : Store} (made : Made protocol ⟨context, store, frame :: frames⟩) (success : Bool) :
    growth.relation store (frame.resumed success store) ∨
      growth.relation frame.saved (frame.resumed success store) := by
  cases frame with
  | foreign saved =>
      cases success with
      | true => exact .inl (growth.reflexive _)
      | false => exact .inr (growth.reflexive _)
  | waiting saved callout =>
      obtain ⟨_, _, effect⟩ := made saved callout List.mem_cons_self
      simp only [Frame.resumed, Frame.saved]
      cases success with
      | true =>
          cases result : callout.resume true store with
          | none => exact .inr (by simpa [result] using growth.reflexive saved)
          | some next => exact .inl (by simpa [result] using growth.succeeds effect result)
      | false =>
          cases result : callout.resume false callout.calling with
          | none => exact .inr (by simpa [result] using growth.reflexive saved)
          | some next => exact .inr (by simpa [result] using growth.fails effect result)

theorem Ordered.step {origin : Store} {machine next : Machine Context Store}
    {event : Event Call} (made : Made protocol machine) (current : growth.Ordered origin machine)
    (step : Step protocol machine event next) : growth.Ordered origin next := by
  have tail := (List.pairwise_cons.mp current).2
  cases step with
  | act effect => exact List.pairwise_cons.mpr ⟨current.forward (growth.act effect), tail⟩
  | enter =>
      refine List.pairwise_cons.mpr ⟨?_, current⟩
      intro earlier member
      rcases List.mem_cons.mp member with rfl | deeper
      · exact growth.reflexive _
      · exact current.forward (growth.reflexive _) earlier deeper
  | call effect =>
      refine List.pairwise_cons.mpr ⟨?_, current⟩
      intro earlier member
      rcases List.mem_cons.mp member with rfl | deeper
      · exact growth.calls effect
      · exact current.forward (growth.calls effect) earlier deeper
  | @returns context store frame frames success =>
      refine List.pairwise_cons.mpr ⟨fun earlier member => ?_, (List.pairwise_cons.mp tail).2⟩
      rcases growth.resumed made success with onward | back
      · exact current.forward onward earlier (List.mem_cons_of_mem _ member)
      · exact growth.transitive ((List.pairwise_cons.mp tail).1 earlier member) back
  | abort => exact tail
  | advance => exact current

/-- Along every run that starts outside all frames, the saved stores and the
current one form a chain in the preorder. -/
theorem ordered {context : Context} {origin : Store}
    {machine : Machine Context Store} {events : List (Event Call)}
    (run : Steps (Step protocol) ⟨context, origin, []⟩ events machine) :
    growth.Ordered origin machine := by
  have whole := run.invariant (fun current => Made protocol current ∧ growth.Ordered origin current)
    (fun current step => ⟨current.1.step step, current.2.step current.1 step⟩)
    ⟨by simp [Made], by simpa [Ordered] using growth.reflexive origin⟩
  exact whole.2

/-- The current store of a run follows the store the run started from. -/
theorem from_start {context : Context} {origin : Store}
    {machine : Machine Context Store} {events : List (Event Call)}
    (run : Steps (Step protocol) ⟨context, origin, []⟩ events machine) :
    growth.relation origin machine.store :=
  (List.pairwise_cons.mp (growth.ordered run)).1 origin (by simp)

end Growth

/-- A step that stays strictly above `depth` open frames. -/
def Above (protocol : Protocol Context Call Store) (depth : Nat)
    (machine : Machine Context Store) (event : Event Call)
    (next : Machine Context Store) : Prop :=
  Step protocol machine event next ∧ depth < next.frames.length

/-- Code running above a frame cannot change the frames below it. -/
theorem frames_below_unchanged {base : List (Frame Store)} {start machine : Machine Context Store}
    {events : List (Event Call)}
    (suffix : base <:+ start.frames)
    (run : Steps (Above protocol (base.length - 1)) start events machine) :
    base <:+ machine.frames := by
  refine run.invariant (fun current => base <:+ current.frames) ?_ suffix
  rintro state event next below ⟨step, deep⟩
  cases step with
  | act => exact below
  | enter | call => exact below.trans (List.suffix_cons _ _)
  | returns | abort =>
      rcases List.suffix_cons_iff.mp below with whole | deeper
      · subst whole
        simp at deep
      · exact deeper
  | advance => exact below

/-- Inside a frame the context does not move. -/
theorem Above.context {depth : Nat} {machine next : Machine Context Store} {event : Event Call}
    (step : Above protocol depth machine event next) : next.context = machine.context := by
  obtain ⟨step, deep⟩ := step
  cases step with
  | advance => simp at deep
  | _ => rfl

/-- A call whose foreign code fails, whatever it did before. -/
structure FailedCall (protocol : Protocol Context Call Store) (call : Call)
    (before after : Machine Context Store) : Prop where
  run : ∃ opened inside returned,
    Step protocol before (.call call) opened ∧
    Steps (Above protocol before.frames.length) opened inside returned ∧
    returned.frames.length = before.frames.length + 1 ∧
    Step protocol returned (.returns false) after

/-- A call whose foreign code fails goes on from the store in which it called it, or leaves
everything as it was. -/
theorem FailedCall.resumed {call : Call} {before after : Machine Context Store}
    (failed : FailedCall protocol call before after) : ∃ callout,
      protocol.calls before.context call before.store callout ∧
        after = { before with store := (callout.resume false callout.calling).getD before.store } := by
  obtain ⟨opened, inside, returned, opening, run, depth, fails⟩ := failed.run
  cases opening with
  | @call context store frames _ callout effect =>
      have suffix : (.waiting store callout :: frames) <:+ returned.frames :=
        frames_below_unchanged (List.suffix_refl (.waiting store callout :: frames)) (by simpa using run)
      have whole : .waiting store callout :: frames = returned.frames :=
        suffix.eq_of_length (by simpa using depth.symm)
      have sameContext : returned.context = context :=
        run.invariant (fun current => current.context = context)
          (fun same step => step.context.trans same) rfl
      refine ⟨callout, effect, ?_⟩
      cases fails with
      | returns =>
          injection whole with sameFrame sameFrames
          subst sameFrame sameFrames sameContext
          rfl

end Semantics.Nested
