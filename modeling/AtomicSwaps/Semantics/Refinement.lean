import AtomicSwaps.Semantics.Process

/-!
# Environments with something hidden

An environment that keeps more than its users see refines another one if all it does is, as far
as they see, something the other one may do. The threads of a pool cannot tell the two apart:
every pool of the first is, as far as it is seen, a pool of the second.
-/

namespace Semantics

variable {I : Interface} {Inner Outer Task ρ : Type}

/-- In a sound world, everything an environment does is something another one may do, as far as
`view` shows, and leaves a sound world. -/
structure Refines (inner : Environment I Inner) (outer : Environment I Outer)
    (view : Inner → Outer) (sound : Inner → Prop) : Prop where
  drift : ∀ {before after}, sound before → inner.drift before after →
    sound after ∧ Relation.ReflTransGen outer.drift (view before) (view after)
  perform : ∀ {op before answer after}, sound before → inner.perform op before answer after →
    sound after ∧ outer.perform op (view before) answer (view after)

section Seeing

variable (view : Inner → Outer)

/-- What is seen of an entry. -/
def Entry.seen (entry : Entry I Inner) : Entry I Outer :=
  ⟨entry.op, entry.answer, view entry.before, view entry.after⟩

/-- What is seen of a thread. -/
def Thread.seen (thread : Thread I Inner Task ρ) : Thread I Outer Task ρ where
  task := thread.task
  past := thread.past.map (Entry.seen view)
  log := thread.log.map (Entry.seen view)
  rest := thread.rest

/-- What is seen of a pool. -/
def Pool.seen (pool : Pool I Inner Task ρ) : Pool I Outer Task ρ :=
  ⟨view pool.world, pool.threads.map (Thread.seen view)⟩

variable {view} {thread : Thread I Inner Task ρ}

@[simp] theorem Thread.seen_killed : thread.killed.seen view = (thread.seen view).killed := rfl

@[simp] theorem Thread.seen_resumed {entry : Entry I Inner} {rest : Program I ρ} :
    (thread.resumed entry rest).seen view = (thread.seen view).resumed (entry.seen view) rest := by
  simp [Thread.seen, Thread.resumed]

@[simp] theorem Thread.seen_spawned {task : Task} {past : List (Entry I Inner)}
    {rest : Program I ρ} : (Thread.spawned task past rest).seen view =
      .spawned task (past.map (Entry.seen view)) rest := rfl

@[simp] theorem Thread.seen_entries :
    (thread.seen view).entries = thread.entries.map (Entry.seen view) := by
  simp [Thread.seen, Thread.entries]

end Seeing

namespace System

/-- The same threads in another environment. -/
def within (system : System I Outer Task ρ) (inner : Environment I Inner)
    (restart : Inner → Inner → Prop) : System I Inner Task ρ where
  environment := inner
  body := system.body
  main := system.main
  spawns := system.spawns
  waits := system.waits
  restart := restart

variable {system : System I Outer Task ρ} {inner : Environment I Inner}
  {restart : Inner → Inner → Prop} {view : Inner → Outer} {sound : Inner → Prop}

/-- One step of a pool in the refined environment. -/
theorem Step.seen (refines : Refines inner system.environment view sound)
    (restarts : ∀ {before after}, sound before → restart before after →
      sound after ∧ system.restart (view before) (view after))
    {pool next : Pool I Inner Task ρ} (here : sound pool.world)
    (step : (system.within inner restart).Step pool next) :
    sound next.world ∧ Relation.ReflTransGen system.Step (pool.seen view) (next.seen view) := by
  cases step with
  | @drift world later threads drifted =>
      obtain ⟨kept, drifts⟩ := refines.drift here drifted
      refine ⟨kept, ?_⟩
      exact drifts.lift (Pool.mk · (threads.map (Thread.seen view))) fun _ _ => Step.drift
  | @perform world later before after thread op rest answer child running performed waited spawns =>
      obtain ⟨kept, same⟩ := refines.perform here performed
      refine ⟨kept, .single ?_⟩
      have alone : system.waits op → ∀ other ∈
          before.map (Thread.seen view) ++ after.map (Thread.seen view), other.Finished := by
        intro waits other member
        rw [← List.map_append] at member
        obtain ⟨hidden, there, rfl⟩ := List.mem_map.mp member
        exact waited waits hidden there
      have step : system.Step _ _ :=
        .perform (show (thread.seen view).rest = .call op rest from running) same alone spawns
      simpa [Pool.seen, within, Entry.seen, Function.comp_def] using step
  | @restart world later threads task restarted main =>
      obtain ⟨kept, same⟩ := restarts here restarted
      refine ⟨kept, .single ?_⟩
      have step : system.Step ⟨view world, threads.map (Thread.seen view)⟩ _ := .restart same main
      simpa [Pool.seen, within, Function.comp_def] using step

/-- What is seen of the pools that are reached is reached. -/
theorem Reaches.seen (refines : Refines inner system.environment view sound)
    (restarts : ∀ {before after}, sound before → restart before after →
      sound after ∧ system.restart (view before) (view after))
    {start : Inner} {pool : Pool I Inner Task ρ} (initially : sound start)
    (reached : (system.within inner restart).Reaches start pool) :
    sound pool.world ∧ system.Reaches (view start) (pool.seen view) := by
  induction reached with
  | refl => exact ⟨initially, .refl⟩
  | tail _ step ih =>
      obtain ⟨kept, steps⟩ := step.seen refines restarts ih.1
      exact ⟨kept, ih.2.trans steps⟩

end System

end Semantics
