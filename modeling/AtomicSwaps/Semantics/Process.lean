import AtomicSwaps.Semantics.Interaction

/-!
# Processes

A process is a main thread and what it spawns; all of it dies at once when the process
is restarted. Threads take turns, one operation at a time, and the environment drifts
between operations. A thread's past is what its parent had done when it spawned it.
`System.justified` carries the rules of the programs over to every log of every
reachable pool, and `System.alone` is what waiting for all other threads achieves.
-/

namespace Semantics

/-- A thread: what it runs, what its parent had done, what it has done itself, and what
is left of its program. -/
structure Thread (I : Interface) (World Task ρ : Type) where
  task : Task
  past : List (Entry I World)
  log : List (Entry I World)
  rest : Program I ρ

/-- All threads there have ever been, in the world as it is. -/
structure Pool (I : Interface) (World Task ρ : Type) where
  world : World
  threads : List (Thread I World Task ρ)

/-- What a process is made of. -/
structure System (I : Interface) (World Task ρ : Type) where
  environment : Environment I World
  body : Task → Program I ρ
  /-- What a process may be started with. -/
  main : Task → Prop
  /-- What an operation spawns. -/
  spawns : I.Op → Option Task → Prop
  /-- The operations that wait for every other thread. -/
  waits : I.Op → Prop
  /-- What becomes of the world when a process dies and the next one starts. -/
  restart : World → World → Prop

variable {I : Interface} {World Task ρ : Type}

namespace Thread

/-- A thread that performs nothing any more. -/
def Finished (thread : Thread I World Task ρ) : Prop :=
  ∀ op next, thread.rest ≠ .call op next

/-- A thread whose process has died. -/
def killed (thread : Thread I World Task ρ) : Thread I World Task ρ := { thread with rest := .hang }

/-- A thread before its first operation. -/
def spawned (task : Task) (past : List (Entry I World)) (rest : Program I ρ) :
    Thread I World Task ρ := ⟨task, past, [], rest⟩

/-- A thread after an operation. -/
def resumed (thread : Thread I World Task ρ) (entry : Entry I World) (rest : Program I ρ) :
    Thread I World Task ρ := { thread with log := thread.log ++ [entry], rest }

/-- Everything a thread can look back on. -/
def entries (thread : Thread I World Task ρ) : List (Entry I World) := thread.past ++ thread.log

/-- The exchanges a thread can look back on. -/
def history (thread : Thread I World Task ρ) : History I := historyOf thread.entries

@[simp] theorem killed_finished (thread : Thread I World Task ρ) : thread.killed.Finished := by
  intro op next same
  cases same

@[simp] theorem entries_resumed (thread : Thread I World Task ρ) (entry : Entry I World)
    (rest : Program I ρ) : (thread.resumed entry rest).entries = thread.entries ++ [entry] := by
  simp [resumed, entries]

@[simp] theorem entries_spawned (task : Task) (past : List (Entry I World)) (rest : Program I ρ) :
    (spawned task past rest).entries = past := by
  simp [spawned, entries]

@[simp] theorem entries_killed (thread : Thread I World Task ρ) :
    thread.killed.entries = thread.entries := rfl

theorem not_finished {thread : Thread I World Task ρ} {op : I.Op}
    {next : I.Answer op → Program I ρ} (running : thread.rest = .call op next) :
    ¬ thread.Finished := fun finished => finished op next running

end Thread

/-- The first operations of a program, and what is left of it after them. -/
inductive Advances (environment : Environment I World) :
    Program I ρ → World → List (Entry I World) → Program I ρ → World → Prop where
  | none {program : Program I ρ} {world : World} : Advances environment program world [] program world
  | step {op : I.Op} {next : I.Answer op → Program I ρ} {rest : Program I ρ}
      {start before after final : World} {answer : I.Answer op} {log : List (Entry I World)}
      (drifted : Relation.ReflTransGen environment.drift start before)
      (performed : environment.perform op before answer after)
      (onward : Advances environment (next answer) after log rest final) :
      Advances environment (.call op next) start (⟨op, answer, before, after⟩ :: log) rest final

/-- A run of a program that goes on after its first operation goes on from there. -/
theorem Advances.more {environment : Environment I World} {op : I.Op}
    {next : I.Answer op → Program I ρ} {start before after final : World} {answer : I.Answer op}
    {log : List (Entry I World)} (drifted : Relation.ReflTransGen environment.drift start before)
    (performed : environment.perform op before answer after)
    (onward : ∃ rest, Advances environment (next answer) after log rest final) :
    ∃ rest, Advances environment (.call op next) start (⟨op, answer, before, after⟩ :: log) rest
      final :=
  onward.imp fun _ onward => .step drifted performed onward

/-- The first operations of the first part of a sequence are some of the sequence. -/
theorem Advances.within {environment : Environment I World} {α : Type} {program : Program I α}
    {next : α → Program I ρ} {start final : World} {log : List (Entry I World)}
    (runs : ∃ rest, Advances environment program start log rest final) :
    ∃ rest, Advances environment (program >>= next) start log rest final := by
  obtain ⟨rest, advances⟩ := runs
  induction advances with
  | none => exact ⟨_, .none⟩
  | step drifted performed onward ih => exact Advances.more drifted performed ih

/-- After a complete run of the first part of a sequence come the first operations of the rest. -/
theorem Advances.after {environment : Environment I World} {α : Type} {program : Program I α}
    {next : α → Program I ρ} {start middle final : World} {early late : List (Entry I World)}
    {value : α} (execution : Execution environment program start early value middle)
    (onward : ∃ rest, Advances environment (next value) middle late rest final) :
    ∃ rest, Advances environment (program >>= next) start (early ++ late) rest final := by
  induction execution with
  | done => exact onward
  | step drifted performed rest ih => exact Advances.more drifted performed (ih onward)

/-- The first operations of a sequence are those of its first part, or all of them and then some
of the rest. -/
theorem Advances.bind {environment : Environment I World} {α : Type} {program : Program I α}
    {next : α → Program I ρ} {rest : Program I ρ} {start final : World} {log : List (Entry I World)}
    (advances : Advances environment (program >>= next) start log rest final) :
    (∃ left, Advances environment program start log left final) ∨
      ∃ early late value middle, log = early ++ late ∧
        Execution environment program start early value middle ∧
        Advances environment (next value) middle late rest final := by
  induction program generalizing start log with
  | pure value => exact .inr ⟨[], log, value, start, rfl, .done, advances⟩
  | call op onward ih =>
      cases advances with
      | none => exact .inl ⟨_, .none⟩
      | step drifted performed later =>
          rcases ih _ later with ⟨left, inside⟩ | ⟨early, late, value, middle, rfl, done, remaining⟩
          · exact .inl ⟨left, .step drifted performed inside⟩
          · exact .inr ⟨_ :: early, late, value, middle, rfl, .step drifted performed done, remaining⟩
  | hang =>
      cases advances
      exact .inl ⟨_, .none⟩

/-- A complete run is a run. -/
theorem Advances.complete {environment : Environment I World} {program : Program I ρ}
    {start final : World} {log : List (Entry I World)} {value : ρ}
    (execution : Execution environment program start log value final) :
    Advances environment program start log (.pure value) final := by
  induction execution with
  | done => exact .none
  | step drifted performed _ ih => exact .step drifted performed ih

namespace System

variable (system : System I World Task ρ)

/-- One step of a pool: the environment drifts, a thread performs its next operation, or
the process is started anew. -/
inductive Step : Pool I World Task ρ → Pool I World Task ρ → Prop where
  | drift {world next : World} {threads : List (Thread I World Task ρ)}
      (drifted : system.environment.drift world next) : Step ⟨world, threads⟩ ⟨next, threads⟩
  | perform {world next : World} {before after : List (Thread I World Task ρ)}
      {thread : Thread I World Task ρ} {op : I.Op} {rest : I.Answer op → Program I ρ}
      {answer : I.Answer op} {child : Option Task}
      (running : thread.rest = .call op rest)
      (performed : system.environment.perform op world answer next)
      (waited : system.waits op → ∀ other ∈ before ++ after, other.Finished)
      (spawns : system.spawns op child) :
      Step ⟨world, before ++ thread :: after⟩
        ⟨next, before ++ thread.resumed ⟨op, answer, world, next⟩ (rest answer) :: after ++
          child.toList.map fun task =>
            .spawned task (thread.entries ++ [⟨op, answer, world, next⟩]) (system.body task)⟩
  | restart {world next : World} {threads : List (Thread I World Task ρ)} {task : Task}
      (restarted : system.restart world next) (main : system.main task) :
      Step ⟨world, threads⟩
        ⟨next, threads.map Thread.killed ++ [.spawned task [] (system.body task)]⟩

/-- The pools that a world without any process may lead to. -/
def Reaches (start : World) (pool : Pool I World Task ρ) : Prop :=
  Relation.ReflTransGen system.Step ⟨start, []⟩ pool

/-- Every program follows its rule. -/
structure Ruled (rule : Task → History I → I.Op → Prop) : Prop where
  main : ∀ task, system.main task → Follows (rule task) (fun _ _ => True) (system.body task) []
  child : ∀ task history op answer child, rule task history op → system.spawns op (some child) →
    Follows (rule child) (fun _ _ => True) (system.body child) (history ++ [⟨op, answer⟩])

/-- A preorder on worlds that contains everything that happens. -/
structure Monotone (grows : World → World → Prop) : Prop where
  refl : ∀ world, grows world world
  trans : ∀ {a b c}, grows a b → grows b c → grows a c
  drift : ∀ {before after}, system.environment.drift before after → grows before after
  perform : ∀ {op before answer after},
    system.environment.perform op before answer after → grows before after
  restart : ∀ {before after}, system.restart before after → grows before after

/-- What is known of a thread: it obeyed its rule, and what it can look back on was
performed, in worlds that grew into one another and into the current one. -/
structure Justified (rule : Task → History I → I.Op → Prop) (grows : World → World → Prop)
    (world : World) (thread : Thread I World Task ρ) : Prop where
  follows : Follows (rule thread.task) (fun _ _ => True) thread.rest thread.history
  obeys : ∀ earlier entry later, thread.log = earlier ++ entry :: later →
    rule thread.task (historyOf (thread.past ++ earlier)) entry.op
  performed : ∀ entry ∈ thread.entries,
    system.environment.perform entry.op entry.before entry.answer entry.after
  ordered : thread.entries.Pairwise fun first second => grows first.after second.before
  reaches : ∀ entry ∈ thread.entries, grows entry.after world

variable {system} {rule : Task → History I → I.Op → Prop} {grows : World → World → Prop}
  {start world next : World} {thread : Thread I World Task ρ} {pool : Pool I World Task ρ}

namespace Justified

theorem later (justified : system.Justified rule grows world thread)
    (monotone : system.Monotone grows) (grown : grows world next) :
    system.Justified rule grows next thread :=
  { justified with
    reaches := fun entry member => monotone.trans (justified.reaches entry member) grown }

theorem killed (justified : system.Justified rule grows world thread) :
    system.Justified rule grows world thread.killed :=
  { justified with follows := trivial }

/-- What a thread could look back on before one of its operations had grown into the
world of that operation. -/
theorem before (justified : system.Justified rule grows world thread)
    {earlier later : List (Entry I World)} {entry : Entry I World}
    (split : thread.log = earlier ++ entry :: later) :
    ∀ old ∈ thread.past ++ earlier, grows old.after entry.before := by
  intro old member
  have whole : thread.entries = (thread.past ++ earlier) ++ entry :: later := by
    simp [Thread.entries, split]
  have ordered := justified.ordered
  rw [whole] at ordered
  exact (List.pairwise_append.mp ordered).2.2 old member entry List.mem_cons_self

/-- A main thread that has not begun is justified. -/
theorem main {task : Task} (ruled : system.Ruled rule) (main : system.main task) :
    system.Justified rule grows world (.spawned task [] (system.body task)) where
  follows := ruled.main task main
  obeys earlier entry later split := by simp [Thread.spawned] at split
  performed := by simp
  ordered := by simp
  reaches := by simp

section Performing

variable {op : I.Op} {rest : I.Answer op → Program I ρ} {answer : I.Answer op}

/-- The next operation of a thread obeys the thread's rule. -/
theorem allowed (justified : system.Justified rule grows world thread)
    (running : thread.rest = .call op rest) : rule thread.task thread.history op := by
  have follows := justified.follows
  rw [running] at follows
  exact follows.1

/-- What a thread can look back on after an operation. -/
theorem extended (justified : system.Justified rule grows world thread)
    (monotone : system.Monotone grows)
    (performed : system.environment.perform op world answer next) :
    (∀ entry ∈ thread.entries ++ [⟨op, answer, world, next⟩],
      system.environment.perform entry.op entry.before entry.answer entry.after) ∧
    List.Pairwise (fun first second : Entry I World => grows first.after second.before)
      (thread.entries ++ [⟨op, answer, world, next⟩]) ∧
    ∀ entry ∈ thread.entries ++ [⟨op, answer, world, next⟩], grows entry.after next := by
  have grown := monotone.perform performed
  refine ⟨?_, ?_, ?_⟩
  · intro entry member
    rcases List.mem_append.mp member with earlier | last
    · exact justified.performed entry earlier
    · obtain rfl := List.mem_singleton.mp last
      exact performed
  · apply List.pairwise_append.mpr
    refine ⟨justified.ordered, List.pairwise_singleton _ _, fun entry member last same => ?_⟩
    obtain rfl := List.mem_singleton.mp same
    exact justified.reaches entry member
  · intro entry member
    rcases List.mem_append.mp member with earlier | last
    · exact monotone.trans (justified.reaches entry earlier) grown
    · obtain rfl := List.mem_singleton.mp last
      exact monotone.refl _

/-- A thread stays justified when it performs its next operation. -/
theorem resumed (justified : system.Justified rule grows world thread)
    (monotone : system.Monotone grows) (running : thread.rest = .call op rest)
    (performed : system.environment.perform op world answer next) :
    system.Justified rule grows next
      (thread.resumed ⟨op, answer, world, next⟩ (rest answer)) := by
  obtain ⟨done, ordered, reaches⟩ := justified.extended monotone performed
  have follows := justified.follows
  rw [running] at follows
  constructor
  · have continued := follows.2 answer
    simpa [Thread.history, Thread.resumed, Thread.entries, Entry.exchange] using continued
  · intro earlier entry later split
    -- the last entry is the new one, all others were there before
    rcases List.eq_nil_or_concat later with rfl | ⟨init, last, rfl⟩
    · obtain ⟨rfl, same⟩ := List.append_inj' (show thread.log ++ _ = earlier ++ [entry] from split) rfl
      obtain rfl := List.cons.inj same |>.1
      exact follows.1
    · have shorter : thread.log ++ [⟨op, answer, world, next⟩] = (earlier ++ entry :: init) ++ [last] := by
        simpa [Thread.resumed] using split
      obtain ⟨old, -⟩ := List.append_inj' shorter rfl
      exact justified.obeys earlier entry init old
  · simpa using done
  · simpa using ordered
  · simpa using reaches

/-- What a thread spawns is justified by what it has done. -/
theorem child {task : Task} (justified : system.Justified rule grows world thread)
    (ruled : system.Ruled rule) (monotone : system.Monotone grows)
    (running : thread.rest = .call op rest)
    (performed : system.environment.perform op world answer next)
    (spawns : system.spawns op (some task)) :
    system.Justified rule grows next
      (.spawned task (thread.entries ++ [⟨op, answer, world, next⟩]) (system.body task)) := by
  obtain ⟨done, ordered, reaches⟩ := justified.extended monotone performed
  constructor
  · have follows := ruled.child _ _ op answer task (justified.allowed running) spawns
    simpa [Thread.history, Thread.spawned, Thread.entries, Entry.exchange] using follows
  · intro earlier entry later split
    simp [Thread.spawned] at split
  · simpa using done
  · simpa using ordered
  · simpa using reaches

end Performing

end Justified

/-- Every thread of every reachable pool is justified. -/
theorem justified (ruled : system.Ruled rule) (monotone : system.Monotone grows)
    (reached : system.Reaches start pool) :
    ∀ thread ∈ pool.threads, system.Justified rule grows pool.world thread := by
  induction reached with
  | refl => simp
  | tail _ step ih =>
      cases step with
      | drift drifted =>
          intro thread member
          exact (ih thread member).later monotone (monotone.drift drifted)
      | @perform world next before after thread op rest answer child running performed waited spawns =>
          have mine := ih thread (by simp)
          intro other member
          simp only [List.append_assoc, List.cons_append, List.mem_append, List.mem_cons,
            List.mem_map, Option.mem_toList] at member
          have unchanged : ∀ kept ∈ before ++ after, system.Justified rule grows next kept := by
            intro kept there
            apply (ih kept ?_).later monotone (monotone.perform performed)
            rcases List.mem_append.mp there with early | late
            · simp [early]
            · simp [late]
          rcases member with there | rfl | there | ⟨task, rfl, rfl⟩
          · exact unchanged other (List.mem_append_left _ there)
          · exact mine.resumed monotone running performed
          · exact unchanged other (List.mem_append_right _ there)
          · exact mine.child ruled monotone running performed spawns
      | restart restarted main =>
          intro thread member
          simp only [List.mem_append, List.mem_map, List.mem_singleton] at member
          rcases member with ⟨alive, there, rfl⟩ | rfl
          · exact ((ih alive there).later monotone (monotone.restart restarted)).killed
          · exact .main ruled main

section Reaching

variable {before after : List (Thread I World Task ρ)}

/-- Whatever the environment does by itself may happen to a pool. -/
theorem Reaches.drifts {threads : List (Thread I World Task ρ)}
    (reached : system.Reaches start ⟨world, threads⟩)
    (drifted : Relation.ReflTransGen system.environment.drift world next) :
    system.Reaches start ⟨next, threads⟩ := by
  induction drifted with
  | refl => exact reached
  | tail _ last ih => exact .tail ih (.drift last)

/-- A thread may perform its next operation, if it spawns nothing and does not have to wait. -/
theorem Reaches.perform {op : I.Op} {rest : I.Answer op → Program I ρ} {answer : I.Answer op}
    (reached : system.Reaches start ⟨world, before ++ thread :: after⟩)
    (running : thread.rest = .call op rest)
    (performed : system.environment.perform op world answer next)
    (waited : system.waits op → ∀ other ∈ before ++ after, other.Finished)
    (childless : system.spawns op none) :
    system.Reaches start
      ⟨next, before ++ thread.resumed ⟨op, answer, world, next⟩ (rest answer) :: after⟩ := by
  have single := Relation.ReflTransGen.tail reached (.perform running performed waited childless)
  simpa [Reaches] using single

/-- A thread may go on by itself, up to an operation that spawns another one, if it does
not have to wait. -/
theorem Reaches.advance {log : List (Entry I World)} {rest : Program I ρ}
    (reached : system.Reaches start ⟨world, before ++ thread :: after⟩)
    (advances : Advances system.environment thread.rest world log rest next)
    (childless : ∀ entry ∈ log, system.spawns entry.op none)
    (waited : ∀ entry ∈ log, system.waits entry.op → ∀ other ∈ before ++ after, other.Finished) :
    system.Reaches start ⟨next, before ++ { thread with log := thread.log ++ log, rest } :: after⟩ := by
  generalize running : thread.rest = program at advances
  induction advances generalizing thread with
  | none =>
      subst running
      simpa using reached
  | @step op next rest world middle last final answer log drifted performed onward ih =>
      have here := List.forall_mem_cons.mp childless
      have there := List.forall_mem_cons.mp waited
      have step := (reached.drifts drifted).perform running performed there.1 here.1
      have whole := ih step here.2 there.2 rfl
      simpa [Thread.resumed] using whole

/-- The only thread that is not finished may go on by itself. -/
theorem Reaches.run {log : List (Entry I World)} {rest : Program I ρ}
    (reached : system.Reaches start ⟨world, before ++ [thread]⟩)
    (dead : ∀ other ∈ before, other.Finished)
    (advances : Advances system.environment thread.rest world log rest next)
    (childless : ∀ entry ∈ log, system.spawns entry.op none) :
    system.Reaches start ⟨next, before ++ [{ thread with log := thread.log ++ log, rest }]⟩ :=
  reached.advance advances childless fun _ _ _ => by simpa using dead

end Reaching

/-- A thread that has waited for all others and has not finished. -/
def Waited (system : System I World Task ρ) (thread : Thread I World Task ρ) : Prop :=
  ¬ thread.Finished ∧ ∃ entry ∈ thread.entries, system.waits entry.op

/-- Of two threads, whichever has waited and goes on finds the other one finished. -/
def Exclusive (system : System I World Task ρ) (first second : Thread I World Task ρ) : Prop :=
  (system.Waited first → second.Finished) ∧ (system.Waited second → first.Finished)

theorem Exclusive.symm {first second : Thread I World Task ρ}
    (exclusive : system.Exclusive first second) : system.Exclusive second first :=
  And.symm exclusive

/-- A thread that waited for all others stays alone, if it spawns nothing from then on. -/
theorem alone (ruled : system.Ruled rule) (monotone : system.Monotone grows)
    (childless : ∀ task history op child, rule task history op → system.spawns op (some child) →
      ¬ system.waits op ∧ ∀ exchange ∈ history, ¬ system.waits exchange.op)
    (reached : system.Reaches start pool) : pool.threads.Pairwise system.Exclusive := by
  induction reached with
  | refl => exact List.Pairwise.nil
  | tail reached step ih =>
      have known := justified ruled monotone reached
      cases step with
      | drift drifted => exact ih
      | @perform world next before after thread op rest answer child running performed waited spawns =>
          have running' := Thread.not_finished running
          obtain ⟨left, inner, outer⟩ := List.pairwise_append.mp ih
          obtain ⟨mine, right⟩ := List.pairwise_cons.mp inner
          have others : ∀ other ∈ before ++ after, system.Exclusive thread other := by
            intro other member
            rcases List.mem_append.mp member with there | there
            · exact (outer other there thread (by simp)).symm
            · exact mine other there
          -- the performing thread is not finished, so nobody else has waited
          have unwaited : ∀ other ∈ before ++ after, ¬ system.Waited other :=
            fun other member waiting => running' ((others other member).2 waiting)
          have exclusive : ∀ other ∈ before ++ after, system.Exclusive
              (thread.resumed ⟨op, answer, world, next⟩ (rest answer)) other := by
            intro other member
            refine ⟨fun ⟨_, entry, there, waits⟩ => ?_, fun waiting =>
              (unwaited other member waiting).elim⟩
            simp only [Thread.entries_resumed, List.mem_append, List.mem_singleton] at there
            rcases there with there | rfl
            · exact (others other member).1 ⟨running', entry, there, waits⟩
            · exact waited waits other member
          have going : List.Pairwise system.Exclusive
              (before ++ thread.resumed ⟨op, answer, world, next⟩ (rest answer) :: after) := by
            apply List.pairwise_append.mpr
            refine ⟨left, List.pairwise_cons.mpr ⟨fun other there =>
              exclusive other (List.mem_append_right _ there), right⟩, ?_⟩
            intro other there last same
            rcases List.mem_cons.mp same with rfl | there'
            · exact (exclusive other (List.mem_append_left _ there)).symm
            · exact outer other there last (List.mem_cons_of_mem _ there')
          cases child with
          | none => simpa using going
          | some task =>
              have allowed := (known thread (by simp)).allowed running
              obtain ⟨unwaiting, quiet⟩ := childless _ _ op task allowed spawns
              have never : ∀ entry ∈ thread.entries ++ [⟨op, answer, world, next⟩],
                  ¬ system.waits entry.op := by
                intro entry member
                rcases List.mem_append.mp member with there | last
                · exact quiet entry.exchange (List.mem_map_of_mem there)
                · obtain rfl := List.mem_singleton.mp last
                  exact unwaiting
              apply List.pairwise_append.mpr
              refine ⟨going, by simp, fun other member last same => ?_⟩
              simp only [Option.toList_some, List.map_cons, List.map_nil,
                List.mem_singleton] at same
              subst same
              constructor
              · intro waiting
                rcases List.mem_append.mp member with there | there
                · exact (unwaited other (List.mem_append_left _ there) waiting).elim
                · rcases List.mem_cons.mp there with rfl | there
                  · obtain ⟨-, entry, inside, waits⟩ := waiting
                    exact (never entry (by simpa using inside) waits).elim
                  · exact (unwaited other (List.mem_append_right _ there) waiting).elim
              · rintro ⟨-, entry, inside, waits⟩
                exact (never entry (by simpa using inside) waits).elim
      | restart restarted main =>
          apply List.pairwise_append.mpr
          refine ⟨?_, by simp, fun dead member fresh same => ?_⟩
          · apply List.pairwise_map.mpr
            exact ih.imp fun {first second} _ => ⟨fun _ => second.killed_finished,
              fun _ => first.killed_finished⟩
          · obtain rfl := List.mem_singleton.mp same
            obtain ⟨alive, -, rfl⟩ := List.mem_map.mp member
            exact ⟨fun waiting => (waiting.1 alive.killed_finished).elim,
              fun ⟨_, entry, inside, _⟩ => by simp at inside⟩

end System

end Semantics
