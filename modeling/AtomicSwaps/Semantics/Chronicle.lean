import AtomicSwaps.Semantics.Guarded

/-!
# The chronicle of a pool

Everything that happened to a pool in the order it happened, and what becomes of a thread that
waits for all others: from then on it goes on as if it were alone. A program that is guarded from
its wait on performs every further operation in a world that the rule admits.
-/

namespace Semantics

variable {I : Interface} {World Task ρ ε α β : Type}

/-- What happens to a pool besides the drifting of its world. -/
inductive Happening (I : Interface) (World : Type) where
  | performed (entry : Entry I World)
  | restarted

/-- What was performed since the last restart. -/
def sinceRestart (happened : List (Happening I World)) : List (Entry I World) :=
  happened.foldl (fun entries happening => match happening with
    | .performed entry => entries ++ [entry]
    | .restarted => []) []

@[simp] theorem sinceRestart_performed (happened : List (Happening I World))
    (entry : Entry I World) :
    sinceRestart (happened ++ [.performed entry]) = sinceRestart happened ++ [entry] := by
  simp [sinceRestart]

@[simp] theorem sinceRestart_restarted (happened : List (Happening I World)) :
    sinceRestart (happened ++ [.restarted]) = [] := by
  simp [sinceRestart]

namespace System

variable (system : System I World Task ρ)

/-- The pools that a world without any process may lead to, with what happened on the way. -/
inductive Unfolds (start : World) : List (Happening I World) → Pool I World Task ρ → Prop
  | begun : Unfolds start [] ⟨start, []⟩
  | drift {happened : List (Happening I World)} {world next : World}
      {threads : List (Thread I World Task ρ)} (earlier : Unfolds start happened ⟨world, threads⟩)
      (drifted : system.environment.drift world next) : Unfolds start happened ⟨next, threads⟩
  | perform {happened : List (Happening I World)} {world next : World}
      {before after : List (Thread I World Task ρ)} {thread : Thread I World Task ρ} {op : I.Op}
      {rest : I.Answer op → Program I ρ} {answer : I.Answer op} {child : Option Task}
      (earlier : Unfolds start happened ⟨world, before ++ thread :: after⟩)
      (running : thread.rest = .call op rest)
      (performed : system.environment.perform op world answer next)
      (waited : system.waits op → ∀ other ∈ before ++ after, other.Finished)
      (spawns : system.spawns op child) :
      Unfolds start (happened ++ [.performed ⟨op, answer, world, next⟩])
        ⟨next, before ++ thread.resumed ⟨op, answer, world, next⟩ (rest answer) :: after ++
          child.toList.map fun task =>
            .spawned task (thread.entries ++ [⟨op, answer, world, next⟩]) (system.body task)⟩
  | restart {happened : List (Happening I World)} {world next : World}
      {threads : List (Thread I World Task ρ)} {task : Task}
      (earlier : Unfolds start happened ⟨world, threads⟩)
      (restarted : system.restart world next) (main : system.main task) :
      Unfolds start (happened ++ [.restarted])
        ⟨next, threads.map Thread.killed ++ [.spawned task [] (system.body task)]⟩

variable {system} {start : World} {happened : List (Happening I World)}
  {pool : Pool I World Task ρ}

theorem Unfolds.reaches (unfolds : system.Unfolds start happened pool) :
    system.Reaches start pool := by
  induction unfolds with
  | begun => exact .refl
  | drift _ drifted ih => exact ih.tail (.drift drifted)
  | perform _ running performed waited spawns ih =>
      exact ih.tail (.perform running performed waited spawns)
  | restart _ restarted main ih => exact ih.tail (.restart restarted main)

theorem Reaches.unfolds (reached : system.Reaches start pool) :
    ∃ happened, system.Unfolds start happened pool := by
  induction reached with
  | refl => exact ⟨[], .begun⟩
  | tail _ step ih =>
      obtain ⟨happened, earlier⟩ := ih
      cases step with
      | drift drifted => exact ⟨_, .drift earlier drifted⟩
      | perform running performed waited spawns =>
          exact ⟨_, .perform earlier running performed waited spawns⟩
      | restart restarted main => exact ⟨_, .restart earlier restarted main⟩

/-- Whatever was performed is in a log. -/
theorem Unfolds.logged (unfolds : system.Unfolds start happened pool) {entry : Entry I World}
    (member : .performed entry ∈ happened) : ∃ thread ∈ pool.threads, entry ∈ thread.log := by
  induction unfolds with
  | begun => cases member
  | drift _ _ ih => exact ih member
  | @perform happened world next before after thread op rest answer child _ _ _ _ _ ih =>
      rcases List.mem_append.mp member with earlier | last
      · obtain ⟨other, there, logged⟩ := ih earlier
        rcases List.mem_append.mp there with early | late
        · exact ⟨other, by simp [early], logged⟩
        · rcases List.mem_cons.mp late with rfl | late
          · exact ⟨other.resumed ⟨op, answer, world, next⟩ (rest answer), by simp,
              List.mem_append_left _ logged⟩
          · exact ⟨other, by simp [late], logged⟩
      · cases List.mem_singleton.mp last
        exact ⟨thread.resumed ⟨op, answer, world, next⟩ (rest answer), by simp,
          List.mem_concat_self⟩
  | restart _ _ _ ih =>
      have earlier := (List.mem_append.mp member).resolve_right (by simp)
      obtain ⟨thread, there, logged⟩ := ih earlier
      exact ⟨thread.killed, List.mem_append_left _ (List.mem_map_of_mem there), logged⟩

end System

/-! ## After a wait -/

/-- The first operation of a kind that a program performs is followed by a program that has a
property. -/
def Until (kind : I.Op → Prop) (onward : Program I α → Prop) : Program I α → Prop
  | .pure _ => True
  | .call op next => (kind op → ∀ answer, onward (next answer)) ∧
      (¬ kind op → ∀ answer, Until kind onward (next answer))
  | .hang => True

namespace Until

variable {kind : I.Op → Prop} {rule : History I → I.Op → Prop} {history : History I}

/-- A program without any such operation. -/
theorem of_follows {onward : Program I α → Prop} {program : Program I α}
    {post : History I → α → Prop} (follows : Follows rule post program history)
    (others : ∀ history op, rule history op → ¬ kind op) : Until kind onward program := by
  induction program generalizing history with
  | pure value => trivial
  | call op next ih =>
      exact ⟨fun impossible => (others _ _ follows.1 impossible).elim,
        fun _ answer => ih answer (follows.2 answer)⟩
  | hang => trivial

/-- A program whose first part has no such operation. -/
theorem bind {onward : Program I β → Prop} {first : Program I α} {rest : α → Program I β}
    {post : History I → α → Prop} (follows : Follows rule post first history)
    (others : ∀ history op, rule history op → ¬ kind op)
    (remaining : ∀ value, Until kind onward (rest value)) :
    Until kind onward (first >>= rest) := by
  induction first generalizing history with
  | pure value => exact remaining value
  | call op next ih =>
      exact ⟨fun impossible => (others _ _ follows.1 impossible).elim,
        fun _ answer => ih answer (follows.2 answer)⟩
  | hang => trivial

/-- The same for fallible programs. -/
theorem run_bind {onward : Program I (Except ε β) → Prop} {first : ExceptT ε (Program I) α}
    {rest : α → ExceptT ε (Program I) β} {post : History I → Except ε α → Prop}
    (follows : Follows rule post first.run history)
    (others : ∀ history op, rule history op → ¬ kind op)
    (remaining : ∀ value, Until kind onward (rest value).run) :
    Until kind onward (first >>= rest).run := by
  rw [ExceptT.run_bind]
  apply bind follows others
  intro result
  cases result with
  | ok value => exact remaining value
  | error error => trivial

end Until

namespace System

variable {system : System I World Task ρ} {rule : Task → History I → I.Op → Prop}
  {grows : World → World → Prop} {kept : World → I.Op → Prop} {start world : World}
  {thread : Thread I World Task ρ} {pool : Pool I World Task ρ}

/-- A program that is guarded once it has waited. -/
def GuardedOnwards (system : System I World Task ρ) (kept : World → I.Op → Prop) :
    Program I ρ → Prop :=
  Until system.waits fun rest => ∀ world,
    Guarded system.environment kept (fun _ _ => True) rest world

/-- A thread that has waited is guarded, and any other one will be. -/
def WaitsGuarded (system : System I World Task ρ) (kept : World → I.Op → Prop) (world : World)
    (thread : Thread I World Task ρ) : Prop :=
  ((∃ entry ∈ thread.entries, system.waits entry.op) →
    Guarded system.environment kept (fun _ _ => True) thread.rest world) ∧
  ((∀ entry ∈ thread.entries, ¬ system.waits entry.op) → system.GuardedOnwards kept thread.rest)

/-- A finished thread has nothing to guard. -/
theorem waitsGuarded_of_finished (finished : thread.Finished) :
    system.WaitsGuarded kept world thread := by
  unfold WaitsGuarded
  cases running : thread.rest with
  | pure value => exact ⟨fun _ => trivial, fun _ => trivial⟩
  | call op next => exact (finished op next running).elim
  | hang => exact ⟨fun _ => trivial, fun _ => trivial⟩

/-- A thread that has waited for all others goes on as if it were alone. -/
theorem waits_guarded (ruled : system.Ruled rule) (monotone : system.Monotone grows)
    (childless : ∀ task history op child, rule task history op → system.spawns op (some child) →
      ¬ system.waits op ∧ ∀ exchange ∈ history, ¬ system.waits exchange.op)
    (main : ∀ task, system.main task → system.GuardedOnwards kept (system.body task))
    (spawned : ∀ task history op child, rule task history op → system.spawns op (some child) →
      system.GuardedOnwards kept (system.body child))
    (reached : system.Reaches start pool) :
    ∀ thread ∈ pool.threads, system.WaitsGuarded kept pool.world thread := by
  induction reached with
  | refl => simp
  | tail reached step ih =>
      have known := justified ruled monotone reached
      have exclusive := alone ruled monotone childless reached
      cases step with
      | drift drifted =>
          intro thread member
          obtain ⟨waited, unwaited⟩ := ih thread member
          exact ⟨fun there => (waited there).drifts (.single drifted), unwaited⟩
      | @perform world next before after thread op rest answer child running performed waited
          spawns =>
          have mine := ih thread (by simp)
          have apart : ∀ other ∈ before ++ after, system.Waited other → thread.Finished := by
            intro other there waiting
            obtain ⟨-, inner, outer⟩ := List.pairwise_append.mp exclusive
            rcases List.mem_append.mp there with early | late
            · exact (outer other early thread (by simp)).1 waiting
            · exact ((List.pairwise_cons.mp inner).1 other late).2 waiting
          have others : ∀ other ∈ before ++ after, system.WaitsGuarded kept next other := by
            intro other there
            by_cases finished : other.Finished
            · exact waitsGuarded_of_finished finished
            · have unwaited : ¬ ∃ entry ∈ other.entries, system.waits entry.op := fun waits =>
                Thread.not_finished running (apart other there ⟨finished, waits⟩)
              refine ⟨fun waits => (unwaited waits).elim, fun never => (ih other ?_).2 never⟩
              rcases List.mem_append.mp there with early | late
              · simp [early]
              · simp [late]
          intro other member
          simp only [List.append_assoc, List.cons_append, List.mem_append, List.mem_cons,
            List.mem_map, Option.mem_toList] at member
          rcases member with there | rfl | there | ⟨task, rfl, rfl⟩
          · exact others other (List.mem_append_left _ there)
          · unfold WaitsGuarded at mine
            rw [running] at mine
            constructor
            · rintro ⟨entry, there, waits⟩
              by_cases already : ∃ entry ∈ thread.entries, system.waits entry.op
              · exact (mine.1 already world .refl).2 answer next performed
              · have never : ∀ entry ∈ thread.entries, ¬ system.waits entry.op :=
                  fun entry there waits => already ⟨entry, there, waits⟩
                simp only [Thread.entries_resumed, List.mem_append, List.mem_singleton] at there
                rcases there with there | rfl
                · exact (never entry there waits).elim
                · exact (mine.2 never).1 waits answer next
            · intro never
              simp only [Thread.entries_resumed, List.forall_mem_append,
                List.forall_mem_singleton] at never
              exact (mine.2 never.1).2 never.2 answer
          · exact others other (List.mem_append_right _ there)
          · have allowed := (known thread (by simp)).allowed running
            obtain ⟨unwaiting, quiet⟩ := childless _ _ op task allowed spawns
            refine ⟨?_, fun _ => spawned _ _ op task allowed spawns⟩
            rintro ⟨entry, there, waits⟩
            simp only [Thread.entries_spawned, List.mem_append, List.mem_singleton] at there
            rcases there with there | rfl
            · exact (quiet entry.exchange (List.mem_map_of_mem there) waits).elim
            · exact (unwaiting waits).elim
      | restart restarted begins =>
          intro thread member
          simp only [List.mem_append, List.mem_map, List.mem_singleton] at member
          rcases member with ⟨alive, -, rfl⟩ | rfl
          · exact waitsGuarded_of_finished alive.killed_finished
          · exact ⟨fun ⟨_, there, _⟩ => by simp at there, fun _ => main _ begins⟩

/-- A thread that has waited performs its next operation in a world that the rule admits. -/
theorem WaitsGuarded.admits (guarded : system.WaitsGuarded kept world thread)
    (waited : ∃ entry ∈ thread.entries, system.waits entry.op) {op : I.Op}
    {next : I.Answer op → Program I ρ} (running : thread.rest = .call op next) :
    kept world op := by
  have mine := guarded.1 waited
  rw [running] at mine
  exact (mine world .refl).1

end System

end Semantics
