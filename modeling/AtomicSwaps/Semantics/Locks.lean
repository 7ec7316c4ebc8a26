import AtomicSwaps.Semantics.Process

/-!
# Locks

A lock that threads take and release by operations. What a thread knows of the lock it
holds is a function of its own exchanges; what the lock is like is a part of the world.
`Lock.held` is mutual exclusion: at most one thread that still runs holds the lock, and it
knows what the lock is like.
-/

namespace Semantics

variable {I : Interface} {World Task ρ S : Type}

/-- A lock: what its holder knows of it, and what it is like. -/
structure Lock (I : Interface) (World S : Type) where
  knows : History I → Option S
  state : World → Option S

namespace Lock

variable (lock : Lock I World S)

/-- A thread that still runs holds the lock. -/
def Owns (thread : Thread I World Task ρ) : Prop :=
  ¬ thread.Finished ∧ lock.knows thread.history ≠ none

/-- Threads that keep to the rule keep to the lock: an operation leaves it alone, or it was free
or the thread's own and the thread knows what it is like afterwards. -/
structure Kept (system : System I World Task ρ) (rule : Task → History I → I.Op → Prop) : Prop where
  fresh : lock.knows [] = none
  drift : ∀ {before after}, system.environment.drift before after → lock.state after = lock.state before
  perform : ∀ {task history op before answer after}, rule task history op →
    system.environment.perform op before answer after →
    (lock.knows (history ++ [⟨op, answer⟩]) = lock.knows history ∧
      lock.state after = lock.state before) ∨
    ((lock.state before = none ∨ lock.knows history ≠ none) ∧
      ((lock.knows history ≠ none → lock.knows history = lock.state before) →
        lock.knows (history ++ [⟨op, answer⟩]) = lock.state after))
  child : ∀ {task history op answer child}, rule task history op → system.spawns op (some child) →
    lock.knows (history ++ [⟨op, answer⟩]) = none

/-- At most one thread owns the lock, and it knows what the lock is like. -/
structure Held (pool : Pool I World Task ρ) : Prop where
  alone : pool.threads.Pairwise fun first second => ¬ (lock.Owns first ∧ lock.Owns second)
  agrees : ∀ thread ∈ pool.threads, lock.Owns thread → lock.knows thread.history = lock.state pool.world

variable {lock} {system : System I World Task ρ} {rule : Task → History I → I.Op → Prop}
  {pool : Pool I World Task ρ} {world next : World} {thread : Thread I World Task ρ}

theorem Held.idle {threads : List (Thread I World Task ρ)}
    (idle : ∀ thread ∈ threads, ¬ lock.Owns thread) : lock.Held ⟨world, threads⟩ where
  alone := (List.pairwise_of_forall_mem_list fun first member _ _ owns =>
    idle first member owns.1)
  agrees thread member owns := (idle thread member owns).elim

theorem not_owns_killed : ¬ lock.Owns thread.killed := fun owns => owns.1 thread.killed_finished

theorem not_owns_main (kept : lock.Kept system rule) {task : Task} :
    ¬ lock.Owns (Thread.spawned task [] (system.body task)) := fun owns => owns.2 kept.fresh

/-- The others do not own a lock that is free or the thread's own. -/
theorem Held.others {before after : List (Thread I World Task ρ)}
    (held : lock.Held ⟨world, before ++ thread :: after⟩) (running : ¬ thread.Finished)
    (mine : lock.state world = none ∨ lock.knows thread.history ≠ none) :
    ∀ other ∈ before ++ after, ¬ lock.Owns other := by
  intro other member owns
  have inside : other ∈ before ++ thread :: after := by
    rcases List.mem_append.mp member with early | late
    · exact List.mem_append_left _ early
    · exact List.mem_append_right _ (List.mem_cons_of_mem _ late)
  rcases mine with free | own
  · exact owns.2 ((held.agrees other inside owns).trans free)
  · obtain ⟨-, inner, outer⟩ := List.pairwise_append.mp held.alone
    rcases List.mem_append.mp member with early | late
    · exact outer other early thread List.mem_cons_self ⟨owns, running, own⟩
    · exact (List.pairwise_cons.mp inner).1 other late ⟨⟨running, own⟩, owns⟩

/-- One thread of a pool is another one now, and a child is added that owns nothing. -/
theorem Held.replace {before after children : List (Thread I World Task ρ)}
    {resumed : Thread I World Task ρ} (held : lock.Held ⟨world, before ++ thread :: after⟩)
    (born : ∀ child ∈ children, ¬ lock.Owns child)
    (changed : (lock.Owns resumed → lock.Owns thread) ∨ ∀ other ∈ before ++ after, ¬ lock.Owns other)
    (agrees : lock.Owns resumed → lock.knows resumed.history = lock.state next)
    (others : ∀ other ∈ before ++ after, lock.Owns other → lock.knows other.history = lock.state next) :
    lock.Held ⟨next, before ++ resumed :: after ++ children⟩ := by
  obtain ⟨left, inner, outer⟩ := List.pairwise_append.mp held.alone
  obtain ⟨mine, right⟩ := List.pairwise_cons.mp inner
  have apart : ∀ other ∈ before ++ after, ¬ (lock.Owns resumed ∧ lock.Owns other) := by
    rintro other member ⟨owns, also⟩
    rcases changed with kept | alone
    · rcases List.mem_append.mp member with early | late
      · exact outer other early thread List.mem_cons_self ⟨also, kept owns⟩
      · exact mine other late ⟨kept owns, also⟩
    · exact alone other member also
  constructor
  · refine List.pairwise_append.mpr ⟨?_, ?_, fun other _ child member owns => born child member owns.2⟩
    · refine List.pairwise_append.mpr ⟨left, List.pairwise_cons.mpr ⟨?_, right⟩, ?_⟩
      · exact fun other late => apart other (List.mem_append_right _ late)
      · intro other early last member
        rcases List.mem_cons.mp member with rfl | late
        · exact fun owns => apart other (List.mem_append_left _ early) owns.symm
        · exact outer other early last (List.mem_cons_of_mem _ late)
    · exact List.pairwise_of_forall_mem_list fun child member _ _ owns => born child member owns.1
  · intro other member owns
    rcases List.mem_append.mp member with inside | child
    · rcases List.mem_append.mp inside with early | late
      · exact others other (List.mem_append_left _ early) owns
      · rcases List.mem_cons.mp late with rfl | late
        · exact agrees owns
        · exact others other (List.mem_append_right _ late) owns
    · exact (born other child owns).elim

/-- Mutual exclusion, in every reachable pool. -/
theorem held {start : World} {grows : World → World → Prop} (kept : lock.Kept system rule)
    (ruled : system.Ruled rule) (monotone : system.Monotone grows)
    (reached : system.Reaches start pool) : lock.Held pool := by
  induction reached with
  | refl => exact .idle (by simp)
  | tail reached step ih =>
      have known := System.justified ruled monotone reached
      cases step with
      | drift drifted =>
          refine ⟨ih.alone, fun thread member owns => ?_⟩
          rw [ih.agrees thread member owns]
          exact (kept.drift drifted).symm
      | restart restarted main =>
          refine .idle fun thread member => ?_
          rcases List.mem_append.mp member with dead | fresh
          · obtain ⟨alive, -, rfl⟩ := List.mem_map.mp dead
            exact not_owns_killed
          · obtain rfl := List.mem_singleton.mp fresh
            exact not_owns_main kept
      | @perform world next before after thread op rest answer child running performed waited spawns =>
          have here : thread ∈ before ++ thread :: after := by simp
          have unfinished := Thread.not_finished running
          have allowed := (known thread here).allowed running
          have extended : (thread.resumed ⟨op, answer, world, next⟩ (rest answer)).history =
              thread.history ++ [⟨op, answer⟩] := by
            simp [Thread.history, Entry.exchange]
          have born : ∀ fresh ∈ child.toList.map fun task => Thread.spawned task
              (thread.entries ++ [⟨op, answer, world, next⟩]) (system.body task), ¬ lock.Owns fresh := by
            rintro fresh member owns
            obtain ⟨task, inside, rfl⟩ := List.mem_map.mp member
            obtain rfl := Option.mem_toList.mp inside
            refine owns.2 ?_
            simpa [Thread.history, Entry.exchange] using kept.child allowed spawns
          have inside : ∀ other ∈ before ++ after, other ∈ before ++ thread :: after := by
            intro other member
            rcases List.mem_append.mp member with early | late
            · exact List.mem_append_left _ early
            · exact List.mem_append_right _ (List.mem_cons_of_mem _ late)
          rcases kept.perform allowed performed with ⟨same, still⟩ | ⟨mine, follows⟩
          · refine ih.replace born (.inl fun owns => ⟨unfinished, ?_⟩) (fun owns => ?_)
              fun other member owns => ?_
            · rw [← same, ← extended]
              exact owns.2
            · rw [extended, same, still]
              refine ih.agrees thread here ⟨unfinished, ?_⟩
              rw [← same, ← extended]
              exact owns.2
            · rw [still]
              exact ih.agrees other (inside other member) owns
          · have alone := ih.others unfinished mine
            refine ih.replace born (.inr alone) (fun _ => ?_) fun other member owns =>
              (alone other member owns).elim
            rw [extended]
            exact follows fun own => ih.agrees thread here ⟨unfinished, own⟩

end Lock

end Semantics
