import Mathlib.Data.List.Nodup
import Mathlib.Data.List.Sigma
import AtomicSwaps.Semantics.Process

/-!
# Shared events and their authors

Threads that append to one list of events. Every event of a reachable pool was appended
by one operation of one thread, and that operation knows the place of its event.
-/

namespace Semantics

variable {I : Interface} {World Task ρ E : Type}

/-- Nothing but the operations that are stamped touches the events, and each of them
appends what its stamp says. -/
structure Stamped (system : System I World Task ρ) (events : World → List E)
    (stamp : Entry I World → Option E) : Prop where
  drift : ∀ {before after}, system.environment.drift before after → events after = events before
  perform : ∀ {op before answer after}, system.environment.perform op before answer after →
    events after = events before ++ (stamp ⟨op, answer, before, after⟩).toList
  restart : ∀ {before after}, system.restart before after → events after = events before

/-- The place an entry appended its event at. -/
def Entry.place (events : World → List E) (entry : Entry I World) : Nat :=
  (events entry.before).length

/-- The events a thread has appended, with their places. -/
def Thread.marks (events : World → List E) (stamp : Entry I World → Option E)
    (thread : Thread I World Task ρ) : List (E × Nat) :=
  thread.log.filterMap fun entry => (stamp entry).map (·, entry.place events)

/-- Two splits of a list are at one place, or one of them is before the other. -/
theorem split_cases {α : Type} {first second third fourth : List α} {one other : α}
    (same : first ++ one :: second = third ++ other :: fourth) :
    first = third ∧ one = other ∨ one ∈ third ∨ other ∈ first := by
  rcases List.append_eq_append_iff.mp same with ⟨rest, rfl, tail⟩ | ⟨rest, rfl, tail⟩
  · cases rest with
    | nil => simp_all
    | cons head rest =>
        obtain ⟨rfl, -⟩ := List.cons.inj tail
        simp
  · cases rest with
    | nil => simp_all
    | cons head rest =>
        obtain ⟨rfl, -⟩ := List.cons.inj tail
        simp

namespace Stamped

variable {system : System I World Task ρ} {events : World → List E}
  {stamp : Entry I World → Option E} {start : World} {pool : Pool I World Task ρ}

/-- The events only grow. -/
theorem monotone (stamped : Stamped system events stamp) :
    system.Monotone fun before after => events before <+: events after where
  refl _ := List.prefix_refl _
  trans first second := first.trans second
  drift drifted := (stamped.drift drifted).symm ▸ List.prefix_refl _
  perform performed := (stamped.perform performed).symm ▸ List.prefix_append _ _
  restart restarted := (stamped.restart restarted).symm ▸ List.prefix_refl _

/-- The events of a reachable pool are those its threads have appended. -/
theorem authored (stamped : Stamped system events stamp) (reached : system.Reaches start pool)
    (initially : events start = []) :
    (pool.threads.flatMap (Thread.marks events stamp)).Perm (events pool.world).zipIdx := by
  induction reached with
  | refl => simp [initially]
  | tail _ step ih =>
      cases step with
      | drift drifted => simpa [stamped.drift drifted] using ih
      | @perform world next before after thread op rest answer child running performed waited spawns =>
          have born : (child.toList.map fun task => Thread.spawned task
              (thread.entries ++ [⟨op, answer, world, next⟩]) (system.body task)).flatMap
                (Thread.marks events stamp) = [] := by
            cases child <;> simp [Thread.spawned, Thread.marks]
          have mine : (thread.resumed ⟨op, answer, world, next⟩ (rest answer)).marks events stamp =
              thread.marks events stamp ++
                ((stamp ⟨op, answer, world, next⟩).map (·, (events world).length)).toList := by
            simp only [Thread.marks, Thread.resumed, List.filterMap_append]
            cases marked : stamp ⟨op, answer, world, next⟩ <;> simp [Entry.place, marked]
          have appended : (events next).zipIdx = (events world).zipIdx ++
              ((stamp ⟨op, answer, world, next⟩).map (·, (events world).length)).toList := by
            rw [stamped.perform performed]
            cases stamp ⟨op, answer, world, next⟩ <;> simp [List.zipIdx_append]
          simp only [List.flatMap_append, List.flatMap_cons, mine, born, appended, List.append_nil]
          simp only [List.flatMap_append, List.flatMap_cons] at ih
          refine List.Perm.trans ?_ (ih.append_right _)
          simp only [List.append_assoc]
          exact (List.Perm.append_left _ (List.perm_append_comm.append_left _))
      | restart restarted main =>
          have kept : ∀ threads : List (Thread I World Task ρ),
              (threads.map Thread.killed).flatMap (Thread.marks events stamp) =
                threads.flatMap (Thread.marks events stamp) := by
            intro threads
            rw [List.flatMap_map]
            rfl
          simpa [stamped.restart restarted, kept, Thread.spawned, Thread.marks] using ih

/-- Every event was appended by an operation of a thread. -/
theorem exists_author (stamped : Stamped system events stamp) (reached : system.Reaches start pool)
    (initially : events start = []) {place : Nat} {event : E}
    (there : (events pool.world)[place]? = some event) :
    ∃ thread ∈ pool.threads, ∃ earlier entry later, thread.log = earlier ++ entry :: later ∧
      stamp entry = some event ∧ entry.place events = place := by
  have member : (event, place) ∈ (events pool.world).zipIdx := by
    rw [List.mem_zipIdx_iff_getElem?]
    exact there
  have marked := (stamped.authored reached initially).mem_iff.mpr member
  obtain ⟨thread, inside, mark⟩ := List.mem_flatMap.mp marked
  obtain ⟨entry, logged, same⟩ := List.mem_filterMap.mp mark
  obtain ⟨earlier, later, split⟩ := List.append_of_mem logged
  simp only [Option.map_eq_some_iff, Prod.mk.injEq] at same
  obtain ⟨_, stamps, rfl, placed⟩ := same
  exact ⟨thread, inside, earlier, entry, later, split, stamps, placed⟩

/-- What an operation appended is still at its place. -/
theorem placed (stamped : Stamped system events stamp) (reached : system.Reaches start pool)
    (initially : events start = []) {thread : Thread I World Task ρ} (member : thread ∈ pool.threads)
    {entry : Entry I World} (logged : entry ∈ thread.log) {event : E}
    (stamps : stamp entry = some event) : (events pool.world)[entry.place events]? = some event := by
  have mark : (event, entry.place events) ∈ thread.marks events stamp := by
    apply List.mem_filterMap.mpr
    exact ⟨entry, logged, by simp [stamps]⟩
  have marked := (stamped.authored reached initially).mem_iff.mp
    (List.mem_flatMap.mpr ⟨thread, member, mark⟩)
  exact List.mem_zipIdx_iff_getElem?.mp marked

/-- Two operations that appended at one place are one operation of one thread. -/
theorem one_author (stamped : Stamped system events stamp) (reached : system.Reaches start pool)
    (initially : events start = []) {first second : Thread I World Task ρ}
    (here : first ∈ pool.threads) (there : second ∈ pool.threads) {one other : Entry I World}
    (logged : one ∈ first.log) (logged' : other ∈ second.log) {event : E}
    (stamps : stamp one = some event) (stamps' : stamp other = some event)
    (same : one.place events = other.place events) : first = second := by
  refine Classical.byContradiction fun apart => ?_
  have distinct : (pool.threads.flatMap (Thread.marks events stamp)).Nodup :=
    (stamped.authored reached initially).nodup_iff.mpr (List.nodup_zipIdx_map_snd _).of_map
  have symmetric : Std.Symm (Function.onFun List.Disjoint
      fun thread : Thread I World Task ρ => thread.marks events stamp) :=
    ⟨fun _ _ apart _ here there => apart there here⟩
  have disjoint := (List.nodup_flatMap.mp distinct).2.forall here there apart
  have mark : (event, one.place events) ∈ first.marks events stamp :=
    List.mem_filterMap.mpr ⟨one, logged, by simp [stamps]⟩
  have mark' : (event, one.place events) ∈ second.marks events stamp :=
    List.mem_filterMap.mpr ⟨other, logged', by simp [stamps', same]⟩
  exact disjoint mark mark'

end Stamped

/-- What a thread has inherited is of the kind that spawning threads perform. -/
theorem System.inherited {system : System I World Task ρ} {rule : Task → History I → I.Op → Prop}
    {grows : World → World → Prop} {start : World} {pool : Pool I World Task ρ} (kind : I.Op → Prop)
    (ruled : system.Ruled rule) (monotone : system.Monotone grows)
    (spawning : ∀ task history op child, rule task history op → system.spawns op (some child) →
      kind op ∧ ∀ exchange ∈ history, kind exchange.op)
    (reached : system.Reaches start pool) :
    ∀ thread ∈ pool.threads, ∀ entry ∈ thread.past, kind entry.op := by
  induction reached with
  | refl => simp
  | tail reached step ih =>
      have known := justified ruled monotone reached
      cases step with
      | drift drifted => exact ih
      | @perform world next before after thread op rest answer child running performed waited spawns =>
          intro other member
          simp only [List.append_assoc, List.cons_append, List.mem_append, List.mem_cons,
            List.mem_map, Option.mem_toList] at member
          rcases member with there | rfl | there | ⟨task, rfl, rfl⟩
          · exact ih other (by simp [there])
          · exact ih thread (by simp)
          · exact ih other (by simp [there])
          · obtain ⟨here, behind⟩ := spawning _ _ op task
              ((known thread (by simp)).allowed running) spawns
            intro entry inside
            rcases List.mem_append.mp inside with earlier | last
            · exact behind entry.exchange (List.mem_map_of_mem earlier)
            · obtain rfl := List.mem_singleton.mp last
              exact here
      | restart restarted main =>
          intro thread member
          rcases List.mem_append.mp member with old | fresh
          · obtain ⟨alive, there, rfl⟩ := List.mem_map.mp old
            exact ih alive there
          · obtain rfl := List.mem_singleton.mp fresh
            simp [Thread.spawned]

end Semantics
