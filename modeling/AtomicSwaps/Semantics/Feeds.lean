import AtomicSwaps.Semantics.Guarded

/-!
# Feeds

A feed is a program that runs beside others and sends them events, over a channel of its own. What
it sends may be true of the world, then and ever after, and all it sends may come in a lawful order,
whatever it is answered. Both then hold of every feed of a list, however feeds are started, take
turns, are received from and are stopped.
-/

namespace Semantics

variable {J : Interface} {World Key Event ρ : Type}

/-- A feed: what it is about, what it has exchanged, what it has sent and nobody has received, and
what is left of its program. -/
structure Feed (J : Interface) (Key Event ρ : Type) where
  key : Key
  past : History J
  queue : List Event
  rest : Program J ρ

/-- What feeds are made of: the environment they read, what they send with an exchange, and what
they may be started with. -/
structure Feeding (J : Interface) (World Key Event ρ : Type) where
  environment : Environment J World
  sends : Exchange J → Option Event
  starts : Key → Program J ρ → Prop

namespace Feeding

variable (feeding : Feeding J World Key Event ρ)

/-- Everything a feed has sent. -/
def sent (feed : Feed J Key Event ρ) : List Event := feed.past.filterMap feeding.sends

/-- A feed after an exchange. -/
def turned (feed : Feed J Key Event ρ) (op : J.Op) (answer : J.Answer op) (rest : Program J ρ) :
    Feed J Key Event ρ :=
  { feed with
    past := feed.past ++ [⟨op, answer⟩]
    queue := feed.queue ++ (feeding.sends ⟨op, answer⟩).toList
    rest }

/-- What becomes of a list of feeds in a world, which they only read. -/
inductive Step (world : World) : List (Feed J Key Event ρ) → List (Feed J Key Event ρ) → Prop where
  | start {feeds : List (Feed J Key Event ρ)} {key : Key} {program : Program J ρ}
      (starts : feeding.starts key program) : Step world feeds (feeds ++ [⟨key, [], [], program⟩])
  | turn {before after : List (Feed J Key Event ρ)} {feed : Feed J Key Event ρ} {op : J.Op}
      {rest : J.Answer op → Program J ρ} {answer : J.Answer op}
      (running : feed.rest = .call op rest)
      (performed : feeding.environment.perform op world answer world) :
      Step world (before ++ feed :: after)
        (before ++ feeding.turned feed op answer (rest answer) :: after)
  | stop {before after : List (Feed J Key Event ρ)} {feed : Feed J Key Event ρ} :
      Step world (before ++ feed :: after) (before ++ after)

variable {feeding} in
/-- While the world stands still, a feed takes one turn after the other. -/
theorem Step.turns {world start final : World} {before after : List (Feed J Key Event ρ)}
    {feed : Feed J Key Event ρ} {log : List (Entry J World)} {rest : Program J ρ}
    (advances : Advances feeding.environment feed.rest start log rest final)
    (still : ∀ entry ∈ log, entry.before = world ∧ entry.after = world) :
    Relation.ReflTransGen (feeding.Step world) (before ++ feed :: after)
      (before ++ { feed with
        past := feed.past ++ historyOf log
        queue := feed.queue ++ (historyOf log).filterMap feeding.sends
        rest } :: after) := by
  generalize running : feed.rest = program at advances
  induction advances generalizing feed with
  | none =>
      subst running
      simpa [historyOf] using Relation.ReflTransGen.refl
  | @step op next rest _ here there _ answer log _ performed _ ih =>
      obtain ⟨⟨standing, same⟩, later⟩ := List.forall_mem_cons.mp still
      obtain rfl : here = world := standing
      obtain rfl : there = here := same
      have turn : feeding.Step there (before ++ feed :: after)
          (before ++ feeding.turned feed op answer (next answer) :: after) :=
        .turn running performed
      have turns := @ih (feeding.turned feed op answer (next answer)) later rfl
      have whole := Relation.ReflTransGen.head turn turns
      cases sends : feeding.sends ⟨op, answer⟩ <;>
        simpa [turned, historyOf, Entry.exchange, sends] using whole

/-- What a feed sends is true of the world it is sent in. -/
def Truthful (holds : Key → World → Event → Prop) (key : Key) (world : World) (op : J.Op) : Prop :=
  ∀ answer event, feeding.sends ⟨op, answer⟩ = some event → holds key world event

/-- What a feed sends may come after what it has sent by then. -/
def Lawful (lawful : Key → List Event → Prop) (key : Key) (history : History J) (op : J.Op) :
    Prop :=
  ∀ answer event, feeding.sends ⟨op, answer⟩ = some event →
    lawful key (history.filterMap feeding.sends ++ [event])

/-- A program that only sends what is true, and in a lawful order. -/
structure Honest (holds : Key → World → Event → Prop) (lawful : Key → List Event → Prop) (key : Key)
    (program : Program J ρ) : Prop where
  guarded : ∀ world, Guarded feeding.environment (feeding.Truthful holds key) (fun _ _ => True)
    program world
  follows : Follows (feeding.Lawful lawful key) (fun _ _ => True) program []
  silent : lawful key []

/-- What a feed has sent is true and in order, what it will send too, and what is in its channel it
has sent last. -/
structure Sound (holds : Key → World → Event → Prop) (lawful : Key → List Event → Prop)
    (world : World) (feed : Feed J Key Event ρ) : Prop where
  guarded : Guarded feeding.environment (feeding.Truthful holds feed.key) (fun _ _ => True)
    feed.rest world
  follows : Follows (feeding.Lawful lawful feed.key) (fun _ _ => True) feed.rest feed.past
  held : ∀ event ∈ feeding.sent feed, holds feed.key world event
  ordered : lawful feed.key (feeding.sent feed)
  queued : feed.queue <:+ feeding.sent feed

variable {feeding} {holds : Key → World → Event → Prop} {lawful : Key → List Event → Prop}
  {world next : World} {feed : Feed J Key Event ρ}

theorem sent_turned {op : J.Op} {answer : J.Answer op} {rest : Program J ρ} :
    feeding.sent (feeding.turned feed op answer rest) =
      feeding.sent feed ++ (feeding.sends ⟨op, answer⟩).toList := by
  cases sends : feeding.sends ⟨op, answer⟩ <;> simp [sent, turned, sends]

/-- A feed is sound when it starts. -/
theorem Honest.sound {key : Key} {program : Program J ρ}
    (honest : feeding.Honest holds lawful key program) :
    feeding.Sound holds lawful world ⟨key, [], [], program⟩ where
  guarded := honest.guarded world
  follows := honest.follows
  held := by simp [sent]
  ordered := honest.silent
  queued := List.nil_suffix

namespace Sound

/-- A feed stays sound while the world drifts. -/
theorem drifts (sound : feeding.Sound holds lawful world feed)
    (stable : ∀ {key before after event}, feeding.environment.drift before after →
      holds key before event → holds key after event)
    (drifted : feeding.environment.drift world next) : feeding.Sound holds lawful next feed :=
  { sound with
    guarded := sound.guarded.drifts (.single drifted)
    held := fun event member => stable drifted (sound.held event member) }

/-- A feed stays sound when it takes its turn. -/
theorem turned {op : J.Op} {rest : J.Answer op → Program J ρ} {answer : J.Answer op}
    (sound : feeding.Sound holds lawful world feed) (running : feed.rest = .call op rest)
    (performed : feeding.environment.perform op world answer world) :
    feeding.Sound holds lawful world (feeding.turned feed op answer (rest answer)) := by
  have guarded := sound.guarded
  have follows := sound.follows
  rw [running] at guarded follows
  obtain ⟨truthful, onward⟩ := guarded world .refl
  constructor
  · exact onward answer world performed
  · exact follows.2 answer
  · rw [sent_turned]
    intro event member
    rcases List.mem_append.mp member with earlier | last
    · exact sound.held event earlier
    · exact truthful answer event (Option.mem_toList.mp last)
  · rw [sent_turned]
    cases sends : feeding.sends ⟨op, answer⟩ with
    | none =>
        have ordered : lawful feed.key (feeding.sent feed) := sound.ordered
        simpa [Feeding.turned] using ordered
    | some event => exact follows.1 answer event sends
  · rw [sent_turned]
    obtain ⟨received, split⟩ := sound.queued
    exact ⟨received, by rw [← split]; simp [Feeding.turned]⟩

end Sound

/-- All feeds of a list are sound. -/
def AllSound (feeding : Feeding J World Key Event ρ) (holds : Key → World → Event → Prop)
    (lawful : Key → List Event → Prop) (world : World) (feeds : List (Feed J Key Event ρ)) : Prop :=
  ∀ feed ∈ feeds, feeding.Sound holds lawful world feed

variable {feeds later : List (Feed J Key Event ρ)}

/-- Feeds of honest programs stay sound, whatever becomes of them. -/
theorem AllSound.step (sound : feeding.AllSound holds lawful world feeds)
    (honest : ∀ key program, feeding.starts key program → feeding.Honest holds lawful key program)
    (step : feeding.Step world feeds later) : feeding.AllSound holds lawful world later := by
  cases step with
  | start starts =>
      intro feed member
      rcases List.mem_append.mp member with earlier | last
      · exact sound feed earlier
      · obtain rfl := List.mem_singleton.mp last
        exact (honest _ _ starts).sound
  | @turn before after feed op rest answer running performed =>
      intro other member
      rcases List.mem_append.mp member with early | late
      · exact sound other (by simp [early])
      · rcases List.mem_cons.mp late with rfl | late
        · exact (sound feed (by simp)).turned running performed
        · exact sound other (by simp [late])
  | @stop before after feed =>
      intro other member
      rcases List.mem_append.mp member with early | late
      · exact sound other (by simp [early])
      · exact sound other (by simp [late])

/-- Feeds stay sound while the world drifts. -/
theorem AllSound.drifts (sound : feeding.AllSound holds lawful world feeds)
    (stable : ∀ {key before after event}, feeding.environment.drift before after →
      holds key before event → holds key after event)
    (drifted : feeding.environment.drift world next) : feeding.AllSound holds lawful next feeds :=
  fun feed member => (sound feed member).drifts stable drifted

end Feeding

/-- The first event in the channel of a feed is received. -/
inductive Received (key : Key) (event : Event) :
    List (Feed J Key Event ρ) → List (Feed J Key Event ρ) → Prop where
  | first {before after : List (Feed J Key Event ρ)} {feed : Feed J Key Event ρ}
      {queue : List Event} (named : feed.key = key) (first : feed.queue = event :: queue) :
      Received key event (before ++ feed :: after) (before ++ { feed with queue } :: after)

/-- What is received from sound feeds is true, and leaves them sound. -/
theorem Feeding.AllSound.received {feeding : Feeding J World Key Event ρ}
    {holds : Key → World → Event → Prop} {lawful : Key → List Event → Prop} {world : World}
    {feeds later : List (Feed J Key Event ρ)} {key : Key} {event : Event}
    (sound : feeding.AllSound holds lawful world feeds)
    (received : Received key event feeds later) :
    holds key world event ∧ feeding.AllSound holds lawful world later := by
  cases received with
  | @first before after feed queue named first =>
      subst named
      have mine := sound feed (by simp)
      have queued := mine.queued
      rw [first] at queued
      refine ⟨mine.held event (queued.subset List.mem_cons_self), fun other member => ?_⟩
      rcases List.mem_append.mp member with early | late
      · exact sound other (by simp [early])
      · rcases List.mem_cons.mp late with rfl | late
        · exact { mine with queued := (List.suffix_cons event queue).trans queued }
        · exact sound other (by simp [late])

end Semantics
