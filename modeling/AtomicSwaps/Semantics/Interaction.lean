import AtomicSwaps.Semantics.Run

/-!
# Programs that interact

A program is a tree of operations with one branch for every answer its environment
may give. `Follows rule post` says that every operation the program can reach obeys
`rule`, given the exchanges before it, and that every value it can return satisfies
`post`; nothing is assumed of the answers. An `Execution` runs a program to its end
in a world that drifts between operations and answers them.
-/

namespace Semantics

/-- Operations with the type of answer each of them has. -/
structure Interface where
  Op : Type
  Answer : Op → Type

variable {I : Interface} {ε α β : Type}

/-- A program over an interface. `hang` never returns: a lost task, or a loop whose
iterations are used up. -/
inductive Program (I : Interface) (α : Type) : Type where
  | pure (value : α)
  | call (op : I.Op) (next : I.Answer op → Program I α)
  | hang

namespace Program

/-- Continue with `rest` on the value a program returns. -/
def bind : Program I α → (α → Program I β) → Program I β
  | .pure value, rest => rest value
  | .call op next, rest => .call op fun answer => (next answer).bind rest
  | .hang, _ => .hang

instance : Monad (Program I) where
  pure := .pure
  bind := .bind

/-- One operation. -/
def perform (op : I.Op) : Program I (I.Answer op) := .call op .pure

/-- A fallible operation of its own. -/
def request (op : I.Op) : ExceptT ε (Program I) (I.Answer op) := ExceptT.lift (perform op)

/-- Return a result, error or not. -/
def returned (result : Except ε α) : ExceptT ε (Program I) α := ExceptT.mk (.pure result)

/-- Run a fallible program and go on with its result, error or not. -/
def attempt (program : ExceptT ε (Program I) α) : ExceptT ε (Program I) (Except ε α) :=
  ExceptT.lift program.run

/-- `loop`, cut off after `fuel` iterations: the body breaks with a value, goes on with
another state, or fails. -/
def iterate {State : Type} (body : State → ExceptT ε (Program I) (State ⊕ α)) :
    Nat → State → ExceptT ε (Program I) α
  | 0, _ => ExceptT.mk .hang
  | fuel + 1, state => do
      match ← body state with
      | .inl next => iterate body fuel next
      | .inr value => return value

@[simp] theorem pure_bind (value : α) (rest : α → Program I β) :
    (.pure value : Program I α) >>= rest = rest value := rfl

@[simp] theorem call_bind (op : I.Op) (next : I.Answer op → Program I α)
    (rest : α → Program I β) :
    .call op next >>= rest = .call op fun answer => next answer >>= rest := rfl

@[simp] theorem hang_bind (rest : α → Program I β) :
    (.hang : Program I α) >>= rest = .hang := rfl

@[simp] theorem perform_bind (op : I.Op) (rest : I.Answer op → Program I β) :
    perform op >>= rest = .call op rest := rfl

@[simp] theorem monad_pure (value : α) : (Pure.pure value : Program I α) = .pure value := rfl

end Program

/-- One operation with the answer it got. -/
structure Exchange (I : Interface) where
  op : I.Op
  answer : I.Answer op

/-- Exchanges, oldest first. -/
abbrev History (I : Interface) := List (Exchange I)

/-- Every reachable operation obeys `rule` and every returned value satisfies `post`,
whatever the answers. -/
def Follows (rule : History I → I.Op → Prop) (post : History I → α → Prop) :
    Program I α → History I → Prop
  | .pure value, history => post history value
  | .call op next, history =>
      rule history op ∧
        ∀ answer, Follows rule post (next answer) (history ++ [⟨op, answer⟩])
  | .hang, _ => True

namespace Follows

variable {rule other : History I → I.Op → Prop} {post weaker : History I → α → Prop}
  {program : Program I α} {history : History I}

@[simp] theorem pure_iff {value : α} :
    Follows rule post (.pure value) history ↔ post history value := Iff.rfl

@[simp] theorem call_iff {op : I.Op} {next : I.Answer op → Program I α} :
    Follows rule post (.call op next) history ↔
      rule history op ∧
        ∀ answer, Follows rule post (next answer) (history ++ [⟨op, answer⟩]) := Iff.rfl

@[simp] theorem hang_iff : Follows rule post (.hang : Program I α) history ↔ True := Iff.rfl

/-- A sequence follows the rule when its first part does, up to states from which the
rest does. -/
theorem bind_iff {rest : α → Program I β} {post : History I → β → Prop} :
    Follows rule post (program >>= rest) history ↔
      Follows rule (fun later value => Follows rule post (rest value) later)
        program history := by
  induction program generalizing history with
  | pure value => rfl
  | call op next ih => simp only [Program.call_bind, call_iff, ih]
  | hang => rfl

/-- Weaken the rule and the postcondition. -/
theorem mono (follows : Follows rule post program history)
    (rules : ∀ history op, rule history op → other history op)
    (posts : ∀ history value, post history value → weaker history value) :
    Follows other weaker program history := by
  induction program generalizing history with
  | pure value => exact posts _ _ follows
  | call op next ih => exact ⟨rules _ _ follows.1, fun answer => ih answer (follows.2 answer)⟩
  | hang => trivial

/-- Weaken the postcondition. -/
theorem weaken (follows : Follows rule post program history)
    (posts : ∀ history value, post history value → weaker history value) :
    Follows rule weaker program history :=
  follows.mono (fun _ _ kept => kept) posts

/-- Both rules and both postconditions hold together. -/
theorem and (first : Follows rule post program history)
    (second : Follows other weaker program history) :
    Follows (fun history op => rule history op ∧ other history op)
      (fun history value => post history value ∧ weaker history value) program history := by
  induction program generalizing history with
  | pure value => exact ⟨first, second⟩
  | call op next ih =>
      exact ⟨⟨first.1, second.1⟩, fun answer => ih answer (first.2 answer) (second.2 answer)⟩
  | hang => trivial

/-- The history at any later point extends the history at the start. -/
theorem extends_history (program : Program I α) (history : History I) :
    Follows (fun later _ => history <+: later) (fun later _ => history <+: later)
      program history := by
  suffices grown : ∀ start, history <+: start →
      Follows (fun later _ => history <+: later) (fun later _ => history <+: later)
        program start from grown history (List.prefix_refl _)
  intro start extended
  induction program generalizing start with
  | pure value => exact extended
  | call op next ih =>
      exact ⟨extended, fun answer => ih answer _ (extended.trans (List.prefix_append _ _))⟩
  | hang => trivial

/-- What the rule says of every operation holds of all operations since the start. -/
theorem since {holds : I.Op → Prop} (follows : Follows rule post program history)
    (ruled : ∀ history op, rule history op → holds op) :
    Follows
      (fun later op => rule later op ∧
        ∃ middle, later = history ++ middle ∧ ∀ exchange ∈ middle, holds exchange.op)
      (fun later value => post later value ∧
        ∃ middle, later = history ++ middle ∧ ∀ exchange ∈ middle, holds exchange.op)
      program history := by
  suffices grown : ∀ middle : History I, (∀ exchange ∈ middle, holds exchange.op) →
      Follows rule post program (history ++ middle) →
      Follows
        (fun later op => rule later op ∧
          ∃ middle, later = history ++ middle ∧ ∀ exchange ∈ middle, holds exchange.op)
        (fun later value => post later value ∧
          ∃ middle, later = history ++ middle ∧ ∀ exchange ∈ middle, holds exchange.op)
        program (history ++ middle) by
    have whole := grown [] (by simp) (by simpa using follows)
    simpa using whole
  clear follows
  induction program with
  | pure value => exact fun middle kept follows => ⟨follows, middle, rfl, kept⟩
  | call op next ih =>
      intro middle kept follows
      refine ⟨⟨follows.1, middle, rfl, kept⟩, fun answer => ?_⟩
      have extended : ∀ exchange ∈ middle ++ [⟨op, answer⟩], holds exchange.op := by
        intro exchange member
        rcases List.mem_append.mp member with earlier | last
        · exact kept exchange earlier
        · obtain rfl := List.mem_singleton.mp last
          exact ruled _ op follows.1
      have rest := ih answer (middle ++ [⟨op, answer⟩]) extended
        (by simpa using follows.2 answer)
      simpa using rest
  | hang => exact fun _ _ _ => trivial

/-- A sequence of fallible programs: an error of the first part is the result. -/
theorem run_bind_iff {first : ExceptT ε (Program I) α} {rest : α → ExceptT ε (Program I) β}
    {post : History I → Except ε β → Prop} :
    Follows rule post (first >>= rest).run history ↔
      Follows rule (fun later result =>
        match result with
        | .ok value => Follows rule post (rest value).run later
        | .error error => post later (.error error)) first.run history := by
  rw [ExceptT.run_bind, bind_iff]
  constructor
  all_goals
    intro follows
    refine follows.weaken fun later result kept => ?_
    cases result <;> exact kept

section Fallible

variable {post : History I → Except ε α → Prop}

theorem run_pure_iff {value : α} :
    Follows rule post (pure value : ExceptT ε (Program I) α).run history ↔
      post history (.ok value) := Iff.rfl

theorem run_throw_iff {error : ε} :
    Follows rule post (throw error : ExceptT ε (Program I) α).run history ↔
      post history (.error error) := Iff.rfl

theorem run_returned_iff {result : Except ε α} :
    Follows rule post (Program.returned result).run history ↔ post history result := Iff.rfl

theorem run_attempt_iff {program : ExceptT ε (Program I) α}
    {post : History I → Except ε (Except ε α) → Prop} :
    Follows rule post (Program.attempt program).run history ↔
      Follows rule (fun later result => post later (.ok result)) program.run history := by
  simp only [Program.attempt, ExceptT.run_lift]
  exact bind_iff

/-- Either branch of a conditional. -/
theorem run_ite_iff {condition : Prop} [Decidable condition] {yes no : ExceptT ε (Program I) α} :
    Follows rule post (if condition then yes else no).run history ↔
      (condition → Follows rule post yes.run history) ∧
        (¬ condition → Follows rule post no.run history) := by
  by_cases holds : condition <;> simp [holds]

/-- An operation and then the rest. -/
theorem request_bind {op : I.Op} {rest : I.Answer op → ExceptT ε (Program I) α}
    (allowed : rule history op)
    (next : ∀ answer, Follows rule post (rest answer).run (history ++ [⟨op, answer⟩])) :
    Follows rule post (Program.request op >>= rest).run history := ⟨allowed, next⟩

end Fallible

/-- A loop keeps its invariant, and breaks into its postcondition. -/
theorem iterate {State : Type} {body : State → ExceptT ε (Program I) (State ⊕ α)}
    {post : History I → Except ε α → Prop} (invariant : History I → State → Prop)
    (step : ∀ history state, invariant history state →
      Follows rule (fun later result =>
        match result with
        | .ok (.inl next) => invariant later next
        | .ok (.inr value) => post later (.ok value)
        | .error error => post later (.error error)) (body state).run history)
    (fuel : Nat) (state : State) (initially : invariant history state) :
    Follows rule post (Program.iterate body fuel state).run history := by
  induction fuel generalizing history state with
  | zero => trivial
  | succ fuel ih =>
      simp only [Program.iterate]
      rw [run_bind_iff]
      refine (step history state initially).weaken fun later result kept => ?_
      cases result with
      | error error => exact kept
      | ok broke =>
          cases broke with
          | inl next => exact ih next kept
          | inr value => exact kept

end Follows

/-- An operation carried out, between the worlds before and after it. -/
structure Entry (I : Interface) (World : Type) where
  op : I.Op
  answer : I.Answer op
  before : World
  after : World

variable {World : Type}

/-- An operation that leaves the world as it is. -/
def Entry.quiet (world : World) (op : I.Op) (answer : I.Answer op) : Entry I World :=
  ⟨op, answer, world, world⟩

/-- The exchange of an entry. -/
def Entry.exchange (entry : Entry I World) : Exchange I := ⟨entry.op, entry.answer⟩

/-- The exchanges of a log. -/
def historyOf (log : List (Entry I World)) : History I := log.map Entry.exchange

@[simp] theorem historyOf_append (first second : List (Entry I World)) :
    historyOf (first ++ second) = historyOf first ++ historyOf second := List.map_append

@[simp] theorem historyOf_nil : historyOf ([] : List (Entry I World)) = [] := rfl

@[simp] theorem historyOf_cons (entry : Entry I World) (log : List (Entry I World)) :
    historyOf (entry :: log) = entry.exchange :: historyOf log := rfl

/-- An environment: how it answers operations and what it does by itself. -/
structure Environment (I : Interface) (World : Type) where
  perform : (op : I.Op) → World → I.Answer op → World → Prop
  drift : World → World → Prop

/-- A complete run: the world drifts before every operation, and the program returns
right after its last one. -/
inductive Execution (environment : Environment I World) :
    Program I α → World → List (Entry I World) → α → World → Prop where
  | done {value : α} {world : World} :
      Execution environment (.pure value) world [] value world
  | step {op : I.Op} {next : I.Answer op → Program I α} {start before after final : World}
      {answer : I.Answer op} {value : α} {log : List (Entry I World)}
      (drifted : Relation.ReflTransGen environment.drift start before)
      (performed : environment.perform op before answer after)
      (rest : Execution environment (next answer) after log value final) :
      Execution environment (.call op next) start (⟨op, answer, before, after⟩ :: log) value final

namespace Execution

variable {environment : Environment I World} {program : Program I α} {start final : World}
  {log : List (Entry I World)} {value : α}

/-- What a complete run returns satisfies the postcondition on its exchanges. -/
theorem returns {rule : History I → I.Op → Prop} {post : History I → α → Prop}
    {history : History I} (execution : Execution environment program start log value final)
    (follows : Follows rule post program history) : post (history ++ historyOf log) value := by
  induction execution generalizing history with
  | done => simpa using follows
  | step drifted performed rest ih =>
      have returned := ih (follows.2 _)
      simpa [Entry.exchange] using returned

/-- Every operation of a complete run obeys the rule on the exchanges before it. -/
theorem obeys {rule : History I → I.Op → Prop} {post : History I → α → Prop}
    {history : History I} (execution : Execution environment program start log value final)
    (follows : Follows rule post program history) {earlier later : List (Entry I World)}
    {entry : Entry I World} (split : log = earlier ++ entry :: later) :
    rule (history ++ historyOf earlier) entry.op := by
  induction execution generalizing history earlier with
  | done => simp at split
  | step drifted performed rest ih =>
      cases earlier with
      | nil =>
          obtain ⟨rfl, rfl⟩ := List.cons.inj split
          simpa using follows.1
      | cons first earlier =>
          obtain ⟨rfl, rfl⟩ := List.cons.inj split
          have obeyed := ih (follows.2 _) rfl
          simpa [Entry.exchange] using obeyed

/-- Every entry of a complete run was performed by the environment. -/
theorem performed (execution : Execution environment program start log value final)
    {entry : Entry I World} (member : entry ∈ log) :
    environment.perform entry.op entry.before entry.answer entry.after := by
  induction execution with
  | done => simp at member
  | step drifted performed rest ih =>
      rcases List.mem_cons.mp member with rfl | later
      · exact performed
      · exact ih later

/-- A complete run of the first part of a sequence goes on with one of the rest. -/
theorem and_then {rest : α → Program I β} {later : List (Entry I World)} {result : β} {middle : World}
    (first : Execution environment program start log value middle)
    (second : Execution environment (rest value) middle later result final) :
    Execution environment (program >>= rest) start (log ++ later) result final := by
  induction first with
  | done => exact second
  | step drifted performed _ ih => exact .step drifted performed (ih second)

/-- The same for fallible programs, if the first part does not fail. -/
theorem run_and_then {first : ExceptT ε (Program I) α} {rest : α → ExceptT ε (Program I) β}
    {later : List (Entry I World)} {result : Except ε β} {middle : World}
    (ahead : Execution environment first.run start log (.ok value) middle)
    (behind : Execution environment (rest value).run middle later result final) :
    Execution environment (first >>= rest).run start (log ++ later) result final := by
  rw [ExceptT.run_bind]
  exact ahead.and_then behind

/-- A complete run of a sequence is one of its first part and one of the rest. -/
theorem bind {rest : α → Program I β} {value : β}
    (execution : Execution environment (program >>= rest) start log value final) :
    ∃ early late first middle, log = early ++ late ∧
      Execution environment program start early first middle ∧
      Execution environment (rest first) middle late value final := by
  induction program generalizing start log with
  | pure first => exact ⟨[], log, first, start, rfl, .done, execution⟩
  | call op next ih =>
      cases execution with
      | step drifted performed onward =>
          obtain ⟨early, late, first, middle, rfl, done, remaining⟩ := ih _ onward
          exact ⟨_ :: early, late, first, middle, rfl, .step drifted performed done, remaining⟩
  | hang => cases execution

/-- A complete run of a sequence of fallible programs: the rest runs unless the first
part fails. -/
theorem run_bind {first : ExceptT ε (Program I) α} {rest : α → ExceptT ε (Program I) β}
    {value : Except ε β}
    (execution : Execution environment (first >>= rest).run start log value final) :
    ∃ early late result middle, log = early ++ late ∧
      Execution environment first.run start early result middle ∧
      match result with
      | .ok result => Execution environment (rest result).run middle late value final
      | .error error => late = [] ∧ value = .error error := by
  rw [ExceptT.run_bind] at execution
  obtain ⟨early, late, result, middle, split, done, remaining⟩ := execution.bind
  refine ⟨early, late, result, middle, split, done, ?_⟩
  cases result with
  | ok result => exact remaining
  | error error =>
      cases remaining
      exact ⟨rfl, rfl⟩

/-- A complete run that begins with an operation. -/
theorem request_bind {op : I.Op} {rest : I.Answer op → ExceptT ε (Program I) β}
    {value : Except ε β}
    (execution : Execution environment (Program.request op >>= rest).run start log value final) :
    ∃ answer before after late, log = ⟨op, answer, before, after⟩ :: late ∧
      Execution environment (rest answer).run after late value final := by
  cases execution with
  | step drifted performed onward => exact ⟨_, _, _, _, rfl, onward⟩

/-- A program that returns at once. -/
theorem run_pure {value : α} {result : Except ε α}
    (execution : Execution environment (pure value : ExceptT ε (Program I) α).run start log result
      final) : log = [] ∧ result = .ok value ∧ start = final := by
  cases execution
  exact ⟨rfl, rfl, rfl⟩

/-- A program that is attempted runs to its result, error or not. -/
theorem run_attempt_iff {program : ExceptT ε (Program I) α} {result : Except ε (Except ε α)} :
    Execution environment (Program.attempt program).run start log result final ↔
      ∃ outcome, result = .ok outcome ∧
        Execution environment program.run start log outcome final := by
  simp only [Program.attempt, ExceptT.run_lift]
  constructor
  · intro execution
    obtain ⟨early, late, outcome, middle, rfl, done, rest⟩ := execution.bind
    cases rest
    exact ⟨outcome, rfl, by simpa using done⟩
  · rintro ⟨outcome, rfl, done⟩
    rw [← List.append_nil log]
    exact done.and_then .done

/-- A complete run of a loop keeps its invariant and ends in its postcondition. -/
theorem iterate {State : Type} {body : State → ExceptT ε (Program I) (State ⊕ α)}
    {post : Except ε α → Prop} (invariant : State → Prop)
    (turn : ∀ {state before log result after}, invariant state →
      Execution environment (body state).run before log result after →
      match result with
      | .ok (.inl next) => invariant next
      | .ok (.inr value) => post (.ok value)
      | .error error => post (.error error))
    {fuel : Nat} {state : State} {result : Except ε α} (initially : invariant state)
    (execution : Execution environment (Program.iterate body fuel state).run start log result final) :
    post result := by
  induction fuel generalizing state start log with
  | zero => cases execution
  | succ fuel ih =>
      simp only [Program.iterate] at execution
      obtain ⟨_, _, outcome, _, _, first, rest⟩ := execution.run_bind
      have kept := turn initially first
      cases outcome with
      | error error =>
          obtain ⟨-, rfl⟩ := rest
          exact kept
      | ok broke =>
          cases broke with
          | inl next => exact ih kept rest
          | inr value =>
              cases rest
              exact kept

/-- A turn of a loop that goes on. -/
theorem iterate_next {State : Type} {body : State → ExceptT ε (Program I) (State ⊕ α)} {fuel : Nat}
    {state next : State} {middle : World} {later : List (Entry I World)} {result : Except ε α}
    (turn : Execution environment (body state).run start log (.ok (.inl next)) middle)
    (rest : Execution environment (Program.iterate body fuel next).run middle later result final) :
    Execution environment (Program.iterate body (fuel + 1) state).run start (log ++ later) result
      final :=
  run_and_then turn rest

/-- The last turn of a loop. -/
theorem iterate_last {State : Type} {body : State → ExceptT ε (Program I) (State ⊕ α)} {fuel : Nat}
    {state : State} {value : α}
    (turn : Execution environment (body state).run start log (.ok (.inr value)) final) :
    Execution environment (Program.iterate body (fuel + 1) state).run start log (.ok value) final := by
  rw [← List.append_nil log]
  exact run_and_then turn .done

/-- A run in one environment is a run in any that answers more. -/
theorem mono {other : Environment I World}
    (drifts : ∀ {before after}, environment.drift before after → other.drift before after)
    (performs : ∀ {op before answer after},
      environment.perform op before answer after → other.perform op before answer after)
    (execution : Execution environment program start log value final) :
    Execution other program start log value final := by
  induction execution with
  | done => exact .done
  | step drifted performed _ ih =>
      exact .step (Relation.ReflTransGen.mono (fun _ _ => drifts) _ _ drifted) (performs performed) ih

/-- A preorder that contains drifting and every operation orders the worlds of a
complete run. -/
theorem ordered {grows : World → World → Prop} (reflexive : ∀ world, grows world world)
    (transitive : ∀ {a b c}, grows a b → grows b c → grows a c)
    (drifting : ∀ {before after}, environment.drift before after → grows before after)
    (performing : ∀ {op before answer after},
      environment.perform op before answer after → grows before after)
    (execution : Execution environment program start log value final) :
    grows start final ∧ ∀ entry ∈ log, grows start entry.before ∧ grows entry.after final := by
  induction execution with
  | done => exact ⟨reflexive _, by simp⟩
  | step drifted performed rest ih =>
      have moved := drifted.head_induction_on (motive := fun world _ => grows world _)
        (reflexive _) fun step _ later => transitive (drifting step) later
      have through := transitive moved (performing performed)
      refine ⟨transitive through ih.1, fun entry member => ?_⟩
      rcases List.mem_cons.mp member with rfl | later
      · exact ⟨moved, ih.1⟩
      · exact ⟨transitive through (ih.2 entry later).1, (ih.2 entry later).2⟩

/-- The same between two entries: the later one starts where the earlier one had led. -/
theorem sequential {grows : World → World → Prop} (reflexive : ∀ world, grows world world)
    (transitive : ∀ {a b c}, grows a b → grows b c → grows a c)
    (drifting : ∀ {before after}, environment.drift before after → grows before after)
    (performing : ∀ {op before answer after},
      environment.perform op before answer after → grows before after)
    (execution : Execution environment program start log value final)
    {earlier later : List (Entry I World)} {entry : Entry I World}
    (split : log = earlier ++ entry :: later) {first : Entry I World} (member : first ∈ earlier) :
    grows first.after entry.before := by
  induction execution generalizing earlier with
  | done => simp at split
  | step drifted performed rest ih =>
      cases earlier with
      | nil => simp at member
      | cons head earlier =>
          obtain ⟨rfl, rfl⟩ := List.cons.inj split
          rcases List.mem_cons.mp member with rfl | deeper
          · exact ((rest.ordered reflexive transitive drifting performing).2 entry (by simp)).1
          · exact ih rfl deeper

end Execution

end Semantics
