import AtomicSwaps.Semantics.Interaction

/-!
# Programs that always return

`Returns answers post` says that a program comes to an end with a value satisfying `post`,
whatever it is answered out of the answers that may be given. Unlike `Follows` it does not
hold of a program that hangs. `Completes environment post` says the same of a program in a
world that drifts and that its operations may change.
-/

namespace Semantics

variable {I : Interface} {ε α β : Type}

/-- Every run returns, with a value that satisfies the postcondition. -/
def Returns (answers : (op : I.Op) → I.Answer op → Prop) (post : α → Prop) : Program I α → Prop
  | .pure value => post value
  | .call op next => ∀ answer, answers op answer → Returns answers post (next answer)
  | .hang => False

namespace Returns

variable {answers : (op : I.Op) → I.Answer op → Prop} {post weaker : α → Prop}
  {program : Program I α}

@[simp] theorem pure_iff {value : α} : Returns answers post (.pure value) ↔ post value := Iff.rfl

@[simp] theorem call_iff {op : I.Op} {next : I.Answer op → Program I α} :
    Returns answers post (.call op next) ↔
      ∀ answer, answers op answer → Returns answers post (next answer) := Iff.rfl

@[simp] theorem hang_iff : Returns answers post (.hang : Program I α) ↔ False := Iff.rfl

/-- A sequence returns when its first part returns something from which the rest does. -/
theorem bind_iff {rest : α → Program I β} {post : β → Prop} :
    Returns answers post (program >>= rest) ↔
      Returns answers (fun value => Returns answers post (rest value)) program := by
  induction program with
  | pure value => rfl
  | call op next ih => simp only [Program.call_bind, call_iff, ih]
  | hang => rfl

/-- Weaken the postcondition. -/
theorem weaken (returns : Returns answers post program)
    (posts : ∀ value, post value → weaker value) : Returns answers weaker program := by
  induction program with
  | pure value => exact posts value returns
  | call op next ih => exact fun answer given => ih answer (returns answer given)
  | hang => exact returns

/-- The same for fallible programs: an error of the first part is the result. -/
theorem run_bind_iff {first : ExceptT ε (Program I) α} {rest : α → ExceptT ε (Program I) β}
    {post : Except ε β → Prop} :
    Returns answers post (first >>= rest).run ↔
      Returns answers (fun result =>
        match result with
        | .ok value => Returns answers post (rest value).run
        | .error error => post (.error error)) first.run := by
  rw [ExceptT.run_bind, bind_iff]
  constructor
  all_goals
    intro returns
    refine returns.weaken fun result kept => ?_
    cases result <;> exact kept

/-- A program that is attempted returns its result, error or not. -/
theorem run_attempt_iff {program : ExceptT ε (Program I) α} {post : Except ε (Except ε α) → Prop} :
    Returns answers post (Program.attempt program).run ↔
      Returns answers (fun result => post (.ok result)) program.run := by
  simp only [Program.attempt, ExceptT.run_lift]
  exact bind_iff

/-- An operation and then the rest. -/
theorem request_bind_iff {op : I.Op} {rest : I.Answer op → ExceptT ε (Program I) α}
    {post : Except ε α → Prop} :
    Returns answers post (Program.request op >>= rest).run ↔
      ∀ answer, answers op answer → Returns answers post (rest answer).run := Iff.rfl

end Returns

variable {World : Type}

/-- Every run in the environment returns, in a world and with a value that satisfy the
postcondition. -/
def Completes (environment : Environment I World) (post : World → α → Prop) :
    Program I α → World → Prop
  | .pure value, world => post world value
  | .call op next, world => ∀ before answer after,
      Relation.ReflTransGen environment.drift world before →
      environment.perform op before answer after → Completes environment post (next answer) after
  | .hang, _ => False

namespace Completes

variable {environment : Environment I World} {post weaker : World → α → Prop}
  {program : Program I α} {world : World}

/-- A sequence completes when its first part completes where the rest does. -/
theorem bind_iff {rest : α → Program I β} {post : World → β → Prop} :
    Completes environment post (program >>= rest) world ↔
      Completes environment (fun later value => Completes environment post (rest value) later)
        program world := by
  induction program generalizing world with
  | pure value => rfl
  | call op next ih => simp only [Program.call_bind, Completes, ih]
  | hang => rfl

/-- Weaken the postcondition. -/
theorem weaken (completes : Completes environment post program world)
    (posts : ∀ later value, post later value → weaker later value) :
    Completes environment weaker program world := by
  induction program generalizing world with
  | pure value => exact posts world value completes
  | call op next ih =>
      exact fun before answer after drifted performed =>
        ih answer (completes before answer after drifted performed)
  | hang => exact completes

/-- The same for fallible programs: an error of the first part is the result. -/
theorem run_bind_iff {first : ExceptT ε (Program I) α} {rest : α → ExceptT ε (Program I) β}
    {post : World → Except ε β → Prop} :
    Completes environment post (first >>= rest).run world ↔
      Completes environment (fun later result =>
        match result with
        | .ok value => Completes environment post (rest value).run later
        | .error error => post later (.error error)) first.run world := by
  rw [ExceptT.run_bind, bind_iff]
  constructor
  all_goals
    intro completes
    refine completes.weaken fun later result kept => ?_
    cases result <;> exact kept

/-- A program that is attempted completes with its result, error or not. -/
theorem run_attempt_iff {program : ExceptT ε (Program I) α}
    {post : World → Except ε (Except ε α) → Prop} :
    Completes environment post (Program.attempt program).run world ↔
      Completes environment (fun later result => post later (.ok result)) program.run world := by
  simp only [Program.attempt, ExceptT.run_lift]
  exact bind_iff

/-- An operation and then the rest. -/
theorem request_bind_iff {op : I.Op} {rest : I.Answer op → ExceptT ε (Program I) α}
    {post : World → Except ε α → Prop} :
    Completes environment post (Program.request op >>= rest).run world ↔
      ∀ before answer after, Relation.ReflTransGen environment.drift world before →
        environment.perform op before answer after →
        Completes environment post (rest answer).run after := Iff.rfl

/-- A loop completes when a measure of how much fuel a state needs falls in every turn that
goes on. -/
theorem iterate {State : Type} {body : State → ExceptT ε (Program I) (State ⊕ α)}
    {post : World → Except ε α → Prop} (needs : Nat → World → State → Prop)
    (spent : ∀ world state, ¬ needs 0 world state)
    (turn : ∀ fuel world state, needs (fuel + 1) world state →
      Completes environment (fun later result =>
        match result with
        | .ok (.inl next) => needs fuel later next
        | .ok (.inr value) => post later (.ok value)
        | .error error => post later (.error error)) (body state).run world)
    {fuel : Nat} {state : State} (enough : needs fuel world state) :
    Completes environment post (Program.iterate body fuel state).run world := by
  induction fuel generalizing world state with
  | zero => exact absurd enough (spent world state)
  | succ fuel ih =>
      simp only [Program.iterate]
      rw [run_bind_iff]
      refine (turn fuel world state enough).weaken fun later result kept => ?_
      cases result with
      | error error => exact kept
      | ok broke =>
          cases broke with
          | inl next => exact ih kept
          | inr value => exact kept

end Completes

end Semantics
