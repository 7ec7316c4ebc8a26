import AtomicSwaps.Semantics.Process

/-!
# Programs in a guarded world

`Guarded environment rule post` says that a program performs its operations only in worlds that
the rule admits and returns only in worlds that satisfy the postcondition, however the
environment drifts in between. `Advances.guarded` carries this over to every run, complete or
not.
-/

namespace Semantics

variable {I : Interface} {World ε α β : Type}

/-- Every operation is performed in a world the rule admits, and every value is returned in a
world that satisfies the postcondition. -/
def Guarded (environment : Environment I World) (rule : World → I.Op → Prop)
    (post : World → α → Prop) : Program I α → World → Prop
  | .pure value, world => post world value
  | .call op next, world => ∀ before, Relation.ReflTransGen environment.drift world before →
      rule before op ∧ ∀ answer after, environment.perform op before answer after →
        Guarded environment rule post (next answer) after
  | .hang, _ => True

namespace Guarded

variable {environment : Environment I World} {rule : World → I.Op → Prop}
  {post weaker : World → α → Prop} {program : Program I α} {world : World}

/-- A sequence is guarded when its first part is, up to worlds in which the rest is. -/
theorem bind_iff {rest : α → Program I β} {post : World → β → Prop} :
    Guarded environment rule post (program >>= rest) world ↔
      Guarded environment rule
        (fun later value => Guarded environment rule post (rest value) later) program world := by
  induction program generalizing world with
  | pure value => rfl
  | call op next ih => simp only [Program.call_bind, Guarded, ih]
  | hang => rfl

/-- Weaken the postcondition. -/
theorem weaken (guarded : Guarded environment rule post program world)
    (posts : ∀ later value, post later value → weaker later value) :
    Guarded environment rule weaker program world := by
  induction program generalizing world with
  | pure value => exact posts world value guarded
  | call op next ih =>
      intro before drifted
      obtain ⟨ruled, onward⟩ := guarded before drifted
      exact ⟨ruled, fun answer after performed => ih answer (onward answer after performed)⟩
  | hang => trivial

/-- The same for fallible programs: an error of the first part is the result. -/
theorem run_bind_iff {first : ExceptT ε (Program I) α} {rest : α → ExceptT ε (Program I) β}
    {post : World → Except ε β → Prop} :
    Guarded environment rule post (first >>= rest).run world ↔
      Guarded environment rule (fun later result =>
        match result with
        | .ok value => Guarded environment rule post (rest value).run later
        | .error error => post later (.error error)) first.run world := by
  rw [ExceptT.run_bind, bind_iff]
  constructor
  all_goals
    intro guarded
    refine guarded.weaken fun later result kept => ?_
    cases result <;> exact kept

/-- A program that is attempted goes on with its result, error or not. -/
theorem run_attempt_iff {program : ExceptT ε (Program I) α}
    {post : World → Except ε (Except ε α) → Prop} :
    Guarded environment rule post (Program.attempt program).run world ↔
      Guarded environment rule (fun later result => post later (.ok result)) program.run world := by
  simp only [Program.attempt, ExceptT.run_lift]
  exact bind_iff

/-- An operation and then the rest. -/
theorem request_bind_iff {op : I.Op} {rest : I.Answer op → ExceptT ε (Program I) α}
    {post : World → Except ε α → Prop} :
    Guarded environment rule post (Program.request op >>= rest).run world ↔
      ∀ before, Relation.ReflTransGen environment.drift world before →
        rule before op ∧ ∀ answer after, environment.perform op before answer after →
          Guarded environment rule post (rest answer).run after := Iff.rfl

/-- A loop is guarded when every turn is and keeps an invariant. -/
theorem iterate {State : Type} {body : State → ExceptT ε (Program I) (State ⊕ α)}
    {post : World → Except ε α → Prop} (holds : World → State → Prop)
    (turn : ∀ world state, holds world state →
      Guarded environment rule (fun later result =>
        match result with
        | .ok (.inl next) => holds later next
        | .ok (.inr value) => post later (.ok value)
        | .error error => post later (.error error)) (body state).run world)
    {fuel : Nat} {state : State} (held : holds world state) :
    Guarded environment rule post (Program.iterate body fuel state).run world := by
  induction fuel generalizing world state with
  | zero => trivial
  | succ fuel ih =>
      simp only [Program.iterate]
      rw [run_bind_iff]
      refine (turn world state held).weaken fun later result kept => ?_
      cases result with
      | error error => exact kept
      | ok broke =>
          cases broke with
          | inl next => exact ih kept
          | inr value => exact kept

/-- A loop is guarded when every turn is. -/
theorem loop {State : Type} {body : State → ExceptT ε (Program I) (State ⊕ α)}
    (turn : ∀ world state,
      Guarded environment rule (fun _ _ => True) (body state).run world)
    {fuel : Nat} {state : State} :
    Guarded environment rule (fun _ _ => True) (Program.iterate body fuel state).run world := by
  apply iterate fun _ _ => True
  · intro world state _
    apply (turn world state).weaken
    intro later result _
    rcases result with e | next | value <;> trivial
  · trivial

/-- A guarded program is guarded in the worlds that its world drifts into. -/
theorem drifts {next : World}
    (guarded : Guarded environment rule (fun _ _ => True) program world)
    (drifted : Relation.ReflTransGen environment.drift world next) :
    Guarded environment rule (fun _ _ => True) program next := by
  cases program with
  | pure value => trivial
  | call op rest => exact fun before later => guarded before (drifted.trans later)
  | hang => trivial

end Guarded

variable {environment : Environment I World} {rule : World → I.Op → Prop}
  {post : World → α → Prop} {program rest : Program I α} {start final : World}
  {log : List (Entry I World)}

namespace Advances

/-- A run of a guarded program performs its operations in worlds the rule admits, and what is
left of the program is guarded. -/
theorem guarded (advances : Advances environment program start log rest final)
    (guarded : Guarded environment rule post program start) :
    (∀ entry ∈ log, rule entry.before entry.op) ∧ Guarded environment rule post rest final := by
  induction advances with
  | none => exact ⟨nofun, guarded⟩
  | step drifted performed onward ih =>
      obtain ⟨ruled, next⟩ := guarded _ drifted
      obtain ⟨later, left⟩ := ih (next _ _ performed)
      exact ⟨List.forall_mem_cons.mpr ⟨ruled, later⟩, left⟩

/-- What is left of a program that follows a rule follows it after the run. -/
theorem follows {rule : History I → I.Op → Prop} {post : History I → α → Prop}
    {earlier : History I} (advances : Advances environment program start log rest final)
    (follows : Follows rule post program earlier) :
    Follows rule post rest (earlier ++ historyOf log) := by
  induction advances generalizing earlier with
  | none => simpa using follows
  | step drifted performed onward ih => simpa [Entry.exchange] using ih (follows.2 _)

end Advances

end Semantics
