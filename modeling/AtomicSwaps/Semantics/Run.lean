import Mathlib.Logic.Relation

/-!
# Labelled runs

A transition relation over labelled events and its finite runs. `Steps.invariant`
and `Steps.related` package the two inductions every run argument needs: a state
predicate kept by each step, and a preorder that contains each step.
-/

namespace Semantics

universe u v

variable {State : Type u} {Event : Type v}

/-- Zero or more labelled steps between two states, oldest event first. -/
inductive Steps (step : State → Event → State → Prop) (start : State) :
    List Event → State → Prop where
  | refl : Steps step start [] start
  | snoc {events : List Event} {current next : State} {event : Event}
      (earlier : Steps step start events current) (last : step current event next) :
      Steps step start (events ++ [event]) next

namespace Steps

variable {step : State → Event → State → Prop} {start middle finish : State}
  {events suffix : List Event}

/-- A single step is a run of one event. -/
theorem single {event : Event} (last : step start event finish) :
    Steps step start [event] finish := by
  simpa using (Steps.refl : Steps step start [] start).snoc last

/-- Two runs that meet compose. -/
theorem trans (first : Steps step start events middle)
    (second : Steps step middle suffix finish) :
    Steps step start (events ++ suffix) finish := by
  induction second with
  | refl => simpa using first
  | snoc _ last ih => simpa [List.append_assoc] using Steps.snoc ih last

/-- Prepend one step to a run. -/
theorem cons {event : Event} (head : step start event middle)
    (rest : Steps step middle events finish) :
    Steps step start (event :: events) finish := by
  simpa using (single head).trans rest

/-- The last step of a run. -/
theorem last {event : Event} (run : Steps step start (events ++ [event]) finish) :
    ∃ current, Steps step start events current ∧ step current event finish := by
  generalize all : events ++ [event] = whole at run
  cases run with
  | refl => simp at all
  | snoc earlier last =>
      obtain ⟨rfl, same⟩ := List.append_inj' all rfl
      obtain rfl := List.singleton_inj.mp same
      exact ⟨_, earlier, last⟩

/-- A predicate kept by every step is kept by every run. -/
theorem invariant (holds : State → Prop)
    (preserved : ∀ {state event next}, holds state → step state event next → holds next)
    (initially : holds start) (run : Steps step start events finish) : holds finish := by
  induction run with
  | refl => exact initially
  | snoc _ last ih => exact preserved ih last

/-- A preorder containing every step that leaves a state satisfying an invariant
contains every run. -/
theorem related (holds : State → Prop) (relation : State → State → Prop)
    (reflexive : ∀ state, relation state state)
    (transitive : ∀ {a b c}, relation a b → relation b c → relation a c)
    (preserved : ∀ {state event next}, holds state → step state event next → holds next)
    (contained : ∀ {state event next}, holds state → step state event next →
      relation state next)
    (initially : holds start) (run : Steps step start events finish) :
    relation start finish := by
  induction run with
  | refl => exact reflexive _
  | snoc earlier last ih =>
      exact transitive ih (contained (earlier.invariant holds preserved initially) last)

/-- Enlarging the step relation keeps every run. -/
theorem mono {other : State → Event → State → Prop}
    (included : ∀ {state event next}, step state event next → other state event next)
    (run : Steps step start events finish) : Steps other start events finish := by
  induction run with
  | refl => exact .refl
  | snoc _ last ih => exact .snoc ih (included last)

end Steps

end Semantics
