import AtomicSwaps.Semantics.Returns

/-!
# Expansions

`Program.expand` carries every operation of a program out by a program over another
interface. `Follows.expand` is the simulation rule: if the histories of the two programs
are related and every operation that obeys its rule is carried out in keeping with the rule
below, the expanded program follows the rule below.
-/

namespace Semantics

variable {I J : Interface} {σ α β : Type}

/-- Carry out every operation by a program that also moves a state. -/
def Program.expand (carry : σ → (op : I.Op) → Program J (I.Answer op × σ)) :
    Program I α → σ → Program J (α × σ)
  | .pure value, state => .pure (value, state)
  | .call op next, state => carry state op >>= fun result => (next result.1).expand carry result.2
  | .hang, _ => .hang

/-- Operations of one interface that are operations of another one, under another name. -/
structure Embedding (I J : Interface) where
  op : I.Op → J.Op
  answer : (op' : I.Op) → J.Answer (op op') → I.Answer op'

/-- A program over the larger interface. -/
def Program.embed (embedding : Embedding I J) : Program I α → Program J α
  | .pure value => .pure value
  | .call op next => .call (embedding.op op) fun answer => (next (embedding.answer op answer)).embed embedding
  | .hang => .hang

namespace Follows

variable {ruleI : History I → I.Op → Prop} {ruleJ : History J → J.Op → Prop}
  {post : History I → α → Prop} {program : Program I α}

/-- An expanded program follows the rule below, if every operation is carried out so. -/
theorem expand {carry : σ → (op : I.Op) → Program J (I.Answer op × σ)}
    (related : History I → σ → History J → Prop)
    (carried : ∀ {history state below op}, related history state below → ruleI history op →
      Follows ruleJ (fun later result => related (history ++ [⟨op, result.1⟩]) result.2 later)
        (carry state op) below)
    {history : History I} {state : σ} {below : History J} (here : related history state below)
    (follows : Follows ruleI post program history) :
    Follows ruleJ (fun later result => ∃ history', related history' result.2 later ∧
      post history' result.1) (program.expand carry state) below := by
  induction program generalizing history state below with
  | pure value => exact ⟨history, here, follows⟩
  | call op next ih =>
      refine bind_iff.mpr ((carried here follows.1).weaken fun later result onward => ?_)
      exact ih result.1 onward (follows.2 result.1)
  | hang => trivial

/-- An embedded program follows the rule of the larger interface. -/
theorem embed {embedding : Embedding I J} (related : History I → History J → Prop)
    (allowed : ∀ {history below op}, related history below → ruleI history op →
      ruleJ below (embedding.op op))
    (onward : ∀ {history below op} (answer : J.Answer (embedding.op op)), related history below →
      related (history ++ [⟨op, embedding.answer op answer⟩]) (below ++ [⟨embedding.op op, answer⟩]))
    {history : History I} {below : History J} (here : related history below)
    (follows : Follows ruleI post program history) :
    Follows ruleJ (fun later value => ∃ history', related history' later ∧ post history' value)
      (program.embed embedding) below := by
  induction program generalizing history below with
  | pure value => exact ⟨history, here, follows⟩
  | call op next ih =>
      exact ⟨allowed here follows.1, fun answer =>
        ih _ (onward answer here) (follows.2 (embedding.answer op answer))⟩
  | hang => trivial

end Follows

/-- An embedded program returns what the program does, if it is answered the same. -/
theorem Returns.embed_iff {answersI : (op : I.Op) → I.Answer op → Prop}
    {answersJ : (op : J.Op) → J.Answer op → Prop} {post : α → Prop} {program : Program I α}
    {embedding : Embedding I J}
    (same : ∀ op answer, answersJ (embedding.op op) answer ↔ answersI op (embedding.answer op answer))
    (onto : ∀ op, Function.Surjective (embedding.answer op)) :
    Returns answersJ post (program.embed embedding) ↔ Returns answersI post program := by
  induction program with
  | pure value => rfl
  | call op next ih =>
      simp only [Program.embed, call_iff, ih, same]
      constructor
      · intro returns answer given
        obtain ⟨wide, rfl⟩ := onto op answer
        exact returns wide given
      · exact fun returns wide given => returns _ given
  | hang => rfl

end Semantics
