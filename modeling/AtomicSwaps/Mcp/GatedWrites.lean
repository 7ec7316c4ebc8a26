import AtomicSwaps.Mcp.PreviewGate
import AtomicSwaps.Mcp.WriteGate
import AtomicSwaps.Semantics.Locks

/-!
# Gated writes

What the write gate gives under any interleaving: verdicts are stored in the order in which
their checks start, since whoever checks and stores holds `refresh_lock`, and every
submission rests on a check of its own call. The write tools keep to their rule above;
below it, the check of the gate is the program that makes it.
-/

namespace AtomicSwaps.Mcp

open Semantics

/-! ## What a call rests on -/

/-- A transaction is submitted. -/
def GateOp.Submits : GateOp → Prop
  | .write op => op.Submits
  | _ => False

/-- The answer says that writes are disabled. -/
def GateOp.SaysDisabled : GateOp → Prop
  | .write op => op.SaysDisabled
  | _ => True

/-- The gate was found fresh, or stored open. -/
def Passes : Exchange gates → Bool
  | ⟨.readGate, (state, now)⟩ => gateIsFresh state FINGERPRINT_TTL now
  | ⟨.storeGate _ gate, _⟩ => gate.writesEnabled
  | _ => false

/-- The gate was stored shut. -/
def Fails : Exchange gates → Bool
  | ⟨.storeGate _ gate, _⟩ => !gate.writesEnabled
  | _ => false

/-- Where a call stands after an exchange with the gate. -/
def Standing.afterGate (standing : Standing) : Exchange gates → Standing
  | ⟨.readGate, (state, now)⟩ =>
      if gateIsFresh state FINGERPRINT_TTL now then { standing with gated := true } else standing
  | ⟨.storeGate _ gate, _⟩ =>
      if gate.writesEnabled then { standing with gated := true } else ⟨false, true⟩
  | ⟨.write (.tool (.sendInitialize ..)), _⟩ | ⟨.write (.tool (.sendTransfer ..)), _⟩
  | ⟨.write (.submitClaim _), _⟩ => { standing with gated := false }
  | _ => standing

/-- Where a call stands after a history. -/
def gateStanding (history : History gates) : Standing :=
  history.foldl Standing.afterGate ⟨false, false⟩

theorem gateStanding_append (history : History gates) (exchange : Exchange gates) :
    gateStanding (history ++ [exchange]) = (gateStanding history).afterGate exchange := by
  simp [gateStanding]

/-- An exchange refuses the call, lets it through, submits, or leaves it where it stands. -/
theorem Standing.afterGate_cases (standing : Standing) (exchange : Exchange gates) :
    (Fails exchange ∧ standing.afterGate exchange = ⟨false, true⟩) ∨ Fails exchange = false ∧
      ((Passes exchange ∧ standing.afterGate exchange = { standing with gated := true }) ∨
        (exchange.op.Submits ∧ standing.afterGate exchange = { standing with gated := false }) ∨
          ¬ exchange.op.Submits ∧ standing.afterGate exchange = standing) := by
  obtain ⟨op, answer⟩ := exchange
  cases op with
  | readGate =>
      obtain ⟨state, now⟩ := answer
      refine .inr ⟨rfl, ?_⟩
      cases fresh : gateIsFresh state FINGERPRINT_TTL now with
      | true => exact .inl ⟨fresh, by simp [afterGate, fresh]⟩
      | false => exact .inr (.inr ⟨id, by simp [afterGate, fresh]⟩)
  | storeGate guard gate =>
      cases enabled : gate.writesEnabled with
      | true => exact .inr ⟨by simp [Fails, enabled], .inl ⟨enabled, by simp [afterGate, enabled]⟩⟩
      | false => exact .inl ⟨by simp [Fails, enabled], by simp [afterGate, enabled]⟩
  | write op =>
      refine .inr ⟨rfl, .inr ?_⟩
      cases op with
      | tool op =>
          cases op with
          | sendInitialize => exact .inl ⟨trivial, rfl⟩
          | sendTransfer => exact .inl ⟨trivial, rfl⟩
          | _ => exact .inr ⟨id, rfl⟩
      | submitClaim => exact .inl ⟨trivial, rfl⟩
      | _ => exact .inr ⟨id, rfl⟩
  | _ => exact .inr ⟨rfl, .inr (.inr ⟨id, rfl⟩)⟩

/-- A call that a check has let through has submitted nothing since. -/
theorem exists_passed {history : History gates} (gated : (gateStanding history).gated) :
    ∃ earlier exchange later, history = earlier ++ exchange :: later ∧ Passes exchange ∧
      ∀ other ∈ later, ¬ other.op.Submits := by
  induction history using List.reverseRecOn with
  | nil => cases gated
  | append_singleton history exchange ih =>
      rw [gateStanding_append] at gated
      rcases (gateStanding history).afterGate_cases exchange with
        ⟨-, same⟩ | ⟨-, ⟨passes, -⟩ | ⟨-, same⟩ | ⟨quiet, same⟩⟩
      · simp [same] at gated
      · exact ⟨history, exchange, [], rfl, passes, by simp⟩
      · simp [same] at gated
      · rw [same] at gated
        obtain ⟨earlier, check, later, rfl, passes, unsent⟩ := ih gated
        refine ⟨earlier, check, later ++ [exchange], by simp, passes, fun other member => ?_⟩
        rcases List.mem_append.mp member with before | last
        · exact unsent other before
        · rw [List.mem_singleton.mp last]
          exact quiet

/-- A call that no check has refused has stored no shut gate. -/
theorem not_fails_of_clear {history : History gates} (clear : (gateStanding history).refused = false) :
    ∀ exchange ∈ history, Fails exchange = false := by
  induction history using List.reverseRecOn with
  | nil => simp
  | append_singleton history exchange ih =>
      rw [gateStanding_append] at clear
      intro other member
      rcases List.mem_append.mp member with before | last
      · refine ih ?_ other before
        rcases (gateStanding history).afterGate_cases exchange with
          ⟨-, same⟩ | ⟨-, ⟨-, same⟩ | ⟨-, same⟩ | ⟨-, same⟩⟩
        · simp [same] at clear
        · simpa [same] using clear
        · simpa [same] using clear
        · simpa [same] using clear
      · rw [List.mem_singleton.mp last]
        rcases (gateStanding history).afterGate_cases exchange with ⟨-, same⟩ | ⟨open', -⟩
        · simp [same] at clear
        · exact open'

/-- What the guard of `refresh_lock` covers after an exchange; nothing where there is none. -/
def flightAfter (held : Option (Option Nat)) : Exchange gates → Option (Option Nat)
  | ⟨.lockRefresh, _⟩ => some none
  | ⟨.dropRefresh, _⟩ => none
  | ⟨.startCheck, check⟩ => held.map fun _ => some check
  | ⟨.storeGate .., _⟩ => held.map fun _ => none
  | _ => held

/-- What the guard covers after a history. -/
def flightOf (history : History gates) : Option (Option Nat) := history.foldl flightAfter none

theorem flightOf_append (history : History gates) (exchange : Exchange gates) :
    flightOf (history ++ [exchange]) = flightAfter (flightOf history) exchange := by
  simp [flightOf]

/-- What may be done with a guard of `refresh_lock`: a check starts under it, only the verdict of
the last one is stored, and only who has it drops it. -/
def UnderLock (held : Option (Option Nat)) : GateOp → Prop
  | .dropRefresh | .startCheck => held ≠ none
  | .storeGate check _ => held = some (some check)
  | _ => True

/-- What an operation of a write tool rests on below. -/
def callGateRule (history : History gates) (op : GateOp) : Prop :=
  op ≠ .write (.tool .accept) ∧ UnderLock (flightOf history) op ∧
    (op.Submits → (gateStanding history).gated ∧ (gateStanding history).refused = false) ∧
      ((gateStanding history).refused → op.SaysDisabled)

/-- What every operation of a thread rests on. -/
def gateRule : GateTask → History gates → GateOp → Prop
  | .serve _, history, op =>
      op = .write (.tool .accept) ∧ ∀ exchange ∈ history, exchange.op = .write (.tool .accept)
  | .fingerprint _, history, op =>
      op ≠ .write (.tool .accept) ∧ UnderLock (flightOf history) op ∧ ¬ op.Submits ∧ op.SaysDisabled
  | .transfer _, history, op | .faucet _, history, op => callGateRule history op

/-- A call of a write tool stands at the gate as it believes, or better, and has no guard. -/
structure Believes (history : History writes) (below : History gates) : Prop where
  gated : (standingOf history).gated → (gateStanding below).gated
  clear : (standingOf history).refused = false → (gateStanding below).refused = false
  free : flightOf below = none

/-- Where a call stands at the gate, and what its guard covers. -/
structure AtGate (history : History gates) (standing : Standing) (held : Option (Option Nat)) :
    Prop where
  standing : gateStanding history = standing
  flight : flightOf history = held

theorem AtGate.append {history : History gates} {standing : Standing} {held : Option (Option Nat)}
    (here : AtGate history standing held) (exchange : Exchange gates) :
    AtGate (history ++ [exchange]) (standing.afterGate exchange) (flightAfter held exchange) where
  standing := by rw [gateStanding_append, here.standing]
  flight := by rw [flightOf_append, here.flight]

/-- An operation of the write tools. -/
def GateOp.isWrite : GateOp → Bool
  | .write _ => true
  | _ => false

/-- What is done at the gate, by a rule that allows all that is done under the lock. -/
structure AllowsGate (rule : History gates → GateOp → Prop) : Prop where
  quiet : ∀ history op, op.isWrite = false → UnderLock (flightOf history) op → rule history op

theorem GateOp.ne_write {op : GateOp} (gate : op.isWrite = false) (write : WriteOp) :
    op ≠ .write write := by
  rintro rfl
  cases gate

/-- What is done at the gate submits nothing and answers nothing. -/
theorem GateOp.plain {op : GateOp} (gate : op.isWrite = false) : ¬ op.Submits ∧ op.SaysDisabled := by
  cases op with
  | write => cases gate
  | _ => exact ⟨id, trivial⟩

theorem callGateRule_allows : AllowsGate callGateRule where
  quiet _ _ gate under := by
    obtain ⟨unsent, silent⟩ := GateOp.plain gate
    exact ⟨GateOp.ne_write gate _, under, fun submits => (unsent submits).elim, fun _ => silent⟩

theorem fingerprint_allows (url : Option String) : AllowsGate (gateRule (.fingerprint url)) where
  quiet _ _ gate under := ⟨GateOp.ne_write gate _, under, GateOp.plain gate⟩

/-- A call without a guard that a check has let through, or that is refused. -/
def Checked {α : Type} (refused : Bool) (later : History gates) : Except α Unit → Prop
  | .ok _ => AtGate later ⟨true, refused⟩ none
  | .error _ => AtGate later ⟨false, true⟩ none

section Critical

variable {rule : History gates → GateOp → Prop} {history : History gates} {standing : Standing}
  {held : Option (Option Nat)} {α : Type} {post : History gates → α → Prop}

/-- A request that has a guard goes on where it awaits something, or drops the guard and ends. -/
theorem awaits_bind {rest : Unit → Program gates α} (allows : AllowsGate rule) {check : Option Nat}
    (here : AtGate history standing (some check))
    (next : ∀ later, AtGate later standing (some check) → Follows rule post (rest ()) later) :
    Follows rule post (awaits >>= rest) history := by
  refine ⟨allows.quiet _ _ rfl trivial, fun dropped => ?_⟩
  have later := here.append ⟨.dropped, dropped⟩
  cases dropped with
  | false => exact next _ later
  | true =>
      refine ⟨allows.quiet _ _ rfl ?_, fun _ => trivial⟩
      rw [later.flight]
      exact Option.some_ne_none check

/-- A check runs under the guard, which then covers it. -/
theorem runFingerprint_bind {rest : Nat × Except String FingerprintReport → Program gates α}
    (allows : AllowsGate rule) {last : Option Nat} (here : AtGate history standing (some last))
    (next : ∀ later check outcome, AtGate later standing (some (some check)) →
      Follows rule post (rest (check, outcome)) later) :
    Follows rule post (runFingerprint >>= rest) history := by
  refine Follows.bind_iff.mpr ⟨allows.quiet _ _ rfl ?_, fun check => ?_⟩
  · change flightOf history ≠ none
    rw [here.flight]
    exact Option.some_ne_none last
  · refine awaits_bind allows (here.append ⟨.startCheck, check⟩) fun later here => ?_
    refine ⟨allows.quiet _ _ rfl trivial, fun outcome => ?_⟩
    exact next _ check outcome (here.append ⟨.finishCheck check, outcome⟩)

/-- The verdict of the check is stored, and the guard is dropped. -/
theorem store_bind {rest : Program gates α} (allows : AllowsGate rule) {check : Nat}
    {gate : Gate} (here : AtGate history standing (some (some check)))
    (next : ∀ later, AtGate later (standing.afterGate ⟨.storeGate check gate, ()⟩) none →
      Follows rule post rest later) :
    Follows rule post (do
      let _ ← awaits
      let _ ← ask (.storeGate check gate)
      let _ ← ask .dropRefresh
      rest) history := by
  refine awaits_bind allows here fun later here => ?_
  refine ⟨allows.quiet _ _ rfl here.flight, fun _ => ?_⟩
  have stored := here.append ⟨.storeGate check gate, ()⟩
  refine ⟨allows.quiet _ _ rfl ?_, fun _ => next _ (stored.append ⟨.dropRefresh, ()⟩)⟩
  change flightOf _ ≠ none
  rw [stored.flight]
  exact Option.some_ne_none none

end Critical

theorem refresh_follows {below : History gates} {gated refused : Bool}
    (here : AtGate below ⟨gated, refused⟩ none) :
    Follows callGateRule (fun later gate =>
      AtGate later (if gate.writesEnabled then ⟨true, refused⟩ else ⟨false, true⟩) none)
      (refreshGateSingleFlight FINGERPRINT_TTL) below := by
  have allows := callGateRule_allows
  refine ⟨allows.quiet _ _ rfl trivial, fun _ => ?_⟩
  refine awaits_bind allows (here.append ⟨.lockRefresh, ()⟩) fun later here => ?_
  refine ⟨allows.quiet _ _ rfl trivial, fun answer => ?_⟩
  have read := here.append ⟨.readGate, answer⟩
  obtain ⟨state, now⟩ := answer
  change Follows callGateRule _ (if gateIsFresh state FINGERPRINT_TTL now = true then _ else _) _
  split_ifs with fresh
  · refine ⟨allows.quiet _ _ rfl ?_, fun _ => ?_⟩
    · change flightOf _ ≠ none
      rw [read.flight]
      exact Option.some_ne_none none
    · have enabled : state.gate.writesEnabled := by
        simp only [gateIsFresh, Bool.and_eq_true] at fresh
        exact fresh.1
      have dropped := read.append ⟨.dropRefresh, ()⟩
      change AtGate _ (if state.gate.writesEnabled then _ else _) none
      rw [if_pos enabled]
      simpa [Standing.afterGate, fresh, flightAfter] using dropped
  · have read : AtGate (later ++ [⟨.readGate, (state, now)⟩]) ⟨gated, refused⟩ (some none) := by
      simpa [Standing.afterGate, fresh, flightAfter] using read
    refine runFingerprint_bind allows read fun later check outcome here => ?_
    refine store_bind allows here fun later here => ?_
    change AtGate later (if (gateOf outcome).writesEnabled then _ else _) none
    cases enabled : (gateOf outcome).writesEnabled <;>
      simpa [Standing.afterGate, enabled] using here

theorem ensureFresh_follows {below : History gates} {gated refused : Bool}
    (here : AtGate below ⟨gated, refused⟩ none) :
    Follows callGateRule (Checked refused) ensureFresh below := by
  refine ⟨callGateRule_allows.quiet _ _ rfl trivial, fun answer => ?_⟩
  have read := here.append ⟨.readGate, answer⟩
  obtain ⟨state, now⟩ := answer
  change Follows callGateRule _ (if gateIsFresh state FINGERPRINT_TTL now = true then _ else _) _
  split_ifs with fresh
  · change AtGate _ ⟨true, refused⟩ none
    simpa [Standing.afterGate, fresh, flightAfter] using read
  · have read : AtGate (below ++ [⟨.readGate, (state, now)⟩]) ⟨gated, refused⟩ none := by
      simpa [Standing.afterGate, fresh, flightAfter] using read
    refine Follows.bind_iff.mpr ((refresh_follows read).weaken fun later gate kept => ?_)
    split_ifs with enabled
    · rwa [if_pos enabled] at kept
    · rwa [if_neg enabled] at kept

namespace Believes

variable {history : History writes} {below : History gates} {op : WriteOp}

/-- What a call may do as it believes, it may do. -/
theorem allows (believes : Believes history below) (allowed : writeRule history op) :
    callGateRule below (.write op) := by
  obtain ⟨call, submission, disabled⟩ := allowed
  refine ⟨fun same => call (GateOp.write.inj same), trivial, fun submits => ?_, fun refused => ?_⟩
  · obtain ⟨gated, clear⟩ := submission submits
    exact ⟨believes.gated gated, believes.clear clear⟩
  · refine disabled ?_
    cases stands : (standingOf history).refused with
    | true => rfl
    | false => exact absurd refused (by simp [believes.clear stands])

/-- An operation other than the check moves both in the same way. -/
theorem write (believes : Believes history below) (other : op ≠ .tool .ensureFreshWriteGate)
    (answer : WriteAnswer op) :
    Believes (history ++ [⟨op, answer⟩]) (below ++ [⟨.write op, answer⟩]) := by
  refine ⟨?_, ?_, ?_⟩
  · rw [standingOf_append, gateStanding_append]
    cases op with
    | tool op =>
        cases op with
        | ensureFreshWriteGate => exact (other rfl).elim
        | sendInitialize => exact id
        | sendTransfer => exact id
        | _ => exact believes.gated
    | submitClaim => exact id
    | _ => exact believes.gated
  · rw [standingOf_append, gateStanding_append]
    cases op with
    | tool op =>
        cases op with
        | ensureFreshWriteGate => exact (other rfl).elim
        | _ => exact believes.clear
    | _ => exact believes.clear
  · rw [flightOf_append]
    exact believes.free

/-- A check moves them alike. -/
theorem checked (believes : Believes history below) {later : History gates}
    {answer : Except String Unit} (checked : Checked (gateStanding below).refused later answer) :
    Believes (history ++ [⟨.tool .ensureFreshWriteGate, answer⟩]) later := by
  cases answer with
  | ok =>
      obtain ⟨standing, free⟩ := checked
      refine ⟨?_, ?_, free⟩
      · rw [standing]
        exact fun _ => rfl
      · rw [standing, standingOf_append]
        exact believes.clear
  | error fingerprint =>
      refine ⟨?_, ?_, checked.flight⟩
      · rw [standingOf_append]
        exact nofun
      · rw [standingOf_append]
        exact nofun

end Believes

/-- The operations of the write tools are carried out in keeping with the rule. -/
theorem carryGate_follows {history : History writes} {state : Unit} {below : History gates}
    {op : WriteOp} (believes : Believes history below) (allowed : writeRule history op) :
    Follows callGateRule
      (fun later result => Believes (history ++ [⟨op, result.1⟩]) later) (carryGate state op) below := by
  by_cases gate : op = .tool .ensureFreshWriteGate
  · subst gate
    have followed : Follows callGateRule (Checked (gateStanding below).refused) ensureFresh below :=
      ensureFresh_follows ⟨rfl, believes.free⟩
    exact Follows.bind_iff.mpr (followed.weaken fun later answer checked => believes.checked checked)
  · have plain : carryGate state op = (do return (← ask (.write op), state)) := by
      unfold carryGate
      split
      · exact (gate rfl).elim
      · rfl
    rw [plain]
    exact ⟨believes.allows allowed, fun answer => believes.write gate answer⟩

/-- Taking a call is no check. -/
theorem atGate_accepts {past : History gates}
    (taken : ∀ exchange ∈ past, exchange.op = .write (.tool .accept)) :
    AtGate past ⟨false, false⟩ none := by
  induction past using List.reverseRecOn with
  | nil => exact ⟨rfl, rfl⟩
  | append_singleton past exchange ih =>
      obtain ⟨op, answer⟩ := exchange
      obtain rfl : op = .write (.tool .accept) := taken ⟨op, answer⟩ (by simp)
      exact (ih fun other member => taken other (List.mem_append_left _ member)).append _

theorem gateStanding_of_accepts {past : History gates}
    (taken : ∀ exchange ∈ past, exchange.op = .write (.tool .accept)) (history : History gates) :
    gateStanding (past ++ history) = gateStanding history := by
  have start := (atGate_accepts taken).standing
  rw [gateStanding] at start
  rw [gateStanding, List.foldl_append, start]
  rfl

/-- A call of a write tool keeps to the rule. -/
theorem call_follows {program : Program writes Unit} {history : History gates}
    (taken : ∀ exchange ∈ history, exchange.op = .write (.tool .accept))
    (rests : Follows writeRule (fun _ _ => True) program []) :
    Follows callGateRule (fun _ _ => True)
      (do let _ ← program.expand carryGate () : Program gates Unit) history := by
  have here := atGate_accepts taken
  have believes : Believes [] history := ⟨nofun, fun _ => by rw [here.standing], here.flight⟩
  exact Follows.bind_iff.mpr ((Follows.expand (fun history _ below => Believes history below)
    carryGate_follows believes rests).weaken fun _ _ _ => trivial)

theorem lezFingerprint_follows {configured : String} {build : String → Except String Unit}
    {url : Option String} {history : History gates}
    (taken : ∀ exchange ∈ history, exchange.op = .write (.tool .accept)) :
    Follows (gateRule (.fingerprint url)) (fun _ _ => True)
      (lezFingerprint configured build url) history := by
  have allows := fingerprint_allows url
  unfold lezFingerprint
  split
  · exact ⟨allows.quiet _ _ rfl trivial, fun _ => trivial⟩
  · extract_lets updatesGate
    split_ifs
    · refine ⟨allows.quiet _ _ rfl trivial, fun _ => ?_⟩
      refine runFingerprint_bind allows ((atGate_accepts taken).append ⟨.lockRefresh, ()⟩)
        fun later check outcome here => ?_
      refine store_bind allows here fun later here => ?_
      refine ⟨allows.quiet _ _ rfl trivial, fun answer => ?_⟩
      exact ⟨allows.quiet _ _ rfl trivial, fun _ => trivial⟩
    · refine ⟨allows.quiet _ _ rfl trivial, fun outcome => ?_⟩
      refine ⟨allows.quiet _ _ rfl trivial, fun answer => ?_⟩
      exact ⟨allows.quiet _ _ rfl trivial, fun _ => trivial⟩

/-- Only the taking of a call spawns. -/
theorem accept_of_spawns {config : McpConfig} {op : GateOp} {child : GateTask}
    (spawns : (gateSystem config).spawns op (some child)) : op = .write (.tool .accept) := by
  by_contra other
  unfold gateSystem at spawns
  dsimp only at spawns
  split at spawns
  · exact other rfl
  · cases spawns

/-- Only the server takes calls, and it does nothing else. -/
theorem accepts_of_ruled {task : GateTask} {history : History gates}
    (ruled : gateRule task history (.write (.tool .accept))) :
    ∀ exchange ∈ history, exchange.op = .write (.tool .accept) := by
  cases task with
  | serve calls => exact ruled.2
  | transfer => exact (ruled.1 rfl).elim
  | faucet => exact (ruled.1 rfl).elim
  | fingerprint => exact (ruled.1 rfl).elim

theorem accepts_append {history : History gates} {answer : Unit}
    (taken : ∀ exchange ∈ history, exchange.op = .write (.tool .accept)) :
    ∀ exchange ∈ history ++ [⟨.write (.tool .accept), answer⟩],
      exchange.op = .write (.tool .accept) := by
  simpa [or_imp, forall_and] using taken

/-- Every thread keeps to its rule. -/
theorem gateSystem_ruled (config : McpConfig) : (gateSystem config).Ruled gateRule where
  main task main := by
    obtain ⟨calls, rfl⟩ := main
    suffices served : ∀ calls (history : History gates),
        (∀ exchange ∈ history, exchange.op = .write (.tool .accept)) →
        Follows (gateRule (.serve calls)) (fun _ _ => True) (serveCalls calls) history from
      served calls [] (by simp)
    intro calls
    induction calls with
    | zero => exact fun _ _ => trivial
    | succ calls ih =>
        exact fun history accepts => ⟨⟨rfl, accepts⟩, fun answer => ih _ (accepts_append accepts)⟩
  child task history op answer child ruled spawns := by
    obtain rfl := accept_of_spawns spawns
    obtain ⟨spawned, same, plain⟩ := spawns
    obtain rfl : child = spawned := Option.some.inj same
    have accepts := @accepts_append _ answer (accepts_of_ruled ruled)
    cases child with
    | serve calls => exact (plain calls rfl).elim
    | transfer params =>
        exact call_follows accepts (transferCall_rests ⟨rfl, rfl⟩)
    | faucet params =>
        exact call_follows accepts (faucetCall_rests ⟨rfl, rfl⟩)
    | fingerprint url => exact lezFingerprint_follows accepts

/-! ## Runs -/

section Runs

variable {config : McpConfig} {pool : Pool gates GateWorld GateTask Unit}
  {thread : Thread gates GateWorld GateTask Unit} {earlier later : List (Entry gates GateWorld)}
  {entry : Entry gates GateWorld}

theorem gateSystem_monotone (config : McpConfig) :
    (gateSystem config).Monotone fun _ _ => True :=
  ⟨fun _ => trivial, fun _ _ => trivial, fun _ => trivial, fun _ => trivial, fun _ => trivial⟩

theorem reaches_gateJustified (reached : (gateSystem config).Reaches .boot pool) :
    ∀ thread ∈ pool.threads, (gateSystem config).Justified gateRule (fun _ _ => True) pool.world thread :=
  System.justified (gateSystem_ruled config) (gateSystem_monotone config) reached

/-- What a thread has inherited is that calls were taken. -/
theorem gate_inherited (reached : (gateSystem config).Reaches .boot pool) :
    ∀ thread ∈ pool.threads, ∀ entry ∈ thread.past, entry.op = GateOp.write (.tool .accept) := by
  refine System.inherited (· = GateOp.write (.tool .accept)) (gateSystem_ruled config)
    (gateSystem_monotone config) (fun task history op child rests spawns => ?_) reached
  obtain rfl := accept_of_spawns spawns
  exact ⟨rfl, accepts_of_ruled rests⟩

/-- What a thread does rests on where its call stands. -/
theorem standing_rests (reached : (gateSystem config).Reaches .boot pool)
    (member : thread ∈ pool.threads) (split : thread.log = earlier ++ entry :: later) :
    (entry.op.Submits → (gateStanding (historyOf earlier)).gated ∧
      (gateStanding (historyOf earlier)).refused = false) ∧
    ((gateStanding (historyOf earlier)).refused → entry.op.SaysDisabled) := by
  have rests := (reaches_gateJustified reached thread member).obeys earlier entry later split
  have accepts : ∀ exchange ∈ historyOf thread.past, exchange.op = GateOp.write (.tool .accept) := by
    intro exchange inside
    obtain ⟨taken, there, rfl⟩ := List.mem_map.mp inside
    exact gate_inherited reached thread member taken there
  rw [historyOf_append] at rests
  have standing := gateStanding_of_accepts accepts (historyOf earlier)
  generalize thread.task = task at rests
  cases task with
  | serve calls =>
      rw [rests.1]
      exact ⟨False.elim, fun _ => trivial⟩
  | fingerprint url =>
      exact ⟨fun submits => (rests.2.2.1 submits).elim, fun _ => rests.2.2.2⟩
  | transfer params =>
      rw [← standing]
      exact rests.2.2
  | faucet params =>
      rw [← standing]
      exact rests.2.2

/-! ## The order of the verdicts -/

/-- `refresh_lock`. -/
def refreshLock : Lock gates GateWorld (Option Nat) where
  knows := flightOf
  state := GateWorld.flight

/-- What is done to the gate moves what the guard covers. -/
theorem GatePerforms.flight {op : GateOp} {answer : GateAnswer op} {before after : GateWorld}
    (performed : GatePerforms before op answer after) :
    after.flight = flightAfter before.flight ⟨op, answer⟩ := by
  cases op with
  | lockRefresh => rw [performed.2]; rfl
  | dropRefresh => rw [performed]; rfl
  | startCheck => rw [performed.2, performed.1]; rfl
  | storeGate => rw [performed]; rfl
  | readGate => rw [performed.2]; rfl
  | _ => rw [performed]; rfl

/-- Whatever a thread does keeps to what its guard allows. -/
theorem gateRule_under {task : GateTask} {history : History gates} {op : GateOp}
    (ruled : gateRule task history op) : UnderLock (flightOf history) op := by
  cases task with
  | serve calls =>
      rw [ruled.1]
      trivial
  | transfer => exact ruled.2.1
  | faucet => exact ruled.2.1
  | fingerprint => exact ruled.2.1

theorem refreshLock_kept (config : McpConfig) : refreshLock.Kept (gateSystem config) gateRule where
  fresh := rfl
  drift drifted := by
    cases drifted
    rfl
  perform {task history op before answer after} ruled performed := by
    have flight := GatePerforms.flight performed
    have under := gateRule_under ruled
    change (flightOf _ = flightOf history ∧ after.flight = before.flight) ∨
      ((before.flight = none ∨ flightOf history ≠ none) ∧
        ((flightOf history ≠ none → flightOf history = before.flight) → flightOf _ = after.flight))
    rw [flightOf_append, flight]
    -- a guard of one's own is the guard there is
    have held : flightOf history ≠ none → (before.flight = none ∨ flightOf history ≠ none) ∧
        ((flightOf history ≠ none → flightOf history = before.flight) →
          flightAfter (flightOf history) ⟨op, answer⟩ = flightAfter before.flight ⟨op, answer⟩) :=
      fun own => ⟨.inr own, fun agrees => by rw [agrees own]⟩
    cases op with
    | lockRefresh => exact .inr ⟨.inl performed.1, fun _ => rfl⟩
    | dropRefresh => exact .inr (held under)
    | startCheck => exact .inr (held under)
    | storeGate check gate => exact .inr (held (by simp [show flightOf history = _ from under]))
    | _ => exact .inl ⟨rfl, rfl⟩
  child {task history op answer child} ruled spawns := by
    obtain rfl := accept_of_spawns spawns
    exact (atGate_accepts (accepts_append (accepts_of_ruled ruled))).flight

/-- The verdicts were stored in the order in which their checks started, and the check that the
guard covers is younger than all of them. -/
structure GateWorld.Ordered (world : GateWorld) : Prop where
  stored : world.stored.Pairwise (· < ·)
  below : ∀ number ∈ world.stored, number < world.starts.length
  youngest : ∀ check, world.flight = some (some check) →
    check < world.starts.length ∧ ∀ older ∈ world.stored, older < check

namespace GateWorld.Ordered

variable {before after : GateWorld}

/-- Nothing is stored, and no check is covered that was not covered before. -/
theorem unstored (ordered : before.Ordered) (stored : after.stored = before.stored)
    (starts : after.starts = before.starts)
    (covered : ∀ check, after.flight = some (some check) → before.flight = some (some check)) :
    after.Ordered where
  stored := stored ▸ ordered.stored
  below := by
    rw [stored, starts]
    exact ordered.below
  youngest check flown := by
    rw [stored, starts]
    exact ordered.youngest check (covered check flown)

/-- A younger verdict comes last. -/
theorem store (ordered : before.Ordered) {check : Nat} (bounded : check < after.starts.length)
    (starts : before.starts.length ≤ after.starts.length)
    (younger : ∀ older ∈ before.stored, older < check)
    (stored : after.stored = before.stored ++ [check])
    (idle : ∀ check, after.flight ≠ some (some check)) : after.Ordered where
  stored := by
    rw [stored]
    refine List.pairwise_append.mpr ⟨ordered.stored, List.pairwise_singleton _ _, ?_⟩
    intro older member last same
    rw [List.mem_singleton.mp same]
    exact younger older member
  below := by
    intro older member
    rw [stored] at member
    rcases List.mem_append.mp member with earlier | last
    · exact (ordered.below older earlier).trans_le starts
    · rw [List.mem_singleton.mp last]
      exact bounded
  youngest check flown := (idle check flown).elim

/-- Only the storing of a verdict rests on the guard: it is that of the check it covers. -/
theorem performs (ordered : before.Ordered) {op : GateOp} {answer : GateAnswer op}
    (performed : GatePerforms before op answer after)
    (covered : ∀ check gate, op = .storeGate check gate → before.flight = some (some check)) :
    after.Ordered := by
  cases op with
  | readGate =>
      obtain ⟨-, rfl⟩ := performed
      exact ordered
  | lockRefresh =>
      obtain ⟨-, rfl⟩ := performed
      exact ordered.unstored rfl rfl (by simp)
  | dropRefresh =>
      obtain rfl := performed
      exact ordered.unstored rfl rfl (by simp)
  | startCheck =>
      obtain ⟨rfl, rfl⟩ := performed
      refine ⟨ordered.stored, fun number member => ?_, fun check flown => ?_⟩
      · have bounded := ordered.below number member
        rw [List.length_append]
        exact Nat.lt_add_right _ bounded
      · obtain ⟨-, -, rfl⟩ : ∃ _, _ ∧ before.starts.length = check := by simpa using flown
        exact ⟨by simp, ordered.below⟩
  | storeGate check gate =>
      obtain rfl := performed
      have flown := covered check gate rfl
      obtain ⟨bounded, younger⟩ := ordered.youngest check flown
      exact ordered.store bounded le_rfl younger rfl (by simp)
  | _ =>
      obtain rfl := performed
      exact ordered

end GateWorld.Ordered

/-- Verdicts are stored in order, because whoever stores one has held the lock since the check
started. -/
theorem reaches_ordered (reached : (gateSystem config).Reaches .boot pool) :
    pool.world.Ordered := by
  induction reached with
  | refl => exact ⟨.nil, by simp [GateWorld.boot], by simp [GateWorld.boot]⟩
  | tail reached step ih =>
      have held := Lock.held (refreshLock_kept config) (gateSystem_ruled config)
        (gateSystem_monotone config) reached
      have known := reaches_gateJustified reached
      cases step with
      | drift drifted =>
          cases drifted
          exact ih.unstored rfl rfl fun _ flown => flown
      | @perform world next before after thread op rest answer child running performed waited spawns =>
          have here : thread ∈ before ++ thread :: after := by simp
          have under := gateRule_under ((known thread here).allowed running)
          refine ih.performs performed ?_
          rintro check gate rfl
          have knows : flightOf thread.history = some (some check) := under
          have owns : refreshLock.Owns thread :=
            ⟨Thread.not_finished running, by simp [refreshLock, knows]⟩
          exact (held.agrees thread here owns).symm.trans knows
      | restart restarted main =>
          obtain ⟨gate, startedAt, now, -, -, rfl⟩ := restarted
          exact ih.store (by simp) (by simp) ih.below rfl (by simp)

/-! ## Submissions -/

/-- The gate is open, by a verdict that is younger than `FINGERPRINT_TTL`. -/
def GateWorld.Open (world : GateWorld) : Prop :=
  world.state.gate.writesEnabled ∧ world.now - world.state.checkedAt < FINGERPRINT_TTL

/-- What lets a call through has found the gate open, or opened it. -/
theorem open_of_passes {op : GateOp} {answer : GateAnswer op} {before after : GateWorld}
    (performed : GatePerforms before op answer after) (passes : Passes ⟨op, answer⟩) : after.Open := by
  cases op with
  | readGate =>
      obtain ⟨rfl, rfl⟩ := performed
      have fresh : gateIsFresh after.state FINGERPRINT_TTL after.now := passes
      simpa [gateIsFresh, GateWorld.Open] using fresh
  | storeGate check gate =>
      obtain rfl := performed
      refine ⟨passes, ?_⟩
      change before.now - before.now < FINGERPRINT_TTL
      rw [Nat.sub_self]
      decide
  | _ => cases passes

/-- A submission has a check before it, with no other submission between them, that found or
made the gate open. -/
def Covered (earlier : List (Entry gates GateWorld)) : Prop :=
  ∃ before check between, earlier = before ++ check :: between ∧ Passes check.exchange ∧
    check.after.Open ∧ ∀ other ∈ between, ¬ other.op.Submits

theorem covered_of_gated (reached : (gateSystem config).Reaches .boot pool)
    (member : thread ∈ pool.threads) (split : thread.log = earlier ++ entry :: later)
    (gated : (gateStanding (historyOf earlier)).gated) : Covered earlier := by
  obtain ⟨early, passed, late, parts, passes, unsent⟩ := exists_passed gated
  obtain ⟨before, rest, rfl, rfl, onward⟩ := List.map_eq_append_iff.mp parts
  obtain ⟨check, between, rfl, rfl, rfl⟩ := List.map_eq_cons_iff.mp onward
  have performed := (reaches_gateJustified reached thread member).performed check
    (by simp [Thread.entries, split])
  exact ⟨before, check, between, rfl, passes, open_of_passes performed passes,
    fun other inside => unsent other.exchange (List.mem_map_of_mem inside)⟩

/-- Verdicts are stored in the order in which their checks start. A call submits only when its
last check of the gate, with no submission after it, has found or made the gate open; once a
check of it has failed it submits nothing and answers that writes are disabled. -/
theorem writes_gated (reached : (gateSystem config).Reaches .boot pool) :
    pool.world.stored.Pairwise (· < ·) ∧
      ∀ thread ∈ pool.threads, ∀ earlier entry later, thread.log = earlier ++ entry :: later →
        (entry.op.Submits → Covered earlier) ∧
          ((∃ other ∈ earlier, Fails other.exchange) → ¬ entry.op.Submits ∧ entry.op.SaysDisabled) := by
  refine ⟨(reaches_ordered reached).stored, fun thread member earlier entry later split => ?_⟩
  obtain ⟨submission, disabled⟩ := standing_rests reached member split
  refine ⟨fun submits => covered_of_gated reached member split (submission submits).1, ?_⟩
  rintro ⟨other, inside, fails⟩
  have refused : (gateStanding (historyOf earlier)).refused := by
    cases clear : (gateStanding (historyOf earlier)).refused with
    | true => rfl
    | false =>
        have shut := not_fails_of_clear clear other.exchange (List.mem_map_of_mem inside)
        exact absurd fails (by simp [shut])
  refine ⟨fun submits => ?_, disabled refused⟩
  exact absurd refused (by simp [(submission submits).2])

end Runs

section Tests

/-- A server without a key, started with a verdict. -/
def testConfig : McpConfig where
  ctx := { testCtx with signer := none }
  sequencerUrl := "http://localhost:3040"
  build _ := .ok ()

/-- The server as it starts: its verdict is from a check that started at once. -/
def testStarted : GateWorld := { GateWorld.boot with
  state := ⟨.Verified ⟨true, ""⟩, 0⟩
  starts := [0]
  stored := [0] }

/-- A minute later. -/
def testStale : GateWorld := { testStarted with now := 60 * 1000000000 }

/-- A claim for an account that exists. -/
def testFaucet : FaucetParams := ⟨"11111111111111111111111111111111", none, none⟩

/-- What a claim does between its first look at the gate and its submission. -/
def testSolveLog (world : GateWorld) : List (Entry gates GateWorld) :=
  [.quiet world (.write (.tool (.getAccount (Bytes.zero 32)))) (.ok testOwned),
    .quiet world (.write (.tool (.getAccountBalance (Bytes.zero 32)))) (.ok 0),
    .quiet world (.write .lockClaim) (),
    .quiet world (.write (.tool (.getAccountBalance (Bytes.zero 32)))) (.ok 0),
    .quiet world (.write (.solveClaim (Bytes.zero 32))) (.ok ⟨0, Bytes.zero 32, Bytes.zero 32⟩),
    .quiet world .readGate (world.state, world.now)]

/-- A claim up to its submission. -/
def testClaimLog : List (Entry gates GateWorld) :=
  .quiet testStarted .readGate (testStarted.state, 0) :: testSolveLog testStarted

/-- Its submission. -/
def testSubmission (world : GateWorld) : Entry gates GateWorld :=
  .quiet world (.write (.submitClaim ⟨0, Bytes.zero 32, Bytes.zero 32⟩)) (.ok "c3")

/-- The guard is taken. -/
def testLocked (world : GateWorld) : GateWorld := { world with flight := some none }

/-- A check is under way. -/
def testChecking (world : GateWorld) : GateWorld := { world with
  starts := world.starts ++ [world.now]
  flight := some (some world.starts.length) }

/-- A check has been made. -/
def testStored (world : GateWorld) (gate : Gate) : GateWorld := { world with
  state := ⟨gate, world.now⟩
  startedAt := world.now
  starts := world.starts ++ [world.now]
  stored := world.stored ++ [world.starts.length] }

/-- A check with what it ends with. -/
def testCheckLog (world : GateWorld) (report : FingerprintReport) : List (Entry gates GateWorld) :=
  let after := testStored world (gateOf (.ok report))
  [⟨.startCheck, world.starts.length, testLocked world, testChecking world⟩,
    .quiet (testChecking world) .dropped false,
    .quiet (testChecking world) (.finishCheck world.starts.length) (.ok report),
    .quiet (testChecking world) .dropped false,
    ⟨.storeGate world.starts.length (gateOf (.ok report)), (), testChecking world, testLocked after⟩,
    ⟨.dropRefresh, (), testLocked after, after⟩]

/-- The programs have changed on the sequencer. -/
def testMismatched : GateWorld := testStored testStale (.Mismatch ⟨false, ""⟩)

/-- They have been changed back. -/
def testVerified : GateWorld := testStored testMismatched (.Verified ⟨true, ""⟩)

/-- A call of `lez_fingerprint` that finds the programs changed. -/
def testMismatchLog : List (Entry gates GateWorld) :=
  ⟨.lockRefresh, (), testStale, testLocked testStale⟩ :: testCheckLog testStale ⟨false, ""⟩ ++
    [.quiet testMismatched .readGate (testMismatched.state, testMismatched.now),
      .quiet testMismatched (.report (.ok ⟨false, ""⟩) false) ()]

/-- A claim that finds the gate stale. -/
def testStaleLog : List (Entry gates GateWorld) :=
  [.quiet testStale .readGate (testStale.state, testStale.now)]

/-- It makes a check of its own and solves its challenge. -/
def testRefreshLog : List (Entry gates GateWorld) :=
  ⟨.lockRefresh, (), testMismatched, testLocked testMismatched⟩ ::
    .quiet (testLocked testMismatched) .dropped false ::
    .quiet (testLocked testMismatched) .readGate (testMismatched.state, testMismatched.now) ::
    testCheckLog testMismatched ⟨true, ""⟩ ++ testSolveLog testVerified

theorem test_claims (world : GateWorld)
    (drifted : Relation.ReflTransGen GateDrift testStarted world) :
    ∃ rest, Advances (gateSystem testConfig).environment
      (GateTask.body testConfig (.faucet testFaucet)) testStarted
      (testClaimLog ++ [testSubmission world]) rest world := by
  refine Advances.more .refl ⟨rfl, rfl⟩ ?_
  iterate 5 refine Advances.more .refl rfl ?_
  refine Advances.more .refl ⟨rfl, rfl⟩ ?_
  exact Advances.more drifted rfl ⟨_, .none⟩

theorem test_mismatches : ∃ rest, Advances (gateSystem testConfig).environment
    (GateTask.body testConfig (.fingerprint none)) testStale testMismatchLog rest testMismatched := by
  refine Advances.more .refl ⟨rfl, rfl⟩ ?_
  refine Advances.more .refl ⟨rfl, rfl⟩ ?_
  iterate 5 refine Advances.more .refl rfl ?_
  refine Advances.more .refl ⟨rfl, rfl⟩ ?_
  exact Advances.more .refl rfl ⟨_, .none⟩

/-- The server takes a call. -/
theorem test_taken {world : GateWorld} {thread : Thread gates GateWorld GateTask Unit}
    {after : List (Thread gates GateWorld GateTask Unit)} {calls : Nat} (task : GateTask)
    (reached : (gateSystem testConfig).Reaches .boot ⟨world, thread :: after⟩)
    (serving : thread.rest = serveCalls (calls + 1)) (plain : ∀ calls, task ≠ .serve calls) :
    ∃ server past, (gateSystem testConfig).Reaches .boot
      ⟨world, server :: after ++ [.spawned task past (GateTask.body testConfig task)]⟩ ∧
        server.rest = serveCalls calls := by
  have accepted : (gateSystem testConfig).environment.perform (.write (.tool .accept)) world () world := rfl
  have spawns : (gateSystem testConfig).spawns (.write (.tool .accept)) (some task) := ⟨task, rfl, plain⟩
  have taken : (gateSystem testConfig).Step ⟨world, [] ++ thread :: after⟩ _ :=
    .perform serving accepted False.elim spawns
  exact ⟨_, _, reached.tail taken, rfl⟩

/-- The server has taken a claim and a call of `lez_fingerprint`. -/
theorem test_calls_taken : ∃ server claimed checked, (gateSystem testConfig).Reaches .boot ⟨testStarted,
    [server, .spawned (.faucet testFaucet) claimed (GateTask.body testConfig (.faucet testFaucet)),
      .spawned (.fingerprint none) checked (GateTask.body testConfig (.fingerprint none))]⟩ := by
  have restarted : (gateSystem testConfig).restart .boot testStarted :=
    ⟨.Verified ⟨true, ""⟩, 0, 0, le_rfl, le_rfl, rfl⟩
  have opened : (gateSystem testConfig).Reaches .boot
      ⟨testStarted, [.spawned (.serve 2) [] (serveCalls 2)]⟩ := .single (.restart restarted ⟨2, rfl⟩)
  obtain ⟨server, claimed, reached, serving⟩ := test_taken (.faucet testFaucet) opened rfl nofun
  obtain ⟨server, checked, reached, -⟩ := test_taken (.fingerprint none) reached serving nofun
  exact ⟨server, claimed, checked, reached⟩

/-- The claim may be submitted at any later time. -/
theorem test_submits (world : GateWorld)
    (drifted : Relation.ReflTransGen GateDrift testStarted world) :
    ∃ pool, (gateSystem testConfig).Reaches .boot pool ∧ ∃ thread ∈ pool.threads,
      thread.log = testClaimLog ++ [testSubmission world] := by
  obtain ⟨rest, advances⟩ := test_claims world drifted
  obtain ⟨server, claimed, checked, taken⟩ := test_calls_taken
  have childless : ∀ entry ∈ testClaimLog ++ [testSubmission world],
      (gateSystem testConfig).spawns entry.op none := by
    simp [testClaimLog, testSolveLog, testSubmission, Entry.quiet, gateSystem]
  have going := (show (gateSystem testConfig).Reaches .boot ⟨testStarted, [server] ++ _ :: _⟩ from
    taken).advance advances childless fun _ _ impossible => impossible.elim
  exact ⟨_, going, _, List.mem_cons_of_mem _ List.mem_cons_self, rfl⟩

theorem test_refreshes : ∃ next, GateTask.body testConfig (.faucet testFaucet) = .call .readGate next ∧
    ∃ rest, Advances (gateSystem testConfig).environment (next (testStale.state, testStale.now))
      testMismatched (testRefreshLog ++ [testSubmission testVerified]) rest testVerified := by
  refine ⟨_, rfl, ?_⟩
  refine Advances.more .refl ⟨rfl, rfl⟩ ?_
  refine Advances.more .refl rfl ?_
  refine Advances.more .refl ⟨rfl, rfl⟩ ?_
  refine Advances.more .refl ⟨rfl, rfl⟩ ?_
  iterate 10 refine Advances.more .refl rfl ?_
  refine Advances.more .refl ⟨rfl, rfl⟩ ?_
  exact Advances.more .refl rfl ⟨_, .none⟩

/-- A claim finds the gate stale; before it makes a check of its own, a call of `lez_fingerprint`
finds the programs changed. -/
theorem test_overlap : ∃ pool, (gateSystem testConfig).Reaches .boot pool ∧ pool.world = testVerified ∧
    ∃ thread ∈ pool.threads,
      thread.log = testStaleLog ++ (testRefreshLog ++ [testSubmission testVerified]) := by
  obtain ⟨server, claimed, checked, taken⟩ := test_calls_taken
  obtain ⟨next, begins, rest, refreshes⟩ := test_refreshes
  obtain ⟨rest, mismatches⟩ := test_mismatches
  have stale : Relation.ReflTransGen (gateSystem testConfig).environment.drift testStarted testStale :=
    .single (.later (Nat.zero_le _))
  have looked := (show (gateSystem testConfig).Reaches .boot ⟨testStale, [server] ++ _ :: _⟩ from
    taken.drifts stale).perform begins (show GatePerforms testStale .readGate
      (testStale.state, testStale.now) testStale from ⟨rfl, rfl⟩) False.elim rfl
  have changed := (show (gateSystem testConfig).Reaches .boot ⟨testStale, [server, _] ++ _ :: []⟩ from
    looked).advance mismatches (by simp [testMismatchLog, testCheckLog, Entry.quiet, gateSystem])
      fun _ _ impossible => impossible.elim
  have verified := (show (gateSystem testConfig).Reaches .boot
    ⟨testMismatched, [server] ++ _ :: [_]⟩ from changed).advance refreshes
      (by simp [testRefreshLog, testCheckLog, testSolveLog, testSubmission, Entry.quiet, gateSystem])
        fun _ _ impossible => impossible.elim
  exact ⟨_, verified, rfl, _, List.mem_cons_of_mem _ List.mem_cons_self, rfl⟩

end Tests

/-- A submission may rest on a check that started a minute before it. -/
theorem stale_submission :
    ¬ ∀ (config : McpConfig) (pool : Pool gates GateWorld GateTask Unit),
      (gateSystem config).Reaches .boot pool → ∀ thread ∈ pool.threads, ∀ entry ∈ thread.log,
        entry.op.Submits → entry.before.state.gate.writesEnabled ∧
          entry.before.now - entry.before.startedAt < FINGERPRINT_TTL := by
  intro fresh
  obtain ⟨pool, reached, thread, member, same⟩ :=
    test_submits testStale (.single (.later (Nat.zero_le _)))
  have checked := fresh testConfig pool reached thread member (testSubmission testStale)
    (by simp [same]) trivial
  exact absurd checked.2 (by decide)

/-- A claim whose own check comes after another one that failed. -/
theorem writes_gated_claim : testVerified.stored = [0, 1, 2] ∧ testVerified.stored.Pairwise (· < ·) ∧
    Covered (testStaleLog ++ testRefreshLog) := by
  obtain ⟨pool, reached, world, thread, member, same⟩ := test_overlap
  obtain ⟨ordered, submissions⟩ := writes_gated reached
  rw [← List.append_assoc] at same
  exact ⟨rfl, world ▸ ordered, (submissions thread member _ _ [] same).1 trivial⟩

end AtomicSwaps.Mcp
