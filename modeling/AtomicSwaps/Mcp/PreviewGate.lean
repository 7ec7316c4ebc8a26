import AtomicSwaps.Mcp.TransferRule
import AtomicSwaps.Semantics.Authored

/-!
# The preview gate

The server with any number of calls in any order, and any readings of its clock. Every
transfer it submits is the only one of a preview, issued for the same transfer and less
than `PREVIEW_TTL` before its token was accepted.
-/

namespace AtomicSwaps.Mcp

open Semantics
open Lez (AccountId Account)

/-- What the server does with randomness, tokens and transfers. -/
inductive GateEvent where
  | random (bytes : Bytes32)
  | issued (token : String) (fromId toId : AccountId) (amount : U128) (at_ : Instant)
  | accepted (token : String) (fromId toId : AccountId) (amount : U128) (at_ : Instant)
  | transfer (fromId toId : AccountId) (amount : U128)

/-- An event of the life of a token. -/
def GateEvent.Names (token : String) : GateEvent → Prop
  | .issued named .. | .accepted named .. => named = token
  | .random _ | .transfer .. => False

/-- The table of live tokens, and everything that has happened. -/
structure Server where
  tokens : TokenStore
  events : List GateEvent

/-- The server as it starts. -/
def Server.started : Server := ⟨fun _ => none, []⟩

/-- The event of an operation. -/
def eventOf : (op : Op) → Answer op → Option GateEvent
  | .getrandom, bytes => some (.random bytes)
  | .issue token fromId toId amount, (_, now) => some (.issued token fromId toId amount now)
  | .consume token fromId toId amount, (now, .Ok) => some (.accepted token fromId toId amount now)
  | .sendTransfer fromId toId _ amount, _ => some (.transfer fromId toId amount)
  | _, _ => none

/-- What an operation may answer with, and what it does to the table. -/
def Tokens (before : TokenStore) : (op : Op) → Answer op → TokenStore → Prop
  | .issue token fromId toId amount, (pruned, now), after =>
      after = (prunePreviewTokensAt before pruned).insert token
        ⟨fromId, toId, amount, now + PREVIEW_TTL⟩
  | .consume token fromId toId amount, (now, check), after =>
      (check, after) = checkAndConsumeToken before token fromId toId amount now
  | _, _, after => after = before

/-- The server, its clock, the chain and the generator. -/
def environment : Environment interface Server where
  perform op before answer after :=
    Tokens before.tokens op answer after.tokens ∧
      after.events = before.events ++ (eventOf op answer).toList
  drift _ _ := False

/-- What a thread of the server runs. -/
inductive ServerTask where
  | serve (calls : Nat)
  | call (params : TransferParams)

/-- The program of a thread. -/
def ServerTask.body (ctx : Ctx) : ServerTask → Program interface Unit
  | .serve calls => Mcp.serve calls
  | .call params => handle ctx params

/-- The server: every call it takes runs as a thread of its own, and a restart forgets all
tokens. -/
def gateway (ctx : Ctx) : System interface Server ServerTask Unit where
  environment := environment
  body := ServerTask.body ctx
  main task := ∃ calls, task = .serve calls
  spawns op child := match op with
    | .accept => ∃ params, child = some (.call params)
    | _ => child = none
  waits _ := False
  restart before after := after = { before with tokens := fun _ => none }

/-- What every operation of the server rests on. -/
def gatewayRule : ServerTask → Trace → Op → Prop
  | .serve _, history, op => op = .accept ∧ ∀ exchange ∈ history, exchange.op = .accept
  | .call _, history, op => callRule history op

section Threads

variable {ctx : Ctx} {pool : Pool interface Server ServerTask Unit}

theorem gateway_ruled (ctx : Ctx) : (gateway ctx).Ruled gatewayRule where
  main task main := by
    obtain ⟨calls, rfl⟩ := main
    suffices served : ∀ calls (history : Trace), (∀ exchange ∈ history, exchange.op = .accept) →
        Follows (gatewayRule (.serve calls)) (fun _ _ => True) (Mcp.serve calls) history from
      served calls [] (by simp)
    intro calls
    induction calls with
    | zero => exact fun _ _ => trivial
    | succ calls ih =>
        refine fun history accepts => ⟨⟨rfl, accepts⟩, fun answer => ih _ ?_⟩
        simpa [or_imp, forall_and] using accepts
  child task history op answer child ruled spawns := by
    cases op with
    | accept =>
        obtain ⟨params, same⟩ := spawns
        cases same
        cases task with
        | call => exact ruled.2.elim
        | serve calls =>
            have accepts : ∀ exchange ∈ history ++ [⟨.accept, answer⟩],
                exchange.op = .accept := by
              simpa [or_imp, forall_and] using ruled.2
            have never : ∀ kind : Op → Prop, ¬ kind .accept →
                Never kind (history ++ [⟨.accept, answer⟩]) := by
              intro kind other exchange member
              rwa [accepts exchange member]
            exact handle_follows ⟨never _ id, never _ id, never _ id, never _ id⟩
    | _ => cases spawns

/-- The events are those of the operations. -/
theorem gateway_stamped (ctx : Ctx) : Stamped (gateway ctx) Server.events
    (fun entry => eventOf entry.op entry.answer) where
  drift drifted := drifted.elim
  perform performed := performed.2
  restart restarted := by rw [restarted]

end Threads

/-- A token stands for an issue of this transfer before a place, and nothing has become of
the token since. -/
def Backs (events : List GateEvent) (token : String) (place : Nat) (fromId toId : AccountId)
    (amount : U128) (expires : Instant) : Prop :=
  ∃ issue issuedAt, issue < place ∧
    events[issue]? = some (.issued token fromId toId amount issuedAt) ∧
    expires = issuedAt + PREVIEW_TTL ∧
    ∀ between event, issue < between → between < place → events[between]? = some event →
      ¬ event.Names token

/-- Every live token stands for its last issue, and so did every token that was accepted,
less than `PREVIEW_TTL` after it. -/
structure Server.Coherent (server : Server) : Prop where
  live : ∀ token previewed, server.tokens token = some previewed →
    Backs server.events token server.events.length previewed.fromId previewed.toId previewed.amount
      previewed.expires
  accepted : ∀ place token fromId toId amount now,
    server.events[place]? = some (.accepted token fromId toId amount now) →
      ∃ expires, now < expires ∧ Backs server.events token place fromId toId amount expires

section Coherence

variable {events : List GateEvent} {event : GateEvent} {tokens later : TokenStore} {token : String}
  {place : Nat} {fromId toId : AccountId} {amount : U128} {expires : Instant}

theorem Backs.grow (backs : Backs events token place fromId toId amount expires)
    (bounded : place ≤ events.length) :
    Backs (events ++ [event]) token place fromId toId amount expires := by
  obtain ⟨issue, issuedAt, before, issued, rfl, quiet⟩ := backs
  refine ⟨issue, issuedAt, before, ?_, rfl, fun between other above below found => ?_⟩
  · rwa [List.getElem?_append_left (before.trans_le bounded)]
  · rw [List.getElem?_append_left (below.trans_le bounded)] at found
    exact quiet between other above below found

/-- A token stands for its issue until something becomes of it. -/
theorem Backs.append (backs : Backs events token events.length fromId toId amount expires)
    (other : ¬ event.Names token) :
    Backs (events ++ [event]) token (events.length + 1) fromId toId amount expires := by
  obtain ⟨issue, issuedAt, before, issued, rfl, quiet⟩ := backs
  refine ⟨issue, issuedAt, by omega, ?_, rfl, fun between named above below found => ?_⟩
  · rwa [List.getElem?_append_left before]
  · rcases Nat.lt_succ_iff_lt_or_eq.mp below with inside | rfl
    · rw [List.getElem?_append_left inside] at found
      exact quiet between named above inside found
    · rw [List.getElem?_concat_length] at found
      cases found
      exact other

namespace Server.Coherent

/-- Tokens may go at any time. -/
theorem fewer (coherent : Server.Coherent ⟨tokens, events⟩)
    (kept : ∀ token previewed, later token = some previewed → tokens token = some previewed) :
    Server.Coherent ⟨later, events⟩ where
  live token previewed found := coherent.live token previewed (kept token previewed found)
  accepted := coherent.accepted

/-- An event of no live token may happen at any time, if it is no acceptance or one of a
token that was backed. -/
theorem append (coherent : Server.Coherent ⟨tokens, events⟩)
    (unnamed : ∀ token previewed, tokens token = some previewed → ¬ event.Names token)
    (backed : ∀ token fromId toId amount now, event = .accepted token fromId toId amount now →
      ∃ expires, now < expires ∧ Backs events token events.length fromId toId amount expires) :
    Server.Coherent ⟨tokens, events ++ [event]⟩ where
  live token previewed found := by
    have backs := (coherent.live token previewed found).append (unnamed token previewed found)
    simpa using backs
  accepted place token fromId toId amount now found := by
    rcases Nat.lt_or_ge place events.length with inside | outside
    · rw [List.getElem?_append_left inside] at found
      obtain ⟨expires, fresh, backs⟩ := coherent.accepted place token fromId toId amount now found
      exact ⟨expires, fresh, backs.grow inside.le⟩
    · rw [List.getElem?_append_right outside, List.getElem?_singleton] at found
      split at found
      · rename_i last
        obtain ⟨expires, fresh, backs⟩ := backed token fromId toId amount now (by simpa using found)
        obtain rfl : place = events.length := by omega
        exact ⟨expires, fresh, backs.grow le_rfl⟩
      · cases found

/-- A token that has just been issued is backed. -/
theorem insert (coherent : Server.Coherent
      ⟨tokens, events ++ [.issued token fromId toId amount place]⟩) :
    Server.Coherent ⟨tokens.insert token ⟨fromId, toId, amount, place + PREVIEW_TTL⟩,
      events ++ [.issued token fromId toId amount place]⟩ where
  live named previewed found := by
    by_cases same : named = token
    · subst same
      simp only [TokenStore.insert, Function.update_self, Option.some.injEq] at found
      subst found
      refine ⟨events.length, place, by simp, by simp, rfl, fun between event above below => ?_⟩
      simp at below
      omega
    · simp only [TokenStore.insert, Function.update_of_ne same] at found
      exact coherent.live named previewed found
  accepted := coherent.accepted

end Server.Coherent

/-- What is left after pruning was there before. -/
theorem prunePreviewTokensAt_some {now : Instant} {previewed : PreviewToken}
    (found : prunePreviewTokensAt tokens now token = some previewed) :
    tokens token = some previewed ∧ now < previewed.expires := by
  obtain ⟨found, live⟩ := Option.filter_eq_some_iff.mp found
  exact ⟨found, by simpa using live⟩

/-- What is left after removing a token is another one. -/
theorem TokenStore.remove_some {named : String} {previewed : PreviewToken}
    (found : tokens.remove token named = some previewed) :
    named ≠ token ∧ tokens named = some previewed := by
  by_cases same : named = token
  · subst same
    simp [TokenStore.remove] at found
  · exact ⟨same, by simpa [TokenStore.remove, Function.update_of_ne same] using found⟩

/-- A token is accepted when it is live and was issued for this transfer. -/
theorem checkToken_ok {found : Option PreviewToken} {now : Instant} :
    checkToken found fromId toId amount now = .Ok ↔
      ∃ expires, found = some ⟨fromId, toId, amount, expires⟩ ∧ now < expires := by
  constructor
  · intro checked
    unfold checkToken at checked
    split at checked
    · cases checked
    · rename_i previewed
      split at checked; · cases checked
      split at checked; · cases checked
      rename_i live matching
      simp only [not_or, not_not] at matching
      obtain ⟨rfl, rfl, rfl⟩ := matching
      exact ⟨previewed.expires, rfl, Nat.lt_of_not_le live⟩
  · rintro ⟨expires, rfl, live⟩
    have unexpired : ¬ expires ≤ now := Nat.not_le.mpr live
    simp [checkToken, unexpired]

/-- Every operation keeps the tokens backed. -/
theorem coherent_perform {op : Op} {answer : Answer op} {before after : Server}
    (coherent : before.Coherent) (performed : environment.perform op before answer after) :
    after.Coherent := by
  obtain ⟨store, past⟩ := before
  obtain ⟨next, history⟩ := after
  obtain ⟨table, rfl⟩ := performed
  cases op with
  | getrandom =>
      obtain rfl : next = store := table
      exact coherent.append (fun _ _ _ => id) (by rintro _ _ _ _ _ ⟨⟩)
  | sendTransfer =>
      obtain rfl : next = store := table
      exact coherent.append (fun _ _ _ => id) (by rintro _ _ _ _ _ ⟨⟩)
  | issue token fromId toId amount =>
      obtain ⟨pruned, now⟩ := answer
      obtain rfl : next = _ := table
      have cleared : Server.Coherent ⟨(prunePreviewTokensAt store pruned).remove token, past⟩ :=
        coherent.fewer fun named previewed found =>
          (prunePreviewTokensAt_some (TokenStore.remove_some found).2).1
      have issued : Server.Coherent ⟨(prunePreviewTokensAt store pruned).remove token,
          past ++ [.issued token fromId toId amount now]⟩ :=
        cleared.append (fun _ _ found same => (TokenStore.remove_some found).1 same.symm)
          (by rintro _ _ _ _ _ ⟨⟩)
      have inserted := issued.insert
      rw [TokenStore.insert, TokenStore.remove, Function.update_idem] at inserted
      exact inserted
  | consume token fromId toId amount =>
      obtain ⟨now, check⟩ := answer
      obtain ⟨checked, rfl⟩ := Prod.mk.inj table
      have left : ∀ named previewed,
          (prunePreviewTokensAt store now).remove token named = some previewed →
            named ≠ token ∧ store named = some previewed := fun named previewed found =>
        ⟨(TokenStore.remove_some found).1,
          (prunePreviewTokensAt_some (TokenStore.remove_some found).2).1⟩
      have cleared : Server.Coherent ⟨(prunePreviewTokensAt store now).remove token, past⟩ :=
        coherent.fewer fun named previewed found => (left named previewed found).2
      cases check with
      | Ok =>
          obtain ⟨expires, found, live⟩ := checkToken_ok.mp checked.symm
          have backs := coherent.live token _ (prunePreviewTokensAt_some found).1
          apply cleared.append
          · exact fun named previewed found same => (left named previewed found).1 same.symm
          · rintro _ _ _ _ _ ⟨⟩
            exact ⟨expires, live, backs⟩
      | _ => simpa [eventOf] using cleared
  | _ =>
      obtain rfl : next = store := table
      simpa [eventOf] using coherent

end Coherence

/-- The generator never returns the same bytes twice. -/
def Unrepeated (events : List GateEvent) : Prop :=
  ∀ (first second : Nat) (bytes : Bytes32), events[first]? = some (.random bytes) →
    events[second]? = some (.random bytes) → first = second

section Runs

variable {ctx : Ctx} {pool : Pool interface Server ServerTask Unit}
  {thread : Thread interface Server ServerTask Unit}
  {earlier later : List (Entry interface Server)} {entry : Entry interface Server}

/-- The tokens of a server are backed at all times. -/
theorem reaches_coherent (reached : (gateway ctx).Reaches .started pool) : pool.world.Coherent := by
  induction reached with
  | refl => exact ⟨by rintro _ _ ⟨⟩, by simp [Server.started]⟩
  | tail _ step ih =>
      cases step with
      | drift drifted => exact drifted.elim
      | perform running performed waited spawns => exact coherent_perform ih performed
      | restart restarted main =>
          obtain rfl := restarted
          exact ih.fewer (by rintro _ _ ⟨⟩)

theorem reaches_justified (reached : (gateway ctx).Reaches .started pool) :
    ∀ thread ∈ pool.threads, (gateway ctx).Justified gatewayRule
      (fun before after => before.events <+: after.events) pool.world thread :=
  System.justified (gateway_ruled ctx) (gateway_stamped ctx).monotone reached

/-- What anything but the server's loop does rests on the rule of a call. -/
theorem call_rests (reached : (gateway ctx).Reaches .started pool) (member : thread ∈ pool.threads)
    (split : thread.log = earlier ++ entry :: later) (other : entry.op ≠ .accept) :
    callRule (historyOf (thread.past ++ earlier)) entry.op := by
  have obeys := (reaches_justified reached thread member).obeys earlier entry later split
  generalize thread.task = task at obeys
  cases task with
  | serve calls => exact (other obeys.1).elim
  | call params => exact obeys

/-- What a call looks back on it has done itself, apart from being taken. -/
theorem own (reached : (gateway ctx).Reaches .started pool) (member : thread ∈ pool.threads)
    {exchange : Exchange interface} (inside : exchange ∈ historyOf (thread.past ++ earlier))
    (other : exchange.op ≠ .accept) : ∃ own ∈ earlier, own.exchange = exchange := by
  have inherited : ∀ thread ∈ pool.threads, ∀ entry ∈ thread.past, entry.op = Op.accept := by
    refine System.inherited (· = Op.accept) (gateway_ruled ctx) (gateway_stamped ctx).monotone
      (fun task history op child rests spawns => ?_) reached
    cases op with
    | accept =>
        cases task with
        | serve calls => exact rests
        | call params => exact rests.2.elim
    | _ => cases spawns
  rw [historyOf_append] at inside
  rcases List.mem_append.mp inside with past | here
  · obtain ⟨taken, there, rfl⟩ := List.mem_map.mp past
    exact (other (inherited thread member taken there)).elim
  · exact List.mem_map.mp here

/-- What a call did before was placed before. -/
theorem place_lt (reached : (gateway ctx).Reaches .started pool) (member : thread ∈ pool.threads)
    (split : thread.log = earlier ++ entry :: later) {old : Entry interface Server}
    (before : old ∈ earlier) {event : GateEvent} (stamps : eventOf old.op old.answer = some event) :
    old.place Server.events < entry.place Server.events := by
  have justified := reaches_justified reached thread member
  have grown := justified.before split old (List.mem_append_right _ before)
  have performed := justified.performed old (by simp [Thread.entries, split, before])
  have bound := grown.length_le
  rw [performed.2, stamps] at bound
  rw [Option.toList_some, List.length_append, List.length_singleton] at bound
  exact Nat.lt_of_succ_le bound

/-- A transfer is submitted by a call that submitted none before, and whose token was
accepted for it. -/
theorem transfer_accepted (reached : (gateway ctx).Reaches .started pool) {place : Nat}
    {fromId toId : AccountId} {amount : U128}
    (there : pool.world.events[place]? = some (.transfer fromId toId amount)) :
    ∃ thread ∈ pool.threads, ∃ earlier entry later, thread.log = earlier ++ entry :: later ∧
      entry.place Server.events = place ∧ entry.op.Transfers ∧
      Never Op.Transfers (historyOf (thread.past ++ earlier)) ∧
      ∃ consumed ∈ earlier, ∃ token now,
        eventOf consumed.op consumed.answer = some (.accepted token fromId toId amount now) ∧
        consumed.place Server.events < place := by
  obtain ⟨thread, member, earlier, entry, later, split, stamps, rfl⟩ :=
    (gateway_stamped ctx).exists_author reached rfl there
  obtain ⟨op, answer, before, after⟩ := entry
  cases op with
  | sendTransfer fromId' toId' nonces amount' =>
      cases stamps
      obtain ⟨-, unsent, token, now, accepted⟩ := call_rests reached member split (by simp)
      obtain ⟨consumed, inside, same⟩ := own reached member accepted (by simp)
      have stamps : eventOf consumed.op consumed.answer =
          some (.accepted token fromId toId amount now) := by
        obtain ⟨op, answer, _, _⟩ := consumed
        cases same
        rfl
      exact ⟨thread, member, earlier, _, later, split, rfl, trivial, unsent, consumed, inside, token,
        now, stamps, place_lt reached member split inside stamps⟩
  | consume =>
      obtain ⟨now, check⟩ := answer
      cases check <;> cases stamps
  | _ => cases stamps

/-- A preview is issued by a call that issued none before, under what it drew. -/
theorem issue_drawn (reached : (gateway ctx).Reaches .started pool) {place : Nat} {token : String}
    {fromId toId : AccountId} {amount : U128} {now : Instant}
    (there : pool.world.events[place]? = some (.issued token fromId toId amount now)) :
    ∃ thread ∈ pool.threads, ∃ earlier entry later, thread.log = earlier ++ entry :: later ∧
      entry.place Server.events = place ∧ entry.op.Issues ∧
      Never Op.Issues (historyOf (thread.past ++ earlier)) ∧
      ∃ drawn ∈ earlier, ∃ random, eventOf drawn.op drawn.answer = some (.random random) ∧
        token = newPreviewToken random := by
  obtain ⟨thread, member, earlier, entry, later, split, stamps, rfl⟩ :=
    (gateway_stamped ctx).exists_author reached rfl there
  obtain ⟨op, answer, before, after⟩ := entry
  cases op with
  | issue token' fromId' toId' amount' =>
      cases stamps
      obtain ⟨-, unissued, random, drew, rfl⟩ := call_rests reached member split (by simp)
      obtain ⟨drawn, inside, same⟩ := own reached member drew (by simp)
      have stamps : eventOf drawn.op drawn.answer = some (.random random) := by
        obtain ⟨op, answer, _, _⟩ := drawn
        cases same
        rfl
      exact ⟨thread, member, earlier, _, later, split, rfl, trivial, unissued, drawn, inside, random,
        stamps, rfl⟩
  | consume =>
      obtain ⟨now, check⟩ := answer
      cases check <;> cases stamps
  | _ => cases stamps

/-- Of two operations of a kind that a thread performs at most once, neither is before the
other. -/
theorem only_one {kind : Op → Prop} {earlier' later' : List (Entry interface Server)}
    {other : Entry interface Server} (split : thread.log = earlier ++ entry :: later)
    (split' : thread.log = earlier' ++ other :: later') (here : kind entry.op) (there : kind other.op)
    (never : Never kind (historyOf (thread.past ++ earlier)))
    (never' : Never kind (historyOf (thread.past ++ earlier'))) : entry = other := by
  rcases split_cases (split.symm.trans split') with ⟨-, same⟩ | before | before
  · exact same
  · exact (never' entry.exchange
      (List.mem_map_of_mem (List.mem_append_right _ before)) here).elim
  · exact (never other.exchange
      (List.mem_map_of_mem (List.mem_append_right _ before)) there).elim

/-- No token is issued twice, as long as the generator does not repeat itself. -/
theorem issued_once (reached : (gateway ctx).Reaches .started pool)
    (unrepeated : Unrepeated pool.world.events) {first second : Nat} {token : String}
    {fromId toId fromId' toId' : AccountId} {amount amount' : U128} {now now' : Instant}
    (here : pool.world.events[first]? = some (.issued token fromId toId amount now))
    (there : pool.world.events[second]? = some (.issued token fromId' toId' amount' now')) :
    first = second := by
  obtain ⟨thread, member, earlier, entry, later, split, rfl, issues, never, drawn, inside, random,
    stamps, rfl⟩ := issue_drawn reached here
  obtain ⟨thread', member', earlier', entry', later', split', rfl, issues', never', drawn', inside',
    random', stamps', same⟩ := issue_drawn reached there
  obtain rfl : random = random' := List.Vector.eq _ _ (Hex.encode_injective same)
  have logged : drawn ∈ thread.log := by simp [split, inside]
  have logged' : drawn' ∈ thread'.log := by simp [split', inside']
  have place := unrepeated _ _ random
    ((gateway_stamped ctx).placed reached rfl member logged stamps)
    ((gateway_stamped ctx).placed reached rfl member' logged' stamps')
  obtain rfl := (gateway_stamped ctx).one_author reached rfl member member' logged logged' stamps
    stamps' place
  rw [only_one split split' issues issues' never never']

/-- No token is accepted twice, as long as the generator does not repeat itself. -/
theorem accepted_once (reached : (gateway ctx).Reaches .started pool)
    (unrepeated : Unrepeated pool.world.events) {first second : Nat} {token : String}
    {fromId toId fromId' toId' : AccountId} {amount amount' : U128} {now now' : Instant}
    (here : pool.world.events[first]? = some (.accepted token fromId toId amount now))
    (there : pool.world.events[second]? = some (.accepted token fromId' toId' amount' now')) :
    first = second := by
  obtain ⟨_, _, issue, _, below, issued, -, quiet⟩ :=
    (reaches_coherent reached).accepted _ _ _ _ _ _ here
  obtain ⟨_, _, issue', _, below', issued', -, quiet'⟩ :=
    (reaches_coherent reached).accepted _ _ _ _ _ _ there
  obtain rfl := issued_once reached unrepeated issued issued'
  rcases Nat.lt_trichotomy first second with before | same | behind
  · exact (quiet' _ _ below before here rfl).elim
  · exact same
  · exact (quiet _ _ below' behind there rfl).elim

/-- A transfer, the acceptance behind it and the preview behind that. -/
def Previewed (events : List GateEvent) (place issue accept : Nat) : Prop :=
  ∃ token fromId toId amount issuedAt acceptedAt,
    events[place]? = some (.transfer fromId toId amount) ∧
    events[issue]? = some (.issued token fromId toId amount issuedAt) ∧
    events[accept]? = some (.accepted token fromId toId amount acceptedAt) ∧
    issue < accept ∧ accept < place ∧ acceptedAt < issuedAt + PREVIEW_TTL

/-- A transfer is submitted at a place. -/
def TransferAt (events : List GateEvent) (place : Nat) : Prop :=
  ∃ fromId toId amount, events[place]? = some (.transfer fromId toId amount)

/-- The call that submitted a transfer had consumed this acceptance. -/
def Consumed (pool : Pool interface Server ServerTask Unit) (place accept : Nat) : Prop :=
  ∃ thread ∈ pool.threads, ∃ earlier entry later, thread.log = earlier ++ entry :: later ∧
    entry.place Server.events = place ∧ entry.op.Transfers ∧
    Never Op.Transfers (historyOf (thread.past ++ earlier)) ∧
    ∃ consumed ∈ earlier, ∃ event, eventOf consumed.op consumed.answer = some event ∧
      consumed.place Server.events = accept

/-- Nothing becomes of a token between its issue and its acceptance. -/
def Untouched (events : List GateEvent) (issue accept : Nat) : Prop :=
  ∀ token fromId toId amount now,
    events[accept]? = some (.accepted token fromId toId amount now) →
      ∀ between event, issue < between → between < accept → events[between]? = some event →
        ¬ event.Names token

/-- A preview stands behind one acceptance only. -/
theorem one_acceptance {events : List GateEvent} {first second issue accept accept' : Nat}
    (here : Previewed events first issue accept) (there : Previewed events second issue accept')
    (untouched : Untouched events issue accept) (untouched' : Untouched events issue accept') :
    accept = accept' := by
  obtain ⟨token, _, _, _, _, _, -, issued, accepted, below, -⟩ := here
  obtain ⟨token', _, _, _, _, _, -, issued', accepted', below', -⟩ := there
  obtain ⟨rfl, -⟩ := GateEvent.issued.inj (Option.some.inj (issued.symm.trans issued'))
  rcases Nat.lt_trichotomy accept accept' with before | same | behind
  · exact (untouched' _ _ _ _ _ accepted' _ _ below before accepted rfl).elim
  · exact same
  · exact (untouched _ _ _ _ _ accepted _ _ below' behind accepted' rfl).elim

/-- Every transfer has its preview. -/
theorem exists_previewed (reached : (gateway ctx).Reaches .started pool) {place : Nat}
    (transfer : TransferAt pool.world.events place) :
    ∃ issue accept, Previewed pool.world.events place issue accept ∧ Consumed pool place accept ∧
      Untouched pool.world.events issue accept := by
  obtain ⟨fromId, toId, amount, there⟩ := transfer
  obtain ⟨thread, member, earlier, entry, later, split, placed, transfers, never, consumed, inside,
    token, now, stamps, before⟩ := transfer_accepted reached there
  have accepted := (gateway_stamped ctx).placed reached rfl member
    (show consumed ∈ thread.log by simp [split, inside]) stamps
  obtain ⟨_, live, issue, issuedAt, below, issued, rfl, quiet⟩ :=
    (reaches_coherent reached).accepted _ _ _ _ _ _ accepted
  refine ⟨issue, consumed.place Server.events, ?_, ?_, ?_⟩
  · exact ⟨token, fromId, toId, amount, issuedAt, now, there, issued, accepted, below, before, live⟩
  · exact ⟨thread, member, earlier, entry, later, split, placed, transfers, never, consumed, inside,
      _, stamps, rfl⟩
  · intro token' _ _ _ _ accepted'
    obtain ⟨rfl, -⟩ := GateEvent.accepted.inj (Option.some.inj (accepted.symm.trans accepted'))
    exact quiet

/-- Every acceptance is consumed for one transfer at most. -/
theorem consumed_once (reached : (gateway ctx).Reaches .started pool) {first second accept : Nat}
    (here : Consumed pool first accept) (there : Consumed pool second accept) : first = second := by
  obtain ⟨thread, member, earlier, entry, later, split, rfl, transfers, never, consumed, inside,
    event, stamps, rfl⟩ := here
  obtain ⟨thread', member', earlier', entry', later', split', rfl, transfers', never', consumed',
    inside', event', stamps', same⟩ := there
  have logged : consumed ∈ thread.log := by simp [split, inside]
  have logged' : consumed' ∈ thread'.log := by simp [split', inside']
  have found := (gateway_stamped ctx).placed reached rfl member logged stamps
  have found' := (gateway_stamped ctx).placed reached rfl member' logged' stamps'
  rw [same, found] at found'
  cases found'
  obtain rfl := (gateway_stamped ctx).one_author reached rfl member member' logged logged' stamps
    stamps' same.symm
  rw [only_one split split' transfers transfers' never never']

/-- What a call that is taken has done before it initializes its sender, the only time it
does: its token was accepted, and it has read the sender as not initialized. -/
structure InitializedOnce (earlier later : List (Entry interface Server)) (fromId : AccountId) :
    Prop where
  accepted : ∃ consumed ∈ earlier, ∃ token toId amount now,
    eventOf consumed.op consumed.answer = some (.accepted token fromId toId amount now)
  uninitialized : ∃ read ∈ earlier, ∃ account,
    read.exchange = ⟨.getAccount fromId, .ok account⟩ ∧ account.programOwner = Lez.DEFAULT_PROGRAM_ID
  only : ∀ other ∈ earlier ++ later, ¬ other.op.Initializes

/-- An operation that initializes is no taking of a call. -/
theorem Op.Initializes.ne_accept {op : Op} (initializes : op.Initializes) : op ≠ .accept := by
  rintro rfl
  exact initializes

/-- A call initializes its own sender, once, after its token was accepted. -/
theorem initialized_once (reached : (gateway ctx).Reaches .started pool)
    (member : thread ∈ pool.threads) (split : thread.log = earlier ++ entry :: later)
    {fromId : AccountId} {nonces : List U128} (initializes : entry.op = .sendInitialize fromId nonces) :
    InitializedOnce earlier later fromId := by
  have rests := call_rests reached member split (by simp [initializes])
  rw [initializes] at rests
  obtain ⟨-, -, ⟨once, account, read, default⟩, toId, amount, token, now, accepted⟩ := rests
  have here : entry.op.Initializes := by rw [initializes]; trivial
  refine ⟨?_, ?_, ?_⟩
  · obtain ⟨consumed, there, same⟩ := own reached member accepted (by simp)
    refine ⟨consumed, there, token, toId, amount, now, ?_⟩
    obtain ⟨op, answer, _, _⟩ := consumed
    cases same
    rfl
  · obtain ⟨own, there, same⟩ := own reached member read (by simp)
    exact ⟨own, there, account, same, default⟩
  · intro other inside again
    rcases List.mem_append.mp inside with before | after
    · exact once other.exchange (List.mem_map_of_mem (List.mem_append_right _ before)) again
    · -- a later one would have had to be the first as well
      obtain ⟨between, rest, rfl⟩ := List.append_of_mem after
      have split' : thread.log = (earlier ++ entry :: between) ++ other :: rest := by simp [split]
      have rests := call_rests reached member split' again.ne_accept
      have never : Never Op.Initializes (historyOf (thread.past ++ (earlier ++ entry :: between))) := by
        generalize other.op = op at rests again
        cases op with
        | sendInitialize => exact rests.2.2.1.once
        | _ => exact again.elim
      exact never entry.exchange (List.mem_map_of_mem (by simp)) here

/-- A call that was refused has submitted no transfer. -/
theorem refused_transfers (reached : (gateway ctx).Reaches .started pool)
    (member : thread ∈ pool.threads) {refusal : Refusal} (logged : entry ∈ thread.log)
    (refused : entry.op = .respond (.refused refusal)) :
    ∀ other ∈ thread.log, ¬ other.op.Transfers := by
  obtain ⟨earlier, later, split⟩ := List.append_of_mem logged
  have ended := call_rests reached member split (by simp [refused])
  rw [refused] at ended
  intro other inside transfers
  obtain ⟨before, after, split'⟩ := List.append_of_mem inside
  rcases split_cases (split.symm.trans split') with ⟨-, rfl⟩ | behind | ahead
  · simp [refused, Op.Transfers] at transfers
  · -- nothing follows an answer
    have accept : other.op ≠ .accept := by
      intro same
      simp [same, Op.Transfers] at transfers
    apply (call_rests reached member split' accept).1 entry.exchange
      (List.mem_map_of_mem (List.mem_append_right _ behind))
    show entry.op.Responds
    rw [refused]
    trivial
  · exact ended.2 other.exchange (List.mem_map_of_mem (List.mem_append_right _ ahead)) transfers

end Runs

/-- Every transfer has a preview and an acceptance of its own, issued for the same
transfer and less than `PREVIEW_TTL` earlier; a token is accepted only for what it was
issued for, once and before it expires; and what is refused has transferred nothing, and
submitted at most the one `Initialize` of its sender. -/
theorem transfers_previewed {ctx : Ctx} {pool : Pool interface Server ServerTask Unit}
    (reached : (gateway ctx).Reaches .started pool) :
    (∃ issue accept : Nat → Nat, ∀ place, TransferAt pool.world.events place →
      Previewed pool.world.events place (issue place) (accept place) ∧
        ∀ other, TransferAt pool.world.events other →
          issue other = issue place ∨ accept other = accept place → other = place) ∧
    (∀ place token fromId toId amount now,
      pool.world.events[place]? = some (.accepted token fromId toId amount now) →
        ∃ expires, now < expires ∧
          Backs pool.world.events token place fromId toId amount expires) ∧
    (Unrepeated pool.world.events → ∀ (first second : Nat) token fromId toId amount now fromId' toId'
      amount' now', pool.world.events[first]? = some (.accepted token fromId toId amount now) →
        pool.world.events[second]? = some (.accepted token fromId' toId' amount' now') →
          first = second) ∧
    ∀ thread ∈ pool.threads, ∀ entry ∈ thread.log, ∀ refusal,
      entry.op = .respond (.refused refusal) → (∀ other ∈ thread.log, ¬ other.op.Transfers) ∧
        ∀ earlier submission later fromId nonces,
          thread.log = earlier ++ submission :: later →
            submission.op = .sendInitialize fromId nonces →
              InitializedOnce earlier later fromId := by
  refine ⟨?_, (reaches_coherent reached).accepted, fun unrepeated _ _ _ _ _ _ _ _ _ _ _ here there =>
    accepted_once reached unrepeated here there, fun thread member entry logged refusal refused =>
      ⟨refused_transfers reached member logged refused,
        fun _ _ _ _ _ split initializes => initialized_once reached member split initializes⟩⟩
  have every : ∀ place, TransferAt pool.world.events place → ∃ issue accept,
      Previewed pool.world.events place issue accept ∧ Consumed pool place accept ∧
        Untouched pool.world.events issue accept := fun _ => exists_previewed reached
  choose! issue accept previewed consumed untouched using every
  refine ⟨issue, accept, fun place transfer => ⟨previewed place transfer, ?_⟩⟩
  rintro other transfer' (same | same)
  · have here := previewed other transfer'
    have untouched' := untouched other transfer'
    rw [same] at here untouched'
    have accepts := one_acceptance here (previewed place transfer) untouched' (untouched place transfer)
    exact consumed_once reached (accepts ▸ consumed other transfer') (consumed place transfer)
  · exact consumed_once reached (same ▸ consumed other transfer') (consumed place transfer)

section Tests

/-- A server with a key whose account is not initialized yet. -/
def testCtx : Ctx where
  signer := some (Bytes.fill 32 9)
  base58 := {
    encode := fun _ => "11111111111111111111111111111111"
    -- ones are the zero bytes of base58
    decode := fun text =>
      if text.toList.all (· = '1') then .ok (List.replicate text.length 0)
      else .error "InvalidBase58Character" }
  authTransferId := List.Vector.replicate 8 7

/-- The sender, with a balance. -/
def testSender : Account := { Account.default with balance := 5 }

/-- The recipient, and the sender once it is initialized. -/
def testOwned : Account := { Account.default with programOwner := List.Vector.replicate 8 7 }

/-- What the generator returns. -/
def testRandom : Bytes32 := Bytes.fill 32 3

/-- A preview of five units for the zero account. -/
def testPreview : TransferParams := ⟨"11111111111111111111111111111111", "5", false, none⟩

/-- Its broadcast. -/
def testConfirm : TransferParams := { testPreview with
  confirm := true, previewToken := some (newPreviewToken testRandom) }

/-- The server once it has drawn the token. -/
def testDrawn : Server := ⟨Server.started.tokens, [.random testRandom]⟩

/-- The server once it has issued the token. -/
def testIssued : Server where
  tokens := (prunePreviewTokensAt testDrawn.tokens 0).insert (newPreviewToken testRandom)
    ⟨Bytes.fill 32 9, Bytes.zero 32, 5, PREVIEW_TTL⟩
  events := [.random testRandom,
    .issued (newPreviewToken testRandom) (Bytes.fill 32 9) (Bytes.zero 32) 5 0]

/-- The server once it has accepted the token. -/
def testAccepted : Server where
  tokens := (prunePreviewTokensAt testIssued.tokens 1).remove (newPreviewToken testRandom)
  events := [.random testRandom,
    .issued (newPreviewToken testRandom) (Bytes.fill 32 9) (Bytes.zero 32) 5 0,
    .accepted (newPreviewToken testRandom) (Bytes.fill 32 9) (Bytes.zero 32) 5 1]

/-- The preview of the test transfer. -/
def testPreviewLog : List (Entry interface Server) :=
  [.quiet .started (.getAccount (Bytes.fill 32 9)) (.ok testSender),
    .quiet .started (.getAccount (Bytes.zero 32)) (.ok testOwned),
    ⟨.getrandom, testRandom, .started, testDrawn⟩,
    ⟨.issue (newPreviewToken testRandom) (Bytes.fill 32 9) (Bytes.zero 32) 5, (0, 0), testDrawn,
      testIssued⟩]

theorem test_previews : ∃ rest, Advances environment (handle testCtx testPreview) .started
    testPreviewLog rest testIssued := by
  refine Advances.more .refl ⟨rfl, rfl⟩ ?_
  refine Advances.more .refl ⟨rfl, rfl⟩ ?_
  refine Advances.more .refl ⟨rfl, rfl⟩ ?_
  refine Advances.more .refl ⟨rfl, rfl⟩ ?_
  exact ⟨_, .none⟩

/-- The broadcast up to the reading of the balance under the lock: the sender has been
initialized. -/
def testInitializeLog : List (Entry interface Server) :=
  [.quiet testIssued (.getAccount (Bytes.fill 32 9)) (.ok testSender),
    .quiet testIssued (.getAccount (Bytes.zero 32)) (.ok testOwned),
    ⟨.consume (newPreviewToken testRandom) (Bytes.fill 32 9) (Bytes.zero 32) 5, (1, .Ok),
      testIssued, testAccepted⟩,
    .quiet testAccepted .ensureFreshWriteGate (.ok ()),
    .quiet testAccepted .lockSignedWrite (),
    .quiet testAccepted .ensureFreshWriteGate (.ok ()),
    .quiet testAccepted (.getAccount (Bytes.fill 32 9)) (.ok testSender),
    .quiet testAccepted (.getAccountsNonces (Bytes.fill 32 9)) (.ok [0]),
    .quiet testAccepted (.sendInitialize (Bytes.fill 32 9) [0]) (.ok "a1"),
    .quiet testAccepted (.confirmSubmittedTx "a1" (Bytes.fill 32 9) 0) (.ok (true, "tx_committed")),
    .quiet testAccepted (.getAccount (Bytes.fill 32 9)) (.ok testOwned),
    .quiet testAccepted .ensureFreshWriteGate (.ok ())]

theorem test_checks : checkToken (prunePreviewTokensAt testIssued.tokens 1 (newPreviewToken testRandom))
    (Bytes.fill 32 9) (Bytes.zero 32) 5 1 = .Ok := by
  apply checkToken_ok.mpr
  refine ⟨PREVIEW_TTL, ?_, by decide⟩
  have fresh : 1 < PREVIEW_TTL := by decide
  simp [prunePreviewTokensAt, testIssued, TokenStore.insert, fresh]

/-- The sender has been drained in the meantime. -/
def testRefusedLog : List (Entry interface Server) :=
  [.quiet testAccepted (.getAccountBalance (Bytes.fill 32 9)) (.ok 0),
    .quiet testAccepted (.respond (.refused (.drained (Bytes.fill 32 9) 0 5))) ()]

theorem test_refuses : ∃ rest, Advances environment (handle testCtx testConfirm) testIssued
    (testInitializeLog ++ testRefusedLog) rest testAccepted := by
  refine Advances.more .refl ⟨rfl, rfl⟩ ?_
  refine Advances.more .refl ⟨rfl, rfl⟩ ?_
  refine Advances.more .refl ⟨Prod.ext test_checks.symm rfl, rfl⟩ ?_
  iterate 10 refine Advances.more .refl ⟨rfl, rfl⟩ ?_
  exact Advances.more .refl ⟨rfl, rfl⟩ ⟨_, .none⟩

/-- The sender is initialized and has its balance. -/
def testFunded : Account := { testOwned with balance := 5 }

/-- The server once it has submitted the transfer. -/
def testTransferred : Server := { testAccepted with
  events := testAccepted.events ++ [.transfer (Bytes.fill 32 9) (Bytes.zero 32) 5] }

/-- The broadcast of an initialized sender. -/
def testBroadcastLog : List (Entry interface Server) :=
  [.quiet testIssued (.getAccount (Bytes.fill 32 9)) (.ok testFunded),
    .quiet testIssued (.getAccount (Bytes.zero 32)) (.ok testOwned),
    ⟨.consume (newPreviewToken testRandom) (Bytes.fill 32 9) (Bytes.zero 32) 5, (1, .Ok),
      testIssued, testAccepted⟩,
    .quiet testAccepted .ensureFreshWriteGate (.ok ()),
    .quiet testAccepted .lockSignedWrite (),
    .quiet testAccepted .ensureFreshWriteGate (.ok ()),
    .quiet testAccepted .ensureFreshWriteGate (.ok ()),
    .quiet testAccepted (.getAccountBalance (Bytes.fill 32 9)) (.ok 5),
    .quiet testAccepted (.getAccountsNonces (Bytes.fill 32 9)) (.ok [0]),
    .quiet testAccepted (.getAccountsNonces (Bytes.fill 32 9)) (.ok [0]),
    ⟨.sendTransfer (Bytes.fill 32 9) (Bytes.zero 32) [0] 5, .ok "b2", testAccepted, testTransferred⟩]

theorem test_broadcasts : ∃ rest, Advances environment (handle testCtx testConfirm) testIssued
    testBroadcastLog rest testTransferred := by
  refine Advances.more .refl ⟨rfl, rfl⟩ ?_
  refine Advances.more .refl ⟨rfl, rfl⟩ ?_
  refine Advances.more .refl ⟨Prod.ext test_checks.symm rfl, rfl⟩ ?_
  iterate 7 refine Advances.more .refl ⟨rfl, rfl⟩ ?_
  exact Advances.more .refl ⟨rfl, rfl⟩ ⟨_, .none⟩

/-- The server takes a call, which goes on as it may. -/
theorem test_call {world final : Server} {after : List (Thread interface Server ServerTask Unit)}
    {thread : Thread interface Server ServerTask Unit} {calls : Nat} {params : TransferParams}
    {log : List (Entry interface Server)}
    (reached : (gateway testCtx).Reaches .started ⟨world, thread :: after⟩)
    (serving : thread.rest = Mcp.serve (calls + 1))
    (advances : ∃ rest, Advances environment (handle testCtx params) world log rest final)
    (taken : ∀ entry ∈ log, entry.op ≠ .accept) :
    ∃ server others call, (gateway testCtx).Reaches .started ⟨final, server :: others ++ [call]⟩ ∧
      server.rest = Mcp.serve calls ∧ call.log = log := by
  obtain ⟨rest, advances⟩ := advances
  have childless : ∀ entry ∈ log, (gateway testCtx).spawns entry.op none := by
    intro entry member
    have other := taken entry member
    generalize entry.op = op at other
    cases op with
    | accept => exact (other rfl).elim
    | _ => rfl
  have accepted : (gateway testCtx).environment.perform .accept world () world :=
    ⟨rfl, (List.append_nil _).symm⟩
  have spawns : (gateway testCtx).spawns .accept (some (.call params)) := ⟨params, rfl⟩
  have spawned : (gateway testCtx).Step ⟨world, [] ++ thread :: after⟩ ⟨world,
      [] ++ thread.resumed ⟨.accept, (), world, world⟩ (Mcp.serve calls) :: after ++
        [.spawned (.call params) (thread.entries ++ [⟨.accept, (), world, world⟩])
          (handle testCtx params)]⟩ :=
    .perform serving accepted False.elim spawns
  have going := (show (gateway testCtx).Reaches _ _ from reached.tail spawned).advance advances
    childless (fun _ _ impossible => impossible.elim)
  exact ⟨_, _, _, going, rfl, rfl⟩

/-- A preview and then a broadcast, as far as it may go. -/
theorem test_reaches {log : List (Entry interface Server)} {final : Server}
    (advances : ∃ rest, Advances environment (handle testCtx testConfirm) testIssued log rest final)
    (taken : ∀ entry ∈ log, entry.op ≠ .accept) :
    ∃ pool, (gateway testCtx).Reaches .started pool ∧ pool.world = final ∧
      ∃ thread ∈ pool.threads, thread.log = log := by
  have opened : (gateway testCtx).Reaches .started
      ⟨.started, [.spawned (.serve 2) [] (Mcp.serve 2)]⟩ := .single (.restart rfl ⟨2, rfl⟩)
  obtain ⟨server, others, call, previewed, serving, -⟩ :=
    test_call opened rfl test_previews (by simp [testPreviewLog, Entry.quiet])
  obtain ⟨server, others, call, confirmed, -, same⟩ :=
    test_call previewed serving advances taken
  exact ⟨_, confirmed, rfl, call, by simp, same⟩

end Tests

/-- A refused broadcast may have initialized its sender. -/
theorem refused_after_initialize :
    ¬ ∀ (ctx : Ctx) (pool : Pool interface Server ServerTask Unit),
      (gateway ctx).Reaches .started pool → ∀ thread ∈ pool.threads, ∀ entry ∈ thread.log,
        ∀ refusal, entry.op = .respond (.refused refusal) → ∀ other ∈ thread.log,
          ¬ other.op.Transfers ∧ ∀ fromId nonces, other.op ≠ .sendInitialize fromId nonces := by
  intro submits
  obtain ⟨pool, reached, -, thread, member, same⟩ := test_reaches test_refuses
    (by simp [testInitializeLog, testRefusedLog, Entry.quiet])
  have nothing := submits testCtx pool reached thread member
    (.quiet testAccepted (.respond (.refused (.drained (Bytes.fill 32 9) 0 5))) ())
    (by simp [same, testRefusedLog]) _ rfl
    (.quiet testAccepted (.sendInitialize (Bytes.fill 32 9) [0]) (.ok "a1"))
    (by simp [same, testInitializeLog])
  exact nothing.2 _ _ rfl

/-- A preview and its broadcast. -/
theorem transfers_previewed_test : ∃ pool, (gateway testCtx).Reaches .started pool ∧
    TransferAt pool.world.events 3 ∧ ∃ issue accept, Previewed pool.world.events 3 issue accept := by
  obtain ⟨pool, reached, world, -⟩ := test_reaches test_broadcasts
    (by simp [testBroadcastLog, Entry.quiet])
  have submitted : TransferAt pool.world.events 3 := by
    rw [world]
    exact ⟨_, _, _, rfl⟩
  obtain ⟨⟨issue, accept, previewed⟩, -⟩ := transfers_previewed reached
  exact ⟨pool, reached, submitted, issue 3, accept 3, (previewed 3 submitted).1⟩

end AtomicSwaps.Mcp
