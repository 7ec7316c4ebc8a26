import AtomicSwaps.Cli.OpsLedger

/-!
# The operations ledger over a run

Calls of the ledger, appends that fail or are cut off at any point, and new processes.
Memory is what the file replays to as long as no append fails after its line is whole
and none starts on a line that broke off; then no record is lost, and none changes
once it is terminal.
-/

namespace AtomicSwaps.Cli

open Swap (FailureCode OpsCall)
open LineLog (Terminated)
open Trimming (strTrim)

/-- The events the ledger writes. -/
def LedgerEvent.Plain : LedgerEvent → Prop
  | .Accepted hashlock swapId release _ =>
      looksLikeHexId hashlock 32 = true ∧ looksLikeHexId swapId 32 = true ∧
        release = CARGO_PKG_VERSION
  | .Terminal hashlock _ _ => looksLikeHexId hashlock 32 = true

/-- What JSON promises of the events the ledger writes: they are objects on one line, read
back as they were written, and not read at all where they break off. -/
structure LedgerText.Lawful (text : LedgerText) : Prop where
  read : ∀ event : LedgerEvent, event.Plain → text.fromStr (text.toString event) = some event
  torn : ∀ event : LedgerEvent, event.Plain → ∀ line, line <+: text.toString event →
    line ≠ text.toString event → text.fromStr line = none
  head : ∀ event : LedgerEvent, event.Plain → (text.toString event).head? = some '\x7b'
  last : ∀ event : LedgerEvent, event.Plain → (text.toString event).getLast? = some '\x7d'
  single : ∀ event : LedgerEvent, event.Plain → '\n' ∉ text.toString event

/-- A call of the ledger, or a new process that loads it. -/
inductive OpsEvent where
  | call (call : OpsCall) (now : U64) (result : AppendResult)
  | load

/-- What becomes of the ledger. -/
def OpsEvent.apply (text : LedgerText) : OpsEvent → OpsLedger → OpsLedger
  | .call asked now result, ledger => ledger.call text asked now result
  | .load, ledger => ledger.load text

/-- An append starts on a line of its own and does not fail once its line is whole. -/
def OpsEvent.Sound (text : LedgerText) (ledger : OpsLedger) : OpsEvent → Prop
  | .call asked now result => ∀ event, ledger.eventOf now asked = some event →
      Terminated ledger.file ∧
        ∀ written, result = .failed written → written < (text.toString event).length
  | .load => True

namespace OpsLedger

/-- The ledger of a process that has just loaded its file. -/
def opened (text : LedgerText) (path : String) (file : List Char) : OpsLedger :=
  ⟨path, CARGO_PKG_VERSION, replay text file, file⟩

/-- The ledger after a run of calls and new processes. -/
def after (text : LedgerText) (ledger : OpsLedger) (events : List OpsEvent) : OpsLedger :=
  events.foldl (fun ledger event => event.apply text ledger) ledger

@[simp] theorem after_nil (text : LedgerText) (ledger : OpsLedger) : ledger.after text [] = ledger :=
  rfl

@[simp] theorem after_concat (text : LedgerText) (ledger : OpsLedger) (events : List OpsEvent)
    (event : OpsEvent) :
    ledger.after text (events ++ [event]) = event.apply text (ledger.after text events) := by
  simp [after]

/-- Memory is what the file replays to. -/
structure Coherent (text : LedgerText) (ledger : OpsLedger) : Prop where
  records : ledger.records = replay text ledger.file
  release : ledger.release = CARGO_PKG_VERSION

end OpsLedger

section Appends

variable {text : LedgerText} {ledger : OpsLedger} {event : LedgerEvent} {call : OpsCall}
  {now : U64} {result : AppendResult}

/-- Whatever a call appends is plain. -/
theorem eventOf_plain (release : ledger.release = CARGO_PKG_VERSION)
    (appended : ledger.eventOf now call = some event) : event.Plain := by
  have terminal : ∀ hashlock state, ledger.terminalEvent hashlock state now = some event →
      event.Plain := by
    intro hashlock state appended
    unfold OpsLedger.terminalEvent at appended
    split at appended
    · cases appended
    · rename_i shaped
      split at appended
      · split at appended
        · cases appended
          simpa [LedgerEvent.Plain] using shaped
        · cases appended
      · cases appended
  cases call with
  | accepted hashlock swapId =>
      simp only [OpsLedger.eventOf, OpsLedger.acceptedEvent] at appended
      split at appended
      · cases appended
      · rename_i shaped
        split at appended
        · cases appended
        · cases appended
          simpa [LedgerEvent.Plain, release] using shaped
  | completed hashlock => exact terminal _ _ appended
  | refunded hashlock => exact terminal _ _ appended
  | failed hashlock code => exact terminal _ _ appended

/-- A whole line that is appended to finished lines is applied. -/
theorem replay_line (lawful : text.Lawful) (plain : event.Plain) (terminated : Terminated ledger.file) :
    OpsLedger.replay text (ledger.file ++ (text.toString event ++ ['\n'])) =
      (OpsLedger.replay text ledger.file).apply event := by
  have trimmed : strTrim (text.toString event) = text.toString event :=
    Trimming.trim_of_ends (lawful.head event plain) (lawful.last event plain) rfl rfl
  have present : strTrim (text.toString event) ≠ [] := by
    have head := lawful.head event plain
    rintro empty
    rw [trimmed] at empty
    simp [empty] at head
  unfold OpsLedger.replay
  rw [LineLog.replay_append terminated, LineLog.replay_line_newline (lawful.single event plain),
    LineLog.readLine_some present (trimmed ▸ lawful.read event plain)]

/-- A line that breaks off changes nothing. -/
theorem replay_torn (lawful : text.Lawful) (plain : event.Plain) (terminated : Terminated ledger.file)
    {written : Nat} (short : written < (text.toString event).length) :
    OpsLedger.replay text (ledger.file ++ (text.toString event ++ ['\n']).take written) =
      OpsLedger.replay text ledger.file := by
  have kept : (text.toString event ++ ['\n']).take written = (text.toString event).take written :=
    List.take_append_of_le_length short.le
  have whole : '\n' ∉ (text.toString event).take written :=
    fun member => lawful.single event plain (List.mem_of_mem_take member)
  unfold OpsLedger.replay
  rw [kept, LineLog.replay_append terminated, LineLog.replay_line whole]
  apply LineLog.readLine_skip
  cases written with
  | zero => exact .inl (by simp [strTrim, Trimming.trim])
  | succ written =>
      -- what is left of the line is still the beginning of its object
      have head : ((text.toString event).take (written + 1)).head? = some '\x7b' := by
        rw [List.head?_take]
        simpa using lawful.head event plain
      have beginning : strTrim ((text.toString event).take (written + 1)) <+: _ :=
        Trimming.trim_prefix head rfl
      refine .inr (lawful.torn event plain _ (beginning.trans (List.take_prefix _ _)) ?_)
      intro same
      have bound := beginning.length_le
      rw [same, List.length_take] at bound
      omega

/-- A call keeps memory and file together. -/
theorem coherent_apply {step : OpsEvent} (lawful : text.Lawful) (coherent : ledger.Coherent text)
    (sound : step.Sound text ledger) : (step.apply text ledger).Coherent text := by
  cases step with
  | load => exact ⟨rfl, rfl⟩
  | call call now result =>
      simp only [OpsEvent.apply, OpsLedger.call]
      cases appended : ledger.eventOf now call with
      | none => exact coherent
      | some event =>
          obtain ⟨terminated, unfailed⟩ := sound event appended
          have plain := eventOf_plain coherent.release appended
          cases result with
          | ok =>
              refine ⟨?_, coherent.release⟩
              simp only [OpsLedger.record, OpsLedger.append, AppendResult.kept]
              rw [replay_line lawful plain terminated, coherent.records]
          | failed written =>
              refine ⟨?_, coherent.release⟩
              simp only [OpsLedger.record, OpsLedger.append, AppendResult.kept]
              rw [replay_torn lawful plain terminated (unfailed written rfl), coherent.records]
          | crashed written => exact ⟨rfl, rfl⟩

end Appends

section Records

/-- What a record may become: it is finalized once. -/
structure OpsRecord.Continues (record later : OpsRecord) : Prop where
  hashlock : later.hashlock = record.hashlock
  swapId : later.swapId = record.swapId
  release : later.release = record.release
  acceptedAt : later.acceptedAt = record.acceptedAt
  final : record.state ≠ .Accepted → later = record

/-- Every record is still there, or has been finalized. -/
def Records.Keeps (records later : Records) : Prop :=
  ∀ record ∈ records.entries, ∃ next ∈ later.entries, record.Continues next

variable {records middle later : Records} {text : LedgerText} {ledger : OpsLedger}

theorem OpsRecord.Continues.refl (record : OpsRecord) : record.Continues record :=
  ⟨rfl, rfl, rfl, rfl, fun _ => rfl⟩

theorem OpsRecord.Continues.trans {record next last : OpsRecord} (first : record.Continues next)
    (second : next.Continues last) : record.Continues last where
  hashlock := second.hashlock.trans first.hashlock
  swapId := second.swapId.trans first.swapId
  release := second.release.trans first.release
  acceptedAt := second.acceptedAt.trans first.acceptedAt
  final := by
    intro terminal
    obtain rfl := first.final terminal
    exact second.final terminal

theorem Records.Keeps.refl (records : Records) : records.Keeps records :=
  fun record member => ⟨record, member, .refl record⟩

theorem Records.Keeps.trans (first : records.Keeps middle) (second : middle.Keeps later) :
    records.Keeps later := by
  intro record member
  obtain ⟨next, there, continues⟩ := first record member
  obtain ⟨last, here, continues'⟩ := second next there
  exact ⟨last, here, continues.trans continues'⟩

/-- Finalizing a record continues it. -/
theorem Records.finalized_continues (hashlock : String) (state : RecordState) (ts : U64)
    (record : OpsRecord) : record.Continues (finalized hashlock state ts record) := by
  unfold finalized
  split
  · rename_i accepted
    exact ⟨rfl, rfl, rfl, rfl, fun terminal => absurd accepted.2 terminal⟩
  · exact .refl record

/-- An event keeps all records. -/
theorem Records.apply_keeps (records : Records) (event : LedgerEvent) :
    records.Keeps (records.apply event) := by
  intro record member
  cases event with
  | Accepted hashlock swapId release ts =>
      simp only [apply]
      split
      · exact ⟨record, List.mem_append_left _ member, .refl record⟩
      · exact ⟨record, member, .refl record⟩
  | Terminal hashlock state ts =>
      exact ⟨_, List.mem_map_of_mem member, finalized_continues hashlock state ts record⟩

/-- Reading on keeps all records. -/
theorem Records.replay_keeps (records : Records) (file : List Char) :
    records.Keeps (LineLog.replay text.fromStr Records.apply records file) := by
  unfold LineLog.replay
  generalize file.splitOn '\n' = lines
  induction lines generalizing records with
  | nil => exact .refl records
  | cons line rest ih =>
      refine Records.Keeps.trans ?_ (ih _)
      unfold LineLog.readLine
      split
      · exact .refl records
      · split
        · exact records.apply_keeps _
        · exact .refl records

/-- A call whose process survives it keeps all records. -/
theorem call_keeps {call : OpsCall} {now : U64} {result : AppendResult}
    (survives : ∀ written, result ≠ .crashed written) :
    ledger.records.Keeps (ledger.call text call now result).records := by
  unfold OpsLedger.call
  split
  · cases result with
    | ok => exact ledger.records.apply_keeps _
    | failed written => exact .refl ledger.records
    | crashed written => exact absurd rfl (survives written)
  · exact .refl ledger.records

/-- A sound step keeps all records. -/
theorem sound_keeps {step : OpsEvent} (coherent : ledger.Coherent text)
    (sound : step.Sound text ledger) : ledger.records.Keeps (step.apply text ledger).records := by
  cases step with
  | load =>
      have same : (OpsEvent.load.apply text ledger).records = ledger.records := coherent.records.symm
      rw [same]
      exact .refl ledger.records
  | call call now result =>
      by_cases crashed : ∃ written, result = .crashed written
      · obtain ⟨written, rfl⟩ := crashed
        simp only [OpsEvent.apply, OpsLedger.call]
        cases appended : ledger.eventOf now call with
        | none => exact .refl ledger.records
        | some event =>
            -- the next process reads what was there and then what the dead one left
            obtain ⟨terminated, -⟩ := sound event appended
            simp only [OpsLedger.record, OpsLedger.append, OpsLedger.load, OpsLedger.replay]
            rw [LineLog.replay_append terminated, coherent.records]
            exact Records.replay_keeps _ _
      · exact call_keeps fun written same => crashed ⟨written, same⟩

/-- Every record is counted once. -/
theorem report_total (ledger : OpsLedger) :
    ledger.report.completed + ledger.report.refunded + ledger.report.failed ≤
      ledger.report.acceptedTotal := by
  simp only [OpsLedger.report, OpsLedger.count]
  induction ledger.records.entries with
  | nil => simp
  | cons record rest ih =>
      simp only [List.countP_cons, List.length_cons]
      cases record.state with
      | Accepted => simp; omega
      | Completed => simp; omega
      | Refunded => simp; omega
      | Failed code => simp; omega

end Records

/-- In a run whose appends are sound, memory is at all times what the file replays to, no
record is lost and no terminal one changes, also across reloads. The report always
accounts for every record. -/
theorem ledger_replays {text : LedgerText} (lawful : text.Lawful) (path : String)
    (file : List Char) (events : List OpsEvent)
    (sound : ∀ earlier event, earlier ++ [event] <+: events →
      event.Sound text ((OpsLedger.opened text path file).after text earlier)) :
    (∀ reached, reached <+: events →
      ((OpsLedger.opened text path file).after text reached).records =
        OpsLedger.replay text ((OpsLedger.opened text path file).after text reached).file) ∧
    (∀ reached, reached <+: events → ∀ earlier, earlier <+: reached →
      ((OpsLedger.opened text path file).after text earlier).records.Keeps
        ((OpsLedger.opened text path file).after text reached).records) ∧
    ∀ ledger : OpsLedger, ledger.report.acceptedTotal = ledger.report.completed +
      ledger.report.refunded + ledger.report.failed + ledger.report.inFlight := by
  have coherent : ∀ reached, reached <+: events →
      ((OpsLedger.opened text path file).after text reached).Coherent text := by
    intro reached before
    induction reached using List.reverseRecOn with
    | nil => exact ⟨rfl, rfl⟩
    | append_singleton reached event ih =>
        rw [OpsLedger.after_concat]
        exact coherent_apply lawful (ih ((List.prefix_append ..).trans before)) (sound _ _ before)
  refine ⟨fun reached before => (coherent reached before).records, ?_, fun ledger => ?_⟩
  · intro reached before
    induction reached using List.reverseRecOn with
    | nil =>
        intro earlier started
        rw [List.prefix_nil.mp started]
        exact .refl _
    | append_singleton reached event ih =>
        intro earlier started
        have before' := (List.prefix_append reached [event]).trans before
        rcases List.prefix_concat_iff.mp started with rfl | started
        · exact .refl _
        · rw [OpsLedger.after_concat]
          exact (ih before' earlier started).trans
            (sound_keeps (coherent reached before') (sound _ _ before))
  · have total := report_total ledger
    have flight : ledger.report.inFlight = ledger.report.acceptedTotal -
        (ledger.report.completed + ledger.report.refunded + ledger.report.failed) := rfl
    omega

section CompactText

/-- The name of a failure code. -/
def codeName : FailureCode → String
  | .EthClaimUnresolved => "eth_claim_unresolved"
  | .LezRefundUnresolved => "lez_refund_unresolved"
  | .PartialLockWedge => "partial_lock_wedge"
  | .PreLockAbandoned => "pre_lock_abandoned"
  | .CorruptEntry => "corrupt_entry"
  | .Other => "other"

/-- What the text of a state puts between its quotes. -/
def stateFields : RecordState → List String
  | .Accepted => ["accepted"]
  | .Completed => ["completed"]
  | .Refunded => ["refunded"]
  | .Failed code => ["failed", ",", "code", ":", codeName code]

/-- The end of the text of an event. -/
def stamp (ts : U64) : String :=
  ":" ++ String.ofList (Nat.toDigits 10 ts.toNat) ++ "\x7d"

/-- What the text of an event puts between its quotes. -/
def eventFields : LedgerEvent → List String
  | .Accepted hashlock swapId release ts =>
      ["\x7b", "kind", ":", "accepted", ",", "hashlock", ":", hashlock, ",", "swap_id", ":", swapId,
        ",", "release", ":", release, ",", "ts", stamp ts]
  | .Terminal hashlock state ts =>
      ["\x7b", "kind", ":", "terminal", ",", "hashlock", ":", hashlock, ",", "state", ":\x7b",
        "outcome", ":"] ++ stateFields state ++ ["\x7d,", "ts", stamp ts]

/-- The text of an event without white space, as `serde_json` writes it. -/
def compact (event : LedgerEvent) : List Char :=
  ['"'].intercalate ((eventFields event).map String.toList)

/-- The state that is named so. -/
def stateNamed (outcome code : String) : Option RecordState :=
  if outcome = "accepted" then some .Accepted
  else if outcome = "completed" then some .Completed
  else if outcome = "refunded" then some .Refunded
  else if outcome = "failed" then (failureCodes.find? (codeName · = code)).map .Failed
  else none

/-- The number at the end of the text of an event. -/
def stamped (text : List Char) : U64 := BitVec.ofNat 64 (Nat.ofDigitChars 10 (text.drop 1).dropLast 0)

/-- The event that is written between these quotes. -/
def eventIn (fields : List (List Char)) : Option LedgerEvent :=
  let field index := String.ofList (fields.getD index [])
  let ts := stamped (fields.getLastD [])
  if field 3 = "accepted" then some (.Accepted (field 7) (field 11) (field 15) ts)
  else (stateNamed (field 13) (field 17)).map fun state => .Terminal (field 7) state ts

/-- The texts of events without white space. -/
def compactText : LedgerText where
  toString := compact
  fromStr line := (eventIn (line.splitOn '"')).filter fun event => compact event = line

/-- A character other than the separator stands in the pieces only. -/
theorem count_intercalate {char sep : Char} (apart : char ≠ sep) (fields : List (List Char)) :
    ([sep].intercalate fields).count char = (fields.map (List.count char)).sum := by
  induction fields with
  | nil => rfl
  | cons field rest ih =>
      cases rest with
      | nil => simp [List.intercalate]
      | cons next rest =>
          have step : [sep].intercalate (field :: next :: rest) =
              field ++ sep :: [sep].intercalate (next :: rest) := by simp [List.intercalate]
          rw [step, List.count_append, List.count_cons_of_ne (Ne.symm apart), ih]
          simp

/-- A text that looks like an id is made of hexadecimal digits and `x`. -/
theorem char_of_looksLikeHexId {id : String} {bytes : Nat}
    (shaped : looksLikeHexId id bytes = true) :
    ∀ char ∈ id.toList, (Hex.value? char).isSome = true ∨ char = 'x' := by
  have digits : ∀ char ∈ Hex.trimPrefix id.toList, (Hex.value? char).isSome = true := by
    simp only [looksLikeHexId, Bool.and_eq_true, List.all_eq_true] at shaped
    exact shaped.2
  generalize id.toList = text at digits
  induction text using Hex.trimPrefix.induct with
  | case1 rest ih =>
      rw [Hex.trimPrefix] at digits
      intro char member
      simp only [List.mem_cons] at member
      rcases member with rfl | rfl | member
      · exact .inl rfl
      · exact .inr rfl
      · exact ih digits char member
  | case2 text other =>
      rw [Hex.trimPrefix] at digits
      · exact fun char member => .inl (digits char member)
      · exact other

/-- A text that looks like an id holds nothing that JSON puts around it. -/
theorem not_mem_of_looksLikeHexId {id : String} {bytes : Nat} {char : Char}
    (shaped : looksLikeHexId id bytes = true)
    (foreign : Hex.value? char = none ∧ char ≠ 'x') : char ∉ id.toList := by
  intro member
  rcases char_of_looksLikeHexId shaped char member with digit | same
  · simp [foreign.1] at digit
  · exact foreign.2 same

/-- A number is written in digits. -/
theorem not_mem_stamp {ts : U64} {char : Char} (foreign : char.isDigit = false)
    (other : char ≠ ':' ∧ char ≠ '\x7d') : char ∉ (stamp ts).toList := by
  intro member
  simp only [stamp, String.toList_append, String.toList_ofList, List.mem_append] at member
  rcases member with (colon | digit) | brace
  · exact other.1 (by simpa using colon)
  · simp [Nat.isDigit_of_mem_toDigits (by decide) (by decide) digit] at foreign
  · exact other.2 (by simpa using brace)

/-- A number closes one brace. -/
theorem count_stamp (ts : U64) : (stamp ts).toList.count '\x7d' = 1 := by
  have digits : '\x7d' ∉ Nat.toDigits 10 ts.toNat := fun member => by
    simpa using Nat.isDigit_of_mem_toDigits (by decide) (by decide) member
  simp [stamp, List.count_eq_zero_of_not_mem digits]

/-- The name of a code is a word. -/
theorem not_mem_codeName (code : FailureCode) {char : Char}
    (foreign : char = '"' ∨ char = '\n' ∨ char = '\x7d') : char ∉ (codeName code).toList := by
  rcases foreign with rfl | rfl | rfl <;> cases code <;> decide

/-- The text of an event closes a brace at its end, and one after its state. -/
theorem count_compact_ge (event : LedgerEvent) : 1 ≤ (compact event).count '\x7d' := by
  rw [compact, count_intercalate (by decide)]
  cases event with
  | Accepted hashlock swapId release ts =>
      simp [eventFields, count_stamp]
      omega
  | Terminal hashlock state ts =>
      simp [eventFields, count_stamp]
      omega

theorem count_compact_terminal (hashlock : String) (state : RecordState) (ts : U64) :
    2 ≤ (compact (.Terminal hashlock state ts)).count '\x7d' := by
  rw [compact, count_intercalate (by decide)]
  simp [eventFields, count_stamp]
  omega

theorem count_compact_plain {event : LedgerEvent} (plain : event.Plain) :
    (compact event).count '\x7d' = match event with | .Accepted .. => 1 | .Terminal .. => 2 := by
  have brace : Hex.value? '\x7d' = none ∧ '\x7d' ≠ 'x' := by decide
  rw [compact, count_intercalate (by decide)]
  cases event with
  | Accepted hashlock swapId release ts =>
      obtain ⟨hash, id, rfl⟩ := plain
      have first := List.count_eq_zero_of_not_mem (not_mem_of_looksLikeHexId hash brace)
      have second := List.count_eq_zero_of_not_mem (not_mem_of_looksLikeHexId id brace)
      simp [eventFields, count_stamp, first, second, CARGO_PKG_VERSION]
  | Terminal hashlock state ts =>
      have first := List.count_eq_zero_of_not_mem (not_mem_of_looksLikeHexId plain brace)
      cases state with
      | Failed code =>
          have word := List.count_eq_zero_of_not_mem (not_mem_codeName code (.inr (.inr rfl)))
          simp [eventFields, stateFields, count_stamp, first, word]
      | Accepted => simp [eventFields, stateFields, count_stamp, first]
      | Completed => simp [eventFields, stateFields, count_stamp, first]
      | Refunded => simp [eventFields, stateFields, count_stamp, first]

/-- Nothing between the quotes is a quote or a newline. -/
theorem fields_free {event : LedgerEvent} (plain : event.Plain) {char : Char}
    (foreign : char = '"' ∨ char = '\n') : ∀ field ∈ eventFields event, char ∉ field.toList := by
  have hex : Hex.value? char = none ∧ char ≠ 'x' := by rcases foreign with rfl | rfl <;> decide
  have dated : ∀ ts, char ∉ (stamp ts).toList := fun ts =>
    not_mem_stamp (by rcases foreign with rfl | rfl <;> decide)
      (by rcases foreign with rfl | rfl <;> decide)
  cases event with
  | Accepted hashlock swapId release ts =>
      obtain ⟨hash, id, rfl⟩ := plain
      have first := not_mem_of_looksLikeHexId hash hex
      have second := not_mem_of_looksLikeHexId id hex
      rcases foreign with rfl | rfl <;>
        simp [eventFields, dated, first, second, CARGO_PKG_VERSION]
  | Terminal hashlock state ts =>
      have first := not_mem_of_looksLikeHexId plain hex
      cases state with
      | Failed code =>
          have word : char ∉ (codeName code).toList :=
            not_mem_codeName code (foreign.imp_right .inl)
          rcases foreign with rfl | rfl <;> simp [eventFields, stateFields, dated, first, word]
      | Accepted | Completed | Refunded =>
          rcases foreign with rfl | rfl <;> simp [eventFields, stateFields, dated, first]

/-- The fields of the text of a plain event. -/
theorem splitOn_compact {event : LedgerEvent} (plain : event.Plain) :
    (compact event).splitOn '"' = (eventFields event).map String.toList := by
  apply List.splitOn_intercalate
  · intro field member
    obtain ⟨text, there, rfl⟩ := List.mem_map.mp member
    exact fields_free plain (.inl rfl) text there
  · cases event <;> simp [eventFields]

/-- The number that was written is read. -/
theorem stamped_stamp (ts : U64) : stamped (stamp ts).toList = ts := by
  simp [stamped, stamp, Nat.ofDigitChars_ten_toDigits]

theorem stateNamed_failed (code : FailureCode) :
    stateNamed "failed" (codeName code) = some (.Failed code) := by
  cases code <;> decide

/-- A plain event is read back from its fields. -/
theorem eventIn_fields (event : LedgerEvent) :
    eventIn ((eventFields event).map String.toList) = some event := by
  cases event with
  | Accepted hashlock swapId release ts => simp [eventIn, eventFields, stamped_stamp]
  | Terminal hashlock state ts =>
      cases state with
      | Failed code =>
          simp [eventIn, eventFields, stateFields, stamped_stamp, stateNamed_failed]
      | Accepted => simp [eventIn, eventFields, stateFields, stamped_stamp, stateNamed]
      | Completed => simp [eventIn, eventFields, stateFields, stamped_stamp, stateNamed]
      | Refunded => simp [eventIn, eventFields, stateFields, stamped_stamp, stateNamed]

/-- The text ends with its last piece. -/
theorem getLast?_intercalate {sep : Char} {last : List Char} (present : last ≠ [])
    (fields : List (List Char)) :
    ([sep].intercalate (fields ++ [last])).getLast? = last.getLast? := by
  induction fields with
  | nil => simp [List.intercalate]
  | cons field rest ih =>
      obtain ⟨next, later, same⟩ := List.exists_cons_of_ne_nil (List.concat_ne_nil last rest)
      have step : [sep].intercalate (field :: (rest ++ [last])) =
          field ++ sep :: [sep].intercalate (rest ++ [last]) := by
        rw [same]
        simp [List.intercalate]
      have behind : [sep].intercalate (rest ++ [last]) ≠ [] := by
        intro empty
        rw [empty] at ih
        exact present (List.getLast?_eq_none_iff.mp ih.symm)
      rw [List.cons_append, step, List.getLast?_append_of_ne_nil _ (by simp),
        List.getLast?_cons_of_ne_nil behind, ih]

/-- The text of an event ends with a brace. -/
theorem compact_last (event : LedgerEvent) : (compact event).getLast? = some '\x7d' := by
  have dated : ∃ front ts, eventFields event = front ++ [stamp ts] := by
    cases event with
    | Accepted hashlock swapId release ts =>
        exact ⟨(eventFields (.Accepted hashlock swapId release ts)).dropLast, ts, rfl⟩
    | Terminal hashlock state ts =>
        refine ⟨(eventFields (.Terminal hashlock state ts)).dropLast, ts, ?_⟩
        cases state <;> rfl
  obtain ⟨front, ts, same⟩ := dated
  rw [compact, same, List.map_append, List.map_singleton, getLast?_intercalate (by simp [stamp])]
  simp only [stamp, String.toList_append]
  exact List.getLast?_concat

/-- The texts without white space are lawful. -/
theorem compactText_lawful : compactText.Lawful where
  read event plain := by
    simp [compactText, splitOn_compact plain, eventIn_fields]
  torn event plain line beginning other := by
    simp only [compactText, Option.filter_eq_none_iff, decide_eq_true_eq]
    rintro read - same
    obtain ⟨more, whole⟩ := beginning
    -- what is missing closes a brace, so the line closes one less than the whole text
    have closes : 1 ≤ more.count '\x7d' := by
      have final := compact_last event
      have present : more ≠ [] := by
        rintro rfl
        exact other (by simpa using whole)
      rw [show compact event = line ++ more from whole.symm,
        List.getLast?_append_of_ne_nil _ present] at final
      exact List.one_le_count_iff.mpr (List.mem_of_getLast? final)
    have total := count_compact_plain plain
    have parts : line.count '\x7d' + more.count '\x7d' = (compact event).count '\x7d' := by
      rw [← List.count_append, whole]
      rfl
    rw [total, ← same] at parts
    have least := count_compact_ge read
    cases event with
    | Accepted hashlock swapId release ts =>
        simp only at parts
        omega
    | Terminal hashlock state ts =>
        simp only at parts
        cases read with
        | Terminal hashlock' state' ts' =>
            have more := count_compact_terminal hashlock' state' ts'
            omega
        | Accepted hashlock' swapId' release' ts' =>
            have kinds : (line ++ more)[9]? = some 'a' := by
              rw [← same]
              rfl
            rw [whole] at kinds
            cases kinds
  head event _ := by cases event <;> rfl
  last event _ := compact_last event
  single event plain := by
    have total : (compact event).count '\n' = 0 := by
      rw [compact, count_intercalate (by decide), List.sum_eq_zero_iff_forall_eq_nat]
      intro pieces member
      obtain ⟨field, there, rfl⟩ := List.mem_map.mp member
      obtain ⟨text, inside, rfl⟩ := List.mem_map.mp there
      exact List.count_eq_zero_of_not_mem (fields_free plain (.inr rfl) text inside)
    exact List.count_eq_zero.mp total

end CompactText

/-- The hashlock of the test swap, and its swap id. -/
def testKey : String := String.ofList (List.replicate 64 '0')

theorem test_shaped : looksLikeHexId testKey 32 = true := by
  have digits : testKey.toList = List.replicate 64 '0' := String.toList_ofList
  simp only [looksLikeHexId, digits]
  rfl

/-- The events of the test swap. -/
def testAccepted : LedgerEvent := .Accepted testKey testKey CARGO_PKG_VERSION 1

def testCompleted : LedgerEvent := .Terminal testKey .Completed 2

/-- The file once the test swap is accepted. -/
def testFile : List Char := compact testAccepted ++ ['\n']

theorem test_terminated : Terminated testFile := .inr ⟨_, rfl⟩

/-- The ledger once the test swap is accepted. -/
def testLedger : OpsLedger := ⟨"maker-ops.jsonl", CARGO_PKG_VERSION, Records.empty.apply testAccepted, testFile⟩

/-- The test swap is accepted. -/
def testAccept : OpsEvent := .call (.accepted testKey testKey) 1 .ok

theorem test_accepts : (OpsLedger.opened compactText "maker-ops.jsonl" []).eventOf 1
    (.accepted testKey testKey) = some testAccepted := by
  simp [OpsLedger.eventOf, OpsLedger.acceptedEvent, test_shaped, OpsLedger.opened,
    OpsLedger.replay, Records.empty, Records.get, testAccepted]

theorem test_after_accept : (OpsLedger.opened compactText "maker-ops.jsonl" []).after compactText
    [testAccept] = testLedger := by
  have step : (OpsLedger.opened compactText "maker-ops.jsonl" []).after compactText [testAccept] =
      (OpsLedger.opened compactText "maker-ops.jsonl" []).call compactText
        (.accepted testKey testKey) 1 .ok := rfl
  rw [step, OpsLedger.call, test_accepts]
  simp [OpsLedger.record, OpsLedger.append, AppendResult.kept, OpsLedger.opened, OpsLedger.replay,
    testLedger, testFile, compactText]

theorem test_completes : testLedger.eventOf 2 (.completed testKey) = some testCompleted := by
  simp [OpsLedger.eventOf, OpsLedger.terminalEvent, test_shaped, testLedger, Records.get,
    Records.apply, Records.empty, testAccepted, Records.accepted, testCompleted]

theorem test_accepted_plain : testAccepted.Plain := ⟨test_shaped, test_shaped, rfl⟩

theorem test_completed_plain : testCompleted.Plain := test_shaped

theorem test_replay : OpsLedger.replay compactText testFile = Records.empty.apply testAccepted := by
  have read := @replay_line compactText (OpsLedger.opened compactText "maker-ops.jsonl" [])
    testAccepted compactText_lawful test_accepted_plain (.inl rfl)
  simpa [OpsLedger.opened, OpsLedger.replay, testFile, compactText] using read

/-- An append that fails once its line is whole leaves an event on disk that memory does
not have. -/
theorem test_unsynced : ((OpsLedger.opened compactText "maker-ops.jsonl" []).after compactText
      ([testAccept] ++
        [.call (.completed testKey) 2 (.failed ((compact testCompleted).length + 1))])).records ≠
    OpsLedger.replay compactText ((OpsLedger.opened compactText "maker-ops.jsonl" []).after
      compactText ([testAccept] ++
        [.call (.completed testKey) 2 (.failed ((compact testCompleted).length + 1))])).file := by
  intro same
  rw [OpsLedger.after_concat, test_after_accept] at same
  simp only [OpsEvent.apply, OpsLedger.call, test_completes, OpsLedger.record, OpsLedger.append,
    AppendResult.kept] at same
  have whole : (compactText.toString testCompleted ++ ['\n']).take
      ((compact testCompleted).length + 1) = compactText.toString testCompleted ++ ['\n'] :=
    List.take_of_length_le (by simp [compactText])
  have file : OpsLedger.replay compactText testLedger.file = Records.empty.apply testAccepted :=
    test_replay
  rw [whole, replay_line compactText_lawful test_completed_plain test_terminated, file] at same
  have states := congrArg (fun records => records.entries.map (·.state)) same
  simp [testLedger, Records.apply, Records.empty, testAccepted, testCompleted, Records.accepted,
    Records.finalized] at states

/-- An acceptance of the test swap that breaks off. -/
def testTorn : OpsEvent := .call (.accepted testKey testKey) 1 (.failed 10)

/-- The line that is written after it. -/
theorem test_swallowed : OpsLedger.replay compactText
    ((compact testAccepted).take 10 ++ (compact testAccepted ++ ['\n'])) = Records.empty := by
  have whole : '\n' ∉ (compact testAccepted).take 10 ++ compact testAccepted := by
    have single := compactText_lawful.single testAccepted test_accepted_plain
    rw [List.mem_append, not_or]
    exact ⟨fun member => single (List.mem_of_mem_take member), single⟩
  have last : ((compact testAccepted).take 10 ++ compact testAccepted).getLast? = some '\x7d' := by
    rw [List.getLast?_append_of_ne_nil _ (List.ne_nil_of_mem (List.mem_of_getLast? (compact_last _)))]
    exact compact_last _
  rw [OpsLedger.replay, ← List.append_assoc, LineLog.replay_line_newline whole]
  apply LineLog.readLine_skip
  rw [strTrim, Trimming.trim_of_ends rfl last rfl rfl]
  exact .inr rfl

/-- The ledger once that acceptance broke off. -/
def testTornLedger : OpsLedger :=
  ⟨"maker-ops.jsonl", CARGO_PKG_VERSION, Records.empty, (compact testAccepted).take 10⟩

theorem test_after_torn : (OpsLedger.opened compactText "maker-ops.jsonl" []).after compactText
    [testTorn] = testTornLedger := by
  have step : (OpsLedger.opened compactText "maker-ops.jsonl" []).after compactText [testTorn] =
      (OpsLedger.opened compactText "maker-ops.jsonl" []).call compactText
        (.accepted testKey testKey) 1 (.failed 10) := rfl
  have long : 10 ≤ (compact testAccepted).length := by
    have tenth : (compact testAccepted)[9]? = some 'a' := rfl
    obtain ⟨bound, -⟩ := List.getElem?_eq_some_iff.mp tenth
    omega
  rw [step, OpsLedger.call, test_accepts]
  simp [OpsLedger.record, OpsLedger.append, AppendResult.kept, OpsLedger.opened, OpsLedger.replay,
    testTornLedger, compactText, List.take_append_of_le_length long]

theorem test_accepts_again : testTornLedger.eventOf 1 (.accepted testKey testKey) =
    some testAccepted := by
  simp [OpsLedger.eventOf, OpsLedger.acceptedEvent, test_shaped, testTornLedger, Records.empty,
    Records.get, testAccepted]

/-- After an append that broke off, the next line is lost although it was acknowledged. -/
theorem test_lost : ¬ ((OpsLedger.opened compactText "maker-ops.jsonl" []).after compactText
      ([testTorn] ++ [testAccept])).records.Keeps
    ((OpsLedger.opened compactText "maker-ops.jsonl" []).after compactText
      ([testTorn] ++ [testAccept] ++ [.load])).records := by
  have acknowledged : (OpsLedger.opened compactText "maker-ops.jsonl" []).after compactText
      ([testTorn] ++ [testAccept]) =
        { testTornLedger with
          records := Records.empty.apply testAccepted
          file := (compact testAccepted).take 10 ++ (compact testAccepted ++ ['\n']) } := by
    rw [OpsLedger.after_concat, test_after_torn, testAccept, OpsEvent.apply, OpsLedger.call,
      test_accepts_again]
    rfl
  intro kept
  rw [acknowledged, OpsLedger.after_concat, acknowledged] at kept
  simp only [OpsEvent.apply, OpsLedger.load, test_swallowed] at kept
  obtain ⟨next, impossible, -⟩ := kept (Records.accepted testKey testKey CARGO_PKG_VERSION 1)
    (by simp [Records.apply, Records.empty, testAccepted])
  cases impossible

/-- Memory may have less than the file, and the file less than memory. -/
theorem ledger_diverges :
    (¬ ∀ (text : LedgerText) (path : String) (file : List Char) (events : List OpsEvent),
      text.Lawful → ((OpsLedger.opened text path file).after text events).records =
        OpsLedger.replay text ((OpsLedger.opened text path file).after text events).file) ∧
    ¬ ∀ (text : LedgerText) (path : String) (file : List Char) (events later : List OpsEvent),
      text.Lawful → ((OpsLedger.opened text path file).after text events).records.Keeps
        ((OpsLedger.opened text path file).after text (events ++ later)).records :=
  ⟨fun coherent => test_unsynced (coherent _ _ _ _ compactText_lawful),
    fun kept => test_lost (kept _ _ _ _ _ compactText_lawful)⟩

/-- The test swap is accepted and completed, and survives a new process. -/
theorem ledger_replays_test : (testLedger.records).Keeps
    ((OpsLedger.opened compactText "maker-ops.jsonl" []).after compactText
      [testAccept, .call (.completed testKey) 2 .ok, .load]).records := by
  have kept := (ledger_replays compactText_lawful "maker-ops.jsonl" []
    [testAccept, .call (.completed testKey) 2 .ok, .load] ?_).2.1 _ (List.prefix_refl _)
    [testAccept] ⟨_, rfl⟩
  · rwa [test_after_accept] at kept
  intro earlier event reached
  match earlier, reached with
  | [], reached =>
      obtain ⟨rfl, -⟩ := List.cons_prefix_cons.mp reached
      exact fun _ _ => ⟨.inl rfl, fun _ impossible => by cases impossible⟩
  | [_], reached =>
      obtain ⟨rfl, second⟩ := List.cons_prefix_cons.mp reached
      obtain ⟨rfl, -⟩ := List.cons_prefix_cons.mp second
      rw [test_after_accept]
      exact fun _ _ => ⟨test_terminated, fun _ impossible => by cases impossible⟩
  | [_, _], reached =>
      obtain ⟨rfl, second⟩ := List.cons_prefix_cons.mp reached
      obtain ⟨rfl, third⟩ := List.cons_prefix_cons.mp second
      obtain ⟨rfl, -⟩ := List.cons_prefix_cons.mp third
      trivial
  | _ :: _ :: _ :: _, reached => exact absurd reached.length_le (by simp)

end AtomicSwaps.Cli
