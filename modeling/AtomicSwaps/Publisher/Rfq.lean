import AtomicSwaps.Ui.Number

/-!
# Requests for an offer

The responder of the offer publisher: `rfq.mjs`, and what `publish-offer.mjs` makes of it. Requests
come from anyone, so that a gate lets one through in a cooldown, which is read from the
environment. Times are what `Date.now()` gives, whole milliseconds whose differences are exact.
How bytes are decoded and JSON is parsed is left to the runtime.
-/

namespace AtomicSwaps.Publisher

open Ui (jsNumber jsNumber_valid)

/-- The payload of a message: a text, something with a length, or anything else. -/
inductive Payload where
  | text (text : String)
  | bytes (bytes : List UInt8)
  | other

/-- A field of a parsed object. -/
inductive Field where
  | string (text : String)
  | number (value : Double)
  | other
deriving DecidableEq

/-- What `JSON.parse` returns. -/
inductive Parsed where
  | object (fields : String → Option Field)
  | array
  | primitive

/-- `TextDecoder.decode` and `JSON.parse`, nothing where they throw. -/
structure Runtime where
  decode : List UInt8 → Option String
  parse : String → Option Parsed

/-- `parseOfferRequest`. -/
def parseOfferRequest (runtime : Runtime) (payload : Payload) : Option (String → Option Field) :=
  let text := match payload with
    | .text text => some text
    | .bytes bytes => runtime.decode bytes
    | .other => none
  match text.bind runtime.parse with
  | some (.object fields) =>
      if fields "kind" ≠ some (.string "offer_request") then none
      else if fields "v" ≠ some (.number (.finite 1)) then none
      else some fields
  | _ => none

/-- `createResponderGate`: there is no last response at first, which stands for minus infinity. -/
structure ResponderGate where
  cooldownMs : Double
  lastResponseMs : Option Nat

/-- `nowMs - lastResponseMs`. -/
def elapsed (lastResponseMs : Option Nat) (nowMs : Nat) : Double :=
  match lastResponseMs with
  | none => .infinite false
  | some last => .finite ((nowMs : Int) - last : Int)

/-- `tryAcquire`. -/
def ResponderGate.tryAcquire (gate : ResponderGate) (nowMs : Nat) : Bool × ResponderGate :=
  if (elapsed gate.lastResponseMs nowMs).lt gate.cooldownMs then (false, gate)
  else (true, { gate with lastResponseMs := some nowMs })

/-- A request that arrives. -/
structure Request where
  payload : Payload
  nowMs : Nat

/-- `onRequest`: whether the offer is published. -/
def onRequest (runtime : Runtime) (gate : ResponderGate) (request : Request) :
    Bool × ResponderGate :=
  match parseOfferRequest runtime request.payload with
  | none => (false, gate)
  | some _ => gate.tryAcquire request.nowMs

/-- `responseCooldownSecs`. -/
def responseCooldownSecs (env : Option String) : Double :=
  jsNumber (match env with
    | none | some "" => "8"
    | some text => text)

/-- The cooldown of the gate. -/
def cooldownMs (env : Option String) : Double := (responseCooldownSecs env).mul (.finite 1000)

/-- The gate of `startRfqResponder`. -/
def startGate (env : Option String) : ResponderGate := ⟨cooldownMs env, none⟩

section Requests

variable (runtime : Runtime)

/-- The gate after some requests. -/
def gateAfter (gate : ResponderGate) : List Request → ResponderGate
  | [] => gate
  | request :: rest => gateAfter (onRequest runtime gate request).2 rest

/-- The requests that are answered. -/
def answered (gate : ResponderGate) : List Request → List Request
  | [] => []
  | request :: rest =>
      let (published, next) := onRequest runtime gate request
      if published then request :: answered next rest else answered next rest

/-- The requests that are answered from the start. -/
def responses (env : Option String) (requests : List Request) : List Request :=
  answered runtime (startGate env) requests

/-- `parseOfferRequest` takes the request. -/
def Request.valid (request : Request) : Bool :=
  (parseOfferRequest runtime request.payload).isSome

/-- What the responder owes those it answers: its responses are a positive cooldown apart, a
valid request in a cold window is answered, and a request that is refused changes nothing. -/
structure Coalesced (env : Option String) (requests : List Request) : Prop where
  spaced : (responses runtime env requests).Pairwise fun earlier later =>
    (cooldownMs env).positive = true ∧
      (cooldownMs env).le (elapsed (some earlier.nowMs) later.nowMs) = true
  first : ∀ before request after, requests = before ++ request :: after →
    request.valid runtime = true →
    (∀ answer ∈ responses runtime env before,
      (elapsed (some answer.nowMs) request.nowMs).lt (cooldownMs env) = false) →
    responses runtime env (before ++ [request]) = responses runtime env before ++ [request]
  silent : ∀ before request after, requests = before ++ request :: after →
    request.valid runtime = false →
    responses runtime env (before ++ [request]) = responses runtime env before ∧
      responses runtime env requests = responses runtime env (before ++ after)

variable {runtime : Runtime} {gate : ResponderGate} {request : Request}

/-! ## One request -/

theorem onRequest_refused (refused : request.valid runtime = false) :
    onRequest runtime gate request = (false, gate) := by
  unfold Request.valid at refused
  unfold onRequest
  cases parsed : parseOfferRequest runtime request.payload with
  | none => rfl
  | some fields => simp [parsed] at refused

theorem onRequest_valid (valid : request.valid runtime = true) :
    onRequest runtime gate request = gate.tryAcquire request.nowMs := by
  unfold Request.valid at valid
  unfold onRequest
  cases parsed : parseOfferRequest runtime request.payload with
  | none => simp [parsed] at valid
  | some fields => rfl

/-- What one request does: it is answered and arms the gate, or it leaves everything as it was;
and a valid one is answered unless it comes within the cooldown. -/
theorem onRequest_cases (runtime : Runtime) (gate : ResponderGate) (request : Request) :
    (request.valid runtime = true ∧
      (elapsed gate.lastResponseMs request.nowMs).lt gate.cooldownMs = false ∧
      onRequest runtime gate request =
        (true, { gate with lastResponseMs := some request.nowMs })) ∨
    (onRequest runtime gate request = (false, gate) ∧
      (request.valid runtime = true →
        (elapsed gate.lastResponseMs request.nowMs).lt gate.cooldownMs = true)) := by
  cases valid : request.valid runtime with
  | false => exact .inr ⟨onRequest_refused valid, fun taken => by cases taken⟩
  | true =>
      rw [onRequest_valid valid, ResponderGate.tryAcquire]
      cases early : (elapsed gate.lastResponseMs request.nowMs).lt gate.cooldownMs with
      | false => exact .inl ⟨rfl, rfl, rfl⟩
      | true => exact .inr ⟨rfl, fun _ => rfl⟩

/-! ## Runs -/

theorem answered_append (gate : ResponderGate) (before after : List Request) :
    answered runtime gate (before ++ after) =
      answered runtime gate before ++ answered runtime (gateAfter runtime gate before) after := by
  induction before generalizing gate with
  | nil => rfl
  | cons request before ih =>
      simp only [List.cons_append, answered, gateAfter, ih]
      split <;> rfl

theorem answered_sublist (gate : ResponderGate) (requests : List Request) :
    (answered runtime gate requests).Sublist (requests.filter (·.valid runtime)) := by
  induction requests generalizing gate with
  | nil => exact .slnil
  | cons request requests ih =>
      rcases onRequest_cases runtime gate request with ⟨valid, -, step⟩ | ⟨step, -⟩
      · simp only [answered, step, if_true, List.filter_cons, valid]
        exact (ih _).cons_cons request
      · simp only [answered, step, Bool.false_eq_true, if_false, List.filter_cons]
        split
        · exact (ih gate).cons request
        · exact ih gate

/-- The gate remembers the last response. -/
theorem gateAfter_last (requests : List Request) :
    (gateAfter runtime gate requests).cooldownMs = gate.cooldownMs ∧
      ((gateAfter runtime gate requests).lastResponseMs = gate.lastResponseMs ∨
        ∃ answer ∈ answered runtime gate requests,
          (gateAfter runtime gate requests).lastResponseMs = some answer.nowMs) := by
  induction requests generalizing gate with
  | nil => exact ⟨rfl, .inl rfl⟩
  | cons request requests ih =>
      rcases onRequest_cases runtime gate request with ⟨-, -, step⟩ | ⟨step, -⟩
      · obtain ⟨same, last⟩ := @ih { gate with lastResponseMs := some request.nowMs }
        simp only [gateAfter, answered, step, if_true]
        refine ⟨same, .inr ?_⟩
        rcases last with last | ⟨answer, here, last⟩
        · exact ⟨request, List.mem_cons_self, last⟩
        · exact ⟨answer, List.mem_cons_of_mem _ here, last⟩
      · simp only [gateAfter, answered, step, Bool.false_eq_true, if_false]
        exact ih

/-! ## The cooldown -/

/-- Cooldowns add up. -/
theorem elapsed_le_trans {cooldown : Double} (above : cooldown.positive = true)
    {first second third : Nat} (near : cooldown.le (elapsed (some first) second) = true)
    (far : cooldown.le (elapsed (some second) third) = true) :
    cooldown.le (elapsed (some first) third) = true := by
  cases cooldown with
  | nan => cases above
  | infinite negative => cases negative <;> simp_all [Double.positive, Double.le, Double.lt, elapsed]
  | finite value =>
      simp only [Double.positive, Double.lt, Double.le, elapsed, decide_eq_true_eq,
        Bool.not_eq_true', decide_eq_false_iff_not, not_lt] at above near far ⊢
      push_cast at near far ⊢
      linarith

/-- No time is negative, so nothing is early for a cooldown that is not above zero. -/
theorem elapsed_not_lt {cooldown : Double} (not : cooldown.positive = false)
    {last : Option Nat} {nowMs : Nat} (order : ∀ time, last = some time → time ≤ nowMs) :
    (elapsed last nowMs).lt cooldown = false := by
  cases last with
  | none => cases cooldown <;> rfl
  | some time =>
      have later := order time rfl
      cases cooldown with
      | nan => rfl
      | infinite negative => cases negative <;> simp_all [Double.positive, Double.lt, elapsed]
      | finite value =>
          simp only [Double.positive, Double.lt, elapsed, decide_eq_false_iff_not, not_lt] at not ⊢
          have difference : (0 : ℚ) ≤ ((nowMs : Int) - time : Int) := by
            exact_mod_cast (by omega : (0 : Int) ≤ (nowMs : Int) - time)
          linarith

/-- Behind a response all others are a cooldown away, and from each other. -/
theorem answered_spaced (above : gate.cooldownMs.positive = true) {requests : List Request} :
    (∀ last, gate.lastResponseMs = some last → ∀ answer ∈ answered runtime gate requests,
      gate.cooldownMs.le (elapsed (some last) answer.nowMs) = true) ∧
    (answered runtime gate requests).Pairwise fun earlier later =>
      gate.cooldownMs.le (elapsed (some earlier.nowMs) later.nowMs) = true := by
  induction requests generalizing gate with
  | nil => simp [answered]
  | cons request requests ih =>
      rcases onRequest_cases runtime gate request with ⟨-, late, step⟩ | ⟨step, -⟩
      · simp only [answered, step, if_true]
        obtain ⟨next, pairs⟩ := @ih { gate with lastResponseMs := some request.nowMs } above
        refine ⟨fun last same => ?_, List.pairwise_cons.mpr ⟨next _ rfl, pairs⟩⟩
        have near : gate.cooldownMs.le (elapsed (some last) request.nowMs) = true := by
          rw [same] at late
          exact Double.le_of_not_lt (by simp [elapsed]) (Double.positive_ne_nan above) late
        refine List.forall_mem_cons.mpr ⟨near, fun answer here => ?_⟩
        exact elapsed_le_trans above near (next _ rfl answer here)
      · simp only [answered, step, Bool.false_eq_true, if_false]
        exact ih above

/-- Without a positive cooldown every valid request is answered. -/
theorem answered_all (not : gate.cooldownMs.positive = false) {requests : List Request}
    (sorted : requests.Pairwise fun earlier later => earlier.nowMs ≤ later.nowMs)
    (order : ∀ last, gate.lastResponseMs = some last → ∀ request ∈ requests,
      last ≤ request.nowMs) :
    answered runtime gate requests = requests.filter (·.valid runtime) := by
  induction requests generalizing gate with
  | nil => rfl
  | cons request requests ih =>
      obtain ⟨first, sorted⟩ := List.pairwise_cons.mp sorted
      rcases onRequest_cases runtime gate request with ⟨valid, -, step⟩ | ⟨step, early⟩
      · simp only [answered, step, if_true, List.filter_cons, valid]
        congr 1
        refine ih not sorted fun last same => ?_
        obtain rfl := Option.some.inj same
        exact first
      · have refused : request.valid runtime = false := by
          cases valid : request.valid runtime with
          | false => rfl
          | true =>
              have late := elapsed_not_lt not fun time same =>
                order time same request List.mem_cons_self
              rw [early valid] at late
              cases late
        simp only [answered, step, Bool.false_eq_true, if_false, List.filter_cons, refused]
        exact ih not sorted fun last same other here =>
          order last same other (List.mem_cons_of_mem _ here)

/-- Whatever the cooldown is, a valid request in a cold window is answered. -/
theorem responses_first (env : Option String) (before : List Request)
    (valid : request.valid runtime = true)
    (cold : ∀ answer ∈ responses runtime env before,
      (elapsed (some answer.nowMs) request.nowMs).lt (cooldownMs env) = false) :
    responses runtime env (before ++ [request]) = responses runtime env before ++ [request] := by
  obtain ⟨cooldown, last⟩ := @gateAfter_last runtime (startGate env) before
  have isOpen : (elapsed (gateAfter runtime (startGate env) before).lastResponseMs
      request.nowMs).lt (cooldownMs env) = false := by
    rcases last with last | ⟨answer, here, last⟩
    · rw [last]
      cases cooldownMs env <;> rfl
    · rw [last]
      exact cold answer here
  rw [responses, answered_append]
  rcases onRequest_cases runtime (gateAfter runtime (startGate env) before) request with
    ⟨-, -, step⟩ | ⟨-, early⟩
  · simp [answered, step, responses]
  · have late := early valid
    rw [cooldown] at late
    rw [show (startGate env).cooldownMs = cooldownMs env from rfl, isOpen] at late
    cases late

/-- A request that is refused is as if it had not come. -/
theorem responses_silent (env : Option String) (before after : List Request)
    (refused : request.valid runtime = false) :
    responses runtime env (before ++ request :: after) =
      responses runtime env (before ++ after) := by
  rw [responses, responses, answered_append, answered_append, answered, onRequest_refused refused]
  rfl

/-- The configured number of seconds is above zero when the gate's cooldown is. -/
theorem cooldownMs_positive (env : Option String) :
    (cooldownMs env).positive = true ↔ (responseCooldownSecs env).positive = true :=
  Double.mul_positive (jsNumber_valid _) (by norm_num)

/-- Responses are coalesced exactly when the configured cooldown is a number above zero, or there
is nothing to coalesce. -/
theorem coalesced_iff (runtime : Runtime) (env : Option String) {requests : List Request}
    (sorted : requests.Pairwise fun earlier later => earlier.nowMs ≤ later.nowMs) :
    Coalesced runtime env requests ↔
      (responseCooldownSecs env).positive = true ∨
        (requests.filter (·.valid runtime)).length ≤ 1 := by
  rw [← cooldownMs_positive]
  constructor
  · intro coalesced
    cases above : (cooldownMs env).positive with
    | true => exact .inl rfl
    | false =>
        right
        have all : responses runtime env requests = requests.filter (·.valid runtime) :=
          answered_all above sorted (fun last same => by cases same)
        have spaced := coalesced.spaced
        rw [all] at spaced
        by_contra more
        match two : requests.filter (·.valid runtime) with
        | [] => simp [two] at more
        | [_] => simp [two] at more
        | first :: second :: rest =>
            rw [two, List.pairwise_cons] at spaced
            have pair := (spaced.1 second List.mem_cons_self).1
            rw [above] at pair
            cases pair
  · intro condition
    refine ⟨?_, fun before request after whole => responses_first env before,
      fun before request after whole refused => ⟨?_, ?_⟩⟩
    · rcases condition with above | few
      · have pairs := (@answered_spaced runtime (startGate env) above requests).2
        exact pairs.imp fun near => ⟨above, near⟩
      · have short := (answered_sublist (startGate env) requests).length_le.trans few
        unfold responses
        match answered runtime (startGate env) requests, short with
        | [], _ => exact .nil
        | [_], _ => simp
    · have gone := responses_silent env before [] refused
      rwa [List.append_nil] at gone
    · rw [whole]
      exact responses_silent env before after refused

/-- A runtime that knows one request. -/
def testRuntime : Runtime where
  decode := fun _ => none
  parse := fun text =>
    if text = "\x7b\"v\":1,\"kind\":\"offer_request\",\"ts\":0\x7d" then
      some (.object fun key =>
        [("v", Field.number (.finite 1)), ("kind", .string "offer_request"),
          ("ts", .number (.finite 0))].lookup key)
    else none

def testRequest (nowMs : Nat) : Request :=
  ⟨.text "\x7b\"v\":1,\"kind\":\"offer_request\",\"ts\":0\x7d", nowMs⟩

theorem coalesced_iff_test :
    Coalesced testRuntime (some "8") [testRequest 0, testRequest 7999] ↔
      (responseCooldownSecs (some "8")).positive = true ∨
        ([testRequest 0, testRequest 7999].filter (·.valid testRuntime)).length ≤ 1 :=
  coalesced_iff testRuntime (some "8") (by decide)

/-- With a cooldown that is no number, or zero, two requests at one time are both answered. -/
theorem uncooled_responses :
    ¬ Coalesced testRuntime (some "8s") [testRequest 0, testRequest 0] ∧
      ¬ Coalesced testRuntime (some "0") [testRequest 0, testRequest 0] := by
  constructor
  · intro coalesced
    have spaced := coalesced.spaced
    revert spaced
    decide +kernel
  · intro coalesced
    have spaced := coalesced.spaced
    revert spaced
    decide +kernel

end Requests

end AtomicSwaps.Publisher
