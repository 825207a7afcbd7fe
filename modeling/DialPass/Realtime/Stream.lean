import DialPass.Realtime.Verdict
import DialPass.Resilience.CircuitBreaker
import DialPass.Session.Life
import DialPass.Telephony.Audio
/-!
# The probe's exchange with the model (realtime/stream.py:68-171, stream.py:237-260)

`probeExchange` is the receive loop over whatever events arrive and however the socket goes on after them.
The loop ends on a verdict, an error event, or a closed socket; it does not look at `response.done`. A reply
without a verdict therefore leaves it waiting, unless the server hangs up, and the timeout turns the reply
into an outage. `readsVerdict_iff` is exact. Where it does stop at a verdict, `stopsEarly` says that the rest of the
reply would not have changed it. The feeder, which shares nothing with the loop but the socket, is `Feeder`.
-/

namespace DialPass

/-- An event of the Realtime API, by its `type` (stream.py:148-159). An audio delta is given decoded. -/
inductive RealtimeEvent where
  | outputAudioDelta (delta : List UInt8)
  | outputAudioTranscriptDelta (delta : String)
  /-- `response.output_text.delta` and `response.text.delta` -/
  | outputTextDelta (delta : String)
  | error
  /-- `judge`: of the response that was asked to classify, and not of the greeting -/
  | responseDone (judge : Bool)
  | other
deriving DecidableEq

/-- How the socket goes on after the last event received. A connection that is never made is of this kind too,
with no event before it. -/
inductive SocketEnd where
  | closed
  /-- websockets' own errors, `ConnectionClosedError` among them, are not caught (stream.py:169) -/
  | lost (msg : String)
  | osError
  | timeout
deriving DecidableEq

/-- The receive loop's variables (stream.py:115, stream.py:143), and what was played. -/
structure Exchange where
  text : List String := []
  judging : Bool := false
  errored : Bool := false
  played : List Pcm := []

namespace Exchange

/-- `"".join(text)`. -/
def words (x : Exchange) : String := String.join x.text

/-- One event (stream.py:148-160). -/
def receive (x : Exchange) : RealtimeEvent → Exchange
  | .outputAudioDelta delta => if x.judging then x else { x with played := x.played ++ [ulawToPcm16 delta] }
  | .outputAudioTranscriptDelta delta => { x with text := x.text ++ [delta] }
  | .outputTextDelta delta => { x with judging := true, text := x.text ++ [delta] }
  | .error => { x with errored := true }
  | .responseDone _ | .other => x

/-- A `break` of the loop (stream.py:160, stream.py:162). -/
def breaks (x : Exchange) : Bool := x.errored || (verdictSearch x.words).isSome

/-- The loop (stream.py:145-162): where it ends, and whether by a `break`. -/
def listen (x : Exchange) : List RealtimeEvent → Exchange × Bool
  | [] => (x, false)
  | e :: es => if (x.receive e).breaks then (x.receive e, true) else (x.receive e).listen es

/-- What is returned after the loop (stream.py:165-167). -/
def conclude (x : Exchange) : ProbeOutcome :=
  if x.errored ∧ (verdictSearch x.words).isNone then { isHuman := false, ok := false, transcript := "probe error" }
  else verdictFromText x.words

end Exchange

/-- stream.py:171 -/
def probeUnavailable : ProbeOutcome := { isHuman := false, ok := false, transcript := "probe unavailable" }

/-- `probe_exchange` (stream.py:68), and what it played. Leaving the socket's `async with` takes the closing
handshake, which is inside the timeout as well: `closesInTime`. -/
def probeExchange (events : List RealtimeEvent) (fin : SocketEnd) (closesInTime : Bool) :
    Except String ProbeOutcome × List Pcm :=
  let (x, broke) := ({} : Exchange).listen events
  let outcome :=
    if broke ∨ fin = .closed then .ok (if closesInTime then x.conclude else probeUnavailable)
    else
      match fin with
      | .lost msg => .error msg
      | _ => .ok probeUnavailable
  (outcome, x.played)

/-- `StreamingProbe.probe` (stream.py:251), when the exchange's future has (`some`) or has not (`none`) ended
within 25 s. -/
def streamingProbe (run : Option (Except String ProbeOutcome)) : Except Tier2Error ProbeOutcome :=
  match run with
  | none => .error (.unavailable "probe exchange raised: ")
  | some (.error exc) => .error (.unavailable ("probe exchange raised: " ++ exc))
  | some (.ok outcome) =>
    if outcome.ok then .ok outcome
    else .error (.unavailable (if outcome.transcript = "" then "probe exchange failed" else outcome.transcript))

/-- The end of `CircuitBreaker.call`, as `fn` returned or raised (circuit_breaker.py:59-66). -/
def CircuitBreaker.settle {ε α : Type} (b : CircuitBreaker) (now : ℚ) : Except ε α → CircuitBreaker
  | .ok _ => b.onSuccess
  | .error _ => b.onFailure now

/-! ## What is promised of an exchange -/

/-- What an event adds to the words. -/
def RealtimeEvent.said : RealtimeEvent → String
  | .outputAudioTranscriptDelta delta | .outputTextDelta delta => delta
  | _ => ""

/-- All that was said in a sequence of events. -/
def saidText (events : List RealtimeEvent) : String := String.join (events.map (·.said))

/-- Nothing goes wrong, and the classification is received to its end. -/
structure JudgeDone (events : List RealtimeEvent) : Prop where
  noError : .error ∉ events
  done : .responseDone true ∈ events

instance (events : List RealtimeEvent) : Decidable (JudgeDone events) :=
  decidable_of_iff (.error ∉ events ∧ .responseDone true ∈ events) ⟨fun h => ⟨h.1, h.2⟩, fun h => ⟨h.1, h.2⟩⟩

/-- The exchange is a read of what was said, for the breaker and for the session too: a verdict that is not
human takes the call back to ON_HOLD. -/
structure ReadsVerdict (exchange : Except String ProbeOutcome) (text : String) : Prop where
  read : ∃ o, exchange = .ok o ∧ o.ok = true ∧ o.isHuman = (verdictFromText text).isHuman
  counted : ∀ (b : CircuitBreaker) (now : ℚ), b.settle now (streamingProbe (some exchange)) = b.onSuccess
  polled : ∀ (s : AgentSession) (now : ℚ) (i : Tick) (j : Job), s.tier2Kind = some .probe →
    s.exec.future = some j → j.kind = .probe → s.fsm.state = .evaluatingSpeech →
    i.answer = some { probe := streamingProbe (some exchange) } → (verdictFromText text).isHuman = false →
    (s.pollTier2 now i).fsm.state = .onHold ∧ (s.pollTier2 now i).finished = s.finished

/-! ## The loop -/

theorem join_append (l l' : List String) : String.join (l ++ l') = String.join l ++ String.join l' := by
  apply String.toList_injective
  simp [String.join_eq]

theorem saidText_cons (e : RealtimeEvent) (es : List RealtimeEvent) : saidText (e :: es) = e.said ++ saidText es := by
  apply String.toList_injective
  simp [saidText, String.join_eq]

namespace Exchange

variable (x : Exchange)

theorem receive_words (e : RealtimeEvent) : (x.receive e).words = x.words ++ e.said := by
  cases e with
  | outputAudioTranscriptDelta delta | outputTextDelta delta =>
    rw [receive, words, join_append]
    simp [words, RealtimeEvent.said, String.join_eq]
  | outputAudioDelta delta => rw [receive]; split <;> simp [words, RealtimeEvent.said]
  | error | responseDone judge | other => simp [receive, words, RealtimeEvent.said]

theorem receive_errored {e : RealtimeEvent} (h : e ≠ .error) : (x.receive e).errored = x.errored := by
  cases e with
  | outputAudioDelta delta => rw [receive]; split <;> rfl
  | error => exact absurd rfl h
  | _ => rfl

/-- Without an error event the loop breaks on the verdict, and what it has read by then is the verdict of all
there is. -/
theorem listen_spec {es : List RealtimeEvent} (he : .error ∉ es) (hx : x.errored = false)
    (hv : verdictSearch x.words = none) :
    (x.listen es).1.errored = false ∧ (x.listen es).2 = (verdictSearch (x.words ++ saidText es)).isSome ∧
      verdictSearch (x.listen es).1.words = verdictSearch (x.words ++ saidText es) := by
  induction es generalizing x with
  | nil => simp [listen, saidText, String.join_eq, hx, hv]
  | cons e es ih =>
    obtain ⟨hne, hes⟩ := not_or.1 (mt List.mem_cons.2 he)
    have herr : (x.receive e).errored = false := by rw [x.receive_errored (Ne.symm hne), hx]
    rw [saidText_cons, ← String.append_assoc, ← x.receive_words e, listen]
    cases hs : verdictSearch (x.receive e).words with
    | none =>
      rw [if_neg (by simp [breaks, herr, hs])]
      exact ih (x.receive e) hes herr hs
    | some group =>
      rw [if_pos (by simp [breaks, hs]), verdictSearch_append hs]
      exact ⟨herr, rfl, hs⟩

end Exchange

theorem verdictFromText_congr {text text' : String} (h : verdictSearch text = verdictSearch text') :
    (verdictFromText text).isHuman = (verdictFromText text').isHuman := by
  rw [verdictFromText_isHuman, verdictFromText_isHuman, h]

variable {events : List RealtimeEvent}

theorem listen_new (he : .error ∉ events) :
    (({} : Exchange).listen events).2 = (verdictSearch (saidText events)).isSome ∧
      (({} : Exchange).listen events).1.conclude.ok = true ∧
      (({} : Exchange).listen events).1.conclude.isHuman = (verdictFromText (saidText events)).isHuman := by
  have hnil : ({} : Exchange).words ++ saidText events = saidText events := by simp [Exchange.words, String.join_eq]
  obtain ⟨herr, hbroke, hsearch⟩ := ({} : Exchange).listen_spec he rfl (by decide)
  rw [hnil] at hbroke hsearch
  rw [Exchange.conclude, if_neg (by simp [herr])]
  exact ⟨hbroke, verdictFromText_ok _, verdictFromText_congr hsearch⟩

/-- **`stopsEarly`**: however a text is cut into deltas, whatever else comes between them, the outcome reached at the
first prefix with a verdict in it is the verdict of the whole text; and one is reached if there is a verdict in it, or
the server closes the socket. -/
theorem stopsEarly {text : String} (hcut : saidText events = text) (he : .error ∉ events) (fin : SocketEnd)
    (closesInTime : Bool) :
    (∀ o, (probeExchange events fin closesInTime).1 = .ok o → o.ok = true →
      o.isHuman = (verdictFromText text).isHuman) ∧
    (closesInTime = true → (verdictSearch text).isSome = true ∨ fin = .closed →
      ∃ o, (probeExchange events fin closesInTime).1 = .ok o ∧ o.ok = true) := by
  obtain ⟨hbroke, hok, hhuman⟩ := listen_new he
  rw [hcut] at hbroke hhuman
  unfold probeExchange
  dsimp only
  constructor
  · intro o ho hread
    split at ho
    · cases closesInTime with
      | true =>
        cases ho
        exact hhuman
      | false =>
        cases ho
        cases hread
    · split at ho
      · cases ho
      · cases ho
        cases hread
  · rintro rfl hv
    rw [if_pos (by rw [hbroke]; exact hv)]
    exact ⟨_, rfl, hok⟩

/-- The verdict comes in pieces, the first of them ending in NOT; what follows it is not looked at. -/
theorem stopsEarly_not_human :
    ∃ o, (probeExchange [.outputTextDelta "VERDICT NOT", .outputTextDelta " HUMAN", .outputTextDelta ". VERDICT HUMAN"]
      .timeout true).1 = .ok o ∧ o.ok = true ∧ o.isHuman = false := by
  obtain ⟨hsame, hends⟩ := @stopsEarly
    [.outputTextDelta "VERDICT NOT", .outputTextDelta " HUMAN", .outputTextDelta ". VERDICT HUMAN"]
    "VERDICT NOT HUMAN. VERDICT HUMAN" (by decide +kernel) (by decide) .timeout true
  obtain ⟨o, ho, hok⟩ := hends rfl (.inl (by decide +kernel))
  exact ⟨o, ho, hok, (hsame o ho hok).trans (by decide +kernel)⟩

/-! ## The read's way to the call -/

/-- A polled verdict that is not human takes the call back to ON_HOLD. -/
theorem AgentSession.pollTier2_not_human {s : AgentSession} {j : Job} {o : ProbeOutcome} {i : Tick}
    (hk : s.tier2Kind = some .probe) (hf : s.exec.future = some j) (hj : j.kind = .probe)
    (hst : s.fsm.state = .evaluatingSpeech) (ha : i.answer = some { probe := .ok o }) (ho : o.isHuman = false)
    (now : ℚ) :
    (s.pollTier2 now i).fsm.state = .onHold ∧ (s.pollTier2 now i).finished = s.finished := by
  have hp : s.exec.poll i.answer = ({ s.exec with future := none }, some (j, .ok (.outcome o))) := by
    simp [ThreadedExecutor.poll, ha, hf, Job.run, hj, Except.map]
  unfold pollTier2
  rw [hk]
  dsimp only
  rw [hp]
  dsimp only [applyResult]
  rw [applyProbe_eq, ho, CallStateMachine.probeResult_not_human (by exact hst)]
  constructor <;> simp [dispatch, moved_eq, CallStateMachine.fallBackToHold, emit, log]

/-- An exchange that returned a read is one all the way. -/
theorem readsVerdict_of_read {exchange : Except String ProbeOutcome} {text : String}
    (h : ∃ o, exchange = .ok o ∧ o.ok = true ∧ o.isHuman = (verdictFromText text).isHuman) :
    ReadsVerdict exchange text := by
  obtain ⟨o, rfl, hok, hh⟩ := h
  have hs : streamingProbe (some (.ok o)) = .ok o := by rw [streamingProbe, if_pos hok]
  refine ⟨⟨o, rfl, hok, hh⟩, fun b now => by rw [hs]; rfl, ?_⟩
  intro s now i j hk hf hj hst ha hn
  rw [hs] at ha
  exact AgentSession.pollTier2_not_human hk hf hj hst ha (hh.trans hn) now

/-- **`readsVerdict_iff`**: for every sequence of events without an error in which the classification is
received to its end, the exchange is a read of what was said exactly when a verdict is recognised in it or the
server closes the socket, and the closing handshake stays inside the timeout. -/
theorem readsVerdict_iff (h : JudgeDone events) (fin : SocketEnd) (closesInTime : Bool) :
    ReadsVerdict (probeExchange events fin closesInTime).1 (saidText events) ↔
      closesInTime = true ∧ ((verdictSearch (saidText events)).isSome = true ∨ fin = .closed) := by
  obtain ⟨hbroke, hok, hhuman⟩ := listen_new h.noError
  have hbroke' : (({} : Exchange).listen events).2 = true ∨ fin = .closed ↔
      (verdictSearch (saidText events)).isSome = true ∨ fin = .closed := by rw [hbroke]
  unfold probeExchange
  by_cases hc : (verdictSearch (saidText events)).isSome = true ∨ fin = .closed
  · dsimp only
    rw [if_pos (hbroke'.2 hc), and_iff_left hc]
    cases closesInTime with
    | true => exact iff_of_true (readsVerdict_of_read ⟨_, rfl, hok, hhuman⟩) rfl
    | false =>
      refine iff_of_false ?_ Bool.false_ne_true
      rintro ⟨⟨o, ho, hok', -⟩, -, -⟩
      cases ho
      cases hok'
  · dsimp only
    rw [if_neg (mt hbroke'.1 hc)]
    refine iff_of_false ?_ fun hn => hc hn.2
    rintro ⟨⟨o, ho, hok', -⟩, -, -⟩
    cases fin with
    | lost msg => cases ho
    | closed => exact hc (.inr rfl)
    | osError | timeout =>
      cases ho
      cases hok'

/-- A verdict is received in pieces. -/
def tellsHuman : List RealtimeEvent :=
  [.outputTextDelta "VERDICT ", .outputTextDelta "HUMAN", .responseDone true]

/-- It is read, though the socket stays open. -/
theorem tellsHuman_readsVerdict : ReadsVerdict (probeExchange tellsHuman .timeout true).1 (saidText tellsHuman) :=
  (readsVerdict_iff (by decide) .timeout true).2 ⟨rfl, .inl (by decide +kernel)⟩

/-- The model greets, is asked to classify, and says that it cannot tell; the socket stays open. -/
def cannotTell : List RealtimeEvent :=
  [.outputAudioTranscriptDelta "Hi, this is an assistant calling", .responseDone false,
    .outputTextDelta "I couldn't tell", .responseDone true]

/-- It is reported as an outage. -/
theorem cannotTell_not_readsVerdict : JudgeDone cannotTell ∧
    ¬ ReadsVerdict (probeExchange cannotTell .timeout true).1 (saidText cannotTell) := by
  have hnone : verdictSearch (saidText cannotTell) = none := by decide +kernel
  refine ⟨by decide, fun h => ?_⟩
  obtain ⟨o, ho, hok, -⟩ := h.read
  have hx : (probeExchange cannotTell .timeout true).1 = .ok probeUnavailable := by decide +kernel
  rw [hx] at ho
  cases ho
  cases hok

end DialPass
