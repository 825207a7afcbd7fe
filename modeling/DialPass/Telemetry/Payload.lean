import DialPass.Lib.Json.Dumps
import DialPass.Session
import DialPass.Telemetry.Store
/-!
# What an event is sent as (telemetry/events.py, telemetry/sqs_sink.py:66-72)

`payload` is the dict of an event, its fields in the dataclass's order after its kind. Its floats are rounded, so a
decimal of a few places is all there is to them. `body` is the text the sink queues: `json.loads` gives the payload
back (`loads_body`), and the store has a row for it with the event's own call, time and kind (`rowOf_payload`).
-/

namespace DialPass

/-- labels.py:12 -/
def Label.value : Label → String
  | .ringback => "RINGBACK"
  | .menuSpeaking => "MENU_SPEAKING"
  | .menuAwaitingInput => "MENU_AWAITING_INPUT"
  | .holdMusic => "HOLD_MUSIC"
  | .holdInterjection => "HOLD_INTERJECTION"
  | .liveSpeechCandidate => "LIVE_SPEECH_CANDIDATE"
  | .voicemail => "VOICEMAIL"
  | .errorTone => "ERROR_TONE"
  | .silence => "SILENCE"
  | .unknown => "UNKNOWN"

/-- state.py:43 -/
def CallState.value : CallState → String
  | .dialing => "DIALING"
  | .ivrMenu => "IVR_MENU"
  | .onHold => "ON_HOLD"
  | .evaluatingSpeech => "EVALUATING_SPEECH"
  | .humanDetected => "HUMAN_DETECTED"
  | .bridging => "BRIDGING"
  | .done => "DONE"
  | .failed => "FAILED"

/-- The `reason` of a `Tier2Woken` (session.py:195, session.py:204). -/
def Tier2Kind.value : Tier2Kind → String
  | .menu => "menu"
  | .probe => "probe"

namespace Event

/-- The class's `kind` (events.py:27-78). -/
def kind : Event → String
  | .frameClassified .. => "frame_classified"
  | .stateChanged .. => "state_changed"
  | .tier2Woken .. => "tier2_woken"
  | .dtmfSent .. => "dtmf_sent"
  | .probeResult .. => "probe_result"
  | .humanDetected .. => "human_detected"
  | .bridgeStarted .. => "bridge_started"
  | .callCompleted .. => "call_completed"
  | .callFailed .. => "call_failed"

def t : Event → ℚ
  | .frameClassified t .. | .stateChanged t .. | .tier2Woken t _ | .dtmfSent t _ | .probeResult t _ |
    .humanDetected t | .bridgeStarted t | .callCompleted t _ | .callFailed t _ => t

/-- The float that a number of at most `d` decimals is. -/
def rounded (d : Nat) (x : ℚ) : PyFloat := .decimal (x < 0) (x * 10 ^ d).num.natAbs (-d)

/-- A text of the program's own. -/
def str (s : String) : Json := .str (.ofString s)

/-- The fields of the event's own class. -/
def fields : Event → List (PyStr × Json)
  | .frameClassified _ label confidence features =>
    [(.ofString "label", Event.str label.value), (.ofString "confidence", .float (rounded 3 confidence)),
      (.ofString "features", .obj (features.map fun p => (.ofString p.1, .float (rounded 5 p.2))))]
  | .stateChanged _ frm dst => [(.ofString "frm", Event.str frm.value), (.ofString "to", Event.str dst.value)]
  | .tier2Woken _ reason => [(.ofString "reason", Event.str reason.value)]
  | .dtmfSent _ digits => [(.ofString "digits", Event.str digits)]
  | .probeResult _ isHuman => [(.ofString "is_human", .bool isHuman)]
  | .humanDetected _ | .bridgeStarted _ => []
  | .callCompleted _ outcome => [(.ofString "outcome", Event.str outcome)]
  | .callFailed _ reason => [(.ofString "reason", Event.str reason)]

end Event

/-- `payload` (events.py:21), of an event of this call. -/
def Event.payload (callId : String) (e : Event) : Json :=
  .obj ((.ofString "kind", Event.str e.kind) :: (.ofString "call_id", Event.str callId) ::
    (.ofString "t", .float (rounded 3 (pyRound e.t 3))) :: e.fields)

/-- Its floats are as `round` leaves them (session.py:161-162). -/
def Event.Rounded : Event → Prop
  | .frameClassified _ _ confidence features =>
    (∃ x, confidence = pyRound x 3) ∧ ∀ p ∈ features, ∃ x, p.2 = pyRound x 5
  | _ => True

/-- An event with the call it is of. Its features are a dict, and its floats are rounded. -/
structure CallEvent where
  callId : String
  event : Event
  features_nodup : ∀ t label confidence features, event = .frameClassified t label confidence features →
    (features.map Prod.fst).Nodup
  floats_rounded : event.Rounded

namespace CallEvent

open Event Json

/-- `payload` (events.py:21). -/
def payload (e : CallEvent) : Json := e.event.payload e.callId

/-- The text of the message (sqs_sink.py:68). -/
def body (e : CallEvent) : String := dumps compact e.payload

/-- The row of the event. -/
def row (e : CallEvent) : Row where
  callId := Event.str e.callId
  t := (rounded 3 (pyRound e.event.t 3)).spelled
  kind := Event.str e.event.kind
  payload := e.payload.spelled

end CallEvent

/-- The float is the rounded number itself, not one near it. -/
theorem Event.toRat_rounded (x : ℚ) (d : Nat) : (Event.rounded d (pyRound x d)).toRat = some (pyRound x d) := by
  have hten : (10 : ℚ) ^ d ≠ 0 := pow_ne_zero _ (by norm_num)
  obtain ⟨n, hn⟩ : ∃ n : Int, pyRound x d = n / 10 ^ d := ⟨_, rfl⟩
  have hmul : pyRound x d * 10 ^ d = n := by rw [hn, div_mul_cancel₀ _ hten]
  have hpos : (0 : ℚ) < 10 ^ d := by positivity
  have hneg : pyRound x d < 0 ↔ n < 0 := by rw [hn, div_neg_iff]; simp [hpos, not_lt.2 hpos.le]
  have hsign : (if pyRound x d < 0 then -(n.natAbs : ℚ) else n.natAbs) = n := by
    by_cases h : n < 0
    · rw [if_pos (hneg.2 h), ← Int.cast_natCast, ← Int.cast_neg]
      congr 1
      omega
    · rw [if_neg (mt hneg.1 h), ← Int.cast_natCast]
      congr 1
      omega
  rw [rounded, PyFloat.toRat, hmul, Rat.num_intCast, zpow_neg, zpow_natCast]
  simp only [decide_eq_true_eq]
  rw [hsign, hn, div_eq_mul_inv]

/-- The time that a payload tells. -/
def payloadTime (payload : Json) : Option ℚ :=
  match payload.dictGet "t" .null with
  | some (.float x) => x.toRat
  | _ => none

theorem payloadTime_payload (callId : String) (e : Event) : payloadTime (e.payload callId) = some (pyRound e.t 3) :=
  Event.toRat_rounded e.t 3

/-- **`payload_exact`**: the floats of a payload are the numbers of its event, the time to the millisecond. -/
theorem CallEvent.payload_exact (e : CallEvent) : payloadTime e.payload = some (pyRound e.event.t 3) ∧
    ∀ t label confidence features, e.event = .frameClassified t label confidence features →
      (Event.rounded 3 confidence).toRat = some confidence ∧ ∀ p ∈ features, (Event.rounded 5 p.2).toRat = some p.2 := by
  obtain ⟨callId, event, -, hr⟩ := e
  refine ⟨payloadTime_payload callId event, ?_⟩
  rintro t label confidence features rfl
  obtain ⟨⟨x, rfl⟩, hfeatures⟩ := hr
  refine ⟨Event.toRat_rounded x 3, fun p hp => ?_⟩
  obtain ⟨y, hy⟩ := hfeatures p hp
  rw [hy, Event.toRat_rounded]

/-! ## It can be written -/

open Json

namespace CallEvent

open Event

variable {py : Interpreter}

theorem features_writable (features : List (String × ℚ)) :
    FieldsWritable py (features.map fun p => (PyStr.ofString p.1, Json.float (rounded 5 p.2))) := by
  induction features with
  | nil => trivial
  | cons p features ih => exact ⟨⟨paired_ofString p.1, trivial⟩, ih⟩

theorem features_depth (features : List (String × ℚ)) :
    fieldsDepth (features.map fun p => (PyStr.ofString p.1, Json.float (rounded 5 p.2))) = 0 := by
  induction features with
  | nil => rfl
  | cons p features ih => simp [fieldsDepth, depth, ih]

theorem payload_writable (e : CallEvent) : Writable py e.payload := by
  obtain ⟨callId, event, hnd, -⟩ := e
  have hs : ∀ s, Paired (.ofString s) := paired_ofString
  have hkeys : ∀ names : List String, names.Nodup → (names.map PyStr.ofString).Nodup := fun _ h =>
    h.map PyStr.ofString_injective
  cases event with
  | frameClassified t label confidence features =>
    have hfeatures : ((features.map fun p => (PyStr.ofString p.1, Json.float (rounded 5 p.2))).map Prod.fst).Nodup := by
      rw [List.map_map]
      have hn := hkeys _ (hnd t label confidence features rfl)
      rwa [List.map_map] at hn
    exact ⟨hkeys ["kind", "call_id", "t", "label", "confidence", "features"] (by decide), ⟨hs _, hs _⟩, ⟨hs _, hs _⟩,
      ⟨hs _, trivial⟩, ⟨hs _, hs _⟩, ⟨hs _, trivial⟩, ⟨hs _, hfeatures, features_writable features⟩, trivial⟩
  | stateChanged t frm dst =>
    exact ⟨hkeys ["kind", "call_id", "t", "frm", "to"] (by decide), ⟨hs _, hs _⟩, ⟨hs _, hs _⟩, ⟨hs _, trivial⟩,
      ⟨hs _, hs _⟩, ⟨hs _, hs _⟩, trivial⟩
  | probeResult t isHuman =>
    exact ⟨hkeys ["kind", "call_id", "t", "is_human"] (by decide), ⟨hs _, hs _⟩, ⟨hs _, hs _⟩, ⟨hs _, trivial⟩,
      ⟨hs _, trivial⟩, trivial⟩
  | humanDetected t | bridgeStarted t =>
    exact ⟨hkeys ["kind", "call_id", "t"] (by decide), ⟨hs _, hs _⟩, ⟨hs _, hs _⟩, ⟨hs _, trivial⟩, trivial⟩
  | dtmfSent t digits =>
    exact ⟨hkeys ["kind", "call_id", "t", "digits"] (by decide), ⟨hs _, hs _⟩, ⟨hs _, hs _⟩, ⟨hs _, trivial⟩,
      ⟨hs _, hs _⟩, trivial⟩
  | callCompleted t outcome =>
    exact ⟨hkeys ["kind", "call_id", "t", "outcome"] (by decide), ⟨hs _, hs _⟩, ⟨hs _, hs _⟩, ⟨hs _, trivial⟩,
      ⟨hs _, hs _⟩, trivial⟩
  | tier2Woken t reason | callFailed t reason =>
    exact ⟨hkeys ["kind", "call_id", "t", "reason"] (by decide), ⟨hs _, hs _⟩, ⟨hs _, hs _⟩, ⟨hs _, trivial⟩,
      ⟨hs _, hs _⟩, trivial⟩

theorem payload_depth (e : CallEvent) : e.payload.depth ≤ 2 := by
  obtain ⟨callId, event, hnd, -⟩ := e
  cases event <;> simp [payload, Event.payload, fields, Event.str, depth, fieldsDepth, features_depth]

/-- **`loads_body`**: what is queued for SQS is JSON, and it is the payload. -/
theorem loads_body (e : CallEvent) (hpy : 2 ≤ py.maxDepth) : loads py e.body = .ok e.payload.spelled :=
  loads_dumps compact e.payload_writable (e.payload_depth.trans hpy)

/-- **`rowOf_payload`**: the store has a row for it, with the call, the time and the kind of the event. -/
theorem rowOf_payload (e : CallEvent) : rowOf py e.payload.spelled = some e.row := by
  have hcall : PyStr.ofString "kind" ≠ PyStr.ofString "call_id" := by decide
  have ht : PyStr.ofString "kind" ≠ PyStr.ofString "t" ∧ PyStr.ofString "call_id" ≠ PyStr.ofString "t" := by decide
  have hprintable : ∀ s, (Event.str s).Printable py := fun s => Nat.zero_le _
  have hspelled : e.payload.spelled = .obj ((.ofString "kind", Event.str e.event.kind) ::
      (.ofString "call_id", Event.str e.callId) ::
      (.ofString "t", .float (rounded 3 (pyRound e.event.t 3)).spelled) :: fieldsSpelled e.event.fields) := rfl
  rw [row, hspelled, rowOf]
  simp only [Json.get, Dict.find, if_neg hcall, if_neg ht.1, if_neg ht.2, if_pos, Option.getD_some, toFloat,
    if_neg (not_not.2 (hprintable _))]
  rfl

end CallEvent

end DialPass
