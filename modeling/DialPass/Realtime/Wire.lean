import DialPass.Bridge.Relay
import DialPass.Lib.Json.Plain
import DialPass.Realtime.Feeder
/-!
# What the Realtime socket is told (realtime/client.py:39-68, client.py:121-161, realtime/stream.py:31-56,
stream.py:86-142, stream.py:174-222)

The three exchanges send JSON texts. `ClientEvent` is one of them by its `type`, `text` what `json.dumps` makes of
it, and `Service` is what a reader of the texts has been told by them: the session's instructions, the audio
appended since the last commit, what was committed, and the responses asked for, each with the audio it can be
about. `hear_text` reads each text back as the event it was written for; the rest speaks of events.
-/

namespace DialPass

/-- `session.audio`: what it says of either direction. -/
structure AudioConfig where
  input : Bool
  output : Bool

def AudioConfig.json (c : AudioConfig) : Json :=
  let format := ("format", Json.object [("type", Json.string "audio/pcmu")])
  Json.object ((if c.input then [("input", Json.object [format, ("turn_detection", .null)])] else []) ++
    if c.output then [("output", Json.object [format, ("voice", Json.string "alloy")])] else [])

/-- What is sent to the Realtime API. -/
inductive ClientEvent where
  | sessionUpdate (instructions : String) (outputModality : String) (audio : AudioConfig)
  /-- base64 of G.711 -/
  | append (audio : String)
  | commit
  | createResponse (outputModality instructions : Option String)

namespace ClientEvent

/-- The `response` of a `response.create`. -/
def responseFields (outputModality instructions : Option String) : List (String × Json) :=
  (match outputModality with
    | some m => [("output_modalities", .arr [Json.string m])]
    | none => []) ++
  match instructions with
    | some i => [("instructions", Json.string i)]
    | none => []

/-- The dict handed to `json.dumps`. -/
def json : ClientEvent → Json
  | .sessionUpdate instructions outputModality audio =>
    Json.object [("type", Json.string "session.update"), ("session", Json.object [("type", Json.string "realtime"),
      ("instructions", Json.string instructions), ("output_modalities", .arr [Json.string outputModality]),
      ("audio", audio.json)])]
  | .append audio => Json.object [("type", Json.string "input_audio_buffer.append"), ("audio", Json.string audio)]
  | .commit => Json.object [("type", Json.string "input_audio_buffer.commit")]
  | .createResponse none none => Json.object [("type", Json.string "response.create")]
  | .createResponse outputModality instructions =>
    Json.object [("type", Json.string "response.create"), ("response", Json.object (responseFields outputModality instructions))]

/-- The text on the wire. -/
def text (e : ClientEvent) : String := Json.dumps Json.spaced e.json

end ClientEvent

/-! ## Each text is read back -/

section

variable {py : Interpreter}

theorem AudioConfig.json_plain (c : AudioConfig) : Json.Plain py c.json := by
  have hformat : Json.Plain py (Json.object [("type", Json.string "audio/pcmu")]) :=
    Json.object_plain (by simp) (by simp [Json.string_plain])
  have hin : Json.Plain py (Json.object [("format", Json.object [("type", Json.string "audio/pcmu")]), ("turn_detection", .null)]) :=
    Json.object_plain (by simp) (by simp [hformat, Json.null_plain])
  have hout : Json.Plain py (Json.object [("format", Json.object [("type", Json.string "audio/pcmu")]), ("voice", Json.string "alloy")]) :=
    Json.object_plain (by simp) (by simp [hformat, Json.string_plain])
  obtain ⟨i, o⟩ := c
  cases i <;> cases o <;> exact Json.object_plain (by simp) (by simp [hin, hout])

theorem AudioConfig.item_input (c : AudioConfig) : (c.json.item "input").isSome = c.input := by
  obtain ⟨i, o⟩ := c
  cases i <;> cases o <;> simp [AudioConfig.json, Json.item_object, List.lookup_cons]

theorem AudioConfig.item_output (c : AudioConfig) : (c.json.item "output").isSome = c.output := by
  obtain ⟨i, o⟩ := c
  cases i <;> cases o <;> simp [AudioConfig.json, Json.item_object, List.lookup_cons]

theorem ClientEvent.responseFields_plain (m i : Option String) : Json.Plain py (Json.object (responseFields m i)) := by
  have hm : ∀ m, Json.Plain py (.arr [Json.string m]) := fun m => Json.single_plain (Json.string_plain m)
  cases m <;> cases i <;>
    exact Json.object_plain (by simp [responseFields]) (by simp [responseFields, hm, Json.string_plain])

theorem ClientEvent.json_plain (e : ClientEvent) : Json.Plain py e.json := by
  have hm : ∀ m, Json.Plain py (.arr [Json.string m]) := fun m => Json.single_plain (Json.string_plain m)
  cases e with
  | sessionUpdate instructions m audio =>
    have hsession : Json.Plain py (Json.object [("type", Json.string "realtime"), ("instructions", Json.string instructions),
        ("output_modalities", .arr [Json.string m]), ("audio", audio.json)]) :=
      Json.object_plain (by simp) (by simp [hm, Json.string_plain, AudioConfig.json_plain])
    exact Json.object_plain (by simp) (by simp [Json.string_plain, hsession])
  | append audio => exact Json.object_plain (by simp) (by simp [Json.string_plain])
  | commit => exact Json.object_plain (by simp) (by simp [Json.string_plain])
  | createResponse m i =>
    have hresponse : Json.Plain py (Json.object (responseFields m i)) := responseFields_plain m i
    cases m <;> cases i <;> exact Json.object_plain (by simp) (by simp [Json.string_plain, hresponse])

theorem ClientEvent.createResponse_type (m i : Option String) :
    (createResponse m i).json.item "type" = some (Json.string "response.create") := by
  cases m <;> cases i <;> simp [ClientEvent.json, Json.item_object]

/-- What the response overrides can be found where the reader looks. -/
theorem ClientEvent.createResponse_modality (m i : Option String) :
    (((((createResponse m i).json.item "response").getD (.obj [])).item "output_modalities").bind Json.asSingle).bind
      Json.asStr = m.map .ofString := by
  have hempty : ∀ key, (Json.obj []).item key = none := fun _ => rfl
  cases m <;> cases i <;>
    simp [ClientEvent.json, responseFields, Json.item_object, List.lookup_cons, Json.asSingle, Json.asStr, Json.string,
      hempty]

theorem ClientEvent.createResponse_instructions (m i : Option String) :
    ((((createResponse m i).json.item "response").getD (.obj [])).item "instructions").bind Json.asStr =
      i.map .ofString := by
  have hempty : ∀ key, (Json.obj []).item key = none := fun _ => rfl
  cases m <;> cases i <;>
    simp [ClientEvent.json, responseFields, Json.item_object, List.lookup_cons, Json.asStr, Json.string, hempty]

theorem ClientEvent.json_depth (e : ClientEvent) : e.json.depth ≤ 5 := by
  cases e with
  | sessionUpdate instructions m audio =>
    obtain ⟨i, o⟩ := audio
    cases i <;> cases o <;>
      simp [ClientEvent.json, AudioConfig.json, Json.object, Json.string, Json.depth, Json.fieldsDepth, Json.itemsDepth]
  | createResponse m i =>
    cases m <;> cases i <;>
      simp [ClientEvent.json, responseFields, Json.object, Json.string, Json.depth, Json.fieldsDepth, Json.itemsDepth]
  | _ => simp [ClientEvent.json, Json.object, Json.string, Json.depth, Json.fieldsDepth]

end

/-! ## A reader of the texts -/

/-- A response asked for: what it overrides of the session, and the audio committed by then. -/
structure AskedResponse where
  outputModality : Option PyStr
  instructions : Option PyStr
  about : List (List UInt8)
deriving DecidableEq

structure Service where
  instructions : PyStr := []
  outputModality : PyStr := []
  audioIn : Bool := false
  audioOut : Bool := false
  input : List UInt8 := []
  committed : List (List UInt8) := []
  asked : List AskedResponse := []
deriving DecidableEq

namespace Service

/-- One event; `none` if an `append` holds no base64. -/
def told (s : Service) : ClientEvent → Option Service
  | .sessionUpdate instructions outputModality audio =>
    some { s with
      instructions := .ofString instructions
      outputModality := .ofString outputModality
      audioIn := audio.input
      audioOut := audio.output }
  | .append audio => (Base64.decode audio.toList).map fun bytes => { s with input := s.input ++ bytes }
  | .commit => some { s with input := [], committed := s.committed ++ [s.input] }
  | .createResponse outputModality instructions =>
    some { s with asked := s.asked ++ [⟨outputModality.map .ofString, instructions.map .ofString, s.committed⟩] }

end Service

namespace Service

open Json

/-- Reading one text, whoever wrote it. -/
def hear (py : Interpreter) (s : Service) (text : String) : Option Service := do
  let v ← (loads py text).toOption
  let type ← (← v.item "type").asStr
  if type = .ofString "session.update" then
    let session ← v.item "session"
    let instructions ← (← session.item "instructions").asStr
    let outputModality ← (← (← session.item "output_modalities").asSingle).asStr
    let audio ← session.item "audio"
    return { s with
      instructions, outputModality, audioIn := (audio.item "input").isSome, audioOut := (audio.item "output").isSome }
  else if type = .ofString "input_audio_buffer.append" then
    let audio ← (← v.item "audio").asStr
    let bytes ← Base64.decode audio.text.toList
    return { s with input := s.input ++ bytes }
  else if type = .ofString "input_audio_buffer.commit" then
    return { s with input := [], committed := s.committed ++ [s.input] }
  else if type = .ofString "response.create" then
    let response := (v.item "response").getD (.obj [])
    let outputModality := ((response.item "output_modalities").bind asSingle).bind asStr
    let instructions := (response.item "instructions").bind asStr
    return { s with asked := s.asked ++ [⟨outputModality, instructions, s.committed⟩] }
  else none

/-- **`hear_text`**: the text of an event tells the reader what the event does. -/
theorem hear_text {py : Interpreter} (hpy : 5 ≤ py.maxDepth) (s : Service) (e : ClientEvent) :
    s.hear py e.text = s.told e := by
  have hloads : loads py e.text = .ok e.json := loads_dumps_plain spaced e.json_plain (e.json_depth.trans hpy)
  have htype : ∀ a b : String, (PyStr.ofString a = .ofString b ↔ a = b) := fun a b => PyStr.ofString_injective.eq_iff
  rw [hear, hloads]
  cases e with
  | sessionUpdate instructions m audio =>
    simp [ClientEvent.json, item_object, List.lookup_cons, string, asStr, asSingle, told, Except.toOption,
      AudioConfig.item_input, AudioConfig.item_output]
  | append audio =>
    simp [ClientEvent.json, item_object, List.lookup_cons, string, asStr, told, Except.toOption, htype,
      PyStr.text_ofString]
    cases Base64.decode audio.toList <;> rfl
  | commit => simp [ClientEvent.json, item_object, List.lookup_cons, string, asStr, told, Except.toOption, htype]
  | createResponse m i =>
    have hm := ClientEvent.createResponse_modality m i
    have hi := ClientEvent.createResponse_instructions m i
    simp only [Except.toOption, Option.bind_eq_bind, Option.bind_some, ClientEvent.createResponse_type, asStr, string,
      htype, hm, hi, told]
    rfl

/-- The texts of several events, one after the other. -/
theorem hear_texts {py : Interpreter} (hpy : 5 ≤ py.maxDepth) (es : List ClientEvent) (s : Service) :
    (es.map (·.text)).foldlM (hear py) s = es.foldlM told s := by
  induction es generalizing s with
  | nil => rfl
  | cons e es ih =>
    rw [List.map_cons, List.foldlM_cons, List.foldlM_cons, hear_text hpy]
    cases s.told e with
    | none => rfl
    | some t => exact ih t

end Service

/-! ## The menu turn -/

/-- An `append` of some bytes. -/
def appendBytes (bytes : List UInt8) : ClientEvent := .append (String.ofList (Base64.encode bytes))

/-- `_menu_instructions` (client.py:40). -/
def menuInstructions (goal : Option String) : String :=
  let goalLine :=
    match goal with
    | some goal => if goal.isEmpty then "The caller wants to reach a human agent." else "The caller's goal: " ++ goal ++ "."
    | none => "The caller wants to reach a human agent."
  "You are a DTMF dialer for a phone menu (IVR). " ++ goalLine ++ " " ++
    "The caller speaks English.\n" ++
    "You are given a recording of what the line just said. Pick the keypad " ++
    "key whose spoken option best matches the goal. If an option is phrased " ++
    "'<description> or press N' and the description fits, use N. Prefer an " ++
    "agent / representative / operator option when nothing matches better.\n" ++
    "Language prompts: choose the English option. If English is the default " ++
    "(e.g. \"for French press 2\" with no key for English), use \"\".\n" ++
    "Data entry: if the line asks you to ENTER a number (account number, " ++
    "member ID, meeting ID, zip, extension) and that exact number appears in " ++
    "the goal, return those digits — add \"#\" only if it says \"followed by " ++
    "pound\". Never invent digits that are not in the goal.\n" ++
    "Otherwise use \"\": no stated option fits, none were given, it asks you " ++
    "to speak, or it is hold music / an after-hours message.\n" ++
    "Output EXACTLY ONE LINE of JSON and NOTHING else — no prose, no code " ++
    "fences, never ask a question:\n" ++
    "\x7b\"digit\": \"<one key 0-9 * #, or the digits to enter, or empty>\", " ++
    "\"rationale\": \"<=12 words>\"\x7d"

/-- What `_menu_turn` sends (client.py:121-161). -/
def menuEvents (audio : Pcm) (sampleRate : Nat) (goal : Option String) : List ClientEvent :=
  .sessionUpdate (menuInstructions goal) "text" ⟨true, false⟩ ::
    ((CallBridge.chunks (max 1 (sampleRate / 5)) (pcm16ToUlaw audio)).map appendBytes ++
      [.commit, .createResponse none none])

namespace Service

theorem told_appendBytes (s : Service) (bytes : List UInt8) :
    s.told (appendBytes bytes) = some { s with input := s.input ++ bytes } := by
  simp [told, appendBytes, Base64.decode_encode]

/-- Audio cut into pieces is whole again. -/
theorem told_appends (pieces : List (List UInt8)) (s : Service) :
    (pieces.map appendBytes).foldlM told s = some { s with input := s.input ++ pieces.flatten } := by
  induction pieces generalizing s with
  | nil => simp
  | cons bytes pieces ih =>
    rw [List.map_cons, List.foldlM_cons, told_appendBytes]
    show (pieces.map appendBytes).foldlM told _ = _
    rw [ih, List.flatten_cons, List.append_assoc]

/-- What the model has been told when it is asked for the key. -/
def menuAsked (audio : Pcm) (goal : Option String) : Service where
  instructions := .ofString (menuInstructions goal)
  outputModality := .ofString "text"
  audioIn := true
  committed := [pcm16ToUlaw audio]
  asked := [⟨none, none, [pcm16ToUlaw audio]⟩]

theorem told_sessionUpdate (s : Service) (instructions outputModality : String) (audio : AudioConfig) :
    s.told (.sessionUpdate instructions outputModality audio) = some { s with
      instructions := .ofString instructions
      outputModality := .ofString outputModality
      audioIn := audio.input
      audioOut := audio.output } := rfl

/-- **`hear_menuTurn`**: whatever the clip and its rate, the service is told all of it, cut anywhere, in one
commit, with the goal in the session's instructions, and is asked once, after that. -/
theorem hear_menuTurn {py : Interpreter} (hpy : 5 ≤ py.maxDepth) (audio : Pcm) (sampleRate : Nat) (goal : Option String) :
    ((menuEvents audio sampleRate goal).map (·.text)).foldlM (hear py) {} = some (menuAsked audio goal) := by
  have hpos : 0 < max 1 (sampleRate / 5) := by omega
  have hclose : ∀ (s : Service) (bytes : List UInt8), [ClientEvent.commit, .createResponse none none].foldlM told
      { s with input := bytes, committed := [], asked := [] } =
      some { s with input := [], committed := [bytes], asked := [⟨none, none, [bytes]⟩] } := fun _ _ => rfl
  rw [hear_texts hpy, menuEvents, menuAsked, List.foldlM_cons, told_sessionUpdate]
  generalize menuInstructions goal = instructions
  rw [Option.bind_eq_bind, Option.bind_some, List.foldlM_append, told_appends, CallBridge.flatten_chunks hpos]
  exact hclose { instructions := .ofString instructions, outputModality := .ofString "text", audioIn := true } _

end Service

end DialPass
