import DialPass.Lib.Json.Plain
import DialPass.Media
/-!
# What the media sockets say (agent/bridge.py:142, api/media.py:119-128, api/media.py:157-192, api/media.py:213-287)

Both ways the sockets carry JSON texts. `StreamMessage` is what Twilio says, whatever else it puts into a message;
`App.receive` is a handler that has got one text of it. `receive_message` reads the one as the other, and
`MediaMessage.play_text` does so for what we send. `receives` is the registry of Media over the texts: whatever else
goes on, it does what was said.
-/

namespace DialPass

open Json

/-! ## What we say -/

namespace MediaMessage

/-- The dict of `_frame` (bridge.py:142). -/
def json (m : MediaMessage) : Json :=
  object [("event", string "media"), ("streamSid", string m.streamSid), ("media", object [("payload", string m.payload)])]

/-- What `_drain_loop` sends of it (media.py:124). -/
def text (m : MediaMessage) : String := dumps spaced m.json

/-- Reading it, at the other end of stream `streamSid`. -/
def play (py : Interpreter) (streamSid : String) (text : String) : Option (List UInt8) := do
  let v ← (loads py text).toOption
  let event ← (← v.item "event").asStr
  let sid ← (← v.item "streamSid").asStr
  let payload ← (← (← v.item "media").item "payload").asStr
  if event = .ofString "media" ∧ sid = .ofString streamSid then Base64.b64decode payload else none

theorem play_text {py : Interpreter} (hpy : 2 ≤ py.maxDepth) (sid : String) (ulaw : List UInt8) :
    play py sid (CallBridge.frame sid ulaw).text = some ulaw := by
  have hplain : Plain py (CallBridge.frame sid ulaw).json := by
    have hmedia : Plain py (object [("payload", string (CallBridge.frame sid ulaw).payload)]) :=
      object_plain (by simp) (by simp [string_plain])
    exact object_plain (by simp) (by simp [string_plain, hmedia])
  have hdepth : (CallBridge.frame sid ulaw).json.depth ≤ py.maxDepth := by
    simpa [json, object, string, Json.depth, fieldsDepth] using hpy
  have hpayload : PyStr.ofString (CallBridge.frame sid ulaw).payload = (Base64.encode ulaw).map Char.toNat := by
    simp [CallBridge.frame, PyStr.ofString]
  rw [play, text, loads_dumps_plain spaced hplain hdepth]
  simp [json, item_object, List.lookup_cons, string, asStr, Except.toOption]
  exact ⟨rfl, by rw [hpayload, Base64.b64decode_encode]⟩

end MediaMessage

/-! ## What Twilio says -/

/-- A message of a stream; `customParameters` are those of its `<Stream>`. -/
inductive StreamMessage where
  | connected
  | start (streamSid callSid : String) (customParameters : List (String × String))
  | media (payload : List UInt8)
  | mark
  | stop

namespace StreamMessage

def event : StreamMessage → String
  | .connected => "connected"
  | .start .. => "start"
  | .media _ => "media"
  | .mark => "mark"
  | .stop => "stop"

/-- What the handlers read of a message, under its event's name; `inner` stands beside it. -/
def body (inner : List (String × Json)) : StreamMessage → List (String × Json)
  | .start streamSid callSid customParameters =>
    [("start", object (("streamSid", string streamSid) :: ("callSid", string callSid) ::
      ("customParameters", object (customParameters.map fun p => (p.1, string p.2))) :: inner))]
  | .media payload => [("media", object (("payload", string (String.ofList (Base64.encode payload))) :: inner))]
  | .connected | .mark | .stop => []

def json (m : StreamMessage) (inner rest : List (String × Json)) : Json :=
  object (("event", string m.event) :: (m.body inner ++ rest))

/-- With what else is in it, `json.loads` takes it, and it says everything once. -/
def Says (py : Interpreter) (m : StreamMessage) (inner rest : List (String × Json)) : Prop :=
  Plain py (m.json inner rest) ∧ (m.json inner rest).depth ≤ py.maxDepth

end StreamMessage

/-! ## The handlers -/

/-- `v or ""` of a field that is a string, if anything. -/
def orEmpty : Option Json → Option String
  | none => some ""
  | some v => if v.falsy then some "" else v.asStr.map (·.text)

/-- The fields of a `start` (media.py:231-236). A `start` or parameters that are no dict raise. -/
def Start.read (start : Json) : Option Start := do
  let params ← start.dictGet "customParameters" .null
  let params := if params.falsy then .obj [] else params
  let role ← params.dictGet "role" (string "agent")
  let groupParam ← orEmpty (params.item "group")
  let callSid ← orEmpty (start.item "callSid")
  let streamSid ← orEmpty (start.item "streamSid")
  return { groupParam, callSid, streamSid, role := if role.asStr = some (.ofString "user") then .user else .agent }

/-- `base64.b64decode(msg["media"]["payload"])` (media.py:179, media.py:280). -/
def readPayload (msg : Json) : Option (List UInt8) := do
  let payload ← (← (← msg.item "media").item "payload").asStr
  Base64.b64decode payload

namespace App

/-- One text in the receive loop of either handler (media.py:177-182, media.py:227-287). What raises ends the handler
as a disconnect does; before its `start` an agent's handler passes audio over, and a user's any `start` after it. -/
def receive (py : Interpreter) (a : App) (k : Nat) (text : String) (ticks : List Tick) : App :=
  let s := a.sockets k
  match (loads py text).toOption.bind fun msg => (msg.dictGet "event" .null).map (msg, ·) with
  | some (msg, event) =>
    if event.asStr = some (.ofString "start") then
      if s.role = .user ∧ s.phase ≠ .idle then a
      else match (msg.dictGet "start" (.obj [])).bind Start.read with
        | some m => a.start k m
        | none => a.close k false
    else if event.asStr = some (.ofString "media") then
      if s.bridge = none then a
      else match readPayload msg with
        | some payload => a.media k payload ticks
        | none => a.close k false
    else if event.asStr = some (.ofString "stop") then a.close k true
    else a
  | none => a.close k false

end App

/-- The `start` of a stream with these parameters. -/
def Start.of (streamSid callSid : String) (customParameters : List (String × String)) : Start where
  groupParam := (customParameters.lookup "group").getD ""
  role := if customParameters.lookup "role" = some "user" then .user else .agent
  callSid := callSid
  streamSid := streamSid

namespace StreamMessage

/-- What a message is to the registry, said on socket `k`. -/
def action (k : Nat) (ticks : List Tick) : StreamMessage → Option App.Action
  | .start streamSid callSid customParameters => some (.start k (.of streamSid callSid customParameters))
  | .media payload => some (.media k payload ticks)
  | .stop => some (.close k true)
  | .connected | .mark => none

end StreamMessage

theorem orEmpty_string (s : String) : orEmpty (some (string s)) = some s := by
  by_cases hs : s = ""
  · subst hs
    rfl
  · have hne : PyStr.ofString s ≠ [] := by simpa [PyStr.ofString] using hs
    have hfalsy : (string s).falsy = false := by
      rw [string]
      cases h : PyStr.ofString s with
      | nil => exact absurd h hne
      | cons c cs => rfl
    rw [orEmpty, hfalsy]
    simp [string, asStr, PyStr.text_ofString]

theorem orEmpty_map_string (s : Option String) : orEmpty (s.map string) = some (s.getD "") := by
  cases s with
  | none => rfl
  | some s => exact orEmpty_string s

theorem lookup_map_string (fields : List (String × String)) (key : String) :
    (fields.map fun p => (p.1, string p.2)).lookup key = (fields.lookup key).map string := by
  induction fields with
  | nil => rfl
  | cons p fields ih =>
    rw [List.map_cons, List.lookup_cons, List.lookup_cons, ih]
    cases key == p.1 <;> rfl

/-- The parameters are read as they are, none of them too. -/
theorem parameters_falsy (fields : List (String × Json)) :
    (if (object fields).falsy then .obj [] else object fields) = object fields := by
  cases fields with
  | nil => rfl
  | cons p fields => rfl

theorem Start.read_object (streamSid callSid : String) (params : List (String × String)) (inner : List (String × Json)) :
    Start.read (object (("streamSid", string streamSid) :: ("callSid", string callSid) ::
      ("customParameters", object (params.map fun p => (p.1, string p.2))) :: inner)) =
      some (.of streamSid callSid params) := by
  have hrole : ((((params.lookup "role").map string).getD (string "agent")).asStr = some (.ofString "user")) ↔
      params.lookup "role" = some "user" := by
    cases params.lookup "role" with
    | none => simp [string, asStr, PyStr.ofString_injective.eq_iff]
    | some r => simp [string, asStr, PyStr.ofString_injective.eq_iff]
  simp only [Start.read, dictGet_object, item_object, List.lookup_cons, orEmpty_string, Option.bind_eq_bind,
    Option.bind_some, beq_self_eq_true]
  simp [orEmpty_string]
  rw [parameters_falsy]
  simp only [dictGet_object, item_object, lookup_map_string, orEmpty_map_string, hrole, Option.bind_some]
  rfl

theorem readPayload_json (payload : List UInt8) (inner rest : List (String × Json)) :
    readPayload ((StreamMessage.media payload).json inner rest) = some payload := by
  have hpayload : PyStr.ofString (String.ofList (Base64.encode payload)) = (Base64.encode payload).map Char.toNat := by
    simp [PyStr.ofString]
  simp [readPayload, StreamMessage.json, StreamMessage.body, item_object, List.lookup_cons, string, asStr, hpayload,
    Base64.b64decode_encode]

theorem read_json (streamSid callSid : String) (params : List (String × String)) (inner rest : List (String × Json)) :
    (((StreamMessage.start streamSid callSid params).json inner rest).dictGet "start" (.obj [])).bind Start.read =
      some (.of streamSid callSid params) := by
  simp [StreamMessage.json, StreamMessage.body, dictGet_object, List.lookup_cons, Start.read_object]

/-- **`receive_message`**: a message does to the registry what it says, whatever else it holds and however it is spaced. -/
theorem App.receive_message {py : Interpreter} (seps : Separators) {m : StreamMessage}
    {inner rest : List (String × Json)}
    (h : m.Says py inner rest) (a : App) (k : Nat) (ticks : List Tick) :
    a.receive py k (dumps seps (m.json inner rest)) ticks = (m.action k ticks).elim a a.step := by
  have hevent : ∀ e e' : String, (string e).asStr = some (.ofString e') ↔ e = e' := by
    simp [string, asStr, PyStr.ofString_injective.eq_iff]
  have hmsg : ((loads py (dumps seps (m.json inner rest))).toOption.bind
      fun msg => (msg.dictGet "event" .null).map (msg, ·)) = some (m.json inner rest, string m.event) := by
    rw [loads_dumps_plain seps h.1 h.2]
    simp [Except.toOption, StreamMessage.json, dictGet_object]
  rw [receive, hmsg]
  simp only [hevent]
  cases m with
  | connected | mark | stop => simp [StreamMessage.event, StreamMessage.action, step]
  | start streamSid callSid params =>
    have hs : (StreamMessage.start streamSid callSid params).event = "start" := rfl
    rw [if_pos hs, read_json]
    by_cases huser : (a.sockets k).role = .user ∧ (a.sockets k).phase ≠ .idle
    · rw [if_pos huser, StreamMessage.action, Option.elim_some, step, start, if_pos huser.2]
    · rw [if_neg huser]
      rfl
  | media payload =>
    have hm : (StreamMessage.media payload).event = "media" := rfl
    rw [hm, if_neg (by decide), if_pos rfl, readPayload_json]
    by_cases hb : (a.sockets k).bridge = none
    · rw [if_pos hb, StreamMessage.action, Option.elim_some, step, media, hb]
      cases (a.sockets k).phase <;> rfl
    · rw [if_neg hb]
      rfl

/-! ## Runs -/

/-- A message as it comes: on which socket, in which words, and what the ticks it completes are answered. -/
structure Said where
  socket : Nat
  message : StreamMessage
  inner : List (String × Json) := []
  rest : List (String × Json) := []
  seps : Separators := compact
  ticks : List Tick := []

def Said.text (x : Said) : String := dumps x.seps (x.message.json x.inner x.rest)

/-- A text on a socket, or anything else that happens to the registry. -/
inductive Input where
  | said (x : Said)
  | act (x : App.Action)

/-- What is meant by it. -/
def Input.action : Input → Option App.Action
  | .said x => x.message.action x.socket x.ticks
  | .act x => some x

namespace App

def take (py : Interpreter) (a : App) : Input → App
  | .said x => a.receive py x.socket x.text x.ticks
  | .act x => a.step x

/-- **`receives`**: the server that is sent texts does as the one that is told what they mean, over every run, in
whatever order they come, on whichever sockets, and among whatever else happens. -/
theorem receives (py : Interpreter) (xs : List Input)
    (h : ∀ x ∈ xs, ∀ m, x = .said m → m.message.Says py m.inner m.rest) (a : App) :
    Run.exec (take py) a xs = Run.exec step a (xs.filterMap Input.action) := by
  induction xs generalizing a with
  | nil => rfl
  | cons x xs ih =>
    have hx : take py a x = x.action.elim a a.step := by
      cases x with
      | said m => exact receive_message m.seps (h _ List.mem_cons_self m rfl) a m.socket m.ticks
      | act x => rfl
    rw [Run.exec_cons, hx, ih (fun y hy => h y (List.mem_cons_of_mem _ hy))]
    cases ha : x.action with
    | none => rw [List.filterMap_cons_none ha, Option.elim_none]
    | some y => rw [List.filterMap_cons_some ha, Run.exec_cons, Option.elim_some]

/-- A call in its own words, spaced and unspaced, with the registry's reaper among them. -/
def spokenCall : List Input :=
  [.said { socket := 0, message := .connected, rest := [("protocol", string "Call")] },
   .said { socket := 0, message := .start "MZ1" "CA1" [("group", "g")], inner := [("accountSid", string "AC1")] },
   .said { socket := 0, message := .media [0xFF], seps := spaced },
   .act .reap,
   .said { socket := 0, message := .stop, rest := [("streamSid", string "MZ1")] }]

theorem spokenCall_receives :
    let py := { maxDepth := 3, maxRepr := 3 }
    let a := App.new {} "" "https://dialpass.test" true
    Run.exec (take py) a spokenCall = Run.exec step a
      [.start 0 { groupParam := "g", callSid := "CA1", streamSid := "MZ1" }, .media 0 [0xFF] [], .reap, .close 0 true] := by
  intro py a
  have hparams : Plain py (object [("group", string "g")]) := object_plain (by simp) (by simp [string_plain])
  have hstart : Plain py (object [("streamSid", string "MZ1"), ("callSid", string "CA1"),
      ("customParameters", object [("group", string "g")]), ("accountSid", string "AC1")]) :=
    object_plain (by simp) (by simp [string_plain, hparams])
  have hmedia : Plain py (object [("payload", string (String.ofList (Base64.encode [0xFF])))]) :=
    object_plain (by simp) (by simp [string_plain])
  refine receives py spokenCall (fun x hx m hm => ?_) a
  subst hm
  simp only [spokenCall, List.mem_cons, List.not_mem_nil, or_false, Input.said.injEq, reduceCtorEq, false_or] at hx
  rcases hx with rfl | rfl | rfl | rfl
  · exact ⟨object_plain (by simp [StreamMessage.body]) (by simp [StreamMessage.body, string_plain]), by decide +kernel⟩
  · exact ⟨object_plain (by simp [StreamMessage.body]) (by simpa [StreamMessage.body, string_plain] using hstart),
      by decide +kernel⟩
  · exact ⟨object_plain (by simp [StreamMessage.body]) (by simpa [StreamMessage.body, string_plain] using hmedia),
      by decide +kernel⟩
  · exact ⟨object_plain (by simp [StreamMessage.body]) (by simp [StreamMessage.body, string_plain]), by decide +kernel⟩

end App

end DialPass
