import DialPass.Media.Socket
import DialPass.Realtime.Hearing
/-!
# The two spoken exchanges (realtime/stream.py:34-56, stream.py:68-142, stream.py:174-234)

`probe_told` is what the service knows at any moment of a probe: the frames of the line since the probe began, from
the first one on and in order, as many as the feeder has sent. If it is asked to judge, it is asked about all of
them. `holdingLine` is the other way round: what goes out to the leg is what the service streams up to the end of its
response, in frames of at most 20 ms.
-/

namespace DialPass

open Service

/-! ## The probe -/

/-- `_PROBE_SYSTEM` (stream.py:34). -/
def probeSystem : String :=
  "You screen a phone line for a call-routing system. You never hold a " ++
    "conversation. You do two things only, when told to: (1) say one short " ++
    "greeting out loud; (2) classify a few seconds of what the line said back. " ++
    "The classification is exactly one line: 'VERDICT HUMAN' if a live person is " ++
    "speaking to you (a greeting, a question, asking who is calling), or " ++
    "'VERDICT NOT HUMAN' for silence, hold music, ringing, tones, beeps, or a " ++
    "recorded message / IVR menu."

/-- `_GREETING` (stream.py:43). -/
def probeGreeting : String :=
  "Say just this, calmly, and nothing else: " ++
    "\"Hi, this is an assistant calling — is someone there?\""

/-- What is sent before `feed` is a task (stream.py:88-113). -/
def probeOpening : List ClientEvent :=
  [.sessionUpdate probeSystem "audio" ⟨true, true⟩, .createResponse none (some probeGreeting)]

/-- A message of the feeder's; it names one modality (stream.py:137). -/
def FeedMessage.event : FeedMessage → ClientEvent
  | .append audio => .append audio
  | .commit => .commit
  | .createResponse outputModalities instructions => .createResponse outputModalities.head? (some instructions)

namespace ProbeFeed

/-- All that has been sent on the socket. -/
def events (s : ProbeFeed) : List ClientEvent := probeOpening ++ s.wire.map (·.event)

/-- The frames of `on_agent_audio`. -/
def arrived (acts : List FeedAct) : List (List UInt8) := acts.filterMap fun | .arrive frame => some frame | _ => none

/-- The service while it is being fed. -/
def listening (sent : List Arrival) : Service where
  instructions := .ofString probeSystem
  outputModality := .ofString "audio"
  audioIn := true
  audioOut := true
  input := (sent.map (·.frame)).flatten
  asked := [⟨none, some (.ofString probeGreeting), []⟩]

def heardOut (sent : List Arrival) : Service :=
  { listening [] with committed := [(sent.map (·.frame)).flatten] }

def judging (sent : List Arrival) : Service :=
  { heardOut sent with
    asked := [⟨none, some (.ofString probeGreeting), []⟩,
      ⟨some (.ofString "text"), some (.ofString judgeInstructions), [(sent.map (·.frame)).flatten]⟩] }

/-- What has been sent tells the service so much. -/
def Tells (s : ProbeFeed) (t : Service) : Prop := s.events.foldlM told {} = some t

structure Told (s : ProbeFeed) : Prop where
  feeding : s.phase ≠ .asking → s.phase ≠ .over → s.Tells (listening s.sent)
  asking : s.phase = .asking → s.Tells (heardOut s.sent)
  ended : s.phase = .over → ∃ t ∈ [listening s.sent, heardOut s.sent, judging s.sent], s.Tells t

theorem Tells.more {s s' : ProbeFeed} {t t' : Service} (h : s.Tells t) (m : FeedMessage)
    (hwire : s'.wire = s.wire ++ [m]) (hm : t.told m.event = some t') : s'.Tells t' := by
  have hevents : s'.events = s.events ++ [m.event] := by simp [events, hwire]
  unfold Tells at h ⊢
  rw [hevents, List.foldlM_append, h, Option.bind_eq_bind, Option.bind_some, List.foldlM_cons, hm]
  rfl

theorem Tells.same {s s' : ProbeFeed} {t : Service} (h : s.Tells t) (hwire : s'.wire = s.wire) : s'.Tells t := by
  unfold Tells events at h ⊢
  rwa [hwire]

theorem listening_append (sent : List Arrival) (a : Arrival) :
    (listening sent).told (FeedMessage.append (String.ofList (Base64.encode a.frame))).event =
      some (listening (sent ++ [a])) := by
  rw [FeedMessage.event, ← appendBytes, told_appendBytes, listening, listening]
  simp

theorem step_told (s : ProbeFeed) (act : FeedAct) (h : Told s) : Told (s.step act) := by
  cases act with
  | arrive frame | pass dt =>
    exact ⟨fun h1 h2 => (h.feeding h1 h2).same rfl, fun h1 => (h.asking h1).same rfl, fun h1 => h.ended h1⟩
  | create =>
    rw [step]
    split
    · rename_i hc
      have ht := h.feeding (by simp [hc]) (by simp [hc])
      exact ⟨fun _ _ => ht.same rfl, fun h1 => (by cases h1), fun h1 => by cases h1⟩
    · exact h
  | wake =>
    rw [step]
    split
    · rename_i hw
      have hphase : s.phase ≠ .asking ∧ s.phase ≠ .over := by
        unfold wakes at hw
        cases hp : s.phase <;> simp_all
      exact ⟨fun _ _ => (h.feeding hphase.1 hphase.2).same rfl, fun h1 => (by cases h1), fun h1 => by cases h1⟩
    · exact h
  | send =>
    rw [step]
    split
    · rename_i a rest hq
      split
      · rename_i hc
        have ht := h.feeding (by simp [hc.1]) (by simp [hc.1])
        exact ⟨fun _ _ => ht.more _ rfl (listening_append s.sent a), fun h1 => by simp [hc.1] at h1,
          fun h1 => by simp [hc.1] at h1⟩
      · exact h
    · exact h
  | commit =>
    rw [step]
    split
    · rename_i hc
      have ht := h.feeding (by simp [hc.1]) (by simp [hc.1])
      refine ⟨fun h1 => absurd rfl h1, fun _ => ht.more .commit rfl ?_, fun h1 => by cases h1⟩
      rw [FeedMessage.event, told, heardOut, listening, listening]
      simp
    · exact h
  | ask =>
    rw [step]
    split
    · rename_i hc
      refine ⟨fun _ h2 => absurd rfl h2, fun h1 => (by cases h1), fun _ => ⟨judging s.sent, by simp, ?_⟩⟩
      refine (h.asking hc).more _ rfl ?_
      rw [FeedMessage.event, told, judging, heardOut, listening]
      simp
    · exact h
  | cancel =>
    refine ⟨fun _ h2 => absurd rfl h2, fun h1 => (by cases h1), fun _ => ?_⟩
    by_cases hover : s.phase = .over
    · exact h.ended hover
    · by_cases hask : s.phase = .asking
      · exact ⟨heardOut s.sent, by simp [step], (h.asking hask).same rfl⟩
      · exact ⟨listening s.sent, by simp [step], (h.feeding hask hover).same rfl⟩

theorem new_told (listenS : ℚ) : Told { listenS } := by
  refine ⟨fun _ _ => ?_, nofun, nofun⟩
  unfold Tells events probeOpening listening
  generalize probeSystem = instructions
  generalize probeGreeting = greeting
  rfl

/-- What has come and gone is what arrived, in order. -/
theorem exec_frames (acts : List FeedAct) (s : ProbeFeed) :
    let t := Run.exec step s acts
    t.sent.map (·.frame) ++ t.inbound.map (·.frame) =
      s.sent.map (·.frame) ++ s.inbound.map (·.frame) ++ arrived acts := by
  induction acts generalizing s with
  | nil => simp [arrived]
  | cons act acts ih =>
    have hstep : (s.step act).sent.map (·.frame) ++ (s.step act).inbound.map (·.frame) =
        s.sent.map (·.frame) ++ s.inbound.map (·.frame) ++ arrived [act] := by
      cases act with
      | send =>
        rw [step]
        split
        · rename_i a rest hq
          split <;> simp [arrived, hq]
        · simp [arrived]
      | arrive frame => simp [step, arrived]
      | create | wake | commit | ask =>
        rw [step]
        split <;> simp [arrived]
      | pass dt | cancel => simp [step, arrived]
    have harr : arrived (act :: acts) = arrived [act] ++ arrived acts := by
      rw [arrived, arrived, arrived, ← List.filterMap_append]
      rfl
    rw [harr, ← List.append_assoc, ← hstep]
    exact ih (s.step act)

/-- **`probe_told`**: at any moment of any schedule of the probe, the service has the first of the frames that came
since it began, all that are no longer queued; the judgement it may have been asked for is about all it has. -/
theorem probe_told (py : Interpreter) (hpy : 5 ≤ py.maxDepth) (listenS : ℚ) (acts : List FeedAct) :
    let s := Run.exec step { listenS } acts
    s.sent.map (·.frame) ++ s.inbound.map (·.frame) = arrived acts ∧
      ∃ t ∈ [listening s.sent, heardOut s.sent, judging s.sent],
        (s.events.map (·.text)).foldlM (hear py) {} = some t := by
  intro s
  have h : Told s := Run.exec_inv step_told acts _ (new_told listenS)
  refine ⟨by simpa using exec_frames acts { listenS }, ?_⟩
  rw [hear_texts hpy]
  by_cases hover : s.phase = .over
  · exact h.ended hover
  · by_cases hask : s.phase = .asking
    · exact ⟨_, by simp, h.asking hask⟩
    · exact ⟨_, by simp, h.feeding hask hover⟩

/-- A frame that was waiting and one that came in time, and the model is asked about both. -/
theorem probe_told_twoFrames :
    let s := Run.exec step { listenS := 1 / 4000 } [.arrive [7], .create, .pass 2, .wake, .arrive [8], .send, .send,
      .commit, .ask]
    s.wire.length = 4 ∧ s.inbound = [] ∧ s.sent.map (·.frame) ++ s.inbound.map (·.frame) = [[7], [8]] ∧
      ∃ t ∈ [listening s.sent, heardOut s.sent, judging s.sent],
        (s.events.map (·.text)).foldlM (hear { maxDepth := 5, maxRepr := 5 }) {} = some t := by
  intro s
  have h := probe_told { maxDepth := 5, maxRepr := 5 } le_rfl (1 / 4000)
    [.arrive [7], .create, .pass 2, .wake, .arrive [8], .send, .send, .commit, .ask]
  exact ⟨by decide +kernel, by decide +kernel, h.1, h.2⟩

end ProbeFeed

/-! ## The holding line -/

/-- `_SPEAK_SYSTEM` (stream.py:174). -/
def speakSystem : String :=
  "You are a text-to-speech voice for a call-routing assistant. When told to " ++
    "say something, say exactly that once, calmly and naturally, then stop. " ++
    "Never add words of your own and never wait for a reply."

/-- What `speak_exchange` sends (stream.py:199-222). -/
def speakEvents (text : String) : List ClientEvent :=
  [.sessionUpdate speakSystem "audio" ⟨false, true⟩,
    .createResponse none (some ("Say exactly this, once: \"" ++ text ++ "\""))]

/-- An event of its socket, by its `type` (stream.py:223-232). An audio delta is given decoded. -/
inductive SpeakEvent where
  | outputAudioDelta (delta : List UInt8)
  | responseDone
  | outputAudioDone
  | error
  | other

/-- The event ends the loop (stream.py:228-232). -/
def SpeakEvent.ends : SpeakEvent → Bool
  | .responseDone | .outputAudioDone | .error => true
  | .outputAudioDelta _ | .other => false

/-- What the loop of `speak_exchange` plays of the events that come in time (stream.py:223-232). -/
def speakExchange : List SpeakEvent → List Pcm
  | [] => []
  | .outputAudioDelta delta :: events => ulawToPcm16 delta :: speakExchange events
  | .responseDone :: _ | .outputAudioDone :: _ | .error :: _ => []
  | .other :: events => speakExchange events

/-- An event's audio. -/
def SpeakEvent.delta : SpeakEvent → List UInt8
  | .outputAudioDelta delta => delta
  | _ => []

/-- The speech the service streams up to the end of its response. -/
def speech (events : List SpeakEvent) : List UInt8 := (events.takeWhile fun e => !e.ends).flatMap (·.delta)

theorem speakExchange_speech (events : List SpeakEvent) :
    (speakExchange events).flatMap pcm16ToUlaw = (speech events).map idleByte := by
  have hdelta : ∀ delta rest, speech (.outputAudioDelta delta :: rest) = delta ++ speech rest := fun _ _ => rfl
  have hother : ∀ rest, speech (.other :: rest) = speech rest := fun _ => rfl
  induction events with
  | nil => rfl
  | cons e events ih =>
    cases e with
    | outputAudioDelta delta =>
      rw [speakExchange, List.flatMap_cons, ih, pcm16ToUlaw_ulawToPcm16, hdelta, List.map_append]
    | responseDone | outputAudioDone | error => rfl
    | other => rw [speakExchange, ih, hother]

namespace CallBridge

theorem beginHandoff_agentStreamSid (br : CallBridge) (apiKey : String) :
    (br.beginHandoff apiKey).1.agentStreamSid = br.agentStreamSid := by
  rcases br.beginHandoff_cases apiKey with ⟨-, h⟩ | ⟨-, -, h⟩ | ⟨-, -, h⟩ | ⟨-, -, h⟩ <;> rw [h]

theorem hook_agentStreamSid (apiKey : String) (now : ℚ) (br : CallBridge) (e : Effect) :
    (br.hook apiKey now e).agentStreamSid = br.agentStreamSid := by
  cases e with
  | dtmfSender digits =>
    rw [hook]
    rcases br.pressDtmf_cases digits now with h | ⟨keys, h⟩ <;> rw [h]
  | onBridge => exact br.beginHandoff_agentStreamSid apiKey
  | _ => rfl

theorem onAgentAudio_agentStreamSid (br : CallBridge) (apiKey : String) (now : ℚ) (ulaw : List UInt8)
    (ticks : List Tick) : (br.onAgentAudio apiKey now ulaw ticks).agentStreamSid = br.agentStreamSid := by
  have hhooks : ∀ (es : List Effect) (t : CallBridge),
      (es.foldl (hook apiKey now) t).agentStreamSid = t.agentStreamSid := by
    intro es
    induction es with
    | nil => exact fun t => rfl
    | cons e es ih => exact fun t => (ih _).trans (hook_agentStreamSid apiKey now t e)
  obtain ⟨p, o, he⟩ := br.relayAgentAudio_eq ulaw
  unfold onAgentAudio
  dsimp only
  rw [he]
  split
  · rfl
  · exact hhooks _ _

end CallBridge

namespace Hub

open CallBridge

variable {apiKey : String}

/-- What a call plays to the agent. -/
def plays : Call → List Pcm
  | .playToAgent pcm => [pcm]
  | _ => []

/-- The frames it is cut into. -/
def frames (c : Call) : List (List UInt8) := (plays c).flatMap fun pcm => chunks frameBytes (pcm16ToUlaw pcm)

/-- Drained to the agent or still queued. -/
def forStream (h : Hub) : List MediaMessage := h.toAgent ++ h.bridge.outboundAgent

theorem step_agentStreamSid {h : Hub} {c : Call} (hc : ∀ sid loop, c ≠ .bindAgent sid loop) :
    (step apiKey h c).bridge.agentStreamSid = h.bridge.agentStreamSid := by
  cases c with
  | bindAgent sid loop => exact absurd rfl (hc sid loop)
  | onAgentAudio ulaw ticks now => exact h.bridge.onAgentAudio_agentStreamSid apiKey now ulaw ticks
  | onUserAudio ulaw =>
    obtain ⟨o, he⟩ := h.bridge.onUserAudio_eq ulaw
    rw [step, he]
  | playToAgent pcm =>
    obtain ⟨o, he⟩ := h.bridge.playToAgent_eq pcm
    rw [step, he]
  | beginHandoff => exact h.bridge.beginHandoff_agentStreamSid apiKey
  | bindUser | drainAgent | drainUser => rfl

/-- Until the relay opens, the stream gets the frames of what is played, and only those. -/
theorem step_forStream {h : Hub} {c : Call} {sid : String} (hsid : h.bridge.agentStreamSid = some sid)
    (hc : (step apiKey h c).bridge.relayOpen = false) :
    (step apiKey h c).forStream = h.forStream ++ (frames c).map (frame sid) := by
  have hclosed := step_closed h c hc
  cases c with
  | onAgentAudio ulaw ticks now =>
    have hq := (h.bridge.onAgentAudio_queues apiKey now ulaw ticks).outboundAgent
    have hrel : (h.bridge.relayAgentAudio ulaw).outboundAgent = h.bridge.outboundAgent := by
      unfold relayAgentAudio
      dsimp only
      split <;> rfl
    simp [forStream, step, hq, hrel, frames, plays]
  | onUserAudio ulaw => simp [forStream, step, onUserAudio, hclosed, frames, plays]
  | playToAgent pcm => simp [forStream, step, playToAgent, hsid, frames, plays]
  | beginHandoff =>
    have hq := (h.bridge.beginHandoff_queues apiKey).outboundAgent
    simp [forStream, step, hq, frames, plays]
  | _ => simp [forStream, step, bindAgent, bindUser, drainAgent, drainUser, frames, plays]

theorem mapM_play {py : Interpreter} (hpy : 2 ≤ py.maxDepth) (sid : String) (fs : List (List UInt8)) :
    ((fs.map (frame sid)).mapM fun m => MediaMessage.play py sid m.text) = some fs := by
  induction fs with
  | nil => rfl
  | cons f fs ih =>
    rw [List.map_cons, List.mapM_cons, MediaMessage.play_text hpy, ih]
    rfl

theorem flatten_frames (cs : List Call) : (cs.flatMap frames).flatten = (cs.flatMap plays).flatMap pcm16ToUlaw := by
  induction cs with
  | nil => rfl
  | cons c cs ih =>
    rw [List.flatMap_cons, List.flatten_append, ih, List.flatMap_cons, List.flatMap_append]
    congr 1
    cases c <;> simp [frames, plays, flatten_chunks (n := frameBytes) (by decide)]

end Hub

/-- What the service has been told when it is asked to speak. -/
def speakAsked (text : String) : Service where
  instructions := .ofString speakSystem
  outputModality := .ofString "audio"
  audioOut := true
  asked := [⟨none, some (.ofString ("Say exactly this, once: \"" ++ text ++ "\"")), []⟩]

theorem hear_speak {py : Interpreter} (hpy : 5 ≤ py.maxDepth) (text : String) :
    ((speakEvents text).map (·.text)).foldlM (hear py) {} = some (speakAsked text) := by
  rw [hear_texts hpy, speakEvents, speakAsked]
  generalize speakSystem = instructions
  generalize "Say exactly this, once: \"" ++ text ++ "\"" = line
  rfl

open Hub CallBridge in
/-- **`holdingLine`**: the service is asked to say the line, and told to keep its ears shut. Over calls of the bridge
that bind no other agent stream, play what the exchange plays and nothing else, and leave the relay closed, what the
service then says, up to the end of its response, is what has been drained to the agent's stream or is queued for it,
as texts of at most 20 ms each; 0x7F goes out as 0xFF. -/
theorem holdingLine (py : Interpreter) (hpy : 5 ≤ py.maxDepth) (apiKey text sid : String) (events : List SpeakEvent)
    (h : Hub) (cs : List Call) (hsid : h.bridge.agentStreamSid = some sid) (hbind : ∀ s loop, .bindAgent s loop ∉ cs)
    (hplays : cs.flatMap plays = speakExchange events)
    (hclosed : (Run.exec (step apiKey) h cs).bridge.relayOpen = false) :
    ((speakEvents text).map (·.text)).foldlM (hear py) {} = some (speakAsked text) ∧
    ∃ ms pieces, (Run.exec (step apiKey) h cs).forStream = h.forStream ++ ms ∧
      (ms.mapM fun m => MediaMessage.play py sid m.text) = some pieces ∧
      pieces.flatten = (speech events).map idleByte ∧ ∀ p ∈ pieces, p.length ≤ frameBytes := by
  refine ⟨hear_speak hpy text, (cs.flatMap frames).map (frame sid), cs.flatMap frames, ?_, ?_, ?_, ?_⟩
  · obtain ⟨hc, -⟩ := Run.along_of_back (P := fun t : Hub => t.bridge.relayOpen = false)
      (fun t c (hc : (step apiKey t c).bridge.relayOpen = false) => step_closed t c hc) cs h hclosed
    have halong := Run.along_and_forall (D := fun c => ∀ s loop, c ≠ .bindAgent s loop) cs h hc
      fun c hc s loop he => hbind s loop (he ▸ hc)
    have hspec := Run.outputs_spec_along forStream (fun _ => frames) (f := frame sid)
      (I := fun t : Hub => t.bridge.agentStreamSid = some sid)
      (fun t c hc ht => (step_agentStreamSid hc.2).trans ht) (fun t c hc ht => step_forStream ht hc.1) cs h halong hsid
    rwa [Run.outputs_inputs] at hspec
  · exact mapM_play (by omega) sid _
  · rw [flatten_frames, hplays, speakExchange_speech]
  · intro p hp
    obtain ⟨c, -, hp⟩ := List.mem_flatMap.1 hp
    obtain ⟨pcm, -, hp⟩ := List.mem_flatMap.1 hp
    exact chunks_length_le _ _ p hp

/-- Two deltas, a drain between them, and a word of the user's that is not for the agent yet. -/
theorem holdingLine_twoDeltas :
    let events := [.outputAudioDelta [0x00, 0x7F], .other, .outputAudioDelta [0x10], .responseDone]
    let h : Hub := { bridge := { groupId := "g", session := .new "CA" {} {} none none, agentStreamSid := some "MZ" } }
    let cs := [.playToAgent (ulawToPcm16 [0x00, 0x7F]), .drainAgent, .onUserAudio [1], .playToAgent (ulawToPcm16 [0x10])]
    let py := { maxDepth := 5, maxRepr := 5 }
    speech events = [0x00, 0x7F, 0x10] ∧
    ((speakEvents "One moment.").map (·.text)).foldlM (hear py) {} = some (speakAsked "One moment.") ∧
    ∃ ms pieces, (Run.exec (Hub.step "sk") h cs).forStream = h.forStream ++ ms ∧
      (ms.mapM fun m => MediaMessage.play py "MZ" m.text) = some pieces ∧
      pieces.flatten = [0x00, 0xFF, 0x10] ∧ ∀ p ∈ pieces, p.length ≤ CallBridge.frameBytes := by
  intro events h cs py
  have hline := holdingLine py le_rfl "sk" "One moment." "MZ" events h cs rfl (by simp [cs]) rfl
    (by decide +kernel)
  have hsaid : (speech events).map idleByte = [0x00, 0xFF, 0x10] := by decide +kernel
  rw [hsaid] at hline
  exact ⟨rfl, hline⟩

end DialPass
