import DialPass.Bridge
import DialPass.Fallback
import DialPass.Lib.Dict
import DialPass.Lib.Run
/-!
# The media registry (api/media.py, api/calls.py, main.py)

`App` is `app.state` with everything that runs beside it: the call bridges, one handler per socket,
the worker threads of `create_call` and the redirect threads of `press_dtmf`. `step` takes one piece of
code that runs without an `await` (on the event loop), or one access of a worker thread to the registry;
which comes next, how long things take and what Twilio answers is up to the environment.

`dict`s are `Dict`s. Bridges are objects that handlers and threads hold on to after the registry has
dropped them, so they live on a `heap` and are named by their address. What is asked of Twilio is
appended to `log`.

Conventions of the environment, kept by `step` as guards: a stream opens with one `start` (Twilio sends
no second one on a socket), a `create_call` never draws a group id that is in use (they are UUIDs), and
the monotonic clock does not run backwards. Frames the handlers cannot parse end them like a disconnect.
-/

namespace DialPass

/-- calls.py:24; `Field(min_length=3)` rejects shorter numbers. -/
structure CallRequest where
  businessNumber : String
  userNumber : String
  goal : Option String := none
  business_long : 3 ≤ businessNumber.length
  user_long : 3 ≤ userNumber.length

/-- calls.py:63 -/
structure CallMeta where
  businessNumber : String
  redials : Nat
deriving DecidableEq, Repr

/-- A request to Twilio (telephony/twilio_client.py); `sendSms` also keeps the group it was sent for. -/
inductive Twilio where
  | placeOutboundCall (toNumber url group : String)
  | ringUser (userNumber url group : String)
  | sendSms (group toNumber body : String)
  | pressDigits (callSid digits reconnectUrl : String)
  | hangUp (callSid : String)
deriving DecidableEq, Repr

/-- What is left to do of a `create_call` (calls.py:59-77). -/
inductive CreateStep where
  | storeGoal | storeMeta | ringUser | storeLeg | storeNumber | returned
deriving DecidableEq, Repr

/-- A `create_call` under way: its locals and what it does next. -/
structure CreateCall where
  req : CallRequest
  userLeg : Option String := none
  next : CreateStep

/-- A redirect thread (bridge.py:131): the bridge it belongs to and the keys it presses. -/
structure Redirect where
  bridge : Nat
  keys : String
deriving DecidableEq, Repr

/-- `start.customParameters.role` (media.py:234). -/
inductive Role where
  | agent | user
deriving DecidableEq, Repr

/-- Where a socket's handler is: before `start`, a user leg polling for its bridge (media.py:163), in its
receive loop, in its `finally` waiting for the writer, or done. -/
inductive SocketPhase where
  | idle | attaching (tries : Nat) | receiving | closing | closed
deriving DecidableEq, Repr

/-- The locals of `media_stream` and `_serve_user_leg`. -/
structure Socket where
  role : Role := .agent
  phase : SocketPhase := .idle
  group : String := "unknown"
  streamSid : String := ""
  bridge : Option Nat := none
  sawStop : Bool := false
  sent : List MediaMessage := []

/-- `msg["start"]` (media.py:231-236); an absent field is `""`, an absent role `agent`. -/
structure Start where
  groupParam : String := ""
  role : Role := .agent
  callSid : String := ""
  streamSid : String := ""

/-- media.py:233 -/
def Start.group (m : Start) : String :=
  if m.groupParam ≠ "" then m.groupParam else if m.streamSid ≠ "" then m.streamSid else "unknown"

/-- media.py:235 -/
def Start.callId (m : Start) : String := if m.callSid ≠ "" then m.callSid else "unknown"

/-- main.py:88-126 with the handlers, threads and clock; `twilio` says that a client is configured. -/
structure App where
  settings : Settings := {}
  openaiApiKey : String := ""
  publicBaseUrl : String := ""
  twilio : Bool := true
  sessions : Dict String Nat := ∅
  bridges : Dict String Nat := ∅
  pendingGoals : Dict String (Option String) := ∅
  userLegs : Dict String String := ∅
  userNumbers : Dict String String := ∅
  callMeta : Dict String CallMeta := ∅
  heap : Nat → CallBridge := fun _ => default
  fresh : Nat := 0
  sockets : Nat → Socket := fun _ => {}
  creates : Dict String CreateCall := ∅
  redirects : List Redirect := []
  now : ℚ := 0
  log : List Twilio := []

/-- `create_app` (main.py:83) for these settings, before anything connects. -/
def App.new (settings : Settings) (openaiApiKey publicBaseUrl : String) (twilio : Bool) : App :=
  { settings, openaiApiKey, publicBaseUrl, twilio }

/-- media.py:50 -/
def userAttachTries : Nat := 100

/-- media.py:53 -/
def maxRedials : Nat := 2

/-- media.py:54 -/
def reconnectGraceS : ℚ := 20

namespace App

def request (a : App) (t : Twilio) : App := { a with log := a.log ++ [t] }

def setBridge (a : App) (b : Nat) (br : CallBridge) : App := { a with heap := Function.update a.heap b br }

def setSocket (a : App) (k : Nat) (s : Socket) : App := { a with sockets := Function.update a.sockets k s }

/-- `_hang_up` (media.py:58). -/
def hangUp (a : App) (callSid : Option String) : App :=
  match callSid with
  | some sid => if a.twilio = true ∧ sid ≠ "" ∧ sid ≠ "unknown" then a.request (.hangUp sid) else a
  | none => a

/-- `_sms` (media.py:68). -/
def sms (a : App) (group body : String) : App :=
  match a.userNumbers.get group with
  | some number => if a.twilio = true ∧ number ≠ "" then a.request (.sendSms group number body) else a
  | none => a

/-- `_clear_context` (media.py:79). -/
def clearContext (a : App) (group : String) : App :=
  { a with
    pendingGoals := a.pendingGoals.erase group
    userLegs := a.userLegs.erase group
    userNumbers := a.userNumbers.erase group
    callMeta := a.callMeta.erase group }

/-- The fallback text of `_teardown_group`, if it is given a reason (media.py:95). -/
def notify (a : App) (group : String) (reason : Option String) : App :=
  match reason with
  | some r => a.sms group (fallbackMessage r)
  | none => a

/-- The hang-ups of `_teardown_group`, if it is told to (media.py:97). -/
def hangUpLegs (a : App) (session : AgentSession) (hangUp : Bool) : App :=
  if hangUp then (a.hangUp (some session.callId)).hangUp session.userLegSid else a

/-- `_teardown_group` (media.py:89). -/
def teardownGroup (a : App) (group : String) (reason : Option String) (hangUp : Bool) : App :=
  match a.bridges.get group with
  | none => a.clearContext group
  | some b =>
    let br := a.heap b
    let a := { a with bridges := a.bridges.erase group, sessions := a.sessions.erase br.session.callId }
    let a := (a.notify group reason).hangUpLegs br.session hangUp
    (a.setBridge b br.close).clearContext group

/-- media.py:111: a reconnect asked for longer ago than the grace window. -/
def Stale (br : CallBridge) (now : ℚ) : Prop :=
  br.reconnecting = true ∧ ∃ since, br.reconnectSince = some since ∧ reconnectGraceS < now - since

instance (br : CallBridge) (now : ℚ) : Decidable (Stale br now) :=
  inferInstanceAs (Decidable (_ ∧ ∃ _, _))

/-- `reap_stale_bridges` (media.py:104), over a snapshot of the registry; it returns how many it reaped. -/
def reapStaleBridges (a : App) : App × Nat :=
  a.bridges.items.foldl
    (fun (a, reaped) (group, b) =>
      if Stale (a.heap b) a.now then (a.teardownGroup group (some "dropped") true, reaped + 1)
      else (a, reaped))
    (a, 0)

/-- The hooks `_wire_bridge_hooks` and `CallBridge.__init__` leave with a session of bridge `b`
(media.py:150, bridge.py:86), called for one of its effects. -/
def hook (b : Nat) (a : App) (e : Effect) : App :=
  match e with
  | .dtmfSender digits =>
    match (a.heap b).pressDtmf digits a.now with
    | (br, some keys) => { a.setBridge b br with redirects := a.redirects ++ [{ bridge := b, keys }] }
    | (br, none) => a.setBridge b br
  | .onBridge =>
    match (a.heap b).beginHandoff a.openaiApiKey with
    | (br, true) => (a.setBridge b br).sms br.groupId userSms
    | (br, false) => a.setBridge b br
  | .onFail reason => a.teardownGroup (a.heap b).groupId (some reason) true
  | _ => a

/-- The session of bridge `b` has gone on to `s`: its hooks run, in the order it called them. It reads
nothing of what they change before its next chunk, except the answer of `begin_handoff`. -/
def advance (a : App) (b : Nat) (s : AgentSession) : App :=
  (s.trace.drop (a.heap b).session.trace.length).foldl (hook b)
    (a.setBridge b { a.heap b with session := s })

/-- `on_agent_audio` (bridge.py:104): relay the frame and feed the session, answering its `on_bridge`. -/
def onAgentAudio (a : App) (b : Nat) (ulaw : List UInt8) (ticks : List Tick) : App :=
  let a := a.setBridge b ((a.heap b).relayAgentAudio ulaw)
  let br := a.heap b
  if br.session.finished then a
  else a.advance b (br.session.feedAudio (ulawToPcm16 ulaw)
    (ticks.map fun i => { i with onBridge := br.handoffReply }))

/-- `_redial_agent_leg` (media.py:195); `placed` is whether Twilio took the call. -/
def redialAgentLeg (a : App) (group : String) (placed : Bool) : App × Bool :=
  match a.callMeta.get group with
  | none => (a, false)
  | some m =>
    if a.twilio = false ∨ a.publicBaseUrl = "" ∨ maxRedials ≤ m.redials then (a, false)
    else
      let a := { a with callMeta := a.callMeta.set group { m with redials := m.redials + 1 } }
      (a.request (.placeOutboundCall m.businessNumber
        (a.publicBaseUrl ++ "/twiml/voice?group=" ++ group) group), placed)

/-- `_finish_agent_leg` (media.py:300) of a leg that has a bridge. -/
def finishAgentLeg (a : App) (b : Nat) (group : String) (sawStop placed : Bool) : App :=
  let br := a.heap b
  if br.reconnecting then a
  else
    let droppedMidCall := !sawStop && !br.session.finished
    let (a, redialed) := if droppedMidCall then a.redialAgentLeg group placed else (a, false)
    if redialed then
      let a := if a.bridges.get group = some b then { a with bridges := a.bridges.erase group } else a
      { a with sessions := a.sessions.erase br.session.callId }.setBridge b br.close
    else a.teardownGroup group (if droppedMidCall then some "dropped" else none) droppedMidCall

/-- The `finally` of `_serve_user_leg` (media.py:189-192). -/
def finishUserLeg (a : App) (b : Nat) : App :=
  let a := a.setBridge b { a.heap b with userStreamSid := none }
  let br := a.heap b
  if br.relayOpen = false ∧ br.session.finished = false then a.advance b (br.session.abort "user_left")
  else a

/-- One try of `_serve_user_leg` (media.py:163-172), `tries` having failed before. -/
def serveUserLeg (a : App) (k tries : Nat) : App :=
  let s := a.sockets k
  if tries = userAttachTries then a.setSocket k { s with phase := .closed }
  else
    match a.bridges.get s.group with
    | some b =>
      (a.setBridge b ((a.heap b).bindUser s.streamSid)).setSocket k
        { s with phase := .receiving, bridge := some b }
    | none => a.setSocket k { s with phase := .attaching (tries + 1) }

/-- The closure of `_wire_dtmf` (media.py:131), if there is one. -/
def wireDtmf (a : App) (callId group : String) : Option (String × String) :=
  if a.twilio = false ∨ a.publicBaseUrl = "" then none
  else some (callId, a.publicBaseUrl ++ "/twiml/voice?group=" ++ group)

/-- `start` of an agent leg (media.py:242-277). -/
def startAgentLeg (a : App) (k : Nat) (m : Start) : App :=
  let socket b : Socket := { role := .agent, phase := .receiving, group := m.group, streamSid := m.streamSid,
                             bridge := some b }
  match a.bridges.get m.group with
  | some b =>
    -- a reconnect after a DTMF redirect: the session is kept
    let br := { (a.heap b).bindAgent m.streamSid true with reconnecting := false, reconnectSince := none }
    (a.setBridge b br).setSocket k (socket b)
  | none =>
    let session := AgentSession.new m.callId a.settings {} (a.pendingGoals.get m.group).join
      (a.userLegs.get m.group)
    let br : CallBridge := { groupId := m.group, session }
    let br := { br.bindAgent m.streamSid true with dtmfRedirect := a.wireDtmf m.callId m.group }
    let b := a.fresh
    { a.setBridge b br with
      fresh := b + 1
      bridges := a.bridges.set m.group b
      sessions := a.sessions.set m.callId b }.setSocket k (socket b)

/-- A `start` message (media.py:230-240). -/
def start (a : App) (k : Nat) (m : Start) : App :=
  if (a.sockets k).phase ≠ .idle then a
  else match m.role with
    | .agent => a.startAgentLeg k m
    | .user =>
      (a.setSocket k { role := .user, phase := .attaching 0, group := m.group, streamSid := m.streamSid }).serveUserLeg
        k 0

/-- The attach loop of a user leg wakes up (media.py:163-167). -/
def poll (a : App) (k : Nat) : App :=
  match (a.sockets k).phase with
  | .attaching tries => a.serveUserLeg k tries
  | _ => a

/-- A `media` message (media.py:179, media.py:279). A session that raises ends the handler. -/
def media (a : App) (k : Nat) (payload : List UInt8) (ticks : List Tick) : App :=
  let s := a.sockets k
  match s.phase, s.bridge, s.role with
  | .receiving, some b, .agent =>
    let a := a.onAgentAudio b payload ticks
    if (a.heap b).session.crashed then a.setSocket k { s with phase := .closing } else a
  | .receiving, some b, .user => a.setBridge b ((a.heap b).onUserAudio payload)
  | _, _, _ => a

/-- The receive loop ends: a `stop` message, or a disconnect or error (media.py:181-184, media.py:285-291). -/
def close (a : App) (k : Nat) (stop : Bool) : App :=
  let s := a.sockets k
  match s.phase with
  | .idle | .receiving => a.setSocket k { s with phase := .closing, sawStop := stop }
  | _ => a

/-- The writer is gone and the `finally` runs on (media.py:189, media.py:295). -/
def finish (a : App) (k : Nat) (placed : Bool) : App :=
  let s := a.sockets k
  if s.phase ≠ .closing then a
  else
    let a := match s.bridge, s.role with
      | some b, .agent => a.finishAgentLeg b s.group s.sawStop placed
      | some b, .user => a.finishUserLeg b
      | none, _ => a
    a.setSocket k { s with phase := .closed }

/-- One round of a socket's writer (media.py:119). -/
def drain (a : App) (k : Nat) : App :=
  let s := a.sockets k
  match s.phase, s.bridge with
  | .receiving, some b =>
    let (out, br) := match s.role with
      | .agent => (a.heap b).drainAgent
      | .user => (a.heap b).drainUser
    (a.setBridge b br).setSocket k { s with sent := s.sent ++ out }
  | _, _ => a

/-- The redirect thread at position `n` ends (media.py:140-145): Twilio took the redirect or raised. -/
def redirect (a : App) (n : Nat) (ok : Bool) : App :=
  match a.redirects[n]? with
  | none => a
  | some r =>
    let a := { a with redirects := a.redirects.eraseIdx n }
    match (a.heap r.bridge).dtmfRedirect with
    | none => a
    | some (callId, url) =>
      let a := a.request (.pressDigits callId r.keys url)
      if ok then a else a.setBridge r.bridge { a.heap r.bridge with reconnecting := false }

/-- The relay opens and the user is texted, or the wait goes on (bridge.py:208-213). -/
def waitDrained (a : App) (b left : Nat) : App :=
  match (a.heap b).waitDrained left with
  | (br, true) => (a.setBridge b br).sms br.groupId userSms
  | (br, false) => a.setBridge b br

/-- The holding line has been spoken, or could not be (bridge.py:200-208). -/
def spoken (a : App) (b : Nat) : App :=
  match (a.heap b).handoff with
  | .speaking => a.waitDrained b CallBridge.drainRounds
  | _ => a

/-- The handoff wakes up from its wait (bridge.py:211). -/
def drained (a : App) (b : Nat) : App :=
  match (a.heap b).handoff with
  | .draining left => a.waitDrained b left
  | _ => a

/-- The model's voice arrives while a probe greets or the handoff speaks (bridge.py:170, bridge.py:202). -/
def play (a : App) (b : Nat) (pcm : Pcm) : App :=
  if (a.heap b).probeInbound.isSome ∨ (a.heap b).handoff = .speaking then
    a.setBridge b ((a.heap b).playToAgent pcm)
  else a

/-- `run_probe` begins or ends on the loop (bridge.py:164, bridge.py:173). -/
def probe (a : App) (b : Nat) (running : Bool) : App :=
  if b < a.fresh then a.setBridge b { a.heap b with probeInbound := if running then some [] else none }
  else a

/-- The group id is taken. -/
def Known (a : App) (group : String) : Prop :=
  (a.creates.get group).isSome = true ∨ ∃ b < a.fresh, (a.heap b).groupId = group

instance (a : App) (group : String) : Decidable (a.Known group) := inferInstanceAs (Decidable (_ ∨ _))

/-- `create_call` up to the business call (calls.py:41-59); `placed` is whether Twilio took it. -/
def post (a : App) (group : String) (req : CallRequest) (placed : Bool) : App :=
  if a.Known group ∨ a.twilio = false ∨ a.publicBaseUrl = "" then a
  else
    let a := a.request (.placeOutboundCall req.businessNumber
      (a.publicBaseUrl ++ "/twiml/voice?group=" ++ group) group)
    if placed then { a with creates := a.creates.set group { req, next := .storeGoal } } else a

/-- The next access of a `create_call` to the registry (calls.py:61-75); `ring` is the user's leg, or
`none` when ringing raises. -/
def work (a : App) (group : String) (ring : Option String) : App :=
  match a.creates.get group with
  | none => a
  | some c =>
    let goOn (a : App) (next : CreateStep) : App := { a with creates := a.creates.set group { c with next } }
    match c.next with
    | .storeGoal => goOn { a with pendingGoals := a.pendingGoals.set group c.req.goal } .storeMeta
    | .storeMeta =>
      goOn { a with callMeta := a.callMeta.set group { businessNumber := c.req.businessNumber, redials := 0 } }
        .ringUser
    | .ringUser =>
      let a := a.request (.ringUser c.req.userNumber (a.publicBaseUrl ++ "/twiml/join?group=" ++ group) group)
      match ring with
      | some callSid =>
        { a with creates := a.creates.set group { c with userLeg := some callSid, next := .storeLeg } }
      | none => goOn a .returned
    | .storeLeg =>
      match c.userLeg with
      | some callSid => goOn { a with userLegs := a.userLegs.set group callSid } .storeNumber
      | none => a
    | .storeNumber => goOn { a with userNumbers := a.userNumbers.set group c.req.userNumber } .returned
    | .returned => a

/-! ## Runs -/

inductive Action where
  | post (group : String) (req : CallRequest) (placed : Bool)
  | work (group : String) (ring : Option String)
  | start (k : Nat) (m : Start)
  | poll (k : Nat)
  | media (k : Nat) (payload : List UInt8) (ticks : List Tick)
  | close (k : Nat) (stop : Bool)
  | finish (k : Nat) (placed : Bool)
  | drain (k : Nat)
  | redirect (n : Nat) (ok : Bool)
  | spoken (b : Nat)
  | drained (b : Nat)
  | play (b : Nat) (pcm : Pcm)
  | probe (b : Nat) (running : Bool)
  | reap
  | wait (dt : ℚ)

def step (a : App) : Action → App
  | .post group req placed => a.post group req placed
  | .work group ring => a.work group ring
  | .start k m => a.start k m
  | .poll k => a.poll k
  | .media k payload ticks => a.media k payload ticks
  | .close k stop => a.close k stop
  | .finish k placed => a.finish k placed
  | .drain k => a.drain k
  | .redirect n ok => a.redirect n ok
  | .spoken b => a.spoken b
  | .drained b => a.drained b
  | .play b pcm => a.play b pcm
  | .probe b running => a.probe b running
  | .reap => a.reapStaleBridges.1
  | .wait dt => { a with now := a.now + max dt 0 }

/-- Half a second of line noise on socket `k` (nothing at all for `n = 0`), heard as `label`. -/
def hear (k n : Nat) (label : Label) (answer : Option Answer := none) : Action :=
  .media k (List.replicate n ulawSilence) [{ cls := { label, confidence := 1 }, answer }]

/-- A call to `group` is accepted, the user is rung, and the business answers on socket 0. -/
def answered (group : String) : List Action :=
  .post group { businessNumber := "+18005550100", userNumber := "+15145550123",
                business_long := by decide, user_long := by decide } true ::
    List.replicate 5 (.work group (some "CAuser")) ++
    [.start 0 { groupParam := group, callSid := "CAagent", streamSid := "MZagent" }]

/-- A menu is heard, and its reading answers "2" half a second after it was asked for: the key is pressed. -/
def keyed : List Action :=
  hear 0 0 .liveSpeechCandidate :: List.replicate 4 (hear 0 4000 .liveSpeechCandidate) ++
    List.replicate 4 (hear 0 4000 .unknown) ++ [hear 0 4000 .unknown (some { menu := .ok ⟨some "2", ""⟩ })]

end App

end DialPass
