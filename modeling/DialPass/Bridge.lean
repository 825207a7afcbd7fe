import DialPass.Lib.Base64
import DialPass.Session
import DialPass.Telephony.Audio
/-!
# `CallBridge`: one call's audio hub (agent/bridge.py)

The hub is a record; a method that also reaches outside returns what it asks for: `pressDtmf` the keys
of the redirect thread it starts, `beginHandoff` and `waitDrained` whether the user is texted. The
dev-only recorder is left out.

`handoff` is how far `_do_handoff` has got between its awaits. The answer of `begin_handoff` to the
session (`handoffReply`) and its effect are two functions, since the session reads the answer in the
middle of a tick.
-/

namespace DialPass

/-- `_frame` (bridge.py:142): a Twilio `media` message with its stream and base64 payload. -/
structure MediaMessage where
  streamSid : String
  payload : String
deriving DecidableEq

/-- `_do_handoff` (bridge.py:197): not running, speaking the holding line, or waiting for it to drain
with so many rounds left. -/
inductive Handoff where
  | idle | speaking | draining (left : Nat)
deriving DecidableEq, Repr

/-- bridge.py:50-88. `dtmfRedirect` is the closure `_wire_dtmf` leaves there: the call it redirects and
the URL it comes back to. -/
structure CallBridge where
  groupId : String
  session : AgentSession
  agentStreamSid : Option String := none
  userStreamSid : Option String := none
  loop : Bool := false
  outboundAgent : List MediaMessage := []
  outboundUser : List MediaMessage := []
  probeInbound : Option (List (List UInt8)) := none
  dtmfRedirect : Option (String × String) := none
  reconnecting : Bool := false
  reconnectSince : Option ℚ := none
  relayOpen : Bool := false
  handoffStarted : Bool := false
  handoff : Handoff := .idle
  closed : Bool := false

instance : Inhabited CallBridge := ⟨{ groupId := "", session := .new "" {} {} none none }⟩

namespace CallBridge

/-- `bind_agent` (bridge.py:91); `loop` says whether a running loop is handed over. -/
def bindAgent (br : CallBridge) (streamSid : String) (loop : Bool := false) : CallBridge :=
  { br with agentStreamSid := some streamSid, loop }

/-- `bind_user` (bridge.py:95). -/
def bindUser (br : CallBridge) (streamSid : String) : CallBridge := { br with userStreamSid := some streamSid }

/-- `_frame` (bridge.py:142). -/
def frame (streamSid : String) (ulaw : List UInt8) : MediaMessage :=
  { streamSid, payload := String.ofList (Base64.encode ulaw) }

/-- `on_agent_audio` (bridge.py:104) up to the session: the probe's tee and the relay. -/
def relayAgentAudio (br : CallBridge) (ulaw : List UInt8) : CallBridge :=
  let br := { br with probeInbound := br.probeInbound.map (· ++ [ulaw]) }
  match br.relayOpen, br.userStreamSid with
  | true, some sid => { br with outboundUser := br.outboundUser ++ [frame sid ulaw] }
  | _, _ => br

/-- `on_user_audio` (bridge.py:113). -/
def onUserAudio (br : CallBridge) (ulaw : List UInt8) : CallBridge :=
  match br.relayOpen, br.agentStreamSid with
  | true, some sid => { br with outboundAgent := br.outboundAgent ++ [frame sid ulaw] }
  | _, _ => br

/-- bridge.py:124 -/
def dtmfKeys : List Char := "0123456789*#".toList

/-- `press_dtmf` (bridge.py:120) at `now`; the keys are for the redirect thread it starts. -/
def pressDtmf (br : CallBridge) (digits : String) (now : ℚ) : CallBridge × Option String :=
  let safe := String.ofList (digits.toList.filter (· ∈ dtmfKeys))
  if safe.isEmpty ∨ br.agentStreamSid = none then (br, none)
  else ({ br with reconnecting := true, reconnectSince := some now }, some safe)

/-- `xs[i : i + n]` for `i` from 0 in steps of `n`, the last piece shorter. -/
def chunks (n : Nat) (xs : List UInt8) : List (List UInt8) :=
  (List.range ((xs.length + n - 1) / n)).map fun i => (xs.drop (i * n)).take n

/-- bridge.py:43 -/
def frameBytes : Nat := 160

/-- `play_to_agent` (bridge.py:133). -/
def playToAgent (br : CallBridge) (pcm : Pcm) : CallBridge :=
  match br.agentStreamSid with
  | none => br
  | some sid =>
    { br with outboundAgent := br.outboundAgent ++ (chunks frameBytes (pcm16ToUlaw pcm)).map (frame sid) }

/-- `drain_agent` (bridge.py:149). -/
def drainAgent (br : CallBridge) : List MediaMessage × CallBridge :=
  (br.outboundAgent, { br with outboundAgent := [] })

/-- `drain_user` (bridge.py:153). -/
def drainUser (br : CallBridge) : List MediaMessage × CallBridge :=
  (br.outboundUser, { br with outboundUser := [] })

/-- How `begin_handoff` ends for the session that calls it (bridge.py:178-195). -/
def handoffReply (br : CallBridge) : BridgeReply :=
  if br.handoffStarted = false ∧ br.userStreamSid = none then .unavailable "user_left" else .ok

/-- `begin_handoff` (bridge.py:178); `apiKey` is `settings.openai_api_key`. -/
def beginHandoff (br : CallBridge) (apiKey : String) : CallBridge × Bool :=
  if br.handoffStarted then (br, false)
  else
    let br := { br with handoffStarted := true }
    if br.userStreamSid = none then (br, false)
    else if br.loop = false ∨ apiKey.isEmpty then ({ br with relayOpen := true }, true)
    else ({ br with handoff := .speaking }, false)

/-- One round of the wait of `_do_handoff` (bridge.py:208-213) with `left` rounds to go; the relay opens
when the holding line has drained, or after the last round. -/
def waitDrained (br : CallBridge) (left : Nat) : CallBridge × Bool :=
  if br.outboundAgent = [] ∨ left = 0 then ({ br with handoff := .idle, relayOpen := true }, true)
  else ({ br with handoff := .draining (left - 1) }, false)

/-- bridge.py:208 -/
def drainRounds : Nat := 250

/-- `close` (bridge.py:231). -/
def close (br : CallBridge) : CallBridge :=
  if br.closed then br else { br with closed := true, session := br.session.close }

end CallBridge

end DialPass
