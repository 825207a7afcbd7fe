import DialPass.Executor
import DialPass.State
/-!
# `AgentSession`: one live call (agent/session.py)

The session is a record and each method a function on it. Everything it does to the outside is
appended to `trace` in order: the classifier call, telemetry events (their `call_id` is the
session's and is left out), the hooks, `submit` to the executor and the result a `poll` returned.

What the outside answers during one tick is a `Tick`: the classifier's verdict, the background job's
answer if it has arrived by that tick's poll, and how `on_bridge` ended. `dtmf_sender` and `on_fail`
may raise too; the code catches both and goes on either way (session.py:253, session.py:297).

`crashed` records an exception that leaves `feed_audio`: nothing of the session runs after it. Only
`submit` on an executor that was shut down and a result read by the wrong handler can raise.
-/

namespace DialPass

/-- The settings the session reads (config.py). -/
structure Settings where
  classifierIntervalMs : Int := 500
  bufferSeconds : ℚ := 12
  classifyWindowMs : Int := 1500
  menuCollectS : ℚ := 2

/-- config.py:60 -/
def sampleRate : Nat := 8000

def Settings.interval (cfg : Settings) : ℚ := cfg.classifierIntervalMs / 1000

/-- classifier.py:26 -/
structure Frame where
  pcm : Pcm
  sampleRate : Nat
  tStart : ℚ
deriving DecidableEq

/-- classifier.py:35 -/
structure Classification where
  label : Label
  confidence : ℚ
  features : List (String × ℚ) := []

/-- Python's `round(x, d)`: to the nearest, ties to even. -/
def pyRound (x : ℚ) (d : Nat) : ℚ :=
  let y := x * 10 ^ d
  let r := y - ⌊y⌋
  let n := if r < 1 / 2 then ⌊y⌋ else if 1 / 2 < r then ⌊y⌋ + 1 else if ⌊y⌋ % 2 = 0 then ⌊y⌋ else ⌊y⌋ + 1
  n / 10 ^ d

/-- telemetry/events.py -/
inductive Event where
  | frameClassified (t : ℚ) (label : Label) (confidence : ℚ) (features : List (String × ℚ))
  | stateChanged (t : ℚ) (frm dst : CallState)
  | tier2Woken (t : ℚ) (reason : Tier2Kind)
  | dtmfSent (t : ℚ) (digits : String)
  | probeResult (t : ℚ) (isHuman : Bool)
  | humanDetected (t : ℚ)
  | bridgeStarted (t : ℚ)
  | callCompleted (t : ℚ) (outcome : String)
  | callFailed (t : ℚ) (reason : String)
deriving DecidableEq

/-- One thing the session does to the outside. -/
inductive Effect where
  | classify (frame : Frame)
  | emit (e : Event)
  | dtmfSender (digits : String)
  | onBridge
  | onFail (reason : String)
  | submit (j : Job)
  | polled (j : Job) (r : Tier2Result)
deriving DecidableEq

/-- How the `on_bridge` hook ended (session.py:271-280). -/
inductive BridgeReply where
  | ok | unavailable (reason : String) | raised
deriving DecidableEq, Repr

/-- What the outside answers during one tick. -/
structure Tick where
  cls : Classification
  answer : Option Answer := none
  onBridge : BridgeReply := .ok

/-- session.py:55-111 -/
structure AgentSession where
  callId : String := ""
  settings : Settings := {}
  goal : Option String := none
  userLegSid : Option String := none
  exec : ThreadedExecutor := {}
  tier2Kind : Option Tier2Kind := none
  fsm : CallStateMachine := {}
  buffer : RollingBuffer
  samplesSeen : Nat := 0
  nextClassifyAt : ℚ := 0
  finished : Bool := false
  menuWakeDue : Option ℚ := none
  crashed : Bool := false
  trace : List Effect := []

namespace AgentSession

/-- `__init__` (session.py:56). -/
def new (callId : String) (settings : Settings) (fsmConfig : FsmConfig) (goal userLegSid : Option String) :
    AgentSession :=
  { callId, settings, goal, userLegSid, fsm := { cfg := fsmConfig },
    buffer := .new settings.bufferSeconds sampleRate }

/-- `audio_seconds` (session.py:119). -/
def audioSeconds (s : AgentSession) : ℚ := s.samplesSeen / sampleRate

def log (s : AgentSession) (e : Effect) : AgentSession := { s with trace := s.trace ++ [e] }

/-- `self.telemetry.emit`. -/
def emit (s : AgentSession) (e : Event) : AgentSession := s.log (.emit e)

/-- `_emit_state_change` (session.py:313). -/
def emitStateChange (s : AgentSession) (before : CallState) (now : ℚ) : AgentSession :=
  if s.fsm.state ≠ before then s.emit (.stateChanged now before s.fsm.state) else s

/-- `_fail` (session.py:292). -/
def fail (s : AgentSession) (now : ℚ) (reason : String) : AgentSession :=
  let s := s.emit (.callFailed now reason)
  { s with finished := true }.log (.onFail reason)

/-- `abort` (session.py:300). -/
def abort (s : AgentSession) (reason : String) : AgentSession :=
  if s.finished then s else s.fail s.audioSeconds reason

/-- `close` (session.py:308). -/
def close (s : AgentSession) : AgentSession := { s with exec := s.exec.close }

/-- `self._tier2_exec.submit` (session.py:199, session.py:208). -/
def submit (s : AgentSession) (j : Job) : AgentSession :=
  match s.exec.submit j with
  | some exec => { s with exec }.log (.submit j)
  | none => { s with crashed := true }

/-- `_start_menu` (session.py:194). -/
def startMenu (s : AgentSession) (now : ℚ) : AgentSession :=
  let s := { s.emit (.tier2Woken now .menu) with tier2Kind := some .menu }
  s.submit { kind := .menu, snap := s.buffer.snapshot, goal := s.goal }

/-- `_start_probe` (session.py:203). -/
def startProbe (s : AgentSession) (now : ℚ) : AgentSession :=
  let s := { s.emit (.tier2Woken now .probe) with tier2Kind := some .probe }
  s.submit { kind := .probe, snap := s.buffer.snapshot }

/-- `_bridge` (session.py:267). -/
def bridge (s : AgentSession) (now : ℚ) (onBridge : BridgeReply) : AgentSession :=
  let s := s.emit (.humanDetected now)
  let s := s.log .onBridge
  match onBridge with
  | .unavailable reason => s.fail now reason
  | .raised => s.fail now "handoff_error"
  | .ok =>
    let before := s.fsm.state
    let s := { s with fsm := s.fsm.bridged }.emitStateChange before now
    let s := s.emit (.bridgeStarted now)
    let before := s.fsm.state
    let s := { s with fsm := s.fsm.completed }.emitStateChange before now
    let s := s.emit (.callCompleted now "human_bridged")
    { s with finished := true }

/-- `_dispatch` (session.py:180). -/
def dispatch (s : AgentSession) (action : Action) (now : ℚ) (onBridge : BridgeReply) : AgentSession :=
  match action with
  | .none => s
  | .wakeTier2Menu => { s with menuWakeDue := some (now + s.settings.menuCollectS) }
  | .wakeTier2Probe => if s.tier2Kind = none then s.startProbe now else s
  | .bridge => s.bridge now onBridge
  | .fail => s.fail now "non_connect"

/-- The deferred menu wake of `_run_tick` (session.py:169-175). -/
def wakeMenu (s : AgentSession) (now : ℚ) : AgentSession :=
  match s.menuWakeDue with
  | some due =>
    if due ≤ now then
      let s := { s with menuWakeDue := none }
      if s.fsm.state = .ivrMenu ∧ s.tier2Kind = none then s.startMenu now else s
    else s
  | none => s

/-- `_apply_menu` (session.py:245). -/
def applyMenu (s : AgentSession) (decision : MenuDecision) (now : ℚ) : AgentSession :=
  match decision.presses, decision.digits with
  | true, some digits =>
    let s := s.log (.dtmfSender digits)
    let s := s.emit (.dtmfSent now digits)
    { s with fsm := s.fsm.noteMenuAction now }
  | _, _ => { s with fsm := s.fsm.noteMenuAbstained }

/-- `_apply_probe` (session.py:260). -/
def applyProbe (s : AgentSession) (outcome : ProbeOutcome) (now : ℚ) (onBridge : BridgeReply) :
    AgentSession :=
  let s := s.emit (.probeResult now outcome.isHuman)
  let before := s.fsm.state
  let (fsm, followUp) := s.fsm.probeResult outcome.isHuman now
  let s := { s with fsm }.emitStateChange before now
  s.dispatch followUp now onBridge

/-- The error branch of `_poll_tier2` (session.py:218-239). -/
def tier2Failed (s : AgentSession) (kind : Tier2Kind) (error : Tier2Error) (now : ℚ) : AgentSession :=
  match error with
  | .notImplemented => s.fail now "tier2_not_implemented"
  | .circuitOpen => s.fail now "tier2_unavailable"
  | .unavailable _ => if kind = .probe then s.fail now "tier2_unavailable" else s
  | .other _ => if kind = .probe then s.fail now "tier2_error" else s

/-- The handler a result goes to (session.py:240-243); the other kind's value has no such attribute. -/
def applyResult (s : AgentSession) (kind : Tier2Kind) (result : Tier2Result) (now : ℚ)
    (onBridge : BridgeReply) : AgentSession :=
  match result with
  | .error e => s.tier2Failed kind e now
  | .ok v =>
    match kind, v with
    | .menu, .decision d => s.applyMenu d now
    | .probe, .outcome o => s.applyProbe o now onBridge
    | _, _ => { s with crashed := true }

/-- `_poll_tier2` (session.py:210). -/
def pollTier2 (s : AgentSession) (now : ℚ) (i : Tick) : AgentSession :=
  match s.tier2Kind with
  | none => s
  | some kind =>
    match s.exec.poll i.answer with
    | (_, none) => s
    | (exec, some (j, result)) =>
      { s with exec, tier2Kind := none }.log (.polled j result) |>.applyResult kind result now i.onBridge

/-- Tier 1's half of `_run_tick` (session.py:148-164): classify the window and report it. -/
def classify (s : AgentSession) (now : ℚ) (c : Classification) : AgentSession :=
  let frame := { pcm := s.buffer.tail s.settings.classifyWindowMs, sampleRate, tStart := now }
  let s := s.log (.classify frame)
  s.emit (.frameClassified now c.label (pyRound c.confidence 3)
    (c.features.map fun (k, v) => (k, pyRound v 5)))

/-- The FSM's half of `_run_tick` (session.py:166-169). -/
def observe (s : AgentSession) (now : ℚ) (i : Tick) : AgentSession :=
  let before := s.fsm.state
  let (fsm, action) := s.fsm.observe i.cls.label i.cls.confidence now
  let s := { s with fsm }.emitStateChange before now
  s.dispatch action now i.onBridge

/-- `_run_tick` (session.py:147). -/
def runTick (s : AgentSession) (now : ℚ) (i : Tick) : AgentSession :=
  let s := (s.classify now i.cls).observe now i
  if s.crashed then s else
  let s := s.wakeMenu now
  if s.crashed then s else
  s.pollTier2 now i

/-- One pass of the loop of `feed_audio` (session.py:141-145): nothing once the loop has ended. -/
def loopPass (s : AgentSession) (i : Tick) : AgentSession :=
  if s.finished ∨ s.crashed ∨ s.audioSeconds < s.nextClassifyAt then s
  else
    let s' := s.runTick s.nextClassifyAt i
    if s'.crashed then s' else { s' with nextClassifyAt := s'.nextClassifyAt + s.settings.interval }

/-- `feed_audio` up to its loop (session.py:125-140): buffer the chunk, skip ahead if far behind. -/
def ingest (s : AgentSession) (pcm : Pcm) : AgentSession :=
  if s.finished then s
  else
    let s := { s with buffer := s.buffer.write pcm, samplesSeen := s.samplesSeen + pcm.length }
    if 3 * s.settings.interval < s.audioSeconds - s.nextClassifyAt then
      { s with nextClassifyAt := s.audioSeconds - s.settings.interval }
    else s

/-- `feed_audio` (session.py:123), the outside answering its ticks with `ticks` in turn. Answers left
over when the loop ends are not read; a list that runs out leaves the call inside its loop, so all
lists together cover every prefix of every call. -/
def feedAudio (s : AgentSession) (pcm : Pcm) (ticks : List Tick) : AgentSession :=
  ticks.foldl loopPass (s.ingest pcm)

/-! ## Runs -/

/-- What the transport does to a session, one pass of the loop at a time. -/
inductive Move where
  | ingest (pcm : Pcm)
  | tick (i : Tick)
  | abort (reason : String)

def step (s : AgentSession) : Move → AgentSession
  | .ingest pcm => s.ingest pcm
  | .tick i => s.loopPass i
  | .abort reason => s.abort reason

/-- One call of the transport's. -/
inductive Call where
  | feed (pcm : Pcm) (ticks : List Tick)
  | abort (reason : String)

def Call.moves : Call → List Move
  | .feed pcm ticks => .ingest pcm :: ticks.map .tick
  | .abort reason => [.abort reason]

def call (s : AgentSession) : Call → AgentSession
  | .feed pcm ticks => s.feedAudio pcm ticks
  | .abort reason => s.abort reason

/-- One chunk of `n` samples, the tick it completes hearing `label`. -/
def hear (n : Nat) (label : Label) (answer : Option Answer := none) : Call :=
  .feed (List.replicate n 0) [{ cls := { label, confidence := 1 }, answer }]

end AgentSession

end DialPass
