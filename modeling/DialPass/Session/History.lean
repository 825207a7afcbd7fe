import DialPass.Lib.Run
import DialPass.Session
/-!
# Reading a session's trace back

`History` is what an observer of the trace alone knows: the state the `StateChanged` events replay,
how many of them there were (`visit` numbers the stay in the current state), the Tier 2 job in
flight with the visit it was submitted in, the result polled last, and how far the call's end has
got. Laws over runs are monitors over the trace: `Accepts Ok` says that `Ok` holds of every entry at
the history before it.

`Sound` ties that history to the session's own fields; `step_sound` proves it of every reachable
session, whatever the labels, the answers and their timing. In particular the single Tier 2 slot is
never overrun and nothing crashes.
-/

namespace DialPass

/-- A submitted job not polled yet, with the state and visit it was submitted in. -/
structure Flight where
  job : Job
  state : CallState
  visit : Nat
deriving DecidableEq

/-- How far the call's end has got: `failing` between `CallFailed` and its `on_fail`. -/
inductive Phase where
  | live | failing | over
deriving DecidableEq, Repr

structure History where
  state : CallState := .dialing
  visit : Nat := 0
  flight : Option Flight := none
  applied : Option (Flight × Tier2Result) := none
  phase : Phase := .live

namespace History

def next (h : History) : Effect → History
  | .emit (.stateChanged _ _ dst) => { h with state := dst, visit := h.visit + 1 }
  | .emit (.callFailed _ _) => { h with phase := .failing }
  | .emit (.callCompleted _ _) => { h with phase := .over }
  | .onFail _ => { h with phase := .over }
  | .submit j => { h with flight := some ⟨j, h.state, h.visit⟩ }
  | .polled _ r => { h with applied := h.flight.map (·, r), flight := none }
  | _ => h

/-- The history a trace leaves. -/
def of (tr : List Effect) : History := Run.exec next {} tr

/-- Every entry of the trace meets `Ok` at the history before it. -/
def Accepts (Ok : History → Effect → Prop) (tr : List Effect) : Prop := Run.Along next Ok {} tr

instance (Ok : History → Effect → Prop) [∀ h e, Decidable (Ok h e)] (tr : List Effect) :
    Decidable (Accepts Ok tr) := inferInstanceAs (Decidable (Run.Along next Ok {} tr))

@[simp] theorem of_append (tr es : List Effect) : of (tr ++ es) = Run.exec next (of tr) es := by
  simp [of]

@[simp] theorem accepts_nil (Ok : History → Effect → Prop) : Accepts Ok [] := trivial

@[simp] theorem accepts_append (Ok : History → Effect → Prop) (tr es : List Effect) :
    Accepts Ok (tr ++ es) ↔ Accepts Ok tr ∧ Run.Along next Ok (of tr) es := by
  simp [Accepts, of]

theorem next_flight_le (h : History) (e : Effect) (hl : ∀ fl, h.flight = some fl → fl.visit ≤ h.visit) :
    ∀ fl, (h.next e).flight = some fl → fl.visit ≤ (h.next e).visit := by
  intro fl hfl
  cases e with
  | emit e =>
    cases e with
    | stateChanged t a b => exact (hl fl hfl).trans (Nat.le_succ _)
    | _ => exact hl fl hfl
  | submit j => cases hfl; exact le_rfl
  | polled j r => cases hfl
  | _ => exact hl fl hfl

/-- A job in flight was submitted in this visit or an earlier one. -/
theorem flight_visit_le (tr : List Effect) {fl : Flight} (h : (of tr).flight = some fl) :
    fl.visit ≤ (of tr).visit :=
  Run.exec_inv next_flight_le tr {} (fun _ hn => nomatch hn) fl h

end History

namespace AgentSession

open History

/-! ## What each method appends -/

theorem fail_eq (s : AgentSession) (now : ℚ) (reason : String) :
    s.fail now reason =
      { s with finished := true, trace := s.trace ++ [.emit (.callFailed now reason), .onFail reason] } := by
  simp [fail, emit, log]

theorem emitStateChange_ne {s : AgentSession} {before : CallState} (h : s.fsm.state ≠ before) (now : ℚ) :
    s.emitStateChange before now =
      { s with trace := s.trace ++ [.emit (.stateChanged now before s.fsm.state)] } := by
  simp [emitStateChange, h, emit, log]

theorem emitStateChange_same {s : AgentSession} {before : CallState} (h : s.fsm.state = before) (now : ℚ) :
    s.emitStateChange before now = s := by
  simp [emitStateChange, h]

/-- The session after the machine has moved and the move is reported, before an action is dispatched. -/
def moved (s : AgentSession) (fsm : CallStateMachine) (now : ℚ) : AgentSession :=
  { s with fsm }.emitStateChange s.fsm.state now

/-- One event if the state changed, none if not. -/
theorem moved_eq (s : AgentSession) (fsm : CallStateMachine) (now : ℚ) :
    s.moved fsm now =
      { s with
        fsm
        trace := if fsm.state ≠ s.fsm.state
          then s.trace ++ [.emit (.stateChanged now s.fsm.state fsm.state)] else s.trace } := by
  unfold moved
  by_cases h : fsm.state = s.fsm.state
  · simp [emitStateChange_same (s := { s with fsm }) h, h]
  · simp [emitStateChange_ne (s := { s with fsm }) h, h]

/-- What the history is after a move. -/
theorem of_moved (s : AgentSession) (fsm : CallStateMachine) (now : ℚ) :
    History.of (s.moved fsm now).trace =
      if fsm.state = s.fsm.state then History.of s.trace
      else { History.of s.trace with
        state := fsm.state, visit := (History.of s.trace).visit + 1 } := by
  rw [moved_eq]
  by_cases hf : fsm.state = s.fsm.state <;> simp [hf, History.next]

/-- The job `_start_menu` submits. -/
def menuJob (s : AgentSession) : Job := { kind := .menu, snap := s.buffer.snapshot, goal := s.goal }

/-- The job `_start_probe` submits. -/
def probeJob (s : AgentSession) : Job := { kind := .probe, snap := s.buffer.snapshot }

theorem startMenu_eq {s : AgentSession} (h : s.exec.closed = false) (now : ℚ) :
    s.startMenu now =
      { s with
        tier2Kind := some .menu
        exec := { s.exec with future := some s.menuJob }
        trace := s.trace ++ [.emit (.tier2Woken now .menu), .submit s.menuJob] } := by
  simp [startMenu, submit, ThreadedExecutor.submit, emit, log, h, menuJob]

theorem startProbe_eq {s : AgentSession} (h : s.exec.closed = false) (now : ℚ) :
    s.startProbe now =
      { s with
        tier2Kind := some .probe
        exec := { s.exec with future := some s.probeJob }
        trace := s.trace ++ [.emit (.tier2Woken now .probe), .submit s.probeJob] } := by
  simp [startProbe, submit, ThreadedExecutor.submit, emit, log, h, probeJob]

theorem classify_eq (s : AgentSession) (now : ℚ) (c : Classification) :
    ∃ frame e, s.classify now c = { s with trace := s.trace ++ [.classify frame, .emit e] } ∧
      ∃ conf feats, e = .frameClassified now c.label conf feats :=
  ⟨_, _, by simp only [classify, emit, log, List.append_assoc]; rfl, _, _, rfl⟩

/-- `_bridge` when the hook returned: HUMAN_DETECTED goes to BRIDGING and DONE. -/
theorem bridge_ok_eq {s : AgentSession} (h : s.fsm.state = .humanDetected) (now : ℚ) :
    s.bridge now .ok =
      { s with
        fsm := s.fsm.bridged.completed
        finished := true
        trace := s.trace ++ [.emit (.humanDetected now), .onBridge,
          .emit (.stateChanged now .humanDetected .bridging), .emit (.bridgeStarted now),
          .emit (.stateChanged now .bridging .done), .emit (.callCompleted now "human_bridged")] } := by
  simp [bridge, emit, log, emitStateChange, h, CallStateMachine.bridged_state h]

/-- `_bridge` when the hook raised. -/
theorem bridge_failed_eq {s : AgentSession} {reply : BridgeReply} (hr : reply ≠ .ok) (now : ℚ) :
    ∃ reason, s.bridge now reply =
      { s with
        finished := true
        trace := s.trace ++ [.emit (.humanDetected now), .onBridge, .emit (.callFailed now reason),
          .onFail reason] } := by
  cases reply with
  | ok => exact absurd rfl hr
  | unavailable reason => exact ⟨reason, by simp [bridge, emit, log, fail]⟩
  | raised => exact ⟨"handoff_error", by simp [bridge, emit, log, fail]⟩

/-! ## The invariant -/

/-- The history of a session's trace agrees with its fields. -/
structure Sound (s : AgentSession) : Prop where
  state : (History.of s.trace).state = s.fsm.state
  phase : (History.of s.trace).phase = if s.finished then .over else .live
  slot : s.exec.future.map Job.kind = s.tier2Kind
  flight : (History.of s.trace).flight.map Flight.job = s.exec.future
  alive : s.crashed = false
  opened : s.exec.closed = false

theorem new_sound (callId : String) (settings : Settings) (cfg : FsmConfig) (goal sid : Option String) :
    Sound (new callId settings cfg goal sid) :=
  ⟨rfl, rfl, rfl, rfl, rfl, rfl⟩

/-- An event that tells neither of a transition nor of the call's end. -/
def quietEvent : Event → Prop
  | .stateChanged _ _ _ | .callCompleted _ _ | .callFailed _ _ => False
  | _ => True

theorem next_quietEvent {e : Event} (he : quietEvent e) (h : History) : h.next (.emit e) = h := by
  cases e <;> simp_all [quietEvent, History.next]

theorem emit_sound {s : AgentSession} (h : Sound s) {e : Event} (he : quietEvent e) : Sound (s.emit e) := by
  obtain ⟨h1, h2, h3, h4, h5, h6⟩ := h
  constructor <;> simp [emit, log, next_quietEvent he, *]

theorem classify_sound {s : AgentSession} (h : Sound s) (now : ℚ) (c : Classification) :
    Sound (s.classify now c) := by
  obtain ⟨frame, e, heq, conf, feats, rfl⟩ := s.classify_eq now c
  obtain ⟨h1, h2, h3, h4, h5, h6⟩ := h
  rw [heq]
  constructor <;> simpa [History.next]

theorem moved_sound {s : AgentSession} (h : Sound s) (fsm : CallStateMachine) (now : ℚ) :
    Sound (s.moved fsm now) := by
  have hof := s.of_moved fsm now
  obtain ⟨h1, h2, h3, h4, h5, h6⟩ := h
  rw [moved_eq] at hof ⊢
  by_cases hf : fsm.state = s.fsm.state
  · rw [if_pos hf] at hof
    exact ⟨by rw [hof, h1]; exact hf.symm, by rw [hof]; exact h2, h3, by rw [hof]; exact h4, h5, h6⟩
  · rw [if_neg hf] at hof
    exact ⟨by rw [hof], by rw [hof]; exact h2, h3, by rw [hof]; exact h4, h5, h6⟩

/-- Ending the call is sound in any phase: the flag and the last word agree afterwards. -/
theorem fail_sound {s : AgentSession} (h : Sound s) (now : ℚ) (reason : String) :
    Sound (s.fail now reason) := by
  obtain ⟨h1, h2, h3, h4, h5, h6⟩ := h
  rw [fail_eq]
  constructor <;> simp [History.next, *]

theorem abort_sound {s : AgentSession} (h : Sound s) (reason : String) : Sound (s.abort reason) := by
  unfold abort
  split
  · exact h
  · exact fail_sound h _ _

theorem startMenu_sound {s : AgentSession} (h : Sound s) (now : ℚ) : Sound (s.startMenu now) := by
  obtain ⟨h1, h2, h3, h4, h5, h6⟩ := h
  rw [startMenu_eq h6]
  constructor <;> simp [History.next, menuJob, *]

theorem startProbe_sound {s : AgentSession} (h : Sound s) (now : ℚ) : Sound (s.startProbe now) := by
  obtain ⟨h1, h2, h3, h4, h5, h6⟩ := h
  rw [startProbe_eq h6]
  constructor <;> simp [History.next, probeJob, *]

theorem bridge_sound {s : AgentSession} (h : Sound s) (hst : s.fsm.state = .humanDetected) (now : ℚ)
    (reply : BridgeReply) : Sound (s.bridge now reply) := by
  obtain ⟨h1, h2, h3, h4, h5, h6⟩ := h
  by_cases hr : reply = .ok
  · rw [hr, bridge_ok_eq hst]
    constructor <;> simp [History.next, *]
  · obtain ⟨reason, heq⟩ := bridge_failed_eq (s := s) hr now
    rw [heq]
    constructor <;> simp [History.next, *]

/-- BRIDGE is only dispatched in HUMAN_DETECTED. -/
theorem dispatch_sound {s : AgentSession} (h : Sound s) {action : Action}
    (hb : action = .bridge → s.fsm.state = .humanDetected) (now : ℚ) (reply : BridgeReply) :
    Sound (s.dispatch action now reply) := by
  cases action with
  | none => exact h
  | wakeTier2Menu => exact ⟨h.state, h.phase, h.slot, h.flight, h.alive, h.opened⟩
  | wakeTier2Probe =>
    simp only [dispatch]
    split
    · exact startProbe_sound h now
    · exact h
  | bridge => exact bridge_sound h (hb rfl) now reply
  | fail => exact fail_sound h now _

/-- `observe` moves the machine, reports it and dispatches the action. -/
theorem observe_eq (s : AgentSession) (now : ℚ) (i : Tick) :
    s.observe now i = (s.moved (s.fsm.observe i.cls.label i.cls.confidence now).1 now).dispatch
      (s.fsm.observe i.cls.label i.cls.confidence now).2 now i.onBridge := rfl

/-- `applyProbe` reports the verdict, then moves the machine, reports it and dispatches. -/
theorem applyProbe_eq (s : AgentSession) (o : ProbeOutcome) (now : ℚ) (reply : BridgeReply) :
    s.applyProbe o now reply =
      ((s.emit (.probeResult now o.isHuman)).moved (s.fsm.probeResult o.isHuman now).1 now).dispatch
        (s.fsm.probeResult o.isHuman now).2 now reply := rfl

theorem observe_sound {s : AgentSession} (h : Sound s) (now : ℚ) (i : Tick) : Sound (s.observe now i) := by
  rw [observe_eq]
  have hm := s.fsm.observe_move i.cls.label i.cls.confidence now
  generalize s.fsm.observe i.cls.label i.cls.confidence now = p at hm ⊢
  refine dispatch_sound (moved_sound h p.1 now) (fun hb => ?_) now _
  rw [hb] at hm
  exact absurd hm CallStateMachine.Move.not_bridge

theorem wakeMenu_sound {s : AgentSession} (h : Sound s) (now : ℚ) : Sound (s.wakeMenu now) := by
  unfold wakeMenu
  split
  · split
    · have h' : Sound { s with menuWakeDue := none } := ⟨h.state, h.phase, h.slot, h.flight, h.alive, h.opened⟩
      dsimp only
      split
      · exact startMenu_sound h' now
      · exact h'
    · exact h
  · exact h

theorem applyMenu_sound {s : AgentSession} (h : Sound s) (d : MenuDecision) (now : ℚ) :
    Sound (s.applyMenu d now) := by
  obtain ⟨h1, h2, h3, h4, h5, h6⟩ := h
  unfold applyMenu
  split
  · constructor <;> simpa [emit, log, History.next]
  · exact ⟨by simpa using h1, h2, h3, h4, h5, h6⟩

theorem applyProbe_sound {s : AgentSession} (h : Sound s) (o : ProbeOutcome) (now : ℚ)
    (reply : BridgeReply) : Sound (s.applyProbe o now reply) := by
  rw [applyProbe_eq]
  have h' : Sound (s.emit (.probeResult now o.isHuman)) :=
    emit_sound h (show quietEvent (.probeResult now o.isHuman) from trivial)
  refine dispatch_sound (moved_sound h' _ now) (fun hb => ?_) now _
  -- a bridge follows only a human verdict taken in EVALUATING_SPEECH
  by_cases hst : s.fsm.state = .evaluatingSpeech
  · cases ho : o.isHuman with
    | true =>
      rw [CallStateMachine.probeResult_human hst]
      simp [moved_eq]
    | false => simp [ho, CallStateMachine.probeResult_not_human hst] at hb
  · simp [CallStateMachine.probeResult_stale hst] at hb

theorem tier2Failed_sound {s : AgentSession} (h : Sound s) (kind : Tier2Kind) (e : Tier2Error) (now : ℚ) :
    Sound (s.tier2Failed kind e now) := by
  cases e <;> simp only [tier2Failed] <;> (try split) <;> first | exact fail_sound h now _ | exact h

/-- `poll` hands a result to the handler of its own kind. -/
theorem applyResult_sound {s : AgentSession} (h : Sound s) {j : Job} {kind : Tier2Kind} (hk : j.kind = kind)
    (a : Answer) (now : ℚ) (reply : BridgeReply) : Sound (s.applyResult kind (j.run a) now reply) := by
  subst hk
  cases hj : j.kind with
  | menu =>
    cases hm : a.menu with
    | ok d => simpa [applyResult, Job.run, hj, hm, Except.map] using applyMenu_sound h d now
    | error e => simpa [applyResult, Job.run, hj, hm, Except.map] using tier2Failed_sound h _ e now
  | probe =>
    cases hp : a.probe with
    | ok o => simpa [applyResult, Job.run, hj, hp, Except.map] using applyProbe_sound h o now reply
    | error e => simpa [applyResult, Job.run, hj, hp, Except.map] using tier2Failed_sound h _ e now

/-- The session once `poll` has returned a result, before it is applied. -/
def taken (s : AgentSession) (j : Job) (r : Tier2Result) : AgentSession :=
  { s with exec := { s.exec with future := none }, tier2Kind := none }.log (.polled j r)

theorem taken_sound {s : AgentSession} (h : Sound s) (j : Job) (r : Tier2Result) : Sound (s.taken j r) := by
  obtain ⟨h1, h2, h3, h4, h5, h6⟩ := h
  constructor <;> simp [taken, log, History.next, *]

/-- Everything one poll can do: nothing, or apply the outstanding job's answer. -/
theorem pollTier2_cases {s : AgentSession} (h : Sound s) (now : ℚ) (i : Tick) :
    (s.pollTier2 now i = s ∧ (s.tier2Kind = none ∨ i.answer = none)) ∨
    ∃ j a, s.exec.future = some j ∧ s.tier2Kind = some j.kind ∧ i.answer = some a ∧
      s.pollTier2 now i = (s.taken j (j.run a)).applyResult j.kind (j.run a) now i.onBridge := by
  cases hf : s.exec.future with
  | none =>
    have hk : s.tier2Kind = none := by rw [← h.slot, hf]; rfl
    exact .inl ⟨by simp [pollTier2, hk], .inl hk⟩
  | some j =>
    have hk : s.tier2Kind = some j.kind := by rw [← h.slot, hf]; rfl
    cases ha : i.answer with
    | none => exact .inl ⟨by simp [pollTier2, hk, ThreadedExecutor.poll, hf, ha], .inr rfl⟩
    | some a =>
      refine .inr ⟨j, a, rfl, hk, rfl, ?_⟩
      simp [pollTier2, hk, ThreadedExecutor.poll, hf, ha, taken]

/-- The same by what the answer is: the job's own flight comes back, and goes to its own handler. -/
theorem pollTier2_results {s : AgentSession} (h : Sound s) (now : ℚ) (i : Tick) :
    (s.pollTier2 now i = s ∧ (s.tier2Kind = none ∨ i.answer = none)) ∨
    ∃ fl a, (History.of s.trace).flight = some fl ∧ i.answer = some a ∧
      ((∃ d, s.tier2Kind = some .menu ∧ fl.job.kind = .menu ∧ a.menu = .ok d ∧
          s.pollTier2 now i = (s.taken fl.job (.ok (.decision d))).applyMenu d now) ∨
       (∃ e, s.tier2Kind = some .menu ∧ a.menu = .error e ∧
          s.pollTier2 now i = (s.taken fl.job (.error e)).tier2Failed .menu e now) ∨
       (∃ o, s.tier2Kind = some .probe ∧ fl.job.kind = .probe ∧ a.probe = .ok o ∧
          s.pollTier2 now i = (s.taken fl.job (.ok (.outcome o))).applyProbe o now i.onBridge) ∨
       (∃ e, s.tier2Kind = some .probe ∧ a.probe = .error e ∧
          s.pollTier2 now i = (s.taken fl.job (.error e)).tier2Failed .probe e now)) := by
  rcases pollTier2_cases h now i with hn | ⟨j, a, hfut, hk, ha, he⟩
  · exact .inl hn
  obtain ⟨fl, hfl, rfl⟩ : ∃ fl, (History.of s.trace).flight = some fl ∧ fl.job = j := by
    have hj := h.flight
    rw [hfut] at hj
    exact Option.map_eq_some_iff.1 hj
  refine .inr ⟨fl, a, hfl, ha, ?_⟩
  cases hj : fl.job.kind with
  | menu =>
    rw [hj] at hk
    cases hm : a.menu with
    | ok d => exact .inl ⟨d, hk, rfl, rfl, by rw [he]; simp [Job.run, hj, hm, Except.map, applyResult]⟩
    | error e => exact .inr (.inl ⟨e, hk, rfl, by rw [he]; simp [Job.run, hj, hm, Except.map, applyResult]⟩)
  | probe =>
    rw [hj] at hk
    cases hp : a.probe with
    | ok o =>
      exact .inr (.inr (.inl ⟨o, hk, rfl, rfl, by rw [he]; simp [Job.run, hj, hp, Except.map, applyResult]⟩))
    | error e =>
      exact .inr (.inr (.inr ⟨e, hk, rfl, by rw [he]; simp [Job.run, hj, hp, Except.map, applyResult]⟩))

theorem pollTier2_sound {s : AgentSession} (h : Sound s) (now : ℚ) (i : Tick) : Sound (s.pollTier2 now i) := by
  rcases pollTier2_cases h now i with ⟨he, -⟩ | ⟨j, a, -, -, -, he⟩
  · rw [he]; exact h
  · rw [he]; exact applyResult_sound (taken_sound h j _) rfl a now _

/-- A tick is its four stages: nothing crashes on the way. -/
theorem runTick_eq {s : AgentSession} (h : Sound s) (now : ℚ) (i : Tick) :
    s.runTick now i = (((s.classify now i.cls).observe now i).wakeMenu now).pollTier2 now i := by
  have h1 := observe_sound (classify_sound h now i.cls) now i
  simp [runTick, h1.alive, (wakeMenu_sound h1 now).alive]

theorem runTick_sound {s : AgentSession} (h : Sound s) (now : ℚ) (i : Tick) : Sound (s.runTick now i) := by
  rw [runTick_eq h]
  exact pollTier2_sound (wakeMenu_sound (observe_sound (classify_sound h now _) now i) now) now i

/-- The loop's guard (session.py:141): it has not returned and a tick is due. -/
def Due (s : AgentSession) : Prop := s.finished = false ∧ s.nextClassifyAt ≤ s.audioSeconds

instance (s : AgentSession) : Decidable s.Due := inferInstanceAs (Decidable (_ ∧ _))

theorem loopPass_idle {s : AgentSession} (h : ¬ s.Due) (i : Tick) : s.loopPass i = s := by
  unfold loopPass
  rw [if_pos]
  by_cases hf : s.finished = true
  · exact .inl hf
  · exact .inr (.inr (lt_of_not_ge fun hn => h ⟨by simpa using hf, hn⟩))

theorem loopPass_due {s : AgentSession} (h : Sound s) (hd : s.Due) (i : Tick) :
    s.loopPass i = { s.runTick s.nextClassifyAt i with
      nextClassifyAt := (s.runTick s.nextClassifyAt i).nextClassifyAt + s.settings.interval } := by
  unfold loopPass
  have hn : ¬ s.audioSeconds < s.nextClassifyAt := not_lt.2 hd.2
  simp [hd.1, h.alive, hn, (runTick_sound h s.nextClassifyAt i).alive]

theorem loopPass_sound {s : AgentSession} (h : Sound s) (i : Tick) : Sound (s.loopPass i) := by
  by_cases hd : s.Due
  · rw [loopPass_due h hd]
    have h' := runTick_sound h s.nextClassifyAt i
    exact ⟨h'.state, h'.phase, h'.slot, h'.flight, h'.alive, h'.opened⟩
  · rw [loopPass_idle hd]; exact h

theorem ingest_sound {s : AgentSession} (h : Sound s) (pcm : Pcm) : Sound (s.ingest pcm) := by
  unfold ingest
  split
  · exact h
  · dsimp only
    split <;> exact ⟨h.state, h.phase, h.slot, h.flight, h.alive, h.opened⟩

theorem step_sound (s : AgentSession) (m : Move) (h : Sound s) : Sound (step s m) := by
  cases m with
  | ingest pcm => exact ingest_sound h pcm
  | tick i => exact loopPass_sound h i
  | abort reason => exact abort_sound h reason

/-- A call of the transport's is a run of moves. -/
theorem call_eq (s : AgentSession) (c : Call) : call s c = Run.exec step s c.moves := by
  cases c with
  | feed pcm ticks => simp only [call, feedAudio, Call.moves, Run.exec, List.foldl_cons, List.foldl_map, step]
  | abort reason => rfl

end AgentSession

end DialPass
