import DialPass.Session.Outcome
import DialPass.Session.Stages
/-!
# A session's whole life (agent/session.py)

`Act` is what any caller may do to a session: the moves of `Session`, `close()`, and `feed_audio` again
after a call of it that raised (`submit` raises on a closed executor, and leaves the tick where it stands).
Nothing here asks for `Sound`.

`replay` follows the reported transitions along the documented graph. `Walks s t` says that from `s` to `t`
the machine took reported edges between live states only, and the call was neither bridged nor ended; what
else a tick can do is a give-up on the label stream, and what `pollTier2_outcome` lists.
-/

namespace DialPass

/-- The documented graph (design-decisions.md:303). -/
def edges : Finset (CallState × CallState) :=
  {(.dialing, .ivrMenu), (.dialing, .onHold), (.ivrMenu, .onHold), (.onHold, .ivrMenu),
   (.onHold, .evaluatingSpeech), (.evaluatingSpeech, .onHold), (.evaluatingSpeech, .humanDetected),
   (.humanDetected, .bridging), (.bridging, .done)} ∪ liveStates ×ˢ {.failed}

/-- What the label stream does to the machine is an edge of the graph, between live states unless it fails. -/
theorem CallStateMachine.Move.edge {a b : CallState} {act : Action} (h : Move a b act) (hf : act ≠ .fail) :
    a = b ∨ ((a, b) ∈ edges ∧ a ∈ liveStates ∧ b ∈ liveStates) := by
  cases h with
  | stay st => exact .inl rfl
  | submenu => exact .inl rfl
  | giveUp hl => exact absurd rfl hf
  | _ => exact .inr (by decide)

/-- The state a reported transition leads to, if it is an edge of the graph from where we are. -/
def follow (st : CallState) : Effect → Option CallState
  | .emit (.stateChanged _ frm dst) => if frm = st ∧ (frm, dst) ∈ edges then some dst else none
  | _ => some st

/-- The state that the `StateChanged` events lead to from DIALING. -/
def replay (tr : List Effect) : Option CallState := tr.foldlM follow .dialing

/-- Bridging the call, or ending it. -/
def Effect.Decisive : Effect → Prop
  | .onBridge | .emit (.bridgeStarted _) | .emit (.callCompleted _ _) | .emit (.callFailed _ _) => True
  | _ => False

namespace AgentSession

/-! ## Acts -/

inductive Act where
  | move (m : Move)
  | close

/-- A new call of `feed_audio` starts afresh, also after one that raised. -/
def act (s : AgentSession) : Act → AgentSession
  | .move (.ingest pcm) => { s with crashed := false }.ingest pcm
  | .move (.tick i) => s.loopPass i
  | .move (.abort reason) => s.abort reason
  | .close => s.close

/-- The answer of `on_bridge`, in an act that may call it. -/
def Act.reply : Act → Option BridgeReply
  | .move (.tick i) => some i.onBridge
  | _ => none

/-! ## Walks -/

structure Walk (es : List Effect) (s t : AgentSession) : Prop where
  trace : t.trace = s.trace ++ es
  path : es.foldlM follow s.fsm.state = some t.fsm.state
  calm : ∀ e ∈ es, ¬ e.Decisive
  finished : t.finished = s.finished
  settled : ∀ st, st ∉ liveStates → (t.fsm.state = st ↔ s.fsm.state = st)

def Walks (s t : AgentSession) : Prop := ∃ es, Walk es s t

variable {s t u : AgentSession}

/-- What is told in one more stretch of trace. -/
theorem exists_append {p : Effect → Prop} {es : List Effect} (h : t.trace = s.trace ++ es) :
    (∃ e ∈ t.trace, p e) ↔ (∃ e ∈ s.trace, p e) ∨ ∃ e ∈ es, p e := by
  simp [h, or_and_right, exists_or]

theorem Walks.of_fields (htr : t.trace = s.trace) (hst : t.fsm.state = s.fsm.state)
    (hfin : t.finished = s.finished) : Walks s t := by
  refine ⟨[], by rw [htr, List.append_nil], ?_, by simp, hfin, fun st _ => by rw [hst]⟩
  rw [hst]
  rfl

theorem Walks.refl (s : AgentSession) : Walks s s := .of_fields rfl rfl rfl

theorem Walks.trans (h : Walks s t) (h' : Walks t u) : Walks s u := by
  obtain ⟨es, h1, h2, h3, h4, h5⟩ := h
  obtain ⟨fs, g1, g2, g3, g4, g5⟩ := h'
  refine ⟨es ++ fs, by rw [g1, h1, List.append_assoc], ?_, ?_, g4.trans h4, fun st hst => (g5 st hst).trans (h5 st hst)⟩
  · rw [List.foldlM_append, h2]
    exact g2
  · intro e he
    rcases List.mem_append.1 he with he | he
    · exact h3 e he
    · exact g3 e he

/-- One effect that is no transition and decides nothing. -/
theorem log_walks (s : AgentSession) (e : Effect) (hc : ¬ e.Decisive) (hf : ∀ st, follow st e = some st) :
    Walks s (s.log e) := by
  refine ⟨[e], rfl, ?_, by simpa using hc, rfl, fun _ _ => Iff.rfl⟩
  simp [hf, log]

/-- A reported edge between live states. -/
theorem moved_walks (s : AgentSession) (fsm : CallStateMachine) (now : ℚ)
    (h : s.fsm.state = fsm.state ∨
      ((s.fsm.state, fsm.state) ∈ edges ∧ s.fsm.state ∈ liveStates ∧ fsm.state ∈ liveStates)) :
    Walks s (s.moved fsm now) := by
  rw [moved_eq]
  rcases h with h | ⟨he, hs, ht⟩
  · exact .of_fields (by simp [h]) h.symm rfl
  · by_cases hst : fsm.state = s.fsm.state
    · exact .of_fields (by simp [hst]) hst rfl
    · refine ⟨[.emit (.stateChanged now s.fsm.state fsm.state)], by simp [hst], ?_, by simp [Effect.Decisive], rfl, ?_⟩
      · simp [follow, he]
      · intro st hl
        exact iff_of_false (fun hn => hl (hn ▸ ht)) (fun hn => hl (hn ▸ hs))

theorem submit_walks (s : AgentSession) (j : Job) : Walks s (s.submit j) := by
  unfold submit
  split
  · rename_i exec _
    exact (Walks.of_fields rfl rfl rfl : Walks s { s with exec }).trans (log_walks _ _ id fun _ => rfl)
  · exact .of_fields rfl rfl rfl

theorem startMenu_walks (s : AgentSession) (now : ℚ) : Walks s (s.startMenu now) := by
  refine (log_walks s (.emit (.tier2Woken now .menu)) id fun _ => rfl).trans (Walks.trans ?_ (submit_walks _ _))
  exact .of_fields rfl rfl rfl

theorem startProbe_walks (s : AgentSession) (now : ℚ) : Walks s (s.startProbe now) := by
  refine (log_walks s (.emit (.tier2Woken now .probe)) id fun _ => rfl).trans (Walks.trans ?_ (submit_walks _ _))
  exact .of_fields rfl rfl rfl

theorem classify_walks (s : AgentSession) (now : ℚ) (c : Classification) : Walks s (s.classify now c) :=
  (log_walks s (.classify _) id fun _ => rfl).trans (log_walks _ (.emit (.frameClassified ..)) id fun _ => rfl)

theorem wakeMenu_walks (s : AgentSession) (now : ℚ) : Walks s (s.wakeMenu now) := by
  rcases wakeMenu_cases s now with ⟨due, he⟩ | ⟨-, -, he⟩ <;> rw [he]
  · exact .of_fields rfl rfl rfl
  · exact (Walks.of_fields rfl rfl rfl : Walks s { s with menuWakeDue := none }).trans (startMenu_walks _ now)

/-- The FSM's half of a tick walks, unless the label stream gives the call up. -/
theorem observe_walks (s : AgentSession) (now : ℚ) (i : Tick)
    (hn : ¬ s.fsm.Fails i.cls.label i.cls.confidence) : Walks s (s.observe now i) := by
  have hf := (CallStateMachine.observe_fail_iff s.fsm i.cls.label i.cls.confidence now).not.2 hn
  have hm := moved_walks s (s.fsm.observe i.cls.label i.cls.confidence now).1 now
    ((s.fsm.observe_move i.cls.label i.cls.confidence now).edge hf)
  rcases observe_cases s now i with ⟨-, -, due, he⟩ | ⟨-, -, he⟩ | ⟨-, -, he⟩ | ⟨hp, -⟩
  · rw [he]
    exact hm.trans (.of_fields rfl rfl rfl)
  · rw [he]
    exact hm.trans (startProbe_walks _ now)
  · rw [he]; exact hm
  · exact absurd hp hf

/-- The label stream gives the call up: the machine fails, says so, and the call ends. -/
theorem observe_fails (s : AgentSession) (now : ℚ) (i : Tick) (hf : s.fsm.Fails i.cls.label i.cls.confidence) :
    (s.observe now i).trace = s.trace ++ [.emit (.stateChanged now s.fsm.state .failed),
        .emit (.callFailed now "non_connect"), .onFail "non_connect"] ∧
      (s.observe now i).fsm.state = .failed ∧ (s.observe now i).finished = true := by
  have hne : CallState.failed ≠ s.fsm.state := fun he => by
    have hl := hf.1
    rw [← he] at hl
    exact absurd hl (by decide)
  rw [observe_eq, moved_eq, CallStateMachine.observe_of_fails hf]
  simp [dispatch, fail_eq, hne]

/-! ## What a poll finds -/

/-- The result a poll hands over, and the kind of call it is taken for (session.py:211-217). -/
def polled (s : AgentSession) (i : Tick) : Option (Tier2Kind × Tier2Result) :=
  match s.tier2Kind, s.exec.poll i.answer with
  | some kind, (_, some (_, r)) => some (kind, r)
  | _, _ => none

/-- The poll finds a human verdict in time. -/
def Bridges (s : AgentSession) (i : Tick) : Prop :=
  s.fsm.state = .evaluatingSpeech ∧
    match s.polled i with
    | some (.probe, .ok (.outcome o)) => o.isHuman = true
    | _ => False

/-- The poll finds an error that ends the call, or a human verdict whose handoff fails. -/
def GivesUp (s : AgentSession) (i : Tick) : Prop :=
  match s.polled i with
  | some (kind, .error e) => kind = .probe ∨ e = .notImplemented ∨ e = .circuitOpen
  | _ => s.Bridges i ∧ i.onBridge ≠ .ok

/-- The events of a verdict that bridges, up to the hook. -/
def bridgeCall (now : ℚ) : List Effect :=
  [.emit (.probeResult now true), .emit (.stateChanged now .evaluatingSpeech .humanDetected),
    .emit (.humanDetected now), .onBridge]

/-- What follows the hook if it returned. -/
def bridgeDone (now : ℚ) : List Effect :=
  [.emit (.stateChanged now .humanDetected .bridging), .emit (.bridgeStarted now),
    .emit (.stateChanged now .bridging .done), .emit (.callCompleted now "human_bridged")]

theorem tier2Failed_outcome (s : AgentSession) (kind : Tier2Kind) (e : Tier2Error) (now : ℚ) :
    (¬ (kind = .probe ∨ e = .notImplemented ∨ e = .circuitOpen) ∧ s.tier2Failed kind e now = s) ∨
    ((kind = .probe ∨ e = .notImplemented ∨ e = .circuitOpen) ∧
      ∃ reason, s.tier2Failed kind e now = s.fail now reason) := by
  cases e with
  | notImplemented => exact .inr ⟨by simp, _, rfl⟩
  | circuitOpen => exact .inr ⟨by simp, _, rfl⟩
  | unavailable msg =>
    cases kind with
    | menu => exact .inl ⟨by simp, rfl⟩
    | probe => exact .inr ⟨by simp, _, rfl⟩
  | other msg =>
    cases kind with
    | menu => exact .inl ⟨by simp, rfl⟩
    | probe => exact .inr ⟨by simp, _, rfl⟩

theorem applyMenu_walks (s : AgentSession) (d : MenuDecision) (now : ℚ) : Walks s (s.applyMenu d now) := by
  unfold applyMenu
  split
  · rename_i digits _ _
    refine (log_walks s (.dtmfSender digits) id fun _ => rfl).trans
      ((log_walks _ (.emit (.dtmfSent now digits)) id fun _ => rfl).trans ?_)
    exact .of_fields rfl (CallStateMachine.noteMenuAction_state _ now) rfl
  · exact .of_fields rfl (CallStateMachine.noteMenuAbstained_state _) rfl

theorem applyProbe_walks (s : AgentSession) (o : ProbeOutcome) (now : ℚ) (reply : BridgeReply)
    (h : ¬ (s.fsm.state = .evaluatingSpeech ∧ o.isHuman = true)) : Walks s (s.applyProbe o now reply) := by
  rw [applyProbe_eq]
  refine (log_walks s (.emit (.probeResult now o.isHuman)) id fun _ => rfl).trans ?_
  by_cases hst : s.fsm.state = .evaluatingSpeech
  · have ho : o.isHuman = false := by simpa [hst] using h
    rw [ho, CallStateMachine.probeResult_not_human hst]
    refine moved_walks _ _ now (.inr ?_)
    rw [CallStateMachine.fallBackToHold_state]
    show (s.fsm.state, _) ∈ edges ∧ s.fsm.state ∈ liveStates ∧ _
    rw [hst]
    decide
  · rw [CallStateMachine.probeResult_stale hst]
    exact moved_walks _ _ now (.inl rfl)

theorem applyProbe_bridges {s : AgentSession} {o : ProbeOutcome} (hst : s.fsm.state = .evaluatingSpeech)
    (ho : o.isHuman = true) (now : ℚ) (reply : BridgeReply) :
    (reply = .ok ∧ (s.applyProbe o now reply).trace = s.trace ++ bridgeCall now ++ bridgeDone now ∧
      (s.applyProbe o now reply).fsm.state = .done ∧ (s.applyProbe o now reply).finished = true) ∨
    (reply ≠ .ok ∧ (∃ reason, (s.applyProbe o now reply).trace =
        s.trace ++ bridgeCall now ++ [.emit (.callFailed now reason), .onFail reason]) ∧
      (s.applyProbe o now reply).fsm.state = .humanDetected ∧ (s.applyProbe o now reply).finished = true) := by
  rw [applyProbe_eq, ho, CallStateMachine.probeResult_human hst, moved_eq]
  simp only [emit, log, CallStateMachine.enter_state, hst, ne_eq, reduceCtorEq, not_false_eq_true, if_true, dispatch]
  by_cases hr : reply = .ok
  · refine .inl ⟨hr, ?_⟩
    rw [hr, bridge_ok_eq (by simp)]
    simp [bridgeCall, bridgeDone]
  · refine .inr ⟨hr, ?_⟩
    obtain ⟨reason, heq⟩ := bridge_failed_eq (s := { s with
      fsm := s.fsm.enter .humanDetected
      trace := s.trace ++ [Effect.emit (.probeResult now true)] ++
        [Effect.emit (.stateChanged now .evaluatingSpeech .humanDetected)] }) hr now
    rw [heq]
    exact ⟨⟨reason, by simp [bridgeCall]⟩, by simp, rfl⟩

/-- **What a poll can come to**: a walk, the end of the call, or a verdict that bridges it, or tries to. -/
theorem pollTier2_outcome (s : AgentSession) (now : ℚ) (i : Tick) :
    (¬ s.GivesUp i ∧ ¬ s.Bridges i ∧ Walks s (s.pollTier2 now i)) ∨
    (s.GivesUp i ∧ ¬ s.Bridges i ∧ ∃ u reason, Walks s u ∧ s.pollTier2 now i = u.fail now reason) ∨
    (s.Bridges i ∧ ∃ es fs, (s.pollTier2 now i).trace = s.trace ++ es ++ bridgeCall now ++ fs ∧
      (∃ j r, es = [.polled j r]) ∧ (s.pollTier2 now i).finished = true ∧
      ((¬ s.GivesUp i ∧ i.onBridge = .ok ∧ fs = bridgeDone now ∧ (s.pollTier2 now i).fsm.state = .done) ∨
       (s.GivesUp i ∧ i.onBridge ≠ .ok ∧ (∃ reason, fs = [.emit (.callFailed now reason), .onFail reason]) ∧
        (s.pollTier2 now i).fsm.state = .humanDetected))) := by
  unfold GivesUp Bridges pollTier2 polled
  cases s.tier2Kind with
  | none => exact .inl ⟨by simp, by simp, .refl s⟩
  | some kind =>
    obtain ⟨exec, out⟩ := s.exec.poll i.answer
    cases out with
    | none => exact .inl ⟨by simp, by simp, .refl s⟩
    | some jr =>
      obtain ⟨j, r⟩ := jr
      -- the session once it has taken the result
      have hw : Walks s ({ s with exec, tier2Kind := none }.log (.polled j r)) :=
        (Walks.of_fields rfl rfl rfl : Walks s { s with exec, tier2Kind := none }).trans
          (log_walks _ (.polled j r) id fun _ => rfl)
      cases r with
      | error e =>
        rcases tier2Failed_outcome ({ s with exec, tier2Kind := none }.log (.polled j (.error e))) kind e now with
          ⟨hn, he⟩ | ⟨hp, reason, he⟩
        · exact .inl ⟨hn, by simp, by simpa only [applyResult, he] using hw⟩
        · exact .inr (.inl ⟨hp, by simp, _, reason, hw, he⟩)
      | ok v =>
        cases kind with
        | menu =>
          cases v with
          | decision d => exact .inl ⟨by simp, by simp, hw.trans (applyMenu_walks _ d now)⟩
          | outcome o => exact .inl ⟨by simp, by simp, hw.trans (.of_fields rfl rfl rfl)⟩
        | probe =>
          cases v with
          | decision d => exact .inl ⟨by simp, by simp, hw.trans (.of_fields rfl rfl rfl)⟩
          | outcome o =>
            by_cases hb : s.fsm.state = .evaluatingSpeech ∧ o.isHuman = true
            · refine .inr (.inr ⟨hb, [.polled j (.ok (.outcome o))], ?_⟩)
              rcases applyProbe_bridges (s := { s with exec, tier2Kind := none }.log (.polled j (.ok (.outcome o))))
                hb.1 hb.2 now i.onBridge with ⟨hr, htr, hst, hf⟩ | ⟨hr, ⟨reason, htr⟩, hst, hf⟩
              · exact ⟨_, htr, ⟨j, _, rfl⟩, hf, .inl ⟨fun h => h.2 hr, hr, rfl, hst⟩⟩
              · exact ⟨_, htr, ⟨j, _, rfl⟩, hf, .inr ⟨⟨hb, hr⟩, hr, ⟨reason, rfl⟩, hst⟩⟩
            · exact .inl ⟨fun h => hb h.1, hb, hw.trans (applyProbe_walks _ o now _ hb)⟩

/-! ## A tick -/

/-- The session as a tick brings it to its poll; `none` if the tick has raised before. -/
def toPoll (s : AgentSession) (now : ℚ) (i : Tick) : Option AgentSession :=
  let s := (s.classify now i.cls).observe now i
  if s.crashed then none
  else
    let s := s.wakeMenu now
    if s.crashed then none else some s

/-- A tick classifies and observes, and then polls, unless it raises on the way there. -/
theorem runTick_cases (s : AgentSession) (now : ℚ) (i : Tick) :
    (∃ u, s.toPoll now i = some u ∧ Walks ((s.classify now i.cls).observe now i) u ∧
      s.runTick now i = u.pollTier2 now i) ∨
    (s.toPoll now i = none ∧ Walks ((s.classify now i.cls).observe now i) (s.runTick now i)) := by
  unfold toPoll runTick
  dsimp only
  split
  · exact .inr ⟨rfl, .refl _⟩
  · split
    · exact .inr ⟨rfl, wakeMenu_walks _ now⟩
    · exact .inl ⟨_, rfl, wakeMenu_walks _ now, rfl⟩

/-- The loop takes the tick: it is due, and nothing has raised in this call. -/
def Ticks (s : AgentSession) : Prop := s.Due ∧ s.crashed = false

instance (s : AgentSession) : Decidable s.Ticks := inferInstanceAs (Decidable (_ ∧ _))

theorem loopPass_rests {s : AgentSession} (h : ¬ s.Ticks) (i : Tick) : s.loopPass i = s := by
  unfold loopPass
  rw [if_pos]
  by_contra hn
  simp only [not_or, Bool.not_eq_true, not_lt] at hn
  exact h ⟨⟨hn.1, hn.2.2⟩, hn.2.1⟩

/-- Of what the tick did only the clock is changed. -/
theorem loopPass_ticks {s : AgentSession} (h : s.Ticks) (i : Tick) :
    ∃ t, s.loopPass i = { s.runTick s.nextClassifyAt i with nextClassifyAt := t } := by
  unfold loopPass
  rw [if_neg (by simp [h.1.1, h.2, h.1.2])]
  dsimp only
  split
  · exact ⟨_, rfl⟩
  · exact ⟨_, rfl⟩

theorem ingest_fields (s : AgentSession) (pcm : Pcm) :
    (s.ingest pcm).trace = s.trace ∧ (s.ingest pcm).fsm = s.fsm ∧ (s.ingest pcm).finished = s.finished ∧
      (s.ingest pcm).exec = s.exec := by
  unfold ingest
  split
  · exact ⟨rfl, rfl, rfl, rfl⟩
  · dsimp only
    split <;> exact ⟨rfl, rfl, rfl, rfl⟩

end AgentSession

end DialPass
