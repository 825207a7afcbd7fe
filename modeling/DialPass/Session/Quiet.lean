import DialPass.Session.Stages
/-!
# The end of a call is its last word (session.py:147-177, session.py:292-306)

`Quiet` says that a trace ends once: one of `CallCompleted` and `CallFailed` at most, the single
`on_fail` right after the latter, and after that nothing but the executor handing back a result that
has no effect.

`feed_audio` returns as soon as a tick has ended the call, but the tick itself goes on: after
`_dispatch` has failed the call on a non-connect label, `_run_tick` still polls Tier 2
(session.py:177) and applies what it finds. `quiet_iff` says that this is the only way to break the
law, and breaks it whenever the result polled there acts (`Acts`).
-/

namespace DialPass

/-- What may still happen, by how far the end has got. -/
def Phase.allows : Phase → Effect → Bool
  | .live, .onFail _ => false
  | .live, _ => true
  | .failing, .onFail _ => true
  | .failing, _ => false
  | .over, .polled _ _ => true
  | .over, _ => false

namespace AgentSession

open History

def Quiet (s : AgentSession) : Prop := Accepts (fun h e => h.phase.allows e = true) s.trace

instance (s : AgentSession) : Decidable s.Quiet := inferInstanceAs (Decidable (Accepts _ _))

/-- Applying this answer to a job of this kind does something: any probe answer does (a verdict is
reported, an error ends the call), a menu answer if it presses a key or ends the call. -/
def Acts : Tier2Kind → Answer → Prop
  | .probe, _ => True
  | .menu, a => match a.menu with
    | .ok d => d.presses = true
    | .error e => e = .notImplemented ∨ e = .circuitOpen

/-- The step does not both fail the call on the label stream and poll a result that acts. -/
def EndsCleanly (s : AgentSession) : Move → Prop
  | .tick i => s.Due → s.fsm.Fails i.cls.label i.cls.confidence →
      ∀ k, s.tier2Kind = some k → ∀ a, i.answer = some a → ¬ Acts k a
  | _ => True

/-! ## While the call is live -/

theorem live_phase {s : AgentSession} (h : Sound s) (hf : s.finished = false) :
    (History.of s.trace).phase = .live := by
  rw [h.phase, hf]; rfl

theorem over_phase {s : AgentSession} (h : Sound s) (hf : s.finished = true) :
    (History.of s.trace).phase = .over := by
  rw [h.phase, hf]; rfl

theorem fail_quiet {s : AgentSession} (h : Sound s) (hf : s.finished = false) (hq : Quiet s) (now : ℚ)
    (reason : String) : Quiet (s.fail now reason) := by
  have hp := live_phase h hf
  simp [Quiet, fail_eq, Phase.allows, History.next, hp]
  exact hq

theorem fail_not_quiet {s : AgentSession} (h : Sound s) (hf : s.finished = true) (now : ℚ)
    (reason : String) : ¬ Quiet (s.fail now reason) := by
  have hp := over_phase h hf
  simp [Quiet, fail_eq, Phase.allows, hp]

theorem classify_quiet {s : AgentSession} (h : Sound s) (hf : s.finished = false) (hq : Quiet s) (now : ℚ)
    (c : Classification) : Quiet (s.classify now c) := by
  obtain ⟨frame, e, heq, conf, feats, rfl⟩ := s.classify_eq now c
  have hp := live_phase h hf
  simp [Quiet, heq, Phase.allows, History.next, hp]
  exact hq

theorem moved_quiet {s : AgentSession} (h : Sound s) (hf : s.finished = false) (hq : Quiet s)
    (fsm : CallStateMachine) (now : ℚ) :
    Quiet (s.moved fsm now) := by
  have hp := live_phase h hf
  rw [moved_eq]
  unfold Quiet
  dsimp only
  split
  · simp [Phase.allows, hp]; exact hq
  · exact hq

theorem startMenu_quiet {s : AgentSession} (h : Sound s) (hf : s.finished = false) (hq : Quiet s) (now : ℚ) :
    Quiet (s.startMenu now) := by
  have hp := live_phase h hf
  simp [Quiet, startMenu_eq h.opened, Phase.allows, History.next, hp]
  exact hq

theorem startProbe_quiet {s : AgentSession} (h : Sound s) (hf : s.finished = false) (hq : Quiet s) (now : ℚ) :
    Quiet (s.startProbe now) := by
  have hp := live_phase h hf
  simp [Quiet, startProbe_eq h.opened, Phase.allows, History.next, hp]
  exact hq

theorem bridge_quiet {s : AgentSession} (h : Sound s) (hf : s.finished = false) (hq : Quiet s)
    (hst : s.fsm.state = .humanDetected) (now : ℚ) (reply : BridgeReply) : Quiet (s.bridge now reply) := by
  have hp := live_phase h hf
  by_cases hr : reply = .ok
  · rw [hr, bridge_ok_eq hst]
    simp [Quiet, Phase.allows, History.next, hp]
    exact hq
  · obtain ⟨reason, heq⟩ := bridge_failed_eq (s := s) hr now
    rw [heq]
    simp [Quiet, Phase.allows, History.next, hp]
    exact hq

theorem dispatch_quiet {s : AgentSession} (h : Sound s) (hf : s.finished = false) (hq : Quiet s)
    {action : Action} (hb : action = .bridge → s.fsm.state = .humanDetected) (now : ℚ)
    (reply : BridgeReply) : Quiet (s.dispatch action now reply) := by
  cases action with
  | none => exact hq
  | wakeTier2Menu => exact hq
  | wakeTier2Probe =>
    simp only [dispatch]
    split
    · exact startProbe_quiet h hf hq now
    · exact hq
  | bridge => exact bridge_quiet h hf hq (hb rfl) now reply
  | fail => exact fail_quiet h hf hq now _

theorem wakeMenu_quiet {s : AgentSession} (h : Sound s) (hf : s.finished = false) (hq : Quiet s) (now : ℚ) :
    Quiet (s.wakeMenu now) := by
  rcases wakeMenu_cases s now with ⟨due, he⟩ | ⟨-, -, he⟩ <;> rw [he]
  · exact hq
  · have h' : Sound { s with menuWakeDue := none } := ⟨h.state, h.phase, h.slot, h.flight, h.alive, h.opened⟩
    exact startMenu_quiet h' hf hq now

theorem applyMenu_quiet {s : AgentSession} (h : Sound s) (hf : s.finished = false) (hq : Quiet s)
    (d : MenuDecision) (now : ℚ) : Quiet (s.applyMenu d now) := by
  have hp := live_phase h hf
  unfold applyMenu
  split
  · simp [Quiet, emit, log, Phase.allows, History.next, hp]; exact hq
  · exact hq

theorem applyProbe_quiet {s : AgentSession} (h : Sound s) (hf : s.finished = false) (hq : Quiet s)
    (o : ProbeOutcome) (now : ℚ) (reply : BridgeReply) : Quiet (s.applyProbe o now reply) := by
  rw [applyProbe_eq]
  have h' : Sound (s.emit (.probeResult now o.isHuman)) :=
    emit_sound h (show quietEvent (.probeResult now o.isHuman) from trivial)
  have hq' : Quiet (s.emit (.probeResult now o.isHuman)) := by
    simp [Quiet, emit, log, Phase.allows, live_phase h hf]; exact hq
  refine dispatch_quiet (moved_sound h' _ now) ?_ (moved_quiet h' hf hq' _ now) (fun hb => ?_) now _
  · rw [moved_eq]; exact hf
  · rw [moved_eq]; exact CallStateMachine.probeResult_bridge hb

theorem tier2Failed_quiet {s : AgentSession} (h : Sound s) (hf : s.finished = false) (hq : Quiet s)
    (kind : Tier2Kind) (e : Tier2Error) (now : ℚ) : Quiet (s.tier2Failed kind e now) := by
  cases e <;> simp only [tier2Failed] <;> (try split) <;> first | exact fail_quiet h hf hq now _ | exact hq

theorem taken_quiet {s : AgentSession} (h : Sound s) (hq : Quiet s) (j : Job) (r : Tier2Result) :
    Quiet (s.taken j r) := by
  have hp := h.phase
  cases hf : s.finished <;> rw [hf] at hp <;> simp [Quiet, taken, log, Phase.allows, hp] <;> exact hq

theorem pollTier2_quiet {s : AgentSession} (h : Sound s) (hf : s.finished = false) (hq : Quiet s) (now : ℚ)
    (i : Tick) : Quiet (s.pollTier2 now i) := by
  have ht : ∀ j r, Sound (s.taken j r) ∧ Quiet (s.taken j r) := fun j r => ⟨taken_sound h j r, taken_quiet h hq j r⟩
  rcases pollTier2_results h now i with ⟨he, -⟩ | ⟨fl, a, -, -, hres⟩
  · rw [he]; exact hq
  rcases hres with ⟨d, -, -, -, he⟩ | ⟨e, -, -, he⟩ | ⟨o, -, -, -, he⟩ | ⟨e, -, -, he⟩ <;> rw [he]
  · exact applyMenu_quiet (ht _ _).1 hf (ht _ _).2 d now
  · exact tier2Failed_quiet (ht _ _).1 hf (ht _ _).2 _ e now
  · exact applyProbe_quiet (ht _ _).1 hf (ht _ _).2 o now _
  · exact tier2Failed_quiet (ht _ _).1 hf (ht _ _).2 _ e now

/-! ## The poll of the tick that failed the call -/

theorem tier2Failed_over {s : AgentSession} (h : Sound s) (hf : s.finished = true) (hq : Quiet s)
    (kind : Tier2Kind) (e : Tier2Error) (now : ℚ) :
    Quiet (s.tier2Failed kind e now) ↔ ¬ (kind = .probe ∨ e = .notImplemented ∨ e = .circuitOpen) := by
  cases e with
  | notImplemented => simp [tier2Failed, fail_not_quiet h hf]
  | circuitOpen => simp [tier2Failed, fail_not_quiet h hf]
  | unavailable msg =>
    cases kind with
    | menu => simpa [tier2Failed] using hq
    | probe => simp [tier2Failed, fail_not_quiet h hf]
  | other msg =>
    cases kind with
    | menu => simpa [tier2Failed] using hq
    | probe => simp [tier2Failed, fail_not_quiet h hf]

theorem applyMenu_over {s : AgentSession} (h : Sound s) (hf : s.finished = true) (hq : Quiet s)
    (d : MenuDecision) (now : ℚ) : Quiet (s.applyMenu d now) ↔ ¬ d.presses = true := by
  have hp := over_phase h hf
  unfold applyMenu
  split
  · rename_i digits hd _
    simp [Quiet, emit, log, Phase.allows, hp, hd]
  · rename_i hn
    have hd : d.presses = false := by
      cases hpr : d.presses with
      | false => rfl
      | true =>
        cases hdig : d.digits with
        | none => simp [MenuDecision.presses, hdig] at hpr
        | some digits => exact absurd hdig (by simpa using hn digits hpr)
    simp only [hd, Bool.false_eq_true, not_false_eq_true, iff_true]
    exact hq

theorem applyProbe_over {s : AgentSession} (h : Sound s) (hf : s.finished = true)
    (hst : s.fsm.state ≠ .evaluatingSpeech) (o : ProbeOutcome) (now : ℚ) (reply : BridgeReply) :
    ¬ Quiet (s.applyProbe o now reply) := by
  have hp := over_phase h hf
  rw [applyProbe_eq, CallStateMachine.probeResult_stale hst]
  simp [dispatch, moved_eq, Quiet, emit, log, Phase.allows, hp]

/-- Polling after the call has failed keeps the law exactly when what it finds does not act. -/
theorem pollTier2_over {s : AgentSession} (h : Sound s) (hf : s.finished = true)
    (hst : s.fsm.state = .failed) (hq : Quiet s) (now : ℚ) (i : Tick) :
    Quiet (s.pollTier2 now i) ↔ ∀ k, s.tier2Kind = some k → ∀ a, i.answer = some a → ¬ Acts k a := by
  have ht : ∀ j r, Sound (s.taken j r) ∧ Quiet (s.taken j r) := fun j r => ⟨taken_sound h j r, taken_quiet h hq j r⟩
  have hst' : ∀ j r, (s.taken j r).fsm.state ≠ .evaluatingSpeech := by
    intro j r hr
    have hs : s.fsm.state = .evaluatingSpeech := hr
    rw [hst] at hs
    cases hs
  rcases pollTier2_results h now i with ⟨he, hn⟩ | ⟨fl, a, -, ha, hres⟩
  · rw [he]
    refine iff_of_true hq fun k hk a ha => ?_
    rcases hn with hn | hn
    · rw [hn] at hk; cases hk
    · rw [hn] at ha; cases ha
  rcases hres with ⟨d, hk, -, hm, he⟩ | ⟨e, hk, hm, he⟩ | ⟨o, hk, -, hp, he⟩ | ⟨e, hk, hp, he⟩ <;> rw [he, hk, ha]
  · simpa [Acts, hm] using applyMenu_over (ht _ _).1 hf (ht _ _).2 d now
  · simpa [Acts, hm] using tier2Failed_over (ht _ _).1 hf (ht _ _).2 .menu e now
  · simpa [Acts, hp] using applyProbe_over (ht _ _).1 hf (hst' _ _) o now _
  · simpa [Acts, hp] using tier2Failed_over (ht _ _).1 hf (ht _ _).2 .probe e now

/-! ## One tick -/

/-- What `observe` leaves when the label stream did not give the call up. -/
theorem observe_goes_on {s : AgentSession} (h : Sound s) (i : Tick) (now : ℚ)
    (hn : ¬ s.fsm.Fails i.cls.label i.cls.confidence) : (s.observe now i).finished = s.finished := by
  rcases observe_cases s now i with ⟨-, -, due, he⟩ | ⟨-, -, he⟩ | ⟨-, -, he⟩ | ⟨hp, -⟩
  · rw [he, moved_eq]
  · rw [he, startProbe_eq (moved_sound h _ now).opened, moved_eq]
  · rw [he, moved_eq]
  · exact absurd ((CallStateMachine.observe_fail_iff ..).1 hp) hn

/-- What `observe` leaves when it did: a failed machine and an ended session, the slot untouched. -/
theorem observe_gives_up {s : AgentSession} (i : Tick) (now : ℚ)
    (hn : s.fsm.Fails i.cls.label i.cls.confidence) :
    (s.observe now i).finished = true ∧ (s.observe now i).fsm.state = .failed ∧
      (s.observe now i).tier2Kind = s.tier2Kind := by
  rw [observe_eq, moved_eq, CallStateMachine.observe_of_fails hn]
  simp [dispatch, fail_eq]

theorem observe_quiet {s : AgentSession} (h : Sound s) (hf : s.finished = false) (hq : Quiet s) (now : ℚ)
    (i : Tick) : Quiet (s.observe now i) := by
  have hm := s.fsm.observe_move i.cls.label i.cls.confidence now
  rw [observe_eq]
  refine dispatch_quiet (moved_sound h _ now) ?_ (moved_quiet h hf hq _ now) (fun hb => ?_) now _
  · rw [moved_eq]; exact hf
  · rw [hb] at hm; exact absurd hm CallStateMachine.Move.not_bridge

/-- A pending menu wake does not fire once the machine has failed. -/
theorem wakeMenu_failed {s : AgentSession} (hst : s.fsm.state = .failed) (now : ℚ) :
    ∃ due, s.wakeMenu now = { s with menuWakeDue := due } := by
  rcases wakeMenu_cases s now with hw | ⟨hivr, -, -⟩
  · exact hw
  · rw [hst] at hivr; cases hivr

theorem wakeMenu_finished {s : AgentSession} (h : Sound s) (now : ℚ) :
    (s.wakeMenu now).finished = s.finished := by
  rcases wakeMenu_cases s now with ⟨due, he⟩ | ⟨-, -, he⟩ <;> rw [he]
  rw [startMenu_eq (by exact h.opened)]

/-- **One tick of a live call.** -/
theorem runTick_quiet_iff {s : AgentSession} (h : Sound s) (hf : s.finished = false) (hq : Quiet s) (now : ℚ)
    (i : Tick) : Quiet (s.runTick now i) ↔
      (s.fsm.Fails i.cls.label i.cls.confidence →
        ∀ k, s.tier2Kind = some k → ∀ a, i.answer = some a → ¬ Acts k a) := by
  rw [runTick_eq h]
  obtain ⟨hcm, hck, hcf⟩ := s.classify_fields now i.cls
  have hc := classify_sound h now i.cls
  have ho := observe_sound hc now i
  have hoq := observe_quiet hc (hcf.trans hf) (classify_quiet h hf hq now i.cls) now i
  by_cases hn : s.fsm.Fails i.cls.label i.cls.confidence
  · obtain ⟨g1, g2, g3⟩ := observe_gives_up (s := s.classify now i.cls) i now (by rw [hcm]; exact hn)
    obtain ⟨due, hw⟩ := wakeMenu_failed g2 now
    have hws := wakeMenu_sound ho now
    rw [hw] at hws ⊢
    rw [pollTier2_over hws g1 g2 hoq]
    simp only [hn, true_imp_iff, g3, hck]
  · have hof : ((s.classify now i.cls).observe now i).finished = false := by
      rw [observe_goes_on hc i now (by rw [hcm]; exact hn), hcf, hf]
    refine iff_of_true ?_ fun hn' => absurd hn' hn
    have hwf := (wakeMenu_finished ho now).trans hof
    exact pollTier2_quiet (wakeMenu_sound ho now) hwf (wakeMenu_quiet ho hof hoq now) now i

theorem step_quiet_iff (s : AgentSession) (m : Move) (h : Sound s) (hq : Quiet s) :
    Quiet (step s m) ↔ EndsCleanly s m := by
  cases m with
  | ingest pcm =>
    refine iff_of_true ?_ trivial
    simp only [step, ingest]
    split
    · exact hq
    · split <;> exact hq
  | tick i =>
    simp only [step, EndsCleanly]
    by_cases hd : s.Due
    · rw [loopPass_due h hd]
      simp only [hd, true_imp_iff]
      exact runTick_quiet_iff h hd.1 hq _ i
    · rw [loopPass_idle hd]
      exact iff_of_true hq fun hd' => absurd hd' hd
  | abort reason =>
    refine iff_of_true ?_ trivial
    simp only [step, abort]
    split
    · exact hq
    · rename_i hf
      exact fail_quiet h (by simpa using hf) hq _ _

/-- **`quiet_iff`**: over every run of a session, from construction on, the end of the call stays its
last word exactly when no tick both fails the call on a non-connect label and polls a Tier 2 result
that acts. -/
theorem quiet_iff (callId : String) (settings : Settings) (cfg : FsmConfig) (goal sid : Option String)
    (ms : List Move) :
    Run.Always step Quiet (new callId settings cfg goal sid) ms ↔
      Run.Along step EndsCleanly (new callId settings cfg goal sid) ms :=
  Run.always_iff_along step_sound step_quiet_iff ms _ (new_sound ..) trivial

/-- Five ticks of speech reach IVR_MENU; the menu read is submitted at 4 s and answers "2" only at
5 s, in the tick whose second VOICEMAIL frame has just failed the call. -/
def lateDigit : List Call :=
  hear 0 .liveSpeechCandidate :: List.replicate 4 (hear 4000 .liveSpeechCandidate) ++
    List.replicate 4 (hear 4000 .unknown) ++
    [hear 4000 .voicemail, hear 4000 .voicemail (some { menu := .ok ⟨some "2", ""⟩ })]

/-- The key is pressed on a call already reported as failed. -/
theorem lateDigit_not_quiet : ¬ Quiet (Run.exec call (new "CA1" {} {} none none) lateDigit) := by
  decide +kernel

end AgentSession

end DialPass
