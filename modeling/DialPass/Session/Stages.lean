import DialPass.Session.History
/-!
# The stages of a tick (session.py:147-177)

A tick classifies, lets the machine observe, fires a deferred menu wake and polls Tier 2. What each
stage can do is said once here (`observe_cases`, `wakeMenu_cases`), and what the first three bring to
the poll (`beforePoll`). A Tier 2 job takes seconds while the machine keeps moving: `OwnFlight` says
that a job in flight belongs to the current visit, and `Move.Retimed` varies when jobs are answered.
-/

namespace DialPass

namespace AgentSession

open History

/-! ## The stages of a tick -/

/-- Everything the FSM's half of a tick can do. -/
theorem observe_cases (s : AgentSession) (now : ℚ) (i : Tick) :
    let p := s.fsm.observe i.cls.label i.cls.confidence now
    let t := s.moved p.1 now
    (p.2 ≠ .wakeTier2Probe ∧ p.2 ≠ .fail ∧ ∃ due, s.observe now i = { t with menuWakeDue := due }) ∨
    (p.2 = .wakeTier2Probe ∧ s.tier2Kind = none ∧ s.observe now i = t.startProbe now) ∨
    (p.2 = .wakeTier2Probe ∧ s.tier2Kind ≠ none ∧ s.observe now i = t) ∨
    (p.2 = .fail ∧ s.observe now i = t.fail now "non_connect") := by
  intro p t
  have hm := s.fsm.observe_move i.cls.label i.cls.confidence now
  have ho : s.observe now i = t.dispatch p.2 now i.onBridge := observe_eq s now i
  have hk : t.tier2Kind = s.tier2Kind := by simp only [t, moved_eq]
  cases hp : p.2 with
  | none => exact .inl ⟨by simp, by simp, t.menuWakeDue, by rw [ho, hp]; rfl⟩
  | wakeTier2Menu => exact .inl ⟨by simp, by simp, _, by rw [ho, hp]; rfl⟩
  | wakeTier2Probe =>
    by_cases hn : s.tier2Kind = none
    · exact .inr (.inl ⟨rfl, hn, by rw [ho, hp]; simp [dispatch, hk, hn]⟩)
    · exact .inr (.inr (.inl ⟨rfl, hn, by rw [ho, hp]; simp [dispatch, hk, hn]⟩))
  | bridge => rw [hp] at hm; exact absurd hm CallStateMachine.Move.not_bridge
  | fail => exact .inr (.inr (.inr ⟨rfl, by rw [ho, hp]; rfl⟩))

/-- Everything the deferred wake can do. -/
theorem wakeMenu_cases (s : AgentSession) (now : ℚ) :
    (∃ due, s.wakeMenu now = { s with menuWakeDue := due }) ∨
    (s.fsm.state = .ivrMenu ∧ s.tier2Kind = none ∧
      s.wakeMenu now = { s with menuWakeDue := none }.startMenu now) := by
  unfold wakeMenu
  split
  · split
    · dsimp only
      split
      · rename_i hc; exact .inr ⟨hc.1, hc.2, rfl⟩
      · exact .inl ⟨_, rfl⟩
    · exact .inl ⟨s.menuWakeDue, rfl⟩
  · exact .inl ⟨s.menuWakeDue, rfl⟩

/-- A job of kind `k` in flight while the machine is in `st` was submitted in this visit of `st`. -/
def OwnFlight (k : Tier2Kind) (st : CallState) (s : AgentSession) : Prop :=
  s.tier2Kind = some k → s.fsm.state = st →
    ∃ fl, (History.of s.trace).flight = some fl ∧ fl.state = st ∧ fl.visit = (History.of s.trace).visit

theorem classify_own {s : AgentSession} {k : Tier2Kind} {st : CallState} (h : OwnFlight k st s) (now : ℚ)
    (c : Classification) : OwnFlight k st (s.classify now c) := by
  obtain ⟨frame, e, heq, conf, feats, rfl⟩ := s.classify_eq now c
  rw [heq]
  simpa [OwnFlight, History.next] using h

/-- A transition keeps the law unless it enters `st` with a job of kind `k` in flight. -/
theorem moved_own {s : AgentSession} {k : Tier2Kind} {st : CallState} (h : OwnFlight k st s)
    (fsm : CallStateMachine) (now : ℚ)
    (hent : fsm.state = st → s.fsm.state ≠ st → s.tier2Kind ≠ some k) : OwnFlight k st (s.moved fsm now) := by
  intro hk hst
  rw [of_moved]
  rw [moved_eq] at hk hst
  dsimp only at hk hst
  by_cases hs : s.fsm.state = st
  · rw [if_pos (hst.trans hs.symm)]
    exact h hk hs
  · exact absurd hk (hent hst hs)

theorem observe_own {s : AgentSession} (hs : Sound s) {k : Tier2Kind} {st : CallState}
    (h : OwnFlight k st s) (now : ℚ) (i : Tick) (hfail : st ≠ .failed)
    (hent : (s.fsm.observe i.cls.label i.cls.confidence now).1.state = st → s.fsm.state ≠ st →
      s.tier2Kind ≠ some k) : OwnFlight k st (s.observe now i) := by
  have hm := s.fsm.observe_move i.cls.label i.cls.confidence now
  have hms := moved_sound hs (s.fsm.observe i.cls.label i.cls.confidence now).1 now
  have hmo := moved_own h (s.fsm.observe i.cls.label i.cls.confidence now).1 now hent
  rcases observe_cases s now i with ⟨-, -, due, he⟩ | ⟨hp, -, he⟩ | ⟨-, -, he⟩ | ⟨hp, he⟩ <;> rw [he]
  · exact hmo
  · -- the probe is submitted right after the transition it belongs to
    rw [hp] at hm
    intro hk hst
    rw [startProbe_eq (by exact hms.opened)] at hk hst ⊢
    refine ⟨_, by simp [History.next]; rfl, ?_, ?_⟩
    · rw [← hst]; exact hms.state
    · simp [History.next]
  · exact hmo
  · rw [hp] at hm
    intro hk hst
    rw [fail_eq, moved_eq] at hst
    exact absurd (hst.symm.trans hm.of_fail) hfail

theorem wakeMenu_own {s : AgentSession} (hs : Sound s) {k : Tier2Kind} {st : CallState}
    (h : OwnFlight k st s) (now : ℚ) : OwnFlight k st (s.wakeMenu now) := by
  rcases wakeMenu_cases s now with ⟨due, he⟩ | ⟨hivr, -, he⟩ <;> rw [he]
  · exact h
  · intro hk hst
    rw [startMenu_eq (by exact hs.opened)] at hk hst ⊢
    refine ⟨_, by simp [History.next]; rfl, ?_, ?_⟩
    · rw [← hst]; exact hs.state
    · simp [History.next]

/-! ## The slot after a result has been applied -/

@[simp] theorem emitStateChange_tier2Kind (s : AgentSession) (before : CallState) (now : ℚ) :
    (s.emitStateChange before now).tier2Kind = s.tier2Kind := by
  unfold emitStateChange; split <;> rfl

theorem bridge_tier2Kind (s : AgentSession) (now : ℚ) (reply : BridgeReply) :
    (s.bridge now reply).tier2Kind = s.tier2Kind := by
  cases reply with
  | ok => simp [bridge, emit, log]
  | unavailable reason => rfl
  | raised => rfl

theorem applyProbe_tier2Kind (s : AgentSession) (o : ProbeOutcome) (now : ℚ) (reply : BridgeReply) :
    (s.applyProbe o now reply).tier2Kind = s.tier2Kind := by
  rw [applyProbe_eq]
  have hp : (s.fsm.probeResult o.isHuman now).2 = .none ∨ (s.fsm.probeResult o.isHuman now).2 = .bridge := by
    unfold CallStateMachine.probeResult; split
    · exact .inl rfl
    · split
      · exact .inr rfl
      · exact .inl rfl
  rw [moved_eq]
  rcases hp with hp | hp <;> rw [hp]
  · rfl
  · exact bridge_tier2Kind _ now reply

theorem applyResult_tier2Kind (s : AgentSession) (k : Tier2Kind) (r : Tier2Result) (now : ℚ)
    (reply : BridgeReply) : (s.applyResult k r now reply).tier2Kind = s.tier2Kind := by
  unfold applyResult
  split
  · unfold tier2Failed; split <;> (try split) <;> rfl
  · split
    · unfold applyMenu; split <;> rfl
    · exact applyProbe_tier2Kind s _ now reply
    · rfl

/-- After a poll the slot is empty, or nothing was polled. -/
theorem pollTier2_own {s : AgentSession} (hs : Sound s) {k : Tier2Kind} {st : CallState}
    (h : OwnFlight k st s) (now : ℚ) (i : Tick) : OwnFlight k st (s.pollTier2 now i) := by
  rcases pollTier2_cases hs now i with ⟨he, -⟩ | ⟨j, a, -, -, -, he⟩ <;> rw [he]
  · exact h
  · intro hk
    rw [applyResult_tier2Kind] at hk
    simp [taken, log] at hk

/-- What the history is once a result has been polled: the flight landed. -/
theorem of_taken {s : AgentSession} {fl : Flight} (hfl : (History.of s.trace).flight = some fl) (j : Job)
    (r : Tier2Result) : History.of (s.taken j r).trace =
      { History.of s.trace with flight := none, applied := some (fl, r) } := by
  simp [taken, log, History.next, hfl]

/-! ## One step -/

/-- What classifying leaves alone. -/
theorem classify_fields (s : AgentSession) (now : ℚ) (c : Classification) :
    (s.classify now c).fsm = s.fsm ∧ (s.classify now c).tier2Kind = s.tier2Kind ∧
      (s.classify now c).finished = s.finished := by
  obtain ⟨frame, e, heq, -⟩ := s.classify_eq now c
  rw [heq]
  exact ⟨rfl, rfl, rfl⟩

theorem of_classify (s : AgentSession) (now : ℚ) (c : Classification) :
    History.of (s.classify now c).trace = History.of s.trace := by
  obtain ⟨frame, e, heq, conf, feats, rfl⟩ := s.classify_eq now c
  simp [heq, History.next]

/-- The stages of a tick keep a law that each of them keeps. -/
theorem step_keeps {P : AgentSession → Prop} {s : AgentSession} (hs : Sound s) (h : P s)
    (hbuf : ∀ {b n t}, P s → P { s with buffer := b, samplesSeen := n, nextClassifyAt := t })
    (hclk : ∀ {t : AgentSession} {n}, P t → P { t with nextClassifyAt := n })
    (hfail : ∀ {now reason}, P s → P (s.fail now reason)) (m : Move)
    (htick : ∀ i, m = .tick i → s.Due → P (s.runTick s.nextClassifyAt i)) : P (step s m) := by
  cases m with
  | ingest pcm =>
    simp only [step, ingest]
    split
    · exact h
    · split <;> exact hbuf h
  | tick i =>
    simp only [step]
    by_cases hd : s.Due
    · rw [loopPass_due hs hd]; exact hclk (htick i rfl hd)
    · rw [loopPass_idle hd]; exact h
  | abort reason =>
    simp only [step, abort]
    split
    · exact h
    · exact hfail h

theorem fail_own {s : AgentSession} {k : Tier2Kind} {st : CallState} (h : OwnFlight k st s) (now : ℚ)
    (reason : String) : OwnFlight k st (s.fail now reason) := by
  simpa [OwnFlight, fail_eq, History.next] using h

theorem runTick_own {s : AgentSession} (hs : Sound s) {k : Tier2Kind} {st : CallState}
    (h : OwnFlight k st s) (now : ℚ) (i : Tick) (hfail : st ≠ .failed)
    (hent : (s.fsm.observe i.cls.label i.cls.confidence now).1.state = st → s.fsm.state ≠ st →
      s.tier2Kind ≠ some k) : OwnFlight k st (s.runTick now i) := by
  obtain ⟨hm, hk, -⟩ := s.classify_fields now i.cls
  have hcs := classify_sound hs now i.cls
  have hos := observe_sound hcs now i
  rw [runTick_eq hs]
  refine pollTier2_own (wakeMenu_sound hos now) (wakeMenu_own hos ?_ now) now i
  exact observe_own hcs (classify_own h now _) now i hfail (by rw [hm, hk]; exact hent)

/-! ## What comes before the poll -/

/-- The session as it goes into a tick's poll. -/
def beforePoll (s : AgentSession) (now : ℚ) (i : Tick) : AgentSession :=
  ((s.classify now i.cls).observe now i).wakeMenu now

theorem beforePoll_sound {s : AgentSession} (h : Sound s) (now : ℚ) (i : Tick) :
    Sound (s.beforePoll now i) :=
  wakeMenu_sound (observe_sound (classify_sound h now _) now i) now

theorem observe_state {s : AgentSession} (hs : Sound s) (now : ℚ) (i : Tick) :
    (s.observe now i).fsm.state = (s.fsm.observe i.cls.label i.cls.confidence now).1.state := by
  rcases observe_cases s now i with ⟨-, -, due, he⟩ | ⟨-, -, he⟩ | ⟨-, -, he⟩ | ⟨-, he⟩ <;> rw [he]
  · rw [moved_eq]
  · rw [startProbe_eq (moved_sound hs _ now).opened, moved_eq]
  · rw [moved_eq]
  · rw [fail_eq, moved_eq]

theorem wakeMenu_state {s : AgentSession} (hs : Sound s) (now : ℚ) :
    (s.wakeMenu now).fsm.state = s.fsm.state := by
  rcases wakeMenu_cases s now with ⟨due, he⟩ | ⟨-, -, he⟩ <;> rw [he]
  rw [startMenu_eq (by exact hs.opened)]

theorem beforePoll_state {s : AgentSession} (hs : Sound s) (now : ℚ) (i : Tick) :
    (s.beforePoll now i).fsm.state = (s.fsm.observe i.cls.label i.cls.confidence now).1.state := by
  have hcs := classify_sound hs now i.cls
  rw [beforePoll, wakeMenu_state (observe_sound hcs now i), observe_state hcs, (s.classify_fields now i.cls).1]

theorem wakeMenu_busy {s : AgentSession} (hk : s.tier2Kind ≠ none) (now : ℚ) :
    ∃ due, s.wakeMenu now = { s with menuWakeDue := due } := by
  rcases wakeMenu_cases s now with hw | ⟨-, hn, -⟩
  · exact hw
  · exact absurd hn hk

/-- While the slot is taken no job is submitted: the same one is still in flight, and only the
transition has moved the history on. -/
theorem observe_busy {s : AgentSession} (hk : s.tier2Kind ≠ none) (now : ℚ) (i : Tick) :
    (s.observe now i).tier2Kind = s.tier2Kind ∧
      (History.of (s.observe now i).trace).flight = (History.of s.trace).flight ∧
      (History.of (s.observe now i).trace).visit =
        if (s.fsm.observe i.cls.label i.cls.confidence now).1.state = s.fsm.state
        then (History.of s.trace).visit else (History.of s.trace).visit + 1 := by
  have hoc := observe_cases s now i
  dsimp only at hoc
  have hmv := s.of_moved (s.fsm.observe i.cls.label i.cls.confidence now).1 now
  have hmk : (s.moved (s.fsm.observe i.cls.label i.cls.confidence now).1 now).tier2Kind = s.tier2Kind := by
    rw [moved_eq]
  generalize s.moved (s.fsm.observe i.cls.label i.cls.confidence now).1 now = t at hmv hmk hoc
  have hfl : (History.of t.trace).flight = (History.of s.trace).flight := by
    rw [hmv]; split <;> rfl
  have hvis : (History.of t.trace).visit =
      if (s.fsm.observe i.cls.label i.cls.confidence now).1.state = s.fsm.state
      then (History.of s.trace).visit else (History.of s.trace).visit + 1 := by
    rw [hmv]; split <;> rfl
  rcases hoc with ⟨-, -, due, he⟩ | ⟨-, hn, -⟩ | ⟨-, -, he⟩ | ⟨-, he⟩
  · rw [he]; exact ⟨hmk, hfl, hvis⟩
  · exact absurd hn hk
  · rw [he]; exact ⟨hmk, hfl, hvis⟩
  · rw [he, fail_eq]
    exact ⟨hmk, by simpa [History.next] using hfl, by simpa [History.next] using hvis⟩

theorem beforePoll_busy {s : AgentSession} (hk : s.tier2Kind ≠ none) (now : ℚ) (i : Tick) :
    (s.beforePoll now i).tier2Kind = s.tier2Kind ∧
      (History.of (s.beforePoll now i).trace).flight = (History.of s.trace).flight ∧
      (History.of (s.beforePoll now i).trace).visit =
        if (s.fsm.observe i.cls.label i.cls.confidence now).1.state = s.fsm.state
        then (History.of s.trace).visit else (History.of s.trace).visit + 1 := by
  obtain ⟨hm, hck, -⟩ := s.classify_fields now i.cls
  have hof := s.of_classify now i.cls
  obtain ⟨h1, h2, h3⟩ := observe_busy (s := s.classify now i.cls) (by rw [hck]; exact hk) now i
  rw [hck] at h1
  rw [hof] at h2
  rw [hof, hm] at h3
  obtain ⟨due, hd⟩ := wakeMenu_busy (s := (s.classify now i.cls).observe now i) (by rw [h1]; exact hk) now
  rw [beforePoll, hd]
  exact ⟨h1, h2, h3⟩

theorem loopPass_trace {s : AgentSession} (hs : Sound s) (hd : s.Due) (i : Tick) :
    (s.loopPass i).trace = ((s.beforePoll s.nextClassifyAt i).pollTier2 s.nextClassifyAt i).trace := by
  rw [loopPass_due hs hd, runTick_eq hs]
  rfl

/-! ## Completion timing -/

/-- The same move on the same audio, except that the background job's answer arrives otherwise. -/
def Move.Retimed : Move → Move → Prop
  | .tick i, m => ∃ answer, m = .tick { i with answer }
  | m, m' => m = m'

theorem Move.Retimed.refl (m : Move) : m.Retimed m := by
  cases m with
  | tick i => exact ⟨i.answer, rfl⟩
  | _ => rfl

theorem Move.Retimed.trans (m₁ m₂ m₃ : Move) (h : m₁.Retimed m₂) (h' : m₂.Retimed m₃) : m₁.Retimed m₃ := by
  cases m₁ with
  | tick i => obtain ⟨a, rfl⟩ := h; exact h'
  | _ => cases h; exact h'

end AgentSession

end DialPass
