import DialPass.Session.Stages
/-!
# Whose verdict bridges the call (session.py:260-265, state.py:179-193)

`VerdictOk`: the verdict that takes EVALUATING_SPEECH to HUMAN_DETECTED is a probe's submitted in this
very visit of EVALUATING_SPEECH. `probe_result` tells a late verdict by the state alone, so a probe
left behind by one episode can speak for the next (state.py:188). `verdictOk_of_along` says which runs are
safe from that; `verdictOk_iff`, over all completion timings at once, that no other condition would do.
-/

namespace DialPass

namespace History

/-- The edge EVALUATING_SPEECH → HUMAN_DETECTED is a human verdict of this visit's own probe. -/
def verdictOk (h : History) : Effect → Bool
  | .emit (.stateChanged _ .evaluatingSpeech .humanDetected) =>
    match h.applied with
    | some (fl, .ok (.outcome o)) =>
      o.isHuman && fl.job.kind == .probe && fl.state == .evaluatingSpeech && fl.visit == h.visit
    | _ => false
  | _ => true

end History

namespace AgentSession

open History

def VerdictOk (s : AgentSession) : Prop := Accepts (fun h e => h.verdictOk e = true) s.trace

instance (s : AgentSession) : Decidable s.VerdictOk := inferInstanceAs (Decidable (Accepts _ _))

/-- The step does not ask for a probe while an earlier probe is in flight. -/
def AsksAfresh (s : AgentSession) : Move → Prop
  | .tick i => s.Due → s.fsm.WakesProbe i.cls.label i.cls.confidence s.nextClassifyAt →
      s.tier2Kind ≠ some .probe
  | _ => True

instance (s : AgentSession) (m : Move) : Decidable (AsksAfresh s m) :=
  match m with
  | .tick i => inferInstanceAs (Decidable (s.Due → s.fsm.WakesProbe i.cls.label i.cls.confidence s.nextClassifyAt →
      s.tier2Kind ≠ some .probe))
  | .ingest _ | .abort _ => .isTrue trivial

theorem fail_verdictOk {s : AgentSession} (h : VerdictOk s) (now : ℚ) (reason : String) :
    VerdictOk (s.fail now reason) := by
  simpa [VerdictOk, fail_eq, verdictOk] using h

theorem classify_verdictOk {s : AgentSession} (h : VerdictOk s) (now : ℚ) (c : Classification) :
    VerdictOk (s.classify now c) := by
  obtain ⟨frame, e, heq, conf, feats, rfl⟩ := s.classify_eq now c
  simpa [VerdictOk, heq, verdictOk] using h

/-- A transition the law does not speak about. -/
theorem moved_verdictOk {s : AgentSession} (h : VerdictOk s) (fsm : CallStateMachine) (now : ℚ)
    (hn : ¬ (s.fsm.state = .evaluatingSpeech ∧ fsm.state = .humanDetected)) :
    VerdictOk (s.moved fsm now) := by
  rw [moved_eq]
  unfold VerdictOk
  dsimp only
  split
  · refine (accepts_append _ _ _).2 ⟨h, ?_, trivial⟩
    generalize s.fsm.state = a at hn
    generalize fsm.state = b at hn
    cases a <;> cases b <;> first | rfl | simp at hn
  · exact h

theorem observe_verdictOk {s : AgentSession} (hs : Sound s) (h : VerdictOk s) (now : ℚ) (i : Tick) :
    VerdictOk (s.observe now i) := by
  have hm := s.fsm.observe_move i.cls.label i.cls.confidence now
  have hms := moved_sound hs (s.fsm.observe i.cls.label i.cls.confidence now).1 now
  have hmv := moved_verdictOk h (s.fsm.observe i.cls.label i.cls.confidence now).1 now
    (fun hc => by have := hm.not_human hc.2; rw [hc.1] at this; cases this)
  rcases observe_cases s now i with ⟨-, -, due, he⟩ | ⟨-, -, he⟩ | ⟨-, -, he⟩ | ⟨-, he⟩ <;> rw [he]
  · exact hmv
  · simpa [VerdictOk, startProbe_eq hms.opened, verdictOk] using hmv
  · exact hmv
  · exact fail_verdictOk hmv now _

theorem wakeMenu_verdictOk {s : AgentSession} (hs : Sound s) (h : VerdictOk s) (now : ℚ) :
    VerdictOk (s.wakeMenu now) := by
  rcases wakeMenu_cases s now with ⟨due, he⟩ | ⟨-, -, he⟩ <;> rw [he]
  · exact h
  · rw [startMenu_eq (by exact hs.opened)]
    simpa [VerdictOk, verdictOk] using h

/-- Applying a human verdict in EVALUATING_SPEECH is where the law has something to say. -/
theorem applyProbe_verdictOk {s : AgentSession} (h : VerdictOk s) {f : Flight} {o : ProbeOutcome}
    (happ : (History.of s.trace).applied = some (f, .ok (.outcome o)))
    (hfl : s.fsm.state = .evaluatingSpeech →
      f.job.kind = .probe ∧ f.state = .evaluatingSpeech ∧ f.visit = (History.of s.trace).visit)
    (now : ℚ) (reply : BridgeReply) : VerdictOk (s.applyProbe o now reply) := by
  rw [applyProbe_eq]
  have h' : VerdictOk (s.emit (.probeResult now o.isHuman)) := by
    simpa [VerdictOk, emit, log, verdictOk] using h
  by_cases hst : s.fsm.state = .evaluatingSpeech
  · obtain ⟨f1, f2, f3⟩ := hfl hst
    cases ho : o.isHuman with
    | true =>
      -- the edge itself, then the bridge sequence
      rw [CallStateMachine.probeResult_human hst, moved_eq]
      simp only [emit, log, CallStateMachine.enter_state, hst, ne_eq, reduceCtorEq, not_false_eq_true, if_true,
        dispatch]
      have hedge : Accepts (fun h e => h.verdictOk e = true)
          (s.trace ++ [Effect.emit (.probeResult now true)] ++
            [Effect.emit (.stateChanged now .evaluatingSpeech .humanDetected)]) := by
        simp only [accepts_append, Run.along_cons, Run.along_nil, and_true, of_append, Run.exec_cons,
          Run.exec_nil]
        refine ⟨⟨h, rfl⟩, ?_⟩
        simp [verdictOk, History.next, happ, ho, f1, f2, f3]
      by_cases hr : reply = .ok
      · rw [hr, bridge_ok_eq (by simp)]
        exact (accepts_append _ _ _).2 ⟨hedge, by simp [verdictOk]⟩
      · obtain ⟨reason, heq⟩ := bridge_failed_eq (s := { s with
          fsm := s.fsm.enter .humanDetected
          trace := s.trace ++ [Effect.emit (.probeResult now true)] ++
            [Effect.emit (.stateChanged now .evaluatingSpeech .humanDetected)] }) hr now
        rw [heq]
        exact (accepts_append _ _ _).2 ⟨hedge, by simp [verdictOk]⟩
    | false =>
      rw [CallStateMachine.probeResult_not_human hst]
      rw [ho] at h'
      exact moved_verdictOk h' _ now (by simp)
  · rw [CallStateMachine.probeResult_stale hst]
    exact moved_verdictOk h' _ now (by simp [emit, log, hst])

theorem tier2Failed_verdictOk {s : AgentSession} (h : VerdictOk s) (k : Tier2Kind) (e : Tier2Error) (now : ℚ) :
    VerdictOk (s.tier2Failed k e now) := by
  cases e <;> simp only [tier2Failed] <;> (try split) <;> first | exact fail_verdictOk h now _ | exact h

theorem applyMenu_verdictOk {s : AgentSession} (h : VerdictOk s) (d : MenuDecision) (now : ℚ) :
    VerdictOk (s.applyMenu d now) := by
  unfold applyMenu
  split
  · simpa [VerdictOk, emit, log, verdictOk] using h
  · exact h

theorem taken_verdictOk {s : AgentSession} (h : VerdictOk s) (j : Job) (r : Tier2Result) :
    VerdictOk (s.taken j r) := by
  simpa [VerdictOk, taken, log, verdictOk] using h

theorem pollTier2_verdictOk {s : AgentSession} (hs : Sound s) (h : VerdictOk s)
    (hown : OwnFlight .probe .evaluatingSpeech s) (now : ℚ) (i : Tick) : VerdictOk (s.pollTier2 now i) := by
  rcases pollTier2_results hs now i with ⟨he, -⟩ | ⟨fl, a, hfl, -, hr⟩
  · rw [he]; exact h
  rcases hr with ⟨d, -, -, -, he⟩ | ⟨e, -, -, he⟩ | ⟨o, hk, hj, -, he⟩ | ⟨e, -, -, he⟩ <;> rw [he]
  · exact applyMenu_verdictOk (taken_verdictOk h _ _) d now
  · exact tier2Failed_verdictOk (taken_verdictOk h _ _) _ e now
  · refine applyProbe_verdictOk (taken_verdictOk h _ _) (f := fl) (by rw [of_taken hfl]) (fun hst => ?_) now _
    obtain ⟨fl', hfl', f1, f2⟩ := hown hk hst
    rw [hfl] at hfl'
    cases hfl'
    exact ⟨hj, f1, by rw [of_taken hfl]; exact f2⟩
  · exact tier2Failed_verdictOk (taken_verdictOk h _ _) _ e now

/-! ## One step -/

theorem runTick_verdictOk {s : AgentSession} (hs : Sound s) (h : VerdictOk s)
    (hown : OwnFlight .probe .evaluatingSpeech s) (now : ℚ) (i : Tick)
    (hent : (s.fsm.observe i.cls.label i.cls.confidence now).1.state = .evaluatingSpeech →
      s.fsm.state ≠ .evaluatingSpeech → s.tier2Kind ≠ some .probe) : VerdictOk (s.runTick now i) := by
  obtain ⟨hm, hk, -⟩ := s.classify_fields now i.cls
  have hcs := classify_sound hs now i.cls
  have hos := observe_sound hcs now i
  rw [runTick_eq hs]
  refine pollTier2_verdictOk (wakeMenu_sound hos now) (wakeMenu_verdictOk hos ?_ now)
    (wakeMenu_own hos ?_ now) now i
  · exact observe_verdictOk hcs (classify_verdictOk h now _) now i
  · exact observe_own hcs (classify_own hown now _) now i (by simp) (by rw [hm, hk]; exact hent)

/-- Entering EVALUATING_SPEECH is asking for a probe. -/
theorem asksAfresh_enters {s : AgentSession} {i : Tick} (hc : AsksAfresh s (.tick i)) (hd : s.Due)
    (hto : (s.fsm.observe i.cls.label i.cls.confidence s.nextClassifyAt).1.state = .evaluatingSpeech)
    (hne : s.fsm.state ≠ .evaluatingSpeech) : s.tier2Kind ≠ some .probe := by
  refine hc hd ?_
  rw [← CallStateMachine.observe_wakesProbe_iff]
  rcases (s.fsm.observe_move i.cls.label i.cls.confidence s.nextClassifyAt).to_eval hto with hp | ⟨hst, -⟩
  · exact hp
  · exact absurd hst hne

/-- The law of verdicts together with what carries it through a run. -/
structure VerdictInv (s : AgentSession) : Prop where
  sound : Sound s
  own : OwnFlight .probe .evaluatingSpeech s

theorem step_verdictOk (s : AgentSession) (m : Move) (hi : VerdictInv s) (h : VerdictOk s)
    (hc : AsksAfresh s m) : VerdictInv (step s m) ∧ VerdictOk (step s m) := by
  have hent : ∀ i, m = .tick i → s.Due →
      (s.fsm.observe i.cls.label i.cls.confidence s.nextClassifyAt).1.state = .evaluatingSpeech →
      s.fsm.state ≠ .evaluatingSpeech → s.tier2Kind ≠ some .probe := by
    rintro i rfl hd
    exact asksAfresh_enters hc hd
  refine ⟨⟨step_sound s m hi.sound, ?_⟩, ?_⟩
  · refine step_keeps hi.sound hi.own (fun h => h) (fun h => h) (fun h => fail_own h _ _) m fun i hm hd => ?_
    exact runTick_own hi.sound hi.own _ i (by simp) (hent i hm hd)
  · refine step_keeps hi.sound h (fun h => h) (fun h => h) (fun h => fail_verdictOk h _ _) m fun i hm hd => ?_
    exact runTick_verdictOk hi.sound h hi.own _ i (hent i hm hd)

/-- A human verdict of another visit's probe, taken in EVALUATING_SPEECH, breaks the law. -/
theorem applyProbe_not_verdictOk {s : AgentSession} (hst : s.fsm.state = .evaluatingSpeech) {fl : Flight}
    {r : Tier2Result} (happ : (History.of s.trace).applied = some (fl, r))
    (hv : fl.visit ≠ (History.of s.trace).visit) {o : ProbeOutcome} (ho : o.isHuman = true) (now : ℚ)
    (reply : BridgeReply) : ¬ VerdictOk (s.applyProbe o now reply) := by
  have hbad : ∀ es, ¬ Accepts (fun h e => h.verdictOk e = true)
      (s.trace ++ [Effect.emit (.probeResult now true)] ++
        [Effect.emit (.stateChanged now .evaluatingSpeech .humanDetected)] ++ es) := by
    intro es h
    have hedge := ((accepts_append _ _ _).1 ((accepts_append _ _ _).1 h).1).2.1
    rw [of_append] at hedge
    simp only [Run.exec_cons, Run.exec_nil, History.next, verdictOk, happ] at hedge
    split at hedge
    · rename_i heq
      cases heq
      simp [hv] at hedge
    · cases hedge
  rw [applyProbe_eq, ho, CallStateMachine.probeResult_human hst, moved_eq]
  simp only [emit, log, CallStateMachine.enter_state, hst, ne_eq, reduceCtorEq, not_false_eq_true, if_true,
    dispatch]
  by_cases hr : reply = .ok
  · rw [hr, bridge_ok_eq (by simp)]
    exact hbad _
  · obtain ⟨reason, heq⟩ := bridge_failed_eq (s := { s with
      fsm := s.fsm.enter .humanDetected
      trace := s.trace ++ [Effect.emit (.probeResult now true)] ++
        [Effect.emit (.stateChanged now .evaluatingSpeech .humanDetected)] }) hr now
    rw [heq]
    exact hbad _

/-- Asked for while an earlier probe is in flight, the probe is not started, and the earlier one's
human verdict, arriving in this very tick, is taken for the new speaker's. -/
theorem asksAfresh_tight {s : AgentSession} (hs : Sound s) {i : Tick} (hc : ¬ AsksAfresh s (.tick i)) :
    ¬ VerdictOk (step s (.tick { i with answer := some { probe := .ok ⟨true, "", true⟩ } })) := by
  simp only [AsksAfresh, Classical.not_imp, ne_eq, not_not] at hc
  obtain ⟨hd, hw, hk⟩ := hc
  have hp := (CallStateMachine.observe_wakesProbe_iff _ _ _ _).2 hw
  have hmove := s.fsm.observe_move i.cls.label i.cls.confidence s.nextClassifyAt
  rw [hp] at hmove
  obtain ⟨hfrom, hto⟩ := hmove.of_probe
  set i' : Tick := { i with answer := some { probe := .ok ⟨true, "", true⟩ } }
  have hts := beforePoll_sound hs s.nextClassifyAt i'
  have htst : (s.beforePoll s.nextClassifyAt i').fsm.state = .evaluatingSpeech :=
    (beforePoll_state hs s.nextClassifyAt i').trans hto
  obtain ⟨htk, htf, htv⟩ := beforePoll_busy (s := s) (by rw [hk]; simp) s.nextClassifyAt i'
  rw [if_neg (by rw [hfrom]; exact fun he => by rw [hto] at he; cases he)] at htv
  unfold VerdictOk
  simp only [step]
  rw [loopPass_trace hs hd]
  generalize s.beforePoll s.nextClassifyAt i' = t at hts htst htk htf htv
  rcases pollTier2_results hts s.nextClassifyAt i' with ⟨-, hn⟩ | ⟨fl, a, hfl, ha, hr⟩
  · rw [htk, hk] at hn
    simp [i'] at hn
  cases ha
  rcases hr with ⟨d, hn, -⟩ | ⟨e, hn, -⟩ | ⟨o, -, -, ho, he⟩ | ⟨e, -, hn, -⟩
  · rw [htk, hk] at hn; cases hn
  · rw [htk, hk] at hn; cases hn
  · cases ho
    rw [he]
    refine applyProbe_not_verdictOk (s := t.taken fl.job _) htst (by rw [of_taken hfl]) ?_ rfl _ _
    -- the flight is older than the transition
    have hle := flight_visit_le s.trace (htf ▸ hfl)
    rw [of_taken hfl]
    dsimp only
    omega
  · cases hn

/-! ## Runs -/

/-- **`verdictOk_of_along`**: in every run of a session that never asks for a probe while an earlier one is
in flight, the verdict that bridges the call is the current episode's own probe's. -/
theorem verdictOk_of_along (callId : String) (settings : Settings) (cfg : FsmConfig) (goal sid : Option String)
    (ms : List Move) (h : Run.Along step AsksAfresh (new callId settings cfg goal sid) ms) :
    Run.Always step VerdictOk (new callId settings cfg goal sid) ms :=
  Run.always_of_step step_verdictOk ms _ ⟨new_sound .., nofun⟩ trivial h

/-- Two episodes of speech, each with its own probe: the first says no, the second human. -/
def twoProbes : List Call :=
  hear 0 .holdMusic :: List.replicate 5 (hear 4000 .holdMusic) ++
    List.replicate 2 (hear 4000 .liveSpeechCandidate) ++
    [hear 4000 .liveSpeechCandidate (some { probe := .ok ⟨false, "", true⟩ })] ++
    List.replicate 20 (hear 4000 .holdMusic) ++ List.replicate 2 (hear 4000 .liveSpeechCandidate) ++
    [hear 4000 .liveSpeechCandidate (some { probe := .ok ⟨true, "", true⟩ })]

/-- The call is bridged on the second speaker's own verdict. -/
theorem twoProbes_verdictOk :
    Run.Always step VerdictOk (new "CA1" {} {} none none) (twoProbes.flatMap Call.moves) ∧
      .onBridge ∈ (Run.exec step (new "CA1" {} {} none none) (twoProbes.flatMap Call.moves)).trace :=
  ⟨verdictOk_of_along "CA1" {} {} none none _ (by decide +kernel), by decide +kernel⟩

/-- **`verdictOk_iff`**: over every run of a session and every completion timing of its jobs, the
verdict that bridges the call is the current episode's own probe's, exactly when no completion timing
has EVALUATING_SPEECH entered while an earlier episode's probe is in flight. -/
theorem verdictOk_iff (callId : String) (settings : Settings) (cfg : FsmConfig) (goal sid : Option String)
    (ms : List Move) :
    (∀ ms', List.Forall₂ Move.Retimed ms ms' →
        Run.Always step VerdictOk (new callId settings cfg goal sid) ms') ↔
      ∀ ms', List.Forall₂ Move.Retimed ms ms' →
        Run.Along step AsksAfresh (new callId settings cfg goal sid) ms' := by
  refine Run.always_iff_along_variants Move.Retimed.refl Move.Retimed.trans
    (fun s m hi h hc => step_verdictOk s m hi h hc) (fun s m hi _ hn => ?_) ms _
    ⟨new_sound .., nofun⟩ trivial
  cases m with
  | tick i => exact ⟨_, ⟨_, rfl⟩, asksAfresh_tight hi.sound hn⟩
  | _ => exact absurd trivial hn

/-- Hold music, two ticks of speech that wake a probe at 3.5 s, and hold music again before it answers;
when the cooldown is over, speech re-enters EVALUATING_SPEECH, and the first probe says human. -/
def lateVerdict : List Call :=
  hear 0 .holdMusic :: List.replicate 5 (hear 4000 .holdMusic) ++
    List.replicate 2 (hear 4000 .liveSpeechCandidate) ++ List.replicate 20 (hear 4000 .holdMusic) ++
    List.replicate 2 (hear 4000 .liveSpeechCandidate) ++
    [hear 4000 .liveSpeechCandidate (some { probe := .ok ⟨true, "", true⟩ })]

/-- The call is bridged on the verdict about the first speaker; the second was never probed. -/
theorem lateVerdict_not_verdictOk :
    ¬ VerdictOk (Run.exec call (new "CA1" {} {} none none) lateVerdict) := by
  decide +kernel

end AgentSession

end DialPass
