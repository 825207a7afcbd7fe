import DialPass.Session.Stages
/-!
# Somebody checks the speaker (session.py:180-208)

`Attended`: while the machine is in EVALUATING_SPEECH, a probe is outstanding. `_dispatch` gives the
wake up when the slot is taken (session.py:185), and a menu read may still have it when hold music and
then speech are heard. `attended_iff` is exact.
-/

namespace DialPass

namespace AgentSession

open History

/-- session.py:104, state.py:319: in EVALUATING_SPEECH somebody is checking the speaker. -/
def Attended (s : AgentSession) : Prop :=
  s.finished = false → s.fsm.state = .evaluatingSpeech → s.tier2Kind = some .probe

instance (s : AgentSession) : Decidable s.Attended := inferInstanceAs (Decidable (_ → _))

/-- The step does not enter EVALUATING_SPEECH while a menu read takes the slot, unless that read's error
ends the call in the same tick. -/
def FindsSlot (s : AgentSession) : Move → Prop
  | .tick i => s.Due → s.fsm.WakesProbe i.cls.label i.cls.confidence s.nextClassifyAt →
      s.tier2Kind = some .menu →
        ∃ a, i.answer = some a ∧ (a.menu = .error .notImplemented ∨ a.menu = .error .circuitOpen)
  | _ => True

/-- A verdict applied takes the machine out of EVALUATING_SPEECH, or finds it elsewhere. -/
theorem applyProbe_state_ne {s : AgentSession} (o : ProbeOutcome) (now : ℚ) (reply : BridgeReply) :
    (s.applyProbe o now reply).fsm.state ≠ .evaluatingSpeech := by
  rw [applyProbe_eq]
  by_cases hst : s.fsm.state = .evaluatingSpeech
  · cases ho : o.isHuman with
    | true =>
      rw [CallStateMachine.probeResult_human hst]
      by_cases hr : reply = .ok
      · rw [hr, dispatch, bridge_ok_eq (by simp [moved_eq])]
        simp
      · obtain ⟨reason, heq⟩ := bridge_failed_eq
          (s := (s.emit (.probeResult now true)).moved (s.fsm.enter .humanDetected) now) hr now
        rw [dispatch, heq]
        simp [moved_eq]
    | false =>
      rw [CallStateMachine.probeResult_not_human hst]
      simp [dispatch, moved_eq]
  · rw [CallStateMachine.probeResult_stale hst]
    simpa [dispatch, moved_eq, emit, log] using hst

theorem applyMenu_state (s : AgentSession) (d : MenuDecision) (now : ℚ) :
    (s.applyMenu d now).fsm.state = s.fsm.state := by
  unfold applyMenu
  split <;> simp [emit, log]

theorem applyMenu_finished (s : AgentSession) (d : MenuDecision) (now : ℚ) :
    (s.applyMenu d now).finished = s.finished := by
  unfold applyMenu
  split <;> rfl

theorem tier2Failed_state (s : AgentSession) (k : Tier2Kind) (e : Tier2Error) (now : ℚ) :
    (s.tier2Failed k e now).fsm.state = s.fsm.state := by
  cases e <;> simp only [tier2Failed] <;> (try split) <;> rfl

/-- A poll never enters EVALUATING_SPEECH. -/
theorem pollTier2_state_ne {s : AgentSession} (hs : Sound s) (hst : s.fsm.state ≠ .evaluatingSpeech) (now : ℚ)
    (i : Tick) : (s.pollTier2 now i).fsm.state ≠ .evaluatingSpeech := by
  rcases pollTier2_results hs now i with ⟨he, -⟩ | ⟨fl, a, -, -, hr⟩
  · rw [he]; exact hst
  rcases hr with ⟨d, -, -, -, he⟩ | ⟨e, -, -, he⟩ | ⟨o, -, -, -, he⟩ | ⟨e, -, -, he⟩ <;> rw [he]
  · rw [applyMenu_state]; exact hst
  · rw [tier2Failed_state]; exact hst
  · exact applyProbe_state_ne o now _
  · rw [tier2Failed_state]; exact hst

theorem pollTier2_probe_attended {s : AgentSession} (hs : Sound s) (hk : s.tier2Kind = some .probe) (now : ℚ)
    (i : Tick) : Attended (s.pollTier2 now i) := by
  rcases pollTier2_results hs now i with ⟨he, -⟩ | ⟨fl, a, -, -, hr⟩
  · rw [he]; exact fun _ _ => hk
  rcases hr with ⟨d, hm, -⟩ | ⟨e, hm, -⟩ | ⟨o, -, -, -, he⟩ | ⟨e, -, -, he⟩
  · rw [hk] at hm; cases hm
  · rw [hk] at hm; cases hm
  · rw [he]; exact fun _ hst => absurd hst (applyProbe_state_ne o now _)
  · -- every error of a probe ends the call
    rw [he]
    intro hf
    cases e <;> simp [tier2Failed, fail_eq] at hf

/-- In EVALUATING_SPEECH with a menu read in flight, only an error that ends the call helps. -/
theorem pollTier2_menu_attended {s : AgentSession} (hs : Sound s) (hf : s.finished = false)
    (hst : s.fsm.state = .evaluatingSpeech) (hk : s.tier2Kind = some .menu) (now : ℚ) (i : Tick) :
    Attended (s.pollTier2 now i) ↔
      ∃ a, i.answer = some a ∧ (a.menu = .error .notImplemented ∨ a.menu = .error .circuitOpen) := by
  rcases pollTier2_results hs now i with ⟨he, hn⟩ | ⟨fl, a, -, ha, hr⟩
  · rw [hk] at hn
    simp only [reduceCtorEq, false_or] at hn
    rw [he, hn]
    simp [Attended, hf, hst, hk]
  rw [ha]
  rcases hr with ⟨d, -, -, hm, he⟩ | ⟨e, -, hm, he⟩ | ⟨o, hp, -⟩ | ⟨e, hp, -⟩
  · have hslot : (s.taken fl.job (.ok (.decision d))).applyMenu d now =
        (s.taken fl.job (.ok (.decision d))).applyResult .menu (.ok (.decision d)) now .ok := rfl
    rw [he, hslot, Attended, applyResult_tier2Kind, ← hslot, applyMenu_finished, applyMenu_state]
    simp [taken, log, hf, hst, hm]
  · rw [he]
    cases e <;> simp [Attended, tier2Failed, fail_eq, taken, log, hf, hst, hm]
  · rw [hk] at hp; cases hp
  · rw [hk] at hp; cases hp

/-- What a tick that wakes a probe brings to its poll: the probe, or whatever took the slot. -/
theorem beforePoll_wakes {s : AgentSession} (hs : Sound s) (now : ℚ) (i : Tick)
    (hw : (s.fsm.observe i.cls.label i.cls.confidence now).2 = .wakeTier2Probe) :
    (s.beforePoll now i).finished = s.finished ∧
      (s.beforePoll now i).tier2Kind = some (s.tier2Kind.getD .probe) := by
  obtain ⟨hm, hk, hf⟩ := s.classify_fields now i.cls
  have hcs := classify_sound hs now i.cls
  have hoc := observe_cases (s.classify now i.cls) now i
  rw [hm, hk] at hoc
  have hms := moved_sound hcs (s.fsm.observe i.cls.label i.cls.confidence now).1 now
  rcases hoc with ⟨hn, -⟩ | ⟨-, hn, he⟩ | ⟨-, hn, he⟩ | ⟨hn, -⟩
  · exact absurd hw hn
  · obtain ⟨due, hd⟩ := wakeMenu_busy (s := (s.classify now i.cls).observe now i)
      (by rw [he, startProbe_eq hms.opened]; simp) now
    rw [beforePoll, hd, he, startProbe_eq hms.opened, hn, moved_eq]
    exact ⟨hf, rfl⟩
  · obtain ⟨due, hd⟩ := wakeMenu_busy (s := (s.classify now i.cls).observe now i)
      (by rw [he, moved_eq]; simpa [hk] using hn) now
    rw [beforePoll, hd, he, moved_eq]
    obtain ⟨k, hsome⟩ := Option.ne_none_iff_exists'.1 hn
    exact ⟨hf, by rw [hsome]; simpa [hsome] using hk⟩
  · rw [hw] at hn; cases hn

theorem step_attended_iff (s : AgentSession) (m : Move) (hs : Sound s) (h : Attended s) :
    Attended (step s m) ↔ FindsSlot s m := by
  cases m with
  | ingest pcm =>
    refine iff_of_true ?_ trivial
    simp only [step, ingest]
    split
    · exact h
    · split <;> exact h
  | abort reason =>
    refine iff_of_true ?_ trivial
    simp only [step, abort]
    split
    · exact h
    · intro hf; simp [fail_eq] at hf
  | tick i =>
    simp only [step, FindsSlot]
    by_cases hd : s.Due
    swap
    · rw [loopPass_idle hd]; exact iff_of_true h fun hd' => absurd hd' hd
    have hts := beforePoll_sound hs s.nextClassifyAt i
    have htst := beforePoll_state hs s.nextClassifyAt i
    have hmove := s.fsm.observe_move i.cls.label i.cls.confidence s.nextClassifyAt
    have hres : Attended (s.loopPass i) ↔
        Attended ((s.beforePoll s.nextClassifyAt i).pollTier2 s.nextClassifyAt i) := by
      rw [loopPass_due hs hd, runTick_eq hs]; rfl
    rw [hres, ← CallStateMachine.observe_wakesProbe_iff]
    by_cases hto : (s.fsm.observe i.cls.label i.cls.confidence s.nextClassifyAt).1.state = .evaluatingSpeech
    swap
    · -- the machine is elsewhere
      refine iff_of_true (fun _ hst => absurd hst ?_) fun _ hp => ?_
      · exact pollTier2_state_ne hts (by rw [htst]; exact hto) _ i
      · rw [hp] at hmove; exact absurd hmove.of_probe.2 hto
    rcases hmove.to_eval hto with hp | ⟨hst, hp⟩
    · obtain ⟨htf, htk⟩ := beforePoll_wakes hs s.nextClassifyAt i hp
      cases hk : s.tier2Kind with
      | none =>
        rw [hk] at htk
        exact iff_of_true (pollTier2_probe_attended hts htk _ i) (by simp)
      | some k =>
        rw [hk] at htk
        cases k with
        | probe => exact iff_of_true (pollTier2_probe_attended hts htk _ i) (by simp)
        | menu =>
          rw [pollTier2_menu_attended hts (by rw [htf]; exact hd.1) (by rw [htst]; exact hto) htk]
          simp [hd, hp]
    · -- it was there already, with its probe outstanding
      have hk := h hd.1 hst
      obtain ⟨htk, -⟩ := beforePoll_busy (s := s) (by rw [hk]; simp) s.nextClassifyAt i
      refine iff_of_true (pollTier2_probe_attended hts (by rw [htk, hk]) _ i) fun _ hw => ?_
      rw [hw] at hp; cases hp

/-- **`attended_iff`**: over every run of a session, EVALUATING_SPEECH always has its probe outstanding
exactly when it is never entered while a menu read takes the slot (and does not end the call). -/
theorem attended_iff (callId : String) (settings : Settings) (cfg : FsmConfig) (goal sid : Option String)
    (ms : List Move) :
    Run.Always step Attended (new callId settings cfg goal sid) ms ↔
      Run.Along step FindsSlot (new callId settings cfg goal sid) ms :=
  Run.always_iff_along step_sound step_attended_iff ms _ (new_sound ..) nofun

/-- A menu read submitted at 4 s is still running when hold music and then speech are heard. -/
def takenSlot : List Call :=
  hear 0 .liveSpeechCandidate :: List.replicate 4 (hear 4000 .liveSpeechCandidate) ++
    List.replicate 4 (hear 4000 .unknown) ++ List.replicate 3 (hear 4000 .holdMusic) ++
    List.replicate 2 (hear 4000 .liveSpeechCandidate)

/-- The speaker is heard, and nobody checks whether they are human. -/
theorem takenSlot_not_attended : ¬ Attended (Run.exec call (new "CA1" {} {} none none) takenSlot) := by
  decide +kernel

end AgentSession

end DialPass
