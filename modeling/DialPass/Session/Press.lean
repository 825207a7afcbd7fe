import DialPass.Session.Stages
/-!
# Whose digit is pressed (session.py:245-258)

`PressOk`: a key is pressed in IVR_MENU, in the very visit the menu read was submitted in.
`_apply_menu` looks at neither, so a read the menu did not wait for is pressed wherever the machine has
moved on to. `pressOk_of_along` says which runs are safe from that; `pressOk_iff`, over all completion timings
at once, that no other condition would do.
-/

namespace DialPass

namespace History

/-- A key pressed is the one this IVR_MENU visit's own menu read chose. -/
def pressOk (h : History) : Effect → Bool
  | .dtmfSender digits =>
    match h.applied with
    | some (fl, .ok (.decision d)) =>
      h.state == .ivrMenu && d.digits == some digits && fl.job.kind == .menu && fl.state == .ivrMenu &&
        fl.visit == h.visit
    | _ => false
  | _ => true

end History

namespace AgentSession

open History

def PressOk (s : AgentSession) : Prop := Accepts (fun h e => h.pressOk e = true) s.trace

instance (s : AgentSession) : Decidable s.PressOk := inferInstanceAs (Decidable (Accepts _ _))

/-- The step does not leave IVR_MENU with a menu read in flight. -/
def StaysForAnswer (s : AgentSession) : Move → Prop
  | .tick i => s.Due → s.fsm.LeavesMenu i.cls.label i.cls.confidence s.nextClassifyAt →
      s.tier2Kind ≠ some .menu
  | _ => True

instance (s : AgentSession) (m : Move) : Decidable (StaysForAnswer s m) :=
  match m with
  | .tick i => inferInstanceAs (Decidable (s.Due → s.fsm.LeavesMenu i.cls.label i.cls.confidence s.nextClassifyAt →
      s.tier2Kind ≠ some .menu))
  | .ingest _ | .abort _ => .isTrue trivial

/-- A menu read is in flight only while the machine is in a menu. -/
def InMenu (s : AgentSession) : Prop := s.tier2Kind = some .menu → s.fsm.state = .ivrMenu

theorem fail_pressOk {s : AgentSession} (h : PressOk s) (now : ℚ) (reason : String) :
    PressOk (s.fail now reason) := by
  simpa [PressOk, fail_eq, pressOk] using h

theorem moved_pressOk {s : AgentSession} (h : PressOk s) (fsm : CallStateMachine) (now : ℚ) :
    PressOk (s.moved fsm now) := by
  rw [moved_eq]
  unfold PressOk
  dsimp only
  split
  · exact (accepts_append _ _ _).2 ⟨h, rfl, trivial⟩
  · exact h

theorem beforePoll_pressOk {s : AgentSession} (hs : Sound s) (h : PressOk s) (now : ℚ) (i : Tick) :
    PressOk (s.beforePoll now i) := by
  have hcs := classify_sound hs now i.cls
  have hos := observe_sound hcs now i
  have hc : PressOk (s.classify now i.cls) := by
    obtain ⟨frame, e, heq, -⟩ := s.classify_eq now i.cls
    simpa [PressOk, heq, pressOk] using h
  have hms := moved_sound hcs ((s.classify now i.cls).fsm.observe i.cls.label i.cls.confidence now).1 now
  have hmp := moved_pressOk hc ((s.classify now i.cls).fsm.observe i.cls.label i.cls.confidence now).1 now
  have ho : PressOk ((s.classify now i.cls).observe now i) := by
    rcases observe_cases (s.classify now i.cls) now i with
      ⟨-, -, due, he⟩ | ⟨-, -, he⟩ | ⟨-, -, he⟩ | ⟨-, he⟩ <;> rw [he]
    · exact hmp
    · simpa [PressOk, startProbe_eq hms.opened, pressOk] using hmp
    · exact hmp
    · exact fail_pressOk hmp now _
  rcases wakeMenu_cases ((s.classify now i.cls).observe now i) now with ⟨due, he⟩ | ⟨-, -, he⟩ <;>
    rw [beforePoll, he]
  · exact ho
  · simpa [PressOk, startMenu_eq (s := { (s.classify now i.cls).observe now i with menuWakeDue := none })
      hos.opened, pressOk] using ho

theorem applyProbe_pressOk {s : AgentSession} (h : PressOk s) (o : ProbeOutcome) (now : ℚ)
    (reply : BridgeReply) : PressOk (s.applyProbe o now reply) := by
  rw [applyProbe_eq]
  have h' : PressOk (s.emit (.probeResult now o.isHuman)) := by
    simpa [PressOk, emit, log, pressOk] using h
  have hm := moved_pressOk h' (s.fsm.probeResult o.isHuman now).1 now
  cases hp : (s.fsm.probeResult o.isHuman now).2 with
  | bridge =>
    have hh := CallStateMachine.probeResult_bridge hp
    by_cases hr : reply = .ok
    · rw [hr, dispatch, bridge_ok_eq (by rw [moved_eq]; exact hh)]
      simpa [PressOk, pressOk] using hm
    · obtain ⟨reason, heq⟩ := bridge_failed_eq
        (s := (s.emit (.probeResult now o.isHuman)).moved (s.fsm.probeResult o.isHuman now).1 now) hr now
      rw [dispatch, heq]
      simpa [PressOk, pressOk] using hm
  | none => exact hm
  | wakeTier2Menu => exact hm
  | wakeTier2Probe =>
    -- no verdict asks for a probe
    revert hp
    unfold CallStateMachine.probeResult
    split
    · simp
    · split <;> simp
  | fail => exact fail_pressOk hm now _

theorem tier2Failed_pressOk {s : AgentSession} (h : PressOk s) (k : Tier2Kind) (e : Tier2Error) (now : ℚ) :
    PressOk (s.tier2Failed k e now) := by
  cases e <;> simp only [tier2Failed] <;> (try split) <;> first | exact fail_pressOk h now _ | exact h

/-- What a menu read chose is pressed, if it chose anything. -/
theorem applyMenu_presses {s : AgentSession} {d : MenuDecision} {k : String} (hp : d.presses = true)
    (hd : d.digits = some k) (now : ℚ) : s.applyMenu d now =
      { s with fsm := s.fsm.noteMenuAction now,
               trace := s.trace ++ [.dtmfSender k, .emit (.dtmfSent now k)] } := by
  simp [applyMenu, hp, hd, emit, log]

theorem applyMenu_pressOk {s : AgentSession} (h : PressOk s) {f : Flight} {d : MenuDecision}
    (hst : (History.of s.trace).state = .ivrMenu)
    (happ : (History.of s.trace).applied = some (f, .ok (.decision d)))
    (hfl : f.job.kind = .menu ∧ f.state = .ivrMenu ∧ f.visit = (History.of s.trace).visit) (now : ℚ) :
    PressOk (s.applyMenu d now) := by
  obtain ⟨f1, f2, f3⟩ := hfl
  by_cases hp : d.presses = true
  · obtain ⟨digits, hd⟩ : ∃ digits, d.digits = some digits := by
      cases hd : d.digits with
      | none => simp [MenuDecision.presses, hd] at hp
      | some digits => exact ⟨digits, rfl⟩
    rw [applyMenu_presses hp hd]
    refine (accepts_append _ _ _).2 ⟨h, ?_⟩
    simp [pressOk, hst, happ, hd, f1, f2, f3]
  · have hn : s.applyMenu d now = { s with fsm := s.fsm.noteMenuAbstained } := by
      unfold applyMenu
      split
      · rename_i hpr _; exact absurd hpr hp
      · rfl
    rw [hn]
    exact h

theorem taken_pressOk {s : AgentSession} (h : PressOk s) (j : Job) (r : Tier2Result) :
    PressOk (s.taken j r) := by
  simpa [PressOk, taken, log, pressOk] using h

theorem pollTier2_pressOk {s : AgentSession} (hs : Sound s) (h : PressOk s)
    (hown : OwnFlight .menu .ivrMenu s) (hin : InMenu s) (now : ℚ) (i : Tick) :
    PressOk (s.pollTier2 now i) := by
  rcases pollTier2_results hs now i with ⟨he, -⟩ | ⟨fl, a, hfl, -, hr⟩
  · rw [he]; exact h
  rcases hr with ⟨d, hk, hj, -, he⟩ | ⟨e, -, -, he⟩ | ⟨o, -, -, -, he⟩ | ⟨e, -, -, he⟩ <;> rw [he]
  · obtain ⟨fl', hfl', f1, f2⟩ := hown hk (hin hk)
    rw [hfl] at hfl'
    cases hfl'
    have hof := of_taken hfl fl.job (.ok (.decision d))
    refine applyMenu_pressOk (taken_pressOk h _ _) (f := fl) ?_ (by rw [hof]) ⟨hj, f1, by rw [hof]; exact f2⟩ now
    rw [hof, ← hin hk]
    exact hs.state
  · exact tier2Failed_pressOk (taken_pressOk h _ _) _ e now
  · exact applyProbe_pressOk (taken_pressOk h _ _) o now _
  · exact tier2Failed_pressOk (taken_pressOk h _ _) _ e now

theorem pollTier2_inMenu {s : AgentSession} (hs : Sound s) (h : InMenu s) (now : ℚ) (i : Tick) :
    InMenu (s.pollTier2 now i) := by
  rcases pollTier2_cases hs now i with ⟨he, -⟩ | ⟨j, a, -, -, -, he⟩ <;> rw [he]
  · exact h
  · intro hk
    rw [applyResult_tier2Kind] at hk
    simp [taken, log] at hk

theorem beforePoll_inMenu {s : AgentSession} (hs : Sound s) (h : InMenu s) (now : ℚ) (i : Tick)
    (hc : s.fsm.LeavesMenu i.cls.label i.cls.confidence now → s.tier2Kind ≠ some .menu) :
    InMenu (s.beforePoll now i) := by
  intro hk
  rw [beforePoll_state hs]
  cases hks : s.tier2Kind with
  | some k =>
    -- the job in flight is still the one it was
    rw [(beforePoll_busy (s := s) (by rw [hks]; simp) now i).1] at hk
    by_contra hne
    exact hc ((CallStateMachine.observe_leavesMenu_iff (h hk) _ _ _).1 hne) hk
  | none =>
    obtain ⟨hm, hck, -⟩ := s.classify_fields now i.cls
    have hcs := classify_sound hs now i.cls
    rcases wakeMenu_cases ((s.classify now i.cls).observe now i) now with ⟨due, he⟩ | ⟨hst, -, -⟩
    · -- a probe is all the observation can have started
      rw [beforePoll, he] at hk
      have hms := moved_sound hcs ((s.classify now i.cls).fsm.observe i.cls.label i.cls.confidence now).1 now
      rcases observe_cases (s.classify now i.cls) now i with
        ⟨-, -, due, ho⟩ | ⟨-, -, ho⟩ | ⟨-, hn, -⟩ | ⟨-, ho⟩
      · rw [ho, moved_eq] at hk; simp [hck, hks] at hk
      · rw [ho, startProbe_eq hms.opened] at hk; simp at hk
      · exact absurd (hck.trans hks) hn
      · rw [ho, fail_eq, moved_eq] at hk; simp [hck, hks] at hk
    · rw [observe_state hcs, hm] at hst
      exact hst

/-- The law of keys together with what carries it through a run. -/
structure PressInv (s : AgentSession) : Prop where
  sound : Sound s
  own : OwnFlight .menu .ivrMenu s
  inMenu : InMenu s

theorem step_pressOk (s : AgentSession) (m : Move) (hi : PressInv s) (h : PressOk s)
    (hc : StaysForAnswer s m) : PressInv (step s m) ∧ PressOk (step s m) := by
  obtain ⟨hs, hown, hin⟩ := hi
  -- a menu is entered from elsewhere, where no menu read is in flight
  have hent : ∀ st' : CallState, st' = .ivrMenu → s.fsm.state ≠ .ivrMenu → s.tier2Kind ≠ some .menu :=
    fun _ _ hne hk => hne (hin hk)
  refine ⟨⟨step_sound s m hs, ?_, ?_⟩, ?_⟩
  · refine step_keeps hs hown (fun h => h) (fun h => h) (fun h => fail_own h _ _) m fun i _ _ => ?_
    exact runTick_own hs hown _ i (by simp) (hent _)
  · refine step_keeps hs hin (fun h => h) (fun h => h) (fun h => h) m ?_
    rintro i rfl hd
    rw [runTick_eq hs]
    exact pollTier2_inMenu (beforePoll_sound hs _ i) (beforePoll_inMenu hs hin _ i (hc hd)) _ i
  · refine step_keeps hs h (fun h => h) (fun h => h) (fun h => fail_pressOk h _ _) m ?_
    rintro i rfl hd
    obtain ⟨hm, hk, -⟩ := s.classify_fields s.nextClassifyAt i.cls
    have hcs := classify_sound hs s.nextClassifyAt i.cls
    have hos := observe_sound hcs s.nextClassifyAt i
    rw [runTick_eq hs]
    refine pollTier2_pressOk (beforePoll_sound hs _ i) (beforePoll_pressOk hs h _ i) ?_
      (beforePoll_inMenu hs hin _ i (hc hd)) _ i
    exact wakeMenu_own hos (observe_own hcs (classify_own hown _ _) _ i (by simp) (by rw [hk, hm]; exact hent _)) _

/-- Left with its read in flight, the menu's digit, arriving in this very tick, is pressed elsewhere. -/
theorem staysForAnswer_tight {s : AgentSession} (hs : Sound s) {i : Tick}
    (hc : ¬ StaysForAnswer s (.tick i)) :
    ¬ PressOk (step s (.tick { i with answer := some { menu := .ok ⟨some "1", ""⟩ } })) := by
  simp only [StaysForAnswer, Classical.not_imp, ne_eq, not_not] at hc
  obtain ⟨hd, hl, hk⟩ := hc
  set i' : Tick := { i with answer := some { menu := .ok ⟨some "1", ""⟩ } }
  have hts := beforePoll_sound hs s.nextClassifyAt i'
  have htst : (s.beforePoll s.nextClassifyAt i').fsm.state ≠ .ivrMenu := by
    rw [beforePoll_state hs]
    exact (CallStateMachine.observe_leavesMenu_iff hl.1 _ _ _).2 hl
  obtain ⟨htk, -⟩ := beforePoll_busy (s := s) (by rw [hk]; simp) s.nextClassifyAt i'
  unfold PressOk
  simp only [step]
  rw [loopPass_trace hs hd]
  generalize s.beforePoll s.nextClassifyAt i' = t at hts htst htk
  rcases pollTier2_results hts s.nextClassifyAt i' with ⟨-, hn⟩ | ⟨fl, a, hfl, ha, hr⟩
  · rw [htk, hk] at hn
    simp [i'] at hn
  cases ha
  rcases hr with ⟨d, -, -, hm, he⟩ | ⟨e, -, hm, -⟩ | ⟨o, hn, -⟩ | ⟨e, hn, -⟩
  · cases hm
    rw [he, applyMenu_presses (k := "1") (by decide) rfl]
    intro hacc
    have hpress := ((accepts_append _ _ _).1 hacc).2.1
    rw [of_taken hfl] at hpress
    simp [pressOk, hts.state, htst] at hpress
  · cases hm
  · rw [htk, hk] at hn; cases hn
  · rw [htk, hk] at hn; cases hn

/-- **`pressOk_of_along`**: in every run of a session that never leaves IVR_MENU with a menu read in flight,
each key is pressed in the menu visit it was chosen for. -/
theorem pressOk_of_along (callId : String) (settings : Settings) (cfg : FsmConfig) (goal sid : Option String)
    (ms : List Move) (h : Run.Along step StaysForAnswer (new callId settings cfg goal sid) ms) :
    Run.Always step PressOk (new callId settings cfg goal sid) ms :=
  Run.always_of_step step_pressOk ms _ ⟨new_sound .., nofun, nofun⟩ trivial h

/-- A menu read submitted at 4 s answers "2" at 5 s, and hold music queues the call after that. -/
def pressedInMenu : List Call :=
  hear 0 .liveSpeechCandidate :: List.replicate 4 (hear 4000 .liveSpeechCandidate) ++
    List.replicate 5 (hear 4000 .unknown) ++ [hear 4000 .unknown (some { menu := .ok ⟨some "2", ""⟩ })] ++
    List.replicate 6 (hear 4000 .holdMusic)

/-- The key goes out to the menu it was chosen for. -/
theorem pressedInMenu_pressOk :
    Run.Always step PressOk (new "CA1" {} {} none none) (pressedInMenu.flatMap Call.moves) ∧
      .dtmfSender "2" ∈ (Run.exec step (new "CA1" {} {} none none) (pressedInMenu.flatMap Call.moves)).trace ∧
      (Run.exec step (new "CA1" {} {} none none) (pressedInMenu.flatMap Call.moves)).fsm.state = .onHold :=
  ⟨pressOk_of_along "CA1" {} {} none none _ (by decide +kernel), by decide +kernel, by decide +kernel⟩

/-- **`pressOk_iff`**: over every run of a session and every completion timing of its jobs, each key is
pressed in the menu visit it was chosen for, exactly when no completion timing has IVR_MENU left while
its read is in flight. -/
theorem pressOk_iff (callId : String) (settings : Settings) (cfg : FsmConfig) (goal sid : Option String)
    (ms : List Move) :
    (∀ ms', List.Forall₂ Move.Retimed ms ms' →
        Run.Always step PressOk (new callId settings cfg goal sid) ms') ↔
      ∀ ms', List.Forall₂ Move.Retimed ms ms' →
        Run.Along step StaysForAnswer (new callId settings cfg goal sid) ms' := by
  refine Run.always_iff_along_variants Move.Retimed.refl Move.Retimed.trans
    (fun s m hi h hc => step_pressOk s m hi h hc) (fun s m hi _ hn => ?_) ms _
    ⟨new_sound .., nofun, nofun⟩ trivial
  cases m with
  | tick i => exact ⟨_, ⟨_, rfl⟩, staysForAnswer_tight hi.sound hn⟩
  | _ => exact absurd trivial hn

/-- A menu read submitted at 4 s answers "2" only when three ticks of hold music have queued the call. -/
def pressedOnHold : List Call :=
  hear 0 .liveSpeechCandidate :: List.replicate 4 (hear 4000 .liveSpeechCandidate) ++
    List.replicate 4 (hear 4000 .unknown) ++ List.replicate 3 (hear 4000 .holdMusic) ++
    [hear 4000 .holdMusic (some { menu := .ok ⟨some "2", ""⟩ })]

/-- The key goes out to hold music. -/
theorem pressedOnHold_not_pressOk :
    ¬ PressOk (Run.exec call (new "CA1" {} {} none none) pressedOnHold) := by
  decide +kernel

end AgentSession

end DialPass
