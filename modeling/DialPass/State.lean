import DialPass.Labels
/-!
# The call-phase state machine (agent/state.py)

`CallStateMachine` is a pure value: every Python method that mutates `self` returns the new
machine, `observe` and `probe_result` together with the `Action` they ask for. Times and
confidences are exact rationals. Thresholds are natural numbers: a count is compared with them by
`>=` only (`<` for `max_menu_presses`), where a negative threshold acts as 0.

`observe_move` lists everything one observation can do, guard included; the three predicates
`Fails`, `WakesProbe` and `LeavesMenu` are the guards later modules speak about.
-/

namespace DialPass

/-- state.py:36 -/
inductive CallState where
  | dialing | ivrMenu | onHold | evaluatingSpeech | humanDetected | bridging | done | failed
deriving DecidableEq, Repr

/-- state.py:47 -/
def liveStates : Finset CallState := {.dialing, .ivrMenu, .onHold, .evaluatingSpeech}

/-- What the machine asks `AgentSession` to do (state.py:57). -/
inductive Action where
  | none | wakeTier2Menu | wakeTier2Probe | bridge | fail
deriving DecidableEq, Repr

/-- state.py:68 -/
structure FsmConfig where
  enterMenuFrames : Nat := 5
  enterHoldFrames : Nat := 3
  dialingToHoldFrames : Nat := 6
  reenterMenuFrames : Nat := 3
  enterEvalFrames : Nat := 2
  leaveEvalFrames : Nat := 5
  nonConnectFrames : Nat := 2
  menuRefractoryS : ℚ := 10
  menuGapFrames : Nat := 4
  maxMenuPresses : Nat := 6
  menuNoopsBeforeHold : Nat := 2
  menuSpeechToHoldFrames : Nat := 6
  refractoryS : ℚ := 8
  minConfidence : ℚ := 55 / 100

/-- state.py:100-116 -/
structure CallStateMachine where
  cfg : FsmConfig := {}
  state : CallState := .dialing
  streakLabel : Option Label := .none
  streak : Nat := 0
  refractoryUntil : ℚ := 0
  menuWoken : Bool := false
  menuRefractoryUntil : ℚ := 0
  menuGapSeen : Bool := false
  menuPresses : Nat := 0
  menuNoops : Nat := 0

namespace CallStateMachine

/-- `_streak_for` (state.py:118): the machine with its streak advanced, and the streak this
observation counts as. A frame below `min_confidence` counts as 0 and touches nothing. -/
def streakFor (m : CallStateMachine) (label : Label) (confidence : ℚ) : CallStateMachine × Nat :=
  if confidence < m.cfg.minConfidence then (m, 0)
  else if m.streakLabel = some label then ({ m with streak := m.streak + 1 }, m.streak + 1)
  else ({ m with streakLabel := some label, streak := 1 }, 1)

/-- `_enter` (state.py:134). -/
def enter (m : CallStateMachine) (state : CallState) : CallStateMachine :=
  let m := { m with state, streakLabel := .none, streak := 0 }
  if state = .ivrMenu then { m with menuWoken := false, menuGapSeen := false, menuNoops := 0 } else m

/-- `_fall_back_to_hold` (state.py:149). -/
def fallBackToHold (m : CallStateMachine) (now : ℚ) : CallStateMachine :=
  { m with refractoryUntil := now + m.cfg.refractoryS }.enter .onHold

/-- `_on_dialing` (state.py:236). -/
def onDialing (m : CallStateMachine) (label : Label) (streak : Nat) : CallStateMachine × Action :=
  if (label ∈ menuLabels ∨ label = .liveSpeechCandidate) ∧ m.cfg.enterMenuFrames ≤ streak then
    ({ m.enter .ivrMenu with menuWoken := true }, .wakeTier2Menu)
  else if label = .holdMusic ∧ m.cfg.dialingToHoldFrames ≤ streak then (m.enter .onHold, .none)
  else (m, .none)

/-- The exits of `_on_ivr_menu` to ON_HOLD (state.py:262-284): hold music, or, once enough reads
found nothing to press, sustained non-speech or one long unbroken speech run. -/
def menuEnds (m : CallStateMachine) (label : Label) (streak : Nat) (now : ℚ) : Prop :=
  (label = .holdMusic ∧ m.cfg.enterHoldFrames ≤ streak) ∨
  ((m.cfg.menuNoopsBeforeHold ≤ m.menuNoops ∧ m.menuRefractoryUntil ≤ now) ∧
    ((label ∈ holdLabels ∧ m.cfg.enterHoldFrames ≤ streak) ∨
     (label = .liveSpeechCandidate ∧ m.cfg.menuSpeechToHoldFrames ≤ streak)))

instance (m : CallStateMachine) (label : Label) (streak : Nat) (now : ℚ) :
    Decidable (m.menuEnds label streak now) := inferInstanceAs (Decidable (_ ∨ _))

/-- `_on_ivr_menu` (state.py:256). -/
def onIvrMenu (m : CallStateMachine) (label : Label) (streak : Nat) (now : ℚ) :
    CallStateMachine × Action :=
  if m.menuEnds label streak now then (m.enter .onHold, .none)
  else
    -- the prompt ended: a submenu can re-wake us
    let m := if label ∈ holdLabels ∧ m.cfg.menuGapFrames ≤ streak
      then { m with menuGapSeen := true } else m
    if label ∈ speechyLabels ∧ m.menuGapSeen = true ∧ m.menuRefractoryUntil ≤ now ∧ 2 ≤ streak ∧
        m.menuPresses < m.cfg.maxMenuPresses then
      ({ m with menuGapSeen := false, menuWoken := true }, .wakeTier2Menu)
    else (m, .none)

/-- `_on_on_hold` (state.py:301). -/
def onOnHold (m : CallStateMachine) (label : Label) (streak : Nat) (now : ℚ) :
    CallStateMachine × Action :=
  if label ∈ menuLabels ∧ m.cfg.reenterMenuFrames ≤ streak then (m.enter .ivrMenu, .wakeTier2Menu)
  else if label = .liveSpeechCandidate ∧ m.refractoryUntil ≤ now ∧ m.cfg.enterEvalFrames ≤ streak then
    (m.enter .evaluatingSpeech, .wakeTier2Probe)
  else (m, .none)

/-- `_on_evaluating_speech` (state.py:319). -/
def onEvaluatingSpeech (m : CallStateMachine) (label : Label) (streak : Nat) (now : ℚ) :
    CallStateMachine × Action :=
  if label ∈ holdLabels ∧ m.cfg.leaveEvalFrames ≤ streak then (m.fallBackToHold now, .none)
  else (m, .none)

/-- `observe` (state.py:156); the four cases with a handler are `_HANDLERS` (state.py:330). -/
def observe (m : CallStateMachine) (label : Label) (confidence now : ℚ) : CallStateMachine × Action :=
  let (m, streak) := m.streakFor label confidence
  if m.state ∈ liveStates ∧ label ∈ nonConnectLabels ∧ m.cfg.nonConnectFrames ≤ streak then
    (m.enter .failed, .fail)
  else match m.state with
    | .dialing => m.onDialing label streak
    | .ivrMenu => m.onIvrMenu label streak now
    | .onHold => m.onOnHold label streak now
    | .evaluatingSpeech => m.onEvaluatingSpeech label streak now
    | _ => (m, .none)

/-- `probe_result` (state.py:179). -/
def probeResult (m : CallStateMachine) (isHuman : Bool) (now : ℚ) : CallStateMachine × Action :=
  if m.state ≠ .evaluatingSpeech then (m, .none)
  else if isHuman then (m.enter .humanDetected, .bridge)
  else (m.fallBackToHold now, .none)

/-- `note_menu_action` (state.py:195). -/
def noteMenuAction (m : CallStateMachine) (now : ℚ) : CallStateMachine :=
  if m.state = .ivrMenu then
    { m with menuPresses := m.menuPresses + 1, menuWoken := false, menuGapSeen := false, menuNoops := 0,
             menuRefractoryUntil := now + m.cfg.menuRefractoryS }
  else m

/-- `note_menu_abstained` (state.py:207). -/
def noteMenuAbstained (m : CallStateMachine) : CallStateMachine :=
  if m.state = .ivrMenu then { m with menuNoops := m.menuNoops + 1 } else m

/-- `bridged` (state.py:215). -/
def bridged (m : CallStateMachine) : CallStateMachine :=
  if m.state = .humanDetected then m.enter .bridging else m

/-- `completed` (state.py:221). -/
def completed (m : CallStateMachine) : CallStateMachine := { m with state := .done }

/-- `failed` (state.py:226). -/
def failed (m : CallStateMachine) : CallStateMachine := { m with state := .failed }

/-! ## The state each operation leaves behind -/

@[simp] theorem streakFor_state (m : CallStateMachine) (label : Label) (confidence : ℚ) :
    (m.streakFor label confidence).1.state = m.state := by
  unfold streakFor; split
  · rfl
  · split <;> rfl

@[simp] theorem streakFor_cfg (m : CallStateMachine) (label : Label) (confidence : ℚ) :
    (m.streakFor label confidence).1.cfg = m.cfg := by
  unfold streakFor; split
  · rfl
  · split <;> rfl

@[simp] theorem enter_state (m : CallStateMachine) (st : CallState) : (m.enter st).state = st := by
  unfold enter; dsimp only; split <;> rfl

@[simp] theorem fallBackToHold_state (m : CallStateMachine) (now : ℚ) :
    (m.fallBackToHold now).state = .onHold := by simp [fallBackToHold]

@[simp] theorem noteMenuAction_state (m : CallStateMachine) (now : ℚ) :
    (m.noteMenuAction now).state = m.state := by
  unfold noteMenuAction; split <;> rfl

@[simp] theorem noteMenuAbstained_state (m : CallStateMachine) : m.noteMenuAbstained.state = m.state := by
  unfold noteMenuAbstained; split <;> rfl

@[simp] theorem completed_state (m : CallStateMachine) : m.completed.state = .done := rfl

theorem bridged_state {m : CallStateMachine} (h : m.state = .humanDetected) :
    m.bridged.state = .bridging := by simp [bridged, h]

theorem probeResult_stale {m : CallStateMachine} (h : m.state ≠ .evaluatingSpeech) (isHuman : Bool)
    (now : ℚ) : m.probeResult isHuman now = (m, .none) := by simp [probeResult, h]

theorem probeResult_human {m : CallStateMachine} (h : m.state = .evaluatingSpeech) (now : ℚ) :
    m.probeResult true now = (m.enter .humanDetected, .bridge) := by simp [probeResult, h]

theorem probeResult_not_human {m : CallStateMachine} (h : m.state = .evaluatingSpeech) (now : ℚ) :
    m.probeResult false now = (m.fallBackToHold now, .none) := by simp [probeResult, h]

/-- BRIDGE follows a human verdict in EVALUATING_SPEECH, so it finds HUMAN_DETECTED. -/
theorem probeResult_bridge {m : CallStateMachine} {isHuman : Bool} {now : ℚ}
    (h : (m.probeResult isHuman now).2 = .bridge) : (m.probeResult isHuman now).1.state = .humanDetected := by
  by_cases hst : m.state = .evaluatingSpeech
  · cases isHuman with
    | true => simp [probeResult_human hst]
    | false => simp [probeResult_not_human hst] at h
  · simp [probeResult_stale hst] at h

/-! ## One observation -/

/-- The streak `observe` will count this frame as. -/
def streakWith (m : CallStateMachine) (label : Label) (confidence : ℚ) : Nat :=
  (m.streakFor label confidence).2

/-- The label stream gives the call up: a non-connect label has held long enough. -/
def Fails (m : CallStateMachine) (label : Label) (confidence : ℚ) : Prop :=
  m.state ∈ liveStates ∧ label ∈ nonConnectLabels ∧ m.cfg.nonConnectFrames ≤ m.streakWith label confidence

/-- Speech on hold, past the cooldown, has held long enough to be probed. -/
def WakesProbe (m : CallStateMachine) (label : Label) (confidence now : ℚ) : Prop :=
  m.state = .onHold ∧ label = .liveSpeechCandidate ∧ m.refractoryUntil ≤ now ∧
    m.cfg.enterEvalFrames ≤ m.streakWith label confidence

/-- The observation ends the IVR_MENU visit: the line is queued, or it never connected. -/
def LeavesMenu (m : CallStateMachine) (label : Label) (confidence now : ℚ) : Prop :=
  m.state = .ivrMenu ∧
    (m.menuEnds label (m.streakWith label confidence) now ∨ m.Fails label confidence)

instance (m : CallStateMachine) (label : Label) (confidence : ℚ) :
    Decidable (m.Fails label confidence) := inferInstanceAs (Decidable (_ ∧ _))

instance (m : CallStateMachine) (label : Label) (confidence now : ℚ) :
    Decidable (m.WakesProbe label confidence now) := inferInstanceAs (Decidable (_ ∧ _))

instance (m : CallStateMachine) (label : Label) (confidence now : ℚ) :
    Decidable (m.LeavesMenu label confidence now) := inferInstanceAs (Decidable (_ ∧ _))

/-- Everything `observe` can do, as the state it was in, the state it leaves and the action. -/
inductive Move : CallState → CallState → Action → Prop where
  | stay (st : CallState) : Move st st .none
  | answered : Move .dialing .ivrMenu .wakeTier2Menu
  | straightToHold : Move .dialing .onHold .none
  | submenu : Move .ivrMenu .ivrMenu .wakeTier2Menu
  | queued : Move .ivrMenu .onHold .none
  | menuLoop : Move .onHold .ivrMenu .wakeTier2Menu
  | suspect : Move .onHold .evaluatingSpeech .wakeTier2Probe
  | standDown : Move .evaluatingSpeech .onHold .none
  | giveUp {st : CallState} : st ∈ liveStates → Move st .failed .fail

theorem Move.not_bridge {a b : CallState} : ¬ Move a b .bridge := nofun

theorem Move.of_probe {a b : CallState} (h : Move a b .wakeTier2Probe) :
    a = .onHold ∧ b = .evaluatingSpeech := by
  cases h; exact ⟨rfl, rfl⟩

theorem Move.of_fail {a b : CallState} (h : Move a b .fail) : b = .failed := by
  cases h; rfl

/-- No observation confirms a human: HUMAN_DETECTED is entered by a verdict only. -/
theorem Move.not_human {a b : CallState} {act : Action} (h : Move a b act) (hb : b = .humanDetected) :
    a = .humanDetected := by
  cases h <;> simp_all

/-- EVALUATING_SPEECH is entered with WAKE_TIER2_PROBE, or it was the state already. -/
theorem Move.to_eval {a b : CallState} {act : Action} (h : Move a b act) (hb : b = .evaluatingSpeech) :
    act = .wakeTier2Probe ∨ (a = .evaluatingSpeech ∧ act = .none) := by
  cases h <;> simp_all

theorem onDialing_move {m : CallStateMachine} (h : m.state = .dialing) (label : Label) (streak : Nat) :
    Move .dialing (m.onDialing label streak).1.state (m.onDialing label streak).2 := by
  unfold onDialing
  split
  · simpa using Move.answered
  · split
    · simpa using Move.straightToHold
    · simpa [h] using Move.stay .dialing

theorem onIvrMenu_move {m : CallStateMachine} (h : m.state = .ivrMenu) (label : Label) (streak : Nat)
    (now : ℚ) : Move .ivrMenu (m.onIvrMenu label streak now).1.state (m.onIvrMenu label streak now).2 := by
  unfold onIvrMenu
  split
  · simpa using Move.queued
  · dsimp only
    -- noting the gap keeps the state
    split <;> split <;> first
      | simpa [h] using Move.submenu
      | simpa [h] using Move.stay .ivrMenu

theorem onOnHold_move {m : CallStateMachine} (h : m.state = .onHold) (label : Label) (streak : Nat)
    (now : ℚ) : Move .onHold (m.onOnHold label streak now).1.state (m.onOnHold label streak now).2 := by
  unfold onOnHold
  split
  · simpa using Move.menuLoop
  · split
    · simpa using Move.suspect
    · simpa [h] using Move.stay .onHold

theorem onEvaluatingSpeech_move {m : CallStateMachine} (h : m.state = .evaluatingSpeech) (label : Label)
    (streak : Nat) (now : ℚ) :
    Move .evaluatingSpeech (m.onEvaluatingSpeech label streak now).1.state
      (m.onEvaluatingSpeech label streak now).2 := by
  unfold onEvaluatingSpeech
  split
  · simpa using Move.standDown
  · simpa [h] using Move.stay .evaluatingSpeech

/-- **One observation takes one edge of the documented graph**, with the action of that edge. -/
theorem observe_move (m : CallStateMachine) (label : Label) (confidence now : ℚ) :
    Move m.state (m.observe label confidence now).1.state (m.observe label confidence now).2 := by
  unfold observe
  have hs := m.streakFor_state label confidence
  generalize m.streakFor label confidence = p at hs ⊢
  obtain ⟨m', streak⟩ := p
  simp only at hs ⊢
  rw [← hs]
  split
  · rename_i h
    simpa using Move.giveUp h.1
  · split
    case h_1 hst => rw [hst]; exact onDialing_move hst label streak
    case h_2 hst => rw [hst]; exact onIvrMenu_move hst label streak now
    case h_3 hst => rw [hst]; exact onOnHold_move hst label streak now
    case h_4 hst => rw [hst]; exact onEvaluatingSpeech_move hst label streak now
    case h_5 => exact Move.stay _

theorem streakFor_menuEnds (m : CallStateMachine) (label : Label) (confidence : ℚ) (l : Label)
    (streak : Nat) (now : ℚ) :
    (m.streakFor label confidence).1.menuEnds l streak now ↔ m.menuEnds l streak now := by
  unfold streakFor; split
  · rfl
  · split <;> rfl

theorem streakFor_refractoryUntil (m : CallStateMachine) (label : Label) (confidence : ℚ) :
    (m.streakFor label confidence).1.refractoryUntil = m.refractoryUntil := by
  unfold streakFor; split
  · rfl
  · split <;> rfl

/-- `observe` after the give-up test, by the state it dispatches on. -/
theorem observe_of_fails {m : CallStateMachine} {label : Label} {confidence : ℚ}
    (h : m.Fails label confidence) (now : ℚ) :
    m.observe label confidence now = ((m.streakFor label confidence).1.enter .failed, .fail) := by
  unfold observe
  dsimp only
  rw [if_pos (by simpa [Fails, streakWith] using h)]

theorem observe_of_not_fails {m : CallStateMachine} {label : Label} {confidence : ℚ}
    (h : ¬ m.Fails label confidence) (now : ℚ) :
    m.observe label confidence now =
      match m.state with
      | .dialing => (m.streakFor label confidence).1.onDialing label (m.streakWith label confidence)
      | .ivrMenu => (m.streakFor label confidence).1.onIvrMenu label (m.streakWith label confidence) now
      | .onHold => (m.streakFor label confidence).1.onOnHold label (m.streakWith label confidence) now
      | .evaluatingSpeech =>
        (m.streakFor label confidence).1.onEvaluatingSpeech label (m.streakWith label confidence) now
      | _ => ((m.streakFor label confidence).1, .none) := by
  unfold observe
  dsimp only
  rw [if_neg (by simpa [Fails, streakWith] using h), streakFor_state]
  rfl

/-- The action is FAIL exactly when the label stream gives up. -/
theorem observe_fail_iff (m : CallStateMachine) (label : Label) (confidence now : ℚ) :
    (m.observe label confidence now).2 = .fail ↔ m.Fails label confidence := by
  constructor
  · intro h
    by_contra hn
    rw [observe_of_not_fails hn] at h
    -- no handler returns FAIL
    revert h
    cases hst : m.state <;>
      simp only [onDialing, onIvrMenu, onOnHold, onEvaluatingSpeech] <;>
      (try split_ifs) <;> simp
  · intro h
    rw [observe_of_fails h]

/-- WAKE_TIER2_PROBE is asked for exactly when probe-worthy speech held on hold. -/
theorem observe_wakesProbe_iff (m : CallStateMachine) (label : Label) (confidence now : ℚ) :
    (m.observe label confidence now).2 = .wakeTier2Probe ↔ m.WakesProbe label confidence now := by
  constructor
  · intro h
    have hn : ¬ m.Fails label confidence := by
      intro hf; rw [observe_of_fails hf] at h; simp at h
    have hmove := m.observe_move label confidence now
    rw [h] at hmove
    have hst : m.state = .onHold := hmove.of_probe.1
    rw [observe_of_not_fails hn, hst] at h
    simp only [onOnHold, streakFor_cfg, streakFor_refractoryUntil] at h
    split_ifs at h with h1 h2
    exact ⟨hst, h2⟩
  · rintro ⟨hst, hl, hr, hk⟩
    have hn : ¬ m.Fails label confidence := by
      rintro ⟨-, hc, -⟩; rw [hl] at hc; simp [nonConnectLabels] at hc
    rw [observe_of_not_fails hn, hst]
    simp only [onOnHold, streakFor_cfg, streakFor_refractoryUntil]
    rw [if_neg (by rw [hl]; simp [menuLabels]), if_pos ⟨hl, hr, hk⟩]

/-- An observation in IVR_MENU leaves it exactly when `LeavesMenu` says so. -/
theorem observe_leavesMenu_iff {m : CallStateMachine} (hst : m.state = .ivrMenu) (label : Label)
    (confidence now : ℚ) :
    (m.observe label confidence now).1.state ≠ .ivrMenu ↔ m.LeavesMenu label confidence now := by
  by_cases hf : m.Fails label confidence
  · rw [observe_of_fails hf]
    simp [LeavesMenu, hst, hf]
  · rw [observe_of_not_fails hf, hst]
    simp only [onIvrMenu, LeavesMenu, hst, hf, or_false, true_and, streakFor_menuEnds]
    by_cases he : m.menuEnds label (m.streakWith label confidence) now
    · simp [he]
    · simp only [he, if_false, iff_false, ne_eq, not_not]
      split_ifs <;> simp [hst]

end CallStateMachine

end DialPass
