import DialPass.State.Operations
/-!
# Hysteresis: what it takes to change the state (state.py:118-147, state.py:236-327)

The machine keeps one label and one counter. A `Stay` keeps what they stand for: every confident label heard
since the state last changed. `debounced` says that an observation changes the state only at the end of a run
of its own label as long as the threshold of that transition asks, and that observations below
`min_confidence` might as well not have been made.
-/

namespace DialPass

open CallStateMachine

/-- Every threshold of frames asks for one at least. -/
structure FsmConfig.Positive (cfg : FsmConfig) : Prop where
  enterMenu : 1 ≤ cfg.enterMenuFrames
  enterHold : 1 ≤ cfg.enterHoldFrames
  dialingToHold : 1 ≤ cfg.dialingToHoldFrames
  reenterMenu : 1 ≤ cfg.reenterMenuFrames
  enterEval : 1 ≤ cfg.enterEvalFrames
  leaveEval : 1 ≤ cfg.leaveEvalFrames
  nonConnect : 1 ≤ cfg.nonConnectFrames
  menuGap : 1 ≤ cfg.menuGapFrames
  menuSpeechToHold : 1 ≤ cfg.menuSpeechToHoldFrames

theorem FsmConfig.default_positive : ({} : FsmConfig).Positive := by
  constructor <;> decide

/-- The threshold configured for a transition on a label, of those there are. -/
def FsmConfig.threshold (cfg : FsmConfig) (frm dst : CallState) (label : Label) : Option Nat :=
  match frm, dst with
  | .dialing, .ivrMenu => some cfg.enterMenuFrames
  | .dialing, .onHold => some cfg.dialingToHoldFrames
  | .ivrMenu, .onHold =>
    some (if label = .liveSpeechCandidate then cfg.menuSpeechToHoldFrames else cfg.enterHoldFrames)
  | .onHold, .ivrMenu => some cfg.reenterMenuFrames
  | .onHold, .evaluatingSpeech => some cfg.enterEvalFrames
  | .evaluatingSpeech, .onHold => some cfg.leaveEvalFrames
  | frm, .failed => if frm ∈ liveStates then some cfg.nonConnectFrames else none
  | _, _ => none

theorem FsmConfig.Positive.threshold {cfg : FsmConfig} (h : cfg.Positive) {frm dst : CallState} {label : Label}
    {n : Nat} (hn : cfg.threshold frm dst label = some n) : 1 ≤ n := by
  obtain ⟨h1, h2, h3, h4, h5, h6, h7, h8, h9⟩ := h
  unfold FsmConfig.threshold at hn
  split at hn <;> (try split at hn) <;> cases hn <;> assumption

namespace CallStateMachine

/-- An observation that does not count. -/
def Operation.unsure (cfg : FsmConfig) : Operation → Bool
  | .observe _ confidence _ => confidence < cfg.minConfidence
  | _ => false

/-! ## A stay in one state -/

/-- The machine, and the labels that have counted since it last changed its state. -/
structure Stay where
  machine : CallStateMachine
  heard : List Label := []

def Stay.step (s : Stay) (op : Operation) : Stay :=
  { machine := s.machine.step op
    heard := if (s.machine.step op).state = s.machine.state then s.heard ++ (op.sure? s.machine.cfg).toList else [] }

/-- If the observation changes the state, the label it ends with has held for as long as the threshold of that
transition asks. -/
def Debounced (s : Stay) : Operation → Prop
  | .observe label confidence now =>
    let dst := (s.machine.observe label confidence now).1.state
    dst ≠ s.machine.state → ∃ n, s.machine.cfg.threshold s.machine.state dst label = some n ∧
      s.machine.cfg.minConfidence ≤ confidence ∧ List.replicate n label <:+ s.heard ++ [label]
  | _ => True

/-- The streak is the end of what has been heard, while the machine still listens. -/
def Counted (s : Stay) : Prop := s.machine.state ∈ liveStates → ∀ l, s.machine.Counts l s.heard

/-- A change of state starts the count over, or nobody listens any more. -/
theorem step_changed {m : CallStateMachine} {op : Operation} (h : (m.step op).state ≠ m.state) :
    (m.step op).streakLabel = none ∨ (m.step op).state ∉ liveStates := by
  cases op with
  | observe label confidence now =>
    have hs := m.streakFor_state label confidence
    have ho := m.observe_outcome label confidence now
    simp only [step, operate] at h ⊢
    generalize (m.streakFor label confidence).1 = m' at hs ho
    generalize (m.observe label confidence now).1 = t, (m.observe label confidence now).2 = act at ho h ⊢
    cases ho with
    | stay => exact absurd hs h
    | gap => exact absurd hs h
    | submenu => exact absurd hs h
    | _ => exact .inl (by simp [fallBackToHold])
  | probeResult isHuman now =>
    simp only [step, operate, probeResult] at h ⊢
    split at h
    · exact absurd rfl h
    · rename_i hst
      rw [if_neg hst]
      split <;> exact .inl (by simp [fallBackToHold])
  | noteMenuAction now => simp [step, operate] at h
  | noteMenuAbstained => simp [step, operate] at h
  | bridged =>
    simp only [step, operate, CallStateMachine.bridged] at h ⊢
    split at h
    · rename_i hst
      rw [if_pos hst]
      exact .inl (by simp)
    · exact absurd rfl h
  | completed => exact .inr (by simp [step, operate, CallStateMachine.completed, liveStates])
  | failed => exact .inr (by simp [step, operate, CallStateMachine.failed, liveStates])

theorem step_counted (s : Stay) (op : Operation) (h : Counted s) : Counted (s.step op) := by
  intro hlive l
  simp only [Stay.step] at hlive ⊢
  by_cases hst : (s.machine.step op).state = s.machine.state
  · rw [if_pos hst]
    exact (h (hst ▸ hlive) l).step op
  · rcases step_changed hst with hn | hn
    · exact .of_none hn l _
    · exact absurd hlive hn

/-- A change of state has a threshold, and the streak has reached it. -/
theorem observe_threshold {m : CallStateMachine} {label : Label} {confidence now : ℚ}
    (h : (m.observe label confidence now).1.state ≠ m.state) :
    m.state ∈ liveStates ∧ ∃ n, m.cfg.threshold m.state (m.observe label confidence now).1.state label = some n ∧
      n ≤ m.streakWith label confidence := by
  have hs := m.streakFor_state label confidence
  have hc := m.streakFor_cfg label confidence
  have ho := m.observe_outcome label confidence now
  generalize m.streakWith label confidence = k at ho ⊢
  generalize (m.streakFor label confidence).1 = m' at hs hc ho
  generalize (m.observe label confidence now).1 = t, (m.observe label confidence now).2 = act at ho h ⊢
  rw [← hs, ← hc] at *
  cases ho with
  | stay => exact absurd rfl h
  | gap => exact absurd rfl h
  | submenu => exact absurd rfl h
  | giveUp hl _ hk =>
    refine ⟨hl, m'.cfg.nonConnectFrames, ?_, hk⟩
    cases hst : m'.state <;> simp [FsmConfig.threshold] <;> rw [hst] at hl <;> simpa using hl
  | answered hst _ hk => exact ⟨by simp [hst, liveStates], _, by simp [hst, FsmConfig.threshold], hk⟩
  | straightToHold hst _ hk => exact ⟨by simp [hst, liveStates], _, by simp [hst, FsmConfig.threshold], hk⟩
  | menuLoop hst _ hk => exact ⟨by simp [hst, liveStates], _, by simp [hst, FsmConfig.threshold], hk⟩
  | suspect hst _ _ hk => exact ⟨by simp [hst, liveStates], _, by simp [hst, FsmConfig.threshold], hk⟩
  | standDown hst _ hk => exact ⟨by simp [hst, liveStates], _, by simp [hst, FsmConfig.threshold], hk⟩
  | queued hst he =>
    refine ⟨by simp [hst, liveStates], _, by simp [hst, FsmConfig.threshold]; rfl, ?_⟩
    -- the three exits: music, hold-like audio and unbroken speech
    rcases he with ⟨rfl, hk⟩ | ⟨-, ⟨hl, hk⟩ | ⟨rfl, hk⟩⟩
    · exact hk
    · rw [if_neg]
      · exact hk
      · rintro rfl
        exact absurd hl (by decide)
    · exact hk

theorem counted_debounced {s : Stay} (hpos : s.machine.cfg.Positive) (h : Counted s) (op : Operation) :
    Debounced s op := by
  cases op with
  | observe label confidence now =>
    intro hne
    obtain ⟨hl, n, hn, hk⟩ := observe_threshold hne
    have hconf : s.machine.cfg.minConfidence ≤ confidence := by
      by_contra hlow
      have h1 := hpos.threshold hn
      rw [streakWith_unsure (not_le.1 hlow)] at hk
      omega
    refine ⟨n, hn, hconf, ?_⟩
    have hrun := (h hl label).streakWith hconf
    have hle : List.replicate n label <:+ List.replicate (s.machine.streakWith label confidence) label :=
      List.suffix_replicate_iff.2 ⟨by simpa using hk, by simp⟩
    exact hle.trans hrun
  | _ => trivial

/-! ## Observations that do not count -/

theorem observe_unsure {m : CallStateMachine} (h : m.cfg.Positive) {confidence : ℚ}
    (hc : confidence < m.cfg.minConfidence) (label : Label) (now : ℚ) :
    m.observe label confidence now = (m, .none) := by
  obtain ⟨h1, h2, h3, h4, h5, h6, h7, h8, h9⟩ := h
  have hk := streakWith_unsure hc label
  have hm : (m.streakFor label confidence).1 = m := by simp [streakFor, hc]
  have hf : ¬ m.Fails label confidence := by
    rintro ⟨-, -, hn⟩
    omega
  rw [observe_of_not_fails hf, hm, hk]
  have hz : ∀ {n : Nat}, 1 ≤ n → ¬ n ≤ 0 := by omega
  cases m.state <;>
    simp [onDialing, onIvrMenu, onOnHold, onEvaluatingSpeech, menuEnds, hz h1, hz h2, hz h3, hz h4, hz h5, hz h6,
      hz h8, hz h9]

/-- What each operation leaves as the state and asks for. -/
def replies (m : CallStateMachine) : List Operation → List (Operation × CallState × Action)
  | [] => []
  | op :: ops => (op, (m.step op).state, (m.operate op).2) :: replies (m.step op) ops

theorem replies_filter {m : CallStateMachine} (h : m.cfg.Positive) (ops : List Operation) :
    (replies m ops).filter (!·.1.unsure m.cfg) = replies m (ops.filter (!·.unsure m.cfg)) := by
  induction ops generalizing m with
  | nil => rfl
  | cons op ops ih =>
    have hrest := ih (m := m.step op) (by simpa using h)
    rw [step_cfg] at hrest
    cases hu : op.unsure m.cfg with
    | false => simp [replies, hu, hrest]
    | true =>
      have hstep : m.step op = m := by
        cases op with
        | observe label confidence now =>
          have hc : confidence < m.cfg.minConfidence := by simpa [Operation.unsure] using hu
          simp [step, operate, observe_unsure h hc]
        | _ => cases hu
      rw [hstep] at hrest
      simp [replies, hu, hstep, hrest]

/-- **`debounced`**: with positive thresholds, in every run from DIALING an observation changes the state only at
the end of as many confident observations of its own label, since the last change, as the threshold of that
transition asks; and runs that differ in observations below `min_confidence` only leave the same states
and ask for the same at every other operation. -/
theorem debounced {cfg : FsmConfig} (h : cfg.Positive) :
    (∀ ops, Run.Along Stay.step Debounced { machine := { cfg } } ops) ∧
    ∀ ops ops', ops.filter (!·.unsure cfg) = ops'.filter (!·.unsure cfg) →
      (replies { cfg } ops).filter (!·.1.unsure cfg) = (replies { cfg } ops').filter (!·.1.unsure cfg) := by
  constructor
  · intro ops
    refine Run.along_of_exec_inv (I := fun s => s.machine.cfg.Positive ∧ Counted s) ?_ ?_ ops _ ⟨h, ?_⟩
    · rintro s op ⟨hp, hs⟩
      exact ⟨by simpa [Stay.step] using hp, step_counted s op hs⟩
    · rintro s op ⟨hp, hs⟩
      exact counted_debounced hp hs op
    · intro _ l
      exact .of_none rfl l _
  · intro ops ops' he
    have hl := replies_filter (m := { cfg }) h ops
    have hr := replies_filter (m := { cfg }) h ops'
    dsimp only at hl hr
    rw [hl, hr, he]

/-- A frame the classifier is not sure of, amid six of music. -/
def blip : List Operation :=
  List.replicate 5 (.observe .holdMusic 1 0) ++ [.observe .liveSpeechCandidate (1 / 2) 0, .observe .holdMusic 1 0]

theorem blip_debounced :
    (replies {} blip).filter (!·.1.unsure {}) = (replies {} (List.replicate 6 (.observe .holdMusic 1 0))).filter
        (!·.1.unsure {}) ∧
      (Run.exec Stay.step { machine := {} } blip).machine.state = .onHold :=
  ⟨(debounced FsmConfig.default_positive).2 blip (List.replicate 6 (.observe .holdMusic 1 0)) (by decide +kernel),
    by decide +kernel⟩

end CallStateMachine

end DialPass
