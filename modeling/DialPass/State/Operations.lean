import DialPass.Lib.Run
import DialPass.State
/-!
# Runs of the state machine (agent/state.py)

`Operation` is a call of one of the machine's methods, in any order and in any state. What an operation does
to a field that only some of them write is said once here, for the laws over runs to use; a law quantifies
over the positions of a run, by splitting its list.
-/

namespace DialPass

namespace CallStateMachine

/-- A call of `observe` or of one of the external signals (state.py:156-229). -/
inductive Operation where
  | observe (label : Label) (confidence now : ℚ)
  | probeResult (isHuman : Bool) (now : ℚ)
  | noteMenuAction (now : ℚ)
  | noteMenuAbstained
  | bridged
  | completed
  | failed
deriving DecidableEq

def Operation.time? : Operation → Option ℚ
  | .observe _ _ now | .probeResult _ now | .noteMenuAction now => some now
  | .noteMenuAbstained | .bridged | .completed | .failed => none

/-- The machine afterwards and the action returned; a method that returns nothing asks for none. -/
def operate (m : CallStateMachine) : Operation → CallStateMachine × Action
  | .observe label confidence now => m.observe label confidence now
  | .probeResult isHuman now => m.probeResult isHuman now
  | .noteMenuAction now => (m.noteMenuAction now, .none)
  | .noteMenuAbstained => (m.noteMenuAbstained, .none)
  | .bridged => (m.bridged, .none)
  | .completed => (m.completed, .none)
  | .failed => (m.failed, .none)

def step (m : CallStateMachine) (op : Operation) : CallStateMachine := (m.operate op).1

/-- The times never decrease. -/
def Timed (ops : List Operation) : Prop := (ops.filterMap Operation.time?).Pairwise (· ≤ ·)

instance (ops : List Operation) : Decidable (Timed ops) := inferInstanceAs (Decidable (List.Pairwise _ _))

/-- The operation comes at `T` or later, if it has a time. -/
def Operation.NotBefore (T : ℚ) (op : Operation) : Prop := ∀ t, op.time? = some t → T ≤ t

/-- What follows an operation in a timed run does not come before it. -/
theorem Timed.notBefore {pre mid : List Operation} {op : Operation} {T : ℚ} (h : Timed (pre ++ op :: mid))
    (hT : op.time? = some T) : ∀ o ∈ mid, o.NotBefore T := by
  intro o ho t ht
  unfold Timed at h
  rw [List.filterMap_append, List.filterMap_cons_some hT, List.pairwise_append, List.pairwise_cons] at h
  exact h.2.1.1 t (List.mem_filterMap.2 ⟨o, ho, ht⟩)

/-! ## Fields that few operations write -/

@[simp] theorem enter_cfg (m : CallStateMachine) (st : CallState) : (m.enter st).cfg = m.cfg := by
  unfold enter; dsimp only; split <;> rfl

@[simp] theorem enter_refractoryUntil (m : CallStateMachine) (st : CallState) :
    (m.enter st).refractoryUntil = m.refractoryUntil := by
  unfold enter; dsimp only; split <;> rfl

@[simp] theorem enter_menuRefractoryUntil (m : CallStateMachine) (st : CallState) :
    (m.enter st).menuRefractoryUntil = m.menuRefractoryUntil := by
  unfold enter; dsimp only; split <;> rfl

@[simp] theorem enter_menuPresses (m : CallStateMachine) (st : CallState) :
    (m.enter st).menuPresses = m.menuPresses := by
  unfold enter; dsimp only; split <;> rfl

@[simp] theorem enter_streakLabel (m : CallStateMachine) (st : CallState) :
    (m.enter st).streakLabel = none := by
  unfold enter; dsimp only; split <;> rfl

@[simp] theorem fallBackToHold_cfg (m : CallStateMachine) (now : ℚ) : (m.fallBackToHold now).cfg = m.cfg := by
  simp [fallBackToHold]

@[simp] theorem fallBackToHold_refractoryUntil (m : CallStateMachine) (now : ℚ) :
    (m.fallBackToHold now).refractoryUntil = now + m.cfg.refractoryS := by
  simp [fallBackToHold]

theorem streakFor_menuGapSeen (m : CallStateMachine) (label : Label) (confidence : ℚ) :
    (m.streakFor label confidence).1.menuGapSeen = m.menuGapSeen := by
  unfold streakFor; split
  · rfl
  · split <;> rfl

theorem streakFor_menuRefractoryUntil (m : CallStateMachine) (label : Label) (confidence : ℚ) :
    (m.streakFor label confidence).1.menuRefractoryUntil = m.menuRefractoryUntil := by
  unfold streakFor; split
  · rfl
  · split <;> rfl

theorem streakFor_menuPresses (m : CallStateMachine) (label : Label) (confidence : ℚ) :
    (m.streakFor label confidence).1.menuPresses = m.menuPresses := by
  unfold streakFor; split
  · rfl
  · split <;> rfl

/-! ## What an observation can come to -/

/-- From the machine with its streak advanced, what `observe` can leave and ask for, guards included. -/
inductive Outcome (m : CallStateMachine) (label : Label) (streak : Nat) (now : ℚ) :
    CallStateMachine → Action → Prop where
  | stay : Outcome m label streak now m .none
  | giveUp : m.state ∈ liveStates → label ∈ nonConnectLabels → m.cfg.nonConnectFrames ≤ streak →
      Outcome m label streak now (m.enter .failed) .fail
  | answered : m.state = .dialing → label ∈ speechyLabels → m.cfg.enterMenuFrames ≤ streak →
      Outcome m label streak now { m.enter .ivrMenu with menuWoken := true } .wakeTier2Menu
  | straightToHold : m.state = .dialing → label = .holdMusic → m.cfg.dialingToHoldFrames ≤ streak →
      Outcome m label streak now (m.enter .onHold) .none
  | queued : m.state = .ivrMenu → m.menuEnds label streak now →
      Outcome m label streak now (m.enter .onHold) .none
  | gap : m.state = .ivrMenu → label ∈ holdLabels → m.cfg.menuGapFrames ≤ streak →
      Outcome m label streak now { m with menuGapSeen := true } .none
  | submenu : m.state = .ivrMenu → label ∈ speechyLabels → m.menuGapSeen = true → m.menuRefractoryUntil ≤ now →
      2 ≤ streak → m.menuPresses < m.cfg.maxMenuPresses →
      Outcome m label streak now { m with menuGapSeen := false, menuWoken := true } .wakeTier2Menu
  | menuLoop : m.state = .onHold → label ∈ menuLabels → m.cfg.reenterMenuFrames ≤ streak →
      Outcome m label streak now (m.enter .ivrMenu) .wakeTier2Menu
  | suspect : m.state = .onHold → label = .liveSpeechCandidate → m.refractoryUntil ≤ now →
      m.cfg.enterEvalFrames ≤ streak →
      Outcome m label streak now (m.enter .evaluatingSpeech) .wakeTier2Probe
  | standDown : m.state = .evaluatingSpeech → label ∈ holdLabels → m.cfg.leaveEvalFrames ≤ streak →
      Outcome m label streak now (m.fallBackToHold now) .none

theorem not_speechy_of_hold {label : Label} (h : label ∈ holdLabels) : label ∉ speechyLabels := by
  revert h; cases label <;> decide

theorem onIvrMenu_outcome {m : CallStateMachine} (hst : m.state = .ivrMenu) (label : Label) (streak : Nat) (now : ℚ) :
    Outcome m label streak now (m.onIvrMenu label streak now).1 (m.onIvrMenu label streak now).2 := by
  unfold onIvrMenu
  by_cases he : m.menuEnds label streak now
  · rw [if_pos he]
    exact .queued hst he
  rw [if_neg he]
  dsimp only
  by_cases hg : label ∈ holdLabels ∧ m.cfg.menuGapFrames ≤ streak
  · rw [if_pos hg, if_neg fun hs => not_speechy_of_hold hg.1 hs.1]
    exact .gap hst hg.1 hg.2
  · rw [if_neg hg]
    split
    · rename_i hs
      exact .submenu hst hs.1 hs.2.1 hs.2.2.1 hs.2.2.2.1 hs.2.2.2.2
    · exact .stay

/-- **One observation advances the streak and then comes to one of the outcomes.** -/
theorem observe_outcome (m : CallStateMachine) (label : Label) (confidence now : ℚ) :
    Outcome (m.streakFor label confidence).1 label (m.streakWith label confidence) now
      (m.observe label confidence now).1 (m.observe label confidence now).2 := by
  have hstate := m.streakFor_state label confidence
  by_cases hf : m.Fails label confidence
  · rw [observe_of_fails hf]
    exact .giveUp (by rw [hstate]; exact hf.1) hf.2.1 (by simpa using hf.2.2)
  rw [observe_of_not_fails hf]
  cases hst : m.state with
  | dialing =>
    rw [hst] at hstate
    simp only [onDialing]
    split
    · rename_i h; exact .answered hstate (by simpa [speechyLabels, or_comm] using h.1) h.2
    · split
      · rename_i h; exact .straightToHold hstate h.1 h.2
      · exact .stay
  | ivrMenu =>
    rw [hst] at hstate
    exact onIvrMenu_outcome hstate label _ now
  | onHold =>
    rw [hst] at hstate
    simp only [onOnHold]
    split
    · rename_i h; exact .menuLoop hstate h.1 h.2
    · split
      · rename_i h; exact .suspect hstate h.1 h.2.1 h.2.2
      · exact .stay
  | evaluatingSpeech =>
    rw [hst] at hstate
    simp only [onEvaluatingSpeech]
    split
    · rename_i h; exact .standDown hstate h.1 h.2
    · exact .stay
  | _ => exact .stay

@[simp] theorem observe_cfg (m : CallStateMachine) (label : Label) (confidence now : ℚ) :
    (m.observe label confidence now).1.cfg = m.cfg := by
  have ho := m.observe_outcome label confidence now
  generalize (m.observe label confidence now).1 = t, (m.observe label confidence now).2 = act at ho ⊢
  cases ho <;> simp

@[simp] theorem step_cfg (m : CallStateMachine) (op : Operation) : (m.step op).cfg = m.cfg := by
  cases op with
  | observe label confidence now => exact m.observe_cfg label confidence now
  | probeResult isHuman now =>
    simp only [step, operate, probeResult]
    split
    · rfl
    · split <;> simp
  | noteMenuAction now => simp only [step, operate, noteMenuAction]; split <;> rfl
  | noteMenuAbstained => simp only [step, operate, noteMenuAbstained]; split <;> rfl
  | bridged => simp only [step, operate, CallStateMachine.bridged]; split <;> simp
  | completed => rfl
  | failed => rfl

theorem exec_cfg (m : CallStateMachine) (ops : List Operation) : (Run.exec step m ops).cfg = m.cfg :=
  Run.exec_inv (I := fun t => t.cfg = m.cfg) (fun t op h => (t.step_cfg op).trans h) ops m rfl

/-! ## What the streak has counted -/

/-- The label of an observation that counts (state.py:125). -/
def Operation.sure? (cfg : FsmConfig) : Operation → Option Label
  | .observe label confidence _ => if confidence < cfg.minConfidence then none else some label
  | _ => none

/-- A streak of `l` is the end of what has been heard. -/
def Counts (m : CallStateMachine) (l : Label) (heard : List Label) : Prop :=
  m.streakLabel = some l → List.replicate m.streak l <:+ heard

theorem replicate_suffix_append {l : Label} {k : Nat} {heard : List Label} (h : List.replicate k l <:+ heard) :
    List.replicate (k + 1) l <:+ heard ++ [l] := by
  rw [List.replicate_succ']
  exact List.suffix_append_self_iff.2 h

theorem streakWith_unsure {m : CallStateMachine} {confidence : ℚ} (h : confidence < m.cfg.minConfidence)
    (label : Label) : m.streakWith label confidence = 0 := by
  simp [streakWith, streakFor, h]

variable {m : CallStateMachine} {l label : Label} {heard : List Label}

/-- What a confident observation counts as has been heard, this one included. -/
theorem Counts.streakWith (h : m.Counts label heard) {confidence : ℚ} (hc : m.cfg.minConfidence ≤ confidence) :
    List.replicate (m.streakWith label confidence) label <:+ heard ++ [label] := by
  simp only [CallStateMachine.streakWith, streakFor, if_neg (not_lt.2 hc)]
  split
  · rename_i hl
    exact replicate_suffix_append (h hl)
  · simp

theorem Counts.streakFor (h : m.Counts l heard) (label : Label) (confidence now : ℚ) :
    (m.streakFor label confidence).1.Counts l (heard ++ ((Operation.observe label confidence now).sure? m.cfg).toList) := by
  unfold CallStateMachine.streakFor
  by_cases hc : confidence < m.cfg.minConfidence
  · simpa [Operation.sure?, hc] using h
  · simp only [Operation.sure?, hc, if_false, Option.toList_some]
    split
    · rename_i hl
      intro hl'
      obtain rfl : label = l := by simpa [hl] using hl'
      exact replicate_suffix_append (h hl)
    · intro hl'
      obtain rfl : label = l := by simpa using hl'
      simp

theorem Counts.of_none (h : m.streakLabel = none) (l : Label) (heard : List Label) : m.Counts l heard := by
  intro hl
  rw [h] at hl
  cases hl

/-- An observation goes on counting, or starts over. -/
theorem Counts.observe (h : m.Counts l heard) (label : Label) (confidence now : ℚ) :
    (m.observe label confidence now).1.Counts l
      (heard ++ ((Operation.observe label confidence now).sure? m.cfg).toList) := by
  have hs := h.streakFor label confidence now
  have ho := m.observe_outcome label confidence now
  generalize heard ++ ((Operation.observe label confidence now).sure? m.cfg).toList = heard' at hs ⊢
  generalize (m.streakFor label confidence).1 = m' at hs ho
  generalize (m.observe label confidence now).1 = t, (m.observe label confidence now).2 = act at ho ⊢
  cases ho with
  | stay => exact hs
  | gap => exact hs
  | submenu => exact hs
  | _ => exact .of_none (by simp [fallBackToHold]) l heard'

theorem Counts.step (h : m.Counts l heard) (op : Operation) :
    (m.step op).Counts l (heard ++ (op.sure? m.cfg).toList) := by
  cases op with
  | observe label confidence now => exact h.observe label confidence now
  | probeResult isHuman now =>
    simp only [CallStateMachine.step, operate, probeResult, Operation.sure?, Option.toList_none, List.append_nil]
    split
    · exact h
    · split <;> exact .of_none (by simp [fallBackToHold]) l heard
  | noteMenuAction now =>
    simp only [CallStateMachine.step, operate, noteMenuAction, Operation.sure?, Option.toList_none, List.append_nil]
    split <;> exact h
  | noteMenuAbstained =>
    simp only [CallStateMachine.step, operate, noteMenuAbstained, Operation.sure?, Option.toList_none, List.append_nil]
    split <;> exact h
  | bridged =>
    simp only [CallStateMachine.step, operate, CallStateMachine.bridged, Operation.sure?, Option.toList_none,
      List.append_nil]
    split
    · exact .of_none (by simp) l heard
    · exact h
  | completed =>
    simp only [Operation.sure?, Option.toList_none, List.append_nil]
    exact h
  | failed =>
    simp only [Operation.sure?, Option.toList_none, List.append_nil]
    exact h

end CallStateMachine

end DialPass
