import DialPass.State.Operations
/-!
# EVALUATING_SPEECH and the cooldown after it (state.py:149-153, state.py:301-327)

A fall-back to ON_HOLD at `T` blocks probes until `T + refractory_s`, and EVALUATING_SPEECH is left no other
way that leads back to it: so two probes are at least that far apart (`probes_spaced`).

Standing the probe down asks for a streak, and a streak counts one label. A run of hold-like labels ends the
evaluation only if one of them holds (`standsDown_iff`), whatever the docstring says of sustained
hold-like audio.
-/

namespace DialPass

namespace CallStateMachine

/-! ## The cooldown -/

/-- The operation falls back from EVALUATING_SPEECH to ON_HOLD at `T`. -/
def FallsBack (m : CallStateMachine) (op : Operation) (T : ℚ) : Prop :=
  op.time? = some T ∧ m.state = .evaluatingSpeech ∧ (m.step op).state = .onHold

/-- The operation asks for a probe at `t`. -/
def Probes (m : CallStateMachine) (op : Operation) (t : ℚ) : Prop :=
  op.time? = some t ∧ (m.operate op).2 = .wakeTier2Probe

/-- In the states a probe can still be asked for from, other than by leaving EVALUATING_SPEECH first, it is
blocked until `T + refractory_s`. -/
def Cooled (T : ℚ) (m : CallStateMachine) : Prop :=
  m.state = .dialing ∨ m.state = .ivrMenu ∨ m.state = .onHold → T + m.cfg.refractoryS ≤ m.refractoryUntil

theorem observe_cooled {m : CallStateMachine} {T now : ℚ} (h : Cooled T m) (hT : T ≤ now) (label : Label)
    (confidence : ℚ) : Cooled T (m.observe label confidence now).1 := by
  have hc := m.streakFor_cfg label confidence
  have hr := m.streakFor_refractoryUntil label confidence
  have hs := m.streakFor_state label confidence
  have ho := m.observe_outcome label confidence now
  have hm : Cooled T (m.streakFor label confidence).1 := by
    unfold Cooled
    rw [hc, hr, hs]
    exact h
  generalize (m.streakFor label confidence).1 = m' at hm ho
  generalize (m.observe label confidence now).1 = t, (m.observe label confidence now).2 = act at ho ⊢
  cases ho with
  | stay => exact hm
  | giveUp => intro hst; simp at hst
  | answered hst => intro _; simpa using hm (.inl hst)
  | straightToHold hst => intro _; simpa using hm (.inl hst)
  | queued hst => intro _; simpa using hm (.inr (.inl hst))
  | gap => exact hm
  | submenu => exact hm
  | menuLoop hst => intro _; simpa using hm (.inr (.inr hst))
  | suspect => intro hst; simp at hst
  | standDown => intro _; simpa using hT

theorem step_cooled {T : ℚ} (m : CallStateMachine) (op : Operation) (hT : op.NotBefore T) (h : Cooled T m) :
    Cooled T (m.step op) := by
  cases op with
  | observe label confidence now => exact observe_cooled h (hT now rfl) label confidence
  | probeResult isHuman now =>
    simp only [step, operate]
    by_cases hst : m.state = .evaluatingSpeech
    · cases isHuman with
      | true => rw [probeResult_human hst]; intro hh; simp at hh
      | false => rw [probeResult_not_human hst]; intro _; simpa using hT now rfl
    · rw [probeResult_stale hst]; exact h
  | noteMenuAction now =>
    simp only [step, operate, noteMenuAction]
    split <;> exact h
  | noteMenuAbstained =>
    simp only [step, operate, noteMenuAbstained]
    split <;> exact h
  | bridged =>
    simp only [step, operate, CallStateMachine.bridged]
    split
    · intro hst; simp at hst
    · exact h
  | completed => intro hst; simp [step, operate, CallStateMachine.completed] at hst
  | failed => intro hst; simp [step, operate, CallStateMachine.failed] at hst

theorem FallsBack.cooled {m : CallStateMachine} {op : Operation} {T : ℚ} (h : FallsBack m op T) :
    Cooled T (m.step op) := by
  obtain ⟨hT, hst, hh⟩ := h
  intro _
  cases op with
  | observe label confidence now =>
    cases hT
    have hs := m.streakFor_state label confidence
    have hc := m.streakFor_cfg label confidence
    have ho := m.observe_outcome label confidence T
    simp only [step, operate] at hh ⊢
    generalize (m.streakFor label confidence).1 = m' at hs hc ho
    generalize (m.observe label confidence T).1 = t, (m.observe label confidence T).2 = act at ho hh ⊢
    rw [hst] at hs
    -- the machine was in EVALUATING_SPEECH, so it stood down
    cases ho <;> simp_all
  | probeResult isHuman now =>
    cases hT
    simp only [step, operate] at hh ⊢
    cases isHuman with
    | true => rw [probeResult_human hst] at hh; simp at hh
    | false => rw [probeResult_not_human hst]; simp
  | noteMenuAction now => simp [step, operate, hst] at hh
  | _ => cases hT

theorem Probes.state {m : CallStateMachine} {op : Operation} {t : ℚ} (h : Probes m op t) :
    (m.step op).state = .evaluatingSpeech := by
  obtain ⟨-, ha⟩ := h
  cases op with
  | observe label confidence now =>
    have hmove := m.observe_move label confidence now
    simp only [operate] at ha
    rw [ha] at hmove
    exact hmove.of_probe.2
  | probeResult isHuman now =>
    simp only [operate, probeResult] at ha
    split at ha
    · cases ha
    · split at ha <;> cases ha
  | _ => cases ha

/-- A probe is asked for on hold, once the cooldown is over. -/
theorem Probes.due {m : CallStateMachine} {op : Operation} {T t : ℚ} (h : Probes m op t) (hc : Cooled T m) :
    T + m.cfg.refractoryS ≤ t := by
  obtain ⟨ht, ha⟩ := h
  cases op with
  | observe label confidence now =>
    cases ht
    obtain ⟨hst, -, hr, -⟩ := (m.observe_wakesProbe_iff label confidence t).1 ha
    exact (hc (.inr (.inr hst))).trans hr
  | probeResult isHuman now =>
    simp only [operate, probeResult] at ha
    split at ha
    · cases ha
    · split at ha <;> cases ha
  | _ => cases ha

/-- From a cooled machine on, no probe before the cooldown is over. -/
theorem Cooled.spaced {m : CallStateMachine} {mid : List Operation} {w : Operation} {T t : ℚ} (h : Cooled T m)
    (hmid : ∀ op ∈ mid, op.NotBefore T) (hw : Probes (Run.exec step m mid) w t) : T + m.cfg.refractoryS ≤ t := by
  have hend : Cooled T (Run.exec step m mid) := Run.exec_inv_of_forall step_cooled mid m hmid h
  simpa [exec_cfg] using hw.due hend

/-- **`probes_spaced`**: in a run whose times never decrease, no probe is asked for within `refractory_s` of a
fall-back from EVALUATING_SPEECH, nor within `refractory_s` of an earlier probe. -/
theorem probes_spaced (m : CallStateMachine) {ops : List Operation} (h : Timed ops) {pre mid post : List Operation}
    {f w : Operation} (hops : ops = pre ++ f :: mid ++ w :: post) {T t : ℚ}
    (hf : FallsBack (Run.exec step m pre) f T ∨ Probes (Run.exec step m pre) f T)
    (hw : Probes (Run.exec step m (pre ++ f :: mid)) w t) : T + m.cfg.refractoryS ≤ t := by
  have hcool : Cooled T ((Run.exec step m pre).step f) := by
    rcases hf with hf | hf
    · exact hf.cooled
    · intro hst
      rw [hf.state] at hst
      simp at hst
  have hT : f.time? = some T := by
    rcases hf with hf | hf
    · exact hf.1
    · exact hf.1
  have hmid : ∀ op ∈ mid, op.NotBefore T := by
    intro op ho
    rw [hops, List.append_assoc, List.cons_append] at h
    exact h.notBefore hT op (List.mem_append_left _ ho)
  rw [Run.exec_append, Run.exec_cons] at hw
  have hsp := hcool.spaced hmid hw
  rwa [step_cfg, exec_cfg] at hsp

/-- Six frames of music, two of speech, a probe that finds nobody at 4 s, and speech again from 12 s on. -/
def twoProbes : List Operation :=
  (List.range 6).map (fun n => .observe .holdMusic 1 (n / 2)) ++
    [.observe .liveSpeechCandidate 1 3, .observe .liveSpeechCandidate 1 (7 / 2), .probeResult false 4,
     .observe .liveSpeechCandidate 1 12, .observe .liveSpeechCandidate 1 (25 / 2)]

theorem twoProbes_spaced :
    Timed twoProbes ∧ (Run.exec step {} (twoProbes.take 12)).state = .evaluatingSpeech ∧ (4 : ℚ) + 8 ≤ 25 / 2 := by
  have htimed : Timed twoProbes := by decide +kernel
  have hsplit : twoProbes = twoProbes.take 8 ++ .probeResult false 4 :: [.observe .liveSpeechCandidate 1 12] ++
      .observe .liveSpeechCandidate 1 (25 / 2) :: [] := rfl
  refine ⟨htimed, by decide +kernel, ?_⟩
  exact probes_spaced {} htimed hsplit (.inl ⟨rfl, by decide +kernel, by decide +kernel⟩) ⟨rfl, by decide +kernel⟩

/-! ## Standing the probe down -/

/-- What Tier 1 hears at one tick. -/
structure Heard where
  label : Label
  confidence : ℚ
  now : ℚ

def Heard.op (o : Heard) : Operation := .observe o.label o.confidence o.now

/-- A streak of `k` observations of `last` reaches `n` somewhere on the labels that follow. -/
def Reaches (n : Nat) : Option Label → Nat → List Label → Prop
  | _, _, [] => False
  | last, k, l :: ls =>
    let k := if last = some l then k + 1 else 1
    n ≤ k ∨ Reaches n (some l) k ls

/-- The first label holds for `leave_eval_frames`, what the streak has counted of it already included. -/
def Holds (m : CallStateMachine) : List Label → Prop
  | [] => False
  | l :: ls =>
    m.cfg.leaveEvalFrames ≤ (if m.streakLabel = some l then m.streak else 0) + ((l :: ls).takeWhile (· = l)).length

instance (m : CallStateMachine) : DecidablePred (Holds m)
  | [] => .isFalse id
  | _ :: _ => inferInstanceAs (Decidable (_ ≤ _))

/-- Too short a run for a second label to hold long enough leaves it to the one it goes on with. -/
theorem reaches_same_iff {n : Nat} {l : Label} :
    ∀ {ls : List Label} {k : Nat}, ls.length < n →
      (Reaches n (some l) k ls ↔ ls.takeWhile (· = l) ≠ [] ∧ n ≤ k + (ls.takeWhile (· = l)).length)
  | [], k, _ => by simp [Reaches]
  | a :: ls, k, hlen => by
    rw [List.length_cons] at hlen
    by_cases ha : a = l
    · subst ha
      simp only [Reaches, if_true, List.takeWhile_cons, decide_true, List.length_cons]
      rw [reaches_same_iff (by omega)]
      simp only [ne_eq, reduceCtorEq, not_false_eq_true, true_and]
      by_cases hw : ls.takeWhile (· = a) = []
      · simp [hw]
      · simp only [hw, not_false_eq_true, true_and]
        omega
    · have hw : (a :: ls).takeWhile (· = l) = [] := by simp [ha]
      have hshort : (ls.takeWhile (· = a)).length ≤ ls.length := List.takeWhile_prefix _ |>.length_le
      simp only [Reaches, Option.some.injEq, if_neg (Ne.symm ha)]
      rw [reaches_same_iff (by omega), hw]
      simp only [ne_eq, not_true_eq_false, false_and, iff_false]
      omega

theorem reaches_iff_holds {m : CallStateMachine} {ls : List Label} (hlen : ls.length = m.cfg.leaveEvalFrames) :
    Reaches m.cfg.leaveEvalFrames m.streakLabel m.streak ls ↔ m.Holds ls := by
  cases ls with
  | nil => exact Iff.rfl
  | cons l ls =>
    rw [List.length_cons] at hlen
    simp only [Reaches, Holds, List.takeWhile_cons, decide_true, if_true, List.length_cons]
    rw [reaches_same_iff (by omega)]
    by_cases hw : ls.takeWhile (· = l) = [] <;> by_cases hl : m.streakLabel = some l <;>
      simp only [hw, hl, if_true, if_false, ne_eq, not_true_eq_false, not_false_eq_true, false_and, true_and,
        or_false, List.length_nil] <;> omega

/-- A confident hold-like frame in EVALUATING_SPEECH stands the probe down, or its label is counted. -/
theorem observe_hold {m : CallStateMachine} (hst : m.state = .evaluatingSpeech) {o : Heard}
    (hconf : m.cfg.minConfidence ≤ o.confidence) (hl : o.label ∈ holdLabels) :
    let k := if m.streakLabel = some o.label then m.streak + 1 else 1
    if m.cfg.leaveEvalFrames ≤ k then (m.step o.op).state = .onHold
    else (m.step o.op).state = .evaluatingSpeech ∧ (m.step o.op).streakLabel = some o.label ∧
      (m.step o.op).streak = k := by
  intro k
  have hk : m.streakWith o.label o.confidence = k := by
    simp only [streakWith, streakFor, if_neg (not_lt.2 hconf), k]
    split <;> rfl
  have hf : ¬ m.Fails o.label o.confidence := by
    rintro ⟨-, hn, -⟩
    revert hn hl
    cases o.label <;> decide
  simp only [step, operate, Heard.op]
  rw [observe_of_not_fails hf, hst]
  simp only [onEvaluatingSpeech, hl, true_and, streakFor_cfg, hk]
  split
  · simp
  · refine ⟨by simpa using hst, ?_, ?_⟩
    · unfold streakFor
      rw [if_neg (not_lt.2 hconf)]
      split
      · assumption
      · rfl
    · simp only [streakFor, if_neg (not_lt.2 hconf), k]
      split <;> rfl

/-- Nothing hold-like leads into EVALUATING_SPEECH. -/
theorem step_hold_left {m : CallStateMachine} (hst : m.state ≠ .evaluatingSpeech) {o : Heard}
    (hl : o.label ∈ holdLabels) : (m.step o.op).state ≠ .evaluatingSpeech := by
  intro he
  rcases (m.observe_move o.label o.confidence o.now).to_eval he with ha | ⟨hm, -⟩
  · have hw := ((m.observe_wakesProbe_iff o.label o.confidence o.now).1 ha).2.1
    rw [hw] at hl
    exact absurd hl (by decide)
  · exact hst hm

theorem left_iff_reaches :
    ∀ {heard : List Heard} {m : CallStateMachine}, m.state = .evaluatingSpeech →
      (∀ o ∈ heard, m.cfg.minConfidence ≤ o.confidence ∧ o.label ∈ holdLabels) →
      ((Run.exec step m (heard.map Heard.op)).state ≠ .evaluatingSpeech ↔
        Reaches m.cfg.leaveEvalFrames m.streakLabel m.streak (heard.map Heard.label))
  | [], m, hst, _ => by simp [Reaches, hst]
  | o :: heard, m, hst, hh => by
    obtain ⟨⟨hconf, hl⟩, hrest⟩ := List.forall_mem_cons.1 hh
    have hstep := observe_hold hst hconf hl
    simp only [List.map_cons, Run.exec_cons, Reaches]
    dsimp only at hstep
    generalize (if m.streakLabel = some o.label then m.streak + 1 else 1) = k at hstep ⊢
    split at hstep
    · rename_i hn
      refine iff_of_true ?_ (.inl hn)
      have hleft : (m.step o.op).state ≠ .evaluatingSpeech := by simp [hstep]
      refine Run.exec_inv_of_forall (I := fun t : CallStateMachine => t.state ≠ .evaluatingSpeech)
        (C := fun op => ∃ o ∈ heard, op = Heard.op o) ?_ _ _ ?_ hleft
      · rintro t op ⟨o', ho', rfl⟩ ht
        exact step_hold_left ht (hrest o' ho').2
      · intro op hop
        obtain ⟨o', ho', rfl⟩ := List.mem_map.1 hop
        exact ⟨o', ho', rfl⟩
    · rename_i hn
      obtain ⟨hst', hlab, hk⟩ := hstep
      rw [left_iff_reaches hst' (by simpa using hrest), hlab, hk, step_cfg]
      simp [hn]

/-- **`standsDown_iff`**: in EVALUATING_SPEECH, `leave_eval_frames` confident hold-like observations in a row
stand the probe down exactly when the first of their labels holds for `leave_eval_frames`, what the streak
had counted of it before included. -/
theorem standsDown_iff {m : CallStateMachine} (hst : m.state = .evaluatingSpeech) {heard : List Heard}
    (hlen : heard.length = m.cfg.leaveEvalFrames)
    (hh : ∀ o ∈ heard, m.cfg.minConfidence ≤ o.confidence ∧ o.label ∈ holdLabels) :
    (Run.exec step m (heard.map Heard.op)).state ≠ .evaluatingSpeech ↔ m.Holds (heard.map Heard.label) := by
  rw [left_iff_reaches hst hh]
  exact reaches_iff_holds (by simpa using hlen)

/-- In EVALUATING_SPEECH from 3.5 s on, the line falls back to its music, broken by silence. -/
def brokenMusic : List Heard :=
  [⟨.holdMusic, 1, 4⟩, ⟨.silence, 1, 9 / 2⟩, ⟨.holdMusic, 1, 5⟩, ⟨.silence, 1, 11 / 2⟩, ⟨.holdMusic, 1, 6⟩]

/-- Five hold-like frames in a row leave the probe standing. -/
theorem brokenMusic_not_left :
    (∀ o ∈ brokenMusic, (55 / 100 : ℚ) ≤ o.confidence ∧ o.label ∈ holdLabels) ∧ brokenMusic.length = 5 ∧
      (Run.exec step {} (twoProbes.take 8)).state = .evaluatingSpeech ∧
      (Run.exec step {} (twoProbes.take 8 ++ brokenMusic.map Heard.op)).state = .evaluatingSpeech := by
  decide +kernel

/-- Five frames of music end the evaluation. -/
theorem music_left :
    (Run.exec step (Run.exec step {} (twoProbes.take 8))
      ((List.replicate 5 ⟨.holdMusic, 1, 4⟩).map Heard.op)).state ≠ .evaluatingSpeech := by
  have hst : (Run.exec step {} (twoProbes.take 8)).state = .evaluatingSpeech := by decide +kernel
  have hlen : (List.replicate 5 (Heard.mk .holdMusic 1 4)).length =
      (Run.exec step {} (twoProbes.take 8)).cfg.leaveEvalFrames := by decide +kernel
  exact (standsDown_iff hst hlen (by decide +kernel)).2 (by decide +kernel)

end CallStateMachine

end DialPass
