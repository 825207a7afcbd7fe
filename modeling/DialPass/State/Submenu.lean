import DialPass.State.Operations
/-!
# Waking Tier 2 again within a menu (state.py:195-205, state.py:285-299)

A prompt that goes on is read once: another read within the visit takes a gap heard since the last read and
since the last press, and speech after it; and it comes after the cooldown of every press, and before the cap.
The machine keeps a flag, a time and a count; `submenu_reread` says what they stand for.

With `menu_gap_frames` of 0 any hold-like frame is a gap, also one that does not count and leaves the streak
of speech standing (`blip_rereads`).
-/

namespace DialPass

namespace CallStateMachine

/-- The operation asks for a menu read at `t`. -/
def WakesMenu (m : CallStateMachine) (op : Operation) (t : ℚ) : Prop :=
  op.time? = some t ∧ (m.operate op).2 = .wakeTier2Menu

instance (m : CallStateMachine) (op : Operation) (t : ℚ) : Decidable (WakesMenu m op t) :=
  inferInstanceAs (Decidable (_ ∧ _))

/-- The labels that count, in order. -/
def heardIn (cfg : FsmConfig) (ops : List Operation) : List Label := ops.filterMap (·.sure? cfg)

/-- What is heard ends in a hold-like label that has held for `menu_gap_frames`. -/
def EndsInGap (cfg : FsmConfig) (ops : List Operation) : Prop :=
  ∃ l ∈ holdLabels, List.replicate cfg.menuGapFrames l <:+ heardIn cfg ops

/-- Between two reads: a gap after the last press, and then two frames of one kind of speech in a row, the
last of which is the second read's. -/
def Pauses (cfg : FsmConfig) (mid : List Operation) (w : Operation) : Prop :=
  ∃ before label confidence now after,
    mid = before ++ .observe label confidence now :: after ∧ label ∈ holdLabels ∧
    EndsInGap cfg (before ++ [.observe label confidence now]) ∧ (∀ T, .noteMenuAction T ∉ after) ∧
    ∃ l ∈ speechyLabels, [l, l] <:+ heardIn cfg (after ++ [w])

def Operation.isPress : Operation → Bool
  | .noteMenuAction _ => true
  | _ => false

/-- The presses noted so far: `note_menu_action` counts in IVR_MENU only. -/
def noted (m : CallStateMachine) : List Operation → Nat
  | [] => 0
  | op :: ops => (if op.isPress = true ∧ m.state = .ivrMenu then 1 else 0) + noted (m.step op) ops

@[simp] theorem heardIn_append (cfg : FsmConfig) (ops : List Operation) (op : Operation) :
    heardIn cfg (ops ++ [op]) = heardIn cfg ops ++ (op.sure? cfg).toList := by
  unfold heardIn
  rw [List.filterMap_append]
  cases h : op.sure? cfg <;> simp [h]

/-! ## The flag -/

theorem streakFor_label {m : CallStateMachine} {label : Label} {confidence : ℚ}
    (h : 1 ≤ m.streakWith label confidence) : (m.streakFor label confidence).1.streakLabel = some label := by
  unfold streakWith streakFor at h
  unfold streakFor
  split
  · rename_i hc
    simp [hc] at h
  · split
    · assumption
    · rfl

/-- After an observation that counts, no other label is being counted. -/
theorem observe_label {m : CallStateMachine} {label : Label} {confidence : ℚ}
    (h : 1 ≤ m.streakWith label confidence) (now : ℚ) :
    (m.observe label confidence now).1.streakLabel = none ∨
      (m.observe label confidence now).1.streakLabel = some label := by
  have hl := streakFor_label h
  have ho := m.observe_outcome label confidence now
  generalize (m.streakFor label confidence).1 = m' at hl ho
  generalize (m.observe label confidence now).1 = t, (m.observe label confidence now).2 = act at ho ⊢
  cases ho with
  | stay => exact .inr hl
  | gap => exact .inr hl
  | submenu => exact .inr hl
  | _ => exact .inl (by simp [fallBackToHold])

theorem Counts.of_label {m : CallStateMachine} {l l' : Label} (h : m.streakLabel = none ∨ m.streakLabel = some l')
    (hne : l ≠ l') (heard : List Label) : m.Counts l heard := by
  intro hl
  rcases h with h | h <;> rw [h] at hl <;> cases hl
  exact absurd rfl hne

/-- A read leaves no gap seen, and no hold-like label counted. -/
theorem WakesMenu.clears {m : CallStateMachine} {op : Operation} {t : ℚ} (h : WakesMenu m op t) :
    (m.step op).menuGapSeen = false ∧ ∀ l ∈ holdLabels, (m.step op).Counts l [] := by
  obtain ⟨-, ha⟩ := h
  cases op with
  | observe label confidence now =>
    have hl : 1 ≤ m.streakWith label confidence → (m.streakFor label confidence).1.streakLabel = some label :=
      streakFor_label
    have ho := m.observe_outcome label confidence now
    simp only [step, operate] at ha ⊢
    generalize m.streakWith label confidence = k at hl ho
    generalize (m.streakFor label confidence).1 = m' at hl ho
    generalize (m.observe label confidence now).1 = t, (m.observe label confidence now).2 = act at ho ha ⊢
    cases ho with
    | answered => exact ⟨by simp [enter], fun l _ => .of_none (by simp) l []⟩
    | menuLoop => exact ⟨by simp [enter], fun l _ => .of_none (by simp) l []⟩
    | submenu _ hs _ _ hk =>
      refine ⟨rfl, fun l hhold => .of_label (.inr (hl (by omega))) ?_ []⟩
      rintro rfl
      exact not_speechy_of_hold hhold hs
    | _ => cases ha
  | probeResult isHuman now =>
    simp only [operate, probeResult] at ha
    split at ha
    · cases ha
    · split at ha <;> cases ha
  | _ => cases ha

/-- A read in IVR_MENU is a submenu's: everything it takes. -/
theorem WakesMenu.submenu {m : CallStateMachine} {op : Operation} {t : ℚ} (h : WakesMenu m op t)
    (hst : m.state = .ivrMenu) :
    ∃ label confidence, op = .observe label confidence t ∧ label ∈ speechyLabels ∧ m.menuGapSeen = true ∧
      m.menuRefractoryUntil ≤ t ∧ 2 ≤ m.streakWith label confidence ∧ m.menuPresses < m.cfg.maxMenuPresses := by
  obtain ⟨ht, ha⟩ := h
  cases op with
  | observe label confidence now =>
    cases ht
    refine ⟨label, confidence, rfl, ?_⟩
    have hs := m.streakFor_state label confidence
    have hc := m.streakFor_cfg label confidence
    have hg := m.streakFor_menuGapSeen label confidence
    have hr := m.streakFor_menuRefractoryUntil label confidence
    have hp := m.streakFor_menuPresses label confidence
    have ho := m.observe_outcome label confidence t
    simp only [operate] at ha
    generalize m.streakWith label confidence = k at ho ⊢
    generalize (m.streakFor label confidence).1 = m' at hs hc hg hr hp ho
    generalize (m.observe label confidence t).1 = u, (m.observe label confidence t).2 = act at ho ha
    rw [hst] at hs
    cases ho with
    | submenu _ hs' hg' hr' hk hp' => exact ⟨hs', hg ▸ hg', hr ▸ hr', hk, by rw [← hp, ← hc]; exact hp'⟩
    | answered hd => rw [hs] at hd; cases hd
    | menuLoop hd => rw [hs] at hd; cases hd
    | _ => cases ha
  | probeResult isHuman now =>
    simp only [operate, probeResult] at ha
    split at ha
    · cases ha
    · split at ha <;> cases ha
  | _ => cases ha

/-- Within a visit, the flag is up because it was, and nothing was pressed, or because a gap has just been
heard. -/
theorem step_gapSeen {m : CallStateMachine} {op : Operation} (hst : m.state = .ivrMenu)
    (hst' : (m.step op).state = .ivrMenu) (h : (m.step op).menuGapSeen = true) :
    (m.menuGapSeen = true ∧ ∀ T, op ≠ .noteMenuAction T) ∨
    ∃ label confidence now, op = .observe label confidence now ∧ label ∈ holdLabels ∧
      m.cfg.menuGapFrames ≤ m.streakWith label confidence := by
  cases op with
  | observe label confidence now =>
    have hc := m.streakFor_cfg label confidence
    have hg := m.streakFor_menuGapSeen label confidence
    have ho := m.observe_outcome label confidence now
    simp only [step, operate] at hst' h
    generalize hk : m.streakWith label confidence = k at ho
    generalize (m.streakFor label confidence).1 = m' at hc hg ho
    generalize (m.observe label confidence now).1 = t, (m.observe label confidence now).2 = act at ho hst' h
    cases ho with
    | stay => exact .inl ⟨hg ▸ h, by simp⟩
    | gap _ hl hn => exact .inr ⟨label, confidence, now, rfl, hl, by rw [hk, ← hc]; exact hn⟩
    | submenu => cases h
    | answered => simp [enter] at h
    | menuLoop => simp [enter] at h
    | _ => simp at hst'
  | noteMenuAction now => simp [step, operate, noteMenuAction, hst] at h
  | probeResult isHuman now =>
    rw [step, operate, probeResult_stale (by rw [hst]; simp)] at h
    exact .inl ⟨h, by simp⟩
  | noteMenuAbstained =>
    simp only [step, operate, noteMenuAbstained, hst, if_true] at h
    exact .inl ⟨h, by simp⟩
  | bridged =>
    rw [step, operate, CallStateMachine.bridged, if_neg (by rw [hst]; simp)] at h
    exact .inl ⟨h, by simp⟩
  | completed => exact .inl ⟨h, by simp⟩
  | failed => exact .inl ⟨h, by simp⟩

/-! ## A gap, and speech after it -/

/-- Since the last read, `ops` within the visit: hold-like streaks are what was heard since, and a gap seen was
heard after the last press, with every streak of speech since then. -/
def Since (cfg : FsmConfig) (ops : List Operation) (m : CallStateMachine) : Prop :=
  (∀ l ∈ holdLabels, m.Counts l (heardIn cfg ops)) ∧
  (m.menuGapSeen = true → ∃ before label confidence now after,
    ops = before ++ .observe label confidence now :: after ∧ label ∈ holdLabels ∧
    EndsInGap cfg (before ++ [.observe label confidence now]) ∧ (∀ T, .noteMenuAction T ∉ after) ∧
    ∀ l ∈ speechyLabels, m.Counts l (heardIn cfg after))

theorem step_since (m : CallStateMachine) (ops : List Operation) (op : Operation) (hgap : 1 ≤ m.cfg.menuGapFrames)
    (hst : m.state = .ivrMenu) (hst' : (m.step op).state = .ivrMenu) (h : Since m.cfg ops m) :
    Since m.cfg (ops ++ [op]) (m.step op) := by
  obtain ⟨hhold, hseen⟩ := h
  constructor
  · intro l hl
    rw [heardIn_append]
    exact (hhold l hl).step op
  · intro hg
    rcases step_gapSeen hst hst' hg with ⟨hg', hop⟩ | ⟨label, confidence, now, rfl, hl, hk⟩
    · obtain ⟨before, label, confidence, now, after, rfl, hl, hend, hnote, hspeech⟩ := hseen hg'
      refine ⟨before, label, confidence, now, after ++ [op], by simp, hl, hend, ?_, ?_⟩
      · intro T hT
        rcases List.mem_append.1 hT with hT | hT
        · exact hnote T hT
        · exact hop T (List.mem_singleton.1 hT).symm
      · intro l' hl'
        rw [heardIn_append]
        exact (hspeech l' hl').step op
    · -- the gap has just been heard
      have hconf : m.cfg.minConfidence ≤ confidence := by
        by_contra hlow
        rw [streakWith_unsure (not_le.1 hlow)] at hk
        omega
      refine ⟨ops, label, confidence, now, [], rfl, hl, ⟨label, hl, ?_⟩, by simp, ?_⟩
      · have hrun := (hhold label hl).streakWith hconf
        have hle : List.replicate m.cfg.menuGapFrames label <:+ List.replicate (m.streakWith label confidence) label :=
          List.suffix_replicate_iff.2 ⟨by simpa using hk, by simp⟩
        rw [heardIn_append]
        simpa [Operation.sure?, not_lt.2 hconf] using hle.trans hrun
      · intro l' hl'
        refine .of_label (observe_label (hgap.trans hk) now) ?_ _
        rintro rfl
        exact not_speechy_of_hold hl hl'

/-- From a read on, as long as the visit lasts. -/
theorem exec_since {m : CallStateMachine} (hgap : 1 ≤ m.cfg.menuGapFrames) (h : Since m.cfg [] m)
    {mid : List Operation} (hvisit : ∀ p, p <+: mid → (Run.exec step m p).state = .ivrMenu) :
    Since m.cfg mid (Run.exec step m mid) := by
  induction mid using List.reverseRecOn with
  | nil => exact h
  | append_singleton mid op ih =>
    have hmid := ih fun p hp => hvisit p (hp.trans (List.prefix_append _ _))
    have hst := hvisit mid (List.prefix_append _ _)
    have hst' := hvisit (mid ++ [op]) List.prefix_rfl
    rw [Run.exec_append] at hst' ⊢
    have hs := step_since (Run.exec step m mid) mid op
    rw [exec_cfg] at hs
    exact hs hgap hst hst' hmid

/-- Two reads of one visit: a gap after the last press between them, and speech after the gap. -/
theorem WakesMenu.pauses {m : CallStateMachine} (hgap : 1 ≤ m.cfg.menuGapFrames) {w w' : Operation} {t t' : ℚ}
    {mid : List Operation} (hw : WakesMenu m w t)
    (hvisit : ∀ p, p <+: mid → (Run.exec step m (w :: p)).state = .ivrMenu)
    (hw' : WakesMenu (Run.exec step m (w :: mid)) w' t') : Pauses m.cfg mid w' := by
  obtain ⟨hclear, hcount⟩ := hw.clears
  rw [Run.exec_cons] at hw'
  have h0 : Since (m.step w).cfg [] (m.step w) := ⟨hcount, fun h => by rw [hclear] at h; cases h⟩
  have hend : Since (m.step w).cfg mid (Run.exec step (m.step w) mid) :=
    exec_since (by simpa using hgap) h0 fun p hp => hvisit p hp
  rw [step_cfg] at hend
  obtain ⟨label, confidence, rfl, hl, hg, -, hk, -⟩ := hw'.submenu (hvisit mid List.prefix_rfl)
  obtain ⟨before, hold, c, now, after, rfl, hhold, hgapped, hnote, hspeech⟩ := hend.2 hg
  refine ⟨before, hold, c, now, after, rfl, hhold, hgapped, hnote, label, hl, ?_⟩
  have hcfg : (Run.exec step (m.step w) (before ++ .observe hold c now :: after)).cfg = m.cfg := by simp [exec_cfg]
  have hconf : m.cfg.minConfidence ≤ confidence := by
    by_contra hlow
    rw [streakWith_unsure (by rw [hcfg]; exact not_le.1 hlow)] at hk
    omega
  have hsure : (Run.exec step (m.step w) (before ++ .observe hold c now :: after)).cfg.minConfidence ≤ confidence := by
    rw [hcfg]
    exact hconf
  have hrun := (hspeech label hl).streakWith hsure
  have hle : List.replicate 2 label <:+ List.replicate
      ((Run.exec step (m.step w) (before ++ .observe hold c now :: after)).streakWith label confidence) label :=
    List.suffix_replicate_iff.2 ⟨by simpa using hk, by simp⟩
  rw [heardIn_append]
  simpa [Operation.sure?, not_lt.2 hconf] using hle.trans hrun

/-! ## Presses -/

theorem observe_menuRefractoryUntil (m : CallStateMachine) (label : Label) (confidence now : ℚ) :
    (m.observe label confidence now).1.menuRefractoryUntil = m.menuRefractoryUntil ∧
      (m.observe label confidence now).1.menuPresses = m.menuPresses := by
  have hr := m.streakFor_menuRefractoryUntil label confidence
  have hp := m.streakFor_menuPresses label confidence
  have ho := m.observe_outcome label confidence now
  generalize (m.streakFor label confidence).1 = m' at hr hp ho
  generalize (m.observe label confidence now).1 = t, (m.observe label confidence now).2 = act at ho ⊢
  cases ho <;> simp [fallBackToHold, hr, hp]

/-- Only a press that is noted moves the cooldown and the count. -/
theorem step_presses (m : CallStateMachine) (op : Operation) :
    (∃ T, op = .noteMenuAction T ∧ m.state = .ivrMenu ∧
      (m.step op).menuRefractoryUntil = T + m.cfg.menuRefractoryS ∧ (m.step op).menuPresses = m.menuPresses + 1) ∨
    ((∀ T, op = .noteMenuAction T → m.state ≠ .ivrMenu) ∧
      (m.step op).menuRefractoryUntil = m.menuRefractoryUntil ∧ (m.step op).menuPresses = m.menuPresses) := by
  cases op with
  | observe label confidence now => exact .inr ⟨by simp, m.observe_menuRefractoryUntil label confidence now⟩
  | probeResult isHuman now =>
    refine .inr ⟨by simp, ?_⟩
    simp only [step, operate, probeResult]
    split
    · exact ⟨rfl, rfl⟩
    · split <;> simp [fallBackToHold]
  | noteMenuAction now =>
    by_cases hst : m.state = .ivrMenu
    · exact .inl ⟨now, rfl, hst, by simp [step, operate, noteMenuAction, hst], by
        simp [step, operate, noteMenuAction, hst]⟩
    · exact .inr ⟨fun _ _ => hst, by simp [step, operate, noteMenuAction, hst]⟩
  | noteMenuAbstained =>
    refine .inr ⟨by simp, ?_⟩
    simp only [step, operate, noteMenuAbstained]
    split <;> exact ⟨rfl, rfl⟩
  | bridged =>
    refine .inr ⟨by simp, ?_⟩
    simp only [step, operate, CallStateMachine.bridged]
    split <;> simp
  | completed => exact .inr ⟨by simp, rfl, rfl⟩
  | failed => exact .inr ⟨by simp, rfl, rfl⟩

theorem exec_menuPresses (m : CallStateMachine) (ops : List Operation) :
    (Run.exec step m ops).menuPresses = m.menuPresses + noted m ops := by
  induction ops generalizing m with
  | nil => rfl
  | cons op ops ih =>
    rw [Run.exec_cons, ih]
    rcases m.step_presses op with ⟨T, rfl, hst, -, hp⟩ | ⟨hn, -, hp⟩ <;> rw [hp]
    · simp only [noted, Operation.isPress, hst, and_self, if_true]
      omega
    · have hno : ¬ (op.isPress = true ∧ m.state = .ivrMenu) := by
        rintro ⟨hop, hst⟩
        cases op with
        | noteMenuAction T => exact hn T rfl hst
        | _ => cases hop
      simp only [noted, hno, if_false]
      omega

/-- After a press at `T`, the cooldown runs until `T + menu_refractory_s`, or longer. -/
theorem step_cooling {T : ℚ} (m : CallStateMachine) (op : Operation) (hT : op.NotBefore T)
    (h : T + m.cfg.menuRefractoryS ≤ m.menuRefractoryUntil) :
    T + (m.step op).cfg.menuRefractoryS ≤ (m.step op).menuRefractoryUntil := by
  rw [step_cfg]
  rcases m.step_presses op with ⟨T', rfl, -, hr, -⟩ | ⟨-, hr, -⟩ <;> rw [hr]
  · have hle : T ≤ T' := hT T' rfl
    linarith
  · exact h

/-- **`submenu_reread`**: in a run from DIALING whose times never decrease, of two menu reads in one visit of
IVR_MENU the second comes, if a gap is one frame at least, after a gap heard since the first and since the last
press, and two frames of one kind of speech in a row; no earlier than `menu_refractory_s` after any press; and
when fewer than `max_menu_presses` presses have been noted. -/
theorem submenu_reread {cfg : FsmConfig} {pre mid : List Operation} {w w' : Operation} {t t' : ℚ}
    (h : Timed (pre ++ w :: mid ++ [w'])) (hw : WakesMenu (Run.exec step { cfg } pre) w t)
    (hvisit : ∀ p, p <+: mid → (Run.exec step { cfg } (pre ++ w :: p)).state = .ivrMenu)
    (hw' : WakesMenu (Run.exec step { cfg } (pre ++ w :: mid)) w' t') :
    (1 ≤ cfg.menuGapFrames → Pauses cfg mid w') ∧
    (∀ before T after, pre ++ w :: mid = before ++ .noteMenuAction T :: after →
      (Run.exec step { cfg } before).state = .ivrMenu → T + cfg.menuRefractoryS ≤ t') ∧
    noted { cfg } (pre ++ w :: mid) < cfg.maxMenuPresses := by
  obtain ⟨-, -, -, -, -, hcool, -, hcap⟩ := hw'.submenu (hvisit mid List.prefix_rfl)
  rw [exec_cfg] at hcap
  refine ⟨fun hgap => ?_, ?_, ?_⟩
  · have hpause : Pauses (Run.exec step { cfg } pre).cfg mid w' :=
      WakesMenu.pauses (by rw [exec_cfg]; exact hgap) hw
        (fun p hp => by rw [← Run.exec_append]; exact hvisit p hp) (by rw [← Run.exec_append]; exact hw')
    rwa [exec_cfg] at hpause
  · intro before T after he hst
    rw [he, List.append_assoc, List.cons_append] at h
    have hbefore : ∀ op ∈ after, op.NotBefore T := fun op ho => h.notBefore rfl op (List.mem_append_left _ ho)
    refine le_trans ?_ hcool
    rw [he, Run.exec_append, Run.exec_cons]
    have hrun := Run.exec_inv_of_forall (I := fun m => T + m.cfg.menuRefractoryS ≤ m.menuRefractoryUntil)
      step_cooling after (step (Run.exec step { cfg } before) (.noteMenuAction T)) hbefore ?_
    · simpa [exec_cfg] using hrun
    · simp [step, operate, noteMenuAction, hst]
  · rw [exec_menuPresses] at hcap
    simpa using hcap

/-- A menu answers the call, and Tier 2 is to read it at 2 s. -/
def answeredByMenu : List Operation := (List.range 5).map fun n => .observe .menuSpeaking 1 (n / 2)

/-- A key is pressed at 2.5 s, the prompt ends, and the submenu is there when the cooldown is over. -/
theorem submenu_rereads :
    Pauses {} (.noteMenuAction (5 / 2) :: (List.replicate 4 (.observe .silence 1 5)) ++ [.observe .menuSpeaking 1 13])
        (.observe .menuSpeaking 1 (27 / 2)) ∧
      noted {} (answeredByMenu ++ .noteMenuAction (5 / 2) :: (List.replicate 4 (.observe .silence 1 5)) ++
        [.observe .menuSpeaking 1 13]) = 1 := by
  have hvisit : ∀ p, p <+: Operation.noteMenuAction (5 / 2) :: (List.replicate 4 (.observe .silence 1 5)) ++
      [.observe .menuSpeaking 1 13] →
      (Run.exec step {} (answeredByMenu.take 4 ++ .observe .menuSpeaking 1 2 :: p)).state = .ivrMenu := by
    intro p hp
    have hall : ∀ p ∈ List.inits (Operation.noteMenuAction (5 / 2) :: (List.replicate 4 (.observe .silence 1 5)) ++
        [.observe .menuSpeaking 1 13]),
        (Run.exec step {} (answeredByMenu.take 4 ++ .observe .menuSpeaking 1 2 :: p)).state = .ivrMenu := by
      decide +kernel
    exact hall p ((List.mem_inits _ _).2 hp)
  have hfirst : WakesMenu (Run.exec step {} (answeredByMenu.take 4)) (.observe .menuSpeaking 1 2) 2 := by decide +kernel
  have hsecond : WakesMenu (Run.exec step {} (answeredByMenu.take 4 ++ .observe .menuSpeaking 1 2 ::
      (.noteMenuAction (5 / 2) :: (List.replicate 4 (.observe .silence 1 5)) ++ [.observe .menuSpeaking 1 13])))
      (.observe .menuSpeaking 1 (27 / 2)) (27 / 2) := by decide +kernel
  exact ⟨(submenu_reread (by decide +kernel) hfirst hvisit hsecond).1 (by decide), by decide +kernel⟩

/-- Without a gap to wait for, speech that never pauses is read again after a frame that does not count. -/
theorem blip_rereads :
    Timed (answeredByMenu ++ [.observe .menuSpeaking 1 (5 / 2), .observe .silence 0 3, .observe .menuSpeaking 1 (7 / 2)]) ∧
    WakesMenu (Run.exec step { cfg := { menuGapFrames := 0 } } (answeredByMenu.take 4)) (.observe .menuSpeaking 1 2) 2 ∧
    (∀ n ≤ 2, (Run.exec step { cfg := { menuGapFrames := 0 } } (answeredByMenu ++
      [.observe .menuSpeaking 1 (5 / 2), .observe .silence 0 3].take n)).state = .ivrMenu) ∧
    WakesMenu (Run.exec step { cfg := { menuGapFrames := 0 } } (answeredByMenu ++
      [.observe .menuSpeaking 1 (5 / 2), .observe .silence 0 3])) (.observe .menuSpeaking 1 (7 / 2)) (7 / 2) ∧
    ¬ Pauses { menuGapFrames := 0 } [.observe .menuSpeaking 1 (5 / 2), .observe .silence 0 3]
      (.observe .menuSpeaking 1 (7 / 2)) := by
  refine ⟨by decide +kernel, by decide +kernel, by decide +kernel, by decide +kernel, ?_⟩
  rintro ⟨before, label, confidence, now, after, he, hl, -, -, l, -, hsp⟩
  -- the only hold-like frame is the last before the read, and it leaves one frame of speech after it
  match before, he with
  | [], he =>
    simp only [List.nil_append, List.cons.injEq, Operation.observe.injEq] at he
    obtain ⟨⟨rfl, -, -⟩, -⟩ := he
    exact absurd hl (by decide)
  | [_], he =>
    simp only [List.cons_append, List.nil_append, List.cons.injEq] at he
    obtain ⟨-, -, rfl⟩ := he
    have hheard : heardIn { menuGapFrames := 0 } [.observe .menuSpeaking 1 (7 / 2)] = [.menuSpeaking] := by
      decide +kernel
    rw [List.nil_append, hheard] at hsp
    simpa using hsp.length_le
  | _ :: _ :: before, he =>
    have hlen := congrArg List.length he
    simp at hlen

end CallStateMachine

end DialPass
