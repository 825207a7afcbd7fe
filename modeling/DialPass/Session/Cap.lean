import DialPass.Session.Life
/-!
# How many keys a call presses (state.py:85, state.py:195-205, state.py:289)

`max_menu_presses` is the rail that stops a call from navigating for ever. Only the re-wake of
`_on_ivr_menu` looks at it; entering IVR_MENU, from DIALING or back from ON_HOLD, wakes Tier 2 whatever was
pressed, and `note_menu_action` counts no key that is pressed outside IVR_MENU. `withinCap_of_along` says which
lives of a session keep to the cap; `withinCap_iff`, over all completion timings at once, is exact.
-/

namespace DialPass

/-- A call of `dtmf_sender`. -/
def Effect.presses : Effect → Bool
  | .dtmfSender _ => true
  | _ => false

/-- What a poll hands over is the running job's own answer. -/
theorem ThreadedExecutor.poll_some {ex ex' : ThreadedExecutor} {answer : Option Answer} {j : Job} {r : Tier2Result}
    (h : ex.poll answer = (ex', some (j, r))) :
    ex.future = some j ∧ ex'.future = none ∧ ∃ a, answer = some a ∧ r = j.run a := by
  unfold poll at h
  split at h
  · rename_i j' a hf
    simp only [Prod.mk.injEq, Option.some.injEq] at h
    obtain ⟨rfl, rfl, rfl⟩ := h
    exact ⟨hf, rfl, a, rfl, rfl⟩
  · cases h

namespace AgentSession

/-- The calls of `dtmf_sender` so far. -/
def presses (s : AgentSession) : Nat := s.trace.countP (·.presses)

def WithinCap (cfg : FsmConfig) (s : AgentSession) : Prop := s.presses ≤ cfg.maxMenuPresses

instance (cfg : FsmConfig) (s : AgentSession) : Decidable (WithinCap cfg s) := inferInstanceAs (Decidable (_ ≤ _))

/-- The tick starts a menu read: a wake is due in IVR_MENU, and the slot is free. -/
def StartsRead (s : AgentSession) (i : Tick) : Prop :=
  let now := s.nextClassifyAt
  let t := (s.classify now i.cls).observe now i
  s.Ticks ∧ t.crashed = false ∧ (∃ due, t.menuWakeDue = some due ∧ due ≤ now) ∧ t.fsm.state = .ivrMenu ∧
    t.tier2Kind = none ∧ t.exec.closed = false

/-- The act starts no menu read once the cap is reached. -/
def ReadsWithinCap (cfg : FsmConfig) (s : AgentSession) : Act → Prop
  | .move (.tick i) => s.StartsRead i → s.presses < cfg.maxMenuPresses
  | _ => True

/-- The same act, except that the background job's answer arrives otherwise. -/
def Act.Retimed : Act → Act → Prop
  | .move m, a => ∃ m', a = .move m' ∧ m.Retimed m'
  | .close, a => a = .close

theorem Act.Retimed.refl (a : Act) : a.Retimed a := by
  cases a with
  | move m => exact ⟨m, rfl, Move.Retimed.refl m⟩
  | close => rfl

theorem Act.Retimed.trans (a b c : Act) (h : a.Retimed b) (h' : b.Retimed c) : a.Retimed c := by
  cases a with
  | move m =>
    obtain ⟨m', rfl, hm⟩ := h
    obtain ⟨m'', rfl, hm'⟩ := h'
    exact ⟨m'', rfl, Move.Retimed.trans m m' m'' hm hm'⟩
  | close => cases h; exact h'

/-! ## Keys pressed, and the key a read in flight may still press -/

/-- A menu read in flight may still press a key. -/
def owed (s : AgentSession) : Nat := if s.exec.future.any (·.kind = .menu) then 1 else 0

variable {s t : AgentSession}

theorem presses_of_trace (h : t.trace = s.trace) : t.presses = s.presses := by rw [presses, h, presses]

theorem owed_of_exec (h : t.exec = s.exec) : t.owed = s.owed := by rw [owed, h, owed]

theorem moved_presses (s : AgentSession) (fsm : CallStateMachine) (now : ℚ) :
    (s.moved fsm now).presses = s.presses ∧ (s.moved fsm now).owed = s.owed := by
  rw [moved_eq]
  refine ⟨?_, rfl⟩
  unfold presses
  dsimp only
  split <;> simp [Effect.presses]

theorem classify_presses (s : AgentSession) (now : ℚ) (c : Classification) :
    (s.classify now c).presses = s.presses ∧ (s.classify now c).owed = s.owed := by
  obtain ⟨frame, e, heq, -⟩ := s.classify_eq now c
  rw [heq]
  exact ⟨by simp [presses, Effect.presses], rfl⟩

theorem fail_presses (s : AgentSession) (now : ℚ) (reason : String) :
    (s.fail now reason).presses = s.presses ∧ (s.fail now reason).owed = s.owed := by
  rw [fail_eq]
  exact ⟨by simp [presses, Effect.presses], rfl⟩

/-- A probe submitted owes no key. -/
theorem startProbe_presses (s : AgentSession) (now : ℚ) :
    (s.startProbe now).presses = s.presses ∧ (s.startProbe now).owed ≤ s.owed := by
  unfold startProbe submit ThreadedExecutor.submit
  cases hc : s.exec.closed with
  | false => simp [emit, log, presses, Effect.presses, owed, hc]
  | true => simp [emit, log, presses, Effect.presses, owed, hc]

/-- A menu read submitted owes one; refused, none. -/
theorem startMenu_presses (s : AgentSession) (now : ℚ) :
    (s.startMenu now).presses = s.presses ∧
      (s.startMenu now).owed = if s.exec.closed = true then s.owed else 1 := by
  unfold startMenu submit ThreadedExecutor.submit
  cases hc : s.exec.closed with
  | false => simp [emit, log, presses, Effect.presses, owed, hc]
  | true => simp [emit, log, presses, Effect.presses, owed, hc]

theorem observe_presses (s : AgentSession) (now : ℚ) (i : Tick) :
    (s.observe now i).presses = s.presses ∧ (s.observe now i).owed ≤ s.owed := by
  obtain ⟨hp, ho⟩ := moved_presses s (s.fsm.observe i.cls.label i.cls.confidence now).1 now
  rcases observe_cases s now i with ⟨-, -, due, he⟩ | ⟨-, -, he⟩ | ⟨-, -, he⟩ | ⟨-, he⟩ <;> rw [he]
  · exact ⟨hp, ho.le⟩
  · obtain ⟨hp', ho'⟩ := startProbe_presses (s.moved (s.fsm.observe i.cls.label i.cls.confidence now).1 now) now
    exact ⟨hp'.trans hp, ho'.trans ho.le⟩
  · exact ⟨hp, ho.le⟩
  · obtain ⟨hp', ho'⟩ := fail_presses (s.moved (s.fsm.observe i.cls.label i.cls.confidence now).1 now) now "non_connect"
    exact ⟨hp'.trans hp, (ho'.trans ho).le⟩

theorem emitStateChange_presses (s : AgentSession) (before : CallState) (now : ℚ) :
    (s.emitStateChange before now).presses = s.presses ∧ (s.emitStateChange before now).owed = s.owed := by
  unfold emitStateChange
  split
  · exact ⟨by simp [emit, log, presses, Effect.presses], rfl⟩
  · exact ⟨rfl, rfl⟩

theorem emit_presses (s : AgentSession) (e : Event) :
    (s.emit e).presses = s.presses ∧ (s.emit e).owed = s.owed :=
  ⟨by simp [emit, log, presses, Effect.presses], rfl⟩

theorem bridge_presses (s : AgentSession) (now : ℚ) (reply : BridgeReply) :
    (s.bridge now reply).presses = s.presses ∧ (s.bridge now reply).owed = s.owed := by
  obtain ⟨hd, hd'⟩ := emit_presses s (.humanDetected now)
  have hl : ((s.emit (.humanDetected now)).log .onBridge).presses = s.presses := by
    simp [emit, log, presses, Effect.presses]
  have hl' : ((s.emit (.humanDetected now)).log .onBridge).owed = s.owed := hd'
  unfold bridge
  dsimp only
  generalize (s.emit (.humanDetected now)).log .onBridge = u at hl hl' ⊢
  cases reply with
  | unavailable reason =>
    obtain ⟨hp, ho⟩ := fail_presses u now reason
    exact ⟨hp.trans hl, ho.trans hl'⟩
  | raised =>
    obtain ⟨hp, ho⟩ := fail_presses u now "handoff_error"
    exact ⟨hp.trans hl, ho.trans hl'⟩
  | ok =>
    dsimp only
    obtain ⟨hp1, ho1⟩ := emitStateChange_presses { u with fsm := u.fsm.bridged } u.fsm.state now
    obtain ⟨hp2, ho2⟩ := emit_presses ({ u with fsm := u.fsm.bridged }.emitStateChange u.fsm.state now)
      (.bridgeStarted now)
    generalize ({ u with fsm := u.fsm.bridged }.emitStateChange u.fsm.state now).emit (.bridgeStarted now) = v
      at hp2 ho2 ⊢
    obtain ⟨hp3, ho3⟩ := emitStateChange_presses { v with fsm := v.fsm.completed } v.fsm.state now
    obtain ⟨hp4, ho4⟩ := emit_presses ({ v with fsm := v.fsm.completed }.emitStateChange v.fsm.state now)
      (.callCompleted now "human_bridged")
    exact ⟨hp4.trans (hp3.trans (hp2.trans (hp1.trans hl))), ho4.trans (ho3.trans (ho2.trans (ho1.trans hl')))⟩

theorem applyProbe_presses (s : AgentSession) (o : ProbeOutcome) (now : ℚ) (reply : BridgeReply) :
    (s.applyProbe o now reply).presses = s.presses ∧ (s.applyProbe o now reply).owed = s.owed := by
  have hm := moved_presses (s.emit (.probeResult now o.isHuman)) (s.fsm.probeResult o.isHuman now).1 now
  have he := emit_presses s (.probeResult now o.isHuman)
  rw [applyProbe_eq]
  by_cases hst : s.fsm.state = .evaluatingSpeech
  · cases ho : o.isHuman with
    | true =>
      rw [ho, CallStateMachine.probeResult_human hst] at hm
      rw [ho] at he
      rw [CallStateMachine.probeResult_human hst, dispatch]
      exact ⟨(bridge_presses _ now reply).1.trans (hm.1.trans he.1), (bridge_presses _ now reply).2.trans (hm.2.trans he.2)⟩
    | false =>
      rw [ho, CallStateMachine.probeResult_not_human hst] at hm
      rw [ho] at he
      rw [CallStateMachine.probeResult_not_human hst]
      exact ⟨hm.1.trans he.1, hm.2.trans he.2⟩
  · rw [CallStateMachine.probeResult_stale hst] at hm ⊢
    exact ⟨hm.1.trans he.1, hm.2.trans he.2⟩

theorem tier2Failed_presses (s : AgentSession) (kind : Tier2Kind) (e : Tier2Error) (now : ℚ) :
    (s.tier2Failed kind e now).presses = s.presses ∧ (s.tier2Failed kind e now).owed = s.owed := by
  rcases tier2Failed_outcome s kind e now with ⟨-, he⟩ | ⟨-, reason, he⟩ <;> rw [he]
  · exact ⟨rfl, rfl⟩
  · exact fail_presses s now reason

theorem applyMenu_presses_le (s : AgentSession) (d : MenuDecision) (now : ℚ) :
    (s.applyMenu d now).presses ≤ s.presses + 1 ∧ (s.applyMenu d now).owed = s.owed := by
  unfold applyMenu
  split
  · exact ⟨by simp [emit, log, presses, Effect.presses], rfl⟩
  · exact ⟨Nat.le_succ _, rfl⟩

theorem applyMenu_one (s : AgentSession) (now : ℚ) :
    (s.applyMenu ⟨some "1", ""⟩ now).presses = s.presses + 1 := by
  have hone : (⟨some "1", ""⟩ : MenuDecision).presses = true := by decide
  unfold applyMenu
  rw [hone]
  simp [emit, log, presses, Effect.presses]

/-- A menu read in the slot that answers with a digit presses it. -/
theorem pollTier2_digit {j : Job} (hk : s.tier2Kind = some .menu) (hf : s.exec.future = some j)
    (hj : j.kind = .menu) (now : ℚ) (i : Tick) :
    (s.pollTier2 now { i with answer := some { menu := .ok ⟨some "1", ""⟩ } }).presses = s.presses + 1 := by
  have hp : s.exec.poll (some { menu := .ok ⟨some "1", ""⟩ }) =
      ({ s.exec with future := none }, some (j, .ok (.decision ⟨some "1", ""⟩))) := by
    simp [ThreadedExecutor.poll, hf, Job.run, hj, Except.map]
  unfold pollTier2
  rw [hk]
  dsimp only
  rw [hp]
  dsimp only [applyResult]
  rw [applyMenu_one]
  simp [log, presses, Effect.presses]

/-- A poll presses no more keys than were owed. -/
theorem pollTier2_presses (s : AgentSession) (now : ℚ) (i : Tick) :
    (s.pollTier2 now i).presses + (s.pollTier2 now i).owed ≤ s.presses + s.owed := by
  unfold pollTier2
  split
  · exact le_rfl
  · rename_i kind _
    split
    · exact le_rfl
    · rename_i exec j r hpoll
      obtain ⟨hf, hf', a, -, rfl⟩ := ThreadedExecutor.poll_some hpoll
      have htp : ({ s with exec, tier2Kind := none }.log (.polled j (j.run a))).presses = s.presses := by
        simp [log, presses, Effect.presses]
      have hto : ({ s with exec, tier2Kind := none }.log (.polled j (j.run a))).owed = 0 := by
        simp [log, owed, hf']
      generalize { s with exec, tier2Kind := none }.log (.polled j (j.run a)) = v at htp hto ⊢
      unfold applyResult
      split
      · rename_i e _
        obtain ⟨hp, ho⟩ := tier2Failed_presses v kind e now
        omega
      · split
        · -- a decision is the answer of a menu read, which was owed
          rename_i d _ hrun
          have hk : j.kind = .menu := by
            cases hk : j.kind with
            | menu => rfl
            | probe => cases hp : a.probe <;> simp [Job.run, hk, hp, Except.map] at hrun
          have hso : s.owed = 1 := by simp [owed, hf, hk]
          obtain ⟨hp, ho⟩ := applyMenu_presses_le v d now
          omega
        · rename_i o _ _
          obtain ⟨hp, ho⟩ := applyProbe_presses v o now i.onBridge
          omega
        · have hp : ({ v with crashed := true } : AgentSession).presses = v.presses := rfl
          have ho : ({ v with crashed := true } : AgentSession).owed = v.owed := rfl
          omega

/-! ## One act -/

theorem runTick_presses {n : Nat} {i : Tick} (h : s.presses + s.owed ≤ n) (ht : s.Ticks)
    (hc : s.StartsRead i → s.presses < n) :
    (s.runTick s.nextClassifyAt i).presses + (s.runTick s.nextClassifyAt i).owed ≤ n := by
  obtain ⟨hcp, hco⟩ := classify_presses s s.nextClassifyAt i.cls
  obtain ⟨hop, hoo⟩ := observe_presses (s.classify s.nextClassifyAt i.cls) s.nextClassifyAt i
  unfold StartsRead at hc
  unfold runTick
  dsimp only at hc ⊢
  generalize (s.classify s.nextClassifyAt i.cls).observe s.nextClassifyAt i = t at hc hop hoo ⊢
  have hw : (t.wakeMenu s.nextClassifyAt).presses + (t.wakeMenu s.nextClassifyAt).owed ≤ n ∨ t.crashed = true := by
    cases hcr : t.crashed with
    | true => exact .inr rfl
    | false =>
      left
      unfold wakeMenu
      split
      · rename_i due hdue
        split
        · rename_i hle
          dsimp only
          split
          · rename_i hivr
            obtain ⟨hmp, hmo⟩ := startMenu_presses { t with menuWakeDue := none } s.nextClassifyAt
            have hsame : ({ t with menuWakeDue := none } : AgentSession).presses = t.presses := rfl
            have howed : ({ t with menuWakeDue := none } : AgentSession).owed = t.owed := rfl
            cases hcl : t.exec.closed with
            | true =>
              simp only [hcl, if_true] at hmo
              omega
            | false =>
              have hlt := hc ⟨ht, hcr, ⟨due, hdue, hle⟩, hivr.1, hivr.2, hcl⟩
              simp only [hcl, Bool.false_eq_true, if_false] at hmo
              omega
          · have hsame : ({ t with menuWakeDue := none } : AgentSession).presses = t.presses := rfl
            have howed : ({ t with menuWakeDue := none } : AgentSession).owed = t.owed := rfl
            omega
        · omega
      · omega
  split
  · omega
  · rename_i hcr
    have hw' := hw.resolve_right hcr
    split
    · exact hw'
    · exact (pollTier2_presses _ _ i).trans hw'

theorem act_withinCap {cfg : FsmConfig} (s : AgentSession) (a : Act)
    (h : s.presses + s.owed ≤ cfg.maxMenuPresses) (hc : ReadsWithinCap cfg s a) :
    (s.act a).presses + (s.act a).owed ≤ cfg.maxMenuPresses := by
  cases a with
  | close =>
    have hsame : (s.act .close).owed = s.owed := rfl
    rw [hsame]
    exact h
  | move m =>
    cases m with
    | ingest pcm =>
      obtain ⟨htr, -, -, hex⟩ := ingest_fields { s with crashed := false } pcm
      rw [act, presses_of_trace htr, owed_of_exec hex]
      exact h
    | tick i =>
      by_cases ht : s.Ticks
      · obtain ⟨n, he⟩ := loopPass_ticks ht i
        rw [act, he]
        exact runTick_presses h ht hc
      · rw [act, loopPass_rests ht]; exact h
    | abort reason =>
      rw [act, abort]
      split
      · exact h
      · obtain ⟨hp, ho⟩ := fail_presses s s.audioSeconds reason
        rw [hp, ho]
        exact h

/-- Started with the cap reached, the read's digit, arriving in this very tick, is one too many. -/
theorem readsWithinCap_tight {cfg : FsmConfig} {i : Tick}
    (hc : ¬ ReadsWithinCap cfg s (.move (.tick i))) :
    ¬ WithinCap cfg (s.act (.move (.tick { i with answer := some { menu := .ok ⟨some "1", ""⟩ } }))) := by
  simp only [ReadsWithinCap, Classical.not_imp, not_lt] at hc
  obtain ⟨⟨ht, hcr, ⟨due, hdue, hle⟩, hivr, hk, hcl⟩, hge⟩ := hc
  set i' : Tick := { i with answer := some { menu := .ok ⟨some "1", ""⟩ } }
  have hi' : (s.classify s.nextClassifyAt i'.cls).observe s.nextClassifyAt i' =
      (s.classify s.nextClassifyAt i.cls).observe s.nextClassifyAt i := rfl
  obtain ⟨n, he⟩ := loopPass_ticks ht i'
  have hcp := (classify_presses s s.nextClassifyAt i.cls).1
  have hop := (observe_presses (s.classify s.nextClassifyAt i.cls) s.nextClassifyAt i).1
  have hrun : (s.runTick s.nextClassifyAt i').presses = s.presses + 1 := by
    unfold runTick
    rw [hi']
    dsimp only
    generalize (s.classify s.nextClassifyAt i.cls).observe s.nextClassifyAt i = t at hcr hdue hivr hk hcl hop
    have hwake : t.wakeMenu s.nextClassifyAt = { t with menuWakeDue := none }.startMenu s.nextClassifyAt := by
      simp [wakeMenu, hdue, hle, hivr, hk]
    have hmp := (startMenu_presses { t with menuWakeDue := none } s.nextClassifyAt).1
    have hsame : ({ t with menuWakeDue := none } : AgentSession).presses = t.presses := rfl
    have heq := startMenu_eq (s := { t with menuWakeDue := none }) hcl s.nextClassifyAt
    have hcrash : ¬ ({ t with menuWakeDue := none }.startMenu s.nextClassifyAt).crashed = true := by
      rw [heq]
      simp [hcr]
    have hdigit := pollTier2_digit (congrArg AgentSession.tier2Kind heq) (congrArg (·.exec.future) heq) rfl
      s.nextClassifyAt i
    rw [hcr, hwake, if_neg (by simp), if_neg hcrash, hdigit]
    omega
  rw [act, he, WithinCap]
  have hfinal : ({ s.runTick s.nextClassifyAt i' with nextClassifyAt := n } : AgentSession).presses =
      (s.runTick s.nextClassifyAt i').presses := rfl
  omega

/-- The bound counts the key that a read in flight may still press. -/
theorem act_keepsCap {cfg : FsmConfig} (s : AgentSession) (a : Act) (h : s.presses + s.owed ≤ cfg.maxMenuPresses)
    (_ : WithinCap cfg s) (hc : ReadsWithinCap cfg s a) :
    (s.act a).presses + (s.act a).owed ≤ cfg.maxMenuPresses ∧ WithinCap cfg (s.act a) := by
  have hbound := act_withinCap s a h hc
  exact ⟨hbound, (Nat.le_add_right _ _).trans hbound⟩

/-- **`withinCap_of_along`**: in every life of a session that starts no menu read once `max_menu_presses` keys
have been pressed, no more than that many are. -/
theorem withinCap_of_along (callId : String) (settings : Settings) (cfg : FsmConfig) (goal sid : Option String)
    (as : List Act) (h : Run.Along act (ReadsWithinCap cfg) (new callId settings cfg goal sid) as) :
    Run.Always act (WithinCap cfg) (new callId settings cfg goal sid) as :=
  Run.always_of_step act_keepsCap as _ (by simp [new, presses, owed]) (by simp [WithinCap, new, presses]) h

/-- **`withinCap_iff`**: over every life of a session and every completion timing of its jobs, at most
`max_menu_presses` keys are pressed, exactly when under no completion timing a menu read is started once that
many have been. -/
theorem withinCap_iff (callId : String) (settings : Settings) (cfg : FsmConfig) (goal sid : Option String)
    (as : List Act) :
    (∀ as', List.Forall₂ Act.Retimed as as' →
        Run.Always act (WithinCap cfg) (new callId settings cfg goal sid) as') ↔
      ∀ as', List.Forall₂ Act.Retimed as as' →
        Run.Along act (ReadsWithinCap cfg) (new callId settings cfg goal sid) as' := by
  refine Run.always_iff_along_variants Act.Retimed.refl Act.Retimed.trans act_keepsCap
    (fun s a _ hcap hn => ?_) as _ (by simp [new, presses, owed]) (by simp [WithinCap, new, presses])
  cases a with
  | close => exact absurd trivial hn
  | move m =>
    cases m with
    | tick i => exact ⟨_, ⟨_, rfl, _, rfl⟩, readsWithinCap_tight hn⟩
    | _ => exact absurd trivial hn

/-- Hold music, then eight menus one after the other with music in between, and a key pressed at each. -/
def eightMenus : List Call :=
  hear 0 .holdMusic :: List.replicate 5 (hear 4000 .holdMusic) ++
    (List.replicate 8 (List.replicate 4 (hear 4000 .menuAwaitingInput) ++
      [hear 4000 .menuAwaitingInput (some { menu := .ok ⟨some "2", ""⟩ })] ++
      List.replicate 4 (hear 4000 .holdMusic))).flatten

/-- More keys are pressed than the six allowed. -/
theorem eightMenus_not_withinCap :
    ¬ WithinCap {} (Run.exec act (new "CA1" {} {} none none) ((eightMenus.flatMap Call.moves).map .move)) := by
  decide +kernel

end AgentSession

end DialPass
