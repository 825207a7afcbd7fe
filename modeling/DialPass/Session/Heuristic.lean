import DialPass.Classifier
import DialPass.Session.Cap
/-!
# A call heard by `HeuristicClassifier` (agent/classifier.py:112-150, agent/state.py:236-328)

The shipped Tier 1 never says that a menu is playing: a prompt is LIVE_SPEECH_CANDIDATE to it, like anyone's
speech, and no line is dead to it. So a call it listens to takes the edges of `road` only. A menu is entered from
DIALING or never; the way back from ON_HOLD to IVR_MENU and the give-up on voicemail and error tones, which the
machine has, are not taken by any call. Once on hold no menu is read any more, and of the keys only the one of the
read that was still running may yet be pressed.
-/

namespace DialPass

/-- The transitions of a call that `HeuristicClassifier` listens to. -/
def road : Finset (CallState × CallState) :=
  {(.dialing, .ivrMenu), (.dialing, .onHold), (.ivrMenu, .onHold), (.onHold, .evaluatingSpeech),
   (.evaluatingSpeech, .onHold), (.evaluatingSpeech, .humanDetected), (.humanDetected, .bridging), (.bridging, .done)}

/-- Before the first time on hold. -/
def preHold : Finset CallState := {.dialing, .ivrMenu}

/-- On `road` no state but the first two is left for a menu, and only the first two precede hold. -/
theorem road_preHold : ∀ a b, (a, b) ∈ road → b ∈ preHold → a ∈ preHold ∧ b ≠ .onHold := by
  intro a b
  cases a <;> cases b <;> decide

theorem road_live : ∀ a b, (a, b) ∈ road → b ≠ .failed := by
  intro a b
  cases a <;> cases b <;> decide

namespace CallStateMachine

/-- What the classifier says moves the machine along `road`, and fails no call. -/
theorem observe_road (m : CallStateMachine) {label : Label} (h : label ∈ HeuristicClassifier.labels)
    (confidence now : ℚ) :
    let p := m.observe label confidence now
    (p.1.state = m.state ∨ (m.state, p.1.state) ∈ road) ∧ p.2 ≠ .fail := by
  intro p
  have hn : ¬ m.Fails label confidence := fun hf => by
    have hc := hf.2.1
    revert h hc
    cases label <;> decide
  refine ⟨?_, (m.observe_fail_iff label confidence now).not.2 hn⟩
  have hmove : Move m.state p.1.state p.2 := m.observe_move label confidence now
  generalize hp : p.1.state = b at hmove
  generalize ha : p.2 = act at hmove
  generalize hst : m.state = a at hmove
  cases hmove with
  | stay => exact .inl rfl
  | submenu => exact .inl rfl
  | menuLoop =>
    -- back into the menu asks for a label of the menu's
    have hobs : p = _ := observe_of_not_fails hn now
    rw [hst] at hobs
    have hmenu : label ∉ menuLabels := by
      revert h
      cases label <;> decide
    rw [hobs] at ha
    simp only [onOnHold, hmenu, false_and, if_false] at ha
    split_ifs at ha
  | giveUp hl => exact absurd ha ((m.observe_fail_iff label confidence now).not.2 hn)
  | _ => exact .inr (by decide)

end CallStateMachine

/-- A report that the call is on hold. -/
def Effect.holds : Effect → Bool
  | .emit (.stateChanged _ _ .onHold) => true
  | _ => false

/-- A menu read is started. -/
def Effect.reads : Effect → Bool
  | .submit j => j.kind = .menu
  | _ => false

/-- A transition, if it is one, is on the road. -/
def Effect.OnRoad : Effect → Prop
  | .emit (.stateChanged _ frm dst) => (frm, dst) ∈ road
  | _ => True

/-- No transition, no menu read and no key. -/
def Effect.Aside (e : Effect) : Prop := e.OnRoad ∧ e.holds = false ∧ e.reads = false ∧ e.presses = false

/-- What the call did from the first time on hold. -/
def sinceHold (tr : List Effect) : List Effect := tr.dropWhile (fun e => !e.holds)

theorem sinceHold_append (tr es : List Effect) :
    sinceHold (tr ++ es) = if sinceHold tr = [] then sinceHold es else sinceHold tr ++ es := by
  unfold sinceHold
  rw [List.dropWhile_append]
  simp only [List.isEmpty_iff]

theorem sinceHold_aside {es : List Effect} (h : ∀ e ∈ es, e.holds = false) : sinceHold es = [] := by
  rw [sinceHold, List.dropWhile_eq_nil_iff]
  simpa using h

/-- Everything after a report of hold is in what was done since the first. -/
theorem suffix_sinceHold {tr pre post : List Effect} {e : Effect} (h : tr = pre ++ e :: post) (he : e.holds = true) :
    (e :: post) <:+ sinceHold tr := by
  have hpost : sinceHold (e :: post) = e :: post := by simp [sinceHold, he]
  rw [h, sinceHold_append]
  split_ifs
  · rw [hpost]
  · exact List.suffix_append _ _

namespace AgentSession

/-- Everything the act hears is the classifier's. -/
def Act.Heuristic : Act → Prop
  | .move (.tick i) => ∃ f, i.cls = HeuristicClassifier.classify f
  | _ => True

/-- The call has kept to the road, and may still press `n` keys once on hold. -/
structure OnRoad (n : Nat) (s : AgentSession) : Prop where
  road : ∀ e ∈ s.trace, e.OnRoad
  live : s.fsm.state ≠ .failed
  before : s.fsm.state ∈ preHold → sinceHold s.trace = []
  reads : ∀ e ∈ sinceHold s.trace, e.reads = false
  keys : sinceHold s.trace ≠ [] → (sinceHold s.trace).countP (·.presses) + n ≤ 1

variable {s t : AgentSession} {n m : Nat}

theorem OnRoad.mono (h : OnRoad n s) (hm : m ≤ n) : OnRoad m s :=
  ⟨h.road, h.live, h.before, h.reads, fun hs => (Nat.add_le_add_left hm _).trans (h.keys hs)⟩

/-- What is no transition may be told at any time; menu reads and keys, once on hold, only as far as they are owed. -/
theorem OnRoad.append (h : OnRoad n s) (es : List Effect) (htr : t.trace = s.trace ++ es)
    (hes : ∀ e ∈ es, e.OnRoad ∧ e.holds = false)
    (hst : t.fsm.state = s.fsm.state)
    (hq : sinceHold s.trace ≠ [] → (∀ e ∈ es, e.reads = false) ∧ es.countP (·.presses) + m ≤ n) : OnRoad m t := by
  have hsince : sinceHold t.trace = if sinceHold s.trace = [] then [] else sinceHold s.trace ++ es := by
    rw [htr, sinceHold_append, sinceHold_aside fun e he => (hes e he).2]
  refine ⟨?_, hst ▸ h.live, ?_, ?_, ?_⟩
  · rw [htr]
    intro e he
    rcases List.mem_append.1 he with he | he
    · exact h.road e he
    · exact (hes e he).1
  · intro hp
    rw [hst] at hp
    rw [hsince, if_pos (h.before hp)]
  · rw [hsince]
    split_ifs with hs
    · simp
    · intro e he
      rcases List.mem_append.1 he with he | he
      · exact h.reads e he
      · exact (hq hs).1 e he
  · rw [hsince]
    split_ifs with hs
    · simp
    · intro _
      rw [List.countP_append]
      have hkeys := h.keys hs
      have hmore := (hq hs).2
      omega

/-- What is no menu read and no key either leaves the call where it is. -/
theorem OnRoad.aside (h : OnRoad n s) (es : List Effect) (htr : t.trace = s.trace ++ es) (hes : ∀ e ∈ es, e.Aside)
    (hst : t.fsm.state = s.fsm.state) : OnRoad n t := by
  refine h.append es htr (fun e he => ⟨(hes e he).1, (hes e he).2.1⟩) hst fun _ => ⟨fun e he => (hes e he).2.2.1, ?_⟩
  have hz : es.countP (·.presses) = 0 := List.countP_eq_zero.2 fun e he => by simp [(hes e he).2.2.2]
  omega

theorem OnRoad.of_fields (h : OnRoad n s) (htr : t.trace = s.trace) (hst : t.fsm.state = s.fsm.state) : OnRoad n t :=
  h.aside [] (by rw [htr, List.append_nil]) (by simp) hst

/-- A reported transition of the road's. -/
theorem OnRoad.moved (h : OnRoad n s) (hn : n ≤ 1) (fsm : CallStateMachine)
    (hr : fsm.state = s.fsm.state ∨ (s.fsm.state, fsm.state) ∈ DialPass.road) (now : ℚ) : OnRoad n (s.moved fsm now) := by
  rw [moved_eq]
  by_cases hst : fsm.state = s.fsm.state
  · exact h.of_fields (by simp [hst]) hst
  · have hr := hr.resolve_left hst
    set e : Effect := .emit (.stateChanged now s.fsm.state fsm.state) with he
    rw [if_pos hst]
    have hread : e.reads = false := rfl
    have hpress : e.presses = false := rfl
    have hmem : ∀ x ∈ sinceHold (s.trace ++ [e]), x ∈ sinceHold s.trace ∨ x = e := by
      intro x hx
      rw [sinceHold_append] at hx
      split_ifs at hx
      · exact .inr (by simpa using (List.dropWhile_suffix _).mem hx)
      · simpa using hx
    refine ⟨?_, road_live _ _ hr, ?_, ?_, ?_⟩
    · intro x hx
      rcases List.mem_append.1 hx with hx | hx
      · exact h.road x hx
      · obtain rfl : x = e := by simpa using hx
        exact hr
    · intro hp
      obtain ⟨hfrom, hne⟩ := road_preHold _ _ hr hp
      show sinceHold (s.trace ++ [e]) = []
      rw [sinceHold_append, if_pos (h.before hfrom)]
      refine sinceHold_aside fun x hx => ?_
      obtain rfl : x = e := by simpa using hx
      cases hb : fsm.state <;> simp_all [Effect.holds]
    · intro x hx
      rcases hmem x hx with hx | rfl
      · exact h.reads x hx
      · exact hread
    · intro _
      show (sinceHold (s.trace ++ [e])).countP _ + n ≤ 1
      rw [sinceHold_append]
      split_ifs with hs
      · have hz : (sinceHold [e]).countP (·.presses) = 0 := List.countP_eq_zero.2 fun x hx => by
          obtain rfl : x = e := by simpa using (List.dropWhile_suffix _).mem hx
          simp [hpress]
        omega
      · rw [List.countP_append]
        have hk := h.keys hs
        simpa [hpress] using hk

/-! ## The stages of a tick -/

theorem owed_le_one (s : AgentSession) : s.owed ≤ 1 := by
  unfold owed
  split_ifs <;> simp

theorem fail_onRoad (h : OnRoad n s) (now : ℚ) (reason : String) : OnRoad n (s.fail now reason) := by
  rw [fail_eq]
  exact h.aside _ rfl (by simp [Effect.Aside, Effect.OnRoad, Effect.holds, Effect.reads, Effect.presses]) rfl

theorem classify_onRoad (h : OnRoad s.owed s) (now : ℚ) (c : Classification) :
    OnRoad (s.classify now c).owed (s.classify now c) := by
  obtain ⟨frame, e, heq, conf, feats, rfl⟩ := s.classify_eq now c
  rw [(classify_presses s now c).2, heq]
  exact h.aside _ rfl (by simp [Effect.Aside, Effect.OnRoad, Effect.holds, Effect.reads, Effect.presses]) rfl

/-- A submission asks for what the job is: a probe is aside. -/
theorem startProbe_onRoad (h : OnRoad s.owed s) (now : ℚ) : OnRoad (s.startProbe now).owed (s.startProbe now) := by
  refine OnRoad.mono ?_ (startProbe_presses s now).2
  cases hc : s.exec.closed with
  | false =>
    rw [startProbe_eq hc]
    refine h.aside _ rfl ?_ rfl
    simp [Effect.Aside, Effect.OnRoad, Effect.holds, Effect.reads, Effect.presses, probeJob]
  | true =>
    refine h.aside [.emit (.tier2Woken now .probe)] ?_ ?_ ?_
    · simp [startProbe, submit, ThreadedExecutor.submit, emit, log, hc]
    · simp [Effect.Aside, Effect.OnRoad, Effect.holds, Effect.reads, Effect.presses]
    · simp [startProbe, submit, ThreadedExecutor.submit, emit, log, hc]

/-- Before the first hold a menu read may be started: its key is not one pressed on hold yet. -/
theorem startMenu_onRoad (h : OnRoad n s) (hst : s.fsm.state = .ivrMenu) (now : ℚ) :
    OnRoad (s.startMenu now).owed (s.startMenu now) := by
  have hnil := h.before (by rw [hst]; decide)
  cases hc : s.exec.closed with
  | false =>
    rw [startMenu_eq hc]
    refine h.append _ rfl ?_ rfl fun hs => absurd hnil hs
    simp [Effect.OnRoad, Effect.holds]
  | true =>
    refine h.append [.emit (.tier2Woken now .menu)] ?_ ?_ ?_ fun hs => absurd hnil hs
    · simp [startMenu, submit, ThreadedExecutor.submit, emit, log, hc]
    · simp [Effect.OnRoad, Effect.holds]
    · simp [startMenu, submit, ThreadedExecutor.submit, emit, log, hc]

theorem observe_onRoad (h : OnRoad s.owed s) (now : ℚ) {i : Tick} (hi : i.cls.label ∈ HeuristicClassifier.labels) :
    OnRoad (s.observe now i).owed (s.observe now i) := by
  obtain ⟨hroad, hfail⟩ := s.fsm.observe_road hi i.cls.confidence now
  have hm := h.moved (owed_le_one s) _ hroad now
  have ho := (moved_presses s (s.fsm.observe i.cls.label i.cls.confidence now).1 now).2
  rw [← ho] at hm
  rcases observe_cases s now i with ⟨-, -, due, he⟩ | ⟨-, -, he⟩ | ⟨-, -, he⟩ | ⟨hp, -⟩
  · rw [he]
    exact hm.of_fields rfl rfl
  · rw [he]
    exact startProbe_onRoad hm now
  · rw [he]
    exact hm
  · exact absurd hp hfail

theorem wakeMenu_onRoad (h : OnRoad s.owed s) (now : ℚ) : OnRoad (s.wakeMenu now).owed (s.wakeMenu now) := by
  rcases wakeMenu_cases s now with ⟨due, he⟩ | ⟨hivr, -, he⟩ <;> rw [he]
  · exact h.of_fields rfl rfl
  · exact startMenu_onRoad (h.of_fields (t := { s with menuWakeDue := none }) rfl rfl) hivr now

/-- The key of a read that was owed one. -/
theorem applyMenu_onRoad (h : OnRoad 1 s) (d : MenuDecision) (now : ℚ) : OnRoad 0 (s.applyMenu d now) := by
  unfold applyMenu
  split
  · rename_i digits _ _
    refine h.append [.dtmfSender digits, .emit (.dtmfSent now digits)] (by simp [log, emit])
      (by simp [Effect.OnRoad, Effect.holds]) (CallStateMachine.noteMenuAction_state _ now) fun _ => ⟨?_, ?_⟩
    · simp [Effect.reads]
    · simp [Effect.presses]
  · exact (h.of_fields (t := { s with fsm := s.fsm.noteMenuAbstained }) rfl
      (CallStateMachine.noteMenuAbstained_state _)).mono (Nat.zero_le _)

theorem bridge_onRoad (h : OnRoad n s) (hn : n ≤ 1) (hst : s.fsm.state = .humanDetected) (now : ℚ)
    (reply : BridgeReply) : OnRoad n (s.bridge now reply) := by
  by_cases hr : reply = .ok
  · -- two more steps of the road, with an event each before and after
    have h0 : OnRoad n ((s.emit (.humanDetected now)).log .onBridge) :=
      h.aside [.emit (.humanDetected now), .onBridge] (by simp [emit, log])
        (by simp [Effect.Aside, Effect.OnRoad, Effect.holds, Effect.reads, Effect.presses]) rfl
    have h1 := h0.moved hn s.fsm.bridged
      (.inr (by show (s.fsm.state, _) ∈ _; rw [hst, CallStateMachine.bridged_state hst]; decide)) now
    set u := ((s.emit (.humanDetected now)).log .onBridge).moved s.fsm.bridged now with hu
    have hust : u.fsm.state = .bridging := by
      rw [hu, moved_eq]
      exact CallStateMachine.bridged_state hst
    have h2 : OnRoad n (u.emit (.bridgeStarted now)) :=
      h1.aside [.emit (.bridgeStarted now)] rfl
        (by simp [Effect.Aside, Effect.OnRoad, Effect.holds, Effect.reads, Effect.presses]) rfl
    have h3 := h2.moved hn s.fsm.bridged.completed
      (.inr (by show (u.fsm.state, CallState.done) ∈ _; rw [hust]; decide)) now
    refine h3.aside [.emit (.callCompleted now "human_bridged")] ?_ ?_ ?_
    · rw [hr, bridge_ok_eq hst, moved_eq, hu, moved_eq]
      simp [emit, log, hst, CallStateMachine.bridged_state hst]
    · simp [Effect.Aside, Effect.OnRoad, Effect.holds, Effect.reads, Effect.presses]
    · rw [hr, bridge_ok_eq hst, moved_eq]
  · obtain ⟨reason, heq⟩ := bridge_failed_eq hr (s := s) now
    rw [heq]
    exact h.aside _ rfl (by simp [Effect.Aside, Effect.OnRoad, Effect.holds, Effect.reads, Effect.presses]) rfl

theorem applyProbe_onRoad (h : OnRoad n s) (hn : n ≤ 1) (o : ProbeOutcome) (now : ℚ) (reply : BridgeReply) :
    OnRoad n (s.applyProbe o now reply) := by
  have he : OnRoad n (s.emit (.probeResult now o.isHuman)) :=
    h.aside [.emit (.probeResult now o.isHuman)] rfl
      (by simp [Effect.Aside, Effect.OnRoad, Effect.holds, Effect.reads, Effect.presses]) rfl
  rw [applyProbe_eq]
  by_cases hst : s.fsm.state = .evaluatingSpeech
  · cases ho : o.isHuman with
    | true =>
      rw [ho] at he
      rw [CallStateMachine.probeResult_human hst, dispatch]
      refine bridge_onRoad (he.moved hn _ (.inr ?_) now) hn (by rw [moved_eq]; simp) now reply
      show (s.fsm.state, _) ∈ _
      rw [hst, CallStateMachine.enter_state]
      decide
    | false =>
      rw [ho] at he
      rw [CallStateMachine.probeResult_not_human hst]
      refine he.moved hn _ (.inr ?_) now
      show (s.fsm.state, _) ∈ _
      rw [hst, CallStateMachine.fallBackToHold_state]
      decide
  · rw [CallStateMachine.probeResult_stale hst]
    exact he.moved hn _ (.inl rfl) now

theorem tier2Failed_onRoad (h : OnRoad n s) (kind : Tier2Kind) (e : Tier2Error) (now : ℚ) :
    OnRoad n (s.tier2Failed kind e now) := by
  rcases tier2Failed_outcome s kind e now with ⟨-, he⟩ | ⟨-, reason, he⟩ <;> rw [he]
  · exact h
  · exact fail_onRoad h now reason

/-- A poll hands out the key that was owed, if a decision is what it finds. -/
theorem pollTier2_onRoad (h : OnRoad s.owed s) (now : ℚ) (i : Tick) :
    OnRoad (s.pollTier2 now i).owed (s.pollTier2 now i) := by
  unfold pollTier2
  split
  · exact h
  · rename_i kind _
    split
    · exact h
    · rename_i exec j r hpoll
      obtain ⟨hf, hf', a, -, rfl⟩ := ThreadedExecutor.poll_some hpoll
      have ht : OnRoad s.owed ({ s with exec, tier2Kind := none }.log (.polled j (j.run a))) :=
        h.aside [.polled j (j.run a)] rfl
          (by simp [Effect.Aside, Effect.OnRoad, Effect.holds, Effect.reads, Effect.presses]) rfl
      have hto : ({ s with exec, tier2Kind := none }.log (.polled j (j.run a))).owed = 0 := by
        simp [log, owed, hf']
      generalize { s with exec, tier2Kind := none }.log (.polled j (j.run a)) = v at ht hto ⊢
      unfold applyResult
      split
      · rename_i e _
        rw [(tier2Failed_presses v kind e now).2, hto]
        exact tier2Failed_onRoad (ht.mono (Nat.zero_le _)) kind e now
      · split
        · rename_i d _ hrun
          have hk : j.kind = .menu := by
            cases hk : j.kind with
            | menu => rfl
            | probe => cases hp : a.probe <;> simp [Job.run, hk, hp, Except.map] at hrun
          have hso : s.owed = 1 := by simp [owed, hf, hk]
          rw [(applyMenu_presses_le v d now).2, hto]
          exact applyMenu_onRoad (hso ▸ ht) d now
        · rename_i o _ _
          rw [(applyProbe_presses v o now i.onBridge).2, hto]
          exact applyProbe_onRoad (ht.mono (Nat.zero_le _)) (Nat.zero_le _) o now i.onBridge
        · show OnRoad v.owed _
          rw [hto]
          exact (ht.mono (Nat.zero_le _)).of_fields rfl rfl

/-! ## Runs -/

theorem runTick_onRoad (h : OnRoad s.owed s) (now : ℚ) {i : Tick} (hi : i.cls.label ∈ HeuristicClassifier.labels) :
    OnRoad (s.runTick now i).owed (s.runTick now i) := by
  have hobs := observe_onRoad (classify_onRoad h now i.cls) now hi
  have hwake := wakeMenu_onRoad hobs now
  unfold runTick
  dsimp only
  split_ifs
  · exact hobs
  · exact hwake
  · exact pollTier2_onRoad hwake now i

theorem act_onRoad (s : AgentSession) (a : Act) (ha : a.Heuristic) (h : OnRoad s.owed s) :
    OnRoad (s.act a).owed (s.act a) := by
  cases a with
  | close => exact h.of_fields rfl rfl
  | move m =>
    cases m with
    | ingest pcm =>
      obtain ⟨htr, hfsm, -, hex⟩ := ingest_fields { s with crashed := false } pcm
      rw [act, owed_of_exec hex]
      exact h.of_fields htr (by rw [hfsm])
    | tick i =>
      obtain ⟨f, hf⟩ := ha
      rw [act]
      by_cases ht : s.Ticks
      · obtain ⟨t, he⟩ := loopPass_ticks ht i
        have hrun := runTick_onRoad h s.nextClassifyAt (hf ▸ HeuristicClassifier.classify_label f)
        rw [he]
        exact hrun.of_fields rfl rfl
      · rw [loopPass_rests ht]
        exact h
    | abort reason =>
      rw [act, abort]
      split_ifs
      · exact h
      · rw [(fail_presses s s.audioSeconds reason).2]
        exact fail_onRoad h s.audioSeconds reason

/-- **`heuristic_holds`**: a call that the shipped classifier listens to keeps to `road`, whatever its thresholds
make of the features, however the Tier 2 jobs end and whenever; and from any report that it is on hold no menu read
is started, and at most one more key is pressed. -/
theorem heuristic_holds (callId : String) (settings : Settings) (cfg : FsmConfig) (goal sid : Option String)
    (as : List Act) (has : ∀ a ∈ as, a.Heuristic) :
    let s := Run.exec act (new callId settings cfg goal sid) as
    s.fsm.state ≠ .failed ∧
      (∀ t frm dst, .emit (.stateChanged t frm dst) ∈ s.trace → (frm, dst) ∈ road) ∧
      ∀ pre t frm post, s.trace = pre ++ .emit (.stateChanged t frm .onHold) :: post →
        (∀ j, .submit j ∈ post → j.kind = .probe) ∧ post.countP (·.presses) ≤ 1 := by
  intro s
  have h : OnRoad s.owed s := Run.exec_inv_of_forall act_onRoad as _ has
    ⟨by simp [new], by simp [new], fun _ => rfl, by simp [new, sinceHold], fun hs => absurd rfl hs⟩
  refine ⟨h.live, fun t frm dst he => h.road _ he, fun pre t frm post htr => ?_⟩
  have hsuf := suffix_sinceHold htr rfl
  refine ⟨fun j hj => ?_, ?_⟩
  · have hr := h.reads _ (hsuf.mem (List.mem_cons_of_mem _ hj))
    cases hk : j.kind with
    | menu => simp [Effect.reads, hk] at hr
    | probe => rfl
  · have hne : sinceHold s.trace ≠ [] := fun hn => by simp [hn] at hsuf
    have hle := ((List.sublist_cons_self _ _).trans hsuf.sublist).countP_le (p := fun e => e.presses)
    exact hle.trans ((Nat.le_add_right _ _).trans (h.keys hne))

/-- Half-second chunks, the tick each of them completes hearing these features, and what Tier 2 answers by then. -/
def hearing (fs : List (Features × Option Answer)) : List Act :=
  fs.flatMap fun p => [.move (.ingest (List.replicate 4000 0)),
    .move (.tick { cls := HeuristicClassifier.classify p.1, answer := p.2 })]

theorem hearing_heuristic (fs : List (Features × Option Answer)) : ∀ a ∈ hearing fs, a.Heuristic := by
  intro a ha
  obtain ⟨p, -, hp⟩ := List.mem_flatMap.1 ha
  rcases List.mem_cons.1 hp with rfl | hp
  · trivial
  · obtain rfl : a = _ := by simpa using hp
    exact ⟨p.1, rfl⟩

/-- A prompt, then music; the read of the prompt answers with a digit when the call is already on hold. -/
def lateKey : List (Features × Option Answer) :=
  let speech : Features := { emptyFeatures with rms := 1 / 10, quietFrac := 4 / 10, envCv := 8 / 10 }
  let music : Features := { emptyFeatures with rms := 1 / 10, quietFrac := 1 / 10, envCv := 3 / 10, mod4hz := 6 / 10 }
  List.replicate 9 (speech, none) ++ List.replicate 4 (music, none) ++
    [(music, some { menu := .ok ⟨some "2", ""⟩ })]

/-- The one key is pressed. -/
theorem lateKey_heuristic :
    let s := Run.exec act (new "CA1" {} {} none none) (hearing lateKey)
    (sinceHold s.trace).countP (·.presses) = 1 ∧ s.fsm.state ≠ .failed ∧
      ∀ t frm dst, .emit (.stateChanged t frm dst) ∈ s.trace → (frm, dst) ∈ road := by
  intro s
  have h := heuristic_holds "CA1" {} {} none none (hearing lateKey) (hearing_heuristic lateKey)
  exact ⟨by decide +kernel, h.1, h.2.1⟩

end AgentSession

end DialPass
