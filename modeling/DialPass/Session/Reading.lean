import DialPass.Session.Stages
import DialPass.State.Operations
/-!
# A confident frame in the menu (state.py:256-299, session.py:147-177)

`Hears` is one frame of a line that only talks or is silent: audio comes in until a tick is due, the tick hears
it, and a menu read, if one is started, comes back at once with nothing to press. From a session that waits in
IVR_MENU (`Waiting`), `hears_silence` and `hears_speech` say all that such a frame can do: end the wait, or go on,
with the gap and the deferred wake moved as `_on_ivr_menu` and `_run_tick` move them.
-/

namespace DialPass

namespace CallStateMachine

/-- The streak a confident frame counts as. -/
def runOf (m : CallStateMachine) (label : Label) : Nat := if m.streakLabel = some label then m.streak + 1 else 1

/-- The machine once a confident frame is counted. -/
def counted (m : CallStateMachine) (label : Label) : CallStateMachine :=
  { m with streakLabel := some label, streak := m.runOf label }

/-- Enough reads found nothing, and the frame has held long enough to leave the menu on (state.py:269-284). -/
def Ends (m : CallStateMachine) (frames : Nat) (label : Label) : Prop :=
  m.cfg.menuNoopsBeforeHold ≤ m.menuNoops ∧ frames ≤ m.runOf label

theorem streakFor_sure {m : CallStateMachine} {confidence : ℚ} (h : m.cfg.minConfidence ≤ confidence) (label : Label) :
    m.streakFor label confidence = (m.counted label, m.runOf label) := by
  unfold streakFor counted runOf
  rw [if_neg (not_lt.2 h)]
  split
  · rename_i hl; rw [← hl]
  · rfl

variable {m : CallStateMachine} {confidence now : ℚ}

theorem observe_menu (hst : m.state = .ivrMenu) (hconf : m.cfg.minConfidence ≤ confidence) {label : Label}
    (hl : label ∉ nonConnectLabels) (now : ℚ) :
    m.observe label confidence now = (m.counted label).onIvrMenu label (m.runOf label) now := by
  have hf : ¬ m.Fails label confidence := fun h => hl h.2.1
  rw [observe_of_not_fails hf, hst]
  simp only [streakWith, streakFor_sure hconf]

theorem observe_silence (hst : m.state = .ivrMenu) (hconf : m.cfg.minConfidence ≤ confidence)
    (hpast : m.menuRefractoryUntil ≤ now) :
    (m.Ends m.cfg.enterHoldFrames .silence ∧
      m.observe .silence confidence now = ((m.counted .silence).enter .onHold, .none)) ∨
    (¬ m.Ends m.cfg.enterHoldFrames .silence ∧ m.observe .silence confidence now =
      ({ m.counted .silence with
          menuGapSeen := decide (m.cfg.menuGapFrames ≤ m.runOf .silence) || m.menuGapSeen }, .none)) := by
  have hsp : Label.silence ∉ speechyLabels := by decide
  have hho : Label.silence ∈ holdLabels := by decide
  rw [observe_menu hst hconf (by decide)]
  by_cases he : m.Ends m.cfg.enterHoldFrames .silence
  · refine .inl ⟨he, ?_⟩
    rw [onIvrMenu, if_pos]
    exact .inr ⟨⟨he.1, hpast⟩, .inl ⟨hho, he.2⟩⟩
  · refine .inr ⟨he, ?_⟩
    have hn : ¬ (m.counted .silence).menuEnds .silence (m.runOf .silence) now := by
      rintro (⟨hl, -⟩ | ⟨⟨hn, -⟩, ⟨-, hk⟩ | ⟨hl, -⟩⟩)
      · cases hl
      · exact he ⟨hn, hk⟩
      · cases hl
    rw [onIvrMenu, if_neg hn]
    dsimp only
    rw [if_neg fun h => hsp h.1]
    by_cases hg : m.cfg.menuGapFrames ≤ m.runOf .silence
    · rw [if_pos ⟨hho, hg⟩]
      simp [hg]
    · rw [if_neg fun h => hg h.2]
      simp [hg, counted]

/-- A frame of speech asks for a read (state.py:289-298). -/
def Asks (m : CallStateMachine) : Prop :=
  m.menuGapSeen = true ∧ 2 ≤ m.runOf .liveSpeechCandidate ∧ m.menuPresses < m.cfg.maxMenuPresses

theorem observe_speech (hst : m.state = .ivrMenu) (hconf : m.cfg.minConfidence ≤ confidence)
    (hpast : m.menuRefractoryUntil ≤ now) :
    (m.Ends m.cfg.menuSpeechToHoldFrames .liveSpeechCandidate ∧
      m.observe .liveSpeechCandidate confidence now = ((m.counted .liveSpeechCandidate).enter .onHold, .none)) ∨
    (¬ m.Ends m.cfg.menuSpeechToHoldFrames .liveSpeechCandidate ∧ m.Asks ∧
      m.observe .liveSpeechCandidate confidence now =
        ({ m.counted .liveSpeechCandidate with menuGapSeen := false, menuWoken := true }, .wakeTier2Menu)) ∨
    (¬ m.Ends m.cfg.menuSpeechToHoldFrames .liveSpeechCandidate ∧ ¬ m.Asks ∧
      m.observe .liveSpeechCandidate confidence now = (m.counted .liveSpeechCandidate, .none)) := by
  have hsp : Label.liveSpeechCandidate ∈ speechyLabels := by decide
  have hho : Label.liveSpeechCandidate ∉ holdLabels := by decide
  rw [observe_menu hst hconf (by decide)]
  by_cases he : m.Ends m.cfg.menuSpeechToHoldFrames .liveSpeechCandidate
  · refine .inl ⟨he, ?_⟩
    rw [onIvrMenu, if_pos]
    exact .inr ⟨⟨he.1, hpast⟩, .inr ⟨rfl, he.2⟩⟩
  · have hn : ¬ (m.counted .liveSpeechCandidate).menuEnds .liveSpeechCandidate (m.runOf .liveSpeechCandidate) now := by
      rintro (⟨hl, -⟩ | ⟨⟨hn, -⟩, ⟨hl, -⟩ | ⟨-, hk⟩⟩)
      · cases hl
      · exact hho hl
      · exact he ⟨hn, hk⟩
    rw [onIvrMenu, if_neg hn]
    simp only [hho, false_and, if_false]
    by_cases ha : m.Asks
    · refine .inr (.inl ⟨he, ha, ?_⟩)
      rw [if_pos ⟨hsp, ha.1, hpast, ha.2.1, ha.2.2⟩]
    · refine .inr (.inr ⟨he, ha, ?_⟩)
      rw [if_neg fun h => ha ⟨h.2.1, h.2.2.2.1, h.2.2.2.2⟩]

end CallStateMachine

/-- Tier 2 answers at once, and finds nothing to press if it reads a menu. -/
def Tick.Abstains (i : Tick) : Prop := ∃ a d, i.answer = some a ∧ a.menu = .ok d ∧ d.presses = false

namespace AgentSession

/-- The next frame is `label`, heard with confidence: chunks come in while no tick is due, until one is. A session
that is over takes the audio and does nothing. -/
def Hears (label : Label) (s t : AgentSession) : Prop :=
  ∃ (chunks : List Pcm) (i : Tick),
    i.cls.label = label ∧ s.fsm.cfg.minConfidence ≤ i.cls.confidence ∧ i.Abstains ∧
      (∀ k < chunks.length, ¬ ((chunks.take k).foldl ingest s).Due) ∧
      (s.finished = false → (chunks.foldl ingest s).Due) ∧ t = (chunks.foldl ingest s).loopPass i

/-- In IVR_MENU, past the refractory time, with Tier 2 idle. -/
structure Waiting (s : AgentSession) : Prop where
  sound : Sound s
  live : s.finished = false
  state : s.fsm.state = .ivrMenu
  free : s.tier2Kind = none
  past : s.fsm.menuRefractoryUntil ≤ s.nextClassifyAt
  forward : 0 < s.settings.interval

/-- What has become of the deferred wake after the tick at `now`, and of the read it starts. -/
def Deferred (due : Option ℚ) (now : ℚ) (m : CallStateMachine) (t : AgentSession) : Prop :=
  (∃ d, due = some d ∧ d ≤ now ∧ t.menuWakeDue = none ∧ t.fsm = m.noteMenuAbstained) ∨
  ((∀ d, due = some d → now < d) ∧ t.menuWakeDue = due ∧ t.fsm = m)

variable {s t : AgentSession}

/-- Audio coming in moves the clock, and that only forward. -/
theorem ingest_eq (hi : 0 < s.settings.interval) (pcm : Pcm) :
    ∃ buffer samplesSeen nextClassifyAt, s.nextClassifyAt ≤ nextClassifyAt ∧
      s.ingest pcm = { s with buffer, samplesSeen, nextClassifyAt } := by
  unfold ingest
  split
  · exact ⟨s.buffer, s.samplesSeen, s.nextClassifyAt, le_rfl, rfl⟩
  · dsimp only
    split
    · rename_i hfar
      refine ⟨_, _, _, ?_, rfl⟩
      linarith
    · exact ⟨_, _, _, le_rfl, rfl⟩

theorem ingests_eq (chunks : List Pcm) (hi : 0 < s.settings.interval) :
    ∃ buffer samplesSeen nextClassifyAt, s.nextClassifyAt ≤ nextClassifyAt ∧
      chunks.foldl ingest s = { s with buffer, samplesSeen, nextClassifyAt } := by
  induction chunks generalizing s with
  | nil => exact ⟨s.buffer, s.samplesSeen, s.nextClassifyAt, le_rfl, rfl⟩
  | cons pcm chunks ih =>
    obtain ⟨b, n, c, hc, he⟩ := ingest_eq hi pcm
    obtain ⟨b', n', c', hc', he'⟩ := ih (s := s.ingest pcm) (by rw [he]; exact hi)
    refine ⟨b', n', c', ?_, ?_⟩
    · rw [he] at hc'
      exact hc.trans hc'
    · rw [List.foldl_cons, he', he]

theorem ingests_sound (chunks : List Pcm) (h : Sound s) : Sound (chunks.foldl ingest s) := by
  induction chunks generalizing s with
  | nil => exact h
  | cons pcm chunks ih => exact ih (ingest_sound h pcm)

theorem Deferred.congr {due : Option ℚ} {now : ℚ} {m : CallStateMachine} {t t' : AgentSession}
    (h : Deferred due now m t) (hd : t'.menuWakeDue = t.menuWakeDue) (hm : t'.fsm = t.fsm) : Deferred due now m t' := by
  rcases h with ⟨d, h1, h2, h3, h4⟩ | ⟨h1, h2, h3⟩
  · exact .inl ⟨d, h1, h2, hd.trans h3, hm.trans h4⟩
  · exact .inr ⟨h1, hd.trans h2, hm.trans h3⟩

/-- The FSM's half of a tick that asks for a menu read at most. -/
theorem observe_menuWake (s : AgentSession) (now : ℚ) (i : Tick)
    (hp : (s.fsm.observe i.cls.label i.cls.confidence now).2 = .none ∨
      (s.fsm.observe i.cls.label i.cls.confidence now).2 = .wakeTier2Menu) :
    ∃ trace, (s.classify now i.cls).observe now i =
      { s with
        fsm := (s.fsm.observe i.cls.label i.cls.confidence now).1
        menuWakeDue := if (s.fsm.observe i.cls.label i.cls.confidence now).2 = .wakeTier2Menu
          then some (now + s.settings.menuCollectS) else s.menuWakeDue
        trace } := by
  obtain ⟨frame, e, hc, -⟩ := s.classify_eq now i.cls
  rw [observe_eq, hc, moved_eq]
  rcases hp with hp | hp <;> rw [hp]
  · exact ⟨_, rfl⟩
  · exact ⟨_, rfl⟩

theorem applyMenu_abstains {d : MenuDecision} (h : d.presses = false) (s : AgentSession) (now : ℚ) :
    s.applyMenu d now = { s with fsm := s.fsm.noteMenuAbstained } := by
  simp [applyMenu, h]

/-- A menu job's answer goes to `_apply_menu`. -/
theorem pollTier2_menu {j : Job} {i : Tick} {a : Answer} {d : MenuDecision} (hk : s.tier2Kind = some .menu)
    (hf : s.exec.future = some j) (hj : j.kind = .menu) (ha : i.answer = some a) (hm : a.menu = .ok d) (now : ℚ) :
    s.pollTier2 now i = (s.taken j (.ok (.decision d))).applyMenu d now := by
  simp [pollTier2, hk, ThreadedExecutor.poll, hf, ha, Job.run, hj, hm, Except.map, applyResult, taken]

/-- The deferred wake and the poll of such a tick: the read that is started comes back. -/
theorem wakeMenu_pollTier2 (hs : Sound s) (hst : s.fsm.state = .ivrMenu) (hk : s.tier2Kind = none) (now : ℚ) {i : Tick}
    (hi : i.Abstains) :
    Deferred s.menuWakeDue now s.fsm ((s.wakeMenu now).pollTier2 now i) ∧
      ((s.wakeMenu now).pollTier2 now i).tier2Kind = none ∧
      ((s.wakeMenu now).pollTier2 now i).finished = s.finished ∧
      ((s.wakeMenu now).pollTier2 now i).settings = s.settings ∧
      ((s.wakeMenu now).pollTier2 now i).nextClassifyAt = s.nextClassifyAt := by
  cases hd : s.menuWakeDue with
  | none =>
    have hw : s.wakeMenu now = s := by simp [wakeMenu, hd]
    have hp : s.pollTier2 now i = s := by simp [pollTier2, hk]
    rw [hw, hp]
    exact ⟨.inr ⟨by simp, hd, rfl⟩, hk, rfl, rfl, rfl⟩
  | some d =>
    by_cases hle : d ≤ now
    · obtain ⟨a, dec, ha, hm, hdig⟩ := hi
      have hw : s.wakeMenu now = { s with menuWakeDue := none }.startMenu now := by
        simp [wakeMenu, hd, hle, hst, hk]
      have hp : ∃ exec trace, (s.wakeMenu now).pollTier2 now i =
          { s with menuWakeDue := none, tier2Kind := none, exec, trace, fsm := s.fsm.noteMenuAbstained } := by
        rw [hw, startMenu_eq (by exact hs.opened), pollTier2_menu rfl rfl rfl ha hm, applyMenu_abstains hdig]
        exact ⟨_, _, rfl⟩
      obtain ⟨exec, trace, hp⟩ := hp
      rw [hp]
      exact ⟨.inl ⟨d, rfl, hle, rfl, rfl⟩, rfl, rfl, rfl, rfl⟩
    · have hw : s.wakeMenu now = s := by simp [wakeMenu, hd, hle]
      have hp : s.pollTier2 now i = s := by simp [pollTier2, hk]
      rw [hw, hp]
      exact ⟨.inr ⟨fun e he => by cases he; exact not_le.1 hle, hd, rfl⟩, hk, rfl, rfl, rfl⟩

/-- One frame, by what the machine makes of it: it leaves the menu, or it stays and asks for a read at most. -/
theorem hears_tick (hw : Waiting s) {label : Label} (hh : Hears label s t) :
    ∃ confidence now, s.fsm.cfg.minConfidence ≤ confidence ∧ s.nextClassifyAt ≤ now ∧
      ∀ m action, s.fsm.observe label confidence now = (m, action) → (action = .none ∨ action = .wakeTier2Menu) →
        (m.state = .onHold → t.fsm.state = .onHold) ∧
        (m.state = .ivrMenu → Sound t ∧ t.tier2Kind = none ∧ t.finished = false ∧ t.settings = s.settings ∧
          t.nextClassifyAt = now + s.settings.interval ∧
          Deferred (if action = .wakeTier2Menu then some (now + s.settings.menuCollectS) else s.menuWakeDue) now m t) := by
  obtain ⟨chunks, i, rfl, hconf, hi, -, hdue, rfl⟩ := hh
  have hus : Sound (chunks.foldl ingest s) := ingests_sound chunks hw.sound
  obtain ⟨buffer, samples, now, hnow, hu⟩ := ingests_eq chunks hw.forward
  have hd : (chunks.foldl ingest s).Due := hdue hw.live
  have hts := loopPass_sound hus i
  refine ⟨i.cls.confidence, now, hconf, hnow, fun m action hp hact => ?_⟩
  rw [loopPass_due hus hd, runTick_eq hus] at hts ⊢
  have hos := observe_sound (classify_sound hus now i.cls) now i
  obtain ⟨trace, ho⟩ := observe_menuWake (chunks.foldl ingest s) now i (by rw [hu]; exact hp ▸ hact)
  rw [hu] at ho hos hts ⊢
  dsimp only at ho hts ⊢
  rw [hp] at ho
  rw [ho] at hos hts ⊢
  constructor
  · intro hm
    -- the machine is away from the menu, so a wake that is due is dropped
    set v : AgentSession := { s with buffer, samplesSeen := samples, nextClassifyAt := now, fsm := m, trace,
                                     menuWakeDue := if action = .wakeTier2Menu
                                       then some (now + s.settings.menuCollectS) else s.menuWakeDue }
    have hk : (v.wakeMenu now).tier2Kind = none := by
      rcases wakeMenu_cases v now with ⟨due, he⟩ | ⟨hivr, -⟩
      · rw [he]; exact hw.free
      · rw [hm] at hivr; cases hivr
    have hpoll : (v.wakeMenu now).pollTier2 now i = v.wakeMenu now := by simp [pollTier2, hk]
    rw [hpoll, wakeMenu_state hos]
    exact hm
  · intro hm
    obtain ⟨hdef, hk, hf, hset, hnext⟩ := wakeMenu_pollTier2 hos hm hw.free now hi
    refine ⟨hts, hk, hf.trans hw.live, hset, ?_, hdef.congr rfl rfl⟩
    rw [hnext]

/-- A session that is over hears nothing any more. -/
theorem hears_over (hf : s.finished = true) {label : Label} (hh : Hears label s t) : t = s := by
  obtain ⟨chunks, i, -, -, -, -, -, rfl⟩ := hh
  have hc : chunks.foldl ingest s = s := by
    induction chunks with
    | nil => rfl
    | cons pcm chunks ih => rw [List.foldl_cons, ingest, if_pos hf, ih]
  rw [hc, loopPass_idle fun hd => by rw [hd.1] at hf; cases hf]

/-- Enough audio makes a tick due. -/
theorem ingest_due (hi : 0 < s.settings.interval) (hf : s.finished = false) : ∃ pcm, (s.ingest pcm).Due := by
  refine ⟨List.replicate ⌈s.nextClassifyAt * sampleRate⌉₊ 0, ?_⟩
  have hceil : s.nextClassifyAt * sampleRate ≤ ⌈s.nextClassifyAt * sampleRate⌉₊ := Nat.le_ceil _
  have hrate : (0 : ℚ) < sampleRate := by norm_num [sampleRate]
  have hheard : s.nextClassifyAt ≤ (s.samplesSeen + ⌈s.nextClassifyAt * sampleRate⌉₊ : ℚ) / sampleRate := by
    rw [le_div_iff₀ hrate]
    have : (0 : ℚ) ≤ s.samplesSeen := Nat.cast_nonneg _
    linarith
  unfold ingest
  rw [if_neg (by rw [hf]; exact nofun)]
  simp only [List.length_replicate]
  split
  · refine ⟨hf, ?_⟩
    simp only [audioSeconds]
    linarith
  · refine ⟨hf, ?_⟩
    simp only [audioSeconds]
    push_cast
    exact hheard

/-- The line can always go on. -/
theorem hears_exists (hi : 0 < s.settings.interval) (label : Label) : ∃ t, Hears label s t := by
  set i : Tick := { cls := { label, confidence := s.fsm.cfg.minConfidence }, answer := some {} }
  have hab : i.Abstains := ⟨{}, _, rfl, rfl, rfl⟩
  by_cases hs : s.finished = true ∨ s.Due
  · refine ⟨_, [], i, rfl, le_rfl, hab, nofun, fun hf => ?_, rfl⟩
    exact hs.resolve_left (by rw [hf]; exact nofun)
  · obtain ⟨hf, hd⟩ := not_or.1 hs
    obtain ⟨pcm, hdue⟩ := ingest_due hi (Bool.not_eq_true _ ▸ hf)
    refine ⟨_, [pcm], i, rfl, le_rfl, hab, fun k hk => ?_, fun _ => hdue, rfl⟩
    obtain rfl : k = 0 := Nat.lt_one_iff.1 hk
    exact hd

/-- A frame that leaves the session waiting: the streak grows, and the deferred wake `due` is started, with nothing
to press, or still to come. -/
structure Heard (label : Label) (gap : Bool) (due : Option ℚ) (now : ℚ) (s t : AgentSession) : Prop where
  waiting : Waiting t
  settings : t.settings = s.settings
  cfg : t.fsm.cfg = s.fsm.cfg
  presses : t.fsm.menuPresses = s.fsm.menuPresses
  streakLabel : t.fsm.streakLabel = some label
  streak : t.fsm.streak = s.fsm.runOf label
  gapSeen : t.fsm.menuGapSeen = gap
  next : t.nextClassifyAt = now + s.settings.interval
  wake : (∃ d, due = some d ∧ d ≤ now ∧ t.menuWakeDue = none ∧ t.fsm.menuNoops = s.fsm.menuNoops + 1) ∨
    ((∀ d, due = some d → now < d) ∧ t.menuWakeDue = due ∧ t.fsm.menuNoops = s.fsm.menuNoops)

theorem heard_of {label : Label} {due : Option ℚ} {now : ℚ} (hw : Waiting s) (hnow : s.nextClassifyAt ≤ now)
    {gap woken : Bool} (hs : Sound t) (hk : t.tier2Kind = none) (hf : t.finished = false)
    (hset : t.settings = s.settings) (hnext : t.nextClassifyAt = now + s.settings.interval)
    (hd : Deferred due now { s.fsm.counted label with menuGapSeen := gap, menuWoken := woken } t) :
    Heard label gap due now s t := by
  have hi := hw.forward
  have hpast := hw.past
  obtain ⟨noops, hm, hwake⟩ : ∃ noops,
      t.fsm = { s.fsm.counted label with menuGapSeen := gap, menuWoken := woken, menuNoops := noops } ∧
      ((∃ d, due = some d ∧ d ≤ now ∧ t.menuWakeDue = none ∧ noops = s.fsm.menuNoops + 1) ∨
        ((∀ d, due = some d → now < d) ∧ t.menuWakeDue = due ∧ noops = s.fsm.menuNoops)) := by
    rcases hd with ⟨d, hdue, hle, hnone, hm⟩ | ⟨hlt, hsame, hm⟩
    · rw [CallStateMachine.noteMenuAbstained, if_pos (by exact hw.state)] at hm
      exact ⟨_, hm, .inl ⟨d, hdue, hle, hnone, rfl⟩⟩
    · exact ⟨_, hm, .inr ⟨hlt, hsame, rfl⟩⟩
  have hst : t.fsm.state = .ivrMenu := (congrArg CallStateMachine.state hm).trans hw.state
  refine ⟨⟨hs, hf, hst, hk, ?_, by rw [hset]; exact hi⟩, hset, congrArg (·.cfg) hm, congrArg (·.menuPresses) hm,
    congrArg (·.streakLabel) hm, congrArg (·.streak) hm, congrArg (·.menuGapSeen) hm, hnext, ?_⟩
  · rw [hm, hnext]
    exact (hpast.trans hnow).trans (by linarith)
  · rw [hm]
    exact hwake

/-- A frame of silence. -/
theorem hears_silence (hw : Waiting s) (hh : Hears .silence s t) :
    (s.fsm.Ends s.fsm.cfg.enterHoldFrames .silence ∧ t.fsm.state = .onHold) ∨
    ¬ s.fsm.Ends s.fsm.cfg.enterHoldFrames .silence ∧ ∃ now, s.nextClassifyAt ≤ now ∧
      Heard .silence (decide (s.fsm.cfg.menuGapFrames ≤ s.fsm.runOf .silence) || s.fsm.menuGapSeen)
        s.menuWakeDue now s t := by
  obtain ⟨confidence, now, hconf, hnow, htick⟩ := hears_tick hw hh
  rcases CallStateMachine.observe_silence hw.state hconf (hw.past.trans hnow) with ⟨he, ho⟩ | ⟨he, ho⟩
  · exact .inl ⟨he, (htick _ _ ho (.inl rfl)).1 rfl⟩
  · obtain ⟨hs, hk, hf, hset, hnext, hd⟩ := (htick _ _ ho (.inl rfl)).2 hw.state
    exact .inr ⟨he, now, hnow, heard_of hw hnow hs hk hf hset hnext hd⟩

/-- A frame of speech. -/
theorem hears_speech (hw : Waiting s) (hh : Hears .liveSpeechCandidate s t) :
    (s.fsm.Ends s.fsm.cfg.menuSpeechToHoldFrames .liveSpeechCandidate ∧ t.fsm.state = .onHold) ∨
    ¬ s.fsm.Ends s.fsm.cfg.menuSpeechToHoldFrames .liveSpeechCandidate ∧ ∃ now, s.nextClassifyAt ≤ now ∧
      ((s.fsm.Asks ∧
          Heard .liveSpeechCandidate false (some (now + s.settings.menuCollectS)) now s t) ∨
       (¬ s.fsm.Asks ∧ Heard .liveSpeechCandidate s.fsm.menuGapSeen s.menuWakeDue now s t)) := by
  obtain ⟨confidence, now, hconf, hnow, htick⟩ := hears_tick hw hh
  rcases CallStateMachine.observe_speech hw.state hconf (hw.past.trans hnow) with ⟨he, ho⟩ | ⟨he, ha, ho⟩ | ⟨he, ha, ho⟩
  · exact .inl ⟨he, (htick _ _ ho (.inl rfl)).1 rfl⟩
  · obtain ⟨hs, hk, hf, hset, hnext, hd⟩ := (htick _ _ ho (.inr rfl)).2 hw.state
    exact .inr ⟨he, now, hnow, .inl ⟨ha, heard_of hw hnow hs hk hf hset hnext hd⟩⟩
  · obtain ⟨hs, hk, hf, hset, hnext, hd⟩ := (htick _ _ ho (.inl rfl)).2 hw.state
    exact .inr ⟨he, now, hnow, .inr ⟨ha, heard_of hw hnow hs hk hf hset hnext hd⟩⟩

end AgentSession

end DialPass
