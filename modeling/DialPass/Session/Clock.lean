import DialPass.Session.Life
/-!
# The classifier's clock (session.py:118-147)

`feed_audio` runs a tick for every interval the audio has reached. `Still s t` says that what a session does
from `s` to `t` leaves the audio and the clock as they are: nothing is classified, and Tier 2 is handed the
buffer. `runTick_still` is the whole of it: a tick classifies once, and the rest of it is still.

`OnTime` is what the loop and the skip-ahead both keep of the clock. `foldl_loopPass` bounds a call: with the
audio less than `n` intervals past the next tick, the loop runs no more than `n` times, and ends.
-/

namespace DialPass

/-- The window an effect classifies. -/
def Effect.frame : Effect → Option Frame
  | .classify f => some f
  | _ => none

/-- The windows classified, in order. -/
def framesOf (tr : List Effect) : List Frame := tr.filterMap Effect.frame

@[simp] theorem framesOf_append (tr es : List Effect) : framesOf (tr ++ es) = framesOf tr ++ framesOf es :=
  List.filterMap_append

/-- It classifies nothing, and hands Tier 2 no audio but `snap`. -/
def Effect.Keeps (snap : Pcm) : Effect → Prop
  | .classify _ => False
  | .submit j => j.snap = snap
  | _ => True

theorem Effect.Keeps.frame {snap : Pcm} {e : Effect} (h : e.Keeps snap) : e.frame = none := by
  cases e with
  | classify f => exact h.elim
  | _ => rfl

theorem framesOf_keeps {snap : Pcm} {es : List Effect} (h : ∀ e ∈ es, e.Keeps snap) : framesOf es = [] :=
  List.filterMap_eq_nil_iff.2 fun e he => (h e he).frame

namespace CallStateMachine

/-! ## One observation is one frame of a streak -/

@[simp] theorem enter_streak (m : CallStateMachine) (st : CallState) : (m.enter st).streak = 0 := by
  unfold enter; dsimp only; split <;> rfl

theorem streakFor_streak_le (m : CallStateMachine) (label : Label) (confidence : ℚ) :
    (m.streakFor label confidence).1.streak ≤ m.streak + 1 := by
  unfold streakFor
  split
  · exact Nat.le_succ _
  · split
    · exact le_rfl
    · exact Nat.succ_le_succ (Nat.zero_le _)

theorem onDialing_streak_le (m : CallStateMachine) (label : Label) (n : Nat) :
    (m.onDialing label n).1.streak ≤ m.streak := by
  unfold onDialing
  split
  · simp
  · split <;> simp

theorem onIvrMenu_streak_le (m : CallStateMachine) (label : Label) (n : Nat) (now : ℚ) :
    (m.onIvrMenu label n now).1.streak ≤ m.streak := by
  unfold onIvrMenu
  split
  · simp
  · dsimp only
    split <;> split <;> exact le_rfl

theorem onOnHold_streak_le (m : CallStateMachine) (label : Label) (n : Nat) (now : ℚ) :
    (m.onOnHold label n now).1.streak ≤ m.streak := by
  unfold onOnHold
  split
  · simp
  · split <;> simp

theorem onEvaluatingSpeech_streak_le (m : CallStateMachine) (label : Label) (n : Nat) (now : ℚ) :
    (m.onEvaluatingSpeech label n now).1.streak ≤ m.streak := by
  unfold onEvaluatingSpeech
  split <;> simp [fallBackToHold]

theorem observe_streak_le (m : CallStateMachine) (label : Label) (confidence now : ℚ) :
    (m.observe label confidence now).1.streak ≤ m.streak + 1 := by
  have hs := m.streakFor_streak_le label confidence
  unfold observe
  generalize m.streakFor label confidence = p at hs ⊢
  obtain ⟨m', n⟩ := p
  dsimp only at hs ⊢
  split
  · simp
  · split
    · exact (m'.onDialing_streak_le label n).trans hs
    · exact (m'.onIvrMenu_streak_le label n now).trans hs
    · exact (m'.onOnHold_streak_le label n now).trans hs
    · exact (m'.onEvaluatingSpeech_streak_le label n now).trans hs
    · exact hs

theorem probeResult_streak_le (m : CallStateMachine) (isHuman : Bool) (now : ℚ) :
    (m.probeResult isHuman now).1.streak ≤ m.streak := by
  unfold probeResult
  split
  · exact le_rfl
  · split <;> simp [fallBackToHold]

theorem bridged_streak_le (m : CallStateMachine) : m.bridged.streak ≤ m.streak := by
  unfold bridged
  split <;> simp

@[simp] theorem noteMenuAction_streak (m : CallStateMachine) (now : ℚ) :
    (m.noteMenuAction now).streak = m.streak := by
  unfold noteMenuAction; split <;> rfl

@[simp] theorem noteMenuAbstained_streak (m : CallStateMachine) : m.noteMenuAbstained.streak = m.streak := by
  unfold noteMenuAbstained; split <;> rfl

end CallStateMachine

namespace AgentSession

open CallStateMachine

/-! ## What a tick leaves alone -/

/-- From `s` to `t` the audio and its clock stay as they are, and no streak grows. -/
structure Still (s t : AgentSession) : Prop where
  settings : t.settings = s.settings
  buffer : t.buffer = s.buffer
  samplesSeen : t.samplesSeen = s.samplesSeen
  clock : t.nextClassifyAt = s.nextClassifyAt
  streak : t.fsm.streak ≤ s.fsm.streak
  trace : ∃ es, t.trace = s.trace ++ es ∧ ∀ e ∈ es, e.Keeps s.buffer.snapshot

variable {s t u : AgentSession} {m n : Nat}

theorem Still.refl (s : AgentSession) : Still s s := ⟨rfl, rfl, rfl, rfl, le_rfl, [], by simp, by simp⟩

theorem Still.trans (h : Still s t) (h' : Still t u) : Still s u := by
  obtain ⟨es, htr, hes⟩ := h.trace
  obtain ⟨fs, htr', hfs⟩ := h'.trace
  rw [h.buffer] at hfs
  refine ⟨h'.settings.trans h.settings, h'.buffer.trans h.buffer, h'.samplesSeen.trans h.samplesSeen,
    h'.clock.trans h.clock, h'.streak.trans h.streak, es ++ fs, by rw [htr', htr, List.append_assoc], fun e he => ?_⟩
  rcases List.mem_append.1 he with he | he
  · exact hes e he
  · exact hfs e he

theorem log_still (s : AgentSession) (e : Effect) (h : e.Keeps s.buffer.snapshot) : Still s (s.log e) :=
  ⟨rfl, rfl, rfl, rfl, le_rfl, [e], rfl, by simpa using h⟩

/-- The fields a tick is free to change. -/
theorem fields_still (s : AgentSession) (exec : ThreadedExecutor) (tier2Kind : Option Tier2Kind)
    (finished : Bool) (menuWakeDue : Option ℚ) (crashed : Bool) :
    Still s { s with exec, tier2Kind, finished, menuWakeDue, crashed } :=
  ⟨rfl, rfl, rfl, rfl, le_rfl, [], by simp, by simp⟩

theorem fsm_still (s : AgentSession) {fsm : CallStateMachine} (h : fsm.streak ≤ s.fsm.streak) :
    Still s { s with fsm } :=
  ⟨rfl, rfl, rfl, rfl, h, [], by simp, by simp⟩

theorem emitStateChange_still (s : AgentSession) (before : CallState) (now : ℚ) :
    Still s (s.emitStateChange before now) := by
  unfold emitStateChange
  split
  · exact log_still s _ trivial
  · exact .refl s

theorem moved_still (s : AgentSession) (fsm : CallStateMachine) (h : fsm.streak ≤ s.fsm.streak) (now : ℚ) :
    Still s (s.moved fsm now) :=
  (fsm_still s h).trans (emitStateChange_still _ _ now)

theorem fail_still (s : AgentSession) (now : ℚ) (reason : String) : Still s (s.fail now reason) := by
  rw [fail_eq]
  exact ⟨rfl, rfl, rfl, rfl, le_rfl, _, rfl, by simp [Effect.Keeps]⟩

theorem submit_still (s : AgentSession) (j : Job) (h : j.snap = s.buffer.snapshot) : Still s (s.submit j) := by
  unfold submit
  split
  · exact (fields_still s _ _ _ _ _).trans (log_still _ (.submit j) h)
  · exact fields_still s _ _ _ _ _

theorem startMenu_still (s : AgentSession) (now : ℚ) : Still s (s.startMenu now) := by
  refine (log_still s (.emit (.tier2Woken now .menu)) trivial).trans (Still.trans ?_ (submit_still _ _ rfl))
  exact fields_still _ _ (some .menu) _ _ _

theorem startProbe_still (s : AgentSession) (now : ℚ) : Still s (s.startProbe now) := by
  refine (log_still s (.emit (.tier2Woken now .probe)) trivial).trans (Still.trans ?_ (submit_still _ _ rfl))
  exact fields_still _ _ (some .probe) _ _ _

theorem bridge_still (s : AgentSession) (now : ℚ) (reply : BridgeReply) : Still s (s.bridge now reply) := by
  have h0 : Still s ((s.emit (.humanDetected now)).log .onBridge) :=
    (log_still s _ (by trivial)).trans (log_still _ _ (by trivial))
  unfold bridge
  dsimp only
  generalize (s.emit (.humanDetected now)).log .onBridge = t at h0 ⊢
  cases reply with
  | unavailable reason => exact h0.trans (fail_still t now reason)
  | raised => exact h0.trans (fail_still t now _)
  | ok =>
    have h1 := h0.trans (moved_still t _ t.fsm.bridged_streak_le now)
    have h2 := h1.trans (log_still (t.moved t.fsm.bridged now) (.emit (.bridgeStarted now)) trivial)
    have h3 := h2.trans (moved_still _ (t.moved t.fsm.bridged now).fsm.completed (by exact le_rfl) now)
    have h4 := h3.trans (log_still _ (.emit (.callCompleted now "human_bridged")) trivial)
    exact h4.trans (fields_still _ _ _ true _ _)

theorem dispatch_still (s : AgentSession) (action : Action) (now : ℚ) (reply : BridgeReply) :
    Still s (s.dispatch action now reply) := by
  cases action with
  | none => exact .refl s
  | wakeTier2Menu => exact fields_still s _ _ _ _ _
  | wakeTier2Probe =>
    simp only [dispatch]
    split
    · exact startProbe_still s now
    · exact .refl s
  | bridge => exact bridge_still s now reply
  | fail => exact fail_still s now _

theorem wakeMenu_still (s : AgentSession) (now : ℚ) : Still s (s.wakeMenu now) := by
  rcases wakeMenu_cases s now with ⟨due, he⟩ | ⟨-, -, he⟩ <;> rw [he]
  · exact fields_still s _ _ _ _ _
  · exact (fields_still s _ _ _ none _).trans (startMenu_still _ now)

theorem applyMenu_still (s : AgentSession) (d : MenuDecision) (now : ℚ) : Still s (s.applyMenu d now) := by
  unfold applyMenu
  split
  · rename_i digits _ _
    exact (log_still s (.dtmfSender digits) trivial).trans
      ((log_still _ (.emit (.dtmfSent now digits)) trivial).trans (fsm_still _ (noteMenuAction_streak _ now).le))
  · exact fsm_still s (noteMenuAbstained_streak _).le

theorem applyProbe_still (s : AgentSession) (o : ProbeOutcome) (now : ℚ) (reply : BridgeReply) :
    Still s (s.applyProbe o now reply) := by
  rw [applyProbe_eq]
  have h := log_still s (.emit (.probeResult now o.isHuman)) trivial
  have hm := moved_still (s.emit (.probeResult now o.isHuman)) _ (s.fsm.probeResult_streak_le o.isHuman now) now
  exact h.trans (hm.trans (dispatch_still _ _ now reply))

theorem applyResult_still (s : AgentSession) (kind : Tier2Kind) (r : Tier2Result) (now : ℚ)
    (reply : BridgeReply) : Still s (s.applyResult kind r now reply) := by
  cases r with
  | error e =>
    rcases tier2Failed_outcome s kind e now with ⟨-, he⟩ | ⟨-, reason, he⟩
    · simpa only [applyResult, he] using Still.refl s
    · simpa only [applyResult, he] using fail_still s now reason
  | ok v =>
    cases kind <;> cases v
    · exact applyMenu_still s _ now
    · exact fields_still s _ _ _ _ _
    · exact fields_still s _ _ _ _ _
    · exact applyProbe_still s _ now reply

theorem pollTier2_still (s : AgentSession) (now : ℚ) (i : Tick) : Still s (s.pollTier2 now i) := by
  unfold pollTier2
  cases s.tier2Kind with
  | none => exact .refl s
  | some kind =>
    obtain ⟨exec, out⟩ := s.exec.poll i.answer
    cases out with
    | none => exact .refl s
    | some jr =>
      have h := (fields_still s exec none s.finished s.menuWakeDue s.crashed).trans
        (log_still _ (.polled jr.1 jr.2) trivial)
      exact h.trans (applyResult_still _ kind jr.2 now i.onBridge)

/-- The window a tick classifies. -/
def window (s : AgentSession) : Pcm := s.buffer.tail s.settings.classifyWindowMs

/-- The session once a tick has classified its window and the machine has observed it. -/
def heard (s : AgentSession) (now : ℚ) (i : Tick) : AgentSession :=
  { s with
    fsm := (s.fsm.observe i.cls.label i.cls.confidence now).1
    trace := s.trace ++ [.classify { pcm := s.window, sampleRate, tStart := now }] }

/-- **A tick classifies once, and the machine observes it once**; the rest of the tick is still. -/
theorem runTick_still (s : AgentSession) (now : ℚ) (i : Tick) : Still (s.heard now i) (s.runTick now i) := by
  have ho : Still (s.heard now i) ((s.classify now i.cls).observe now i) := by
    rw [observe_eq]
    have hc : ∀ features, Still (s.heard now i) ((s.heard now i).log
        (.emit (.frameClassified now i.cls.label (pyRound i.cls.confidence 3) features))) :=
      fun features => log_still (s.heard now i) _ trivial
    exact (hc _).trans ((emitStateChange_still _ _ now).trans (dispatch_still _ _ now _))
  unfold runTick
  dsimp only
  split
  · exact ho
  · split
    · exact ho.trans (wakeMenu_still _ now)
    · exact (ho.trans (wakeMenu_still _ now)).trans (pollTier2_still _ now i)

/-! ## The loop -/

/-- The windows of the next `n` ticks, if no audio comes in between. -/
def upcoming (s : AgentSession) (n : Nat) : List Frame :=
  (List.range n).map fun k : Nat =>
    { pcm := s.window, sampleRate, tStart := s.nextClassifyAt + k * s.settings.interval }

@[simp] theorem upcoming_length (s : AgentSession) (n : Nat) : (s.upcoming n).length = n := by simp [upcoming]

/-- Passes of the loop that have taken `n` ticks. -/
structure Passed (s t : AgentSession) (n : Nat) : Prop where
  settings : t.settings = s.settings
  buffer : t.buffer = s.buffer
  samplesSeen : t.samplesSeen = s.samplesSeen
  clock : t.nextClassifyAt = s.nextClassifyAt + n * s.settings.interval ∨ t.crashed = true
  due : ∀ k < n, s.nextClassifyAt + k * s.settings.interval ≤ s.audioSeconds
  streak : t.fsm.streak ≤ s.fsm.streak + n
  frames : framesOf t.trace = framesOf s.trace ++ s.upcoming n

theorem Passed.refl (s : AgentSession) : Passed s s 0 :=
  ⟨rfl, rfl, rfl, .inl (by simp), by simp, le_rfl, by simp [upcoming]⟩

theorem Passed.audioSeconds (h : Passed s t n) : t.audioSeconds = s.audioSeconds := by
  unfold AgentSession.audioSeconds; rw [h.samplesSeen]

theorem Passed.window (h : Passed s t n) : t.window = s.window := by
  unfold AgentSession.window; rw [h.buffer, h.settings]

theorem Passed.trans (h : Passed s t m) (h' : Passed t u n) (hc : t.crashed = false) : Passed s u (m + n) := by
  have hk : t.nextClassifyAt = s.nextClassifyAt + m * s.settings.interval :=
    h.clock.resolve_right (by simp [hc])
  have hk' : ∀ j : Nat, t.nextClassifyAt + j * t.settings.interval =
      s.nextClassifyAt + ((m + j : Nat) : ℚ) * s.settings.interval := fun j => by
    rw [hk, h.settings, Nat.cast_add]; ring
  refine ⟨h'.settings.trans h.settings, h'.buffer.trans h.buffer, h'.samplesSeen.trans h.samplesSeen,
    ?_, fun k hkn => ?_, ?_, ?_⟩
  · exact h'.clock.imp_left fun hk'' => hk''.trans (hk' n)
  · by_cases hkm : k < m
    · exact h.due k hkm
    · have hd := h'.due (k - m) (by omega)
      rwa [hk', h.audioSeconds, Nat.add_sub_cancel' (not_lt.1 hkm)] at hd
  · have h1 := h.streak
    have h2 := h'.streak
    omega
  · rw [h'.frames, h.frames, List.append_assoc, upcoming, upcoming, upcoming, List.range_add, List.map_append,
      List.map_map, h.window]
    simp only [hk', Function.comp_def]

/-- A pass that takes its tick classifies the window at the time it is due. -/
theorem loopPass_passed (h : s.Ticks) (i : Tick) : Passed s (s.loopPass i) 1 := by
  have ht := s.runTick_still s.nextClassifyAt i
  have hstreak := ht.streak.trans (s.fsm.observe_streak_le i.cls.label i.cls.confidence s.nextClassifyAt)
  have hdue : ∀ k < 1, s.nextClassifyAt + (k : Nat) * s.settings.interval ≤ s.audioSeconds := by
    simpa using h.1.2
  obtain ⟨es, htr, hes⟩ := ht.trace
  have hfr : framesOf (s.runTick s.nextClassifyAt i).trace = framesOf s.trace ++ s.upcoming 1 := by
    rw [htr, framesOf_append, framesOf_keeps hes, List.append_nil]
    simp [heard, framesOf, Effect.frame, upcoming]
  unfold loopPass
  rw [if_neg (by simp [h.1.1, h.2, h.1.2])]
  dsimp only
  split
  · rename_i hc
    exact ⟨ht.settings, ht.buffer, ht.samplesSeen, .inr hc, hdue, hstreak, hfr⟩
  · refine ⟨ht.settings, ht.buffer, ht.samplesSeen, .inl ?_, hdue, hstreak, hfr⟩
    show (s.runTick s.nextClassifyAt i).nextClassifyAt + _ = _
    rw [ht.clock]
    simp [heard]

theorem foldl_loopPass_rests (h : ¬ s.Ticks) (ticks : List Tick) : ticks.foldl loopPass s = s := by
  induction ticks with
  | nil => rfl
  | cons i is ih => rw [List.foldl_cons, loopPass_rests h i, ih]

/-- A tick is due, so there is room for one. -/
theorem Ticks.room (h : s.Ticks) (hn : s.audioSeconds < s.nextClassifyAt + n * s.settings.interval) :
    ∃ k, n = k + 1 :=
  Nat.exists_eq_succ_of_ne_zero fun h0 => by
    rw [h0, Nat.cast_zero, zero_mul, add_zero] at hn
    exact absurd h.1.2 (not_le.2 hn)

/-- **The loop is bounded**: with the audio less than `n` intervals past the next tick it takes at most `n`
ticks, and as many answers end it. -/
theorem foldl_loopPass (ticks : List Tick) (n : Nat)
    (hn : s.audioSeconds < s.nextClassifyAt + n * s.settings.interval) :
    (∃ k ≤ n, Passed s (ticks.foldl loopPass s) k) ∧ ((ticks.foldl loopPass s).Ticks → ticks.length < n) := by
  induction ticks generalizing s n with
  | nil =>
    refine ⟨⟨0, Nat.zero_le _, .refl s⟩, fun ht => ?_⟩
    obtain ⟨k, rfl⟩ := ht.room hn
    exact Nat.succ_pos k
  | cons i is ih =>
    by_cases ht : s.Ticks
    · have hp := loopPass_passed ht i
      obtain ⟨k, rfl⟩ := ht.room hn
      rw [List.foldl_cons]
      by_cases hc : (s.loopPass i).crashed = true
      · have hr : ¬ (s.loopPass i).Ticks := by simp [Ticks, hc]
        rw [foldl_loopPass_rests hr]
        exact ⟨⟨1, Nat.succ_le_succ (Nat.zero_le k), hp⟩, fun h => absurd h hr⟩
      · have hk := hp.clock.resolve_right hc
        rw [Bool.not_eq_true] at hc
        have hn' : (s.loopPass i).audioSeconds <
            (s.loopPass i).nextClassifyAt + k * (s.loopPass i).settings.interval := by
          rw [hp.audioSeconds, hk, hp.settings]
          rw [Nat.cast_add] at hn
          linarith
        obtain ⟨⟨j, hj, hpj⟩, hend⟩ := ih k hn'
        refine ⟨⟨1 + j, by omega, hp.trans hpj hc⟩, fun h => ?_⟩
        exact Nat.succ_lt_succ (hend h)
    · rw [foldl_loopPass_rests ht]
      exact ⟨⟨0, Nat.zero_le _, .refl s⟩, fun h => absurd h ht⟩

/-! ## Catching up -/

/-- A finished session hears nothing (session.py:125). -/
theorem feedAudio_finished (hf : s.finished = true) (pcm : Pcm) (ticks : List Tick) : s.feedAudio pcm ticks = s := by
  have hing : s.ingest pcm = s := by simp [ingest, hf]
  rw [feedAudio, hing]
  exact foldl_loopPass_rests (by simp [Ticks, Due, hf]) ticks

theorem ingest_settings (s : AgentSession) (pcm : Pcm) : (s.ingest pcm).settings = s.settings := by
  unfold ingest
  split
  · rfl
  · dsimp only
    split <;> rfl

theorem ingest_audioSeconds (hf : s.finished = false) (pcm : Pcm) :
    (s.ingest pcm).audioSeconds = s.audioSeconds + pcm.length / sampleRate := by
  unfold ingest audioSeconds
  rw [if_neg (by simp [hf])]
  dsimp only
  split <;> (push_cast; ring)

/-- Not far behind: the next tick stays. -/
theorem ingest_near (hf : s.finished = false) {pcm : Pcm}
    (h : (s.ingest pcm).audioSeconds ≤ s.nextClassifyAt + 3 * s.settings.interval) :
    (s.ingest pcm).nextClassifyAt = s.nextClassifyAt := by
  rw [ingest_audioSeconds hf] at h
  unfold ingest
  rw [if_neg (by simp [hf])]
  dsimp only
  rw [if_neg]
  rw [not_lt, audioSeconds]
  rw [audioSeconds] at h
  push_cast
  rw [add_div]
  linarith

/-- Far behind: the next tick is one interval before the audio. -/
theorem ingest_far (hf : s.finished = false) {pcm : Pcm}
    (h : s.nextClassifyAt + 3 * s.settings.interval < (s.ingest pcm).audioSeconds) :
    (s.ingest pcm).nextClassifyAt = (s.ingest pcm).audioSeconds - s.settings.interval := by
  rw [ingest_audioSeconds hf] at h ⊢
  unfold ingest
  rw [if_neg (by simp [hf])]
  dsimp only
  have hd : audioSeconds { s with buffer := s.buffer.write pcm, samplesSeen := s.samplesSeen + pcm.length } =
      s.audioSeconds + pcm.length / sampleRate := by
    simp only [audioSeconds]
    push_cast
    ring
  rw [hd, if_pos (by linarith)]

/-- The clock never goes back, and is never left more than three intervals behind. -/
theorem ingest_clock (hi : 0 < s.settings.interval) (hf : s.finished = false) (pcm : Pcm) :
    s.nextClassifyAt ≤ (s.ingest pcm).nextClassifyAt ∧
      (s.ingest pcm).audioSeconds ≤ (s.ingest pcm).nextClassifyAt + 3 * s.settings.interval := by
  rcases le_or_gt (s.ingest pcm).audioSeconds (s.nextClassifyAt + 3 * s.settings.interval) with h | h
  · rw [ingest_near hf h]
    exact ⟨le_rfl, h⟩
  · rw [ingest_far hf h]
    constructor <;> linarith

/-- **`catchesUp`**: one call of `feed_audio` runs only ticks that are due and at most three intervals behind (a
larger backlog is skipped), all on one window, so at most four of them, and a streak grows by as many frames at
most. With the audio less than one interval past the next tick it runs one at most. -/
theorem catchesUp (s : AgentSession) (hi : 0 < s.settings.interval) (pcm : Pcm) (ticks : List Tick) :
    let t := s.ingest pcm
    ∃ n ≤ 4, framesOf (s.feedAudio pcm ticks).trace = framesOf s.trace ++ t.upcoming n ∧
      (∀ f ∈ t.upcoming n, f.pcm = t.window ∧
        t.audioSeconds - 3 * s.settings.interval ≤ f.tStart ∧ f.tStart ≤ t.audioSeconds) ∧
      (s.feedAudio pcm ticks).fsm.streak ≤ s.fsm.streak + n ∧
      (t.audioSeconds < s.nextClassifyAt + s.settings.interval → n ≤ 1) := by
  intro t
  have hset : t.settings = s.settings := s.ingest_settings pcm
  obtain ⟨htr, hfsm, -, -⟩ := s.ingest_fields pcm
  cases hf : s.finished with
  | true =>
    rw [feedAudio_finished hf]
    exact ⟨0, Nat.zero_le 4, by simp [upcoming], by simp [upcoming], le_rfl, fun _ => Nat.zero_le 1⟩
  | false =>
    obtain ⟨hclk, hlag⟩ := ingest_clock hi hf pcm
    have bound : ∀ n : Nat, t.audioSeconds < t.nextClassifyAt + n * s.settings.interval →
        ∃ k ≤ n, Passed t (s.feedAudio pcm ticks) k := fun n hn => (foldl_loopPass ticks n (by rwa [hset])).1
    obtain ⟨n, hn, hp⟩ := bound 4 (by push_cast; linarith)
    have hframes := hp.frames
    have hstreak := hp.streak
    rw [htr] at hframes
    rw [hfsm] at hstreak
    refine ⟨n, hn, hframes, fun f hfr => ?_, hstreak, fun hnear => ?_⟩
    · obtain ⟨k, hk, rfl⟩ := List.mem_map.1 hfr
      have hd := hp.due k (List.mem_range.1 hk)
      have hk0 : 0 ≤ (k : ℚ) * t.settings.interval := mul_nonneg (Nat.cast_nonneg k) (by rw [hset]; exact hi.le)
      exact ⟨rfl, by dsimp only; linarith, hd⟩
    · obtain ⟨k, hk, hp'⟩ := bound 1 (by rw [ingest_near hf (by linarith)]; push_cast; linarith)
      have hlen := congrArg List.length (hp.frames.symm.trans hp'.frames)
      simp only [List.length_append, upcoming_length] at hlen
      omega

theorem catchesUp_default :
    (new "CA1" {} {} none none).settings.interval = 1 / 2 ∧
      ∃ n ≤ 4, (framesOf ((new "CA1" {} {} none none).feedAudio (List.replicate 4000 0)
        (List.replicate 2 { cls := { label := .errorTone, confidence := 1 } })).trace).length = n := by
  have hi : (0 : ℚ) < (new "CA1" {} {} none none).settings.interval := by decide +kernel
  obtain ⟨n, hn, hfr, -⟩ := catchesUp _ hi (List.replicate 4000 0)
    (List.replicate 2 { cls := { label := .errorTone, confidence := 1 } })
  refine ⟨by decide +kernel, n, hn, ?_⟩
  rw [hfr, List.length_append, upcoming_length]
  exact Nat.zero_add n

/-- Half a second of the line, in one chunk: two ticks classify the same window, and the one error tone in it
fails the call. -/
theorem catchesUp_replays :
    let s := new "CA1" {} {} none none
    let t := s.feedAudio (List.replicate 4000 0) (List.replicate 2 { cls := { label := .errorTone, confidence := 1 } })
    (framesOf s.trace).length + 1 < (framesOf t.trace).length ∧
      (∀ f ∈ framesOf t.trace, f.pcm = List.replicate 4000 0) ∧
      s.fsm.state = .dialing ∧ t.fsm.state = .failed ∧ t.finished = true := by
  decide +kernel

/-! ## The clock over a run -/

/-- The tick times are an interval apart, up to the audio, and the next is an interval after the last. -/
structure OnTime (i : ℚ) (s : AgentSession) : Prop where
  interval : s.settings.interval = i
  ahead : s.nextClassifyAt ≤ s.audioSeconds + i
  spaced : (framesOf s.trace).Pairwise fun f g => f.tStart + i ≤ g.tStart
  last : ∀ f ∈ framesOf s.trace, f.tStart + i ≤ s.nextClassifyAt

theorem new_onTime (callId : String) (settings : Settings) (cfg : FsmConfig) (goal sid : Option String)
    (hi : 0 < settings.interval) : OnTime settings.interval (new callId settings cfg goal sid) :=
  ⟨rfl, by simpa [new, audioSeconds] using hi.le, by simp [new, framesOf], by simp [new, framesOf]⟩

theorem ingest_onTime {i : ℚ} (hi : 0 < i) (h : OnTime i s) (pcm : Pcm) : OnTime i (s.ingest pcm) := by
  obtain ⟨htr, -, -, -⟩ := s.ingest_fields pcm
  cases hf : s.finished with
  | true => simpa [ingest, hf] using h
  | false =>
    have ha := ingest_audioSeconds hf pcm
    have hnn : (0 : ℚ) ≤ pcm.length / sampleRate := by positivity
    refine ⟨(congrArg _ (s.ingest_settings pcm)).trans h.interval, ?_, by rw [htr]; exact h.spaced, fun f hm => ?_⟩
    · rcases le_or_gt (s.ingest pcm).audioSeconds (s.nextClassifyAt + 3 * s.settings.interval) with hn | hn
      · rw [ingest_near hf hn, ha]
        have hah := h.ahead
        linarith
      · rw [ingest_far hf hn, h.interval]
        linarith
    · rw [htr] at hm
      exact (h.last f hm).trans (ingest_clock (by rw [h.interval]; exact hi) hf pcm).1

theorem loopPass_onTime {i : ℚ} (hi : 0 < i) (hs : Sound s) (h : OnTime i s) (tick : Tick) :
    OnTime i (s.loopPass tick) := by
  by_cases ht : s.Ticks
  · have hp := loopPass_passed ht tick
    have hk := hp.clock.resolve_right (by simp [(loopPass_sound hs tick).alive])
    have hd := ht.1.2
    rw [Nat.cast_one, one_mul, h.interval] at hk
    have hfr : framesOf (s.loopPass tick).trace =
        framesOf s.trace ++ [{ pcm := s.window, sampleRate, tStart := s.nextClassifyAt }] := by
      simpa [upcoming] using hp.frames
    refine ⟨(congrArg _ hp.settings).trans h.interval, ?_, ?_, fun f hm => ?_⟩
    · rw [hp.audioSeconds, hk]
      linarith
    · rw [hfr, List.pairwise_append]
      exact ⟨h.spaced, List.pairwise_singleton _ _, fun f hm g hg => by
        rw [List.mem_singleton.1 hg]; exact h.last f hm⟩
    · rw [hfr, List.mem_append, List.mem_singleton] at hm
      rw [hk]
      rcases hm with hm | rfl
      · have := h.last f hm
        linarith
      · exact le_rfl
  · rw [loopPass_rests ht]
    exact h

theorem step_onTime {i : ℚ} (hi : 0 < i) (s : AgentSession) (m : Move) (h : Sound s ∧ OnTime i s) :
    Sound (step s m) ∧ OnTime i (step s m) := by
  obtain ⟨hs, h⟩ := h
  refine ⟨step_sound s m hs, ?_⟩
  cases m with
  | ingest pcm => exact ingest_onTime hi h pcm
  | tick tk => exact loopPass_onTime hi hs h tk
  | abort reason =>
    simp only [step, abort]
    split
    · exact h
    · have hq := s.fail_still s.audioSeconds reason
      obtain ⟨es, htr, hes⟩ := hq.trace
      have hfr : framesOf (s.fail s.audioSeconds reason).trace = framesOf s.trace := by
        rw [htr, framesOf_append, framesOf_keeps hes, List.append_nil]
      exact ⟨h.interval, h.ahead, by rw [hfr]; exact h.spaced, by rw [hfr]; exact h.last⟩

/-! ## Short chunks -/

theorem call_sound (hs : Sound s) (c : Call) : Sound (call s c) := by
  rw [call_eq]
  exact Run.exec_inv step_sound c.moves s hs

/-- A chunk shorter than the interval `i`. -/
def Call.Short (i : ℚ) : Call → Prop
  | .feed pcm _ => (pcm.length : ℚ) / sampleRate < i
  | .abort _ => True

/-- The call returns: its ticks were answered till its loop ended. -/
def Call.Returns (s : AgentSession) (c : Call) : Prop := ¬ (call s c).Due

instance (s : AgentSession) (c : Call) : Decidable (c.Returns s) := inferInstanceAs (Decidable (¬ _))

/-- The ticks so far were those at the first `n` multiples of `i`, and the audio has not passed the next one. -/
structure Steady (i : ℚ) (n : Nat) (s : AgentSession) : Prop where
  interval : s.settings.interval = i
  times : (framesOf s.trace).map Frame.tStart = (List.range n).map fun k : Nat => (k * i : ℚ)
  clock : s.nextClassifyAt = n * i
  due : ∀ k < n, (k * i : ℚ) ≤ s.audioSeconds
  caught : s.finished = false → s.audioSeconds ≤ s.nextClassifyAt

theorem new_steady (callId : String) (settings : Settings) (cfg : FsmConfig) (goal sid : Option String) :
    Steady settings.interval 0 (new callId settings cfg goal sid) :=
  ⟨rfl, rfl, by simp [new], by simp, fun _ => by simp [new, audioSeconds]⟩

theorem abort_steady {i : ℚ} (h : Steady i n s) (reason : String) : Steady i n (s.abort reason) := by
  unfold abort
  split
  · exact h
  · obtain ⟨es, htr, hes⟩ := (s.fail_still s.audioSeconds reason).trace
    refine ⟨h.interval, ?_, h.clock, h.due, fun hf => absurd hf (by simp [fail_eq])⟩
    rw [htr, framesOf_append, framesOf_keeps hes, List.append_nil]
    exact h.times

/-- A short chunk reaches one tick at most. -/
theorem feedAudio_steady {i : ℚ} (hi : 0 < i) (hs : Sound s) (h : Steady i n s) {pcm : Pcm} {ticks : List Tick}
    (hc : (Call.feed pcm ticks).Short i) (hr : (Call.feed pcm ticks).Returns s) :
    ∃ k ≤ 1, Steady i (n + k) (s.feedAudio pcm ticks) := by
  have hset := s.ingest_settings pcm
  obtain ⟨htr, -, -, -⟩ := s.ingest_fields pcm
  cases hf : s.finished with
  | true =>
    rw [feedAudio_finished hf]
    exact ⟨0, Nat.zero_le 1, h⟩
  | false =>
    have ha := ingest_audioSeconds hf pcm
    have hlt : (s.ingest pcm).audioSeconds < s.nextClassifyAt + i := by
      have hcaught := h.caught hf
      rw [ha]
      linarith [show (pcm.length : ℚ) / sampleRate < i from hc]
    have hnear : (s.ingest pcm).nextClassifyAt = s.nextClassifyAt :=
      ingest_near hf (by rw [h.interval]; linarith)
    obtain ⟨⟨k, hk, hp⟩, -⟩ := foldl_loopPass (s := s.ingest pcm) ticks 1 (by
      rw [hset, hnear, h.interval, Nat.cast_one, one_mul]; exact hlt)
    have halive : (s.feedAudio pcm ticks).crashed = false := (call_sound hs (.feed pcm ticks)).alive
    have hclock := hp.clock.resolve_right (by rw [← feedAudio]; simp [halive])
    have hmul : ∀ j : Nat, s.nextClassifyAt + j * s.settings.interval = ((n + j : Nat) * i : ℚ) := fun j => by
      rw [h.clock, h.interval, Nat.cast_add]; ring
    have haudio : (s.feedAudio pcm ticks).audioSeconds = (s.ingest pcm).audioSeconds := hp.audioSeconds
    refine ⟨k, hk, (congrArg _ (hp.settings.trans hset)).trans h.interval, ?_, ?_, fun j hj => ?_, fun hfalse => ?_⟩
    · rw [feedAudio, hp.frames, htr, List.map_append, h.times, List.range_add, List.map_append, List.map_map, upcoming,
        List.map_map]
      simp only [Function.comp_def, hset, hnear, hmul]
    · rw [feedAudio, hclock, hset, hnear, hmul]
    · rw [haudio]
      by_cases hjn : j < n
      · rw [ha]
        have hnn : (0 : ℚ) ≤ pcm.length / sampleRate := by positivity
        linarith [h.due j hjn]
      · have hd := hp.due (j - n) (by omega)
        rwa [hset, hnear, hmul, Nat.add_sub_cancel' (not_lt.1 hjn)] at hd
    · by_contra hn
      exact hr ⟨hfalse, (not_le.1 hn).le⟩

theorem call_steady {i : ℚ} (hi : 0 < i) (hs : Sound s) (h : Steady i n s) {c : Call} (hc : c.Short i)
    (hr : c.Returns s) : ∃ k ≤ 1, Steady i (n + k) (call s c) := by
  cases c with
  | feed pcm ticks => exact feedAudio_steady hi hs h hc hr
  | abort reason => exact ⟨0, Nat.zero_le 1, abort_steady h reason⟩

theorem Steady.length {i : ℚ} (h : Steady i n s) : (framesOf s.trace).length = n := by
  simpa using congrArg List.length h.times

/-- Four answers end the loop of any call. -/
theorem feedAudio_ends (hi : 0 < s.settings.interval) (hs : Sound s) (pcm : Pcm) {ticks : List Tick}
    (hlen : 4 ≤ ticks.length) : ¬ (s.feedAudio pcm ticks).Due := by
  intro hdue
  cases hf : s.finished with
  | true =>
    rw [feedAudio_finished hf] at hdue
    exact absurd hdue.1 (by simp [hf])
  | false =>
    have hlag := (ingest_clock hi hf pcm).2
    have hend := (foldl_loopPass (s := s.ingest pcm) ticks 4 (by
      rw [s.ingest_settings pcm, Nat.cast_ofNat]; linarith)).2
    have hlt := hend ⟨hdue, (call_sound hs (.feed pcm ticks)).alive⟩
    omega

/-- **`keepsTime`**: over every sequence of calls, at any positive interval `i`, `feed_audio` ends its loop in four
ticks at most; the tick times are `i` apart; and where it has returned and the session is unfinished, the next tick
is ahead of the audio, by `i` at most. If every chunk is shorter than `i` and every call has returned, the ticks are
those at 0, i, 2i, … up to the audio, none left out, at most one a call. -/
theorem keepsTime (callId : String) (settings : Settings) (cfg : FsmConfig) (goal sid : Option String)
    (hi : 0 < settings.interval) (cs : List Call) :
    let i := settings.interval
    let s₀ := new callId settings cfg goal sid
    let s := Run.exec call s₀ cs
    (∀ pcm ticks, 4 ≤ ticks.length → ¬ (s.feedAudio pcm ticks).Due) ∧
    (framesOf s.trace).Pairwise (fun f g => f.tStart + i ≤ g.tStart) ∧
    (¬ s.Due → s.finished = false → s.audioSeconds < s.nextClassifyAt ∧ s.nextClassifyAt ≤ s.audioSeconds + i) ∧
    ((∀ c ∈ cs, c.Short i) → Run.Along call (fun s c => c.Returns s) s₀ cs →
      (∃ n : Nat, (framesOf s.trace).map Frame.tStart = (List.range n).map (fun k : Nat => (k * i : ℚ)) ∧
        (∀ k < n, (k * i : ℚ) ≤ s.audioSeconds) ∧ (cs ≠ [] → s.finished = false → s.audioSeconds < n * i)) ∧
      Run.Along call (fun s c => (framesOf (call s c).trace).length ≤ (framesOf s.trace).length + 1) s₀ cs) := by
  intro i s₀ s
  have hs₀ : Sound s₀ := new_sound callId settings cfg goal sid
  have honce : ∀ (t : AgentSession) (c : Call), Sound t ∧ OnTime i t → Sound (call t c) ∧ OnTime i (call t c) := by
    intro t c ht
    rw [call_eq]
    exact Run.exec_inv (step_onTime hi) c.moves t ht
  obtain ⟨hs, ht⟩ : Sound s ∧ OnTime i s :=
    Run.exec_inv honce cs s₀ ⟨hs₀, new_onTime callId settings cfg goal sid hi⟩
  refine ⟨fun pcm ticks hlen => feedAudio_ends (ht.interval ▸ hi) hs pcm hlen, ht.spaced,
    fun hdue hf => ⟨?_, ht.ahead⟩, fun hshort hret => ?_⟩
  · exact lt_of_not_ge fun hge => hdue ⟨hf, hge⟩
  · have hC : Run.Along call (fun s c => c.Short i ∧ c.Returns s) s₀ cs := by
      rw [Run.along_iff_split] at hret ⊢
      exact fun pre c post he => ⟨hshort c (by simp [he]), hret pre c post he⟩
    have hstep : ∀ (t : AgentSession) (c : Call), (Sound t ∧ ∃ n, Steady i n t) → c.Short i ∧ c.Returns t →
        Sound (call t c) ∧ ∃ n, Steady i n (call t c) := by
      rintro t c ⟨hts, n, hn⟩ ⟨hc, hr⟩
      obtain ⟨k, -, hk⟩ := call_steady hi hts hn hc hr
      exact ⟨call_sound hts c, n + k, hk⟩
    have h₀ : Sound s₀ ∧ ∃ n, Steady i n s₀ := ⟨hs₀, 0, new_steady callId settings cfg goal sid⟩
    constructor
    · obtain ⟨-, n, hn⟩ := Run.exec_inv_along (fun t c hc ht => hstep t c ht hc) cs s₀ hC h₀
      refine ⟨n, hn.times, hn.due, fun hne hf => ?_⟩
      obtain ⟨ds, c, rfl⟩ := (List.eq_nil_or_concat cs).resolve_left hne
      -- the last call returned
      have hlast := (Run.along_iff_split call _ s₀ _).1 hret ds c [] (by simp)
      have hs' : s = call (Run.exec call s₀ ds) c := by simp [s]
      rw [Call.Returns, ← hs'] at hlast
      rw [← hn.clock]
      exact lt_of_not_ge fun hge => hlast ⟨hf, hge⟩
    · refine Run.along_of_inv hstep ?_ cs s₀ h₀ hC
      rintro t c ⟨hts, n, hn⟩ ⟨hc, hr⟩
      obtain ⟨k, hk, hk'⟩ := call_steady hi hts hn hc hr
      rw [hk'.length, hn.length]
      omega

/-- A second and a half of silence in five chunks, none as long as the interval. -/
def unevenChunks : List Call :=
  [hear 0 .silence, hear 3000 .silence, hear 3000 .silence, hear 2500 .silence, hear 3500 .silence]

/-- The ticks are half a second apart, whatever the chunks. -/
theorem keepsTime_uneven :
    (framesOf (Run.exec call (new "CA1" {} {} none none) unevenChunks).trace).map Frame.tStart =
      [0, 1 / 2, 1, 3 / 2] := by
  have hi : (0 : ℚ) < ({} : Settings).interval := by decide +kernel
  have hshort : ∀ c ∈ unevenChunks, c.Short ({} : Settings).interval := by
    simp only [unevenChunks, hear, Call.Short, List.mem_cons, List.not_mem_nil, or_false, forall_eq_or_imp,
      forall_eq, List.length_replicate, Settings.interval, sampleRate]
    norm_num
  have hret : Run.Along call (fun s c => c.Returns s) (new "CA1" {} {} none none) unevenChunks := by
    decide +kernel
  obtain ⟨⟨n, hn, -⟩, -⟩ := (keepsTime "CA1" {} {} none none hi unevenChunks).2.2.2 hshort hret
  have hlen : n = 4 := by
    have := congrArg List.length hn
    rw [List.length_map, List.length_map, List.length_range] at this
    rw [← this]
    decide +kernel
  rw [hn, hlen]
  simp only [Settings.interval, List.range_succ, List.range_zero]
  norm_num

end AgentSession

end DialPass
