import DialPass.Session.Clock
import DialPass.Telemetry.Payload
/-!
# What a session reports, and when (session.py:119-318, telemetry/events.py:21-24)

`Reports now s t` says what one stage of a tick at `now` adds to the trace: every event in it is stamped `now` and
has its floats rounded, and a menu read is for the session's goal. Ticks come at the clock of the audio, which only
goes forward, and `abort` stamps the audio's end, after the last of them. So `stamps_sorted`: the events of a call
are in the order of their times, also once these are rounded for the payload. And `events_rounded`: they are events
that `CallEvent` admits.
-/

namespace DialPass

/-- Rounding keeps the order. -/
theorem pyRound_mono {x y : ℚ} (h : x ≤ y) (d : Nat) : pyRound x d ≤ pyRound y d := by
  have hpos : (0 : ℚ) < 10 ^ d := by positivity
  have hxy : x * 10 ^ d ≤ y * 10 ^ d := mul_le_mul_of_nonneg_right h hpos.le
  unfold pyRound
  dsimp only
  generalize x * 10 ^ d = x at hxy ⊢
  generalize y * 10 ^ d = y at hxy ⊢
  have hfloor : ⌊x⌋ ≤ ⌊y⌋ := Int.floor_mono hxy
  refine div_le_div_of_nonneg_right (Int.cast_le.2 ?_) hpos.le
  rcases hfloor.lt_or_eq with hlt | heq
  · -- at most up to the next integer, which is at most the other's floor
    split_ifs <;> omega
  · -- over the same integer, what is left is no more
    rw [← heq]
    have hrest : x - ⌊x⌋ ≤ y - ⌊x⌋ := by linarith
    split_ifs <;> first | omega | exact absurd hrest (by linarith)

/-- The times of the events told in a trace. -/
def stamps (tr : List Effect) : List ℚ := tr.filterMap fun | .emit e => some e.t | _ => none

/-- The events told in a trace. -/
def reportedEvents (tr : List Effect) : List Event := tr.filterMap fun | .emit e => some e | _ => none

theorem stamps_eq (tr : List Effect) : stamps tr = (reportedEvents tr).map Event.t := by
  rw [reportedEvents, List.map_filterMap, stamps]
  congr 1
  funext e
  cases e <;> rfl

/-- An effect of a tick at `now`, of a session with this goal. -/
def Effect.Reports (goal : Option String) (now : ℚ) : Effect → Prop
  | .emit e => e.t = now ∧ e.Rounded
  | .submit j => j.kind = .menu → j.goal = goal
  | _ => True

theorem stamps_append (tr es : List Effect) : stamps (tr ++ es) = stamps tr ++ stamps es := List.filterMap_append

theorem stamps_of_reports {goal : Option String} {now : ℚ} {es : List Effect} (h : ∀ e ∈ es, e.Reports goal now) :
    ∀ t ∈ stamps es, t = now := by
  intro t ht
  obtain ⟨e, he, hmem⟩ := List.mem_filterMap.1 ht
  cases e with
  | emit ev =>
    cases hmem
    exact (h _ he).1
  | _ => cases hmem

namespace AgentSession

/-! ## One stage -/

structure Reports (now : ℚ) (s t : AgentSession) : Prop where
  goal : t.goal = s.goal
  trace : ∃ es, t.trace = s.trace ++ es ∧ ∀ e ∈ es, e.Reports s.goal now

variable {s t u : AgentSession} {now : ℚ}

theorem Reports.of_fields (hg : t.goal = s.goal) (htr : t.trace = s.trace) : Reports now s t :=
  ⟨hg, [], by rw [htr, List.append_nil], by simp⟩

theorem Reports.refl (s : AgentSession) : Reports now s s := .of_fields rfl rfl

theorem Reports.trans (h : Reports now s t) (h' : Reports now t u) : Reports now s u := by
  obtain ⟨es, htr, hes⟩ := h.trace
  obtain ⟨fs, htr', hfs⟩ := h'.trace
  rw [h.goal] at hfs
  refine ⟨h'.goal.trans h.goal, es ++ fs, by rw [htr', htr, List.append_assoc], fun e he => ?_⟩
  rcases List.mem_append.1 he with he | he
  · exact hes e he
  · exact hfs e he

theorem log_reports (s : AgentSession) (e : Effect) (h : e.Reports s.goal now) : Reports now s (s.log e) :=
  ⟨rfl, [e], rfl, by simpa using h⟩

theorem emitStateChange_reports (s : AgentSession) (before : CallState) (now : ℚ) :
    Reports now s (s.emitStateChange before now) := by
  unfold emitStateChange
  split
  · exact log_reports s _ ⟨rfl, trivial⟩
  · exact .refl s

theorem moved_reports (s : AgentSession) (fsm : CallStateMachine) (now : ℚ) : Reports now s (s.moved fsm now) :=
  (Reports.of_fields rfl rfl : Reports now s { s with fsm }).trans (emitStateChange_reports _ _ now)

theorem fail_reports (s : AgentSession) (now : ℚ) (reason : String) : Reports now s (s.fail now reason) := by
  rw [fail_eq]
  exact ⟨rfl, _, rfl, by simp [Effect.Reports, Event.t, Event.Rounded]⟩

theorem submit_reports (s : AgentSession) (j : Job) (h : j.kind = .menu → j.goal = s.goal) :
    Reports now s (s.submit j) := by
  unfold submit
  split
  · rename_i exec _
    exact (Reports.of_fields rfl rfl : Reports now s { s with exec }).trans (log_reports _ (.submit j) h)
  · exact .of_fields rfl rfl

theorem startMenu_reports (s : AgentSession) (now : ℚ) : Reports now s (s.startMenu now) := by
  refine (log_reports s (.emit (.tier2Woken now .menu)) ⟨rfl, trivial⟩).trans
    (Reports.trans ?_ (submit_reports _ _ fun _ => rfl))
  exact .of_fields rfl rfl

theorem startProbe_reports (s : AgentSession) (now : ℚ) : Reports now s (s.startProbe now) := by
  refine (log_reports s (.emit (.tier2Woken now .probe)) ⟨rfl, trivial⟩).trans
    (Reports.trans ?_ (submit_reports _ _ nofun))
  exact .of_fields rfl rfl

theorem bridge_reports (s : AgentSession) (now : ℚ) (reply : BridgeReply) : Reports now s (s.bridge now reply) := by
  have h0 : Reports now s ((s.emit (.humanDetected now)).log .onBridge) :=
    (log_reports s (.emit (.humanDetected now)) ⟨rfl, trivial⟩).trans (log_reports _ .onBridge trivial)
  unfold bridge
  dsimp only
  generalize (s.emit (.humanDetected now)).log .onBridge = t at h0 ⊢
  cases reply with
  | unavailable reason => exact h0.trans (fail_reports t now reason)
  | raised => exact h0.trans (fail_reports t now _)
  | ok =>
    have h1 := h0.trans (moved_reports t t.fsm.bridged now)
    have h2 := h1.trans (log_reports (t.moved t.fsm.bridged now) (.emit (.bridgeStarted now)) ⟨rfl, trivial⟩)
    have h3 := h2.trans (moved_reports _ (t.moved t.fsm.bridged now).fsm.completed now)
    have h4 := h3.trans (log_reports _ (.emit (.callCompleted now "human_bridged")) ⟨rfl, trivial⟩)
    exact h4.trans (.of_fields rfl rfl)

theorem dispatch_reports (s : AgentSession) (action : Action) (now : ℚ) (reply : BridgeReply) :
    Reports now s (s.dispatch action now reply) := by
  cases action with
  | none => exact .refl s
  | wakeTier2Menu => exact .of_fields rfl rfl
  | wakeTier2Probe =>
    simp only [dispatch]
    split
    · exact startProbe_reports s now
    · exact .refl s
  | bridge => exact bridge_reports s now reply
  | fail => exact fail_reports s now _

theorem classify_reports (s : AgentSession) (now : ℚ) (c : Classification) : Reports now s (s.classify now c) := by
  refine (log_reports s (.classify _) trivial).trans
    (log_reports _ (.emit (.frameClassified ..)) ⟨rfl, ⟨c.confidence, rfl⟩, fun p hp => ?_⟩)
  obtain ⟨q, -, rfl⟩ := List.mem_map.1 hp
  exact ⟨q.2, rfl⟩

theorem observe_reports (s : AgentSession) (now : ℚ) (i : Tick) : Reports now s (s.observe now i) := by
  rw [observe_eq]
  exact (moved_reports s _ now).trans (dispatch_reports _ _ now _)

theorem wakeMenu_reports (s : AgentSession) (now : ℚ) : Reports now s (s.wakeMenu now) := by
  rcases wakeMenu_cases s now with ⟨due, he⟩ | ⟨-, -, he⟩ <;> rw [he]
  · exact .of_fields rfl rfl
  · exact (Reports.of_fields rfl rfl : Reports now s { s with menuWakeDue := none }).trans (startMenu_reports _ now)

theorem applyMenu_reports (s : AgentSession) (d : MenuDecision) (now : ℚ) : Reports now s (s.applyMenu d now) := by
  unfold applyMenu
  split
  · rename_i digits _ _
    exact (log_reports s (.dtmfSender digits) trivial).trans
      ((log_reports _ (.emit (.dtmfSent now digits)) ⟨rfl, trivial⟩).trans (.of_fields rfl rfl))
  · exact .of_fields rfl rfl

theorem applyProbe_reports (s : AgentSession) (o : ProbeOutcome) (now : ℚ) (reply : BridgeReply) :
    Reports now s (s.applyProbe o now reply) := by
  rw [applyProbe_eq]
  exact (log_reports s (.emit (.probeResult now o.isHuman)) ⟨rfl, trivial⟩).trans
    ((moved_reports _ _ now).trans (dispatch_reports _ _ now reply))

theorem applyResult_reports (s : AgentSession) (kind : Tier2Kind) (r : Tier2Result) (now : ℚ) (reply : BridgeReply) :
    Reports now s (s.applyResult kind r now reply) := by
  cases r with
  | error e =>
    rcases tier2Failed_outcome s kind e now with ⟨-, he⟩ | ⟨-, reason, he⟩
    · simpa only [applyResult, he] using Reports.refl s
    · simpa only [applyResult, he] using fail_reports s now reason
  | ok v =>
    cases kind <;> cases v
    · exact applyMenu_reports s _ now
    · exact .of_fields rfl rfl
    · exact .of_fields rfl rfl
    · exact applyProbe_reports s _ now reply

theorem pollTier2_reports (s : AgentSession) (now : ℚ) (i : Tick) : Reports now s (s.pollTier2 now i) := by
  unfold pollTier2
  cases s.tier2Kind with
  | none => exact .refl s
  | some kind =>
    obtain ⟨exec, out⟩ := s.exec.poll i.answer
    cases out with
    | none => exact .refl s
    | some jr =>
      have h : Reports now s ({ s with exec, tier2Kind := none }.log (.polled jr.1 jr.2)) :=
        (Reports.of_fields rfl rfl : Reports now s { s with exec, tier2Kind := none }).trans
          (log_reports _ (.polled jr.1 jr.2) trivial)
      exact h.trans (applyResult_reports _ kind jr.2 now i.onBridge)

theorem runTick_reports (s : AgentSession) (now : ℚ) (i : Tick) : Reports now s (s.runTick now i) := by
  have ho := (classify_reports s now i.cls).trans (observe_reports _ now i)
  unfold runTick
  dsimp only
  split
  · exact ho
  · split
    · exact ho.trans (wakeMenu_reports _ now)
    · exact (ho.trans (wakeMenu_reports _ now)).trans (pollTier2_reports _ now i)

/-! ## Whole lives -/

/-- The events so far are in order, between the call's start and now; and the next tick comes no earlier. -/
structure Ordered (s : AgentSession) : Prop where
  interval : 0 ≤ s.settings.interval
  sorted : (stamps s.trace).Pairwise (· ≤ ·)
  within : ∀ t ∈ stamps s.trace, 0 ≤ t ∧ t ≤ s.audioSeconds
  clock : 0 ≤ s.nextClassifyAt
  ahead : s.finished = false → ∀ t ∈ stamps s.trace, t ≤ s.nextClassifyAt

/-- Events of one time, no earlier than the rest and no later than the audio. -/
theorem Ordered.append (h : Ordered s) (hr : Reports now s t) (hset : t.settings.interval = s.settings.interval)
    (hsec : t.audioSeconds = s.audioSeconds) (hback : ∀ x ∈ stamps s.trace, x ≤ now) (h0 : 0 ≤ now)
    (hnow : now ≤ s.audioSeconds) (hclk : 0 ≤ t.nextClassifyAt) (hahead : t.finished = false → now ≤ t.nextClassifyAt) :
    Ordered t := by
  obtain ⟨es, htr, hes⟩ := hr.trace
  have hst := stamps_of_reports hes
  have hall : ∀ x ∈ stamps t.trace, x ≤ now := by
    intro x hx
    rw [htr, stamps_append] at hx
    rcases List.mem_append.1 hx with hx | hx
    · exact hback x hx
    · exact (hst x hx).le
  refine ⟨hset ▸ h.interval, ?_, fun x hx => ⟨?_, ?_⟩, hclk, fun hf x hx => (hall x hx).trans (hahead hf)⟩
  · rw [htr, stamps_append, List.pairwise_append]
    refine ⟨h.sorted, List.pairwise_of_forall_mem_list fun x hx y hy => ?_, fun x hx y hy => ?_⟩
    · rw [hst x hx, hst y hy]
    · rw [hst y hy]
      exact hback x hx
  · rw [htr, stamps_append] at hx
    rcases List.mem_append.1 hx with hx | hx
    · exact (h.within x hx).1
    · exact (hst x hx).symm ▸ h0
  · rw [hsec]
    exact (hall x hx).trans hnow

theorem ingest_ordered (h : Ordered s) (pcm : Pcm) : Ordered (s.ingest pcm) := by
  have hi := h.interval
  unfold ingest
  split
  · exact h
  · rename_i hfin
    have hfin : s.finished = false := by simpa using hfin
    have hgrow : s.audioSeconds ≤ ({ s with
        buffer := s.buffer.write pcm, samplesSeen := s.samplesSeen + pcm.length } : AgentSession).audioSeconds := by
      show (s.samplesSeen : ℚ) / sampleRate ≤ ((s.samplesSeen + pcm.length : Nat) : ℚ) / sampleRate
      have hle : (s.samplesSeen : ℚ) ≤ ((s.samplesSeen + pcm.length : Nat) : ℚ) := by exact_mod_cast Nat.le_add_right _ _
      exact div_le_div_of_nonneg_right hle (by norm_num [sampleRate])
    dsimp only
    split
    · rename_i hfar
      -- skipping ahead goes forward
      have hskip : s.nextClassifyAt ≤ ({ s with
          buffer := s.buffer.write pcm, samplesSeen := s.samplesSeen + pcm.length } : AgentSession).audioSeconds -
          s.settings.interval := by linarith
      exact ⟨hi, h.sorted, fun x hx => ⟨(h.within x hx).1, (h.within x hx).2.trans hgrow⟩, h.clock.trans hskip,
        fun _ x hx => (h.ahead hfin x hx).trans hskip⟩
    · exact ⟨hi, h.sorted, fun x hx => ⟨(h.within x hx).1, (h.within x hx).2.trans hgrow⟩, h.clock,
        fun _ x hx => h.ahead hfin x hx⟩

/-- A tick that is taken leaves the next one no earlier. -/
theorem loopPass_next (h : Ordered s) (ht : s.Ticks) (i : Tick) :
    ∃ next, s.loopPass i = { s.runTick s.nextClassifyAt i with nextClassifyAt := next } ∧ s.nextClassifyAt ≤ next := by
  have hst := s.runTick_still s.nextClassifyAt i
  have hclk : (s.runTick s.nextClassifyAt i).nextClassifyAt = s.nextClassifyAt := hst.clock
  have hi := h.interval
  unfold loopPass
  rw [if_neg (by simp [ht.1.1, ht.2, ht.1.2])]
  generalize s.runTick s.nextClassifyAt i = u at hclk ⊢
  dsimp only
  split
  · exact ⟨u.nextClassifyAt, rfl, hclk.ge⟩
  · exact ⟨u.nextClassifyAt + s.settings.interval, rfl, by linarith⟩

theorem loopPass_ordered (h : Ordered s) (i : Tick) : Ordered (s.loopPass i) := by
  by_cases ht : s.Ticks
  · obtain ⟨next, heq, hnext⟩ := loopPass_next h ht i
    have hst := s.runTick_still s.nextClassifyAt i
    have hr := s.runTick_reports s.nextClassifyAt i
    have hset : (s.runTick s.nextClassifyAt i).settings = s.settings := hst.settings
    have hseen : (s.runTick s.nextClassifyAt i).samplesSeen = s.samplesSeen := hst.samplesSeen
    rw [heq]
    generalize s.runTick s.nextClassifyAt i = u at hr hset hseen
    refine h.append (hr.trans (.of_fields rfl rfl)) (by rw [hset]) ?_ (h.ahead ht.1.1) h.clock ht.1.2
      (h.clock.trans hnext) fun _ => hnext
    rw [audioSeconds, audioSeconds, hseen]
  · rw [loopPass_rests ht]
    exact h

theorem act_ordered (s : AgentSession) (a : Act) (h : Ordered s) : Ordered (s.act a) := by
  cases a with
  | close => exact ⟨h.interval, h.sorted, h.within, h.clock, h.ahead⟩
  | move m =>
    cases m with
    | ingest pcm =>
      exact ingest_ordered (s := { s with crashed := false }) ⟨h.interval, h.sorted, h.within, h.clock, h.ahead⟩ pcm
    | tick i => exact loopPass_ordered h i
    | abort reason =>
      rw [act, abort]
      split
      · exact h
      · have h0 : 0 ≤ s.audioSeconds := div_nonneg (Nat.cast_nonneg _) (Nat.cast_nonneg _)
        refine h.append (fail_reports s s.audioSeconds reason) rfl rfl (fun x hx => (h.within x hx).2) h0 le_rfl
          h.clock ?_
        intro hf
        rw [fail_eq] at hf
        cases hf

/-- Whatever is done to a session, it reports at one time. -/
theorem step_reports (s : AgentSession) (m : Move) : ∃ now, Reports now s (step s m) := by
  cases m with
  | ingest pcm =>
    have hg : (s.ingest pcm).goal = s.goal := by
      unfold ingest
      split
      · rfl
      · dsimp only
        split <;> rfl
    exact ⟨0, .of_fields hg (s.ingest_fields pcm).1⟩
  | tick i =>
    by_cases ht : s.Ticks
    · obtain ⟨next, heq⟩ := loopPass_ticks ht i
      rw [step, heq]
      exact ⟨_, (s.runTick_reports s.nextClassifyAt i).trans (.of_fields rfl rfl)⟩
    · rw [step, loopPass_rests ht]
      exact ⟨0, .refl s⟩
  | abort reason =>
    rw [step, abort]
    split
    · exact ⟨0, .refl s⟩
    · exact ⟨_, fail_reports s s.audioSeconds reason⟩

theorem act_reports (s : AgentSession) (a : Act) : ∃ now, Reports now s (s.act a) := by
  cases a with
  | close => exact ⟨0, .of_fields rfl rfl⟩
  | move m =>
    cases m with
    | ingest pcm =>
      obtain ⟨now, h⟩ := step_reports { s with crashed := false } (.ingest pcm)
      exact ⟨now, (Reports.of_fields rfl rfl : Reports now s { s with crashed := false }).trans h⟩
    | tick i => exact step_reports s (.tick i)
    | abort reason => exact step_reports s (.abort reason)

/-- **`events_rounded`**: over every life of a session, its events have the floats of a `CallEvent`. -/
theorem events_rounded (callId : String) (settings : Settings) (cfg : FsmConfig) (goal sid : Option String)
    (as : List Act) : ∀ e ∈ reportedEvents (Run.exec act (new callId settings cfg goal sid) as).trace, e.Rounded := by
  refine Run.exec_inv (I := fun s : AgentSession => ∀ e ∈ reportedEvents s.trace, e.Rounded)
    (fun s a h e he => ?_) as _ (by simp [new, reportedEvents])
  obtain ⟨now, -, es, htr, hes⟩ := act_reports s a
  rw [reportedEvents, htr, List.filterMap_append, List.mem_append] at he
  rcases he with he | he
  · exact h e he
  · obtain ⟨f, hf, hmem⟩ := List.mem_filterMap.1 he
    cases f with
    | emit ev =>
      cases hmem
      exact (hes _ hf).2
    | _ => cases hmem

/-- **`stamps_sorted`**: over every life of a session whose classifier interval is not negative, the events it emits
are in the order of their times, within the audio it has been fed; and each payload tells its event's time to the
millisecond, so these are in order too. -/
theorem stamps_sorted (callId : String) (settings : Settings) (cfg : FsmConfig) (goal sid : Option String)
    (hms : 0 ≤ settings.classifierIntervalMs) (as : List Act) :
    let s := Run.exec act (new callId settings cfg goal sid) as
    (stamps s.trace).Pairwise (· ≤ ·) ∧ (∀ t ∈ stamps s.trace, 0 ≤ t ∧ t ≤ s.audioSeconds) ∧
      ((reportedEvents s.trace).map fun e => payloadTime (e.payload callId)) =
        ((stamps s.trace).map (pyRound · 3)).map some ∧
      ((stamps s.trace).map (pyRound · 3)).Pairwise (· ≤ ·) := by
  intro s
  have hi : (0 : ℚ) ≤ settings.interval := div_nonneg (by exact_mod_cast hms) (by norm_num)
  have h : Ordered s := Run.exec_inv act_ordered as _ ⟨hi, .nil, by simp [new, stamps], le_rfl, by simp [new, stamps]⟩
  refine ⟨h.sorted, h.within, ?_, List.pairwise_map.2 (h.sorted.imp fun hxy => pyRound_mono hxy 3)⟩
  simp only [stamps_eq, List.map_map]
  exact List.map_congr_left fun e _ => payloadTime_payload callId e

/-- Half a second of audio, one tick, and the user hangs up. -/
theorem stamps_hangUp :
    let s := Run.exec act (new "CA1" {} {} none none) [.move (.ingest (List.replicate 4000 0)),
      .move (.tick { cls := { label := .silence, confidence := 1 } }), .move (.abort "user_left")]
    stamps s.trace = [0, 1 / 2] ∧ (stamps s.trace).Pairwise (· ≤ ·) :=
  ⟨by decide +kernel, (stamps_sorted "CA1" {} {} none none (by decide) _).1⟩

end AgentSession

end DialPass
