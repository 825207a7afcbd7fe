import DialPass.Session.History
/-!
# What a call of `feed_audio` or `abort` comes to (session.py:123, session.py:300)

The transport may feed a session whose executor it has closed, so nothing here asks for `Sound`.
`Appends r es s t`: on its way from `s` to `t`, `on_bridge` answering `r`, the session did `es`, and `es`
tells how the call stands: it ended exactly if `es` gives it up or hands it over.
-/

namespace DialPass

/-- CallCompleted (events.py). -/
def Effect.Completes : Effect → Prop
  | .emit (.callCompleted _ _) => True
  | _ => False

/-- `on_fail`. -/
def Effect.GivesUp : Effect → Prop
  | .onFail _ => True
  | _ => False

instance : DecidablePred Effect.Completes := fun e => by unfold Effect.Completes; split <;> infer_instance
instance : DecidablePred Effect.GivesUp := fun e => by unfold Effect.GivesUp; split <;> infer_instance

/-- An effect that neither hands the call over nor ends it. -/
def Effect.Inert : Effect → Prop
  | .emit (.callCompleted _ _) | .onFail _ | .onBridge => False
  | _ => True

theorem Effect.Inert.not_completes {e : Effect} (h : e.Inert) : ¬ e.Completes := by
  unfold Completes
  split
  · exact fun _ => h
  · exact id

theorem Effect.Inert.not_givesUp {e : Effect} (h : e.Inert) : ¬ e.GivesUp := by
  unfold GivesUp
  split
  · exact fun _ => h
  · exact id

namespace AgentSession

/-- The call was reported as completed. -/
def Completed (s : AgentSession) : Prop := ∃ e ∈ s.trace, e.Completes

instance (s : AgentSession) : Decidable s.Completed := inferInstanceAs (Decidable (∃ e ∈ _, _))

structure Appends (r : BridgeReply) (es : List Effect) (s t : AgentSession) : Prop where
  trace : t.trace = s.trace ++ es
  callId : t.callId = s.callId
  userLegSid : t.userLegSid = s.userLegSid
  still : s.finished = true → t.finished = true
  handed : .onBridge ∈ es → t.finished = true
  gaveUp : (∃ e ∈ es, e.GivesUp) → t.finished = true
  completed : (∃ e ∈ es, e.Completes) → r = .ok ∧ .onBridge ∈ es
  answered : .onBridge ∈ es → r = .ok → ∃ e ∈ es, e.Completes
  ended : t.finished = true → s.finished = false → (∃ e ∈ es, e.GivesUp) ∨ ∃ e ∈ es, e.Completes

namespace Appends

variable {r : BridgeReply} {s t u : AgentSession} {es fs : List Effect}

/-- Only inert effects and the rest of the record. -/
theorem of_inert (htr : t.trace = s.trace ++ es) (hid : t.callId = s.callId)
    (hleg : t.userLegSid = s.userLegSid) (hfin : t.finished = s.finished) (hes : ∀ e ∈ es, e.Inert) :
    Appends r es s t where
  trace := htr
  callId := hid
  userLegSid := hleg
  still h := hfin.trans h
  handed h := (hes _ h).elim
  gaveUp := fun ⟨e, he, hg⟩ => absurd hg (hes e he).not_givesUp
  completed := fun ⟨e, he, hc⟩ => absurd hc (hes e he).not_completes
  answered h := (hes _ h).elim
  ended h hs := by rw [hfin, hs] at h; cases h

theorem refl (s : AgentSession) : Appends r [] s s := of_inert (by simp) rfl rfl rfl (by simp)

theorem trans (h : Appends r es s t) (h' : Appends r fs t u) : Appends r (es ++ fs) s u where
  trace := by rw [h'.trace, h.trace, List.append_assoc]
  callId := h'.callId.trans h.callId
  userLegSid := h'.userLegSid.trans h.userLegSid
  still hs := h'.still (h.still hs)
  handed hb := by
    rcases List.mem_append.1 hb with hb | hb
    · exact h'.still (h.handed hb)
    · exact h'.handed hb
  gaveUp := by
    rintro ⟨e, he, hg⟩
    rcases List.mem_append.1 he with he | he
    · exact h'.still (h.gaveUp ⟨e, he, hg⟩)
    · exact h'.gaveUp ⟨e, he, hg⟩
  completed := by
    rintro ⟨e, he, hc⟩
    rcases List.mem_append.1 he with he | he
    · obtain ⟨hr, hb⟩ := h.completed ⟨e, he, hc⟩
      exact ⟨hr, List.mem_append_left _ hb⟩
    · obtain ⟨hr, hb⟩ := h'.completed ⟨e, he, hc⟩
      exact ⟨hr, List.mem_append_right _ hb⟩
  answered hb hr := by
    rcases List.mem_append.1 hb with hb | hb
    · obtain ⟨e, he, hc⟩ := h.answered hb hr
      exact ⟨e, List.mem_append_left _ he, hc⟩
    · obtain ⟨e, he, hc⟩ := h'.answered hb hr
      exact ⟨e, List.mem_append_right _ he, hc⟩
  ended hu hs := by
    cases ht : t.finished with
    | true =>
      rcases h.ended ht hs with ⟨e, he, hg⟩ | ⟨e, he, hc⟩
      · exact .inl ⟨e, List.mem_append_left _ he, hg⟩
      · exact .inr ⟨e, List.mem_append_left _ he, hc⟩
    | false =>
      rcases h'.ended hu ht with ⟨e, he, hg⟩ | ⟨e, he, hc⟩
      · exact .inl ⟨e, List.mem_append_right _ he, hg⟩
      · exact .inr ⟨e, List.mem_append_right _ he, hc⟩

end Appends

/-- Some effects lead from `s` to `t`. -/
def Leads (r : BridgeReply) (s t : AgentSession) : Prop := ∃ es, Appends r es s t

variable {r : BridgeReply} {s t u : AgentSession}

theorem Leads.refl (s : AgentSession) : Leads r s s := ⟨[], .refl s⟩

theorem Leads.trans (h : Leads r s t) (h' : Leads r t u) : Leads r s u := by
  obtain ⟨es, h⟩ := h
  obtain ⟨fs, h'⟩ := h'
  exact ⟨es ++ fs, h.trans h'⟩

/-- The rest of the record may change. -/
theorem Leads.of_fields (htr : t.trace = s.trace) (hid : t.callId = s.callId)
    (hleg : t.userLegSid = s.userLegSid) (hfin : t.finished = s.finished) : Leads r s t :=
  ⟨[], .of_inert (by rw [htr, List.append_nil]) hid hleg hfin (by simp)⟩

theorem log_leads (s : AgentSession) (e : Effect) (he : e.Inert) : Leads r s (s.log e) :=
  ⟨[e], .of_inert rfl rfl rfl rfl (by simpa using he)⟩

theorem emitStateChange_appends (s : AgentSession) (before : CallState) (now : ℚ) :
    ∃ es, s.emitStateChange before now = { s with trace := s.trace ++ es } ∧ ∀ e ∈ es, e.Inert := by
  unfold emitStateChange
  split
  · exact ⟨_, rfl, by simp [Effect.Inert]⟩
  · exact ⟨[], by simp, by simp⟩

theorem moved_leads (s : AgentSession) (fsm : CallStateMachine) (now : ℚ) : Leads r s (s.moved fsm now) := by
  obtain ⟨es, he, hin⟩ := emitStateChange_appends { s with fsm } s.fsm.state now
  refine ⟨es, ?_⟩
  rw [moved, he]
  exact .of_inert rfl rfl rfl rfl hin

theorem fail_leads (s : AgentSession) (now : ℚ) (reason : String) : Leads r s (s.fail now reason) := by
  refine ⟨_, by rw [fail_eq], by rw [fail_eq], by rw [fail_eq], ?_, ?_, ?_, ?_, ?_, ?_⟩ <;>
    simp [fail_eq, Effect.GivesUp, Effect.Completes]

theorem abort_leads (s : AgentSession) (reason : String) : Leads r s (s.abort reason) := by
  unfold abort
  split
  · exact .refl s
  · exact fail_leads s _ _

/-- `_bridge` calls `on_bridge` once, and completes the call exactly if that returns. -/
theorem bridge_leads (s : AgentSession) (now : ℚ) : Leads r s (s.bridge now r) := by
  cases r with
  | ok =>
    obtain ⟨e1, h1, hin1⟩ := emitStateChange_appends
      { (s.emit (.humanDetected now)).log .onBridge with fsm := s.fsm.bridged } s.fsm.state now
    obtain ⟨e2, h2, hin2⟩ := emitStateChange_appends
      { s with
        fsm := s.fsm.bridged.completed
        trace := s.trace ++ [.emit (.humanDetected now), .onBridge] ++ e1 ++ [.emit (.bridgeStarted now)] }
      s.fsm.bridged.state now
    refine ⟨[.emit (.humanDetected now), .onBridge] ++ e1 ++ [.emit (.bridgeStarted now)] ++ e2 ++
      [.emit (.callCompleted now "human_bridged")], ?_⟩
    have hnone : ∀ e ∈ [Effect.emit (.humanDetected now), .onBridge] ++ e1 ++ [.emit (.bridgeStarted now)] ++ e2 ++
        [.emit (.callCompleted now "human_bridged")], ¬ e.GivesUp := by
      intro e he
      simp only [List.append_assoc, List.cons_append, List.nil_append, List.mem_cons, List.mem_append,
        List.not_mem_nil, or_false] at he
      rcases he with rfl | rfl | he | rfl | he | rfl
      · nofun
      · nofun
      · exact (hin1 e he).not_givesUp
      · nofun
      · exact (hin2 e he).not_givesUp
      · nofun
    have heq : s.bridge now .ok = { s with
        fsm := s.fsm.bridged.completed
        finished := true
        trace := s.trace ++ ([.emit (.humanDetected now), .onBridge] ++ e1 ++ [.emit (.bridgeStarted now)] ++ e2 ++
          [.emit (.callCompleted now "human_bridged")]) } := by
      simp only [emit, log, List.append_assoc, List.cons_append, List.nil_append] at h1 h2
      simp only [bridge, emit, log, List.append_assoc, List.cons_append, List.nil_append, h1, h2]
    rw [heq]
    refine ⟨rfl, rfl, rfl, fun _ => rfl, fun _ => rfl, fun _ => rfl, fun _ => ⟨rfl, by simp⟩, fun _ _ => ?_,
      fun _ _ => .inr ?_⟩ <;> exact ⟨.emit (.callCompleted now "human_bridged"), by simp, trivial⟩
  | unavailable reason =>
    have hne : BridgeReply.unavailable reason ≠ .ok := by simp
    obtain ⟨reason', he⟩ := bridge_failed_eq (s := s) hne now
    refine ⟨_, by rw [he], by rw [he], by rw [he], ?_, ?_, ?_, ?_, ?_, ?_⟩ <;>
      simp [he, Effect.GivesUp, Effect.Completes]
  | raised =>
    have hne : BridgeReply.raised ≠ .ok := by simp
    obtain ⟨reason', he⟩ := bridge_failed_eq (s := s) hne now
    refine ⟨_, by rw [he], by rw [he], by rw [he], ?_, ?_, ?_, ?_, ?_, ?_⟩ <;>
      simp [he, Effect.GivesUp, Effect.Completes]

theorem submit_leads (s : AgentSession) (j : Job) : Leads r s (s.submit j) := by
  unfold submit
  split
  · rename_i exec _
    exact (Leads.of_fields rfl rfl rfl rfl : Leads r s { s with exec }).trans (log_leads _ (.submit j) trivial)
  · exact .of_fields rfl rfl rfl rfl

theorem startMenu_leads (s : AgentSession) (now : ℚ) : Leads r s (s.startMenu now) := by
  refine (log_leads s (.emit (.tier2Woken now .menu)) trivial).trans (Leads.trans ?_ (submit_leads _ _))
  exact .of_fields rfl rfl rfl rfl

theorem startProbe_leads (s : AgentSession) (now : ℚ) : Leads r s (s.startProbe now) := by
  refine (log_leads s (.emit (.tier2Woken now .probe)) trivial).trans (Leads.trans ?_ (submit_leads _ _))
  exact .of_fields rfl rfl rfl rfl

theorem dispatch_leads (s : AgentSession) (action : Action) (now : ℚ) : Leads r s (s.dispatch action now r) := by
  cases action with
  | none => exact .refl s
  | wakeTier2Menu => exact .of_fields rfl rfl rfl rfl
  | wakeTier2Probe =>
    simp only [dispatch]
    split
    · exact startProbe_leads s now
    · exact .refl s
  | bridge => exact bridge_leads s now
  | fail => exact fail_leads s now _

theorem classify_leads (s : AgentSession) (now : ℚ) (c : Classification) : Leads r s (s.classify now c) :=
  (log_leads s (.classify _) trivial).trans (log_leads _ (.emit (.frameClassified ..)) trivial)

theorem observe_leads (s : AgentSession) (now : ℚ) (i : Tick) : Leads i.onBridge s (s.observe now i) := by
  rw [observe_eq]
  exact (moved_leads s _ now).trans (dispatch_leads _ _ now)

theorem wakeMenu_leads (s : AgentSession) (now : ℚ) : Leads r s (s.wakeMenu now) := by
  unfold wakeMenu
  split
  · split
    · have hset : Leads r s { s with menuWakeDue := none } := .of_fields rfl rfl rfl rfl
      dsimp only
      split
      · exact hset.trans (startMenu_leads _ now)
      · exact hset
    · exact .refl s
  · exact .refl s

theorem applyMenu_leads (s : AgentSession) (d : MenuDecision) (now : ℚ) : Leads r s (s.applyMenu d now) := by
  unfold applyMenu
  split
  · rename_i digits _ _
    refine (log_leads s (.dtmfSender digits) trivial).trans
      ((log_leads _ (.emit (.dtmfSent now digits)) trivial).trans ?_)
    exact .of_fields rfl rfl rfl rfl
  · exact .of_fields rfl rfl rfl rfl

theorem applyProbe_leads (s : AgentSession) (o : ProbeOutcome) (now : ℚ) :
    Leads r s (s.applyProbe o now r) := by
  rw [applyProbe_eq]
  exact (log_leads s (.emit (.probeResult now o.isHuman)) trivial).trans
    ((moved_leads _ _ now).trans (dispatch_leads _ _ now))

theorem tier2Failed_leads (s : AgentSession) (kind : Tier2Kind) (e : Tier2Error) (now : ℚ) :
    Leads r s (s.tier2Failed kind e now) := by
  cases e <;> simp only [tier2Failed] <;> (try split) <;> first | exact fail_leads s now _ | exact .refl s

theorem applyResult_leads (s : AgentSession) (kind : Tier2Kind) (result : Tier2Result) (now : ℚ) :
    Leads r s (s.applyResult kind result now r) := by
  unfold applyResult
  split
  · exact tier2Failed_leads s kind _ now
  · split
    · exact applyMenu_leads s _ now
    · exact applyProbe_leads s _ now
    · exact .of_fields rfl rfl rfl rfl

theorem pollTier2_leads (s : AgentSession) (now : ℚ) (i : Tick) : Leads i.onBridge s (s.pollTier2 now i) := by
  unfold pollTier2
  split
  · exact .refl s
  · split
    · exact .refl s
    · rename_i exec j result _
      have htake : Leads i.onBridge s { s with exec, tier2Kind := none } := .of_fields rfl rfl rfl rfl
      exact htake.trans ((log_leads _ (.polled j result) trivial).trans (applyResult_leads _ _ result now))

theorem runTick_leads (s : AgentSession) (now : ℚ) (i : Tick) : Leads i.onBridge s (s.runTick now i) := by
  have hobs : Leads i.onBridge s ((s.classify now i.cls).observe now i) :=
    (classify_leads s now i.cls).trans (observe_leads _ now i)
  unfold runTick
  dsimp only
  split
  · exact hobs
  · split
    · exact hobs.trans (wakeMenu_leads _ now)
    · exact hobs.trans ((wakeMenu_leads _ now).trans (pollTier2_leads _ now i))

theorem loopPass_leads (s : AgentSession) (i : Tick) : Leads i.onBridge s (s.loopPass i) := by
  unfold loopPass
  split
  · exact .refl s
  · have htick := runTick_leads s s.nextClassifyAt i
    dsimp only
    split
    · exact htick
    · exact htick.trans (.of_fields rfl rfl rfl rfl)

theorem ingest_leads (s : AgentSession) (pcm : Pcm) : Leads r s (s.ingest pcm) := by
  unfold ingest
  split
  · exact .refl s
  · dsimp only
    split <;> exact .of_fields rfl rfl rfl rfl

/-- One answer of `on_bridge` for all ticks of a call. -/
theorem feedAudio_leads (s : AgentSession) (pcm : Pcm) (ticks : List Tick) (h : ∀ i ∈ ticks, i.onBridge = r) :
    Leads r s (s.feedAudio pcm ticks) := by
  unfold feedAudio
  have h0 : Leads r s (s.ingest pcm) := ingest_leads s pcm
  generalize s.ingest pcm = t at h0 ⊢
  induction ticks generalizing t with
  | nil => exact h0
  | cons i ticks ih =>
    refine ih (fun j hj => h j (List.mem_cons_of_mem _ hj)) _ (h0.trans ?_)
    rw [← h i (by simp)]
    exact loopPass_leads t i

end AgentSession

end DialPass
