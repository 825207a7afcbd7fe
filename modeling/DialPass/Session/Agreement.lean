import DialPass.Session.Life
/-!
# Whether the machine knows that the call has ended (session.py:267-306, state.py:221-229)

`_bridge` reports the end of a call to its machine. `_fail` does not: it emits `CallFailed` and sets
`finished`, and nobody calls `CallStateMachine.failed`. So the machine is in FAILED only when it went there
itself, on a non-connect label. `agrees_iff` is exact.
-/

namespace DialPass

/-- CallFailed (events.py). -/
def Effect.Fails : Effect → Prop
  | .emit (.callFailed _ _) => True
  | _ => False

/-- A StateChanged to FAILED. -/
def Effect.ToFailed : Effect → Prop
  | .emit (.stateChanged _ _ .failed) => True
  | _ => False

theorem Effect.Decisive.of_completes {e : Effect} (h : e.Completes) : e.Decisive := by
  unfold Effect.Completes at h
  split at h
  · trivial
  · exact h.elim

theorem Effect.Decisive.of_fails {e : Effect} (h : e.Fails) : e.Decisive := by
  unfold Effect.Fails at h
  split at h
  · trivial
  · exact h.elim

namespace AgentSession

/-- The call was reported as failed. -/
def Failed (s : AgentSession) : Prop := ∃ e ∈ s.trace, e.Fails

/-- The machine and the reports agree on how the call stands. -/
structure Agrees (s : AgentSession) : Prop where
  finished : s.finished = true ↔ s.fsm.state = .done ∨ s.fsm.state = .failed
  completed : s.Completed → s.fsm.state = .done
  failed : s.Failed → s.fsm.state = .failed ∧ ∃ e ∈ s.trace, e.ToFailed
  neither : ¬ s.Completed → ¬ s.Failed → s.fsm.state ≠ .done ∧ s.fsm.state ≠ .failed

/-- `finished` says that an end was reported. -/
def Ended (s : AgentSession) : Prop := s.finished = true ↔ s.Completed ∨ s.Failed

/-- The step does not end the call in failure, unless on the label stream. -/
def FailsByLabels (s : AgentSession) : Act → Prop
  | .move (.tick i) => s.Ticks → ¬ s.fsm.Fails i.cls.label i.cls.confidence →
      ∀ u, s.toPoll s.nextClassifyAt i = some u → ¬ u.GivesUp i
  | .move (.abort _) => s.finished = true
  | _ => True

/-! ## A walk ends nothing -/

variable {s t u : AgentSession}

theorem Walks.completed_iff (h : Walks s t) : t.Completed ↔ s.Completed := by
  obtain ⟨es, hw⟩ := h
  rw [Completed, exists_append hw.trace]
  exact or_iff_left fun ⟨e, he, hc⟩ => hw.calm e he (.of_completes hc)

theorem Walks.failed_iff (h : Walks s t) : t.Failed ↔ s.Failed := by
  obtain ⟨es, hw⟩ := h
  rw [Failed, exists_append hw.trace]
  exact or_iff_left fun ⟨e, he, hc⟩ => hw.calm e he (.of_fails hc)

theorem Walks.finished_eq (h : Walks s t) : t.finished = s.finished := h.elim fun _ hw => hw.finished

theorem Walks.state_iff (h : Walks s t) {st : CallState} (hl : st ∉ liveStates) :
    t.fsm.state = st ↔ s.fsm.state = st := h.elim fun _ hw => hw.settled st hl

theorem Walks.ended (h : Walks s t) (he : Ended s) : Ended t := by
  rw [Ended, h.finished_eq, h.completed_iff, h.failed_iff]
  exact he

theorem Walks.agrees (h : Walks s t) (ha : Agrees s) : Agrees t := by
  have hd : t.fsm.state = .done ↔ s.fsm.state = .done := h.state_iff (by decide)
  have hf : t.fsm.state = .failed ↔ s.fsm.state = .failed := h.state_iff (by decide)
  refine ⟨?_, ?_, ?_, ?_⟩
  · rw [h.finished_eq, hd, hf]; exact ha.finished
  · rw [h.completed_iff, hd]; exact ha.completed
  · rw [h.failed_iff, hf]
    intro hs
    obtain ⟨hst, e, he, hto⟩ := ha.failed hs
    obtain ⟨es, hw⟩ := h
    exact ⟨hst, e, by rw [hw.trace]; exact List.mem_append_left _ he, hto⟩
  · rw [h.completed_iff, h.failed_iff, Ne, Ne, hd, hf]; exact ha.neither

/-! ## The ends of a call -/

theorem fail_failed (s : AgentSession) (now : ℚ) (reason : String) : (s.fail now reason).Failed :=
  ⟨.emit (.callFailed now reason), by simp [fail_eq], trivial⟩

theorem fail_ended (s : AgentSession) (now : ℚ) (reason : String) : Ended (s.fail now reason) :=
  iff_of_true (by rw [fail_eq]) (.inr (fail_failed s now reason))

/-- Reporting a failure agrees with the machine exactly if the machine had failed before. -/
theorem fail_agrees_iff (h : Agrees s) (now : ℚ) (reason : String) :
    Agrees (s.fail now reason) ↔ s.fsm.state = .failed := by
  have hst : (s.fail now reason).fsm.state = s.fsm.state := by rw [fail_eq]
  constructor
  · intro ha
    rw [← hst]
    exact (ha.failed (fail_failed s now reason)).1
  · intro hf
    have hto : ∃ e ∈ s.trace, e.ToFailed := by
      by_contra hn
      have hnf : ¬ s.Failed := fun hs => hn (h.failed hs).2
      have hnc : ¬ s.Completed := fun hs => by
        have hd := h.completed hs
        rw [hf] at hd
        cases hd
      exact (h.neither hnc hnf).2 hf
    obtain ⟨e, he, hto⟩ := hto
    refine ⟨iff_of_true (by rw [fail_eq]) (.inr (hst.trans hf)), fun hc => ?_, fun _ => ⟨hst.trans hf, e, ?_, hto⟩,
      fun _ hn => absurd (fail_failed s now reason) hn⟩
    · have hnew : (s.fail now reason).Completed ↔ s.Completed ∨ _ := exists_append (by rw [fail_eq])
      rcases hnew.1 hc with hs | hs
      · rw [hst]; exact h.completed hs
      · simp [Effect.Completes] at hs
    · rw [fail_eq]
      exact List.mem_append_left _ he

/-- An unfinished call whose machine agrees has reported no end and reached none. -/
theorem Agrees.live (h : Agrees s) (he : Ended s) (hf : s.finished = false) :
    ¬ s.Completed ∧ ¬ s.Failed ∧ s.fsm.state ≠ .done ∧ s.fsm.state ≠ .failed := by
  have hn : ¬ (s.Completed ∨ s.Failed) := fun hs => by
    have ht := he.2 hs
    rw [hf] at ht
    cases ht
  rw [not_or] at hn
  exact ⟨hn.1, hn.2, h.neither hn.1 hn.2⟩

/-- A poll of a live session keeps the machine in agreement exactly if it does not give the call up. -/
theorem pollTier2_agrees_iff (h : Agrees s) (he : Ended s) (hf : s.finished = false) (now : ℚ) (i : Tick) :
    Agrees (s.pollTier2 now i) ↔ ¬ s.GivesUp i := by
  obtain ⟨hnc, hnf, -, hst⟩ := h.live he hf
  rcases s.pollTier2_outcome now i with ⟨hg, -, hw⟩ | ⟨hg, -, u, reason, hw, heq⟩ | ⟨-, es, fs, htr, ⟨j, r, rfl⟩, hfin, hr⟩
  · exact iff_of_true (hw.agrees h) hg
  · rw [heq, fail_agrees_iff (hw.agrees h), hw.state_iff (by decide)]
    exact iff_of_false hst (not_not.2 hg)
  · rw [List.append_assoc, List.append_assoc] at htr
    rcases hr with ⟨hg, -, rfl, hd⟩ | ⟨hg, -, ⟨reason, rfl⟩, hh⟩
    · refine iff_of_true ⟨iff_of_true hfin (.inl hd), fun _ => hd, fun hs => ?_, fun hs => absurd ?_ hs⟩ hg
      · rw [Failed, exists_append htr] at hs
        rcases hs with hs | hs
        · exact absurd hs hnf
        · simp [bridgeCall, bridgeDone, Effect.Fails] at hs
      · rw [Completed, exists_append htr]
        exact .inr ⟨.emit (.callCompleted now "human_bridged"), by simp [bridgeDone], trivial⟩
    · refine iff_of_false (fun ha => ?_) (not_not.2 hg)
      have hfl : (s.pollTier2 now i).Failed := by
        rw [Failed, exists_append htr]
        exact .inr ⟨.emit (.callFailed now reason), by simp, trivial⟩
      have hfs := (ha.failed hfl).1
      rw [hh] at hfs
      cases hfs

theorem pollTier2_ended (he : Ended s) (now : ℚ) (i : Tick) : Ended (s.pollTier2 now i) := by
  rcases s.pollTier2_outcome now i with ⟨-, -, hw⟩ | ⟨-, -, u, reason, hw, heq⟩ | ⟨-, es, fs, htr, -, hfin, hr⟩
  · exact hw.ended he
  · rw [heq]; exact fail_ended u now reason
  · refine iff_of_true hfin ?_
    rcases hr with ⟨-, -, rfl, -⟩ | ⟨-, -, ⟨reason, rfl⟩, -⟩
    · exact .inl ⟨.emit (.callCompleted now "human_bridged"), by simp [htr, bridgeDone], trivial⟩
    · exact .inr ⟨.emit (.callFailed now reason), by simp [htr], trivial⟩

/-! ## One tick -/

theorem observe_ended (he : Ended s) (now : ℚ) (i : Tick) : Ended (s.observe now i) := by
  by_cases hn : s.fsm.Fails i.cls.label i.cls.confidence
  · obtain ⟨htr, -, hfin⟩ := s.observe_fails now i hn
    exact iff_of_true hfin (.inr ⟨.emit (.callFailed now "non_connect"), by simp [htr], trivial⟩)
  · exact (observe_walks s now i hn).ended he

theorem runTick_ended (he : Ended s) (now : ℚ) (i : Tick) : Ended (s.runTick now i) := by
  have ho : Ended ((s.classify now i.cls).observe now i) := observe_ended ((classify_walks s now i.cls).ended he) now i
  rcases s.runTick_cases now i with ⟨u, -, hw, heq⟩ | ⟨-, hw⟩
  · rw [heq]; exact pollTier2_ended (hw.ended ho) now i
  · exact hw.ended ho

/-- The label stream's own give-up agrees with the machine, which took it. -/
theorem observe_fails_agrees (h : Agrees s) (he : Ended s) (hf : s.finished = false) (now : ℚ) (i : Tick)
    (hn : s.fsm.Fails i.cls.label i.cls.confidence) : Agrees (s.observe now i) := by
  obtain ⟨htr, hst, hfin⟩ := s.observe_fails now i hn
  have hnc := (h.live he hf).1
  refine ⟨iff_of_true hfin (.inr hst), fun hc => ?_, fun _ => ⟨hst, ?_⟩, fun _ hn => absurd ?_ hn⟩
  · rw [Completed, exists_append htr] at hc
    rcases hc with hc | hc
    · exact absurd hc hnc
    · simp [Effect.Completes] at hc
  · exact ⟨.emit (.stateChanged now s.fsm.state .failed), by simp [htr], trivial⟩
  · exact ⟨.emit (.callFailed now "non_connect"), by simp [htr], trivial⟩

theorem runTick_agrees_iff (h : Agrees s) (he : Ended s) (hf : s.finished = false) (now : ℚ) (i : Tick) :
    Agrees (s.runTick now i) ↔ (¬ s.fsm.Fails i.cls.label i.cls.confidence →
      ∀ u, s.toPoll now i = some u → ¬ u.GivesUp i) := by
  obtain ⟨hm, -, hfin⟩ := s.classify_fields now i.cls
  have hcw := classify_walks s now i.cls
  have hca := hcw.agrees h
  have hce := hcw.ended he
  by_cases hn : s.fsm.Fails i.cls.label i.cls.confidence
  · -- whatever the poll still finds, the machine has failed already
    refine iff_of_true ?_ fun hn' => absurd hn hn'
    have hn' : (s.classify now i.cls).fsm.Fails i.cls.label i.cls.confidence := by rw [hm]; exact hn
    have hoa := observe_fails_agrees hca hce (hfin.trans hf) now i hn'
    have hst := ((s.classify now i.cls).observe_fails now i hn').2.1
    rcases s.runTick_cases now i with ⟨u, -, hw, heq⟩ | ⟨-, hw⟩
    · have hus : u.fsm.state = .failed := (hw.state_iff (by decide)).2 hst
      rw [heq]
      rcases u.pollTier2_outcome now i with ⟨-, -, hw'⟩ | ⟨-, -, v, reason, hw', heq'⟩ | ⟨hb, -⟩
      · exact hw'.agrees (hw.agrees hoa)
      · rw [heq', fail_agrees_iff (hw'.agrees (hw.agrees hoa)), hw'.state_iff (by decide)]
        exact hus
      · have hev := hb.1
        rw [hus] at hev
        cases hev
    · exact hw.agrees hoa
  · have how := observe_walks (s.classify now i.cls) now i (by rw [hm]; exact hn)
    have hoa := how.agrees hca
    rcases s.runTick_cases now i with ⟨u, hu, hw, heq⟩ | ⟨hu, hw⟩
    · have huf : u.finished = false := by rw [hw.finished_eq, how.finished_eq, hfin, hf]
      rw [heq, pollTier2_agrees_iff (hw.agrees hoa) (hw.ended (how.ended hce)) huf, hu]
      simp [hn]
    · refine iff_of_true (hw.agrees hoa) fun _ u hu' => ?_
      rw [hu] at hu'
      cases hu'

/-! ## Runs -/

theorem act_ended (s : AgentSession) (a : Act) (h : Ended s) : Ended (s.act a) := by
  cases a with
  | close => exact h
  | move m =>
    cases m with
    | ingest pcm =>
      obtain ⟨htr, -, hf, -⟩ := ingest_fields { s with crashed := false } pcm
      rw [Ended, act, Completed, Failed, htr, hf]
      exact h
    | tick i =>
      by_cases ht : s.Ticks
      · obtain ⟨n, he⟩ := loopPass_ticks ht i
        rw [act, he]
        exact runTick_ended h _ i
      · rw [act, loopPass_rests ht]; exact h
    | abort reason =>
      rw [act, abort]
      split
      · exact h
      · exact fail_ended s _ reason

theorem act_agrees_iff (s : AgentSession) (a : Act) (he : Ended s) (h : Agrees s) :
    Agrees (s.act a) ↔ FailsByLabels s a := by
  cases a with
  | close => exact iff_of_true ⟨h.finished, h.completed, h.failed, h.neither⟩ trivial
  | move m =>
    cases m with
    | ingest pcm =>
      obtain ⟨htr, hm, hf, -⟩ := ingest_fields { s with crashed := false } pcm
      have hw : Walks s ({ s with crashed := false }.ingest pcm) := .of_fields htr (by rw [hm]) hf
      exact iff_of_true (hw.agrees h) trivial
    | tick i =>
      by_cases ht : s.Ticks
      · obtain ⟨n, heq⟩ := loopPass_ticks ht i
        have hres : Agrees (s.act (.move (.tick i))) ↔ Agrees (s.runTick s.nextClassifyAt i) := by
          rw [act, heq]
          exact ⟨fun ha => ⟨ha.finished, ha.completed, ha.failed, ha.neither⟩,
            fun ha => ⟨ha.finished, ha.completed, ha.failed, ha.neither⟩⟩
        rw [hres, runTick_agrees_iff h he ht.1.1]
        simp [FailsByLabels, ht]
      · rw [act, loopPass_rests ht]
        exact iff_of_true h fun ht' => absurd ht' ht
    | abort reason =>
      rw [act, abort]
      cases hf : s.finished with
      | true => exact iff_of_true h hf
      | false =>
        rw [if_neg (by simp), fail_agrees_iff h]
        refine iff_of_false (h.live he hf).2.2.2 fun hc => ?_
        rw [FailsByLabels, hf] at hc
        cases hc

/-- **`agrees_iff`**: over every life of a session, machine and reports agree in every state passed through
exactly when the call is only ever given up by the label stream: it is not aborted while it lasts, and no poll
finds an error that ends it or a human whose handoff fails. -/
theorem agrees_iff (callId : String) (settings : Settings) (cfg : FsmConfig) (goal sid : Option String)
    (as : List Act) :
    Run.Always act Agrees (new callId settings cfg goal sid) as ↔
      Run.Along act FailsByLabels (new callId settings cfg goal sid) as := by
  have hnc : ¬ (new callId settings cfg goal sid).Completed := by simp [Completed, new]
  have hnf : ¬ (new callId settings cfg goal sid).Failed := by simp [Failed, new]
  refine Run.always_iff_along act_ended act_agrees_iff as _ (iff_of_false (by simp [new]) (not_or.2 ⟨hnc, hnf⟩))
    ⟨by simp [new], fun hc => absurd hc hnc, fun hf => absurd hf hnf, fun _ _ => by simp [new]⟩

/-- The user hangs up before anybody has answered: the call has failed, and the machine is DIALING. -/
theorem hungUp_not_agrees : ¬ Agrees (Run.exec act (new "CA1" {} {} none none) [.move (.abort "user_left")]) := by
  intro h
  have hst := (h.failed ⟨.emit (.callFailed 0 "user_left"), by decide +kernel, trivial⟩).1
  exact absurd hst (by decide +kernel)

end AgentSession

end DialPass
