import DialPass.Session.Life
/-!
# What the events tell of the machine and of the bridge (session.py:260-318)

`StateChanged` is emitted from a comparison before and after each operation of the machine. `replays` says
that nothing is lost by it: the events replay the machine along the documented graph, `on_bridge` is called
once at most, right after the verdict and the edge that ask for it, and DONE, `BridgeStarted` and
`CallCompleted` each tell that it returned. An act is either `Plain` or `Crossing`.
-/

namespace DialPass

/-- BridgeStarted (events.py). -/
def Effect.Starts : Effect → Prop
  | .emit (.bridgeStarted _) => True
  | _ => False

/-- A Decisive effect is one of these, or CallFailed. -/
theorem Effect.not_decisive {e : Effect} (h : ¬ e.Decisive) : e ≠ .onBridge ∧ ¬ e.Starts ∧ ¬ e.Completes := by
  refine ⟨fun he => h (by rw [he]; trivial), fun hs => h ?_, fun hc => h ?_⟩
  · unfold Starts at hs
    split at hs
    · trivial
    · exact hs.elim
  · unfold Completes at hc
    split at hc
    · trivial
    · exact hc.elim

namespace AgentSession

/-- What the whole trace tells. -/
structure Replays (s : AgentSession) : Prop where
  replay : replay s.trace = some s.fsm.state
  once : s.trace.count .onBridge ≤ 1
  started : (∃ e ∈ s.trace, e.Starts) ↔ s.fsm.state = .done
  completed : s.Completed ↔ s.fsm.state = .done

/-- What one act adds to it: the hook is called in no act but the one that emits the verdict and the edge, and
not a second time; its return is what BridgeStarted, CallCompleted and DONE tell. -/
def BridgesOnVerdict (s : AgentSession) (a : Act) : Prop :=
  ∃ es, (s.act a).trace = s.trace ++ es ∧
    (.onBridge ∈ es → .onBridge ∉ s.trace ∧ ∃ now, bridgeCall now <:+: es) ∧
    ((∃ e ∈ es, e.Starts) ↔ .onBridge ∈ es ∧ a.reply = some .ok) ∧
    ((∃ e ∈ es, e.Completes) ↔ .onBridge ∈ es ∧ a.reply = some .ok) ∧
    ((s.act a).fsm.state = .done ↔ s.fsm.state = .done ∨ (.onBridge ∈ es ∧ a.reply = some .ok))

variable {s t u : AgentSession} {es fs : List Effect} {reply : BridgeReply}

/-! ## Stretches of trace without the hook -/

structure Plain (es : List Effect) (s t : AgentSession) : Prop where
  trace : t.trace = s.trace ++ es
  path : es.foldlM follow s.fsm.state = some t.fsm.state
  calm : ∀ e ∈ es, e ≠ .onBridge ∧ ¬ e.Starts ∧ ¬ e.Completes
  settled : ∀ st, st = .humanDetected ∨ st = .done → (t.fsm.state = st ↔ s.fsm.state = st)

theorem Plain.trans (h : Plain es s t) (h' : Plain fs t u) : Plain (es ++ fs) s u where
  trace := by rw [h'.trace, h.trace, List.append_assoc]
  path := by
    rw [List.foldlM_append, h.path]
    exact h'.path
  calm e he := by
    rcases List.mem_append.1 he with he | he
    · exact h.calm e he
    · exact h'.calm e he
  settled st hst := (h'.settled st hst).trans (h.settled st hst)

theorem Walk.plain (h : Walk es s t) : Plain es s t where
  trace := h.trace
  path := h.path
  calm e he := Effect.not_decisive (h.calm e he)
  settled st hst := h.settled st (by rcases hst with rfl | rfl <;> decide)

theorem fail_plain (s : AgentSession) (now : ℚ) (reason : String) :
    Plain [.emit (.callFailed now reason), .onFail reason] s (s.fail now reason) := by
  rw [fail_eq]
  exact ⟨rfl, rfl, by simp [Effect.Starts, Effect.Completes], fun _ _ => Iff.rfl⟩

/-- The label stream's give-up is an edge of the graph. -/
theorem observe_plain (s : AgentSession) (now : ℚ) (i : Tick) : ∃ es, Plain es s (s.observe now i) := by
  by_cases hn : s.fsm.Fails i.cls.label i.cls.confidence
  · obtain ⟨htr, hst, -⟩ := s.observe_fails now i hn
    have hedge : (s.fsm.state, CallState.failed) ∈ edges := by
      have hl := hn.1
      revert hl
      cases s.fsm.state <;> decide
    refine ⟨_, htr, ?_, by simp [Effect.Starts, Effect.Completes], fun st hd => ?_⟩
    · simp [follow, hedge, hst]
    · have hl := hn.1
      rw [hst]
      refine iff_of_false ?_ ?_
      · rintro rfl; simp at hd
      · rintro rfl
        rcases hd with hd | hd <;> rw [hd] at hl <;> exact absurd hl (by decide)
  · obtain ⟨es, hw⟩ := observe_walks s now i hn
    exact ⟨es, hw.plain⟩

/-! ## The stretch with the hook -/

structure Crossing (reply : BridgeReply) (es : List Effect) (s t : AgentSession) : Prop where
  trace : t.trace = s.trace ++ es
  path : es.foldlM follow s.fsm.state = some t.fsm.state
  verdict : ∃ now, bridgeCall now <:+: es
  once : es.count .onBridge = 1
  before : s.fsm.state ≠ .humanDetected ∧ s.fsm.state ≠ .done
  started : (∃ e ∈ es, e.Starts) ↔ reply = .ok
  completed : (∃ e ∈ es, e.Completes) ↔ reply = .ok
  after : t.fsm.state = if reply = .ok then .done else .humanDetected

theorem Crossing.mem (h : Crossing reply es s t) : .onBridge ∈ es :=
  List.count_pos_iff.1 (by rw [h.once]; decide)

theorem Plain.crossing (h : Plain es s t) (h' : Crossing reply fs t u) : Crossing reply (es ++ fs) s u where
  trace := by rw [h'.trace, h.trace, List.append_assoc]
  path := by
    rw [List.foldlM_append, h.path]
    exact h'.path
  verdict := by
    obtain ⟨now, hv⟩ := h'.verdict
    exact ⟨now, hv.trans (List.suffix_append es fs).isInfix⟩
  once := by
    have hno : es.count .onBridge = 0 := List.count_eq_zero.2 fun hm => (h.calm _ hm).1 rfl
    rw [List.count_append, hno, h'.once]
  before := ⟨(h.settled _ (.inl rfl)).not.1 h'.before.1, (h.settled _ (.inr rfl)).not.1 h'.before.2⟩
  started := by
    rw [← h'.started]
    constructor
    · rintro ⟨e, he, hs⟩
      rcases List.mem_append.1 he with he | he
      · exact absurd hs (h.calm e he).2.1
      · exact ⟨e, he, hs⟩
    · rintro ⟨e, he, hs⟩
      exact ⟨e, List.mem_append_right _ he, hs⟩
  completed := by
    rw [← h'.completed]
    constructor
    · rintro ⟨e, he, hc⟩
      rcases List.mem_append.1 he with he | he
      · exact absurd hc (h.calm e he).2.2
      · exact ⟨e, he, hc⟩
    · rintro ⟨e, he, hc⟩
      exact ⟨e, List.mem_append_right _ he, hc⟩
  after := h'.after

/-- A poll is plain, or crosses. -/
theorem pollTier2_stretch (s : AgentSession) (now : ℚ) (i : Tick) :
    (∃ es, Plain es s (s.pollTier2 now i)) ∨ ∃ es, Crossing i.onBridge es s (s.pollTier2 now i) := by
  rcases s.pollTier2_outcome now i with ⟨-, -, es, hw⟩ | ⟨-, -, u, reason, ⟨es, hw⟩, heq⟩ |
    ⟨hb, es, fs, htr, ⟨j, r, rfl⟩, -, hr⟩
  · exact .inl ⟨es, hw.plain⟩
  · rw [heq]
    exact .inl ⟨_, hw.plain.trans (fail_plain u now reason)⟩
  · refine .inr ⟨[.polled j r] ++ bridgeCall now ++ fs, ?_⟩
    have hst : s.fsm.state = .evaluatingSpeech := hb.1
    have h1 : (CallState.evaluatingSpeech, CallState.humanDetected) ∈ edges := by decide
    have h2 : (CallState.humanDetected, CallState.bridging) ∈ edges := by decide
    have h3 : (CallState.bridging, CallState.done) ∈ edges := by decide
    rcases hr with ⟨-, hok, rfl, hd⟩ | ⟨-, hok, ⟨reason, rfl⟩, hh⟩
    · refine ⟨by rw [htr]; simp, ?_, ⟨now, [.polled j r], _, rfl⟩, ?_, by simp [hst], ?_, ?_, by simp [hok, hd]⟩
      · simp [follow, bridgeCall, bridgeDone, hst, hd, h1, h2, h3]
      · simp [bridgeCall, bridgeDone]
      · simp [bridgeCall, bridgeDone, Effect.Starts, hok]
      · simp [bridgeCall, bridgeDone, Effect.Completes, hok]
    · refine ⟨by rw [htr]; simp, ?_, ⟨now, [.polled j r], _, rfl⟩, ?_, by simp [hst], ?_, ?_, by simp [hok, hh]⟩
      · simp [follow, bridgeCall, hst, hh, h1]
      · simp [bridgeCall]
      · simp [bridgeCall, Effect.Starts, hok]
      · simp [bridgeCall, Effect.Completes, hok]

/-! ## Runs -/

/-- **An act is a plain stretch, or a tick that crosses.** -/
theorem act_stretch (s : AgentSession) (a : Act) :
    (∃ es, Plain es s (s.act a)) ∨ ∃ i es, a = .move (.tick i) ∧ Crossing i.onBridge es s (s.act a) := by
  have hsame : ∀ {t : AgentSession}, t.trace = s.trace → t.fsm.state = s.fsm.state → t.finished = s.finished →
      ∃ es, Plain es s t := fun h1 h2 h3 => (Walks.of_fields h1 h2 h3).imp fun _ hw => hw.plain
  cases a with
  | close => exact .inl (hsame rfl rfl rfl)
  | move m =>
    cases m with
    | ingest pcm =>
      obtain ⟨htr, hm, hf, -⟩ := ingest_fields { s with crashed := false } pcm
      exact .inl (hsame htr (by rw [act, hm]) hf)
    | abort reason =>
      refine .inl ?_
      rw [act, abort]
      split
      · exact hsame rfl rfl rfl
      · exact ⟨_, fail_plain s _ reason⟩
    | tick i =>
      by_cases ht : s.Ticks
      swap
      · rw [act, loopPass_rests ht]
        exact .inl (hsame rfl rfl rfl)
      obtain ⟨n, heq⟩ := loopPass_ticks ht i
      rw [act, heq]
      -- the clock that the loop sets tells nothing
      have hclk : (∃ es, Plain es s (s.runTick s.nextClassifyAt i)) ∨
          ∃ es, Crossing i.onBridge es s (s.runTick s.nextClassifyAt i) := by
        obtain ⟨es, hc⟩ := classify_walks s s.nextClassifyAt i.cls
        obtain ⟨fs, ho⟩ := observe_plain (s.classify s.nextClassifyAt i.cls) s.nextClassifyAt i
        have hco := hc.plain.trans ho
        rcases s.runTick_cases s.nextClassifyAt i with ⟨u, -, ⟨gs, hw⟩, he⟩ | ⟨-, gs, hw⟩
        · have hu := hco.trans hw.plain
          rw [he]
          rcases pollTier2_stretch u s.nextClassifyAt i with ⟨ks, hp⟩ | ⟨ks, hx⟩
          · exact .inl ⟨_, hu.trans hp⟩
          · exact .inr ⟨_, hu.crossing hx⟩
        · exact .inl ⟨_, hco.trans hw.plain⟩
      rcases hclk with ⟨es, hp⟩ | ⟨es, hx⟩
      · exact .inl ⟨es, hp.trace, hp.path, hp.calm, hp.settled⟩
      · exact .inr ⟨i, es, rfl, hx.trace, hx.path, hx.verdict, hx.once, hx.before, hx.started, hx.completed, hx.after⟩

/-- The trace and the machine agree on whether the hook has been called. -/
structure Replayed (s : AgentSession) : Prop where
  replays : Replays s
  called : .onBridge ∈ s.trace ↔ s.fsm.state = .humanDetected ∨ s.fsm.state = .done

theorem Plain.replayed (h : Plain es s t) (hs : Replayed s) : Replayed t := by
  have hno : .onBridge ∉ es := fun hm => (h.calm _ hm).1 rfl
  have hnone : ∀ {p : Effect → Prop}, (∀ e ∈ es, ¬ p e) → ((∃ e ∈ t.trace, p e) ↔ ∃ e ∈ s.trace, p e) := fun hp => by
    rw [exists_append h.trace]
    exact or_iff_left fun ⟨e, he, hpe⟩ => hp e he hpe
  obtain ⟨⟨h1, h2, h3, h4⟩, h5⟩ := hs
  refine ⟨⟨?_, ?_, ?_, ?_⟩, ?_⟩
  · rw [replay, h.trace, List.foldlM_append]
    rw [replay] at h1
    rw [h1]
    exact h.path
  · rw [h.trace, List.count_append, List.count_eq_zero.2 hno]
    exact h2
  · rw [hnone fun e he => (h.calm e he).2.1, h3, h.settled _ (.inr rfl)]
  · rw [Completed, hnone fun e he => (h.calm e he).2.2, ← Completed, h4, h.settled _ (.inr rfl)]
  · rw [h.trace, List.mem_append, or_iff_left hno, h5, h.settled _ (.inl rfl), h.settled _ (.inr rfl)]

theorem Crossing.replayed (h : Crossing reply es s t) (hs : Replayed s) : Replayed t := by
  obtain ⟨⟨h1, h2, h3, h4⟩, h5⟩ := hs
  have hno : .onBridge ∉ s.trace := h5.not.2 (not_or.2 h.before)
  have hdone : t.fsm.state = .done ↔ reply = .ok := by
    rw [h.after]
    split <;> simp_all
  refine ⟨⟨?_, ?_, ?_, ?_⟩, ?_⟩
  · rw [replay, h.trace, List.foldlM_append]
    rw [replay] at h1
    rw [h1]
    exact h.path
  · rw [h.trace, List.count_append, List.count_eq_zero.2 hno, h.once]
  · rw [exists_append h.trace, h3, h.started, hdone]
    exact or_iff_right h.before.2
  · rw [Completed, exists_append h.trace, ← Completed, h4, h.completed, hdone]
    exact or_iff_right h.before.2
  · refine iff_of_true (by rw [h.trace]; exact List.mem_append_right _ h.mem) ?_
    rw [h.after]
    split <;> simp

theorem act_replayed (s : AgentSession) (a : Act) (h : Replayed s) : Replayed (s.act a) := by
  rcases act_stretch s a with ⟨es, hp⟩ | ⟨i, es, -, hx⟩
  · exact hp.replayed h
  · exact hx.replayed h

theorem act_bridgesOnVerdict (s : AgentSession) (a : Act) (h : Replayed s) : BridgesOnVerdict s a := by
  rcases act_stretch s a with ⟨es, hp⟩ | ⟨i, es, rfl, hx⟩
  · have hno : .onBridge ∉ es := fun hm => (hp.calm _ hm).1 rfl
    refine ⟨es, hp.trace, fun hm => absurd hm hno, ?_, ?_, ?_⟩
    · exact iff_of_false (fun ⟨e, he, hs⟩ => (hp.calm e he).2.1 hs) fun hm => hno hm.1
    · exact iff_of_false (fun ⟨e, he, hc⟩ => (hp.calm e he).2.2 hc) fun hm => hno hm.1
    · rw [hp.settled _ (.inr rfl)]
      exact (or_iff_left fun hm => hno hm.1).symm
  · have hno : .onBridge ∉ s.trace := h.called.not.2 (not_or.2 hx.before)
    have hrep : Act.reply (.move (.tick i)) = some .ok ↔ i.onBridge = .ok := by simp [Act.reply]
    refine ⟨es, hx.trace, fun _ => ⟨hno, hx.verdict⟩, ?_, ?_, ?_⟩
    · rw [hx.started, hrep]
      exact (and_iff_right hx.mem).symm
    · rw [hx.completed, hrep]
      exact (and_iff_right hx.mem).symm
    · rw [hrep, hx.after, and_iff_right hx.mem, or_iff_right hx.before.2]
      split <;> simp_all

/-- **`replays`**: over every life of a session, in every state passed through, the events replay the machine
along the documented graph, and every act calls the hook, and tells of its return, as the verdict has it. -/
theorem replays (callId : String) (settings : Settings) (cfg : FsmConfig) (goal sid : Option String)
    (as : List Act) :
    Run.Always act Replays (new callId settings cfg goal sid) as ∧
      Run.Along act BridgesOnVerdict (new callId settings cfg goal sid) as := by
  have h0 : Replayed (new callId settings cfg goal sid) :=
    ⟨⟨rfl, by simp [new], by simp [new], by simp [Completed, new]⟩, by simp [new]⟩
  constructor
  · intro pre hpre
    exact (Run.always_of_inv act_replayed as _ h0 pre hpre).replays
  · exact Run.along_of_exec_inv act_replayed act_bridgesOnVerdict as _ h0

end AgentSession

end DialPass
