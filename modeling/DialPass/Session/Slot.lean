import DialPass.Session.Stages
/-!
# The one slot of Tier 2 (session.py:169-243, executor.py:67-85)

`submit` takes it for granted that no job is outstanding, and `poll` returns a result without saying whose.
Both rest on `_tier2_kind`. `Slot` is what an observer of the trace knows of the executor: the job waiting to
be polled and the result no handler has read yet. `Slot.Ok` is the executor's contract, entry by entry, and
`oneSlot` that every session keeps it, whenever its jobs are done.
-/

namespace DialPass

structure Slot where
  waiting : Option Job := none
  result : Option (Job × Tier2Result) := none
  submitted : Nat := 0
  polled : Nat := 0

/-- `submit` and `poll`. -/
def Effect.Asks : Effect → Prop
  | .submit _ | .polled _ _ => True
  | _ => False

namespace Slot

def next (h : Slot) : Effect → Slot
  | .submit j => { h with waiting := some j, submitted := h.submitted + 1 }
  | .polled j r => { h with waiting := none, result := some (j, r), polled := h.polled + 1 }
  | .dtmfSender _ | .emit (.probeResult _ _) => { h with result := none }
  | _ => h

/-- Nothing is submitted over a job that waits; what is polled is an answer of the job that does; a key is pressed on
an unread decision of a menu's, and a verdict reported on an unread outcome of a probe's. -/
def Ok (h : Slot) : Effect → Prop
  | .submit _ => h.waiting = none
  | .polled j r => h.waiting = some j ∧ ∃ a, r = j.run a
  | .dtmfSender digits =>
    ∃ j d, h.result = some (j, .ok (.decision d)) ∧ j.kind = .menu ∧ d.digits = some digits
  | .emit (.probeResult _ isHuman) =>
    ∃ j o, h.result = some (j, .ok (.outcome o)) ∧ j.kind = .probe ∧ o.isHuman = isHuman
  | _ => True

def of (tr : List Effect) : Slot := Run.exec next {} tr

/-- An effect that has to do with none of this. -/
def Off : Effect → Prop
  | .submit _ | .polled _ _ | .dtmfSender _ | .emit (.probeResult _ _) => False
  | _ => True

@[simp] theorem of_append (tr es : List Effect) : of (tr ++ es) = Run.exec next (of tr) es := by
  simp [of]

theorem Off.next {e : Effect} (h : Off e) (s : Slot) : s.next e = s := by
  cases e with
  | submit | polled | dtmfSender => exact h.elim
  | emit ev => cases ev <;> first | exact h.elim | rfl
  | _ => rfl

theorem Off.ok {e : Effect} (h : Off e) (s : Slot) : s.Ok e := by
  cases e with
  | submit | polled | dtmfSender => exact h.elim
  | emit ev => cases ev <;> first | exact h.elim | trivial
  | _ => trivial

theorem Off.exec {es : List Effect} (h : ∀ e ∈ es, Off e) (s : Slot) :
    Run.exec Slot.next s es = s ∧ Run.Along Slot.next Ok s es := by
  induction es with
  | nil => exact ⟨rfl, trivial⟩
  | cons e es ih =>
    obtain ⟨he, hes⟩ := List.forall_mem_cons.1 h
    rw [Run.exec_cons, Run.along_cons, he.next]
    exact ⟨(ih hes).1, he.ok s, (ih hes).2⟩

end Slot

namespace AgentSession

/-- The trace keeps the contract, and tells which job the executor has. -/
structure InSlot (s : AgentSession) : Prop where
  accepted : Run.Along Slot.next Slot.Ok {} s.trace
  waiting : (Slot.of s.trace).waiting = s.exec.future
  count : (Slot.of s.trace).submitted = (Slot.of s.trace).polled + s.exec.future.isSome.toNat

/-- From `s` to `t` nothing was asked of the executor, and no result was read. -/
def Aside (s t : AgentSession) : Prop :=
  t.exec = s.exec ∧ ∃ es, t.trace = s.trace ++ es ∧ ∀ e ∈ es, Slot.Off e

variable {s t u : AgentSession}

theorem Aside.of_fields (he : t.exec = s.exec) (htr : t.trace = s.trace) : Aside s t :=
  ⟨he, [], by rw [htr, List.append_nil], by simp⟩

theorem Aside.trans (h : Aside s t) (h' : Aside t u) : Aside s u := by
  obtain ⟨he, es, htr, hes⟩ := h
  obtain ⟨he', fs, htr', hfs⟩ := h'
  refine ⟨he'.trans he, es ++ fs, by rw [htr', htr, List.append_assoc], fun e hm => ?_⟩
  rcases List.mem_append.1 hm with hm | hm
  · exact hes e hm
  · exact hfs e hm

theorem Aside.result (h : Aside s t) : Slot.of t.trace = Slot.of s.trace := by
  obtain ⟨-, es, htr, hes⟩ := h
  rw [htr, Slot.of_append, (Slot.Off.exec hes _).1]

theorem InSlot.aside (h : InSlot s) (ha : Aside s t) : InSlot t := by
  have hof := ha.result
  obtain ⟨he, es, htr, hes⟩ := ha
  refine ⟨?_, by rw [hof, he]; exact h.waiting, by rw [hof, he]; exact h.count⟩
  rw [htr, Run.along_append]
  exact ⟨h.accepted, (Slot.Off.exec hes _).2⟩

theorem log_aside (s : AgentSession) (e : Effect) (h : Slot.Off e) : Aside s (s.log e) :=
  ⟨rfl, [e], rfl, by simpa using h⟩

theorem emitStateChange_aside (s : AgentSession) (before : CallState) (now : ℚ) :
    Aside s (s.emitStateChange before now) := by
  unfold emitStateChange
  split
  · exact log_aside s _ trivial
  · exact .of_fields rfl rfl

theorem moved_aside (s : AgentSession) (fsm : CallStateMachine) (now : ℚ) : Aside s (s.moved fsm now) :=
  (Aside.of_fields rfl rfl : Aside s { s with fsm }).trans (emitStateChange_aside { s with fsm } s.fsm.state now)

theorem classify_aside (s : AgentSession) (now : ℚ) (c : Classification) : Aside s (s.classify now c) := by
  unfold classify
  exact (log_aside s _ (by trivial)).trans (log_aside _ _ (by trivial))

theorem fail_aside (s : AgentSession) (now : ℚ) (reason : String) : Aside s (s.fail now reason) := by
  rw [fail_eq]
  exact ⟨rfl, _, rfl, by simp [Slot.Off]⟩

theorem bridge_aside (s : AgentSession) (now : ℚ) (reply : BridgeReply) : Aside s (s.bridge now reply) := by
  have h0 : Aside s ((s.emit (.humanDetected now)).log .onBridge) :=
    (log_aside s _ (by trivial)).trans (log_aside _ _ (by trivial))
  unfold bridge
  dsimp only
  generalize (s.emit (.humanDetected now)).log .onBridge = t at h0 ⊢
  cases reply with
  | unavailable reason => exact h0.trans (fail_aside t now reason)
  | raised => exact h0.trans (fail_aside t now _)
  | ok =>
    have h1 := h0.trans (moved_aside t t.fsm.bridged now)
    have h2 := h1.trans (log_aside (t.moved t.fsm.bridged now) (.emit (.bridgeStarted now)) trivial)
    have h3 := h2.trans (moved_aside _ (t.moved t.fsm.bridged now).fsm.completed now)
    exact h3.trans ((log_aside _ (.emit (.callCompleted now "human_bridged")) trivial).trans (.of_fields rfl rfl))

theorem applyMenu_inSlot {d : MenuDecision} {j : Job} (h : InSlot s) (hk : j.kind = .menu)
    (hr : (Slot.of s.trace).result = some (j, .ok (.decision d))) (now : ℚ) : InSlot (s.applyMenu d now) := by
  unfold applyMenu
  split
  · rename_i digits _ hd
    have hok : (Slot.of s.trace).Ok (.dtmfSender digits) := ⟨j, d, hr, hk, hd⟩
    have hlog : InSlot (s.log (.dtmfSender digits)) := by
      refine ⟨?_, ?_, ?_⟩
      · rw [log, Run.along_append, Run.along_cons]
        exact ⟨h.accepted, hok, trivial⟩
      · simpa [log, Slot.next] using h.waiting
      · simpa [log, Slot.next] using h.count
    exact hlog.aside ((log_aside _ _ (by trivial)).trans (.of_fields rfl rfl))
  · exact h.aside (.of_fields rfl rfl)

theorem applyProbe_inSlot {o : ProbeOutcome} {j : Job} (h : InSlot s) (hk : j.kind = .probe)
    (hr : (Slot.of s.trace).result = some (j, .ok (.outcome o))) (now : ℚ) (reply : BridgeReply) :
    InSlot (s.applyProbe o now reply) := by
  have hok : (Slot.of s.trace).Ok (.emit (.probeResult now o.isHuman)) := ⟨j, o, hr, hk, rfl⟩
  have hlog : InSlot (s.emit (.probeResult now o.isHuman)) := by
    refine ⟨?_, ?_, ?_⟩
    · rw [emit, log, Run.along_append, Run.along_cons]
      exact ⟨h.accepted, hok, trivial⟩
    · simpa [emit, log, Slot.next] using h.waiting
    · simpa [emit, log, Slot.next] using h.count
  rw [applyProbe_eq]
  have hm := moved_aside (s.emit (.probeResult now o.isHuman)) (s.fsm.probeResult o.isHuman now).1 now
  by_cases hst : s.fsm.state = .evaluatingSpeech
  · cases ho : o.isHuman with
    | true =>
      rw [ho] at hm hlog
      rw [CallStateMachine.probeResult_human hst] at hm ⊢
      exact hlog.aside (hm.trans (bridge_aside _ now reply))
    | false =>
      rw [ho] at hm hlog
      rw [CallStateMachine.probeResult_not_human hst] at hm ⊢
      exact hlog.aside hm
  · rw [CallStateMachine.probeResult_stale hst] at hm ⊢
    exact hlog.aside hm

theorem tier2Failed_aside (s : AgentSession) (kind : Tier2Kind) (e : Tier2Error) (now : ℚ) :
    Aside s (s.tier2Failed kind e now) := by
  cases e <;> simp only [tier2Failed] <;> (try split) <;> first
    | exact fail_aside s now _
    | exact .of_fields rfl rfl

/-! ## Between two jobs -/

/-- From `s` to `t` the executor is not asked. -/
def Calm (s t : AgentSession) : Prop := t.exec = s.exec ∧ ∃ es, t.trace = s.trace ++ es ∧ ∀ e ∈ es, ¬ e.Asks

theorem Aside.calm (h : Aside s t) : Calm s t := by
  obtain ⟨he, es, htr, hes⟩ := h
  refine ⟨he, es, htr, fun e hm ha => ?_⟩
  cases e with
  | submit | polled => exact hes _ hm
  | _ => exact ha

theorem Calm.trans (h : Calm s t) (h' : Calm t u) : Calm s u := by
  obtain ⟨he, es, htr, hes⟩ := h
  obtain ⟨he', fs, htr', hfs⟩ := h'
  refine ⟨he'.trans he, es ++ fs, by rw [htr', htr, List.append_assoc], fun e hm => ?_⟩
  rcases List.mem_append.1 hm with hm | hm
  · exact hes e hm
  · exact hfs e hm

theorem applyMenu_calm (s : AgentSession) (d : MenuDecision) (now : ℚ) : Calm s (s.applyMenu d now) := by
  unfold applyMenu
  split
  · rename_i digits _ _
    exact ⟨rfl, [.dtmfSender digits, .emit (.dtmfSent now digits)], by simp [log, emit], by simp [Effect.Asks]⟩
  · exact (Aside.of_fields rfl rfl).calm

theorem applyProbe_calm (s : AgentSession) (o : ProbeOutcome) (now : ℚ) (reply : BridgeReply) :
    Calm s (s.applyProbe o now reply) := by
  rw [applyProbe_eq]
  have he : Calm s (s.emit (.probeResult now o.isHuman)) :=
    ⟨rfl, [.emit (.probeResult now o.isHuman)], rfl, by simp [Effect.Asks]⟩
  have hm := he.trans (moved_aside _ (s.fsm.probeResult o.isHuman now).1 now).calm
  have hp : (s.fsm.probeResult o.isHuman now).2 = .none ∨ (s.fsm.probeResult o.isHuman now).2 = .bridge := by
    unfold CallStateMachine.probeResult
    split
    · exact .inl rfl
    · split
      · exact .inr rfl
      · exact .inl rfl
  rcases hp with hp | hp <;> rw [hp]
  · exact hm
  · exact hm.trans (bridge_aside _ now reply).calm

theorem applyResult_calm (s : AgentSession) (kind : Tier2Kind) (r : Tier2Result) (now : ℚ) (reply : BridgeReply) :
    Calm s (s.applyResult kind r now reply) := by
  unfold applyResult
  split
  · exact (tier2Failed_aside s kind _ now).calm
  · split
    · exact applyMenu_calm s _ now
    · exact applyProbe_calm s _ now reply
    · exact (Aside.of_fields rfl rfl).calm

/-- Polling empties the slot. -/
theorem taken_inSlot {j : Job} (h : InSlot s) (hf : s.exec.future = some j) (a : Answer) :
    InSlot (s.taken j (j.run a)) ∧ (Slot.of (s.taken j (j.run a)).trace).result = some (j, j.run a) := by
  have hw := h.waiting
  have hc := h.count
  rw [hf] at hw
  simp only [hf, Option.isSome_some, Bool.toNat_true] at hc
  refine ⟨⟨?_, by simp [taken, log, Slot.next], ?_⟩, by simp [taken, log, Slot.next]⟩
  · rw [taken, log, Run.along_append, Run.along_cons]
    exact ⟨h.accepted, ⟨hw, a, rfl⟩, trivial⟩
  · simpa [taken, log, Slot.next] using hc

theorem pollTier2_inSlot (hs : Sound s) (h : InSlot s) (now : ℚ) (i : Tick) : InSlot (s.pollTier2 now i) := by
  rcases pollTier2_cases hs now i with ⟨he, -⟩ | ⟨j, a, hf, -, -, he⟩ <;> rw [he]
  · exact h
  obtain ⟨ht, hr⟩ := taken_inSlot h hf a
  -- the result is the job's own, so it goes to the handler of its kind
  cases hk : j.kind with
  | menu =>
    cases hm : a.menu with
    | ok d =>
      simp only [Job.run, hk, hm, Except.map] at ht hr ⊢
      exact applyMenu_inSlot ht hk hr now
    | error e =>
      simp only [Job.run, hk, hm, Except.map] at ht ⊢
      exact ht.aside (tier2Failed_aside _ .menu e now)
  | probe =>
    cases hp : a.probe with
    | ok o =>
      simp only [Job.run, hk, hp, Except.map] at ht hr ⊢
      exact applyProbe_inSlot ht hk hr now i.onBridge
    | error e =>
      simp only [Job.run, hk, hp, Except.map] at ht ⊢
      exact ht.aside (tier2Failed_aside _ .probe e now)

/-- A job goes into an empty slot. -/
theorem submitted_inSlot {e : Effect} {j : Job} (h : InSlot s) (hf : s.exec.future = none) (he : Slot.Off e)
    {k : Option Tier2Kind} :
    InSlot { s with
      tier2Kind := k
      exec := { s.exec with future := some j }
      trace := s.trace ++ [e, .submit j] } := by
  have hw := h.waiting
  have hc := h.count
  rw [hf] at hw hc
  refine ⟨?_, by simp [Slot.next], ?_⟩
  · rw [Run.along_append, Run.along_cons, Run.along_cons, he.next]
    exact ⟨h.accepted, he.ok _, hw, trivial⟩
  · rw [Slot.of_append, Run.exec_cons, he.next]
    simpa [Slot.next] using hc

theorem future_none (hs : Sound s) (hk : s.tier2Kind = none) : s.exec.future = none := by
  have hslot := hs.slot
  rw [hk] at hslot
  exact Option.map_eq_none_iff.1 hslot

theorem observe_inSlot (hs : Sound s) (h : InSlot s) (now : ℚ) (i : Tick) : InSlot (s.observe now i) := by
  have hm := moved_aside s (s.fsm.observe i.cls.label i.cls.confidence now).1 now
  have hms := moved_sound hs (s.fsm.observe i.cls.label i.cls.confidence now).1 now
  rcases observe_cases s now i with ⟨-, -, due, he⟩ | ⟨-, hk, he⟩ | ⟨-, -, he⟩ | ⟨-, he⟩ <;> rw [he]
  · exact h.aside (hm.trans (.of_fields rfl rfl))
  · rw [startProbe_eq hms.opened]
    refine submitted_inSlot (h.aside hm) ?_ (by trivial)
    rw [hm.1]
    exact future_none hs hk
  · exact h.aside hm
  · exact h.aside (hm.trans (fail_aside _ now _))

theorem wakeMenu_inSlot (hs : Sound s) (h : InSlot s) (now : ℚ) : InSlot (s.wakeMenu now) := by
  rcases wakeMenu_cases s now with ⟨due, he⟩ | ⟨-, hk, he⟩ <;> rw [he]
  · exact h.aside (.of_fields rfl rfl)
  · rw [startMenu_eq (by exact hs.opened)]
    have hf := future_none hs hk
    exact submitted_inSlot (s := { s with menuWakeDue := none }) (h.aside (.of_fields rfl rfl)) hf
      (by trivial)

theorem runTick_inSlot (hs : Sound s) (h : InSlot s) (now : ℚ) (i : Tick) : InSlot (s.runTick now i) := by
  have hcs := classify_sound hs now i.cls
  have hos := observe_sound hcs now i
  rw [runTick_eq hs]
  refine pollTier2_inSlot (wakeMenu_sound hos now) (wakeMenu_inSlot hos ?_ now) now i
  exact observe_inSlot hcs (h.aside (classify_aside s now i.cls)) now i

theorem step_inSlot (s : AgentSession) (m : Move) (h : Sound s ∧ InSlot s) : Sound (step s m) ∧ InSlot (step s m) := by
  obtain ⟨hs, h⟩ := h
  refine ⟨step_sound s m hs, step_keeps hs h ?_ ?_ ?_ m fun i _ _ => runTick_inSlot hs h _ i⟩
  · exact fun h => h.aside (.of_fields rfl rfl)
  · exact fun h => h.aside (.of_fields rfl rfl)
  · exact fun h => h.aside (fail_aside s _ _)

/-- **`oneSlot`**: over every run of a session before `close`, whenever its jobs are done, in every state passed
through the trace keeps the executor's contract, nothing has crashed, and `_tier2_kind` is the kind of the
job waiting to be polled: it is set exactly when one more job has been submitted than polled. -/
theorem oneSlot (callId : String) (settings : Settings) (cfg : FsmConfig) (goal sid : Option String)
    (ms : List Move) :
    let s := Run.exec step (new callId settings cfg goal sid) ms
    Run.Along Slot.next Slot.Ok {} s.trace ∧ s.crashed = false ∧
      s.tier2Kind = (Slot.of s.trace).waiting.map Job.kind ∧
      (Slot.of s.trace).submitted = (Slot.of s.trace).polled + if s.tier2Kind ≠ none then 1 else 0 := by
  obtain ⟨hs, h⟩ := Run.exec_inv (I := fun s => Sound s ∧ InSlot s) step_inSlot ms
    (new callId settings cfg goal sid) ⟨new_sound .., trivial, rfl, rfl⟩
  refine ⟨h.accepted, hs.alive, by rw [h.waiting]; exact hs.slot.symm, ?_⟩
  rw [h.count, ← hs.slot]
  generalize (Run.exec step (new callId settings cfg goal sid) ms).exec.future = f
  cases f <;> rfl

end AgentSession

end DialPass
