import DialPass.Session.Attended
import DialPass.Session.Press
import DialPass.Session.Slot
/-!
# The offline session (agent/executor.py:47-63, session.py:95-97, realtime/fake.py)

A session given no executor makes an `InlineExecutor`: `submit` runs the job to its end, and the poll of the same
tick finds the result. The simulator and most tests run that way. `OfflineSession` is the session over that
executor; everything that does not ask the executor is `AgentSession`'s own. `parity` says that it is the live
session whose jobs are all done by the next poll, and `settles` what such a call therefore never shows: a job in
flight between ticks, a rest in EVALUATING_SPEECH, a key outside the menu visit it was chosen in.
-/

namespace DialPass

/-- executor.py:47 -/
structure InlineExecutor where
  pending : Option (Job × Tier2Result) := none

namespace InlineExecutor

/-- `submit` (executor.py:53): the job's call comes to `a` here and now. A result nobody polled is dropped. -/
def submit (_ : InlineExecutor) (j : Job) (a : Answer) : InlineExecutor := { pending := some (j, j.run a) }

/-- `poll` (executor.py:59). -/
def poll (ex : InlineExecutor) : InlineExecutor × Option (Job × Tier2Result) := ({ pending := none }, ex.pending)

/-- `close` (executor.py:63). -/
def close (_ : InlineExecutor) : InlineExecutor := { pending := none }

end InlineExecutor

/-- realtime/fake.py:10 -/
structure FakeTier2 where
  menuDigits : Option String := some "2"
  probeIsHuman : Bool := true

/-- `choose_menu_digit` and `probe` (fake.py:21, fake.py:27). -/
def FakeTier2.answer (t : FakeTier2) : Answer :=
  { menu := .ok ⟨t.menuDigits, "fake: fixed digit"⟩, probe := .ok ⟨t.probeIsHuman, "fake", true⟩ }

/-- What the outside answers during one tick; Tier 2 answers while it is asked. -/
structure OfflineTick where
  cls : Classification
  tier2 : Answer
  onBridge : BridgeReply := .ok

/-- The same tick of a live session, whose job is done by the poll. -/
def OfflineTick.live (i : OfflineTick) : Tick := { cls := i.cls, answer := some i.tier2, onBridge := i.onBridge }

/-- The executor in `session` is not used. -/
structure OfflineSession where
  session : AgentSession
  inline : InlineExecutor := {}

namespace OfflineSession

def new (callId : String) (settings : Settings) (fsmConfig : FsmConfig) (goal userLegSid : Option String) :
    OfflineSession :=
  { session := .new callId settings fsmConfig goal userLegSid }

def submit (o : OfflineSession) (j : Job) (a : Answer) : OfflineSession :=
  { session := o.session.log (.submit j), inline := o.inline.submit j a }

/-- `_start_menu` (session.py:194). -/
def startMenu (o : OfflineSession) (now : ℚ) (a : Answer) : OfflineSession :=
  let s := { o.session.emit (.tier2Woken now .menu) with tier2Kind := some .menu }
  { o with session := s }.submit { kind := .menu, snap := s.buffer.snapshot, goal := s.goal } a

/-- `_start_probe` (session.py:203). -/
def startProbe (o : OfflineSession) (now : ℚ) (a : Answer) : OfflineSession :=
  let s := { o.session.emit (.tier2Woken now .probe) with tier2Kind := some .probe }
  { o with session := s }.submit { kind := .probe, snap := s.buffer.snapshot } a

/-- `_dispatch` (session.py:180): the probe is all of it that asks the executor. -/
def dispatch (o : OfflineSession) (action : Action) (now : ℚ) (i : OfflineTick) : OfflineSession :=
  match action with
  | .wakeTier2Probe => if o.session.tier2Kind = none then o.startProbe now i.tier2 else o
  | action => { o with session := o.session.dispatch action now i.onBridge }

/-- The FSM's half of `_run_tick` (session.py:166-169). -/
def observe (o : OfflineSession) (now : ℚ) (i : OfflineTick) : OfflineSession :=
  let before := o.session.fsm.state
  let (fsm, action) := o.session.fsm.observe i.cls.label i.cls.confidence now
  { o with session := { o.session with fsm }.emitStateChange before now }.dispatch action now i

/-- The deferred menu wake of `_run_tick` (session.py:169-175). -/
def wakeMenu (o : OfflineSession) (now : ℚ) (i : OfflineTick) : OfflineSession :=
  match o.session.menuWakeDue with
  | some due =>
    if due ≤ now then
      let o := { o with session := { o.session with menuWakeDue := none } }
      if o.session.fsm.state = .ivrMenu ∧ o.session.tier2Kind = none then o.startMenu now i.tier2 else o
    else o
  | none => o

/-- `_apply_probe` (session.py:260). -/
def applyProbe (o : OfflineSession) (outcome : ProbeOutcome) (now : ℚ) (i : OfflineTick) : OfflineSession :=
  let s := o.session.emit (.probeResult now outcome.isHuman)
  let before := s.fsm.state
  let (fsm, followUp) := s.fsm.probeResult outcome.isHuman now
  { o with session := { s with fsm }.emitStateChange before now }.dispatch followUp now i

/-- The handler a result goes to (session.py:218-243). -/
def applyResult (o : OfflineSession) (kind : Tier2Kind) (result : Tier2Result) (now : ℚ) (i : OfflineTick) :
    OfflineSession :=
  match result with
  | .error e => { o with session := o.session.tier2Failed kind e now }
  | .ok v =>
    match kind, v with
    | .menu, .decision d => { o with session := o.session.applyMenu d now }
    | .probe, .outcome out => o.applyProbe out now i
    | _, _ => { o with session := { o.session with crashed := true } }

/-- `_poll_tier2` (session.py:210). -/
def pollTier2 (o : OfflineSession) (now : ℚ) (i : OfflineTick) : OfflineSession :=
  match o.session.tier2Kind with
  | none => o
  | some kind =>
    match o.inline.poll with
    | (inline, none) => { o with inline }
    | (inline, some (j, result)) =>
      let s := { o.session with tier2Kind := none }.log (.polled j result)
      applyResult { session := s, inline } kind result now i

/-- `_run_tick` (session.py:147). -/
def runTick (o : OfflineSession) (now : ℚ) (i : OfflineTick) : OfflineSession :=
  let o := { o with session := o.session.classify now i.cls }.observe now i
  if o.session.crashed then o else
  let o := o.wakeMenu now i
  if o.session.crashed then o else
  o.pollTier2 now i

/-- One pass of the loop of `feed_audio` (session.py:141-145). -/
def loopPass (o : OfflineSession) (i : OfflineTick) : OfflineSession :=
  if o.session.finished ∨ o.session.crashed ∨ o.session.audioSeconds < o.session.nextClassifyAt then o
  else
    let o' := o.runTick o.session.nextClassifyAt i
    if o'.session.crashed then o' else
    { o' with session := { o'.session with
        nextClassifyAt := o'.session.nextClassifyAt + o.session.settings.interval } }

/-- What the harness does to a session. -/
inductive Move where
  | ingest (pcm : Pcm)
  | tick (i : OfflineTick)
  | abort (reason : String)
  | close

def step (o : OfflineSession) : Move → OfflineSession
  | .ingest pcm => { o with session := o.session.ingest pcm }
  | .tick i => o.loopPass i
  | .abort reason => { o with session := o.session.abort reason }
  | .close => { o with inline := o.inline.close }

/-- The same move of a transport's. Closing is none: a live executor that is closed takes no more jobs, and this one
does. -/
def Move.live : Move → Option AgentSession.Move
  | .ingest pcm => some (.ingest pcm)
  | .tick i => some (.tick i.live)
  | .abort reason => some (.abort reason)
  | .close => none

/-! ## The live session it stands for -/

/-- The same session over a thread that has the job whose result is waiting. -/
def live (o : OfflineSession) : AgentSession :=
  { o.session with exec := { future := o.inline.pending.map (·.1) } }

variable {o : OfflineSession} {now : ℚ} {i : OfflineTick}

theorem startMenu_live (o : OfflineSession) (now : ℚ) (a : Answer) :
    (o.startMenu now a).live = o.live.startMenu now := by
  rw [AgentSession.startMenu_eq rfl]
  simp [startMenu, submit, InlineExecutor.submit, live, AgentSession.emit, AgentSession.log, AgentSession.menuJob]

theorem startProbe_live (o : OfflineSession) (now : ℚ) (a : Answer) :
    (o.startProbe now a).live = o.live.startProbe now := by
  rw [AgentSession.startProbe_eq rfl]
  simp [startProbe, submit, InlineExecutor.submit, live, AgentSession.emit, AgentSession.log, AgentSession.probeJob]

theorem emitStateChange_exec (s : AgentSession) (ex : ThreadedExecutor) (before : CallState) (now : ℚ) :
    { s with exec := ex }.emitStateChange before now = { s.emitStateChange before now with exec := ex } := by
  unfold AgentSession.emitStateChange
  split <;> rfl

theorem bridge_exec (s : AgentSession) (ex : ThreadedExecutor) (now : ℚ) (reply : BridgeReply) :
    { s with exec := ex }.bridge now reply = { s.bridge now reply with exec := ex } := by
  cases reply with
  | unavailable reason => rfl
  | raised => rfl
  | ok =>
    have hb : ∀ t : AgentSession, t.bridge now .ok =
        let u := (((t.emit (.humanDetected now)).log .onBridge).moved t.fsm.bridged now).emit (.bridgeStarted now)
        { (u.moved u.fsm.completed now).emit (.callCompleted now "human_bridged") with finished := true } :=
      fun t => rfl
    rw [hb, hb]
    simp only [AgentSession.moved_eq, AgentSession.emit, AgentSession.log]

/-- Only the wake of a probe asks the executor. -/
theorem dispatch_live (o : OfflineSession) (action : Action) (now : ℚ) (i : OfflineTick) :
    (o.dispatch action now i).live = o.live.dispatch action now i.onBridge := by
  cases action with
  | wakeTier2Probe =>
    show (if o.session.tier2Kind = none then _ else _ : OfflineSession).live =
      if o.session.tier2Kind = none then _ else _
    split
    · exact startProbe_live o now i.tier2
    · rfl
  | bridge => exact (bridge_exec o.session _ now i.onBridge).symm
  | none | wakeTier2Menu | fail => rfl

theorem observe_live (o : OfflineSession) (now : ℚ) (i : OfflineTick) :
    (o.observe now i).live = o.live.observe now i.live := by
  refine (dispatch_live _ _ now i).trans ?_
  congr 1
  exact (emitStateChange_exec _ _ _ now).symm

theorem wakeMenu_live (o : OfflineSession) (now : ℚ) (i : OfflineTick) :
    (o.wakeMenu now i).live = o.live.wakeMenu now := by
  unfold wakeMenu AgentSession.wakeMenu
  show _ = match o.session.menuWakeDue with | some due => _ | none => _
  split
  · split
    · dsimp only
      show _ = if o.session.fsm.state = .ivrMenu ∧ o.session.tier2Kind = none then _ else _
      split
      · exact startMenu_live { o with session := { o.session with menuWakeDue := none } } now i.tier2
      · rfl
    · rfl
  · rfl

theorem applyProbe_live (o : OfflineSession) (out : ProbeOutcome) (now : ℚ) (i : OfflineTick) :
    (o.applyProbe out now i).live = o.live.applyProbe out now i.onBridge := by
  refine (dispatch_live _ _ now i).trans ?_
  congr 1
  exact (emitStateChange_exec _ _ _ now).symm

theorem applyResult_live (o : OfflineSession) (kind : Tier2Kind) (r : Tier2Result) (now : ℚ) (i : OfflineTick) :
    (o.applyResult kind r now i).live = o.live.applyResult kind r now i.onBridge := by
  cases r with
  | error e => cases e <;> cases kind <;> rfl
  | ok v =>
    cases v with
    | decision d =>
      cases kind with
      | probe => rfl
      | menu =>
        show _ = o.live.applyMenu d now
        unfold applyResult AgentSession.applyMenu
        dsimp only
        split <;> rfl
    | outcome out =>
      cases kind with
      | menu => rfl
      | probe => exact applyProbe_live o out now i

/-- What waits for the poll came of this tick's answer. -/
def Ran (i : OfflineTick) (o : OfflineSession) : Prop := ∀ j r, o.inline.pending = some (j, r) → r = j.run i.tier2

theorem pollTier2_live (h : Ran i o) (now : ℚ) : (o.pollTier2 now i).live = o.live.pollTier2 now i.live := by
  unfold pollTier2 AgentSession.pollTier2
  show _ = match o.session.tier2Kind with | none => _ | some kind => _
  split
  · rfl
  · rename_i kind _
    cases hp : o.inline.pending with
    | none => simp [InlineExecutor.poll, ThreadedExecutor.poll, live, hp]
    | some p =>
      obtain ⟨j, r⟩ := p
      obtain rfl := h j r hp
      simp only [InlineExecutor.poll, hp, applyResult_live]
      simp [ThreadedExecutor.poll, live, hp, OfflineTick.live, AgentSession.log]

theorem startProbe_ran (o : OfflineSession) (now : ℚ) (i : OfflineTick) : Ran i (o.startProbe now i.tier2) := by
  rintro j r hp
  cases hp
  rfl

theorem observe_ran (h : Ran i o) (now : ℚ) : Ran i (o.observe now i) := by
  unfold observe dispatch
  dsimp only
  split
  · split
    · exact startProbe_ran _ now i
    · exact h
  · exact h

theorem wakeMenu_ran (h : Ran i o) (now : ℚ) : Ran i (o.wakeMenu now i) := by
  unfold wakeMenu
  split
  · split
    · dsimp only
      split
      · rintro j r hp
        cases hp
        rfl
      · exact h
    · exact h
  · exact h

theorem runTick_live (hp : o.inline.pending = none) (now : ℚ) (i : OfflineTick) :
    (o.runTick now i).live = o.live.runTick now i.live := by
  have hran : Ran i { o with session := o.session.classify now i.cls } := by simp [Ran, hp]
  have hobs := observe_live { o with session := o.session.classify now i.cls } now i
  replace hran := observe_ran hran now
  unfold runTick AgentSession.runTick
  have hcls : o.live.classify now i.live.cls = live { o with session := o.session.classify now i.cls } := rfl
  dsimp only
  rw [hcls, ← hobs]
  generalize observe { o with session := o.session.classify now i.cls } now i = t at hran
  show _ = if t.session.crashed then t.live else _
  split
  · rfl
  have hwake := wakeMenu_live t now i
  replace hran := wakeMenu_ran hran now
  rw [← hwake]
  generalize t.wakeMenu now i = u at hran
  show _ = if u.session.crashed then u.live else _
  split
  · rfl
  · exact pollTier2_live hran now

theorem loopPass_live (hp : o.inline.pending = none) (i : OfflineTick) :
    (o.loopPass i).live = o.live.loopPass i.live := by
  have hrun := runTick_live hp o.session.nextClassifyAt i
  unfold loopPass AgentSession.loopPass
  show _ = if o.session.finished ∨ o.session.crashed ∨ o.session.audioSeconds < o.session.nextClassifyAt then _ else
    let s' := o.live.runTick o.session.nextClassifyAt i.live
    if s'.crashed then s' else { s' with nextClassifyAt := s'.nextClassifyAt + o.session.settings.interval }
  split
  · rfl
  · rw [← hrun]
    dsimp only
    generalize o.runTick o.session.nextClassifyAt i = t
    show _ = if t.session.crashed then t.live else _
    split
    · rfl
    · rfl

end OfflineSession

/-! ## Live sessions whose jobs are done by the poll -/

/-- While a job waits to be polled nothing happens but that it is. -/
def Slot.AtOnce (h : Slot) (e : Effect) : Prop := ∀ j, h.waiting = some j → ∃ r, e = .polled j r

/-- While none waits and none is submitted anything may happen. -/
theorem Slot.calm {es : List Effect} (hes : ∀ e ∈ es, ¬ e.Asks) (h : Slot) (hw : h.waiting = none) :
    Run.Along Slot.next AtOnce h es := by
  induction es generalizing h with
  | nil => trivial
  | cons e es ih =>
    obtain ⟨he, hes⟩ := List.forall_mem_cons.1 hes
    rw [Run.along_cons]
    have hnext : (h.next e).waiting = none := by
      cases e with
      | submit | polled => exact absurd trivial he
      | emit ev => cases ev <;> exact hw
      | _ => exact hw
    exact ⟨fun j hj => absurd (hw.symm.trans hj) (by simp), ih hes _ hnext⟩

namespace AgentSession

variable {s t : AgentSession} {m : Move} {now : ℚ} {i : Tick}

/-- The job of a tick is done by its poll. -/
def Move.Done : Move → Prop
  | .tick i => i.answer ≠ none
  | _ => True

/-- The trace has every job polled before anything else. -/
def AtOnce (s : AgentSession) : Prop := Run.Along Slot.next Slot.AtOnce {} s.trace

/-- A session at rest, its jobs all done. -/
structure Settled (s : AgentSession) : Prop where
  press : PressInv s
  inSlot : InSlot s
  idle : s.tier2Kind = none
  pressed : PressOk s
  attended : Attended s
  atOnce : AtOnce s

theorem pollTier2_idle (hs : Sound s) (now : ℚ) (hi : i.answer ≠ none) : (s.pollTier2 now i).tier2Kind = none := by
  rcases pollTier2_cases hs now i with ⟨he, hn⟩ | ⟨j, a, -, -, -, he⟩ <;> rw [he]
  · exact hn.resolve_right hi
  · rw [applyResult_tier2Kind]
    rfl

theorem AtOnce.calm (h : AtOnce s) (hw : (Slot.of s.trace).waiting = none) (hc : Calm s t) : AtOnce t := by
  obtain ⟨-, es, htr, hes⟩ := hc
  rw [AtOnce, htr, Run.along_append]
  exact ⟨h, Slot.calm hes _ hw⟩

/-- A job may be submitted when none waits. -/
theorem AtOnce.submitted (h : AtOnce s) (hw : (Slot.of s.trace).waiting = none) {e : Effect} {j : Job}
    (he : Slot.Off e) (htr : t.trace = s.trace ++ [e, .submit j]) : AtOnce t := by
  rw [AtOnce, htr, Run.along_append, Run.along_cons, he.next]
  have hno : ∀ f, (Slot.of s.trace).AtOnce f := fun f k hk => absurd (hw.symm.trans hk) (by simp)
  exact ⟨h, hno e, hno _, trivial⟩

theorem beforePoll_atOnce (hs : Sound s) (hin : InSlot s) (h : AtOnce s) (hk : s.tier2Kind = none) (now : ℚ)
    (i : Tick) : AtOnce (s.beforePoll now i) := by
  have hcs := classify_sound hs now i.cls
  have hca := classify_aside s now i.cls
  have hck : (s.classify now i.cls).tier2Kind = none := (s.classify_fields now i.cls).2.1.trans hk
  have hci := hin.aside hca
  have hwait : ∀ {u : AgentSession}, Sound u → InSlot u → u.tier2Kind = none → (Slot.of u.trace).waiting = none :=
    fun hu hi hn => hi.waiting.trans (future_none hu hn)
  have hc : AtOnce (s.classify now i.cls) := h.calm (hwait hs hin hk) hca.calm
  have hos := observe_sound hcs now i
  have hoi := observe_inSlot hcs hci now i
  have ho : AtOnce ((s.classify now i.cls).observe now i) := by
    have hm := moved_aside (s.classify now i.cls)
      ((s.classify now i.cls).fsm.observe i.cls.label i.cls.confidence now).1 now
    have hms := moved_sound hcs ((s.classify now i.cls).fsm.observe i.cls.label i.cls.confidence now).1 now
    have hmo := hc.calm (hwait hcs hci hck) hm.calm
    rcases observe_cases (s.classify now i.cls) now i with ⟨-, -, due, he⟩ | ⟨-, -, he⟩ | ⟨-, -, he⟩ | ⟨-, he⟩ <;>
      rw [he]
    · exact hmo
    · rw [startProbe_eq hms.opened]
      refine hmo.submitted (hwait hms (hci.aside hm) ?_) (e := .emit (.tier2Woken now .probe)) trivial rfl
      rw [moved_eq]
      exact hck
    · exact hmo
    · refine hmo.calm (hwait hms (hci.aside hm) ?_) (fail_aside _ now _).calm
      rw [moved_eq]
      exact hck
  rcases wakeMenu_cases ((s.classify now i.cls).observe now i) now with ⟨due, he⟩ | ⟨-, hn, he⟩ <;>
    rw [beforePoll, he]
  · exact ho
  · rw [startMenu_eq (by exact hos.opened)]
    exact ho.submitted (hwait hos hoi hn) (e := .emit (.tier2Woken now .menu)) trivial rfl

theorem pollTier2_atOnce (hs : Sound s) (hin : InSlot s) (h : AtOnce s) (now : ℚ) (i : Tick) :
    AtOnce (s.pollTier2 now i) := by
  rcases pollTier2_cases hs now i with ⟨he, -⟩ | ⟨j, a, hf, -, -, he⟩ <;> rw [he]
  · exact h
  have ht : AtOnce (s.taken j (j.run a)) := by
    rw [AtOnce, taken, log, Run.along_append, Run.along_cons]
    refine ⟨h, fun k hk => ?_, trivial⟩
    obtain rfl : j = k := Option.some.inj ((hin.waiting.trans hf).symm.trans hk)
    exact ⟨_, rfl⟩
  exact ht.calm (by simp [taken, log, Slot.next]) (applyResult_calm _ j.kind _ now i.onBridge)

theorem step_settled (s : AgentSession) (m : Move) (hm : m.Done) (h : Settled s) : Settled (step s m) := by
  have hs := h.press.sound
  obtain ⟨hpress, hpressed⟩ := step_pressOk s m h.press h.pressed (by
    cases m with
    | tick i => exact fun _ _ hk => absurd (h.idle.symm.trans hk) (by simp)
    | _ => trivial)
  have hslot := (step_inSlot s m ⟨hs, h.inSlot⟩).2
  have hatt := (step_attended_iff s m hs h.attended).2 (by
    cases m with
    | tick i => exact fun _ _ hk => absurd (h.idle.symm.trans hk) (by simp)
    | _ => trivial)
  refine ⟨hpress, hslot, ?_, hpressed, hatt, ?_⟩
  · refine step_keeps (P := fun t => t.tier2Kind = none) hs h.idle id id id m ?_
    rintro i rfl -
    rw [runTick_eq hs]
    exact pollTier2_idle (beforePoll_sound hs _ i) _ hm
  · refine step_keeps (P := AtOnce) hs h.atOnce id id (fun ha => ?_) m ?_
    · exact ha.calm (h.inSlot.waiting.trans (future_none hs h.idle)) (fail_aside s _ _).calm
    rintro i rfl -
    have hos := observe_sound (classify_sound hs s.nextClassifyAt i.cls) s.nextClassifyAt i
    have hoi := observe_inSlot (classify_sound hs s.nextClassifyAt i.cls)
      (h.inSlot.aside (classify_aside s s.nextClassifyAt i.cls)) s.nextClassifyAt i
    rw [runTick_eq hs]
    exact pollTier2_atOnce (wakeMenu_sound hos _) (wakeMenu_inSlot hos hoi _)
      (beforePoll_atOnce hs h.inSlot h.atOnce h.idle _ i) _ i

theorem new_settled (callId : String) (settings : Settings) (cfg : FsmConfig) (goal sid : Option String) :
    Settled (new callId settings cfg goal sid) where
  press := ⟨new_sound .., nofun, nofun⟩
  inSlot := ⟨trivial, rfl, rfl⟩
  idle := rfl
  pressed := trivial
  attended := nofun
  atOnce := trivial

end AgentSession

/-! ## Runs -/

namespace OfflineSession

theorem ingest_live (o : OfflineSession) (pcm : Pcm) :
    live { o with session := o.session.ingest pcm } = o.live.ingest pcm := by
  unfold live AgentSession.ingest AgentSession.audioSeconds
  dsimp only
  split_ifs <;> rfl

theorem abort_live (o : OfflineSession) (reason : String) :
    live { o with session := o.session.abort reason } = o.live.abort reason := by
  unfold live AgentSession.abort
  dsimp only
  split_ifs <;> rfl

theorem step_live {o : OfflineSession} {m : Move} {k : AgentSession.Move} (hk : m.live = some k)
    (hp : o.inline.pending = none) :
    (step o m).live = AgentSession.step o.live k := by
  cases m with
  | ingest pcm =>
    cases hk
    exact ingest_live o pcm
  | tick i =>
    cases hk
    exact loopPass_live hp i
  | abort reason =>
    cases hk
    exact abort_live o reason
  | close => cases hk

/-- The live session `o` stands for is at rest, and so `o` is. -/
theorem pending_none {o : OfflineSession} (h : AgentSession.Settled o.live) : o.inline.pending = none := by
  have hf := AgentSession.future_none h.press.sound h.idle
  exact Option.map_eq_none_iff.1 hf

theorem exec_live (callId : String) (settings : Settings) (cfg : FsmConfig) (goal sid : Option String)
    (ms : List Move) :
    let o := Run.exec step (new callId settings cfg goal sid) ms
    o.live = Run.exec AgentSession.step (.new callId settings cfg goal sid) (ms.filterMap Move.live) ∧
      AgentSession.Settled o.live := by
  refine Run.exec_sim_filterMap (R := fun (o : OfflineSession) s => o.live = s ∧ AgentSession.Settled o.live) Move.live
    ?_ ?_ ms _ _ ⟨rfl, AgentSession.new_settled ..⟩
  · rintro o _ m k hk ⟨rfl, h⟩
    have he := step_live hk (pending_none h)
    refine ⟨he, he ▸ AgentSession.step_settled o.live k ?_ h⟩
    cases m <;> cases hk <;> simp [AgentSession.Move.Done, OfflineTick.live]
  · rintro o _ m hm ⟨rfl, h⟩
    cases m with
    | close =>
      -- there is nothing to drop
      have he : (step o .close).live = o.live := by simp [step, InlineExecutor.close, live, pending_none h]
      exact ⟨he, he ▸ h⟩
    | _ => cases hm

/-- **`parity`**: a call on the inline executor is, effect for effect, the live call on the same audio and answers
whose jobs are all done by the next poll; closing it at any time changes nothing. -/
theorem parity (callId : String) (settings : Settings) (cfg : FsmConfig) (goal sid : Option String)
    (ms : List Move) :
    let o := Run.exec step (new callId settings cfg goal sid) ms
    o.inline.pending = none ∧
      o.live = Run.exec AgentSession.step (.new callId settings cfg goal sid) (ms.filterMap Move.live) := by
  obtain ⟨he, h⟩ := exec_live callId settings cfg goal sid ms
  exact ⟨pending_none h, he⟩

/-- **`settles`**: what an offline call cannot show, whatever Tier 2 answers: between ticks it has no job, and while it
lasts is not in EVALUATING_SPEECH; a job's result is the next thing after it is submitted; a key is pressed in the
menu visit that it was chosen in. -/
theorem settles (callId : String) (settings : Settings) (cfg : FsmConfig) (goal sid : Option String)
    (ms : List Move) :
    let s := (Run.exec step (new callId settings cfg goal sid) ms).session
    s.tier2Kind = none ∧ s.crashed = false ∧ (s.finished = false → s.fsm.state ≠ .evaluatingSpeech) ∧
      (∀ pre j post, s.trace = pre ++ .submit j :: post → ∃ r rest, post = .polled j r :: rest) ∧ s.PressOk := by
  obtain ⟨-, h⟩ := exec_live callId settings cfg goal sid ms
  intro s
  refine ⟨h.idle, h.press.sound.alive, fun hf hst => ?_, fun pre j post htr => ?_, h.pressed⟩
  · exact absurd (h.idle.symm.trans (h.attended hf hst)) (by simp)
  · have hwait : (Slot.of s.trace).waiting = none :=
      h.inSlot.waiting.trans (AgentSession.future_none h.press.sound h.idle)
    have hrun : Run.Along Slot.next Slot.AtOnce {} s.trace := h.atOnce
    rw [htr, Slot.of_append, Run.exec_cons] at hwait
    rw [htr, Run.along_append, Run.along_cons] at hrun
    cases post with
    | nil => cases hwait
    | cons e rest =>
      obtain ⟨r, rfl⟩ := hrun.2.2.1 j rfl
      exact ⟨r, rest, rfl⟩

/-- The simulator's fixed digit is pressed in the very tick that reads the menu. -/
example :
    let t : OfflineTick := { cls := { label := .liveSpeechCandidate, confidence := 1 }, tier2 := ({} : FakeTier2).answer }
    let o := Run.exec step (new "sim-1" { menuCollectS := 0 } { enterMenuFrames := 1 } (some "reach a human") none)
      [.ingest [0], .tick t]
    o.session.fsm.state = .ivrMenu ∧ .dtmfSender "2" ∈ o.session.trace := by
  decide +kernel

end OfflineSession

end DialPass
