import DialPass.Resilience.CircuitBreaker
import DialPass.Session.Life
import DialPass.Session.Slot
/-!
# The breaker the calls share (main.py:83-125, session.py:91-97, session.py:194-243)

Every session of the process hands its jobs to a thread of its own, and every job goes through the one breaker: a
job is `queued` until its thread takes it, `inside` while the service has it, `done` until the session polls. A tick
submits and polls in one go on the event loop, and the threads run on meanwhile; so they do between the moves.

`accounts` says that the breaker and the calls agree on what happened: each of its calls is one session's job, which
ended as the breaker counted it, and a session that polls a refusal ends there.
-/

namespace DialPass

/-- What the service makes of a call. Only the breaker raises CircuitOpenError. -/
structure Reply extends Answer where
  menuOpen : menu ≠ .error .circuitOpen
  probeOpen : probe ≠ .error .circuitOpen

/-- `call`'s CircuitOpenError (circuit_breaker.py:59). -/
def Answer.refused : Answer := { menu := .error .circuitOpen, probe := .error .circuitOpen }

/-- How far the job of a session is; `id` is its call's at the breaker. -/
inductive Progress where
  | queued (j : Job)
  | inside (j : Job) (id : Nat)
  | done (j : Job) (id : Nat) (a : Answer)

namespace Progress

def job : Progress → Job
  | queued j | inside j _ | done j _ _ => j

def id : Progress → Option Nat
  | queued _ => none
  | inside _ id | done _ id _ => some id

end Progress

/-- How a call through the breaker came out. -/
inductive Ending where
  | refused | failed | succeeded
deriving DecidableEq, Repr

/-- What an event says of how call `id` came out. -/
def BreakerEvent.ending (id : Nat) : BreakerEvent → Option Ending
  | .rejected i _ => if i = id then some .refused else none
  | .completed i ok _ _ => if i = id then some (if ok then .succeeded else .failed) else none
  | _ => none

/-- All that the breaker's log says of it. -/
def endings (log : List BreakerEvent) (id : Nat) : List Ending := log.filterMap (·.ending id)

/-- How it came out for the session (session.py:218-243). -/
def endingOf : Tier2Result → Ending
  | .error .circuitOpen => .refused
  | .error _ => .failed
  | .ok _ => .succeeded

def Effect.result : Effect → Option Tier2Result
  | .polled _ r => some r
  | _ => none

/-- The results a session has polled. -/
def results (tr : List Effect) : List Tier2Result := tr.filterMap (·.result)

/-- The calls of one process, by their number; `served` lists who polled which of the breaker's calls. -/
structure Process where
  traffic : Traffic
  sessions : Nat → AgentSession
  jobs : Nat → Option Progress := fun _ => none
  served : List (Nat × Nat) := []

namespace Process

/-- `create_app` and the calls to come (main.py:83-125). -/
def new (settings : Settings) (fsmConfig : FsmConfig) (threshold : Nat) (resetTimeout now : ℚ) (callId : Nat → String)
    (goal userLegSid : Nat → Option String) : Process :=
  { traffic := .new threshold resetTimeout now,
    sessions := fun k => .new (callId k) settings fsmConfig (goal k) (userLegSid k) }

def setJob (p : Process) (k : Nat) (job : Option Progress) : Process := { p with jobs := Function.update p.jobs k job }

def setSession (p : Process) (k : Nat) (s : AgentSession) : Process :=
  { p with sessions := Function.update p.sessions k s }

/-- What goes on beside the event loop. -/
inductive Aside where
  | enter (k : Nat)
  | finish (k : Nat) (r : Reply)
  | look
  | wait (dt : ℚ)

/-- A thread enters the breaker with its job, the service is done with one, or /health reads the state. -/
def aside (p : Process) : Aside → Process
  | .enter k =>
    match p.jobs k with
    | some (.queued j) =>
      let id := p.traffic.fresh
      let admitted := (p.traffic.breaker.enterCall p.traffic.now).2
      { p with traffic := p.traffic.call }.setJob k (some (if admitted then .inside j id else .done j id .refused))
    | _ => p
  | .finish k r =>
    match p.jobs k with
    | some (.inside j id) =>
      { p with traffic := p.traffic.complete id (j.run r.toAnswer).isOk }.setJob k (some (.done j id r.toAnswer))
    | _ => p
  | .look => { p with traffic := Traffic.step p.traffic .look }
  | .wait dt => { p with traffic := Traffic.step p.traffic (.wait dt) }

/-- One pass of a session's loop: what it submits is queued, the threads run on, and it polls what is done. -/
def tick (p : Process) (k : Nat) (cls : Classification) (onBridge : BridgeReply) (meanwhile : List Aside) : Process :=
  let s := p.sessions k
  if s.Due then
    let toPoll := s.beforePoll s.nextClassifyAt { cls, onBridge }
    let p := p.setJob k (p.jobs k <|> toPoll.exec.future.map .queued)
    let p := meanwhile.foldl aside p
    match p.jobs k with
    | some (.done _ id a) =>
      let p := { p with served := p.served ++ [(k, id)] }.setJob k none
      p.setSession k (s.loopPass { cls, answer := some a, onBridge })
    | _ => p.setSession k (s.loopPass { cls, onBridge })
  else p

inductive Step where
  | ingest (k : Nat) (pcm : Pcm)
  | tick (k : Nat) (cls : Classification) (onBridge : BridgeReply) (meanwhile : List Aside)
  | abort (k : Nat) (reason : String)
  | aside (a : Aside)

def step (p : Process) : Step → Process
  | .ingest k pcm => p.setSession k ((p.sessions k).ingest pcm)
  | .tick k cls onBridge meanwhile => p.tick k cls onBridge meanwhile
  | .abort k reason => p.setSession k ((p.sessions k).abort reason)
  | .aside a => p.aside a

end Process

/-! ## What a session polls -/

@[simp] theorem results_append (tr es : List Effect) : results (tr ++ es) = results tr ++ results es := by
  simp [results]

namespace AgentSession

variable {s t : AgentSession} {i : Tick} {now : ℚ}

theorem Calm.results (h : Calm s t) : results t.trace = results s.trace := by
  obtain ⟨-, es, htr, hes⟩ := h
  have hno : DialPass.results es = [] := by
    refine List.filterMap_eq_nil_iff.2 fun e he => ?_
    cases e with
    | polled => exact absurd trivial (hes _ he)
    | _ => rfl
  rw [htr, results_append, hno, List.append_nil]

theorem beforePoll_results (hs : Sound s) (now : ℚ) (i : Tick) :
    DialPass.results (s.beforePoll now i).trace = DialPass.results s.trace := by
  have hcs := classify_sound hs now i.cls
  have hc := (classify_aside s now i.cls).calm.results
  have hm := (moved_aside (s.classify now i.cls)
    ((s.classify now i.cls).fsm.observe i.cls.label i.cls.confidence now).1 now).calm.results
  have hms := moved_sound hcs ((s.classify now i.cls).fsm.observe i.cls.label i.cls.confidence now).1 now
  have ho : DialPass.results ((s.classify now i.cls).observe now i).trace = DialPass.results s.trace := by
    rcases observe_cases (s.classify now i.cls) now i with ⟨-, -, due, he⟩ | ⟨-, -, he⟩ | ⟨-, -, he⟩ | ⟨-, he⟩ <;>
      rw [he]
    · exact hm.trans hc
    · rw [startProbe_eq hms.opened, results_append, hm, hc]
      exact List.append_nil _
    · exact hm.trans hc
    · exact (fail_aside _ now _).calm.results.trans (hm.trans hc)
  rcases wakeMenu_cases ((s.classify now i.cls).observe now i) now with ⟨due, he⟩ | ⟨-, -, he⟩ <;> rw [beforePoll, he]
  · exact ho
  · rw [startMenu_eq (by exact (observe_sound hcs now i).opened), results_append]
    exact (List.append_nil _).trans ho

/-- A job that is outstanding is still the one when the tick polls. -/
theorem beforePoll_future (hs : Sound s) {j : Job} (hf : s.exec.future = some j) (now : ℚ) (i : Tick) :
    (s.beforePoll now i).exec.future = some j := by
  have hk : s.tier2Kind ≠ none := by
    rw [← hs.slot, hf]
    simp
  obtain ⟨-, hfl, -⟩ := beforePoll_busy hk now i
  rw [← (beforePoll_sound hs now i).flight, hfl, hs.flight, hf]

/-- A tick whose job is not done polls nothing. -/
theorem loopPass_waits (hs : Sound s) (hd : s.Due) (hi : i.answer = none) :
    (s.loopPass i).exec.future = (s.beforePoll s.nextClassifyAt i).exec.future ∧
      DialPass.results (s.loopPass i).trace = DialPass.results s.trace := by
  rw [loopPass_due hs hd, runTick_eq hs]
  have hn : (s.beforePoll s.nextClassifyAt i).pollTier2 s.nextClassifyAt i = s.beforePoll s.nextClassifyAt i := by
    rcases pollTier2_cases (beforePoll_sound hs _ i) s.nextClassifyAt i with ⟨he, -⟩ | ⟨j, a, -, -, ha, -⟩
    · exact he
    · exact absurd (hi.symm.trans ha) (by simp)
  show ((s.beforePoll s.nextClassifyAt i).pollTier2 s.nextClassifyAt i).exec.future = _ ∧
    DialPass.results ((s.beforePoll s.nextClassifyAt i).pollTier2 s.nextClassifyAt i).trace = _
  rw [hn]
  exact ⟨rfl, beforePoll_results hs _ i⟩

/-- One whose job is done polls what it came to. -/
theorem loopPass_takes (hs : Sound s) (hd : s.Due) {j : Job} {a : Answer}
    (hf : (s.beforePoll s.nextClassifyAt i).exec.future = some j) (hi : i.answer = some a) :
    (s.loopPass i).exec.future = none ∧
      DialPass.results (s.loopPass i).trace = DialPass.results s.trace ++ [j.run a] := by
  rw [loopPass_due hs hd, runTick_eq hs]
  show ((s.beforePoll s.nextClassifyAt i).pollTier2 s.nextClassifyAt i).exec.future = _ ∧
    DialPass.results ((s.beforePoll s.nextClassifyAt i).pollTier2 s.nextClassifyAt i).trace = _
  have hts := beforePoll_sound hs s.nextClassifyAt i
  have htr := beforePoll_results hs s.nextClassifyAt i
  generalize s.beforePoll s.nextClassifyAt i = t at hf hts htr
  rcases pollTier2_cases hts s.nextClassifyAt i with ⟨-, hn | hn⟩ | ⟨k, b, hk, -, hb, he⟩
  · rw [future_none hts hn] at hf
    cases hf
  · exact absurd (hn.symm.trans hi) (by simp)
  · obtain rfl : k = j := Option.some.inj (hk.symm.trans hf)
    obtain rfl : b = a := Option.some.inj (hb.symm.trans hi)
    have hc := applyResult_calm (t.taken k (k.run b)) k.kind (k.run b) s.nextClassifyAt i.onBridge
    rw [he, hc.1, hc.results]
    refine ⟨rfl, ?_⟩
    show DialPass.results (t.trace ++ [.polled k (k.run b)]) = _
    rw [results_append, htr]
    rfl

/-- The last a call does that polls the breaker's refusal. -/
def lastWords (j : Job) (now : ℚ) : List Effect :=
  [.polled j (.error .circuitOpen), .emit (.callFailed now "tier2_unavailable"), .onFail "tier2_unavailable"]

/-- A call that has polled one is over, and that was the last it did. -/
def EndsRefused (s : AgentSession) : Prop :=
  ∀ j, .polled j (.error .circuitOpen) ∈ s.trace → s.finished = true ∧ ∃ pre now, s.trace = pre ++ lastWords j now

theorem mem_results {tr : List Effect} {j : Job} {r : Tier2Result} (h : .polled j r ∈ tr) :
    r ∈ DialPass.results tr := List.mem_filterMap.2 ⟨_, h, rfl⟩

theorem endsRefused_of_results (h : .error .circuitOpen ∉ DialPass.results s.trace) : EndsRefused s :=
  fun _ hj => absurd (mem_results hj) h

/-- A live call has polled none yet. -/
theorem EndsRefused.not_mem (h : EndsRefused s) (hf : s.finished = false) :
    .error .circuitOpen ∉ DialPass.results s.trace := by
  intro hr
  obtain ⟨e, he, hres⟩ := List.mem_filterMap.1 hr
  cases e with
  | polled j r =>
    obtain rfl : r = .error .circuitOpen := Option.some.inj hres
    simp [(h j he).1] at hf
  | _ => cases hres

theorem loopPass_endsRefused (hs : Sound s) (hd : s.Due) (h : EndsRefused s) (i : Tick) :
    EndsRefused (s.loopPass i) := by
  have hnone := h.not_mem hd.1
  have hts := beforePoll_sound hs s.nextClassifyAt i
  have htr := beforePoll_results hs s.nextClassifyAt i
  rw [loopPass_due hs hd, runTick_eq hs]
  show EndsRefused { (s.beforePoll s.nextClassifyAt i).pollTier2 s.nextClassifyAt i with nextClassifyAt := _ }
  generalize s.beforePoll s.nextClassifyAt i = t at hts htr
  rcases pollTier2_cases hts s.nextClassifyAt i with ⟨he, -⟩ | ⟨k, a, -, -, -, he⟩ <;> rw [he]
  · exact endsRefused_of_results (by rw [htr]; exact hnone)
  by_cases hr : k.run a = .error .circuitOpen
  · rw [hr]
    have hf := fail_eq (t.taken k (.error .circuitOpen)) s.nextClassifyAt "tier2_unavailable"
    show EndsRefused { (t.taken k (.error .circuitOpen)).fail s.nextClassifyAt "tier2_unavailable" with
      nextClassifyAt := _ }
    rw [hf]
    intro j hj
    have hjk : j = k := by
      have hno : ∀ j, .polled j (.error .circuitOpen) ∉ t.trace := fun j hj => hnone (htr ▸ mem_results hj)
      simpa [taken, log, hno] using hj
    refine ⟨rfl, t.trace, s.nextClassifyAt, ?_⟩
    rw [hjk]
    simp [taken, log, lastWords]
  · have hc := applyResult_calm (t.taken k (k.run a)) k.kind (k.run a) s.nextClassifyAt i.onBridge
    refine endsRefused_of_results ?_
    show _ ∉ DialPass.results ((t.taken k (k.run a)).applyResult k.kind (k.run a) s.nextClassifyAt i.onBridge).trace
    rw [hc.results]
    show _ ∉ DialPass.results (t.trace ++ [.polled k (k.run a)])
    rw [results_append, htr]
    intro hmem
    rcases List.mem_append.1 hmem with hmem | hmem
    · exact hnone hmem
    · exact hr (List.mem_singleton.1 hmem).symm

theorem step_endsRefused (s : AgentSession) (m : Move) (h : Sound s ∧ EndsRefused s) :
    Sound (step s m) ∧ EndsRefused (step s m) := by
  obtain ⟨hs, h⟩ := h
  refine ⟨step_sound s m hs, ?_⟩
  cases m with
  | ingest pcm =>
    obtain ⟨htr, -, hf, -⟩ := ingest_fields s pcm
    intro j hj
    rw [step, htr] at hj
    rw [step, htr, hf]
    exact h j hj
  | tick i =>
    by_cases hd : s.Due
    · exact loopPass_endsRefused hs hd h i
    · rw [step, loopPass_idle hd]
      exact h
  | abort reason =>
    rw [step, abort]
    split
    · exact h
    · rename_i hf
      refine endsRefused_of_results ?_
      rw [(fail_aside s s.audioSeconds reason).calm.results]
      exact h.not_mem (by simpa using hf)

end AgentSession

/-! ## The breaker's book -/

@[simp] theorem endings_append (log es : List BreakerEvent) (id : Nat) :
    endings (log ++ es) id = endings log id ++ endings es id := by
  simp [endings]

@[simp] theorem endingOf_refused (j : Job) : endingOf (j.run .refused) = .refused := by
  cases hk : j.kind <;> simp [Job.run, hk, Answer.refused, Except.map, endingOf]

/-- What the service says the breaker counts. -/
theorem endingOf_reply (j : Job) (r : Reply) :
    endingOf (j.run r.toAnswer) = if (j.run r.toAnswer).isOk then .succeeded else .failed := by
  have hn : j.run r.toAnswer ≠ .error .circuitOpen := by
    cases hk : j.kind with
    | menu =>
      have hm := r.menuOpen
      cases hr : r.menu <;> simp_all [Job.run, Except.map]
    | probe =>
      have hp := r.probeOpen
      cases hr : r.probe <;> simp_all [Job.run, Except.map]
  cases hr : j.run r.toAnswer with
  | ok v => rfl
  | error e =>
    cases e with
    | circuitOpen => exact absurd hr hn
    | _ => rfl

namespace Process

/-- The breaker's call that session `k`'s job is, once it has entered. -/
def callOf (p : Process) (k : Nat) : Option Nat := (p.jobs k).bind Progress.id

/-- The breaker's calls session `k` has polled. -/
def servedTo (p : Process) (k : Nat) : List Nat := (p.served.filter (·.1 = k)).map (·.2)

/-- Each call at the breaker is one job's, and its log says how it came out, if it has. -/
structure Booked (p : Process) : Prop where
  running : ∀ k j id, p.jobs k = some (.inside j id) →
    p.traffic.running.any (·.id = id) = true ∧ endings p.traffic.log id = []
  done : ∀ k j id a, p.jobs k = some (.done j id a) → endings p.traffic.log id = [endingOf (j.run a)]
  known : ∀ id, id < p.traffic.fresh ↔ id ∈ p.served.map (·.2) ∨ ∃ k, p.callOf k = some id
  unknown : ∀ id, p.traffic.fresh ≤ id → endings p.traffic.log id = []
  once : (p.served.map (·.2)).Nodup
  apart : ∀ k id, p.callOf k = some id → id ∉ p.served.map (·.2) ∧ ∀ l, p.callOf l = some id → l = k

/-- From `p` to `q` only threads have run, and they have left alone what was polled. -/
structure Beside (p q : Process) : Prop where
  sessions : q.sessions = p.sessions
  served : q.served = p.served
  job : ∀ k, (q.jobs k).map Progress.job = (p.jobs k).map Progress.job
  ended : ∀ id ∈ p.served.map (·.2), endings q.traffic.log id = endings p.traffic.log id

theorem Beside.refl (p : Process) : Beside p p := ⟨rfl, rfl, fun _ => rfl, fun _ _ => rfl⟩

theorem Beside.trans {p q r : Process} (h : Beside p q) (h' : Beside q r) : Beside p r where
  sessions := h'.sessions.trans h.sessions
  served := h'.served.trans h.served
  job k := (h'.job k).trans (h.job k)
  ended id hid := (h'.ended id (h.served ▸ hid)).trans (h.ended id hid)

variable {p q : Process} {k : Nat}

@[simp] theorem setJob_jobs_self (p : Process) (k : Nat) (job : Option Progress) : (p.setJob k job).jobs k = job := by
  simp [setJob]

theorem setJob_jobs_ne {l : Nat} (h : l ≠ k) (p : Process) (job : Option Progress) :
    (p.setJob k job).jobs l = p.jobs l := by
  simp [setJob, h]

theorem setJob_callOf (p : Process) (k : Nat) (job : Option Progress) (l : Nat) :
    (p.setJob k job).callOf l = if l = k then job.bind Progress.id else p.callOf l := by
  unfold callOf
  split
  · rename_i h
    rw [h, setJob_jobs_self]
  · rename_i h
    rw [setJob_jobs_ne h]

theorem setJob_job (p : Process) {pr pr' : Progress} (hp : p.jobs k = some pr) (hj : pr'.job = pr.job) (l : Nat) :
    ((p.setJob k (some pr')).jobs l).map Progress.job = (p.jobs l).map Progress.job := by
  by_cases h : l = k
  · rw [h, setJob_jobs_self, hp]
    simp [hj]
  · rw [setJob_jobs_ne h]

/-- A job enters the breaker, as the next of its calls. -/
theorem Booked.enter (h : Booked p) (hk : p.callOf k = none) {T : Traffic} {pr : Progress}
    (hid : pr.id = some p.traffic.fresh) (hfresh : T.fresh = p.traffic.fresh + 1)
    (hrun : ∀ id, p.traffic.running.any (·.id = id) = true → T.running.any (·.id = id) = true)
    (hend : ∀ id ≠ p.traffic.fresh, endings T.log id = endings p.traffic.log id)
    (hinside : ∀ j id, pr = .inside j id → T.running.any (·.id = id) = true ∧ endings T.log id = [])
    (hdone : ∀ j id a, pr = .done j id a → endings T.log id = [endingOf (j.run a)]) :
    Booked ({ p with traffic := T }.setJob k (some pr)) := by
  have hcall : ∀ l, ({ p with traffic := T }.setJob k (some pr)).callOf l =
      if l = k then some p.traffic.fresh else p.callOf l := by
    intro l
    rw [setJob_callOf]
    simp only [Option.bind_some, hid]
    rfl
  have hold : ∀ l id, p.callOf l = some id → id < p.traffic.fresh := fun l id hl => (h.known id).2 (.inr ⟨l, hl⟩)
  have hne : ∀ l id, p.callOf l = some id → l ≠ k := by
    rintro l id hl rfl
    rw [hk] at hl
    cases hl
  constructor
  · intro l j id hl
    by_cases hlk : l = k
    · rw [hlk, setJob_jobs_self] at hl
      exact hinside j id (Option.some.inj hl)
    · rw [setJob_jobs_ne hlk] at hl
      obtain ⟨hr, he⟩ := h.running l j id hl
      have hlt := hold l id (by rw [callOf, show p.jobs l = _ from hl]; rfl)
      exact ⟨hrun id hr, (hend id (by omega)).trans he⟩
  · intro l j id a hl
    by_cases hlk : l = k
    · rw [hlk, setJob_jobs_self] at hl
      exact hdone j id a (Option.some.inj hl)
    · rw [setJob_jobs_ne hlk] at hl
      have hlt := hold l id (by rw [callOf, show p.jobs l = _ from hl]; rfl)
      exact (hend id (by omega)).trans (h.done l j id a hl)
  · intro id
    show id < T.fresh ↔ id ∈ p.served.map (·.2) ∨ _
    have hknown := h.known id
    rw [hfresh]
    constructor
    · intro hlt
      by_cases hid' : id = p.traffic.fresh
      · exact .inr ⟨k, by rw [hcall, if_pos rfl, hid']⟩
      · refine (hknown.1 (by omega)).imp_right ?_
        rintro ⟨l, hl⟩
        exact ⟨l, by rw [hcall, if_neg (hne l id hl)]; exact hl⟩
    · rintro (hs | ⟨l, hl⟩)
      · have hlt := hknown.2 (.inl hs)
        omega
      · rw [hcall] at hl
        split at hl
        · cases hl
          omega
        · have hlt := hold l id hl
          omega
  · intro id hle
    have hle : p.traffic.fresh + 1 ≤ id := hfresh ▸ hle
    exact (hend id (by omega)).trans (h.unknown id (by omega))
  · exact h.once
  · intro l id hl
    show id ∉ p.served.map (·.2) ∧ _
    rw [hcall] at hl
    split at hl
    · cases hl
      refine ⟨fun hs => absurd ((h.known _).2 (.inl hs)) (lt_irrefl _), fun m hm => ?_⟩
      rw [hcall] at hm
      split at hm
      · rename_i hlk hmk
        exact hmk.trans hlk.symm
      · exact absurd (hold m _ hm) (lt_irrefl _)
    · obtain ⟨hs, ho⟩ := h.apart l id hl
      refine ⟨hs, fun m hm => ?_⟩
      rw [hcall] at hm
      split at hm
      · cases hm
        exact absurd (hold l _ hl) (lt_irrefl _)
      · exact ho m hm

/-- A call at the breaker comes out. -/
theorem Booked.leave (h : Booked p) {j : Job} {id : Nat} (hk : p.jobs k = some (.inside j id)) {T : Traffic} {a : Answer}
    (hfresh : T.fresh = p.traffic.fresh)
    (hrun : ∀ i ≠ id, p.traffic.running.any (·.id = i) = true → T.running.any (·.id = i) = true)
    (hend : ∀ i ≠ id, endings T.log i = endings p.traffic.log i) (hdone : endings T.log id = [endingOf (j.run a)]) :
    Booked ({ p with traffic := T }.setJob k (some (.done j id a))) := by
  have hkid : p.callOf k = some id := by
    rw [callOf, hk]
    rfl
  have hcall : ∀ l, ({ p with traffic := T }.setJob k (some (.done j id a))).callOf l = p.callOf l := by
    intro l
    rw [setJob_callOf]
    split
    · rename_i hlk
      rw [hlk, hkid]
      rfl
    · rfl
  have hother : ∀ l i, l ≠ k → p.callOf l = some i → i ≠ id := by
    rintro l i hlk hl rfl
    exact hlk ((h.apart k i hkid).2 l hl)
  constructor
  · intro l j' i hl
    by_cases hlk : l = k
    · rw [hlk, setJob_jobs_self] at hl
      cases hl
    · rw [setJob_jobs_ne hlk] at hl
      obtain ⟨hr, he⟩ := h.running l j' i hl
      have hi := hother l i hlk (by rw [callOf, show p.jobs l = _ from hl]; rfl)
      exact ⟨hrun i hi hr, (hend i hi).trans he⟩
  · intro l j' i a' hl
    by_cases hlk : l = k
    · rw [hlk, setJob_jobs_self] at hl
      cases hl
      exact hdone
    · rw [setJob_jobs_ne hlk] at hl
      have hi := hother l i hlk (by rw [callOf, show p.jobs l = _ from hl]; rfl)
      exact (hend i hi).trans (h.done l j' i a' hl)
  · intro i
    show i < T.fresh ↔ i ∈ p.served.map (·.2) ∨ _
    simp only [hcall, hfresh]
    exact h.known i
  · intro i hle
    have hle : p.traffic.fresh ≤ i := hfresh ▸ hle
    have hlt := (h.known id).2 (.inr ⟨k, hkid⟩)
    exact (hend i (by omega)).trans (h.unknown i hle)
  · exact h.once
  · intro l i hl
    simp only [hcall] at hl ⊢
    exact h.apart l i hl

/-- What entering comes to: let in, or turned away. -/
theorem aside_enter_cases {j : Job} (hk : p.jobs k = some (.queued j)) :
    (∃ trial, p.aside (.enter k) = { p with traffic := p.traffic.call }.setJob k (some (.inside j p.traffic.fresh)) ∧
      p.traffic.call.log = p.traffic.log ++ [.admitted p.traffic.fresh p.traffic.now trial] ∧
      p.traffic.call.running = p.traffic.running ++ [{ id := p.traffic.fresh, trial }]) ∨
    (p.aside (.enter k) =
        { p with traffic := p.traffic.call }.setJob k (some (.done j p.traffic.fresh .refused)) ∧
      p.traffic.call.log = p.traffic.log ++ [.rejected p.traffic.fresh p.traffic.now] ∧
      p.traffic.call.running = p.traffic.running) := by
  have haside : p.aside (.enter k) = { p with traffic := p.traffic.call }.setJob k
      (some (if (p.traffic.breaker.enterCall p.traffic.now).2 then .inside j p.traffic.fresh
        else .done j p.traffic.fresh .refused)) := by
    simp only [aside, hk]
  rw [haside]
  rcases p.traffic.call_cases with ⟨hr, he⟩ | ⟨hr, he⟩
  · have ha : (p.traffic.breaker.enterCall p.traffic.now).2 = true := (CircuitBreaker.enterCall_iff _ _).2 hr
    rw [ha, he]
    exact .inl ⟨_, rfl, rfl, rfl⟩
  · have ha : (p.traffic.breaker.enterCall p.traffic.now).2 = false := by
      have hn := (CircuitBreaker.enterCall_iff p.traffic.breaker p.traffic.now).not.2 (not_not.2 hr)
      simpa using hn
    rw [ha, he]
    exact .inr ⟨rfl, rfl, rfl⟩

theorem call_fresh (T : Traffic) : T.call.fresh = T.fresh + 1 := by
  rcases T.call_cases with ⟨-, he⟩ | ⟨-, he⟩ <;> rw [he]

theorem enter_booked (h : Booked p) {j : Job} (hk : p.jobs k = some (.queued j)) :
    Booked (p.aside (.enter k)) ∧ Beside p (p.aside (.enter k)) := by
  have hkid : p.callOf k = none := by
    rw [callOf, hk]
    rfl
  have hserved : ∀ id ∈ p.served.map (·.2), p.traffic.fresh ≠ id := by
    rintro id hid rfl
    exact absurd ((h.known _).2 (.inl hid)) (lt_irrefl _)
  have hnew := h.unknown p.traffic.fresh le_rfl
  rcases aside_enter_cases hk with ⟨trial, he, hlog, hrun⟩ | ⟨he, hlog, hrun⟩ <;> rw [he]
  · have hend : ∀ id, endings p.traffic.call.log id = endings p.traffic.log id := fun id => by
      rw [hlog, endings_append]
      exact List.append_nil _
    refine ⟨h.enter hkid rfl (call_fresh _) ?_ (fun id _ => hend id) ?_ nofun,
      rfl, rfl, setJob_job _ hk rfl, fun id _ => hend id⟩
    · intro id hid
      rw [hrun, List.any_append, hid, Bool.true_or]
    · rintro _ _ ⟨⟩
      exact ⟨by simp [hrun], (hend _).trans hnew⟩
  · have hend : ∀ id ≠ p.traffic.fresh, endings p.traffic.call.log id = endings p.traffic.log id := by
      intro id hid
      simp [hlog, endings, BreakerEvent.ending, Ne.symm hid]
    refine ⟨h.enter hkid rfl (call_fresh _) (fun id hid => hrun ▸ hid) hend nofun ?_,
      rfl, rfl, setJob_job _ hk rfl, fun id hid => hend id (hserved id hid).symm⟩
    rintro _ _ _ ⟨⟩
    rw [hlog, endings_append, hnew, endingOf_refused]
    simp [endings, BreakerEvent.ending]

/-- A completion tells of the one call that it completes. -/
theorem complete_endings {T : Traffic} {id : Nat} (hr : T.running.any (·.id = id) = true) (ok : Bool) (i : Nat) :
    endings (T.complete id ok).log i =
      endings T.log i ++ if i = id then [if ok then .succeeded else .failed] else [] := by
  rcases T.complete_cases id ok with ⟨hn, -⟩ | ⟨-, rfl, he⟩ | ⟨-, rfl, -, he⟩ | ⟨-, rfl, -, he⟩
  · rw [hr] at hn
    cases hn
  all_goals
    rw [he, endings_append]
    by_cases hi : i = id
    · simp [endings, BreakerEvent.ending, hi]
    · simp [endings, BreakerEvent.ending, hi, Ne.symm hi]

theorem complete_running (T : Traffic) {id i : Nat} (hi : i ≠ id) (ok : Bool) (h : T.running.any (·.id = i) = true) :
    (T.complete id ok).running.any (·.id = i) = true := by
  have hf : (T.running.filter (·.id ≠ id)).any (·.id = i) = true := by
    obtain ⟨a, ha, hai⟩ := List.any_eq_true.1 h
    have hai : a.id = i := by simpa using hai
    exact List.any_eq_true.2 ⟨a, List.mem_filter.2 ⟨ha, by simpa [hai] using hi⟩, by simpa using hai⟩
  rcases T.complete_cases id ok with ⟨-, he⟩ | ⟨-, -, he⟩ | ⟨-, -, -, he⟩ | ⟨-, -, -, he⟩ <;> rw [he]
  · exact h
  · exact hf
  · exact hf
  · exact hf

theorem complete_fresh (T : Traffic) (id : Nat) (ok : Bool) : (T.complete id ok).fresh = T.fresh := by
  rcases T.complete_cases id ok with ⟨-, he⟩ | ⟨-, -, he⟩ | ⟨-, -, -, he⟩ | ⟨-, -, -, he⟩ <;> rw [he]

theorem finish_booked (h : Booked p) {j : Job} {id : Nat} (hk : p.jobs k = some (.inside j id)) (r : Reply) :
    Booked (p.aside (.finish k r)) ∧ Beside p (p.aside (.finish k r)) := by
  have haside : p.aside (.finish k r) = { p with traffic := p.traffic.complete id (j.run r.toAnswer).isOk }.setJob k
      (some (.done j id r.toAnswer)) := by
    simp only [aside, hk]
  obtain ⟨hr, he⟩ := h.running k j id hk
  have hend := complete_endings hr (j.run r.toAnswer).isOk
  have hother : ∀ i ≠ id, endings (p.traffic.complete id (j.run r.toAnswer).isOk).log i = endings p.traffic.log i := by
    intro i hi
    rw [hend, if_neg hi, List.append_nil]
  have hkid : p.callOf k = some id := by
    rw [callOf, hk]
    rfl
  rw [haside]
  refine ⟨h.leave hk (complete_fresh ..) (fun i hi => complete_running _ hi _) hother ?_,
    rfl, rfl, setJob_job _ hk rfl, fun i hi => hother i ?_⟩
  · rw [hend, he, if_pos rfl, endingOf_reply]
    rfl
  · rintro rfl
    exact (h.apart k i hkid).1 hi

theorem aside_booked (h : Booked p) (a : Aside) : Booked (p.aside a) ∧ Beside p (p.aside a) := by
  cases a with
  | enter k =>
    cases hk : p.jobs k with
    | none => simpa only [aside, hk] using ⟨h, .refl p⟩
    | some pr =>
      cases pr with
      | queued j => exact enter_booked h hk
      | inside | done => simpa only [aside, hk] using ⟨h, .refl p⟩
  | finish k r =>
    cases hk : p.jobs k with
    | none => simpa only [aside, hk] using ⟨h, .refl p⟩
    | some pr =>
      cases pr with
      | inside j id => exact finish_booked h hk r
      | queued | done => simpa only [aside, hk] using ⟨h, .refl p⟩
  | look | wait =>
    exact ⟨⟨h.running, h.done, h.known, h.unknown, h.once, h.apart⟩, rfl, rfl, fun _ => rfl, fun _ _ => rfl⟩

/-- So much for what the threads do by themselves. -/
theorem asides_booked (h : Booked p) (as : List Aside) : Booked (as.foldl aside p) ∧ Beside p (as.foldl aside p) :=
  have hstep : ∀ q a, Booked q ∧ Beside p q → Booked (aside q a) ∧ Beside p (aside q a) :=
    fun _ a hq => ⟨(aside_booked hq.1 a).1, hq.2.trans (aside_booked hq.1 a).2⟩
  Run.exec_inv hstep as p ⟨h, .refl p⟩

/-- A job is submitted, or none. -/
theorem Booked.queue (h : Booked p) (hk : p.jobs k = none) (job : Option Job) :
    Booked (p.setJob k (job.map .queued)) := by
  have hcall : ∀ l, (p.setJob k (job.map .queued)).callOf l = p.callOf l := by
    intro l
    rw [setJob_callOf]
    split
    · rename_i hl
      rw [hl, callOf, hk]
      cases job <;> rfl
    · rfl
  refine ⟨fun l j id hl => ?_, fun l j id a hl => ?_, fun id => ?_, h.unknown, h.once, fun l id hl => ?_⟩
  · by_cases hlk : l = k
    · rw [hlk, setJob_jobs_self] at hl
      cases job <;> cases hl
    · rw [setJob_jobs_ne hlk] at hl
      exact h.running l j id hl
  · by_cases hlk : l = k
    · rw [hlk, setJob_jobs_self] at hl
      cases job <;> cases hl
    · rw [setJob_jobs_ne hlk] at hl
      exact h.done l j id a hl
  · simp only [hcall]
    exact h.known id
  · simp only [hcall] at hl ⊢
    exact h.apart l id hl

/-- A job that is done is polled. -/
theorem Booked.serve (h : Booked p) {j : Job} {id : Nat} {a : Answer} (hk : p.jobs k = some (.done j id a)) :
    Booked ({ p with served := p.served ++ [(k, id)] }.setJob k none) := by
  have hkid : p.callOf k = some id := by
    rw [callOf, hk]
    rfl
  have hcall : ∀ l, ({ p with served := p.served ++ [(k, id)] }.setJob k none).callOf l =
      if l = k then none else p.callOf l := fun l => setJob_callOf _ k none l
  have hserved : ∀ i, i ∈ (p.served ++ [(k, id)]).map (·.2) ↔ i ∈ p.served.map (·.2) ∨ i = id := by simp
  refine ⟨fun l j' i hl => ?_, fun l j' i a' hl => ?_, fun i => ?_, h.unknown, ?_, fun l i hl => ?_⟩
  · by_cases hlk : l = k
    · rw [hlk, setJob_jobs_self] at hl
      cases hl
    · rw [setJob_jobs_ne hlk] at hl
      exact h.running l j' i hl
  · by_cases hlk : l = k
    · rw [hlk, setJob_jobs_self] at hl
      cases hl
    · rw [setJob_jobs_ne hlk] at hl
      exact h.done l j' i a' hl
  · show i < p.traffic.fresh ↔ i ∈ (p.served ++ [(k, id)]).map (·.2) ∨ _
    rw [h.known, hserved]
    constructor
    · rintro (hs | ⟨l, hl⟩)
      · exact .inl (.inl hs)
      · by_cases hlk : l = k
        · rw [hlk, hkid] at hl
          exact .inl (.inr (Option.some.inj hl).symm)
        · exact .inr ⟨l, by rw [hcall, if_neg hlk]; exact hl⟩
    · rintro ((hs | rfl) | ⟨l, hl⟩)
      · exact .inl hs
      · exact .inr ⟨k, hkid⟩
      · rw [hcall] at hl
        split at hl
        · cases hl
        · exact .inr ⟨l, hl⟩
  · show ((p.served ++ [(k, id)]).map (·.2)).Nodup
    rw [List.map_append, List.nodup_append]
    refine ⟨h.once, by simp, fun i hi i' hi' => ?_⟩
    obtain rfl : i' = id := by simpa using hi'
    rintro rfl
    exact (h.apart k i hkid).1 hi
  · show i ∉ (p.served ++ [(k, id)]).map (·.2) ∧ _
    rw [hcall] at hl
    split at hl
    · cases hl
    · rename_i hlk
      obtain ⟨hs, ho⟩ := h.apart l i hl
      refine ⟨fun hi => ?_, fun m hm => ?_⟩
      · rcases (hserved i).1 hi with hi | rfl
        · exact hs hi
        · exact hlk (ho k hkid).symm
      · rw [hcall] at hm
        split at hm
        · cases hm
        · exact ho m hm

/-! ## Runs -/

/-- The breaker's book and the calls' own traces tell the same. -/
structure Kept (start : Nat → AgentSession) (p : Process) : Prop where
  booked : Booked p
  calls : ∀ k, ∃ ms, p.sessions k = Run.exec AgentSession.step (start k) ms
  sound : ∀ k, AgentSession.Sound (p.sessions k)
  job : ∀ k, (p.jobs k).map Progress.job = (p.sessions k).exec.future
  outcomes : ∀ k, (p.servedTo k).map (endings p.traffic.log) =
    (results (p.sessions k).trace).map fun r => [endingOf r]

variable {start : Nat → AgentSession}

theorem Beside.outcomes {p q : Process} (h : Beside p q) (k : Nat) :
    (q.servedTo k).map (endings q.traffic.log) = (p.servedTo k).map (endings p.traffic.log) := by
  rw [servedTo, h.served]
  refine List.map_congr_left fun id hid => h.ended id ?_
  obtain ⟨x, hx, rfl⟩ := List.mem_map.1 hid
  exact List.mem_map_of_mem (List.mem_filter.1 hx).1

theorem Kept.beside (h : Kept start p) (hb : Booked q) (hq : Beside p q) : Kept start q where
  booked := hb
  calls := hq.sessions ▸ h.calls
  sound := hq.sessions ▸ h.sound
  job k := by rw [hq.job, hq.sessions, h.job]
  outcomes k := by rw [hq.outcomes, hq.sessions, h.outcomes]

@[simp] theorem setSession_self (p : Process) (k : Nat) (s : AgentSession) : (p.setSession k s).sessions k = s := by
  simp [setSession]

theorem setSession_ne {l : Nat} (h : l ≠ k) (p : Process) (s : AgentSession) :
    (p.setSession k s).sessions l = p.sessions l := by
  simp [setSession, h]

/-- A session moves on, with the job and the results the book has. -/
theorem setSession_kept (hb : Booked q) (hcalls : ∀ k, ∃ ms, q.sessions k = Run.exec AgentSession.step (start k) ms)
    (hsound : ∀ k, AgentSession.Sound (q.sessions k)) (m : AgentSession.Move)
    (hjob : ∀ l, (q.jobs l).map Progress.job =
      if l = k then (AgentSession.step (q.sessions k) m).exec.future else (q.sessions l).exec.future)
    (hout : ∀ l, (q.servedTo l).map (endings q.traffic.log) = (results
      (if l = k then AgentSession.step (q.sessions k) m else q.sessions l).trace).map fun r => [endingOf r]) :
    Kept start (q.setSession k (AgentSession.step (q.sessions k) m)) := by
  refine ⟨⟨hb.running, hb.done, hb.known, hb.unknown, hb.once, hb.apart⟩, fun l => ?_, fun l => ?_, fun l => ?_,
    fun l => ?_⟩
  · by_cases hl : l = k
    · obtain ⟨ms, hms⟩ := hcalls k
      rw [hl, setSession_self]
      exact ⟨ms ++ [m], by rw [Run.exec_append, ← hms]; rfl⟩
    · rw [setSession_ne hl]
      exact hcalls l
  · by_cases hl : l = k
    · rw [hl, setSession_self]
      exact AgentSession.step_sound _ m (hsound k)
    · rw [setSession_ne hl]
      exact hsound l
  · refine (hjob l).trans ?_
    split
    · rename_i hl
      rw [hl, setSession_self]
    · rename_i hl
      rw [setSession_ne hl]
  · refine (hout l).trans ?_
    split
    · rename_i hl
      rw [hl, setSession_self]
    · rename_i hl
      rw [setSession_ne hl]

theorem servedTo_serve (p : Process) (k id l : Nat) :
    ({ p with served := p.served ++ [(k, id)] }.setJob k none).servedTo l =
      p.servedTo l ++ if l = k then [id] else [] := by
  by_cases hl : l = k
  · simp [servedTo, setJob, hl]
  · simp [servedTo, setJob, hl, Ne.symm hl]

theorem tick_kept (h : Kept start p) (k : Nat) (cls : Classification) (onBridge : BridgeReply)
    (meanwhile : List Aside) : Kept start (p.tick k cls onBridge meanwhile) := by
  unfold tick
  dsimp only
  split
  swap
  · exact h
  rename_i hd
  have hs := h.sound k
  -- the session as it polls, whatever it will find
  generalize hto : (p.sessions k).beforePoll (p.sessions k).nextClassifyAt { cls, onBridge } = toPoll
  have hq : Booked (p.setJob k (p.jobs k <|> toPoll.exec.future.map .queued)) ∧
      ((p.setJob k (p.jobs k <|> toPoll.exec.future.map .queued)).jobs k).map Progress.job = toPoll.exec.future := by
    rw [setJob_jobs_self]
    cases hk : p.jobs k with
    | none =>
      refine ⟨h.booked.queue hk _, ?_⟩
      cases toPoll.exec.future <;> rfl
    | some pr =>
      have hfut := AgentSession.beforePoll_future hs ((h.job k).symm.trans (by rw [hk]; rfl))
        (p.sessions k).nextClassifyAt { cls, onBridge }
      have hself : p.setJob k (some pr) = p := by
        rw [setJob, ← hk, Function.update_eq_self]
      refine ⟨?_, (hto ▸ hfut).symm⟩
      show Booked (p.setJob k (some pr))
      rw [hself]
      exact h.booked
  have hother : ∀ l ≠ k, (p.setJob k (p.jobs k <|> toPoll.exec.future.map .queued)).jobs l = p.jobs l :=
    fun l hl => setJob_jobs_ne hl ..
  have hsame : (p.setJob k (p.jobs k <|> toPoll.exec.future.map .queued)).sessions = p.sessions ∧
      ∀ l, ((p.setJob k (p.jobs k <|> toPoll.exec.future.map .queued)).servedTo l).map
        (endings (p.setJob k (p.jobs k <|> toPoll.exec.future.map .queued)).traffic.log) =
          (results (p.sessions l).trace).map fun r => [endingOf r] := ⟨rfl, h.outcomes⟩
  generalize p.setJob k (p.jobs k <|> toPoll.exec.future.map .queued) = q at hq hother hsame
  obtain ⟨hr, hb⟩ := asides_booked hq.1 meanwhile
  have hrs : (meanwhile.foldl aside q).sessions = p.sessions := hb.sessions.trans hsame.1
  have hrk : ((meanwhile.foldl aside q).jobs k).map Progress.job = toPoll.exec.future := (hb.job k).trans hq.2
  have hrl : ∀ l ≠ k, ((meanwhile.foldl aside q).jobs l).map Progress.job = (p.sessions l).exec.future := by
    intro l hl
    rw [hb.job, hother l hl, h.job]
  have hout : ∀ l, ((meanwhile.foldl aside q).servedTo l).map (endings (meanwhile.foldl aside q).traffic.log) =
      (results (p.sessions l).trace).map fun r => [endingOf r] := fun l => (hb.outcomes l).trans (hsame.2 l)
  generalize meanwhile.foldl aside q = r at hr hrs hrk hrl hout
  have hcalls := h.calls
  have hsound := h.sound
  rw [← hrs] at hs hd hto hcalls hsound hrl hout ⊢
  split
  · rename_i j id a hj
    rw [hj] at hrk
    have hfut : ((r.sessions k).beforePoll (r.sessions k).nextClassifyAt
        { cls, answer := some a, onBridge }).exec.future = some j := by
      rw [show some j = _ from hrk, ← hto]
      rfl
    obtain ⟨hnone, hres⟩ := AgentSession.loopPass_takes hs hd hfut rfl
    have hserve := hr.serve hj
    refine setSession_kept hserve hcalls hsound (.tick { cls, answer := some a, onBridge }) (fun l => ?_) fun l => ?_
    · by_cases hl : l = k
      · rw [hl, setJob_jobs_self, if_pos rfl]
        exact hnone.symm
      · rw [setJob_jobs_ne hl, if_neg hl]
        exact hrl l hl
    · rw [servedTo_serve]
      by_cases hl : l = k
      · rw [hl, if_pos rfl, if_pos rfl, List.map_append]
        refine (congrArg₂ (· ++ ·) (hout k) (congrArg (fun x => [x]) (hr.done k j id a hj))).trans ?_
        show _ = (results ((r.sessions k).loopPass { cls, answer := some a, onBridge }).trace).map _
        rw [hres, List.map_append]
        rfl
      · rw [if_neg hl, if_neg hl, List.append_nil]
        exact hout l
  · obtain ⟨hfut, hres⟩ := AgentSession.loopPass_waits hs hd (i := { cls, onBridge }) rfl
    refine setSession_kept hr hcalls hsound (.tick { cls, onBridge }) (fun l => ?_) fun l => ?_
    · by_cases hl : l = k
      · rw [hl, if_pos rfl, hrk, ← hto]
        exact hfut.symm
      · rw [if_neg hl]
        exact hrl l hl
    · by_cases hl : l = k
      · rw [hl, if_pos rfl, hout]
        exact congrArg _ hres.symm
      · rw [if_neg hl]
        exact hout l

theorem step_kept (p : Process) (x : Step) (h : Kept start p) : Kept start (step p x) := by
  cases x with
  | tick k cls onBridge meanwhile => exact tick_kept h k cls onBridge meanwhile
  | aside a => exact h.beside (aside_booked h.booked a).1 (aside_booked h.booked a).2
  | ingest k pcm =>
    obtain ⟨htr, -, -, hex⟩ := AgentSession.ingest_fields (p.sessions k) pcm
    refine setSession_kept h.booked h.calls h.sound (.ingest pcm) (fun l => ?_) fun l => ?_
    · rw [h.job, AgentSession.step, hex]
      split
      · rename_i hl
        rw [hl]
      · rfl
    · rw [h.outcomes]
      split
      · rename_i hl
        rw [hl, AgentSession.step, htr]
      · rfl
  | abort k reason =>
    have hc : AgentSession.Calm (p.sessions k) ((p.sessions k).abort reason) := by
      unfold AgentSession.abort
      split
      · exact (AgentSession.Aside.of_fields rfl rfl).calm
      · exact (AgentSession.fail_aside ..).calm
    refine setSession_kept h.booked h.calls h.sound (.abort reason) (fun l => ?_) fun l => ?_
    · rw [h.job, AgentSession.step, hc.1]
      split
      · rename_i hl
        rw [hl]
      · rfl
    · rw [h.outcomes]
      split
      · rename_i hl
        rw [hl, AgentSession.step, hc.results]
      · rfl

theorem new_kept (settings : Settings) (cfg : FsmConfig) (threshold : Nat) (resetTimeout now : ℚ)
    (callId : Nat → String) (goal sid : Nat → Option String) :
    Kept (fun k => .new (callId k) settings cfg (goal k) (sid k))
      (new settings cfg threshold resetTimeout now callId goal sid) where
  booked :=
    { running := nofun, done := nofun, known := by simp [new, Traffic.new, callOf], unknown := fun _ _ => rfl,
      once := by simp [new], apart := by simp [new, callOf] }
  calls _ := ⟨[], rfl⟩
  sound _ := AgentSession.new_sound ..
  job _ := rfl
  outcomes _ := rfl

/-- **`accounts`**: in every run of the process, whichever calls are up and however their threads interleave, each of
the breaker's calls is one session's job, polled once or still out, and each session is the one that it would be alone
with those answers. The breaker has said one thing of each job polled: what the session polled. A session that polls
a refusal ends with it. -/
theorem accounts (settings : Settings) (cfg : FsmConfig) (threshold : Nat) (resetTimeout now : ℚ)
    (callId : Nat → String) (goal sid : Nat → Option String) (xs : List Step) :
    let p := Run.exec step (new settings cfg threshold resetTimeout now callId goal sid) xs
    (p.served.map (·.2)).Nodup ∧
    (∀ id, id < p.traffic.fresh ↔ id ∈ p.served.map (·.2) ∨ ∃ k, p.callOf k = some id) ∧
    (∀ k id, p.callOf k = some id → id ∉ p.served.map (·.2) ∧ ∀ l, p.callOf l = some id → l = k) ∧
    ∀ k, (∃ ms, p.sessions k = Run.exec AgentSession.step (.new (callId k) settings cfg (goal k) (sid k)) ms) ∧
      (p.servedTo k).map (endings p.traffic.log) = (results (p.sessions k).trace).map (fun r => [endingOf r]) ∧
      ∀ j, .polled j (.error .circuitOpen) ∈ (p.sessions k).trace →
        (p.sessions k).finished = true ∧ ∃ pre t, (p.sessions k).trace = pre ++
          [.polled j (.error .circuitOpen), .emit (.callFailed t "tier2_unavailable"), .onFail "tier2_unavailable"] := by
  intro p
  have h : Kept _ p := Run.exec_inv step_kept xs _ (new_kept settings cfg threshold resetTimeout now callId goal sid)
  refine ⟨h.booked.once, h.booked.known, h.booked.apart, fun k => ⟨h.calls k, h.outcomes k, ?_⟩⟩
  obtain ⟨ms, hms⟩ := h.calls k
  have hends := (Run.exec_inv (I := fun s => AgentSession.Sound s ∧ AgentSession.EndsRefused s)
    AgentSession.step_endsRefused ms _ ⟨AgentSession.new_sound (callId k) settings cfg (goal k) (sid k), nofun⟩).2
  rw [← hms] at hends
  exact hends

/-- One call's failed read opens the breaker, and another's is turned away: the first goes on, the second is over. -/
example :
    let speech : Classification := { label := .liveSpeechCandidate, confidence := 1 }
    let down : Reply := { menu := .error (.unavailable "timeout"), menuOpen := by simp, probeOpen := by simp }
    let p := Run.exec step (new { menuCollectS := 0 } { enterMenuFrames := 1 } 1 30 0 (fun _ => "CA") (fun _ => none)
        fun _ => none)
      [.ingest 0 [0], .tick 0 speech .ok [.enter 0, .finish 0 down], .ingest 1 [0], .tick 1 speech .ok [.enter 1]]
    (p.sessions 0).finished = false ∧ results (p.sessions 1).trace = [.error .circuitOpen] ∧
      (p.sessions 1).finished = true := by
  decide +kernel

end Process

end DialPass
