import DialPass.Telemetry.Isolation
import DialPass.Telemetry.Payload
import DialPass.Telemetry.Sink
/-!
# From an event to its row (telemetry/sqs_sink.py, workers/telemetry_worker.py, telemetry/store.py)

The sink, the queue and the worker as one system. Any entry of any request may arrive on the queue, also one of a
request that raised or that was reported as failed, and any number of times; the worker's own steps are those of
`Telemetry.step`, and only an arrival puts a message on the queue.

`endToEnd`: every row is the row of an event that was emitted, and no message that arrives is poison to the worker.
-/

namespace DialPass

namespace SqsSink

/-- Every text in the sink's hands, or in a request it made, satisfies `P`. -/
structure Texts (P : String → Prop) (s : SqsSink) : Prop where
  q : ∀ b ∈ s.q, P b.1
  batch : ∀ b ∈ s.batch, P b.1
  requests : ∀ r ∈ s.requests, ∀ entry ∈ r.entries, P entry.messageBody.1

variable {cfg : SinkConfig} {P Q : String → Prop} {s : SqsSink}

theorem Texts.mono (hPQ : ∀ body, P body → Q body) (h : Texts P s) : Texts Q s :=
  ⟨fun b hb => hPQ _ (h.q b hb), fun b hb => hPQ _ (h.batch b hb), fun r hr entry he => hPQ _ (h.requests r hr entry he)⟩

theorem emit_texts (h : Texts P s) {body : String} (hbody : P body) : Texts P (s.emit cfg (some body)) := by
  unfold emit
  dsimp only
  split
  · exact ⟨h.q, h.batch, h.requests⟩
  · exact ⟨List.forall_mem_append.2 ⟨h.q, List.forall_mem_singleton.2 hbody⟩, h.batch, h.requests⟩

theorem send_texts {block : Bool} {entries : List Entry} {attempt : Nat} (reply : SqsReply) (h : Texts P s)
    (he : ∀ entry ∈ entries, P entry.messageBody.1) : Texts P (s.send cfg block entries attempt reply) := by
  have hreq : ∀ r ∈ s.requests ++ [SqsRequest.mk entries reply], ∀ entry ∈ r.entries, P entry.messageBody.1 :=
    List.forall_mem_append.2 ⟨h.requests, List.forall_mem_singleton.2 he⟩
  have hsub : ∀ kept : List Entry, (∀ entry ∈ kept, entry ∈ entries) → ∀ b ∈ kept.map Entry.messageBody, P b.1 :=
    fun kept hk => List.forall_mem_map.2 fun entry hentry => he entry (hk entry hentry)
  unfold send
  split
  · exact ⟨h.q, by simp [batch, batch_after], h.requests⟩
  · cases reply with
    | raised => exact ⟨h.q, hsub entries fun _ he => he, hreq⟩
    | responded failed =>
      dsimp only
      split
      · exact ⟨h.q, by simp [batch, batch_after], hreq⟩
      · exact ⟨h.q, hsub _ fun entry hm => (List.mem_filter.1 hm).1, hreq⟩

theorem run_texts (reply : SqsReply) (h : Texts P s) : Texts P (s.run cfg reply) := by
  have hentries : ∀ out : List Emitted, (∀ b ∈ out, P b.1) →
      ∀ b ∈ (PumpAt.sending true (entriesOf out) 1).batch, P b.1 := fun out ho => by
    rw [PumpAt.batch, map_entriesOf_body]
    exact ho
  unfold run
  cases hp : s.pump with
  | loop => exact ⟨h.q, by simp [batch, PumpAt.batch], h.requests⟩
  | waiting block =>
    cases hq : s.q with
    | nil => exact ⟨by simp, by cases block <;> simp [batch, PumpAt.batch], h.requests⟩
    | cons b q =>
      have hbq := h.q
      rw [hq] at hbq
      exact ⟨fun b' hb => hbq b' (List.mem_cons_of_mem _ hb), List.forall_mem_singleton.2 (hbq b List.mem_cons_self),
        h.requests⟩
  | collecting block out =>
    have hout : ∀ b ∈ out, P b.1 := by
      have hb := h.batch
      rwa [batch, hp] at hb
    cases hq : s.q with
    | nil => exact ⟨by simp, hentries out hout, h.requests⟩
    | cons b q =>
      have hbq := h.q
      rw [hq] at hbq
      dsimp only
      split
      · exact ⟨fun b' hb => hbq b' (List.mem_cons_of_mem _ hb),
          List.forall_mem_append.2 ⟨hout, List.forall_mem_singleton.2 (hbq b List.mem_cons_self)⟩, h.requests⟩
      · exact ⟨hbq, hentries out hout, h.requests⟩
  | sending block entries attempt =>
    refine send_texts reply h fun entry he => ?_
    have hb := h.batch
    rw [batch, hp] at hb
    exact hb _ (List.mem_map_of_mem he)
  | done => exact h

end SqsSink

namespace Telemetry

variable {py : Interpreter} {A B : Message → Prop}

/-- The messages of a batch satisfy `A`, and its events are theirs. -/
structure BatchOf (py : Interpreter) (A : Message → Prop) (b : Batch) : Prop where
  events : ∀ r ∈ b.events, A r.1 ∧ EventOf py r.1 r.2
  toDelete : ∀ m ∈ b.toDelete, A m

/-- Every message the worker or its queue has had satisfies `A`, and every event stored is its message's. -/
structure Of (py : Interpreter) (A : Message → Prop) (s : Telemetry) : Prop where
  queue : ∀ m ∈ s.queue, A m
  store : ∀ r ∈ s.store, A r.1 ∧ EventOf py r.1 r.2
  received : ∀ messages, s.pass = .received messages → ∀ m ∈ messages, A m
  batch : ∀ b, s.pass = .parsed b ∨ s.pass = .written b → BatchOf py A b

theorem add_of {b b' : Batch} {m : Message} (h : BatchOf py A b) (hm : A m) (hadd : b.add py m = .ok b') :
    BatchOf py A b' := by
  obtain ⟨hst, hpo⟩ := List.forall_mem_append.1 h.toDelete
  rcases add_cases py b m with ⟨e, he, -, hb⟩ | ⟨-, -, hb⟩ | ⟨-, exc, hb⟩ <;> rw [hb] at hadd <;> cases hadd
  · refine ⟨List.forall_mem_append.2 ⟨h.events, List.forall_mem_singleton.2 ⟨hm, ?_⟩⟩,
      List.forall_mem_append.2 ⟨List.forall_mem_append.2 ⟨hst, List.forall_mem_singleton.2 hm⟩, hpo⟩⟩
    unfold eventOf at he
    unfold EventOf
    cases hbody : m.body with
    | none => simp [hbody] at he
    | some body =>
      rw [hbody, Option.map_some] at he
      cases hl : Json.loads py body with
      | error exc => simp [hl] at he
      | ok v =>
        rw [hl, Option.some.injEq] at he
        exact ⟨body, rfl, by rw [hl, he]⟩
  · exact ⟨h.events, List.forall_mem_append.2 ⟨hst, List.forall_mem_append.2 ⟨hpo, List.forall_mem_singleton.2 hm⟩⟩⟩

theorem parse_of {messages : List Message} {b : Batch} (hm : ∀ m ∈ messages, A m) (h : Batch.parse py messages = .ok b) :
    BatchOf py A b := by
  have hgo : ∀ (messages : List Message) (b b' : Batch), (∀ m ∈ messages, A m) → BatchOf py A b →
      messages.foldlM (Batch.add py) b = .ok b' → BatchOf py A b' := by
    intro messages
    induction messages with
    | nil => rintro b b' _ hb h; cases h; exact hb
    | cons m messages ih =>
      intro b b' hm hb h
      rw [List.foldlM_cons] at h
      cases hadd : b.add py m with
      | error exc => rw [hadd] at h; cases h
      | ok c =>
        rw [hadd] at h
        obtain ⟨hm0, hms⟩ := List.forall_mem_cons.1 hm
        exact ih c b' hms (add_of hb hm0 hadd) h
  exact hgo messages {} b hm ⟨by simp, by simp [Batch.toDelete]⟩ h

theorem Of.mono (hAB : ∀ m, A m → B m) {s : Telemetry} (h : Of py A s) : Of py B s :=
  ⟨fun m hm => hAB m (h.queue m hm), fun r hr => (h.store r hr).imp_left (hAB _),
    fun messages hp m hm => hAB m (h.received messages hp m hm),
    fun b hb => ⟨fun r hr => ((h.batch b hb).events r hr).imp_left (hAB _), fun m hm => hAB m ((h.batch b hb).toDelete m hm)⟩⟩

/-- What a step may put on the queue satisfies `A`. -/
def Sends (A : Message → Prop) : Step → Prop
  | .send m => A m
  | _ => True

theorem step_of {s : Telemetry} (i : Step) (hi : Sends A i) (h : Of py A s) : Of py A (step py s i) := by
  have hidle : ∀ {t : Telemetry}, t.queue = s.queue → t.store = s.store → t.pass = .polling → Of py A t :=
    fun hq hst hp => ⟨by rw [hq]; exact h.queue, by rw [hst]; exact h.store, by simp [hp], by simp [hp]⟩
  cases i with
  | send m => exact ⟨List.forall_mem_append.2 ⟨h.queue, List.forall_mem_singleton.2 hi⟩, h.store, h.received, h.batch⟩
  | receive messages =>
    cases hs : s.pass with
    | polling =>
      rw [step, hs]
      dsimp only
      split
      · rename_i hmem
        refine ⟨h.queue, h.store, fun ms hms m hm => ?_, by simp⟩
        cases hms
        exact h.queue m (hmem.2.1 m hm)
      · exact h
    | _ => simp only [step, hs]; exact h
  | parse =>
    cases hs : s.pass with
    | received messages =>
      rw [step, hs]
      dsimp only
      split
      · rename_i b hb
        refine ⟨h.queue, h.store, by simp, fun b' hb' => ?_⟩
        rcases hb' with hb' | hb' <;> cases hb'
        exact parse_of (h.received messages hs) hb
      · exact hidle rfl rfl rfl
    | _ => simp only [step, hs]; exact h
  | write raised =>
    cases hs : s.pass with
    | parsed b =>
      have hb := h.batch b (.inl hs)
      rw [step, hs]
      dsimp only
      split
      · refine ⟨h.queue, h.store, by simp, fun b' hb' => ?_⟩
        rcases hb' with hb' | hb' <;> cases hb'
        exact hb
      · refine ⟨h.queue, List.forall_mem_append.2 ⟨h.store, fun r hr => hb.events r (List.mem_of_mem_take hr)⟩, by simp,
          fun b' hb' => ?_⟩
        rcases hb' with hb' | hb' <;> cases hb'
        unfold Batch.written
        split
        · exact ⟨hb.events, fun m hm => hb.toDelete m (List.mem_append_right _ (by simpa [Batch.toDelete] using hm))⟩
        · exact hb
    | _ => simp only [step, hs]; exact h
  | delete failed =>
    cases hs : s.pass with
    | written b =>
      rw [step, hs]
      exact ⟨fun m hm => h.queue m (List.mem_filter.1 hm).1, h.store, by simp, by simp⟩
    | _ => simp only [step, hs]; exact h
  | crash => exact hidle rfl rfl rfl

/-- A message leaves the queue only by being deleted. -/
theorem step_queue (s : Telemetry) (i : Step) {m : Message} (h : m ∈ s.queue ∨ m ∈ s.deleted) :
    m ∈ (step py s i).queue ∨ m ∈ (step py s i).deleted := by
  cases i with
  | send m' => exact h.imp_left (List.mem_append_left _)
  | receive messages => unfold step; dsimp only; split <;> [skip; exact h]; split <;> exact h
  | parse => unfold step; dsimp only; split <;> [skip; exact h]; split <;> exact h
  | write raised => unfold step; dsimp only; split <;> [skip; exact h]; split <;> exact h
  | delete failed =>
    unfold step
    dsimp only
    split
    · rename_i b _
      by_cases hgone : m ∈ b.toDelete.filter (· ∉ failed)
      · exact .inr (List.mem_append_right _ hgone)
      · exact h.imp (fun hq => List.mem_filter.2 ⟨hq, decide_eq_true hgone⟩) (List.mem_append_left _)
    · exact h
  | crash => exact h

end Telemetry

/-- The system, with what was emitted and what has arrived on the queue for the record. -/
structure Pipeline where
  sink : SqsSink := {}
  worker : Telemetry := {}
  emitted : List CallEvent := []
  arrived : List Message := []

namespace Pipeline

inductive Step where
  /-- a session's `self.telemetry.emit` -/
  | emit (e : CallEvent)
  | pump (reply : SqsReply)
  | close
  /-- SQS has taken an entry, and gives it an id -/
  | arrive (messageId : String) (entry : Entry)
  | worker (i : Telemetry.Step)

def step (cfg : SinkConfig) (py : Interpreter) (p : Pipeline) : Step → Pipeline
  | .emit e => { p with sink := p.sink.emit cfg (some e.body), emitted := p.emitted ++ [e] }
  | .pump reply => { p with sink := p.sink.run cfg reply }
  | .close => { p with sink := p.sink.close }
  | .arrive messageId entry =>
    if entry ∈ p.sink.requests.flatMap SqsRequest.entries then
      let m := { messageId, body := some entry.messageBody.1 }
      { p with worker := p.worker.step py (.send m), arrived := p.arrived ++ [m] }
    else p
  | .worker (.send _) => p
  | .worker i => { p with worker := p.worker.step py i }

/-- The message carries that event. -/
def Carries (e : CallEvent) (m : Message) : Prop := m.body = some e.body

structure Sound (py : Interpreter) (p : Pipeline) : Prop where
  texts : p.sink.Texts fun body => ∃ e ∈ p.emitted, body = e.body
  worker : Telemetry.Of py (fun m => ∃ e ∈ p.emitted, Carries e m) p.worker
  kept : Telemetry.Kept py p.worker ∧ Telemetry.SoundAt py p.worker.store p.worker.pass
  arrived : ∀ m ∈ p.arrived, (∃ e ∈ p.emitted, Carries e m) ∧ (m ∈ p.worker.queue ∨ m ∈ p.worker.deleted)

variable {cfg : SinkConfig} {py : Interpreter}

/-- A step of the worker's own, or an arrival of a message that carries an event. -/
theorem Sound.worker_step {p : Pipeline} (h : Sound py p) (i : Telemetry.Step)
    (hi : Telemetry.Sends (fun m => ∃ e ∈ p.emitted, Carries e m) i) : Sound py { p with worker := p.worker.step py i } :=
  ⟨h.texts, Telemetry.step_of i hi h.worker, Telemetry.step_kept p.worker i h.kept,
    fun m hm => (h.arrived m hm).imp_right (Telemetry.step_queue p.worker i)⟩

theorem step_sound (p : Pipeline) (i : Step) (h : Sound py p) : Sound py (step cfg py p i) := by
  cases i with
  | emit e =>
    have hmore : ∀ {P : CallEvent → Prop}, (∃ e' ∈ p.emitted, P e') → ∃ e' ∈ p.emitted ++ [e], P e' :=
      fun ⟨e', he', hP⟩ => ⟨e', List.mem_append_left _ he', hP⟩
    refine ⟨SqsSink.emit_texts (h.texts.mono fun _ hb => hmore hb) ⟨e, by simp, rfl⟩, h.worker.mono fun _ hm => hmore hm,
      h.kept, fun m hm => (h.arrived m hm).imp_left hmore⟩
  | pump reply => exact ⟨SqsSink.run_texts reply h.texts, h.worker, h.kept, h.arrived⟩
  | close => exact ⟨⟨h.texts.q, h.texts.batch, h.texts.requests⟩, h.worker, h.kept, h.arrived⟩
  | arrive messageId entry =>
    rw [step]
    split
    · rename_i hentry
      obtain ⟨r, hr, hre⟩ := List.mem_flatMap.1 hentry
      obtain ⟨e, he, hbody⟩ := h.texts.requests r hr entry hre
      have hcarries : ∃ e ∈ p.emitted, Carries e { messageId, body := some entry.messageBody.1 } :=
        ⟨e, he, congrArg some hbody⟩
      have hw := h.worker_step (.send { messageId, body := some entry.messageBody.1 }) hcarries
      exact ⟨hw.texts, hw.worker, hw.kept, List.forall_mem_append.2 ⟨hw.arrived, List.forall_mem_singleton.2
        ⟨hcarries, .inl (List.mem_append_right _ (List.mem_singleton_self _))⟩⟩⟩
    · exact h
  | worker i =>
    cases i with
    | send m => exact h
    | receive messages => exact h.worker_step (.receive messages) trivial
    | parse => exact h.worker_step .parse trivial
    | write raised => exact h.worker_step (.write raised) trivial
    | delete failed => exact h.worker_step (.delete failed) trivial
    | crash => exact h.worker_step .crash trivial

theorem exec_sound (cfg : SinkConfig) (py : Interpreter) (steps : List Step) : Sound py (Run.exec (step cfg py) {} steps) :=
  Run.exec_inv step_sound steps {} ⟨⟨by simp, by simp [SqsSink.batch, PumpAt.batch], by simp⟩,
    ⟨by simp, by simp, by simp, by simp⟩, ⟨by simp [Telemetry.Kept], trivial⟩, by simp⟩

theorem eventOf_carries {e : CallEvent} {m : Message} (hpy : 2 ≤ py.maxDepth) (h : Carries e m) :
    eventOf py m = some e.payload.spelled := by
  rw [eventOf, h, Option.map_some, e.loads_body hpy]

theorem harmless_of_carries {e : CallEvent} {m : Message} (hpy : 2 ≤ py.maxDepth) (h : Carries e m) : Harmless py m := by
  rw [harmless_iff, Breaks, eventOf_carries hpy h, h, Option.map_some, e.loads_body hpy]
  refine ⟨?_, fun v hv => ?_⟩
  · rintro ⟨exc, hexc, -⟩
    cases hexc
  · cases hv
    rw [← rowOf_isSome_iff, e.rowOf_payload]
    rfl

/-- A batch of messages that carry events is stored and deleted whole. -/
theorem runPass_carries {db : Database} (hdb : ∀ rows, db rows = none) (hpy : 2 ≤ py.maxDepth) {messages : List Message}
    {es : List CallEvent} (h : List.Forall₂ Carries es messages) :
    (runPass py db messages).rows = es.map CallEvent.row ∧ ∀ m ∈ messages, m ∈ (runPass py db messages).deleted := by
  have hevents : messages.filterMap (eventOf py) = es.map fun e => e.payload.spelled := by
    induction h with
    | nil => rfl
    | cons hc _ ih => rw [List.filterMap_cons_some (eventOf_carries hpy hc), List.map_cons, ih]
  have hrows : (es.map fun e => e.payload.spelled).filterMap (rowOf py) = es.map CallEvent.row := by
    rw [List.filterMap_map]
    exact List.filterMap_eq_map_iff_forall_eq_some.2 fun e _ => e.rowOf_payload
  have hharmless : ∀ m ∈ messages, Harmless py m := by
    clear hevents hrows
    induction h with
    | nil => simp
    | cons hc _ ih => exact List.forall_mem_cons.2 ⟨harmless_of_carries hpy hc, ih⟩
  rcases runPass_cases py hdb messages with ⟨-, hr, hd⟩ | ⟨⟨m, hm, hn⟩, -⟩
  · exact ⟨by rw [hr, hevents, hrows], hd⟩
  · exact absurd (hharmless m hm) hn

/-- **`endToEnd`**: over every run of emits, pump steps and SQS replies, arrivals and redeliveries, worker passes,
failing writes and crashes: every row is that of an event a session emitted, with its call, its time to the
millisecond, its kind and its whole payload; a message that has arrived is on the queue until its event has such a row;
and a pass over any batch of the queue, with a database that takes every row, stores the rows of its events, in order
and no others, and deletes all of it. -/
theorem endToEnd (cfg : SinkConfig) (py : Interpreter) (hpy : 2 ≤ py.maxDepth) (steps : List Step) :
    let p := Run.exec (step cfg py) {} steps
    (∀ r ∈ p.worker.store, ∃ e ∈ p.emitted, Carries e r.1 ∧ rowOf py r.2 = some e.row) ∧
    (∀ m ∈ p.arrived, m ∈ p.worker.queue ∨
      ∃ e ∈ p.emitted, Carries e m ∧ ∃ v, (m, v) ∈ p.worker.store ∧ rowOf py v = some e.row) ∧
    ∀ db : Database, (∀ rows, db rows = none) → ∀ batch : List Message, (∀ m ∈ batch, m ∈ p.worker.queue) →
      ∃ es : List CallEvent, (∀ e ∈ es, e ∈ p.emitted) ∧ List.Forall₂ Carries es batch ∧
        (runPass py db batch).rows = es.map CallEvent.row ∧ ∀ m ∈ batch, m ∈ (runPass py db batch).deleted := by
  intro p
  have h : Sound py p := exec_sound cfg py steps
  have hrow : ∀ (e : CallEvent) (m : Message) (v : Json), Carries e m → Telemetry.EventOf py m v → rowOf py v = some e.row := by
    rintro e m v hc ⟨body, hbody, hv⟩
    have hb : body = e.body := Option.some.inj (hbody.symm.trans hc)
    rw [hb, e.loads_body hpy] at hv
    cases hv
    exact e.rowOf_payload
  refine ⟨fun r hr => ?_, fun m hm => ?_, fun db hdb batch hbatch => ?_⟩
  · obtain ⟨⟨e, he, hc⟩, hv⟩ := h.worker.store r hr
    exact ⟨e, he, hc, hrow e r.1 r.2 hc hv⟩
  · obtain ⟨⟨e, he, hc⟩, hplace⟩ := h.arrived m hm
    refine hplace.imp_right fun hdel => ⟨e, he, hc, ?_⟩
    rcases h.kept.1 m hdel with hun | ⟨v, hv, hstored⟩
    · have hl := hun e.body hc
      rw [e.loads_body hpy] at hl
      cases hl
    · exact ⟨v, hstored, hrow e m v hc hv⟩
  · obtain ⟨es, hes, hall⟩ : ∃ es : List CallEvent, (∀ e ∈ es, e ∈ p.emitted) ∧ List.Forall₂ Carries es batch := by
      have hcarried : ∀ m ∈ batch, ∃ e ∈ p.emitted, Carries e m := fun m hm => h.worker.queue m (hbatch m hm)
      clear hbatch
      induction batch with
      | nil => exact ⟨[], by simp, .nil⟩
      | cons m batch ih =>
        obtain ⟨⟨e, he, hc⟩, hrest⟩ := List.forall_mem_cons.1 hcarried
        obtain ⟨es, hes, hall⟩ := ih hrest
        exact ⟨e :: es, List.forall_mem_cons.2 ⟨he, hes⟩, .cons hc hall⟩
    exact ⟨es, hes, hall, runPass_carries hdb hpy hall⟩

/-- A key that was pressed, sent at the second attempt, redelivered after a crash. -/
def pressed : CallEvent :=
  { callId := "CA1", event := .dtmfSent (7 / 2) "2", features_nodup := by simp, floats_rounded := trivial }

def redelivered : List Step :=
  [.emit pressed, .pump .raised, .pump .raised, .pump .raised, .pump .raised, .pump (.responded []),
    .arrive "m1" ⟨"0", pressed.body, 0⟩, .worker (.receive [⟨"m1", some pressed.body⟩]), .worker .crash,
    .worker (.receive [⟨"m1", some pressed.body⟩]), .worker .parse, .worker (.write none), .worker (.delete [])]

theorem redelivered_endToEnd :
    let p := Run.exec (step {} cpython) {} redelivered
    p.worker.store.length = 1 ∧ ∀ r ∈ p.worker.store, ∃ e ∈ p.emitted, Carries e r.1 ∧ rowOf cpython r.2 = some e.row :=
  ⟨by decide +kernel, (endToEnd {} cpython (by decide) redelivered).1⟩

end Pipeline

end DialPass
