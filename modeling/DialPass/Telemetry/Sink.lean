import DialPass.Lib.Run
/-!
# The telemetry producer (telemetry/sqs_sink.py:43-127)

`emit` is called from any thread, so it is a step of its own between any two of the pump's. `run` takes the pump
from one point where it looks at something shared (the stop flag, the queue, SQS) to the next. Every body
carries the number of its `emit`, which nothing reads: two events may have the same text.

`accounted` says where an event can be: on the queue, in the pump's hands, confirmed, or dropped and counted.
-/

namespace DialPass

/-- `_SQS_BATCH_MAX` (sqs_sink.py:31). -/
def sqsBatchMax : Int := 10

structure SinkConfig where
  /-- 0 and less is no bound (queue.Queue) -/
  maxQueue : Int := 10000
  batchSize : Int := sqsBatchMax
  sendRetries : Int := 3

/-- The text of an event, and its number. -/
abbrev Emitted := String × Nat

structure Entry where
  id : String
  messageBody : Emitted
deriving DecidableEq

/-- What comes of one `send_message_batch`: an exception, or a response with these ids under `Failed`. -/
inductive SqsReply where
  | raised
  | responded (failed : List String)

structure SqsRequest where
  entries : List Entry
  reply : SqsReply

/-- What SQS has taken of the request. -/
def SqsRequest.confirmed (r : SqsRequest) : List Emitted :=
  match r.reply with
  | .raised => []
  | .responded failed => (r.entries.filter (·.id ∉ failed)).map Entry.messageBody

/-- Where the pump is. `block` tells the loop proper from the final drain. -/
inductive PumpAt where
  /-- `while not self._stop.is_set()` -/
  | loop
  /-- the first `get` of `_next_batch` -/
  | waiting (block : Bool)
  /-- its further ones -/
  | collecting (block : Bool) (out : List Emitted)
  /-- before that attempt in `_send` -/
  | sending (block : Bool) (entries : List Entry) (attempt : Nat)
  | done
deriving DecidableEq

/-- The bodies the pump has taken and not yet seen the end of. -/
def PumpAt.batch : PumpAt → List Emitted
  | .collecting _ out => out
  | .sending _ entries _ => entries.map Entry.messageBody
  | _ => []

structure SqsSink where
  q : List Emitted := []
  stop : Bool := false
  droppedOverflow : Nat := 0
  droppedSend : Nat := 0
  sent : Int := 0
  pump : PumpAt := .loop
  /-- for the record: all that was emitted, requested and dropped -/
  emitted : List String := []
  requests : List SqsRequest := []
  overflowed : List Emitted := []
  lost : List Emitted := []

namespace SqsSink

/-- `json.dumps` gives no body for an event it cannot serialize (sqs_sink.py:67-76). -/
def emit (cfg : SinkConfig) (s : SqsSink) : Option String → SqsSink
  | none => s
  | some body =>
    let e := (body, s.emitted.length)
    if 0 < cfg.maxQueue ∧ cfg.maxQueue ≤ s.q.length then
      { s with
        droppedOverflow := s.droppedOverflow + 1
        emitted := s.emitted ++ [body]
        overflowed := s.overflowed ++ [e] }
    else { s with q := s.q ++ [e], emitted := s.emitted ++ [body] }

/-- Back to the loop the batch came from. -/
def after (block : Bool) : PumpAt := if block then .loop else .waiting false

/-- sqs_sink.py:105 -/
def entriesOf (bodies : List Emitted) : List Entry := bodies.zipIdx.map fun (b, i) => Entry.mk (toString i) b

/-- One attempt, or the end of them (sqs_sink.py:106-123). -/
def send (cfg : SinkConfig) (s : SqsSink) (block : Bool) (entries : List Entry) (attempt : Nat) (reply : SqsReply) :
    SqsSink :=
  if cfg.sendRetries < attempt then
    { s with
      droppedSend := s.droppedSend + entries.length
      lost := s.lost ++ entries.map Entry.messageBody
      pump := after block }
  else
    let s := { s with requests := s.requests ++ [SqsRequest.mk entries reply] }
    match reply with
    | .raised => { s with pump := .sending block entries (attempt + 1) }
    | .responded failed =>
      let failedIds := failed.dedup
      let s := { s with sent := s.sent + (entries.length - failedIds.length) }
      if failedIds = [] then { s with pump := after block }
      else { s with pump := .sending block (entries.filter (·.id ∈ failedIds)) (attempt + 1) }

/-- The pump goes on (sqs_sink.py:79-102). A blocking `get` gives up only on an empty queue. -/
def run (cfg : SinkConfig) (s : SqsSink) (reply : SqsReply) : SqsSink :=
  match s.pump with
  | .loop => { s with pump := .waiting (!s.stop) }
  | .waiting block =>
    match s.q with
    | [] => { s with pump := if block then .loop else .done }
    | b :: q => { s with q, pump := .collecting block [b] }
  | .collecting block out =>
    match s.q with
    | [] => { s with pump := .sending block (entriesOf out) 1 }
    | b :: q =>
      if out.length < min cfg.batchSize sqsBatchMax then { s with q, pump := .collecting block (out ++ [b]) }
      else { s with pump := .sending block (entriesOf out) 1 }
  | .sending block entries attempt => send cfg s block entries attempt reply
  | .done => s

/-- `close` waits for the pump, but not for long; all it does is set the flag (sqs_sink.py:125-127). -/
def close (s : SqsSink) : SqsSink := { s with stop := true }

inductive Move where
  | emit (body : Option String)
  /-- the reply is for a request, if that is what the pump does next -/
  | run (reply : SqsReply)
  | close

def step (cfg : SinkConfig) (s : SqsSink) : Move → SqsSink
  | .emit body => s.emit cfg body
  | .run reply => s.run cfg reply
  | .close => s.close

/-- SQS reports no failure of an entry it was not sent. -/
def Answered (s : SqsSink) : Move → Prop
  | .run (.responded failed) =>
    match s.pump with
    | .sending _ entries _ => ∀ id ∈ failed, id ∈ entries.map Entry.id
    | _ => True
  | _ => True

instance (s : SqsSink) : (m : Move) → Decidable (Answered s m)
  | .run (.responded failed) =>
    match h : s.pump with
    | .sending _ entries _ => decidable_of_iff (∀ id ∈ failed, id ∈ entries.map Entry.id) (by simp [Answered, h])
    | .loop | .waiting _ | .collecting _ _ | .done => .isTrue (by simp [Answered, h])
  | .run .raised | .emit _ | .close => .isTrue trivial

/-! ## Where an event is -/

/-- The batch being collected or sent. -/
def batch (s : SqsSink) : List Emitted := s.pump.batch

def confirmed (s : SqsSink) : List Emitted := s.requests.flatMap SqsRequest.confirmed

def held (s : SqsSink) : List Emitted := s.q ++ s.batch ++ s.confirmed ++ s.overflowed ++ s.lost

def Move.body : Move → Option String
  | .emit body => body
  | _ => none

/-- All that is emitted in a run. -/
def bodies (ms : List Move) : List String := ms.filterMap Move.body

/-! ## Entries -/

@[simp] theorem map_entriesOf_body (out : List Emitted) : (entriesOf out).map Entry.messageBody = out := by
  rw [entriesOf, List.map_map]
  exact List.zipIdx_map_fst 0 out

theorem map_entriesOf_id (out : List Emitted) :
    (entriesOf out).map Entry.id = (List.range out.length).map (toString ·) := by
  rw [entriesOf, List.map_map, List.range_eq_range', ← List.zipIdx_map_snd 0 out, List.map_map]
  rfl

/-- Ids are distinct as long as there are ten of them at most. -/
theorem nodup_entriesOf {out : List Emitted} (h : out.length ≤ 10) : ((entriesOf out).map Entry.id).Nodup := by
  rw [map_entriesOf_id]
  have h10 : ((List.range 10).map (toString ·)).Nodup := by decide
  exact h10.sublist ((List.range_sublist.2 h).map _)

/-- The failed ids and the entries they name are equally many. -/
theorem length_filter_failed {entries : List Entry} {failed : List String} (hnd : (entries.map Entry.id).Nodup)
    (hsub : ∀ id ∈ failed, id ∈ entries.map Entry.id) :
    (entries.filter (·.id ∈ failed)).length = failed.dedup.length := by
  have hperm : ((entries.map Entry.id).filter (· ∈ failed)).Perm failed.dedup := by
    refine (List.perm_ext_iff_of_nodup (hnd.filter _) failed.nodup_dedup).2 fun id => ?_
    simp only [List.mem_filter, decide_eq_true_eq, List.mem_dedup]
    exact ⟨And.right, fun h => ⟨hsub id h, h⟩⟩
  rw [← hperm.length_eq, List.filter_map, List.length_map]
  rfl

/-- A response splits the entries. -/
theorem filter_failed_perm (entries : List Entry) (failed : List String) :
    ((entries.filter (·.id ∈ failed)).map Entry.messageBody ++
      (entries.filter (·.id ∉ failed)).map Entry.messageBody).Perm (entries.map Entry.messageBody) := by
  rw [← List.map_append]
  refine List.Perm.map _ ?_
  simpa using List.filter_append_perm (fun e : Entry => decide (e.id ∈ failed)) entries

/-! ## The accounts -/

/-- What SQS takes in one request: one to ten entries, with ids of their own. -/
def Fits (entries : List Entry) : Prop :=
  1 ≤ entries.length ∧ entries.length ≤ 10 ∧ (entries.map Entry.id).Nodup

def Sized : PumpAt → Prop
  | .collecting _ out => 1 ≤ out.length ∧ out.length ≤ 10
  | .sending _ entries _ => Fits entries
  | _ => True

@[simp] theorem batch_after (block : Bool) : (after block).batch = [] := by cases block <;> rfl

theorem sized_after (block : Bool) : Sized (after block) := by cases block <;> trivial

structure Accounted (s : SqsSink) : Prop where
  held : s.held.Perm s.emitted.zipIdx
  sent : s.sent = s.confirmed.length
  overflowed : s.droppedOverflow = s.overflowed.length
  lost : s.droppedSend = s.lost.length
  sized : Sized s.pump
  requests : ∀ r ∈ s.requests, Fits r.entries
  once : s.requests.Pairwise fun r r' => ∀ e ∈ r.confirmed, e ∉ r'.entries.map Entry.messageBody

variable {cfg : SinkConfig} {s : SqsSink}

theorem nodup_zipIdx {α : Type*} (l : List α) : l.zipIdx.Nodup := by
  refine List.Nodup.of_map Prod.snd ?_
  rw [List.zipIdx_map_snd]
  exact List.nodup_range'

theorem Accounted.nodup (h : Accounted s) : s.held.Nodup := h.held.nodup_iff.2 (nodup_zipIdx _)

theorem emit_accounted (h : Accounted s) (body : Option String) : Accounted (s.emit cfg body) := by
  cases body with
  | none => exact h
  | some body =>
    have hz : (s.emitted ++ [body]).zipIdx = s.emitted.zipIdx ++ [(body, s.emitted.length)] := by
      simp [List.zipIdx_append]
    have hp := h.held.append_right [(body, s.emitted.length)]
    rw [← hz] at hp
    unfold emit
    dsimp only
    split
    · refine { h with held := ?_, overflowed := by simp [h.overflowed] }
      refine (List.perm_iff_count.2 fun e => ?_).trans hp
      simp only [held, batch, confirmed, List.count_append]
      omega
    · refine { h with held := ?_ }
      refine (List.perm_iff_count.2 fun e => ?_).trans hp
      simp only [held, batch, confirmed, List.count_append]
      omega

/-- Bodies go from the queue to the batch. -/
theorem Accounted.shuffle (h : Accounted s) {q : List Emitted} {pump : PumpAt}
    (hp : (q ++ pump.batch).Perm (s.q ++ s.pump.batch)) (hs : Sized pump) : Accounted { s with q, pump } := by
  refine { h with held := ?_, sized := hs }
  have hheld := h.held
  simp only [SqsSink.held] at hheld ⊢
  exact ((hp.append_right _).append_right _ |>.append_right _).trans hheld

/-- A request is made with the batch in hand, of which nothing was confirmed before. -/
theorem Accounted.request (h : Accounted s) {entries : List Entry}
    (hb : s.batch = entries.map Entry.messageBody) (hfit : Fits entries) (reply : SqsReply) :
    (∀ r ∈ s.requests ++ [SqsRequest.mk entries reply], Fits r.entries) ∧
      (s.requests ++ [SqsRequest.mk entries reply]).Pairwise
        fun r r' => ∀ e ∈ r.confirmed, e ∉ r'.entries.map Entry.messageBody := by
  constructor
  · intro r hr
    rcases List.mem_append.1 hr with hr | hr
    · exact h.requests r hr
    · rw [List.mem_singleton.1 hr]
      exact hfit
  · refine List.pairwise_append.2 ⟨h.once, List.pairwise_singleton _ _, fun r hr r' hr' e he hmem => ?_⟩
    rw [List.mem_singleton.1 hr'] at hmem
    have hc : e ∈ s.confirmed := List.mem_flatMap.2 ⟨r, hr, he⟩
    have hnd := h.nodup
    simp only [SqsSink.held, hb, List.append_assoc] at hnd
    have hdisj := (List.nodup_append.1 (List.nodup_append.1 hnd).2.1).2.2
    exact hdisj e hmem e (List.mem_append_left _ hc) rfl

/-- A request is answered: what failed is still in the batch, the rest of it is confirmed. -/
theorem Accounted.answered (h : Accounted s) {entries : List Entry} (hb : s.batch = entries.map Entry.messageBody)
    (hfit : Fits entries) {failed : List String} (hlen : (entries.filter (·.id ∈ failed)).length = failed.dedup.length)
    {pump : PumpAt} (hpump : pump.batch = (entries.filter (·.id ∈ failed)).map Entry.messageBody) (hsized : Sized pump) :
    Accounted { s with
      requests := s.requests ++ [SqsRequest.mk entries (.responded failed)]
      sent := s.sent + (entries.length - failed.dedup.length)
      pump } := by
  obtain ⟨hreq, honce⟩ := h.request hb hfit (.responded failed)
  have hheld := h.held
  have hcount := filter_failed_perm entries failed
  simp only [SqsSink.held, hb] at hheld
  refine { h with held := ?_, sent := ?_, sized := hsized, requests := hreq, once := honce }
  · refine (List.perm_iff_count.2 fun e => ?_).trans hheld
    have hc := hcount.count_eq e
    simp only [SqsSink.held, batch, hpump, confirmed, SqsRequest.confirmed, List.flatMap_append, List.flatMap_singleton,
      List.count_append] at hc ⊢
    omega
  · have hl := hcount.length_eq
    have hs := h.sent
    simp only [confirmed, SqsRequest.confirmed, List.flatMap_append, List.flatMap_singleton, List.length_append,
      List.length_map] at hl hs ⊢
    omega

theorem send_accounted {block : Bool} {entries : List Entry} {attempt : Nat} (h : Accounted s)
    (hp : s.pump = .sending block entries attempt) {reply : SqsReply} (ha : s.Answered (.run reply)) :
    Accounted (s.send cfg block entries attempt reply) := by
  have hb : s.batch = entries.map Entry.messageBody := by rw [batch, hp]; rfl
  have hfit : Fits entries := by have := h.sized; rwa [hp] at this
  have hheld := h.held
  simp only [held, hb] at hheld
  unfold send
  split
  · refine { h with held := ?_, lost := by simp [h.lost], sized := sized_after block }
    refine (List.perm_iff_count.2 fun e => ?_).trans hheld
    simp only [held, batch, batch_after, confirmed, List.count_append, List.count_nil]
    omega
  · cases reply with
    | raised =>
      obtain ⟨hreq, honce⟩ := h.request hb hfit .raised
      refine { h with held := ?_, sent := ?_, sized := hfit, requests := hreq, once := honce }
      · simpa [held, batch, PumpAt.batch, confirmed, SqsRequest.confirmed] using hheld
      · simpa [confirmed, SqsRequest.confirmed] using h.sent
    | responded failed =>
      simp only [Answered, hp] at ha
      have hlen := length_filter_failed hfit.2.2 ha
      dsimp only
      split
      · -- nothing failed, so nothing is left of the batch
        rename_i hf
        refine h.answered hb hfit hlen ?_ (sized_after block)
        rw [(List.dedup_eq_nil failed).1 hf]
        simp
      · rename_i hf
        simp only [List.mem_dedup]
        refine h.answered hb hfit hlen rfl ⟨?_, ?_, ?_⟩
        · rw [hlen]
          exact List.length_pos_iff.2 hf
        · exact (List.length_filter_le _ _).trans hfit.2.1
        · exact hfit.2.2.sublist (List.filter_sublist.map _)

theorem run_accounted (h : Accounted s) {reply : SqsReply} (ha : s.Answered (.run reply)) :
    Accounted (s.run cfg reply) := by
  have hsized := h.sized
  unfold run
  split
  · rename_i hp
    exact h.shuffle (by rw [hp]; exact .refl _) trivial
  · rename_i block hp
    split
    · rename_i hq
      refine h.shuffle (q := s.q) ?_ (by split <;> trivial)
      rw [hp]
      cases block <;> exact .refl _
    · rename_i b q hq
      refine h.shuffle ?_ ⟨by simp, by simp⟩
      rw [hp, hq]
      simp only [PumpAt.batch, List.append_nil]
      exact List.perm_append_singleton b q
  · rename_i block out hp
    rw [hp] at hsized
    have hsend : Accounted { s with pump := .sending block (entriesOf out) 1 } := by
      refine h.shuffle (q := s.q) ?_ ?_
      · rw [hp]
        simp [PumpAt.batch]
      · have hlen : (entriesOf out).length = out.length := by simp [entriesOf]
        exact ⟨by rw [hlen]; exact hsized.1, by rw [hlen]; exact hsized.2, nodup_entriesOf hsized.2⟩
    split
    · exact hsend
    · rename_i b q hq
      split
      · rename_i hlt
        refine h.shuffle ?_ ?_
        · rw [hp, hq]
          refine List.perm_iff_count.2 fun e => ?_
          simp only [PumpAt.batch, List.count_append, List.count_cons, List.count_nil]
          omega
        · simp only [sqsBatchMax] at hlt
          simp only [Sized, List.length_append, List.length_singleton]
          omega
      · exact hsend
  · rename_i block entries attempt hp
    exact send_accounted h hp ha
  · exact h

theorem step_accounted (s : SqsSink) (m : Move) (ha : Answered s m) (h : Accounted s) : Accounted (step cfg s m) := by
  cases m with
  | emit body => exact emit_accounted h body
  | run reply => exact run_accounted h ha
  | close => exact { h with }

/-! ## The final drain -/

/-- A batch on its way ends nothing and takes nothing. -/
theorem send_spec (s : SqsSink) (block : Bool) (entries : List Entry) (attempt : Nat) (reply : SqsReply) :
    (s.send cfg block entries attempt reply).emitted = s.emitted ∧
      (s.send cfg block entries attempt reply).pump ≠ .done := by
  have hafter : after block ≠ .done := by cases block <;> simp [after]
  unfold send
  split
  · exact ⟨rfl, hafter⟩
  · cases reply with
    | raised => exact ⟨rfl, by simp⟩
    | responded failed =>
      dsimp only
      split
      · exact ⟨rfl, hafter⟩
      · exact ⟨rfl, by simp⟩

theorem run_emitted (s : SqsSink) (reply : SqsReply) : (s.run cfg reply).emitted = s.emitted := by
  unfold run
  split
  · rfl
  · split <;> rfl
  · split
    · rfl
    · split <;> rfl
  · exact (send_spec s ..).1
  · rfl

theorem run_done {s : SqsSink} {reply : SqsReply} (hd : (s.run cfg reply).pump = .done) :
    (s.run cfg reply).q = s.q ∧ (s.pump = .done ∨ s.q = []) := by
  unfold run at hd ⊢
  split at hd
  · cases hd
  · rename_i block hp
    split at hd
    · rename_i hq
      simp [hq]
    · cases hd
  · rename_i block out hp
    split at hd
    · cases hd
    · split at hd <;> cases hd
  · exact absurd hd (send_spec s ..).2
  · rename_i hp
    simp [hp]

@[simp] theorem exec_emitted (ms : List Move) (s : SqsSink) :
    (Run.exec (step cfg) s ms).emitted = s.emitted ++ bodies ms := by
  induction ms generalizing s with
  | nil => simp [bodies]
  | cons m ms ih =>
    rw [Run.exec_cons, ih]
    cases m with
    | emit body =>
      cases body with
      | none => rfl
      | some body =>
        simp only [step, emit]
        split <;> simp [bodies, Move.body]
    | run reply => rw [step, run_emitted]; rfl
    | close => rfl

/-- The pump stops at an empty queue, so what is on the queue afterwards came later. -/
def Drained (n : Nat) (s : SqsSink) : Prop := n ≤ s.emitted.length ∧ (s.pump = .done → ∀ e ∈ s.q, n ≤ e.2)

theorem step_drained {n : Nat} (s : SqsSink) (m : Move) (h : Drained n s) : Drained n (step cfg s m) := by
  obtain ⟨hn, hq⟩ := h
  cases m with
  | emit body =>
    cases body with
    | none => exact ⟨hn, hq⟩
    | some body =>
      simp only [step, emit]
      split
      · exact ⟨by simp; omega, hq⟩
      · refine ⟨by simp; omega, fun hd e he => ?_⟩
        rcases List.mem_append.1 he with he | he
        · exact hq hd e he
        · rw [List.mem_singleton.1 he]
          exact hn
  | run reply =>
    refine ⟨by rw [step, run_emitted]; exact hn, fun hd => ?_⟩
    obtain ⟨he, hp | hp⟩ := run_done hd
    · rw [step, he]
      exact hq hp
    · rw [step, he, hp]
      simp
  | close => exact ⟨hn, hq⟩

/-- **`accounted`**: over every run of emits, pump steps and `close`, in any order, if SQS reports no failure of
an entry it was not sent: what was emitted is on the queue, in the batch, confirmed or dropped, each event in
one place, and the counters count; what SQS confirmed is in no later request; every request has one to ten
entries with ids of their own; and once the pump has stopped, nothing emitted before the `close` is queued. -/
theorem accounted (cfg : SinkConfig) (ms : List Move) (ha : Run.Along (step cfg) Answered {} ms) :
    let s := Run.exec (step cfg) {} ms
    ((s.q ++ s.batch ++ s.confirmed ++ s.overflowed ++ s.lost).Perm (bodies ms).zipIdx ∧
      (s.q ++ s.batch ++ s.confirmed ++ s.overflowed ++ s.lost).Nodup) ∧
    (s.sent = s.confirmed.length ∧ s.droppedOverflow = s.overflowed.length ∧ s.droppedSend = s.lost.length) ∧
    (s.requests.Pairwise fun r r' => ∀ e ∈ r.confirmed, e ∉ r'.entries.map Entry.messageBody) ∧
    (∀ r ∈ s.requests, 1 ≤ r.entries.length ∧ r.entries.length ≤ 10 ∧ (r.entries.map Entry.id).Nodup) ∧
    ∀ before rest, ms = before ++ .close :: rest → (Run.exec (step cfg) {} before).pump ≠ .done →
      s.pump = .done → ∀ e ∈ (bodies before).zipIdx, e ∉ s.q := by
  have h0 : Accounted {} := ⟨.refl _, rfl, rfl, rfl, trivial, by simp, .nil⟩
  have h : Accounted (Run.exec (step cfg) {} ms) := Run.exec_inv_along step_accounted ms {} ha h0
  have hem : (Run.exec (step cfg) {} ms).emitted = bodies ms := by simp
  refine ⟨⟨?_, h.nodup⟩, ⟨h.sent, h.overflowed, h.lost⟩, h.once, h.requests, ?_⟩
  · rw [← hem]
    exact h.held
  · rintro before rest rfl hnd hdone e he hq
    have hd : Drained (bodies before).length (Run.exec (step cfg) {} before) := ⟨by simp, fun h => absurd h hnd⟩
    have hlater : Drained (bodies before).length
        (Run.exec (step cfg) (Run.exec (step cfg) {} before) (.close :: rest)) := Run.exec_inv step_drained _ _ hd
    rw [← Run.exec_append] at hlater
    have hlt : e.2 < (bodies before).length := by simpa using List.snd_lt_of_mem_zipIdx he
    exact absurd (hlater.2 hdone e hq) (by omega)

/-- A queue of three takes four events; of the first batch, one is confirmed and one given up. -/
def busy : List Move :=
  [.emit "a", .emit "b", .emit "c", .emit "d", .run .raised, .run .raised, .run .raised, .run .raised,
    .run (.responded ["1"]), .run .raised, .run .raised]

def closing : List Move :=
  [.run .raised, .run .raised, .run .raised, .run (.responded []), .run .raised]

theorem busyClosing_accounted :
    let s := Run.exec (step { maxQueue := 3, batchSize := 2, sendRetries := 2 }) {} (busy ++ .close :: closing)
    (s.pump = .done ∧ s.sent = 2 ∧ s.droppedOverflow = 1 ∧ s.droppedSend = 1) ∧
      ∀ e ∈ (bodies busy).zipIdx, e ∉ s.q :=
  ⟨by decide, (accounted { maxQueue := 3, batchSize := 2, sendRetries := 2 } _ (by decide)).2.2.2.2 busy closing rfl
    (by decide) (by decide)⟩

end SqsSink

end DialPass
