import DialPass.Telemetry.Store
import DialPass.Telemetry.Worker
/-!
# Good messages in bad company (workers/telemetry_worker.py:40-63, telemetry/store.py:64-75)

The worker drops a body that is not JSON, and only that. A body that is JSON but has no row makes `write_many`
raise for the whole batch, and one that makes `json.loads` raise anything but JSONDecodeError ends `run`.
`isolates_iff` is exact.
-/

namespace DialPass

/-- What a pass has done: the rows it stored and the messages it deleted. -/
structure Delivered where
  rows : List Row := []
  deleted : List Message := []

/-- A pass of `run` over a batch (telemetry_worker.py:40-63), with the Postgres store and no crash of its
own. -/
def runPass (py : Interpreter) (db : Database) (messages : List Message) : Delivered :=
  match Batch.parse py messages with
  | .error _ => {}
  | .ok b =>
    if b.events = [] then { deleted := b.toDelete }
    else
      let (rows, raised) := writeMany py db (b.events.map Prod.snd)
      { rows, deleted := (b.written raised).toDelete }

/-- What the sink sends: an object with a text `call_id` and `kind`, and a number `t`. -/
def WellFormed : Json → Bool
  | .obj fields =>
    match Dict.find (.ofString "call_id") fields, Dict.find (.ofString "t") fields,
        Dict.find (.ofString "kind") fields with
    | some (.str _), some (.float _), some (.str _) => true
    | some (.str _), some (.int n), some (.str _) => (PyFloat.ofInt n).isSome
    | _, _, _ => false
  | _ => false

/-- The row of a message whose event is well formed. -/
def goodRow (py : Interpreter) (m : Message) : Option Row :=
  match m.body.map (Json.loads py) with
  | some (.ok e) => if WellFormed e then rowOf py e else none
  | _ => none

/-- Every well-formed event of the batch is stored, and its message deleted. -/
structure Isolates (py : Interpreter) (messages : List Message) (d : Delivered) : Prop where
  stored : (messages.filterMap (goodRow py)).Sublist d.rows
  deleted : ∀ m ∈ messages, (goodRow py m).isSome = true → m ∈ d.deleted

/-- What `json.loads` makes of a body is dropped by the worker, or the store has a row for it. -/
def HarmlessBody (py : Interpreter) : Option (Except Json.LoadsError Json) → Prop
  | none | some (.error .decode) => True
  | some (.ok e) => Storable py e
  | some (.error .digits) | some (.error .recursion) => False

instance (py : Interpreter) : DecidablePred (HarmlessBody py)
  | none | some (.error .decode) => .isTrue trivial
  | some (.ok e) => inferInstanceAs (Decidable (Storable py e))
  | some (.error .digits) | some (.error .recursion) => .isFalse id

def Harmless (py : Interpreter) (m : Message) : Prop := HarmlessBody py (m.body.map (Json.loads py))

instance (py : Interpreter) (m : Message) : Decidable (Harmless py m) :=
  inferInstanceAs (Decidable (HarmlessBody py _))

/-! ## What a batch comes to -/

variable {py : Interpreter} {db : Database}

/-- The event of a message. -/
def eventOf (py : Interpreter) (m : Message) : Option Json :=
  match m.body.map (Json.loads py) with
  | some (.ok e) => some e
  | _ => none

/-- `json.loads` raises what the worker does not catch. -/
def Breaks (py : Interpreter) (m : Message) : Prop := ∃ exc, m.body.map (Json.loads py) = some (.error exc) ∧ exc ≠ .decode

theorem add_cases (py : Interpreter) (b : Batch) (m : Message) :
    (∃ e, eventOf py m = some e ∧ ¬ Breaks py m ∧ b.add py m =
      .ok { b with events := b.events ++ [(m, e)], storedReceipts := b.storedReceipts ++ [m] }) ∨
    (eventOf py m = none ∧ ¬ Breaks py m ∧
      b.add py m = .ok { b with poisonReceipts := b.poisonReceipts ++ [m] }) ∨
    (Breaks py m ∧ ∃ exc, b.add py m = .error exc) := by
  unfold eventOf Breaks Batch.add
  cases m.body with
  | none => exact .inr (.inl ⟨rfl, by simp, rfl⟩)
  | some body =>
    simp only [Option.map_some]
    cases hl : Json.loads py body with
    | ok e => exact .inl ⟨e, rfl, by simp, rfl⟩
    | error exc =>
      cases exc with
      | decode => exact .inr (.inl ⟨rfl, by simp, rfl⟩)
      | digits => exact .inr (.inr ⟨⟨_, rfl, by decide⟩, _, rfl⟩)
      | recursion => exact .inr (.inr ⟨⟨_, rfl, by decide⟩, _, rfl⟩)

theorem foldlM_add (py : Interpreter) (messages : List Message) (b : Batch) :
    ((∀ m ∈ messages, ¬ Breaks py m) ∧ ∃ b', messages.foldlM (Batch.add py) b = .ok b' ∧
      b'.events.map Prod.snd = b.events.map Prod.snd ++ messages.filterMap (eventOf py) ∧
      b'.storedReceipts = b.storedReceipts ++ messages.filter ((eventOf py · |>.isSome)) ∧
      b'.poisonReceipts = b.poisonReceipts ++ messages.filter ((eventOf py · |>.isNone))) ∨
    ((∃ m ∈ messages, Breaks py m) ∧ ∃ exc, messages.foldlM (Batch.add py) b = .error exc) := by
  induction messages generalizing b with
  | nil => exact .inl ⟨by simp, b, rfl, by simp⟩
  | cons m messages ih =>
    rw [List.foldlM_cons]
    rcases add_cases py b m with ⟨e, he, hm, hadd⟩ | ⟨he, hm, hadd⟩ | ⟨hm, exc, hadd⟩ <;> rw [hadd]
    · rcases ih { b with events := b.events ++ [(m, e)], storedReceipts := b.storedReceipts ++ [m] } with
        ⟨hall, b', hf, h1, h2, h3⟩ | ⟨⟨n, hn, hbr⟩, exc, hf⟩
      · exact .inl ⟨List.forall_mem_cons.2 ⟨hm, hall⟩, b', hf, by simp [h1, he], by simp [h2, he], by simp [h3, he]⟩
      · exact .inr ⟨⟨n, List.mem_cons_of_mem _ hn, hbr⟩, exc, hf⟩
    · rcases ih { b with poisonReceipts := b.poisonReceipts ++ [m] } with
        ⟨hall, b', hf, h1, h2, h3⟩ | ⟨⟨n, hn, hbr⟩, exc, hf⟩
      · exact .inl ⟨List.forall_mem_cons.2 ⟨hm, hall⟩, b', hf, by simp [h1, he], by simp [h2, he], by simp [h3, he]⟩
      · exact .inr ⟨⟨n, List.mem_cons_of_mem _ hn, hbr⟩, exc, hf⟩
    · exact .inr ⟨⟨m, List.mem_cons_self, hm⟩, exc, rfl⟩

/-- A message breaks the pass, or its event has no row, or it does no harm. -/
theorem harmless_iff (m : Message) :
    Harmless py m ↔ ¬ Breaks py m ∧ ∀ e, eventOf py m = some e → Storable py e := by
  unfold Harmless Breaks eventOf
  cases m.body.map (Json.loads py) with
  | none => simp [HarmlessBody]
  | some r =>
    cases r with
    | ok e => simp [HarmlessBody]
    | error exc => cases exc <;> simp [HarmlessBody]

theorem goodRow_eq_some {m : Message} {row : Row} (h : goodRow py m = some row) :
    ∃ e, eventOf py m = some e ∧ rowOf py e = some row := by
  unfold goodRow at h
  unfold eventOf
  split at h
  · rename_i e he
    split at h
    · exact ⟨e, rfl, h⟩
    · cases h
  · cases h

/-- The good rows are among those of the batch. -/
theorem filterMap_goodRow_sublist (messages : List Message) :
    (messages.filterMap (goodRow py)).Sublist ((messages.filterMap (eventOf py)).filterMap (rowOf py)) := by
  induction messages with
  | nil => exact List.Sublist.slnil
  | cons m messages ih =>
    cases hg : goodRow py m with
    | none =>
      rw [List.filterMap_cons_none hg]
      refine ih.trans ?_
      cases he : eventOf py m with
      | none => rw [List.filterMap_cons_none he]
      | some e =>
        rw [List.filterMap_cons_some he]
        cases hr : rowOf py e with
        | none => rw [List.filterMap_cons_none hr]
        | some row => rw [List.filterMap_cons_some hr]; exact List.sublist_cons_self _ _
    | some row =>
      obtain ⟨e, he, hr⟩ := goodRow_eq_some hg
      rw [List.filterMap_cons_some hg, List.filterMap_cons_some he, List.filterMap_cons_some hr]
      exact ih.cons_cons row

/-- With a database that takes every row, a pass over harmless messages stores what can be stored and deletes
all of them; any other pass stores nothing and deletes no message that has an event. -/
theorem runPass_cases (py : Interpreter) (hdb : ∀ rows, db rows = none) (messages : List Message) :
    ((∀ m ∈ messages, Harmless py m) ∧
      (runPass py db messages).rows = (messages.filterMap (eventOf py)).filterMap (rowOf py) ∧
      ∀ m ∈ messages, m ∈ (runPass py db messages).deleted) ∨
    ((∃ m ∈ messages, ¬ Harmless py m) ∧ (runPass py db messages).rows = []) := by
  unfold runPass Batch.parse
  rcases foldlM_add py messages {} with ⟨hall, b, hf, hev, hst, hpo⟩ | ⟨⟨m, hm, hbr⟩, exc, hf⟩ <;> rw [hf]
  · simp only [List.map_nil, List.nil_append] at hev hst hpo
    have hdel : ∀ m ∈ messages, m ∈ b.toDelete := by
      intro m hm
      rw [Batch.toDelete, hst, hpo, List.mem_append, List.mem_filter, List.mem_filter]
      cases eventOf py m <;> simp [hm]
    dsimp only
    split
    · rename_i hnil
      have hno : messages.filterMap (eventOf py) = [] := by rw [← hev, hnil]; rfl
      refine .inl ⟨fun m hm => (harmless_iff m).2 ⟨hall m hm, fun e he => ?_⟩, by rw [hno]; rfl, hdel⟩
      have hmem : e ∈ messages.filterMap (eventOf py) := List.mem_filterMap.2 ⟨m, hm, he⟩
      rw [hno] at hmem
      cases hmem
    · rw [hev]
      rcases writeMany_cases py hdb (messages.filterMap (eventOf py)) with ⟨hs, hw⟩ | ⟨⟨e, he, hs⟩, hw⟩ <;>
        rw [hw]
      · refine .inl ⟨fun m hm => (harmless_iff m).2 ⟨hall m hm, fun e he => ?_⟩, rfl, hdel⟩
        exact hs e (List.mem_filterMap.2 ⟨m, hm, he⟩)
      · obtain ⟨m, hm, he⟩ := List.mem_filterMap.1 he
        exact .inr ⟨⟨m, hm, fun hh => hs (((harmless_iff m).1 hh).2 e he)⟩, rfl⟩
  · exact .inr ⟨⟨m, hm, fun hh => ((harmless_iff m).1 hh).1 hbr⟩, rfl⟩

/-- **`isolates_iff`**: for every batch with a well-formed event in it, and a database that takes every row, the
well-formed events are stored and their messages deleted in that pass exactly when every body of the batch is
either no JSON at all or an object that the store can make a row of. -/
theorem isolates_iff (hdb : ∀ rows, db rows = none) {messages : List Message}
    (hgood : ∃ m ∈ messages, (goodRow py m).isSome = true) :
    Isolates py messages (runPass py db messages) ↔ ∀ m ∈ messages, Harmless py m := by
  rcases runPass_cases py hdb messages with ⟨hall, hrows, hdel⟩ | ⟨⟨m, hm, hh⟩, hrows⟩
  · refine iff_of_true ⟨?_, fun m hm _ => hdel m hm⟩ hall
    rw [hrows]
    exact filterMap_goodRow_sublist messages
  · refine iff_of_false (fun h => ?_) fun hall => hh (hall m hm)
    have hsub := h.stored
    rw [hrows, List.sublist_nil] at hsub
    obtain ⟨n, hn, hg⟩ := hgood
    obtain ⟨row, hrow⟩ := Option.isSome_iff_exists.1 hg
    have hmem : row ∈ messages.filterMap (goodRow py) := List.mem_filterMap.2 ⟨n, hn, hrow⟩
    rw [hsub] at hmem
    cases hmem

/-- An event as the sink sends it. -/
def dtmfMessage : Message :=
  { messageId := "1", body := some "\x7b\"kind\": \"dtmf_sent\", \"call_id\": \"CA1\", \"t\": 2.0\x7d" }

def cpython : Interpreter := { maxDepth := 1000, maxRepr := 1000 }

/-- A body that is not JSON holds nothing up. -/
theorem notJson_isolates :
    Isolates cpython [⟨"2", some "not json at all"⟩, dtmfMessage]
      (runPass cpython (fun _ => none) [⟨"2", some "not json at all"⟩, dtmfMessage]) :=
  (isolates_iff (fun _ => rfl) ⟨dtmfMessage, by simp, by decide +kernel⟩).2 (by decide +kernel)

/-- A body that is an empty list does. -/
theorem emptyList_not_isolates :
    ¬ Isolates cpython [dtmfMessage, ⟨"2", some "[]"⟩]
      (runPass cpython (fun _ => none) [dtmfMessage, ⟨"2", some "[]"⟩]) := by
  intro h
  have hgood : (goodRow cpython dtmfMessage).isSome = true := by decide +kernel
  have hdel : dtmfMessage ∉ (runPass cpython (fun _ => none) [dtmfMessage, ⟨"2", some "[]"⟩]).deleted := by
    decide +kernel
  exact hdel (h.deleted _ List.mem_cons_self hgood)

end DialPass
