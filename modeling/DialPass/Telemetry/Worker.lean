import DialPass.Lib.Json
import DialPass.Lib.Run
/-!
# The telemetry worker (workers/telemetry_worker.py:26-68)

One pass of `run` receives a batch, parses it, writes the events and deletes the messages. `step` takes the
worker from one of these points to the next; whatever happens to it in between (a body `json.loads` gives up
on, an SQS call that raises, the process killed) is `crash`, after which it is started again. The queue hands
out any messages it still has, any number of times. Deleting may fail for some entries, and a write that raises
may have stored the first events of the batch.

`atLeastOnce` is what the worker promises: a message is only deleted once its event is stored, or if it has none.
-/

namespace DialPass

/-- A message on the queue; its receipt handle stands for it and is not kept. -/
structure Message where
  messageId : String
  body : Option String
deriving DecidableEq, Repr

/-- `_BATCH` (telemetry_worker.py:23). -/
def maxBatch : Nat := 10

/-- The three lists of a pass (telemetry_worker.py:40). An event is kept with its message, which nothing
reads. -/
structure Batch where
  events : List (Message × Json) := []
  storedReceipts : List Message := []
  poisonReceipts : List Message := []

namespace Batch

/-- One message (telemetry_worker.py:43-50). Only JSONDecodeError and KeyError are caught. -/
def add (py : Interpreter) (b : Batch) (m : Message) : Except Json.LoadsError Batch :=
  match m.body with
  | none => .ok { b with poisonReceipts := b.poisonReceipts ++ [m] }
  | some body =>
    match Json.loads py body with
    | .ok e => .ok { b with events := b.events ++ [(m, e)], storedReceipts := b.storedReceipts ++ [m] }
    | .error .decode => .ok { b with poisonReceipts := b.poisonReceipts ++ [m] }
    | .error exc => .error exc

/-- The messages of a pass (telemetry_worker.py:40-50). -/
def parse (py : Interpreter) (messages : List Message) : Except Json.LoadsError Batch :=
  messages.foldlM (add py) {}

/-- After `write_many` (telemetry_worker.py:52-59). -/
def written (b : Batch) (raised : Bool) : Batch := if raised then { b with storedReceipts := [] } else b

/-- telemetry_worker.py:61 -/
def toDelete (b : Batch) : List Message := b.storedReceipts ++ b.poisonReceipts

end Batch

/-- Where the worker is in its pass. -/
inductive Pass where
  | polling
  | received (messages : List Message)
  | parsed (b : Batch)
  | written (b : Batch)

/-- The queue, the store and the worker. -/
structure Telemetry where
  queue : List Message := []
  deleted : List Message := []
  store : List (Message × Json) := []
  pass : Pass := .polling

namespace Telemetry

inductive Step where
  /-- a message is put on the queue -/
  | send (m : Message)
  | receive (messages : List Message)
  | parse
  /-- `write_many` returns (`none`), or raises after it has stored that many -/
  | write (raised : Option Nat)
  /-- DeleteMessageBatch, but for the entries in its `Failed` list -/
  | delete (failed : List Message)
  | crash

/-- One step of the worker, or of the queue. -/
def step (py : Interpreter) (s : Telemetry) : Step → Telemetry
  | .send m => { s with queue := s.queue ++ [m] }
  | .receive messages =>
    match s.pass with
    | .polling =>
      if messages.length ≤ maxBatch ∧ (∀ m ∈ messages, m ∈ s.queue) ∧ messages ≠ [] then
        { s with pass := .received messages }
      else s
    | _ => s
  | .parse =>
    match s.pass with
    | .received messages =>
      match Batch.parse py messages with
      | .ok b => { s with pass := .parsed b }
      | .error _ => { s with pass := .polling }
    | _ => s
  | .write raised =>
    match s.pass with
    | .parsed b =>
      if b.events = [] then { s with pass := .written b }
      else
        { s with
          store := s.store ++ b.events.take (raised.getD b.events.length)
          pass := .written (b.written raised.isSome) }
    | _ => s
  | .delete failed =>
    match s.pass with
    | .written b =>
      let gone := b.toDelete.filter (· ∉ failed)
      { s with
        queue := s.queue.filter (· ∉ gone)
        deleted := s.deleted ++ gone
        pass := .polling }
    | _ => s
  | .crash => { s with pass := .polling }

/-! ## What a batch holds -/

/-- The message has no event: no body, or none that is JSON. -/
def Unparseable (py : Interpreter) (m : Message) : Prop :=
  ∀ body, m.body = some body → Json.loads py body = .error .decode

/-- The event of the message. -/
def EventOf (py : Interpreter) (m : Message) (e : Json) : Prop := ∃ body, m.body = some body ∧ Json.loads py body = .ok e

/-- The lists of a pass belong together. -/
structure Parsed (py : Interpreter) (b : Batch) : Prop where
  events : ∀ p ∈ b.events, EventOf py p.1 p.2
  stored : b.storedReceipts = b.events.map Prod.fst
  poison : ∀ m ∈ b.poisonReceipts, Unparseable py m

variable {py : Interpreter}

theorem add_parsed {b b' : Batch} {m : Message} (h : Parsed py b) (hadd : b.add py m = .ok b') : Parsed py b' := by
  have hpoison : Unparseable py m → Parsed py { b with poisonReceipts := b.poisonReceipts ++ [m] } := fun hm =>
    ⟨h.events, h.stored, fun n hn => by
      rcases List.mem_append.1 hn with hn | hn
      · exact h.poison n hn
      · rw [List.mem_singleton.1 hn]; exact hm⟩
  unfold Batch.add at hadd
  split at hadd
  · rename_i hb
    cases hadd
    exact hpoison fun body hs => by rw [hb] at hs; cases hs
  · rename_i body hb
    split at hadd
    · rename_i e he
      cases hadd
      refine ⟨fun p hp => ?_, by simp [h.stored], h.poison⟩
      rcases List.mem_append.1 hp with hp | hp
      · exact h.events p hp
      · rw [List.mem_singleton.1 hp]
        exact ⟨body, hb, he⟩
    · rename_i he
      cases hadd
      exact hpoison fun body' hs => by
        rw [hb] at hs
        cases hs
        exact he
    · cases hadd

theorem foldlM_parsed {messages : List Message} {b b' : Batch} (h : Parsed py b)
    (hf : messages.foldlM (Batch.add py) b = .ok b') : Parsed py b' := by
  induction messages generalizing b with
  | nil => cases hf; exact h
  | cons m messages ih =>
    rw [List.foldlM_cons] at hf
    cases hadd : b.add py m with
    | error exc => rw [hadd] at hf; cases hf
    | ok c =>
      rw [hadd] at hf
      exact ih (add_parsed h hadd) hf

theorem parse_parsed {messages : List Message} {b : Batch} (h : Batch.parse py messages = .ok b) : Parsed py b :=
  foldlM_parsed ⟨by simp, rfl, by simp⟩ h

/-! ## Nothing is lost -/

/-- The message may be deleted: it has no event, or its event is stored. -/
def Settled (py : Interpreter) (store : List (Message × Json)) (m : Message) : Prop :=
  Unparseable py m ∨ ∃ e, EventOf py m e ∧ (m, e) ∈ store

/-- Every message that has been deleted was unparseable or has its event in the store. -/
def Kept (py : Interpreter) (s : Telemetry) : Prop := ∀ m ∈ s.deleted, Settled py s.store m

/-- What the worker knows where it is. -/
def SoundAt (py : Interpreter) (store : List (Message × Json)) : Pass → Prop
  | .parsed b => Parsed py b
  | .written b => ∀ m ∈ b.toDelete, Settled py store m
  | .polling | .received _ => True

theorem Settled.mono {store store' : List (Message × Json)} {m : Message} (hsub : store ⊆ store')
    (h : Settled py store m) : Settled py store' m :=
  h.imp_right fun ⟨e, he, hm⟩ => ⟨e, he, hsub hm⟩

/-- After a write that returned every parsed message is settled; after one that raised only the unparseable
ones are left to delete. -/
theorem write_settled {b : Batch} (h : Parsed py b) (store : List (Message × Json)) (raised : Option Nat) :
    ∀ m ∈ (b.written raised.isSome).toDelete,
      Settled py (store ++ b.events.take (raised.getD b.events.length)) m := by
  intro m hm
  rcases List.mem_append.1 hm with hm | hm
  · cases raised with
    | some n => simp [Batch.written] at hm
    | none =>
      have hs : m ∈ b.events.map Prod.fst := h.stored ▸ hm
      obtain ⟨p, hp, rfl⟩ := List.mem_map.1 hs
      exact .inr ⟨p.2, h.events p hp, List.mem_append_right _ (by simpa using hp)⟩
  · have hp : m ∈ b.poisonReceipts := by
      unfold Batch.written at hm
      split at hm <;> exact hm
    exact .inl (h.poison m hp)

theorem step_kept (s : Telemetry) (i : Step) (h : Kept py s ∧ SoundAt py s.store s.pass) :
    Kept py (step py s i) ∧ SoundAt py (step py s i).store (step py s i).pass := by
  obtain ⟨hk, hp⟩ := h
  cases i with
  | send m => exact ⟨hk, hp⟩
  | receive messages =>
    cases hs : s.pass with
    | polling =>
      rw [step, hs]
      dsimp only
      split
      · exact ⟨hk, trivial⟩
      · exact ⟨hk, hp⟩
    | _ => simp only [step, hs]; exact ⟨hk, hs ▸ hp⟩
  | parse =>
    cases hs : s.pass with
    | received messages =>
      rw [step, hs]
      dsimp only
      split
      · rename_i b hb
        exact ⟨hk, parse_parsed hb⟩
      · exact ⟨hk, trivial⟩
    | _ => simp only [step, hs]; exact ⟨hk, hs ▸ hp⟩
  | write raised =>
    cases hs : s.pass with
    | parsed b =>
      rw [hs] at hp
      rw [step, hs]
      dsimp only
      split
      · rename_i he
        refine ⟨hk, fun m hm => .inl (hp.poison m ?_)⟩
        have hnil : b.storedReceipts = [] := by rw [hp.stored, he]; rfl
        rw [Batch.toDelete, hnil] at hm
        exact hm
      · exact ⟨fun m hm => (hk m hm).mono (List.subset_append_left _ _), write_settled hp s.store raised⟩
    | _ => simp only [step, hs]; exact ⟨hk, hs ▸ hp⟩
  | delete failed =>
    cases hs : s.pass with
    | written b =>
      rw [hs] at hp
      simp only [step, hs]
      refine ⟨fun m hm => ?_, trivial⟩
      rcases List.mem_append.1 hm with hm | hm
      · exact hk m hm
      · exact hp m (List.mem_filter.1 hm).1
    | _ => simp only [step, hs]; exact ⟨hk, hs ▸ hp⟩
  | crash => exact ⟨hk, trivial⟩

/-- **`atLeastOnce`**: over every run of the worker, through failing writes, crashes and redeliveries, every message
that has been deleted was unparseable or has its event in the store. -/
theorem atLeastOnce (py : Interpreter) (is : List Step) : Run.Always (step py) (Kept py) {} is := fun pre hpre =>
  (Run.always_of_inv step_kept is {} ⟨by simp [Kept], trivial⟩ pre hpre).1

end Telemetry

end DialPass
