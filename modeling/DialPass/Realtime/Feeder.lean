import DialPass.Lib.Base64
import DialPass.Lib.Run
/-!
# The probe's feeder (realtime/stream.py:118-142, bridge.py:104-107, bridge.py:158-175)

`run_probe` makes the queue before the socket is opened, and every inbound frame of the call goes into it from then
on. `feed` sleeps through the greeting and then sends from the queue until it has sent `listen_s` seconds. The
media loop, the clock and the feeder interleave in any order; a frame is `fresh` if it arrived after the sleep.
-/

namespace DialPass

/-- A frame in the queue. -/
structure Arrival where
  frame : List UInt8
  fresh : Bool
deriving DecidableEq

/-- `len(frame) / 8000.0`, summed. -/
def seconds (as : List Arrival) : ℚ := (as.map fun a => (a.frame.length / 8000 : ℚ)).sum

/-- `_JUDGE` (stream.py:52). -/
def judgeInstructions : String :=
  "Classify ONLY what you heard since your greeting. Reply with exactly " ++
    "'VERDICT HUMAN' or 'VERDICT NOT HUMAN' — no other words."

/-- What the feeder sends to the model (stream.py:124-142). -/
inductive FeedMessage where
  | append (audio : String)
  | commit
  | createResponse (outputModalities : List String) (instructions : String)
deriving DecidableEq

/-- Where `feed` stands. -/
inductive FeedPhase where
  /-- not yet a task: the socket opens, and the greeting is asked for (stream.py:86-113) -/
  | connecting
  | greeting (began : ℚ)
  | feeding
  | asking
  | over
deriving DecidableEq

structure ProbeFeed where
  listenS : ℚ := 4
  now : ℚ := 0
  phase : FeedPhase := .connecting
  woken : Bool := false
  inbound : List Arrival := []
  drained : ℚ := 0
  /-- the frames sent so far -/
  sent : List Arrival := []
  wire : List FeedMessage := []

inductive FeedAct where
  /-- `on_agent_audio` (bridge.py:106) -/
  | arrive (frame : List UInt8)
  | pass (dt : NNRat)
  /-- `create_task(feed())` -/
  | create
  /-- `sleep` returns -/
  | wake
  /-- one pass of the loop (stream.py:121-131) -/
  | send
  | commit
  | ask
  /-- the receive loop has ended, the timeout struck, or a send raised -/
  | cancel

namespace ProbeFeed

/-- `sleep(2.0)` may return (stream.py:119). -/
def wakes (s : ProbeFeed) : Bool :=
  match s.phase with
  | .greeting began => began + 2 ≤ s.now
  | _ => false

def step (s : ProbeFeed) : FeedAct → ProbeFeed
  | .arrive frame => { s with inbound := s.inbound ++ [{ frame, fresh := s.woken }] }
  | .pass dt => { s with now := s.now + dt }
  | .create => if s.phase = .connecting then { s with phase := .greeting s.now } else s
  | .wake => if s.wakes then { s with phase := .feeding, woken := true } else s
  | .send =>
    match s.inbound with
    | a :: rest =>
      if s.phase = .feeding ∧ s.drained < s.listenS then
        { s with
          inbound := rest
          sent := s.sent ++ [a]
          wire := s.wire ++ [.append (String.ofList (Base64.encode a.frame))]
          drained := s.drained + a.frame.length / 8000 }
      else s
    | [] => s
  | .commit =>
    if s.phase = .feeding ∧ s.listenS ≤ s.drained then
      { s with phase := .asking, wire := s.wire ++ [.commit] }
    else s
  | .ask =>
    if s.phase = .asking then
      { s with phase := .over, wire := s.wire ++ [.createResponse ["text"] judgeInstructions] }
    else s
  | .cancel => { s with phase := .over }

/-- The model judges the reply: all it was sent is fresh, and by the commit there is `listen_s` of it. -/
def JudgesReply (s : ProbeFeed) : Prop :=
  (∀ a ∈ s.sent, a.fresh = true) ∧ (.commit ∈ s.wire → s.listenS ≤ seconds (s.sent.filter (·.fresh)))

/-! ## What every run keeps -/

instance (s : ProbeFeed) : Decidable s.JudgesReply := inferInstanceAs (Decidable (_ ∧ _))

/-- What is drained is what was sent; before the sleep is over nothing is sent, and nothing queued is fresh. -/
structure Sound (s : ProbeFeed) : Prop where
  drained : s.drained = seconds s.sent
  committed : .commit ∈ s.wire → s.listenS ≤ s.drained
  appended : s.wire.filterMap (fun | .append audio => some audio | _ => none) =
    s.sent.map fun a => String.ofList (Base64.encode a.frame)
  asleep : s.woken = false →
    s.sent = [] ∧ s.wire = [] ∧ s.phase ≠ .feeding ∧ s.phase ≠ .asking ∧ ∀ a ∈ s.inbound, a.fresh = false
  early : s.phase = .connecting ∨ (∃ began, s.phase = .greeting began) → s.woken = false

theorem seconds_append (as : List Arrival) (a : Arrival) :
    seconds (as ++ [a]) = seconds as + a.frame.length / 8000 := by simp [seconds]

theorem step_sound (s : ProbeFeed) (act : FeedAct) (h : Sound s) : Sound (s.step act) := by
  cases act with
  | arrive frame =>
    refine ⟨h.drained, h.committed, h.appended, fun hw => ?_, h.early⟩
    obtain ⟨h1, h2, h3, h4, h5⟩ := h.asleep hw
    refine ⟨h1, h2, h3, h4, fun a ha => ?_⟩
    rcases List.mem_append.1 ha with ha | ha
    · exact h5 a ha
    · rw [List.mem_singleton.1 ha]
      exact hw
  | pass dt => exact ⟨h.drained, h.committed, h.appended, h.asleep, h.early⟩
  | create =>
    rw [step]
    split
    · rename_i hc
      refine ⟨h.drained, h.committed, h.appended, fun hw => ?_, fun _ => h.early (.inl hc)⟩
      obtain ⟨h1, h2, -, -, h5⟩ := h.asleep hw
      exact ⟨h1, h2, by simp, by simp, h5⟩
    · exact h
  | wake =>
    rw [step]
    split
    · exact ⟨h.drained, h.committed, h.appended, by simp, by simp⟩
    · exact h
  | send =>
    rw [step]
    split
    · rename_i a rest hq
      split
      · rename_i hc
        refine ⟨?_, fun hm => ?_, ?_, fun hw => absurd hc.1 (h.asleep hw).2.2.1, h.early⟩
        · rw [seconds_append, h.drained]
        · -- it was committed before, so nothing would have been sent
          have hcm : FeedMessage.commit ∈ s.wire := by simpa using hm
          exact absurd hc.2 (not_lt.2 (h.committed hcm))
        · simp [List.filterMap_append, h.appended]
      · exact h
    · exact h
  | commit =>
    rw [step]
    split
    · rename_i hc
      exact ⟨h.drained, fun _ => hc.2, by simpa using h.appended, fun hw => absurd hc.1 (h.asleep hw).2.2.1,
        by simp⟩
    · exact h
  | ask =>
    rw [step]
    split
    · rename_i hc
      exact ⟨h.drained, fun hm => h.committed (by simpa using hm), by simpa using h.appended,
        fun hw => absurd hc (h.asleep hw).2.2.2.1, by simp⟩
    · exact h
  | cancel =>
    refine ⟨h.drained, h.committed, h.appended, fun hw => ?_, by simp [step]⟩
    obtain ⟨h1, h2, -, -, h5⟩ := h.asleep hw
    exact ⟨h1, h2, by simp [step], by simp [step], h5⟩

theorem new_sound (listenS : ℚ) : Sound { listenS } :=
  ⟨rfl, by simp, rfl, fun _ => by simp, fun _ => rfl⟩

theorem Sound.of_wakes {s : ProbeFeed} (h : Sound s) (hw : s.wakes = true) : s.woken = false := by
  refine h.early (.inr ?_)
  unfold wakes at hw
  split at hw
  · exact ⟨_, ‹_›⟩
  · cases hw

/-- What came before the sleep is over is gone, or there is none. -/
structure Clear (s : ProbeFeed) : Prop where
  woken : s.woken = true
  inbound : ∀ a ∈ s.inbound, a.fresh = true
  sent : ∀ a ∈ s.sent, a.fresh = true

theorem step_clear (s : ProbeFeed) (act : FeedAct) (h : Clear s) : Clear (s.step act) := by
  cases act with
  | arrive frame =>
    refine ⟨h.woken, fun a ha => ?_, h.sent⟩
    rcases List.mem_append.1 ha with ha | ha
    · exact h.inbound a ha
    · rw [List.mem_singleton.1 ha]
      exact h.woken
  | send =>
    rw [step]
    split
    · rename_i a rest hq
      have hin := h.inbound
      rw [hq] at hin
      split
      · refine ⟨h.woken, fun b hb => hin b (List.mem_cons_of_mem a hb), fun b hb => ?_⟩
        rcases List.mem_append.1 hb with hb | hb
        · exact h.sent b hb
        · rw [List.mem_singleton.1 hb]
          exact hin a List.mem_cons_self
      · exact h
    · exact h
  | wake =>
    rw [step]
    split
    · exact ⟨rfl, h.inbound, h.sent⟩
    · exact h
  | create | commit | ask =>
    rw [step]
    split <;> exact ⟨h.woken, h.inbound, h.sent⟩
  | pass dt => exact ⟨h.woken, h.inbound, h.sent⟩
  | cancel => exact ⟨h.woken, h.inbound, h.sent⟩

theorem Clear.judgesReply {s : ProbeFeed} (h : Clear s) (hs : Sound s) : s.JudgesReply := by
  refine ⟨h.sent, fun hm => ?_⟩
  rw [List.filter_eq_self.2 h.sent, ← hs.drained]
  exact hs.committed hm

/-- With nothing to listen for nothing is sent. -/
structure Idle (s : ProbeFeed) : Prop where
  listenS : s.listenS ≤ 0
  drained : s.drained = 0
  sent : s.sent = []

theorem step_idle (s : ProbeFeed) (act : FeedAct) (h : Idle s) : Idle (s.step act) := by
  cases act with
  | send =>
    rw [step]
    split
    · rw [if_neg (by rw [h.drained]; exact fun hc => absurd hc.2 (not_lt.2 h.listenS))]
      exact h
    · exact h
  | create | wake | commit | ask =>
    rw [step]
    split <;> exact ⟨h.listenS, h.drained, h.sent⟩
  | arrive | pass | cancel => exact ⟨h.listenS, h.drained, h.sent⟩

theorem Idle.judgesReply {s : ProbeFeed} (h : Idle s) : s.JudgesReply :=
  ⟨by simp [h.sent], fun _ => by rw [h.sent]; simpa [seconds] using h.listenS⟩

@[simp] theorem step_listenS (s : ProbeFeed) (act : FeedAct) : (s.step act).listenS = s.listenS := by
  cases act <;> simp only [step] <;> repeat' split
  all_goals rfl

theorem exec_listenS (s : ProbeFeed) (acts : List FeedAct) : (Run.exec step s acts).listenS = s.listenS :=
  Run.exec_inv (I := fun t => t.listenS = s.listenS) (fun t act h => (t.step_listenS act).trans h) acts s rfl

theorem JudgesReply.asleep {s : ProbeFeed} (hs : Sound s) (h : s.woken = false) : s.JudgesReply := by
  obtain ⟨h1, h2, -⟩ := hs.asleep h
  exact ⟨by simp [h1], by simp [h2]⟩

/-- The first frame sent is the first that was queued. -/
theorem step_wake_send {s : ProbeFeed} (hs : Sound s) (hw : s.wakes = true) (hl : 0 < s.listenS) {a : Arrival}
    {rest : List Arrival} (hq : s.inbound = a :: rest) : ¬ (Run.exec step (s.step .wake) [.send]).JudgesReply := by
  obtain ⟨h1, -, -, -, h5⟩ := hs.asleep (hs.of_wakes hw)
  have hd : s.drained < s.listenS := by
    rw [hs.drained, h1]
    simpa [seconds] using hl
  intro hj
  have hfresh := hj.1 a (by simp [step, hw, hq, hd])
  rw [h5 a (by simp [hq])] at hfresh
  cases hfresh

/-- **`judgesReply_iff`**: until the sleep is over nothing is sent; and for every schedule of arrivals up to then, the
model judges the reply alone in all that can follow exactly when the queue is empty at that moment (or there is
nothing to listen for). -/
theorem judgesReply_iff (listenS : ℚ) (acts : List FeedAct) :
    let s := Run.exec step { listenS } acts
    (s.woken = false → s.JudgesReply) ∧
    (s.wakes = true →
      ((∀ acts', (Run.exec step (s.step .wake) acts').JudgesReply) ↔ s.inbound = [] ∨ listenS ≤ 0)) := by
  intro s
  have hs : Sound s := Run.exec_inv step_sound acts _ (new_sound listenS)
  have hls : s.listenS = listenS := exec_listenS _ acts
  refine ⟨JudgesReply.asleep hs, fun hw => ⟨fun h => ?_, fun h acts' => ?_⟩⟩
  · by_contra hn
    obtain ⟨hq, hl⟩ := not_or.1 hn
    obtain ⟨a, rest, hq⟩ := List.exists_cons_of_ne_nil hq
    exact step_wake_send hs hw (by rw [hls]; exact not_le.1 hl) hq (h [.send])
  · have hs' : Sound (Run.exec step (s.step .wake) acts') := Run.exec_inv step_sound acts' _ (step_sound s .wake hs)
    have hsent := (hs.asleep (hs.of_wakes hw)).1
    rcases h with hq | hl
    · have hc : Clear (s.step .wake) := by
        rw [step, if_pos hw]
        exact ⟨rfl, by simp [hq], by simp [hsent]⟩
      exact (Run.exec_inv step_clear acts' _ hc).judgesReply hs'
    · have hi : Idle (s.step .wake) := by
        rw [step, if_pos hw]
        exact ⟨by rw [← hls] at hl; exact hl, by rw [hs.drained, hsent]; rfl, hsent⟩
      exact (Run.exec_inv step_idle acts' _ hi).judgesReply

/-- The line is silent through the greeting. -/
theorem judgesReply_silent (acts' : List FeedAct) :
    (Run.exec step ((Run.exec step {} [.create, .pass 2]).step .wake) acts').JudgesReply :=
  ((judgesReply_iff 4 [.create, .pass 2]).2 (by decide +kernel)).2 (.inl (by decide +kernel)) acts'

/-- The line goes on at 20 ms a frame through the greeting and after it. -/
def talksOver : List FeedAct :=
  let frames := (List.replicate 100 [.arrive (List.replicate 160 0xFF), .pass (1 / 50)]).flatten
  .create :: frames ++ .wake :: frames ++ List.replicate 200 .send ++ [.commit]

/-- Half of what the model is asked to judge was said before. -/
theorem talksOver_judges : let s := Run.exec step {} talksOver
    .commit ∈ s.wire ∧ seconds s.sent = 4 ∧ seconds (s.sent.filter (·.fresh)) = 2 ∧ ¬ s.JudgesReply := by
  decide +kernel

end ProbeFeed

end DialPass
