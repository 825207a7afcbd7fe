import DialPass.Session.Clock
/-!
# The audio a tick hears (buffer.py:8-27, session.py:123-153)

The buffer is cut on every write and sliced again on every tick. Both slices count from the end, so both
commute with the writes to come (`rtake_append_rtake`), and what is left is one slice of the whole stream.
-/

namespace List

variable {α : Type*}

theorem length_rtake (xs : List α) (n : Nat) : (xs.rtake n).length = min n xs.length := by
  simp [rtake_eq_reverse_take_reverse]

theorem rtake_rtake (xs : List α) (m n : Nat) : (xs.rtake n).rtake m = xs.rtake (min m n) := by
  simp [rtake_eq_reverse_take_reverse, List.take_take]

/-- Cutting before more is appended makes no difference to the last `n`. -/
theorem rtake_append_rtake (xs ys : List α) (n : Nat) : (xs.rtake n ++ ys).rtake n = (xs ++ ys).rtake n := by
  simp only [rtake_eq_reverse_take_reverse, reverse_append, reverse_reverse, take_append, take_take]
  rw [min_eq_left (Nat.sub_le n _)]

theorem rtake_min_length (xs : List α) (n : Nat) : xs.rtake (min n xs.length) = xs.rtake n := by
  rcases le_total n xs.length with h | h
  · rw [min_eq_left h]
  · rw [min_eq_right h, rtake, rtake, Nat.sub_self, Nat.sub_eq_zero_of_le h]

end List

namespace DialPass

/-- A slice from `-n`, for `n` at least one, is the last `n`. -/
theorem pySlice_neg {α : Type} (xs : List α) {n : Int} (h : 1 ≤ n) : pySlice xs (-n) = xs.rtake n.toNat := by
  rw [pySlice, if_pos (by omega), List.rtake]
  congr 1
  omega

/-- What the buffer holds, in samples (buffer.py:10). -/
def Settings.capacity (cfg : Settings) : Int := (RollingBuffer.new cfg.bufferSeconds sampleRate).max

/-- The analysis window in samples (buffer.py:20). -/
def Settings.windowSamples (cfg : Settings) : Int := Int.tdiv (sampleRate * cfg.classifyWindowMs) 1000

namespace AgentSession

/-- The audio of a run, in order. -/
def Move.audio : Move → Pcm
  | .ingest pcm => pcm
  | _ => []

def fed (ms : List Move) : Pcm := ms.flatMap Move.audio

variable {s : AgentSession}

/-- A tick hands the classifier the window, once and before anything else, and submits only the buffer. -/
theorem tick_hears (ht : s.Ticks) (i : Tick) : ∃ es, (step s (.tick i)).trace =
      s.trace ++ .classify { pcm := s.window, sampleRate, tStart := s.nextClassifyAt } :: es ∧
    (∀ f, .classify f ∉ es) ∧ ∀ j, .submit j ∈ es → j.snap = s.buffer.snapshot := by
  obtain ⟨es, htr, hes⟩ := (s.runTick_still s.nextClassifyAt i).trace
  obtain ⟨clk, heq⟩ := loopPass_ticks ht i
  refine ⟨es, ?_, fun f hf => hes _ hf, fun j hj => hes _ hj⟩
  rw [step, heq]
  exact htr.trans (by simp [heard])

/-- A move classifies only the window, and submits only the buffer, of a session that goes on. -/
theorem step_hears (s : AgentSession) (m : Move) : ∃ es, (step s m).trace = s.trace ++ es ∧
    (∀ f, .classify f ∈ es → s.finished = false ∧ f.pcm = s.window) ∧
    ∀ j, .submit j ∈ es → s.finished = false ∧ j.snap = s.buffer.snapshot := by
  cases m with
  | ingest pcm => exact ⟨[], by simp [step, s.ingest_fields pcm], by simp, by simp⟩
  | tick i =>
    by_cases ht : s.Ticks
    · obtain ⟨es, htr, hcls, hsub⟩ := tick_hears ht i
      refine ⟨_, htr, ?_, ?_⟩
      · intro f hf
        rcases List.mem_cons.1 hf with hf | hf
        · cases hf
          exact ⟨ht.1.1, rfl⟩
        · exact absurd hf (hcls f)
      · intro j hj
        rcases List.mem_cons.1 hj with hj | hj
        · cases hj
        · exact ⟨ht.1.1, hsub j hj⟩
    · exact ⟨[], by simp [step, loopPass_rests ht], by simp, by simp⟩
  | abort reason =>
    simp only [step, abort]
    split
    · exact ⟨[], by simp, by simp, by simp⟩
    · rw [fail_eq]
      exact ⟨_, rfl, by simp, by simp⟩

/-- The buffer holds the last of the audio, as much as it can. -/
structure Rolls (cfg : Settings) (audio : Pcm) (s : AgentSession) : Prop where
  settings : s.settings = cfg
  max : s.buffer.max = cfg.capacity
  rate : s.buffer.rate = sampleRate
  bounded : s.buffer.data.length ≤ cfg.capacity.toNat
  data : s.finished = false → s.buffer.data = audio.rtake cfg.capacity.toNat

theorem new_rolls (callId : String) (settings : Settings) (cfg : FsmConfig) (goal sid : Option String) :
    Rolls settings [] (new callId settings cfg goal sid) :=
  ⟨rfl, rfl, rfl, Nat.zero_le _, fun _ => by simp [new, RollingBuffer.new]⟩

theorem Rolls.of_fields {cfg : Settings} {audio : Pcm} {t : AgentSession} (h : Rolls cfg audio s)
    (hset : t.settings = s.settings) (hb : t.buffer = s.buffer) (hf : t.finished = false → s.finished = false) :
    Rolls cfg audio t :=
  ⟨hset.trans h.settings, by rw [hb]; exact h.max, by rw [hb]; exact h.rate, by rw [hb]; exact h.bounded,
    fun ht => by rw [hb]; exact h.data (hf ht)⟩

theorem ingest_rolls {cfg : Settings} (hcap : 1 ≤ cfg.capacity) {audio : Pcm} (h : Rolls cfg audio s) (pcm : Pcm) :
    Rolls cfg (audio ++ pcm) (s.ingest pcm) := by
  cases hf : s.finished with
  | true =>
    have hing : s.ingest pcm = s := by simp [ingest, hf]
    rw [hing]
    exact ⟨h.settings, h.max, h.rate, h.bounded, fun h0 => by rw [hf] at h0; cases h0⟩
  | false =>
    have hb : (s.ingest pcm).buffer = s.buffer.write pcm := by
      unfold ingest
      rw [if_neg (by simp [hf])]
      dsimp only
      split <;> rfl
    have hdata : (s.buffer.write pcm).data = (s.buffer.data ++ pcm).rtake cfg.capacity.toNat := by
      rw [RollingBuffer.write, h.max]
      exact pySlice_neg _ hcap
    refine ⟨(s.ingest_settings pcm).trans h.settings, ?_, ?_, ?_, fun _ => ?_⟩
    · rw [hb]; exact h.max
    · rw [hb]; exact h.rate
    · rw [hb, hdata, List.length_rtake]
      exact min_le_left _ _
    · rw [hb, hdata, h.data hf, List.rtake_append_rtake]

theorem step_rolls {cfg : Settings} (hcap : 1 ≤ cfg.capacity) {audio : Pcm} (h : Rolls cfg audio s) (m : Move) :
    Rolls cfg (audio ++ m.audio) (step s m) := by
  cases m with
  | ingest pcm => exact ingest_rolls hcap h pcm
  | tick i =>
    show Rolls cfg (audio ++ []) (s.loopPass i)
    rw [List.append_nil]
    by_cases ht : s.Ticks
    · have hp := loopPass_passed ht i
      exact h.of_fields hp.settings hp.buffer fun _ => ht.1.1
    · rw [loopPass_rests ht]
      exact h
  | abort reason =>
    show Rolls cfg (audio ++ []) (s.abort reason)
    rw [List.append_nil, abort]
    split
    · exact h
    · rw [fail_eq]
      exact h.of_fields rfl rfl (by simp)

theorem exec_rolls {cfg : Settings} (hcap : 1 ≤ cfg.capacity) (ms : List Move) {audio : Pcm}
    (h : Rolls cfg audio s) : Rolls cfg (audio ++ fed ms) (Run.exec step s ms) := by
  induction ms generalizing s audio with
  | nil => simpa [fed] using h
  | cons m ms ih =>
    rw [Run.exec_cons, fed, List.flatMap_cons, ← List.append_assoc]
    exact ih (step_rolls hcap h m)

/-- What the classifier is handed, as a slice of the audio. -/
theorem Rolls.window {cfg : Settings} {audio : Pcm} (h : Rolls cfg audio s) (hwin : 1 ≤ cfg.windowSamples)
    (hgo : s.finished = false) :
    s.window = audio.rtake (min cfg.windowSamples.toNat (min cfg.capacity.toNat audio.length)) := by
  have hslice : s.window = s.buffer.data.rtake cfg.windowSamples.toNat := by
    rw [AgentSession.window, RollingBuffer.tail, h.settings, h.rate]
    exact pySlice_neg _ hwin
  rw [hslice, h.data hgo, ← List.rtake_min_length audio cfg.capacity.toNat, List.rtake_rtake]

/-- **`hearsTail`**: at any capacity and window of at least one sample, after every run, the buffer is within its
capacity and, while the session goes on, holds the last of all the audio fed, however it was cut; a tick that is
due begins by handing the classifier exactly the last min(window, capacity, total) samples of it, and hands it
nothing else; and every snapshot a move submits to Tier 2 is the last min(capacity, total). -/
theorem hearsTail (callId : String) (settings : Settings) (cfg : FsmConfig) (goal sid : Option String)
    (hcap : 1 ≤ settings.capacity) (hwin : 1 ≤ settings.windowSamples) (ms : List Move) :
    let s := Run.exec step (new callId settings cfg goal sid) ms
    let cap := settings.capacity.toNat
    let total := (fed ms).length
    let heard := (fed ms).rtake (min settings.windowSamples.toNat (min cap total))
    let held := (fed ms).rtake (min cap total)
    s.buffer.data.length ≤ cap ∧
    (s.finished = false → s.buffer.data = held) ∧
    (∀ i, s.Due → ∃ es, (step s (.tick i)).trace =
        s.trace ++ .classify { pcm := heard, sampleRate, tStart := s.nextClassifyAt } :: es ∧
      ∀ f, .classify f ∉ es) ∧
    ∀ m, ∃ es, (step s m).trace = s.trace ++ es ∧ (∀ f, .classify f ∈ es → f.pcm = heard) ∧
      ∀ j, .submit j ∈ es → j.snap = held := by
  intro s cap total heard held
  have h : Rolls settings (fed ms) s := exec_rolls hcap ms (new_rolls callId settings cfg goal sid)
  have hs : Sound s := Run.exec_inv step_sound ms _ (new_sound callId settings cfg goal sid)
  have hdata : s.finished = false → s.buffer.data = held := fun hf => by
    rw [show held = (fed ms).rtake cap from List.rtake_min_length _ _]
    exact h.data hf
  refine ⟨h.bounded, hdata, fun i hd => ?_, fun m => ?_⟩
  · obtain ⟨es, htr, hcls, -⟩ := tick_hears ⟨hd, hs.alive⟩ i
    rw [h.window hwin hd.1] at htr
    exact ⟨es, htr, hcls⟩
  · obtain ⟨es, htr, hcls, hsub⟩ := step_hears s m
    refine ⟨es, htr, fun f hf => ?_, fun j hj => ?_⟩
    · obtain ⟨hgo, hw⟩ := hcls f hf
      exact hw.trans (h.window hwin hgo)
    · obtain ⟨hgo, hsnap⟩ := hsub j hj
      exact hsnap.trans (hdata hgo)

/-- A buffer of 16 samples and a window of 8; the menu is read as soon as it is heard. -/
def tight : Settings := { bufferSeconds := 1 / 500, classifyWindowMs := 1, menuCollectS := 0 }

/-- 20 samples at once, an empty chunk, and 3 samples more. -/
def threeChunks : List Move := [.ingest ((List.range 20).map (Int16.ofNat ·)), .ingest [], .ingest [20, 21, 22]]

/-- The tick hears the last 8 samples, and the menu read it starts gets the last 16. -/
theorem hearsTail_tight :
    let s := Run.exec step (new "CA1" tight { enterMenuFrames := 1 } none none) threeChunks
    let i : Tick := { cls := { label := .liveSpeechCandidate, confidence := 1 } }
    s.buffer.data = [7, 8, 9, 10, 11, 12, 13, 14, 15, 16, 17, 18, 19, 20, 21, 22] ∧
    (∃ es, (step s (.tick i)).trace =
      .classify { pcm := [15, 16, 17, 18, 19, 20, 21, 22], sampleRate, tStart := 0 } :: es) ∧
    ∃ j, .submit j ∈ (step s (.tick i)).trace ∧ j.snap = s.buffer.data := by
  intro s i
  obtain ⟨-, hdata, htick, hmove⟩ := hearsTail "CA1" tight { enterMenuFrames := 1 } none none
    (by decide +kernel) (by decide +kernel) threeChunks
  have hnew : s.trace = [] := by decide +kernel
  have hstart : s.nextClassifyAt = 0 := by decide +kernel
  have hheard : (fed threeChunks).rtake (min tight.windowSamples.toNat (min tight.capacity.toNat
      (fed threeChunks).length)) = [15, 16, 17, 18, 19, 20, 21, 22] := by decide +kernel
  obtain ⟨es, htr, -⟩ := htick i (by decide +kernel)
  obtain ⟨fs, hfs, -, hsub⟩ := hmove (.tick i)
  obtain ⟨j, hj⟩ : ∃ j, .submit j ∈ (step s (.tick i)).trace :=
    ⟨{ kind := .menu, snap := s.buffer.data }, by decide +kernel⟩
  refine ⟨by decide +kernel, ⟨es, ?_⟩, j, hj, ?_⟩
  · rw [htr, hheard, hstart, hnew]
    rfl
  · rw [hfs, hnew] at hj
    exact (hsub j hj).trans (hdata (by decide +kernel)).symm

end AgentSession

end DialPass
