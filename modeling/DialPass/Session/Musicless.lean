import DialPass.Session.Reading
import DialPass.Lib.Until
/-!
# A queue without music (state.py:195-213, state.py:256-299)

A round is a run of silence and a run of speech after it, long enough for the gap, for the deferred wake and for
the speech that ends the menu. `Until` takes a session through rounds of frames, whichever way they are heard
(`Hears`), and `Variant` counts the rounds still needed. It comes down in one of three ways: enough reads have
abstained (`round_ends`), a key may still be pressed and so the menu is read again (`round_reads`), or a read is
still to come from before (`round_waits`). With none of them left the session is `Stuck`.

* **`queued_iff`** — when the call leaves IVR_MENU after finitely many rounds.
-/

namespace DialPass

/-- A run of silence, and a run of speech after it. -/
structure Round where
  silence : Nat
  speech : Nat

namespace Round

/-- The frames of a round. -/
def labels (r : Round) : List Label :=
  List.replicate r.silence .silence ++ List.replicate r.speech .liveSpeechCandidate

/-- The silence is a gap, and the speech covers the collect delay, from the second frame on, and ends the menu. -/
structure Long (settings : Settings) (cfg : FsmConfig) (r : Round) : Prop where
  silent : 1 ≤ r.silence
  gap : cfg.menuGapFrames ≤ r.silence
  spoken : 2 ≤ r.speech
  collect : settings.menuCollectS ≤ (r.speech - 2 : ℚ) * settings.interval
  hold : cfg.menuSpeechToHoldFrames ≤ r.speech

theorem long_exists {settings : Settings} (hi : 0 < settings.interval) (cfg : FsmConfig) :
    ∃ r : Round, r.Long settings cfg := by
  set k : Nat := ⌈settings.menuCollectS / settings.interval⌉₊
  refine ⟨⟨1 + cfg.menuGapFrames, 2 + k + cfg.menuSpeechToHoldFrames⟩, by simp, by simp, by simp [add_assoc], ?_, by simp⟩
  have hk : settings.menuCollectS ≤ k * settings.interval := (div_le_iff₀ hi).1 (Nat.le_ceil _)
  have hh : (0 : ℚ) ≤ cfg.menuSpeechToHoldFrames * settings.interval := by positivity
  push_cast
  linarith

end Round

namespace CallStateMachine

theorem lt_runOf {m : CallStateMachine} {label : Label} {k : Nat} (h : k = 0 ∨ m.streakLabel = some label ∧ k ≤ m.streak) :
    k < m.runOf label := by
  rcases h with rfl | ⟨hl, hk⟩
  · unfold runOf; split <;> simp
  · rw [runOf, if_pos hl]
    exact Nat.lt_succ_of_le hk

end CallStateMachine

namespace AgentSession

variable {s t : AgentSession} {settings : Settings} {cfg : FsmConfig}

/-- However the rounds are heard, `K` of them take the call from IVR_MENU to ON_HOLD. -/
def Queued (s : AgentSession) : Prop :=
  ∃ K, ∀ rounds : List Round, rounds.length = K → (∀ r ∈ rounds, r.Long s.settings s.fsm.cfg) →
    Run.Until Hears (·.fsm.state = .onHold) (fun _ => False) (rounds.flatMap Round.labels) s

/-- A session of this configuration that waits. -/
structure WaitsIn (settings : Settings) (cfg : FsmConfig) (s : AgentSession) : Prop extends Waiting s where
  ofSettings : s.settings = settings
  ofCfg : s.fsm.cfg = cfg

section Heard
variable {label : Label} {gap : Bool} {due : Option ℚ} {now : ℚ}

theorem Heard.waitsIn (h : Heard label gap due now s t) (hw : WaitsIn settings cfg s) : WaitsIn settings cfg t :=
  ⟨h.waiting, h.settings.trans hw.ofSettings, h.cfg.trans hw.ofCfg⟩

theorem Heard.noops_le (h : Heard label gap due now s t) : s.fsm.menuNoops ≤ t.fsm.menuNoops := by
  rcases h.wake with ⟨-, -, -, -, hn⟩ | ⟨-, -, hn⟩ <;> omega

theorem Heard.next_le (h : Heard label gap due now s t) (hw : WaitsIn settings cfg s) (hnow : s.nextClassifyAt ≤ now) :
    s.nextClassifyAt + settings.interval ≤ t.nextClassifyAt := by
  rw [h.next, hw.ofSettings]
  linarith

end Heard

/-- A frame of a round leaves the menu, or the session waits on; a wake is overwritten only by a read asked for. -/
theorem hears_frame (hw : WaitsIn settings cfg s) {label : Label} (hl : label = .silence ∨ label = .liveSpeechCandidate)
    (hh : Hears label s t) :
    t.fsm.state = .onHold ∨ ∃ now gap due, s.nextClassifyAt ≤ now ∧ Heard label gap due now s t ∧
      (¬ s.fsm.Asks → due = s.menuWakeDue) := by
  rcases hl with rfl | rfl
  · rcases hears_silence hw.toWaiting hh with ⟨-, ht⟩ | ⟨-, now, hnow, ht⟩
    · exact .inl ht
    · exact .inr ⟨now, _, _, hnow, ht, fun _ => rfl⟩
  · rcases hears_speech hw.toWaiting hh with ⟨-, ht⟩ | ⟨-, now, hnow, ⟨ha, ht⟩ | ⟨-, ht⟩⟩
    · exact .inl ht
    · exact .inr ⟨now, _, _, hnow, ht, fun hn => absurd ha hn⟩
    · exact .inr ⟨now, _, _, hnow, ht, fun _ => rfl⟩

/-- A round, by what `k` frames of its silence keep up (`I k`), and then `k` frames of its speech (`J k`). -/
theorem round_until {I J : Nat → AgentSession → Prop} (r : Round)
    (hsilence : ∀ k s t, I k s → Hears .silence s t → t.fsm.state = .onHold ∨ I (k + 1) t)
    (hturn : ∀ s, I r.silence s → J 0 s)
    (hspeech : ∀ k s t, J k s → Hears .liveSpeechCandidate s t → t.fsm.state = .onHold ∨ J (k + 1) t) (h : I 0 s) :
    Run.Until Hears (·.fsm.state = .onHold) (J r.speech) r.labels s := by
  have hfirst := Run.Until.replicate (n := r.silence) (fun k _ => hsilence k) h
  exact (hfirst.mono fun s hs => Run.Until.replicate (fun k _ => hspeech k) (hturn s hs)).append

/-! ## Enough reads have abstained -/

/-- Enough reads have abstained, and `k` frames of speech have not been enough to leave. -/
def Ending (settings : Settings) (cfg : FsmConfig) (k : Nat) (s : AgentSession) : Prop :=
  WaitsIn settings cfg s ∧ cfg.menuNoopsBeforeHold ≤ s.fsm.menuNoops ∧
    (k = 0 ∨ s.fsm.streakLabel = some .liveSpeechCandidate ∧ k ≤ s.fsm.streak ∧ s.fsm.streak < cfg.menuSpeechToHoldFrames)

theorem ending_step {k : Nat} (h : Ending settings cfg k s) (hh : Hears .liveSpeechCandidate s t) :
    t.fsm.state = .onHold ∨ Ending settings cfg (k + 1) t := by
  obtain ⟨hw, hn, hk⟩ := h
  have hrun : k < s.fsm.runOf .liveSpeechCandidate := CallStateMachine.lt_runOf (hk.imp_right fun h => ⟨h.1, h.2.1⟩)
  rcases hears_speech hw.toWaiting hh with ⟨-, ht⟩ | ⟨he, now, -, ht⟩
  · exact .inl ht
  · obtain ⟨gap, due, ht⟩ : ∃ gap due, Heard .liveSpeechCandidate gap due now s t := by
      rcases ht with ⟨-, ht⟩ | ⟨-, ht⟩
      · exact ⟨_, _, ht⟩
      · exact ⟨_, _, ht⟩
    have hshort : s.fsm.runOf .liveSpeechCandidate < cfg.menuSpeechToHoldFrames := by
      rw [CallStateMachine.Ends, hw.ofCfg] at he
      exact not_le.1 fun hle => he ⟨hn, hle⟩
    exact .inr ⟨ht.waitsIn hw, hn.trans ht.noops_le, .inr ⟨ht.streakLabel, by rw [ht.streak]; exact hrun,
      by rw [ht.streak]; exact hshort⟩⟩

theorem round_ends {r : Round} (hr : r.Long settings cfg) (hw : WaitsIn settings cfg s)
    (hn : cfg.menuNoopsBeforeHold ≤ s.fsm.menuNoops) :
    Run.Until Hears (·.fsm.state = .onHold) (fun _ => False) r.labels s := by
  refine (round_until (I := fun _ => Ending settings cfg 0) (J := Ending settings cfg) r (fun _ s t h hh => ?_)
    (fun _ h => h) (fun _ _ _ => ending_step) ⟨hw, hn, .inl rfl⟩).mono fun t ⟨_, _, hk⟩ => ?_
  · rcases hears_frame h.1 (.inl rfl) hh with ht | ⟨now, gap, due, -, ht, -⟩
    · exact .inl ht
    · exact .inr ⟨ht.waitsIn h.1, h.2.1.trans ht.noops_le, .inl rfl⟩
  · have hlong := hr.hold
    have hspoken := hr.spoken
    omega

/-! ## The menu is read again -/

/-- A key may still be pressed, and `noops` reads have abstained. -/
structure Navigable (settings : Settings) (cfg : FsmConfig) (noops : Nat) (s : AgentSession) : Prop
    extends WaitsIn settings cfg s where
  presses : s.fsm.menuPresses < cfg.maxMenuPresses
  noops : noops ≤ s.fsm.menuNoops

theorem Heard.navigable {label : Label} {gap : Bool} {due : Option ℚ} {now : ℚ} {noops : Nat}
    (h : Heard label gap due now s t) (hs : Navigable settings cfg noops s) : Navigable settings cfg noops t :=
  ⟨h.waitsIn hs.toWaitsIn, by rw [h.presses]; exact hs.presses, hs.noops.trans h.noops_le⟩

/-- `k` frames of silence. -/
def Pausing (settings : Settings) (cfg : FsmConfig) (noops k : Nat) (s : AgentSession) : Prop :=
  Navigable settings cfg noops s ∧
    (k = 0 ∨ s.fsm.streakLabel = some .silence ∧ k ≤ s.fsm.streak ∧
      (cfg.menuGapFrames ≤ k → s.fsm.menuGapSeen = true))

/-- The read comes within the collect delay, `k` frames of which have passed. -/
def Collecting (settings : Settings) (k : Nat) (s : AgentSession) : Prop :=
  ∃ d, s.menuWakeDue = some d ∧ s.nextClassifyAt - settings.interval < d ∧
    d + k * settings.interval ≤ s.nextClassifyAt + settings.menuCollectS

/-- `k` frames of speech after a gap: the second one asks for a read. -/
def Speaking (settings : Settings) (cfg : FsmConfig) (noops k : Nat) (s : AgentSession) : Prop :=
  Navigable settings cfg noops s ∧
    match k with
    | 0 => s.fsm.streakLabel = some .silence ∧ s.fsm.menuGapSeen = true
    | 1 => s.fsm.streakLabel = some .liveSpeechCandidate ∧ s.fsm.streak = 1 ∧ s.fsm.menuGapSeen = true
    | k + 2 => s.fsm.menuGapSeen = false ∧ (noops + 1 ≤ s.fsm.menuNoops ∨ Collecting settings (k + 1) s)

theorem pausing_step {noops k : Nat} (h : Pausing settings cfg noops k s) (hh : Hears .silence s t) :
    t.fsm.state = .onHold ∨ Pausing settings cfg noops (k + 1) t := by
  obtain ⟨hs, hk⟩ := h
  have hrun : k < s.fsm.runOf .silence := CallStateMachine.lt_runOf (hk.imp_right fun h => ⟨h.1, h.2.1⟩)
  rcases hears_silence hs.toWaiting hh with ⟨-, ht⟩ | ⟨-, now, -, ht⟩
  · exact .inl ht
  · refine .inr ⟨ht.navigable hs, .inr ⟨ht.streakLabel, ?_, fun hg => ?_⟩⟩
    · rw [ht.streak]
      exact hrun
    · have hseen : s.fsm.cfg.menuGapFrames ≤ s.fsm.runOf .silence := by rw [hs.ofCfg]; omega
      rw [ht.gapSeen]
      simp [hseen]

/-- A read asked for comes back in the same tick, or is awaited from then on. -/
theorem Heard.asked {label : Label} {gap : Bool} {now : ℚ} {noops : Nat} (hs : Navigable settings cfg noops s)
    (h : Heard label gap (some (now + s.settings.menuCollectS)) now s t) :
    noops + 1 ≤ t.fsm.menuNoops ∨ Collecting settings 1 t := by
  rcases h.wake with ⟨-, -, -, -, hread⟩ | ⟨hlt, hdue, -⟩
  · have := hs.noops
    exact .inl (by omega)
  · have hlater := hlt _ rfl
    refine .inr ⟨_, hdue, ?_, ?_⟩
    · rw [h.next]
      rw [hs.ofSettings] at hlater ⊢
      linarith
    · rw [h.next, hs.ofSettings]
      push_cast
      linarith

/-- A read that is awaited comes back, or is closer by a frame. -/
theorem Heard.collecting {label : Label} {gap : Bool} {now : ℚ} {noops k : Nat} (hs : Navigable settings cfg noops s)
    (hnow : s.nextClassifyAt ≤ now) (h : Heard label gap s.menuWakeDue now s t) (hc : Collecting settings k s) :
    noops + 1 ≤ t.fsm.menuNoops ∨ Collecting settings (k + 1) t := by
  obtain ⟨d, hd, -, hafter⟩ := hc
  rcases h.wake with ⟨-, -, -, -, hread⟩ | ⟨hlt, hdue, -⟩
  · have := hs.noops
    exact .inl (by omega)
  · have hlater := hlt d hd
    refine .inr ⟨d, hdue.trans hd, ?_, ?_⟩
    · rw [h.next, hs.ofSettings]
      linarith
    · rw [h.next, hs.ofSettings]
      push_cast
      linarith

theorem speaking_step {noops k : Nat} (h : Speaking settings cfg noops k s) (hh : Hears .liveSpeechCandidate s t) :
    t.fsm.state = .onHold ∨ Speaking settings cfg noops (k + 1) t := by
  obtain ⟨hs, hk⟩ := h
  rcases hears_speech hs.toWaiting hh with ⟨-, ht⟩ | ⟨-, now, hnow, ht⟩
  · exact .inl ht
  rcases k with _ | _ | k
  · -- the first frame is no prompt yet
    have hrun : s.fsm.runOf .liveSpeechCandidate = 1 := by
      rw [CallStateMachine.runOf, hk.1, if_neg (by decide)]
    obtain ⟨-, ht⟩ := ht.resolve_left fun ha => by
      have := ha.1.2.1
      omega
    exact .inr ⟨ht.navigable hs, ht.streakLabel, ht.streak.trans hrun, ht.gapSeen.trans hk.2⟩
  · -- the second is one
    have hrun : s.fsm.runOf .liveSpeechCandidate = 2 := by
      rw [CallStateMachine.runOf, hk.1, if_pos rfl, hk.2.1]
    obtain ⟨-, ht⟩ := ht.resolve_right fun ha => ha.1 ⟨hk.2.2, hrun.ge, by rw [hs.ofCfg]; exact hs.presses⟩
    exact .inr ⟨ht.navigable hs, ht.gapSeen, ht.asked hs⟩
  · -- without a gap no other read is asked for, so this one comes
    obtain ⟨-, ht⟩ := ht.resolve_left fun ha => by
      have := ha.1.1
      rw [hk.1] at this
      cases this
    refine .inr ⟨ht.navigable hs, ht.gapSeen.trans hk.1, ?_⟩
    rcases hk.2 with hread | hc
    · exact .inl (hread.trans ht.noops_le)
    · exact ht.collecting hs hnow hc

theorem round_reads {r : Round} (hr : r.Long settings cfg) {noops : Nat} (hs : Navigable settings cfg noops s) :
    Run.Until Hears (·.fsm.state = .onHold) (Navigable settings cfg (noops + 1)) r.labels s := by
  refine (round_until (I := Pausing settings cfg noops) (J := Speaking settings cfg noops) r
    (fun _ _ _ => pausing_step) (fun t ⟨ht, hk⟩ => ?_) (fun _ _ _ => speaking_step) ⟨hs, .inl rfl⟩).mono fun t h => ?_
  · have hsilent := hr.silent
    obtain ⟨hl, -, hg⟩ := hk.resolve_left (by omega)
    exact ⟨ht, hl, hg hr.gap⟩
  · obtain ⟨k, hk⟩ := Nat.exists_eq_add_of_le' hr.spoken
    rw [hk] at h
    obtain ⟨ht, -, hread | ⟨d, -, hbefore, hafter⟩⟩ := h
    · exact ⟨ht.toWaitsIn, ht.presses, hread⟩
    · have hcollect := hr.collect
      rw [hk] at hcollect
      push_cast at hcollect hafter
      linarith

/-! ## A read is still to come -/

/-- No key may be pressed any more, and the read that is due at `d` abstains within time. -/
def Pending (settings : Settings) (cfg : FsmConfig) (d start : ℚ) (k : Nat) (s : AgentSession) : Prop :=
  WaitsIn settings cfg s ∧ cfg.maxMenuPresses ≤ s.fsm.menuPresses ∧
    (cfg.menuNoopsBeforeHold ≤ s.fsm.menuNoops ∨
      cfg.menuNoopsBeforeHold ≤ s.fsm.menuNoops + 1 ∧ s.menuWakeDue = some d ∧
        start + k * settings.interval ≤ s.nextClassifyAt ∧ (k = 0 ∨ s.nextClassifyAt - settings.interval < d))

theorem pending_step {d start : ℚ} {k : Nat} (h : Pending settings cfg d start k s) {label : Label}
    (hl : label = .silence ∨ label = .liveSpeechCandidate) (hh : Hears label s t) :
    t.fsm.state = .onHold ∨ Pending settings cfg d start (k + 1) t := by
  obtain ⟨hw, hp, hk⟩ := h
  have hasks : ¬ s.fsm.Asks := fun ha => by
    have := ha.2.2
    rw [hw.ofCfg] at this
    omega
  rcases hears_frame hw hl hh with ht | ⟨now, gap, due, hnow, ht, hdue⟩
  · exact .inl ht
  refine .inr ⟨ht.waitsIn hw, by rw [ht.presses]; exact hp, ?_⟩
  rcases hk with hn | ⟨hn, hd, hstart, -⟩
  · exact .inl (hn.trans ht.noops_le)
  · rw [hdue hasks] at ht
    rcases ht.wake with ⟨-, -, -, -, hread⟩ | ⟨hlt, hsame, hnoops⟩
    · exact .inl (by omega)
    · have hlater := hlt d hd
      have hnext := ht.next_le hw hnow
      refine .inr ⟨by omega, hsame.trans hd, ?_, .inr ?_⟩
      · push_cast
        linarith
      · rw [ht.next, hw.ofSettings]
        linarith

theorem round_waits {r : Round} (hr : r.Long settings cfg) (hw : WaitsIn settings cfg s) {d : ℚ}
    (hp : cfg.maxMenuPresses ≤ s.fsm.menuPresses) (hd : s.menuWakeDue = some d)
    (hn : cfg.menuNoopsBeforeHold ≤ s.fsm.menuNoops + 1) :
    Run.Until Hears (·.fsm.state = .onHold) (fun t => WaitsIn settings cfg t ∧
      cfg.maxMenuPresses ≤ t.fsm.menuPresses ∧ (cfg.menuNoopsBeforeHold ≤ t.fsm.menuNoops ∨
        cfg.menuNoopsBeforeHold ≤ t.fsm.menuNoops + 1 ∧ t.menuWakeDue = some d ∧
        s.nextClassifyAt + settings.interval ≤ t.nextClassifyAt ∧ s.nextClassifyAt < d)) r.labels s := by
  have hi := hw.forward
  rw [hw.ofSettings] at hi
  refine (round_until (I := Pending settings cfg d s.nextClassifyAt)
    (J := fun k => Pending settings cfg d s.nextClassifyAt (r.silence + k)) r
    (fun _ _ _ h => pending_step h (.inl rfl)) (fun _ h => h) (fun _ _ _ h => pending_step h (.inr rfl))
    ⟨hw, hp, .inr ⟨hn, hd, by simp, .inl rfl⟩⟩).mono fun t h => ?_
  obtain ⟨hw, hp, hk⟩ := h
  refine ⟨hw, hp, hk.imp_right fun ⟨hn, hd, hstart, hlater⟩ => ?_⟩
  have hsilent := hr.silent
  have hfar : settings.interval ≤ ((r.silence + r.speech : Nat) : ℚ) * settings.interval := by
    have hone : (1 : ℚ) ≤ (r.silence + r.speech : Nat) := by exact_mod_cast (by omega : 1 ≤ r.silence + r.speech)
    nlinarith
  have hlater := hlater.resolve_left (by omega)
  exact ⟨hn, hd, by linarith, by linarith⟩

/-! ## Every round brings the call closer -/

/-- `j` more rounds are enough. -/
def Variant (settings : Settings) (cfg : FsmConfig) : Nat → AgentSession → Prop
  | 0, _ => False
  | j + 1, s => WaitsIn settings cfg s ∧
      (cfg.menuNoopsBeforeHold ≤ s.fsm.menuNoops ∨
       (s.fsm.menuPresses < cfg.maxMenuPresses ∧ cfg.menuNoopsBeforeHold ≤ s.fsm.menuNoops + j) ∨
       (cfg.maxMenuPresses ≤ s.fsm.menuPresses ∧ cfg.menuNoopsBeforeHold ≤ s.fsm.menuNoops + 1 ∧
         ∃ d i, j = i + 1 ∧ s.menuWakeDue = some d ∧ d ≤ s.nextClassifyAt + i * settings.interval))

theorem variant_round {r : Round} (hr : r.Long settings cfg) (j : Nat) (h : Variant settings cfg (j + 1) s) :
    Run.Until Hears (·.fsm.state = .onHold) (Variant settings cfg j) r.labels s := by
  obtain ⟨hw, hcase⟩ := h
  by_cases hn : cfg.menuNoopsBeforeHold ≤ s.fsm.menuNoops
  · exact (round_ends hr hw hn).mono fun _ => False.elim
  rcases hcase.resolve_left hn with ⟨hp, hnj⟩ | ⟨hp, hone, d, i, rfl, hd, hle⟩
  · obtain ⟨j, rfl⟩ : ∃ i, j = i + 1 := Nat.exists_eq_succ_of_ne_zero (by rintro rfl; exact hn hnj)
    refine (round_reads hr ⟨hw, hp, le_rfl⟩).mono fun t ht => ⟨ht.toWaitsIn, .inr (.inl ⟨ht.presses, ?_⟩)⟩
    have := ht.noops
    omega
  · refine (round_waits hr hw hp hd hone).mono fun t ⟨hwt, hpt, hnt⟩ => ⟨hwt, ?_⟩
    rcases hnt with hnt | ⟨hnt, hdt, hnext, hlt⟩
    · exact .inl hnt
    · -- the wake has not fired yet, so it was not due when the round began
      obtain ⟨i, rfl⟩ : ∃ j, i = j + 1 := by
        refine Nat.exists_eq_succ_of_ne_zero ?_
        rintro rfl
        simp only [Nat.cast_zero, zero_mul, add_zero] at hle
        exact absurd hlt (not_lt.2 hle)
      refine .inr (.inr ⟨hpt, hnt, d, i, rfl, hdt, ?_⟩)
      push_cast at hle
      linarith

theorem queued_of_variant {K : Nat} (h : Variant s.settings s.fsm.cfg K s) : Queued s := by
  refine ⟨K, fun rounds hlen hlong => ?_⟩
  rw [List.flatMap_def]
  refine Run.Until.variant (V := Variant s.settings s.fsm.cfg) (fun labels hl j t ht => ?_) (fun _ => id)
    (by rw [List.length_map, hlen]; exact h)
  obtain ⟨r, hr, rfl⟩ := List.mem_map.1 hl
  exact variant_round (hlong r hr) j ht

/-! ## What keeps the call in the menu -/

/-- The call is over, or no key may be pressed any more and too few reads are left to come. -/
def Stuck (s : AgentSession) : Prop :=
  0 < s.settings.interval ∧ s.fsm.state = .ivrMenu ∧
    (s.finished = true ∨ Waiting s ∧ s.fsm.cfg.maxMenuPresses ≤ s.fsm.menuPresses ∧
      s.fsm.menuNoops + s.menuWakeDue.isSome.toNat < s.fsm.cfg.menuNoopsBeforeHold)

theorem Heard.stuck {label : Label} {gap : Bool} {now : ℚ} (h : Heard label gap s.menuWakeDue now s t)
    (hp : s.fsm.cfg.maxMenuPresses ≤ s.fsm.menuPresses)
    (hn : s.fsm.menuNoops + s.menuWakeDue.isSome.toNat < s.fsm.cfg.menuNoopsBeforeHold) : Stuck t := by
  refine ⟨h.waiting.forward, h.waiting.state, .inr ⟨h.waiting, by rw [h.cfg, h.presses]; exact hp, ?_⟩⟩
  rw [h.cfg]
  rcases h.wake with ⟨d, hd, -, hnone, hread⟩ | ⟨-, hsame, hnoops⟩
  · rw [hd] at hn
    rw [hnone, hread]
    exact hn
  · rw [hsame, hnoops]
    exact hn

/-- Whatever is heard, a call that is stuck stays so. -/
theorem stuck_hears (h : Stuck s) {label : Label} (hl : label = .silence ∨ label = .liveSpeechCandidate)
    (hh : Hears label s t) : Stuck t := by
  obtain ⟨hi, hst, hf | ⟨hw, hp, hn⟩⟩ := h
  · rw [hears_over hf hh]
    exact ⟨hi, hst, .inl hf⟩
  · have hfew : ∀ frames label, ¬ s.fsm.Ends frames label := fun _ _ he => by
      have := he.1
      omega
    have hasks : ¬ s.fsm.Asks := fun ha => not_lt.2 hp ha.2.2
    rcases hl with rfl | rfl
    · rcases hears_silence hw hh with ⟨he, -⟩ | ⟨-, now, -, ht⟩
      · exact absurd he (hfew _ _)
      · exact ht.stuck hp hn
    · rcases hears_speech hw hh with ⟨he, -⟩ | ⟨-, now, -, ⟨ha, -⟩ | ⟨-, ht⟩⟩
      · exact absurd he (hfew _ _)
      · exact absurd ha hasks
      · exact ht.stuck hp hn

theorem stuck_not_queued (h : Stuck s) : ¬ Queued s := by
  rintro ⟨K, hK⟩
  obtain ⟨r, hr⟩ := Round.long_exists h.1 s.fsm.cfg
  have hu := hK (List.replicate K r) List.length_replicate fun r' h' => by
    rw [List.eq_of_mem_replicate h']; exact hr
  refine Run.not_until (I := Stuck) (C := fun label => label = .silence ∨ label = .liveSpeechCandidate)
    (fun t ht hleft => ?_) (fun t label hl ht => ?_) (fun label hl => ?_) h hu
  · rw [ht.2.1] at hleft
    cases hleft
  · obtain ⟨t', ht'⟩ := hears_exists ht.1 label
    exact ⟨t', ht', stuck_hears ht hl ht'⟩
  · obtain ⟨r', -, hl⟩ := List.mem_flatMap.1 hl
    exact (List.mem_append.1 hl).imp List.eq_of_mem_replicate List.eq_of_mem_replicate

/-! ## When a queue without music is left -/

theorem queued_of_reads (hw : Waiting s)
    (h : s.fsm.menuPresses < s.fsm.cfg.maxMenuPresses ∨
      s.fsm.cfg.menuNoopsBeforeHold ≤ s.fsm.menuNoops + s.menuWakeDue.isSome.toNat) : Queued s := by
  have hin : WaitsIn s.settings s.fsm.cfg s := ⟨hw, rfl, rfl⟩
  rcases lt_or_ge s.fsm.menuPresses s.fsm.cfg.maxMenuPresses with hp | hp
  · exact queued_of_variant (K := s.fsm.cfg.menuNoopsBeforeHold + 1) ⟨hin, .inr (.inl ⟨hp, Nat.le_add_left _ _⟩)⟩
  have hn := h.resolve_left (not_lt.2 hp)
  cases hd : s.menuWakeDue with
  | none =>
    rw [hd] at hn
    exact queued_of_variant (K := 1) ⟨hin, .inl hn⟩
  | some d =>
    rw [hd] at hn
    -- silence and speech take time, so the wake fires
    set i : Nat := ⌈(d - s.nextClassifyAt) / s.settings.interval⌉₊
    have hle : d - s.nextClassifyAt ≤ i * s.settings.interval := (div_le_iff₀ hw.forward).1 (Nat.le_ceil _)
    exact queued_of_variant (K := i + 2) ⟨hin, .inr (.inr ⟨hp, hn, d, i, rfl, hd, by linarith⟩)⟩

/-- **`queued_iff`**: from every reachable state in IVR_MENU past the refractory time, with no Tier 2 call in flight,
finitely many rounds take the call to ON_HOLD, exactly when the session is not over and a key may still be pressed or
enough reads have abstained since the last one, with the read that is still due. With no positive interval
`feed_audio` does not return from its loop. -/
theorem queued_iff (callId : String) (settings : Settings) (cfg : FsmConfig) (goal sid : Option String) (ms : List Move)
    {s : AgentSession} (hs : s = Run.exec step (new callId settings cfg goal sid) ms) (hi : 0 < s.settings.interval)
    (hst : s.fsm.state = .ivrMenu) (hpast : s.fsm.menuRefractoryUntil ≤ s.nextClassifyAt) (hk : s.tier2Kind = none) :
    Queued s ↔ s.finished = false ∧ (s.fsm.menuPresses < s.fsm.cfg.maxMenuPresses ∨
      s.fsm.cfg.menuNoopsBeforeHold ≤ s.fsm.menuNoops + s.menuWakeDue.isSome.toNat) := by
  have hsound : Sound s := hs ▸ Run.exec_inv step_sound ms _ (new_sound callId settings cfg goal sid)
  constructor
  · intro hq
    have hf : s.finished = false := by
      by_contra hf
      exact stuck_not_queued ⟨hi, hst, .inl (Bool.not_eq_false _ ▸ hf)⟩ hq
    refine ⟨hf, ?_⟩
    by_contra hn
    obtain ⟨hp, hn⟩ := not_or.1 hn
    exact stuck_not_queued ⟨hi, hst, .inr ⟨⟨hsound, hf, hst, hk, hpast, hi⟩, not_lt.1 hp, not_le.1 hn⟩⟩ hq
  · exact fun ⟨hf, h⟩ => queued_of_reads ⟨hsound, hf, hst, hk, hpast, hi⟩ h

/-- Hold music, then a menu: nothing has been pressed yet. -/
def musicThenMenu : List Call :=
  hear 0 .holdMusic :: List.replicate 5 (hear 4000 .holdMusic) ++ List.replicate 4 (hear 4000 .menuAwaitingInput)

theorem musicThenMenu_queued :
    Queued (Run.exec step (new "CA1" {} {} none none) (musicThenMenu.flatMap Call.moves)) := by
  have hrun : let s := Run.exec step (new "CA1" {} {} none none) (musicThenMenu.flatMap Call.moves)
      0 < s.settings.interval ∧ s.fsm.state = .ivrMenu ∧ s.fsm.menuRefractoryUntil ≤ s.nextClassifyAt ∧
        s.tier2Kind = none ∧ s.finished = false ∧ s.fsm.menuPresses < s.fsm.cfg.maxMenuPresses := by decide +kernel
  obtain ⟨hi, hst, hpast, hk, hf, hp⟩ := hrun
  exact (queued_iff "CA1" {} {} none none _ rfl hi hst hpast hk).2 ⟨hf, .inl hp⟩

/-- Hold music, then six menus after music each and a key pressed at each; the last one goes silent. -/
def sixKeys : List Call :=
  hear 0 .holdMusic :: List.replicate 5 (hear 4000 .holdMusic) ++
    (List.replicate 6 (List.replicate 4 (hear 4000 .holdMusic) ++
      List.replicate 7 (hear 4000 .menuAwaitingInput (some { menu := .ok ⟨some "2", ""⟩ })))).flatten ++
    List.replicate 20 (hear 4000 .silence)

/-- Past the refractory time and with nothing in flight, the call never leaves the menu. -/
theorem sixKeys_not_queued :
    let s := Run.exec step (new "CA1" {} {} none none) (sixKeys.flatMap Call.moves)
    s.finished = false ∧ s.fsm.state = .ivrMenu ∧ s.fsm.menuRefractoryUntil ≤ s.nextClassifyAt ∧
      s.tier2Kind = none ∧ ¬ Queued s := by
  have hrun : let s := Run.exec step (new "CA1" {} {} none none) (sixKeys.flatMap Call.moves)
      0 < s.settings.interval ∧ s.fsm.state = .ivrMenu ∧ s.fsm.menuRefractoryUntil ≤ s.nextClassifyAt ∧
        s.tier2Kind = none ∧ s.finished = false ∧ s.fsm.cfg.maxMenuPresses ≤ s.fsm.menuPresses ∧
        s.fsm.menuNoops + s.menuWakeDue.isSome.toNat < s.fsm.cfg.menuNoopsBeforeHold := by decide +kernel
  have hsound := Run.exec_inv step_sound (sixKeys.flatMap Call.moves) _ (new_sound "CA1" {} {} none none)
  obtain ⟨hi, hst, hpast, hk, hf, hp, hn⟩ := hrun
  exact ⟨hf, hst, hpast, hk, stuck_not_queued ⟨hi, hst, .inr ⟨⟨hsound, hf, hst, hk, hpast, hi⟩, hp, hn⟩⟩⟩

end AgentSession

end DialPass
