import DialPass.Session.Slot
/-!
# Which keys a session sends (session.py:210-258)

A key goes to `dtmf_sender` where the menu read that has just been polled decided it, and nowhere else. `Keyed` says so
for what a session does between two states, whatever has become of it: closed, crashed, or fed without end.
-/

namespace DialPass

/-- What a decision has to press, if anything (session.py:246). -/
def MenuDecision.keys (d : MenuDecision) : Option String := if d.presses then d.digits else none

namespace Effect

def sends : Effect → Option String
  | .dtmfSender digits => some digits
  | _ => none

def decides : Effect → Option String
  | .polled _ (.ok (.decision d)) => d.keys
  | _ => none

end Effect

def keysSent (tr : List Effect) : List String := tr.filterMap (·.sends)

def keysDecided (tr : List Effect) : List String := tr.filterMap (·.decides)

@[simp] theorem keysSent_append (tr es : List Effect) : keysSent (tr ++ es) = keysSent tr ++ keysSent es := by
  simp [keysSent]

@[simp] theorem keysDecided_append (tr es : List Effect) :
    keysDecided (tr ++ es) = keysDecided tr ++ keysDecided es := by
  simp [keysDecided]

/-- What has to do with neither. -/
def Effect.Mute (e : Effect) : Prop := e.sends = none ∧ e.decides = none

theorem keys_of_mute {es : List Effect} (h : ∀ e ∈ es, e.Mute) : keysSent es = [] ∧ keysDecided es = [] :=
  ⟨List.filterMap_eq_nil_iff.2 fun e he => (h e he).1, List.filterMap_eq_nil_iff.2 fun e he => (h e he).2⟩

theorem Slot.Off.mute {e : Effect} (h : Slot.Off e) : e.Mute := by
  cases e with
  | polled | dtmfSender => exact h.elim
  | _ => exact ⟨rfl, rfl⟩

namespace AgentSession

variable {A : Answer → Prop} {s t u : AgentSession}

/-- From `s` to `t` no key was decided or sent. -/
def Hushed (s t : AgentSession) : Prop := ∃ es, t.trace = s.trace ++ es ∧ ∀ e ∈ es, e.Mute

/-- From `s` to `t` the keys sent are some of those decided, in their order, and those are of answers `A`. -/
def Keyed (A : Answer → Prop) (s t : AgentSession) : Prop :=
  ∃ es, t.trace = s.trace ++ es ∧ (keysSent es).Sublist (keysDecided es) ∧
    ∀ k ∈ keysDecided es, ∃ a d, A a ∧ a.menu = .ok d ∧ d.keys = some k

theorem Hushed.of_trace (h : t.trace = s.trace) : Hushed s t := ⟨[], by rw [h, List.append_nil], by simp⟩

theorem Hushed.trans (h : Hushed s t) (h' : Hushed t u) : Hushed s u := by
  obtain ⟨es, htr, hes⟩ := h
  obtain ⟨fs, htr', hfs⟩ := h'
  refine ⟨es ++ fs, by rw [htr', htr, List.append_assoc], fun e he => ?_⟩
  rcases List.mem_append.1 he with he | he
  · exact hes e he
  · exact hfs e he

theorem Aside.hushed (h : Aside s t) : Hushed s t := by
  obtain ⟨-, es, htr, hes⟩ := h
  exact ⟨es, htr, fun e he => (hes e he).mute⟩

theorem Hushed.keyed (h : Hushed s t) : Keyed A s t := by
  obtain ⟨es, htr, hes⟩ := h
  obtain ⟨hs, hd⟩ := keys_of_mute hes
  refine ⟨es, htr, by rw [hs]; exact List.nil_sublist _, fun k hk => ?_⟩
  rw [hd] at hk
  cases hk

theorem Keyed.refl (s : AgentSession) : Keyed A s s := (Hushed.of_trace rfl).keyed

theorem Keyed.trans (h : Keyed A s t) (h' : Keyed A t u) : Keyed A s u := by
  obtain ⟨es, htr, hes, hd⟩ := h
  obtain ⟨fs, htr', hfs, hd'⟩ := h'
  refine ⟨es ++ fs, by rw [htr', htr, List.append_assoc], ?_, fun k hk => ?_⟩
  · rw [keysSent_append, keysDecided_append]
    exact hes.append hfs
  · rw [keysDecided_append] at hk
    rcases List.mem_append.1 hk with hk | hk
    · exact hd k hk
    · exact hd' k hk

/-! ## One lemma per stage -/

theorem log_hushed (s : AgentSession) {e : Effect} (h : e.Mute) : Hushed s (s.log e) :=
  ⟨[e], rfl, by simpa using h⟩

theorem submit_hushed (s : AgentSession) (j : Job) : Hushed s (s.submit j) := by
  unfold submit
  split
  · rename_i exec _
    exact (Hushed.of_trace rfl : Hushed s { s with exec }).trans (log_hushed _ ⟨rfl, rfl⟩)
  · exact .of_trace rfl

theorem startMenu_hushed (s : AgentSession) (now : ℚ) : Hushed s (s.startMenu now) := by
  refine (log_hushed s (e := .emit (.tier2Woken now .menu)) ⟨rfl, rfl⟩).trans (Hushed.trans ?_ (submit_hushed _ _))
  exact .of_trace rfl

theorem startProbe_hushed (s : AgentSession) (now : ℚ) : Hushed s (s.startProbe now) := by
  refine (log_hushed s (e := .emit (.tier2Woken now .probe)) ⟨rfl, rfl⟩).trans (Hushed.trans ?_ (submit_hushed _ _))
  exact .of_trace rfl

theorem dispatch_hushed (s : AgentSession) (action : Action) (now : ℚ) (reply : BridgeReply) :
    Hushed s (s.dispatch action now reply) := by
  cases action with
  | none => exact .of_trace rfl
  | wakeTier2Menu => exact .of_trace rfl
  | wakeTier2Probe =>
    simp only [dispatch]
    split
    · exact startProbe_hushed s now
    · exact .of_trace rfl
  | bridge => exact (bridge_aside s now reply).hushed
  | fail => exact (fail_aside s now _).hushed

theorem observe_hushed (s : AgentSession) (now : ℚ) (i : Tick) : Hushed s (s.observe now i) := by
  rw [observe_eq]
  exact (moved_aside s _ now).hushed.trans (dispatch_hushed ..)

theorem wakeMenu_hushed (s : AgentSession) (now : ℚ) : Hushed s (s.wakeMenu now) := by
  unfold wakeMenu
  split
  · split
    · have hset : Hushed s { s with menuWakeDue := none } := .of_trace rfl
      dsimp only
      split
      · exact hset.trans (startMenu_hushed _ now)
      · exact hset
    · exact .of_trace rfl
  · exact .of_trace rfl

theorem applyProbe_hushed (s : AgentSession) (o : ProbeOutcome) (now : ℚ) (reply : BridgeReply) :
    Hushed s (s.applyProbe o now reply) := by
  rw [applyProbe_eq]
  refine (log_hushed s (e := .emit (.probeResult now o.isHuman)) ⟨rfl, rfl⟩).trans ?_
  exact (moved_aside _ _ now).hushed.trans (dispatch_hushed ..)

theorem ingest_hushed (s : AgentSession) (pcm : Pcm) : Hushed s (s.ingest pcm) := by
  unfold ingest
  split
  · exact .of_trace rfl
  · dsimp only
    split <;> exact .of_trace rfl

/-- A decision sends what it has to press. -/
theorem applyMenu_sends (s : AgentSession) (d : MenuDecision) (now : ℚ) :
    ∃ es, (s.applyMenu d now).trace = s.trace ++ es ∧ keysDecided es = [] ∧ keysSent es = d.keys.toList := by
  unfold applyMenu
  split
  · rename_i digits hp hd
    refine ⟨[.dtmfSender digits, .emit (.dtmfSent now digits)], by simp [log, emit], rfl, ?_⟩
    rw [MenuDecision.keys, if_pos hp, hd]
    rfl
  · rename_i hnone
    refine ⟨[], by simp, rfl, ?_⟩
    cases hp : d.presses with
    | false => simp [MenuDecision.keys, hp, keysSent]
    | true =>
      cases hd : d.digits with
      | none => simp [MenuDecision.keys, hd, keysSent]
      | some digits => exact absurd hd (hnone digits hp)

/-- So only a menu's decision is sent, once it is polled. -/
theorem applyResult_sends (s : AgentSession) (j : Job) (kind : Tier2Kind) (r : Tier2Result) (now : ℚ)
    (reply : BridgeReply) : ∃ es, (s.applyResult kind r now reply).trace = s.trace ++ es ∧ keysDecided es = [] ∧
      (keysSent es).Sublist (Effect.polled j r).decides.toList := by
  have hmute : ∀ {t}, Hushed s t → ∃ es, t.trace = s.trace ++ es ∧ keysDecided es = [] ∧
      (keysSent es).Sublist (Effect.polled j r).decides.toList := by
    intro t ⟨es, htr, hes⟩
    obtain ⟨hs, hd⟩ := keys_of_mute hes
    exact ⟨es, htr, hd, by rw [hs]; exact List.nil_sublist _⟩
  unfold applyResult
  split
  · exact hmute (tier2Failed_aside s kind _ now).hushed
  · split
    · rename_i d
      obtain ⟨es, htr, hd, hs⟩ := applyMenu_sends s d now
      exact ⟨es, htr, hd, by rw [hs]; exact List.Sublist.refl _⟩
    · exact hmute (applyProbe_hushed s _ now reply)
    · exact hmute (.of_trace rfl)

theorem pollTier2_keyed (s : AgentSession) (now : ℚ) (i : Tick) (h : ∀ a, i.answer = some a → A a) :
    Keyed A s (s.pollTier2 now i) := by
  unfold pollTier2
  split
  · exact .refl s
  · rename_i kind _
    split
    · exact .refl s
    · rename_i exec j r hp
      obtain ⟨es, htr, hd, hs⟩ := applyResult_sends ({ s with exec, tier2Kind := none }.log (.polled j r)) j kind r now
        i.onBridge
      refine ⟨.polled j r :: es, by rw [htr]; simp [log], ?_, fun k hk => ?_⟩
      · have hsent : keysSent (.polled j r :: es) = keysSent es := rfl
        have hdec : keysDecided (.polled j r :: es) = (Effect.polled j r).decides.toList := by
          show keysDecided ([.polled j r] ++ es) = _
          rw [keysDecided_append, hd, List.append_nil]
          cases hr : (Effect.polled j r).decides <;> simp [keysDecided, hr]
        rw [hsent, hdec]
        exact hs
      · have hk' : (Effect.polled j r).decides = some k := by
          have hmem : k ∈ keysDecided ([.polled j r] ++ es) := hk
          rw [keysDecided_append, hd, List.append_nil] at hmem
          simpa [keysDecided] using hmem
        -- the answer is the tick's
        have hj : ∃ a, i.answer = some a ∧ r = j.run a := by
          unfold ThreadedExecutor.poll at hp
          split at hp
          · rename_i j' a _ ha
            cases hp
            exact ⟨a, ha, rfl⟩
          · cases hp
        obtain ⟨a, ha, rfl⟩ := hj
        cases hkind : j.kind with
        | menu =>
          cases hm : a.menu with
          | ok d => exact ⟨a, d, h a ha, hm, by simpa [Effect.decides, Job.run, hkind, hm, Except.map] using hk'⟩
          | error e => simp [Effect.decides, Job.run, hkind, hm, Except.map] at hk'
        | probe =>
          cases hm : a.probe <;> simp [Effect.decides, Job.run, hkind, hm, Except.map] at hk'

theorem runTick_keyed (s : AgentSession) (now : ℚ) (i : Tick) (h : ∀ a, i.answer = some a → A a) :
    Keyed A s (s.runTick now i) := by
  have hobs : Hushed s ((s.classify now i.cls).observe now i) :=
    (classify_aside s now i.cls).hushed.trans (observe_hushed _ now i)
  unfold runTick
  dsimp only
  split
  · exact hobs.keyed
  · split
    · exact (hobs.trans (wakeMenu_hushed _ now)).keyed
    · exact (hobs.trans (wakeMenu_hushed _ now)).keyed.trans (pollTier2_keyed _ now i h)

theorem loopPass_keyed (s : AgentSession) (i : Tick) (h : ∀ a, i.answer = some a → A a) :
    Keyed A s (s.loopPass i) := by
  unfold loopPass
  split
  · exact .refl s
  · have htick := runTick_keyed s s.nextClassifyAt i h
    dsimp only
    split
    · exact htick
    · exact htick.trans (Hushed.of_trace rfl).keyed

theorem feedAudio_keyed (s : AgentSession) (pcm : Pcm) (ticks : List Tick)
    (h : ∀ i ∈ ticks, ∀ a, i.answer = some a → A a) : Keyed A s (s.feedAudio pcm ticks) := by
  unfold feedAudio
  have h0 : Keyed A s (s.ingest pcm) := (ingest_hushed s pcm).keyed
  generalize s.ingest pcm = t at h0 ⊢
  induction ticks generalizing t with
  | nil => exact h0
  | cons i ticks ih =>
    refine ih (fun j hj => h j (List.mem_cons_of_mem _ hj)) _ (h0.trans ?_)
    exact loopPass_keyed t i (h i List.mem_cons_self)

end AgentSession

end DialPass
