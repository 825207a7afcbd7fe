import DialPass.Media.Handoff
/-!
# The relay (agent/bridge.py:91-195)

A `Hub` is a bridge with all that its writers have drained so far. The calls on it come in any order, drains
included, and none of them is the asynchronous half of the handoff. `relays` says what has come to each leg, in
terms of the calls: frame for frame what `forAgent` and `forUser` give, which is no frame of the user's and
nothing for the user at all until the relay opens. `onAgentAudio` here is what the registry's does to the bridge
(`onAgentAudio_sameRelay`).
-/

namespace DialPass

/-- What the stream's far end plays. -/
def MediaMessage.audio (m : MediaMessage) : Option (List UInt8) := Base64.decode m.payload.toList

namespace CallBridge

@[simp] theorem frame_audio (streamSid : String) (ulaw : List UInt8) : (frame streamSid ulaw).audio = some ulaw := by
  simp [MediaMessage.audio, frame, Base64.decode_encode]

/-- The hooks the bridge leaves with its session (bridge.py:86-88); `on_fail` goes on to `on_teardown`. -/
def hook (apiKey : String) (now : ℚ) (br : CallBridge) : Effect → CallBridge
  | .dtmfSender digits => (br.pressDtmf digits now).1
  | .onBridge => (br.beginHandoff apiKey).1
  | _ => br

/-- `on_agent_audio` (bridge.py:104), hooks included. -/
def onAgentAudio (br : CallBridge) (apiKey : String) (now : ℚ) (ulaw : List UInt8) (ticks : List Tick) : CallBridge :=
  let br := br.relayAgentAudio ulaw
  if br.session.finished then br
  else
    let s := br.session.feedAudio (ulawToPcm16 ulaw) (ticks.map fun i => { i with onBridge := br.handoffReply })
    (s.trace.drop br.session.trace.length).foldl (hook apiKey now) { br with session := s }

inductive Call where
  | bindAgent (streamSid : String) (loop : Bool)
  | bindUser (streamSid : String)
  | onAgentAudio (ulaw : List UInt8) (ticks : List Tick) (now : ℚ)
  | onUserAudio (ulaw : List UInt8)
  | playToAgent (pcm : Pcm)
  | drainAgent
  | drainUser
  | beginHandoff

end CallBridge

structure Hub where
  bridge : CallBridge
  toAgent : List MediaMessage := []
  toUser : List MediaMessage := []

namespace Hub

open CallBridge

def step (apiKey : String) (h : Hub) : Call → Hub
  | .bindAgent streamSid loop => { h with bridge := h.bridge.bindAgent streamSid loop }
  | .bindUser streamSid => { h with bridge := h.bridge.bindUser streamSid }
  | .onAgentAudio ulaw ticks now => { h with bridge := h.bridge.onAgentAudio apiKey now ulaw ticks }
  | .onUserAudio ulaw => { h with bridge := h.bridge.onUserAudio ulaw }
  | .playToAgent pcm => { h with bridge := h.bridge.playToAgent pcm }
  | .drainAgent => { h with bridge := h.bridge.drainAgent.2, toAgent := h.toAgent ++ h.bridge.drainAgent.1 }
  | .drainUser => { h with bridge := h.bridge.drainUser.2, toUser := h.toUser ++ h.bridge.drainUser.1 }
  | .beginHandoff => { h with bridge := (h.bridge.beginHandoff apiKey).1 }

/-- Drained to the agent or still queued, as their stream plays it. -/
def agentHears (h : Hub) : List (Option (List UInt8)) := (h.toAgent ++ h.bridge.outboundAgent).map MediaMessage.audio

def userHears (h : Hub) : List (Option (List UInt8)) := (h.toUser ++ h.bridge.outboundUser).map MediaMessage.audio

/-- The frames of what is played while an agent leg is bound. -/
def played (h : Hub) : Call → List (List UInt8)
  | .playToAgent pcm => if h.bridge.agentStreamSid = none then [] else chunks frameBytes (pcm16ToUlaw pcm)
  | _ => []

/-- And the user's frames, once the relay is open. -/
def forAgent (h : Hub) : Call → List (List UInt8)
  | .onUserAudio ulaw => if h.bridge.relayOpen = true ∧ h.bridge.agentStreamSid ≠ none then [ulaw] else []
  | c => h.played c

def forUser (h : Hub) : Call → List (List UInt8)
  | .onAgentAudio ulaw _ _ => if h.bridge.relayOpen = true ∧ h.bridge.userStreamSid ≠ none then [ulaw] else []
  | _ => []

end Hub

namespace CallBridge

/-! ## Chunks -/

theorem chunks_length_le (n : Nat) (xs : List UInt8) : ∀ c ∈ chunks n xs, c.length ≤ n := by
  intro c hc
  obtain ⟨i, -, rfl⟩ := List.mem_map.1 hc
  exact List.length_take_le _ _

theorem flatten_pieces (n : Nat) (xs : List UInt8) (k : Nat) :
    ((List.range k).map fun i => (xs.drop (i * n)).take n).flatten = xs.take (k * n) := by
  induction k with
  | zero => simp
  | succ k ih =>
    rw [List.range_succ, List.map_append, List.flatten_append, ih, Nat.succ_mul, List.take_add]
    simp

theorem flatten_chunks {n : Nat} (hn : 0 < n) (xs : List UInt8) : (chunks n xs).flatten = xs := by
  rw [chunks, flatten_pieces]
  apply List.take_of_length_le
  have h := Nat.lt_div_mul_add hn (a := xs.length + n - 1)
  omega

/-! ## What a call leaves alone -/

/-- The queues and legs are as they were, and an open relay is open. -/
structure SameQueues (br br' : CallBridge) : Prop where
  outboundAgent : br'.outboundAgent = br.outboundAgent
  outboundUser : br'.outboundUser = br.outboundUser
  relayOpen : br.relayOpen = true → br'.relayOpen = true

theorem SameQueues.trans {br br' br'' : CallBridge} (h : SameQueues br br') (h' : SameQueues br' br'') :
    SameQueues br br'' :=
  ⟨h'.outboundAgent.trans h.outboundAgent, h'.outboundUser.trans h.outboundUser, fun hr => h'.relayOpen (h.relayOpen hr)⟩

theorem beginHandoff_queues (br : CallBridge) (apiKey : String) : SameQueues br (br.beginHandoff apiKey).1 := by
  unfold beginHandoff
  dsimp only
  repeat' split
  all_goals exact ⟨rfl, rfl, by simp⟩

theorem hook_queues (apiKey : String) (now : ℚ) (br : CallBridge) (e : Effect) :
    SameQueues br (br.hook apiKey now e) := by
  cases e with
  | dtmfSender digits =>
    simp only [hook, pressDtmf]
    split <;> exact ⟨rfl, rfl, id⟩
  | onBridge => exact br.beginHandoff_queues apiKey
  | _ => exact ⟨rfl, rfl, id⟩

/-- The relay sees the frame first; what the session makes of it changes no queue. -/
theorem onAgentAudio_queues (br : CallBridge) (apiKey : String) (now : ℚ) (ulaw : List UInt8) (ticks : List Tick) :
    SameQueues (br.relayAgentAudio ulaw) (br.onAgentAudio apiKey now ulaw ticks) := by
  unfold onAgentAudio
  dsimp only
  generalize br.relayAgentAudio ulaw = br'
  split
  · exact ⟨rfl, rfl, id⟩
  · generalize br'.session.feedAudio _ _ = s
    have hrun : ∀ (es : List Effect) (t : CallBridge), SameQueues t (es.foldl (hook apiKey now) t) := by
      intro es
      induction es with
      | nil => exact fun t => ⟨rfl, rfl, id⟩
      | cons e es ih => exact fun t => (hook_queues apiKey now t e).trans (ih _)
    have hfed : SameQueues br' { br' with session := s } := ⟨rfl, rfl, id⟩
    exact hfed.trans (hrun _ _)

/-! ## The bridge in its registry -/

/-- The same up to what a teardown closes. -/
def SameRelay (br br' : CallBridge) : Prop := ∃ session closed, br' = { br with session, closed }

theorem SameRelay.refl (br : CallBridge) : SameRelay br br := ⟨br.session, br.closed, rfl⟩

end CallBridge

namespace App

open CallBridge

/-- A hook of the registry does to the bridge what the bridge's own does, and stays with its key and clock. -/
theorem hook_sameRelay (b : Nat) (a : App) (e : Effect) {br : CallBridge} (h : SameRelay br (a.heap b)) :
    SameRelay (br.hook a.openaiApiKey a.now e) ((hook b a e).heap b) ∧
      (hook b a e).openaiApiKey = a.openaiApiKey ∧ (hook b a e).now = a.now := by
  obtain ⟨session, closed, hbr⟩ := h
  cases e with
  | dtmfSender digits =>
    simp only [hook, CallBridge.hook, hbr, pressDtmf]
    split <;> exact ⟨⟨session, closed, by simp⟩, rfl, rfl⟩
  | onBridge =>
    refine ⟨?_, ?_⟩
    · rw [hook_onBridge_heap, Function.update_self, hbr]
      simp only [CallBridge.hook, beginHandoff]
      repeat' split
      all_goals exact ⟨session, closed, rfl⟩
    · simp only [hook]
      generalize (a.heap b).beginHandoff a.openaiApiKey = p
      obtain ⟨br', notify⟩ := p
      cases notify with
      | false => exact ⟨rfl, rfl⟩
      | true =>
        obtain ⟨es, he, -⟩ := (a.setBridge b br').sms_eq br'.groupId userSms
        dsimp only
        rw [he]
        exact ⟨rfl, rfl⟩
  | onFail reason =>
    refine ⟨?_, ?_⟩
    · simp only [hook, CallBridge.hook, teardownGroup_heap]
      split
      · unfold CallBridge.close
        split
        · exact ⟨session, closed, hbr⟩
        · exact ⟨_, true, by rw [hbr]⟩
      · exact ⟨session, closed, hbr⟩
    · simp only [hook]
      cases hg : a.bridges.get (a.heap b).groupId with
      | none =>
        rw [teardownGroup_none hg]
        exact ⟨rfl, rfl⟩
      | some c =>
        obtain ⟨es, he⟩ := teardownGroup_some hg (some reason) true
        rw [he]
        exact ⟨rfl, rfl⟩
  | _ => exact ⟨⟨session, closed, hbr⟩, rfl, rfl⟩

/-- So a frame does to the bridge what it does in the registry. -/
theorem onAgentAudio_sameRelay (a : App) (b : Nat) (ulaw : List UInt8) (ticks : List Tick) :
    SameRelay ((a.heap b).onAgentAudio a.openaiApiKey a.now ulaw ticks) ((a.onAgentAudio b ulaw ticks).heap b) := by
  have hhooks : ∀ (es : List Effect) (t : App) (br : CallBridge), SameRelay br (t.heap b) →
      SameRelay (es.foldl (CallBridge.hook t.openaiApiKey t.now) br) ((es.foldl (hook b) t).heap b) := by
    intro es
    induction es with
    | nil => exact fun t br h => h
    | cons e es ih =>
      intro t br h
      obtain ⟨h', hkey, hnow⟩ := hook_sameRelay b t e h
      have hrest := ih (hook b t e) _ h'
      rw [hkey, hnow] at hrest
      exact hrest
  unfold onAgentAudio CallBridge.onAgentAudio
  simp only [setBridge_heap_self]
  split
  · rw [setBridge_heap_self]
    exact SameRelay.refl _
  · unfold advance
    rw [setBridge_heap_self]
    exact hhooks _ _ _ (by rw [setBridge_heap_self]; exact SameRelay.refl _)

end App

namespace Hub

open CallBridge

variable {apiKey : String}

theorem step_relayOpen (h : Hub) (c : Call) (hr : h.bridge.relayOpen = true) :
    (step apiKey h c).bridge.relayOpen = true := by
  cases c with
  | onAgentAudio ulaw ticks now =>
    refine (h.bridge.onAgentAudio_queues apiKey now ulaw ticks).relayOpen ?_
    unfold relayAgentAudio
    dsimp only
    split <;> exact hr
  | onUserAudio ulaw =>
    simp only [step, onUserAudio]
    split <;> exact hr
  | playToAgent pcm =>
    simp only [step, playToAgent]
    split <;> exact hr
  | beginHandoff => exact (h.bridge.beginHandoff_queues apiKey).relayOpen hr
  | _ => exact hr

theorem step_agentHears (h : Hub) (c : Call) :
    (step apiKey h c).agentHears = h.agentHears ++ (h.forAgent c).map some := by
  cases c with
  | onAgentAudio ulaw ticks now =>
    have hq := (h.bridge.onAgentAudio_queues apiKey now ulaw ticks).outboundAgent
    have hrel : (h.bridge.relayAgentAudio ulaw).outboundAgent = h.bridge.outboundAgent := by
      unfold relayAgentAudio
      dsimp only
      split <;> rfl
    simp [agentHears, step, hq, hrel, forAgent, played]
  | onUserAudio ulaw =>
    cases ho : h.bridge.relayOpen <;> cases ha : h.bridge.agentStreamSid <;>
      simp [agentHears, step, onUserAudio, forAgent, ho, ha]
  | playToAgent pcm =>
    cases ha : h.bridge.agentStreamSid <;>
      simp [agentHears, step, playToAgent, forAgent, played, ha, Function.comp_def]
  | beginHandoff =>
    have hq := (h.bridge.beginHandoff_queues apiKey).outboundAgent
    simp [agentHears, step, hq, forAgent, played]
  | _ => simp [agentHears, step, bindAgent, bindUser, drainAgent, drainUser, forAgent, played]

theorem step_userHears (h : Hub) (c : Call) :
    (step apiKey h c).userHears = h.userHears ++ (h.forUser c).map some := by
  cases c with
  | onAgentAudio ulaw ticks now =>
    have hq := (h.bridge.onAgentAudio_queues apiKey now ulaw ticks).outboundUser
    cases ho : h.bridge.relayOpen <;> cases hu : h.bridge.userStreamSid <;>
      simp [userHears, step, hq, relayAgentAudio, forUser, ho, hu]
  | onUserAudio ulaw =>
    simp only [step, onUserAudio]
    split <;> simp [userHears, forUser]
  | playToAgent pcm =>
    simp only [step, playToAgent]
    split <;> simp [userHears, forUser]
  | beginHandoff =>
    have hq := (h.bridge.beginHandoff_queues apiKey).outboundUser
    simp [userHears, step, hq, forUser]
  | _ => simp [userHears, step, bindAgent, bindUser, drainAgent, drainUser, forUser]

/-- As long as the relay is closed the agent hears what is played, and the user nothing. -/
theorem forAgent_closed {h : Hub} (hc : h.bridge.relayOpen = false) (c : Call) : h.forAgent c = h.played c := by
  cases c <;> simp [forAgent, played, hc]

theorem forUser_closed {h : Hub} (hc : h.bridge.relayOpen = false) (c : Call) : h.forUser c = [] := by
  cases c <;> simp [forUser, hc]

theorem step_closed (h : Hub) (c : Call) (hc : (step apiKey h c).bridge.relayOpen = false) :
    h.bridge.relayOpen = false := by
  rw [← Bool.not_eq_true] at hc ⊢
  exact fun ho => hc (step_relayOpen h c ho)

/-- **`relays`**: after any calls on a bridge, in any order and with any drains in between, an open relay has
stayed open; what was drained to the agent or is still queued decodes, frame for frame and in call order, to
the frames of what was played while an agent leg was bound and the user's frames of the open relay, and what
was drained to the user or is queued to the agent's frames of the open relay; before it opens that is only
what was played, and nothing. And what is played is cut, not changed, in frames of `frameBytes` at most. -/
theorem relays (apiKey groupId : String) (session : AgentSession) (calls : List Call) :
    let h0 : Hub := { bridge := { groupId, session } }
    let h := Run.exec (step apiKey) h0 calls
    (∀ pre, pre <+: calls → (Run.exec (step apiKey) h0 pre).bridge.relayOpen = true → h.bridge.relayOpen = true) ∧
    ((h.toAgent ++ h.bridge.outboundAgent).map MediaMessage.audio =
        (Run.outputs (step apiKey) forAgent h0 calls).map some ∧
      (h.toUser ++ h.bridge.outboundUser).map MediaMessage.audio =
        (Run.outputs (step apiKey) forUser h0 calls).map some) ∧
    (h.bridge.relayOpen = false →
      (h.toAgent ++ h.bridge.outboundAgent).map MediaMessage.audio =
        (Run.outputs (step apiKey) played h0 calls).map some ∧
      h.toUser ++ h.bridge.outboundUser = []) ∧
    ∀ pcm, (chunks frameBytes (pcm16ToUlaw pcm)).flatten = pcm16ToUlaw pcm ∧
      ∀ c ∈ chunks frameBytes (pcm16ToUlaw pcm), c.length ≤ frameBytes := by
  intro h0 h
  have hagent : h.agentHears = (Run.outputs (step apiKey) forAgent h0 calls).map some :=
    Run.outputs_spec agentHears step_agentHears calls h0
  have huser : h.userHears = (Run.outputs (step apiKey) forUser h0 calls).map some :=
    Run.outputs_spec userHears step_userHears calls h0
  refine ⟨?_, ⟨hagent, huser⟩, fun hc => ⟨?_, ?_⟩, fun pcm => ⟨flatten_chunks (by decide) _, chunks_length_le _ _⟩⟩
  · rintro pre ⟨post, rfl⟩ hr
    simp only [h, Run.exec_append]
    exact Run.exec_inv (I := fun t : Hub => t.bridge.relayOpen = true) step_relayOpen post _ hr
  · have hsame := Run.outputs_congr_of (P := fun t : Hub => t.bridge.relayOpen = false) (g := played) step_closed
      (fun t c ht => forAgent_closed ht c) calls h0 hc
    rw [← hsame.1]
    exact hagent
  · have hsame := Run.outputs_congr_of (P := fun t : Hub => t.bridge.relayOpen = false) (g := fun _ _ => [])
      step_closed (fun t c ht => forUser_closed ht c) calls h0 hc
    rw [hsame.1, Run.outputs_nil, List.map_nil] at huser
    exact List.map_eq_nil_iff.1 huser

/-- Both legs are bound and hold; the handoff comes while a greeting is queued, and then both speak. -/
def handsOver : List Call :=
  [.bindAgent "MZagent" false, .bindUser "MZuser", .onUserAudio [1], .onAgentAudio [2] [] 0, .playToAgent [0],
    .beginHandoff, .onUserAudio [3], .drainAgent, .onAgentAudio [4] [] 0, .onUserAudio [5]]

theorem handsOver_relays :
    let h := Run.exec (step "") { bridge := { groupId := "g", session := .new "CA" {} {} none none } } handsOver
    h.bridge.relayOpen = true ∧ (h.toAgent ++ h.bridge.outboundAgent).map MediaMessage.audio =
        [some [0xFF], some [3], some [5]] ∧
      (h.toUser ++ h.bridge.outboundUser).map MediaMessage.audio = [some [4]] := by
  intro h
  have hr := relays "" "g" (.new "CA" {} {} none none) handsOver
  exact ⟨hr.1 (handsOver.take 6) (List.take_prefix _ _) (by decide +kernel), hr.2.1.1.trans (by decide +kernel),
    hr.2.1.2.trans (by decide +kernel)⟩

end Hub

end DialPass
