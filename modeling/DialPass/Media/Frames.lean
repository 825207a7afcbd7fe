import DialPass.Media
/-!
# What each piece of the registry's code touches

One lemma per function says what it leaves behind (`teardownGroup_bridges`, `teardownGroup_heap`, …).
`Same` is the frame most of the code stays in: which bridges are registered, who they belong to, which
streams are bound, what is being redialled or reconnected and where the sockets are. An invariant about
these survives whatever stays in the frame (`advance_keeps`, `reapStaleBridges_keeps`, `same_of_inert`).
-/

namespace DialPass

namespace CallBridge

@[simp] theorem close_groupId (br : CallBridge) : br.close.groupId = br.groupId := by
  unfold close; split <;> rfl
@[simp] theorem close_userStreamSid (br : CallBridge) : br.close.userStreamSid = br.userStreamSid := by
  unfold close; split <;> rfl
@[simp] theorem close_reconnecting (br : CallBridge) : br.close.reconnecting = br.reconnecting := by
  unfold close; split <;> rfl
@[simp] theorem close_reconnectSince (br : CallBridge) : br.close.reconnectSince = br.reconnectSince := by
  unfold close; split <;> rfl
@[simp] theorem close_relayOpen (br : CallBridge) : br.close.relayOpen = br.relayOpen := by
  unfold close; split <;> rfl
@[simp] theorem close_handoffStarted (br : CallBridge) : br.close.handoffStarted = br.handoffStarted := by
  unfold close; split <;> rfl
@[simp] theorem close_handoff (br : CallBridge) : br.close.handoff = br.handoff := by
  unfold close; split <;> rfl
@[simp] theorem close_finished (br : CallBridge) : br.close.session.finished = br.session.finished := by
  unfold close; split <;> rfl
@[simp] theorem close_trace (br : CallBridge) : br.close.session.trace = br.session.trace := by
  unfold close; split <;> rfl
@[simp] theorem close_userLegSid (br : CallBridge) : br.close.session.userLegSid = br.session.userLegSid := by
  unfold close; split <;> rfl

/-- The part of a bridge that says whose it is and which of its streams are up. -/
structure SameLegs (br br' : CallBridge) : Prop where
  groupId : br'.groupId = br.groupId
  userStreamSid : br'.userStreamSid = br.userStreamSid
  reconnecting : br'.reconnecting = br.reconnecting
  reconnectSince : br'.reconnectSince = br.reconnectSince

theorem SameLegs.refl (br : CallBridge) : SameLegs br br := ⟨rfl, rfl, rfl, rfl⟩

theorem relayAgentAudio_eq (br : CallBridge) (ulaw : List UInt8) :
    ∃ probeInbound outboundUser, br.relayAgentAudio ulaw = { br with probeInbound, outboundUser } := by
  unfold relayAgentAudio
  dsimp only
  split
  · exact ⟨_, _, rfl⟩
  · exact ⟨_, br.outboundUser, rfl⟩

theorem onUserAudio_eq (br : CallBridge) (ulaw : List UInt8) :
    ∃ outboundAgent, br.onUserAudio ulaw = { br with outboundAgent } := by
  unfold onUserAudio
  split
  · exact ⟨_, rfl⟩
  · exact ⟨br.outboundAgent, rfl⟩

theorem playToAgent_eq (br : CallBridge) (pcm : Pcm) :
    ∃ outboundAgent, br.playToAgent pcm = { br with outboundAgent } := by
  unfold playToAgent
  split
  · exact ⟨br.outboundAgent, rfl⟩
  · exact ⟨_, rfl⟩

/-- Pressing asks for a redirect, or finds nothing to press or no stream to press it on. -/
theorem pressDtmf_cases (br : CallBridge) (digits : String) (now : ℚ) :
    br.pressDtmf digits now = (br, none) ∨
    ∃ keys, br.pressDtmf digits now = ({ br with reconnecting := true, reconnectSince := some now }, some keys) := by
  unfold pressDtmf
  dsimp only
  split
  · exact .inl rfl
  · exact .inr ⟨_, rfl⟩

/-- Beginning the handoff: it was begun before, the user is gone, it opens at once, or it is scheduled. -/
theorem beginHandoff_cases (br : CallBridge) (apiKey : String) :
    (br.handoffStarted = true ∧ br.beginHandoff apiKey = (br, false)) ∨
    (br.handoffStarted = false ∧ br.userStreamSid = none ∧
      br.beginHandoff apiKey = ({ br with handoffStarted := true }, false)) ∨
    (br.handoffStarted = false ∧ br.userStreamSid ≠ none ∧
      br.beginHandoff apiKey = ({ br with handoffStarted := true, relayOpen := true }, true)) ∨
    (br.handoffStarted = false ∧ br.userStreamSid ≠ none ∧
      br.beginHandoff apiKey = ({ br with handoffStarted := true, handoff := .speaking }, false)) := by
  unfold beginHandoff
  by_cases hs : br.handoffStarted = true
  · exact .inl ⟨hs, by simp [hs]⟩
  have hs' : br.handoffStarted = false := by simpa using hs
  by_cases hu : br.userStreamSid = none
  · exact .inr (.inl ⟨hs', hu, by simp [hs', hu]⟩)
  by_cases hl : br.loop = false ∨ apiKey.isEmpty
  · exact .inr (.inr (.inl ⟨hs', hu, by rw [if_neg hs]; dsimp only; rw [if_neg hu, if_pos hl]⟩))
  · exact .inr (.inr (.inr ⟨hs', hu, by rw [if_neg hs]; dsimp only; rw [if_neg hu, if_neg hl]⟩))

/-- A round of the wait opens the relay or leaves it as it was. -/
theorem waitDrained_cases (br : CallBridge) (left : Nat) :
    br.waitDrained left = ({ br with handoff := .idle, relayOpen := true }, true) ∨
    ∃ n, br.waitDrained left = ({ br with handoff := .draining n }, false) := by
  unfold waitDrained
  split
  · exact .inl rfl
  · exact .inr ⟨_, rfl⟩

end CallBridge

namespace App

open CallBridge

@[simp] theorem setBridge_heap_self (a : App) (b : Nat) (br : CallBridge) : (a.setBridge b br).heap b = br := by
  simp [setBridge]

theorem setBridge_heap_ne (a : App) {b c : Nat} (h : c ≠ b) (br : CallBridge) :
    (a.setBridge b br).heap c = a.heap c := by simp [setBridge, h]

theorem setBridge_heap (a : App) (b c : Nat) (br : CallBridge) :
    (a.setBridge b br).heap c = if c = b then br else a.heap c := by
  simp [setBridge, Function.update_apply]

@[simp] theorem setSocket_sockets_self (a : App) (k : Nat) (s : Socket) : (a.setSocket k s).sockets k = s := by
  simp [setSocket]

theorem setSocket_sockets_ne (a : App) {k j : Nat} (h : j ≠ k) (s : Socket) :
    (a.setSocket k s).sockets j = a.sockets j := by simp [setSocket, h]

theorem setSocket_sockets (a : App) (k j : Nat) (s : Socket) :
    (a.setSocket k s).sockets j = if j = k then s else a.sockets j := by
  simp [setSocket, Function.update_apply]

/-! ## Requests to Twilio -/

theorem hangUp_eq (a : App) (sid : Option String) :
    ∃ es, a.hangUp sid = { a with log := a.log ++ es } ∧ ∀ e ∈ es, sid.map Twilio.hangUp = some e := by
  unfold hangUp
  split
  · split
    · exact ⟨_, rfl, by simp⟩
    · exact ⟨[], by simp, by simp⟩
  · exact ⟨[], by simp, by simp⟩

theorem sms_eq (a : App) (group body : String) :
    ∃ es, a.sms group body = { a with log := a.log ++ es } ∧ ∀ e ∈ es, ∃ n, e = .sendSms group n body := by
  unfold sms
  split
  · split
    · exact ⟨_, rfl, by simp⟩
    · exact ⟨[], by simp, by simp⟩
  · exact ⟨[], by simp, by simp⟩

/-! ## Tearing a group down -/

theorem teardownGroup_none {a : App} {group : String} (h : a.bridges.get group = none)
    (reason : Option String) (hangUp : Bool) : a.teardownGroup group reason hangUp = a.clearContext group := by
  simp [teardownGroup, h]

theorem notify_eq (a : App) (group : String) (reason : Option String) :
    ∃ es, a.notify group reason = { a with log := a.log ++ es } := by
  cases reason with
  | none => exact ⟨[], by simp [notify]⟩
  | some r => exact (a.sms_eq group _).imp fun _ h => h.1

theorem hangUpLegs_eq (a : App) (session : AgentSession) (hangUp : Bool) :
    ∃ es, a.hangUpLegs session hangUp = { a with log := a.log ++ es } := by
  cases hangUp with
  | false => exact ⟨[], by simp [hangUpLegs]⟩
  | true =>
    obtain ⟨e1, h1, -⟩ := a.hangUp_eq (some session.callId)
    obtain ⟨e2, h2, -⟩ := App.hangUp_eq { a with log := a.log ++ e1 } session.userLegSid
    exact ⟨e1 ++ e2, by rw [hangUpLegs, if_pos rfl, h1, h2, List.append_assoc]⟩

theorem teardownGroup_some {a : App} {group : String} {b : Nat} (h : a.bridges.get group = some b)
    (reason : Option String) (hangUp : Bool) :
    ∃ es, a.teardownGroup group reason hangUp =
      ({ a with bridges := a.bridges.erase group, sessions := a.sessions.erase (a.heap b).session.callId,
                log := a.log ++ es }.setBridge b (a.heap b).close).clearContext group := by
  unfold teardownGroup
  rw [h]
  obtain ⟨e0, h0⟩ := notify_eq { a with
    bridges := a.bridges.erase group, sessions := a.sessions.erase (a.heap b).session.callId } group reason
  obtain ⟨e1, h1⟩ := hangUpLegs_eq { a with
    bridges := a.bridges.erase group, sessions := a.sessions.erase (a.heap b).session.callId,
    log := a.log ++ e0 } (a.heap b).session hangUp
  exact ⟨e0 ++ e1, by simp only [h0, h1, List.append_assoc]⟩

section teardown

variable (a : App) (group : String) (reason : Option String) (hangUp : Bool)

@[simp] theorem teardownGroup_sockets : (a.teardownGroup group reason hangUp).sockets = a.sockets := by
  cases h : a.bridges.get group with
  | none => rw [teardownGroup_none h]; rfl
  | some b => obtain ⟨es, he⟩ := teardownGroup_some h reason hangUp; rw [he]; rfl

@[simp] theorem teardownGroup_fresh : (a.teardownGroup group reason hangUp).fresh = a.fresh := by
  cases h : a.bridges.get group with
  | none => rw [teardownGroup_none h]; rfl
  | some b => obtain ⟨es, he⟩ := teardownGroup_some h reason hangUp; rw [he]; rfl

@[simp] theorem teardownGroup_now : (a.teardownGroup group reason hangUp).now = a.now := by
  cases h : a.bridges.get group with
  | none => rw [teardownGroup_none h]; rfl
  | some b => obtain ⟨es, he⟩ := teardownGroup_some h reason hangUp; rw [he]; rfl

theorem teardownGroup_bridges (g : String) :
    (a.teardownGroup group reason hangUp).bridges.get g = if g = group then none else a.bridges.get g := by
  cases h : a.bridges.get group with
  | none =>
    rw [teardownGroup_none h]
    by_cases hg : g = group
    · simp [clearContext, hg, h]
    · simp [clearContext, hg]
  | some b =>
    obtain ⟨es, he⟩ := teardownGroup_some h reason hangUp
    rw [he]
    exact a.bridges.get_erase group g

/-- The group's bridge is closed, and no other object changes. -/
theorem teardownGroup_heap (c : Nat) :
    (a.teardownGroup group reason hangUp).heap c =
      if a.bridges.get group = some c then (a.heap c).close else a.heap c := by
  cases h : a.bridges.get group with
  | none => rw [teardownGroup_none h]; rfl
  | some b =>
    obtain ⟨es, he⟩ := teardownGroup_some h reason hangUp
    rw [he]
    show (App.setBridge _ b _).heap c = _
    rw [setBridge_heap]
    by_cases hc : c = b
    · simp [hc]
    · simp [hc, Ne.symm hc]

theorem teardownGroup_legs (c : Nat) : SameLegs (a.heap c) ((a.teardownGroup group reason hangUp).heap c) := by
  rw [teardownGroup_heap]
  split
  · exact ⟨by simp, by simp, by simp, by simp⟩
  · exact SameLegs.refl _

end teardown

/-! ## The frame -/

/-- Nothing changed about who is connected to what. -/
structure Same (a a' : App) : Prop where
  bridges : a'.bridges = a.bridges
  fresh : a'.fresh = a.fresh
  legs : ∀ b, SameLegs (a.heap b) (a'.heap b)
  sockets : ∀ k, ∃ sent, a'.sockets k = { a.sockets k with sent }

theorem Same.refl (a : App) : Same a a :=
  ⟨rfl, rfl, fun _ => SameLegs.refl _, fun k => ⟨(a.sockets k).sent, rfl⟩⟩

theorem same_setBridge (a : App) {b : Nat} {br : CallBridge} (h : SameLegs (a.heap b) br) :
    Same a (a.setBridge b br) := by
  refine ⟨rfl, rfl, fun c => ?_, fun k => ⟨(a.sockets k).sent, rfl⟩⟩
  rw [setBridge_heap]
  split
  · rename_i hc; rw [hc]; exact h
  · exact SameLegs.refl _

theorem same_sms (a : App) {b : Nat} {br : CallBridge} (h : SameLegs (a.heap b) br) (group body : String) :
    Same a ((a.setBridge b br).sms group body) := by
  obtain ⟨es, he, -⟩ := (a.setBridge b br).sms_eq group body
  rw [he]
  have hb := same_setBridge a h
  exact ⟨hb.bridges, hb.fresh, hb.legs, hb.sockets⟩

/-- A redirect has been asked for on bridge `b`. -/
def pressed (a : App) (b : Nat) (keys : String) : App :=
  { a.setBridge b { a.heap b with reconnecting := true, reconnectSince := some a.now } with
    redirects := a.redirects ++ [{ bridge := b, keys }] }

/-- Everything a hook can do. -/
theorem hook_cases (b : Nat) (a : App) (e : Effect) :
    Same a (hook b a e) ∨ (∃ keys, hook b a e = a.pressed b keys) ∨
    (∃ reason, e = .onFail reason ∧ hook b a e = a.teardownGroup (a.heap b).groupId (some reason) true) := by
  cases e with
  | dtmfSender digits =>
    rcases (a.heap b).pressDtmf_cases digits a.now with h | ⟨keys, h⟩
    · exact .inl (by simpa [hook, h] using same_setBridge a (SameLegs.refl _))
    · exact .inr (.inl ⟨keys, by simp [hook, h, pressed]⟩)
  | onBridge =>
    refine .inl ?_
    simp only [hook]
    rcases (a.heap b).beginHandoff_cases a.openaiApiKey with ⟨-, h⟩ | ⟨-, -, h⟩ | ⟨-, -, h⟩ | ⟨-, -, h⟩ <;>
      simp only [h]
    · exact same_setBridge a (SameLegs.refl _)
    · exact same_setBridge a ⟨rfl, rfl, rfl, rfl⟩
    · refine same_sms a ?_ _ _
      exact ⟨rfl, rfl, rfl, rfl⟩
    · exact same_setBridge a ⟨rfl, rfl, rfl, rfl⟩
  | onFail reason => exact .inr (.inr ⟨reason, rfl, rfl⟩)
  | classify frame => exact .inl (Same.refl a)
  | emit ev => exact .inl (Same.refl a)
  | submit j => exact .inl (Same.refl a)
  | polled j r => exact .inl (Same.refl a)

section keeps

variable {P : App → Prop} {b : Nat}

/-- What a session does through its hooks keeps an invariant that the frame, a keypress and the group's
teardown keep. -/
theorem advance_keeps (hsame : ∀ a a', Same a a' → P a → P a')
    (hpress : ∀ a keys, P a → P (a.pressed b keys))
    (htear : ∀ a reason, P a → P (a.teardownGroup (a.heap b).groupId (some reason) true))
    {a : App} (h : P a) (s : AgentSession) : P (a.advance b s) := by
  unfold advance
  have h0 : P (a.setBridge b { a.heap b with session := s }) :=
    hsame a _ (same_setBridge a ⟨rfl, rfl, rfl, rfl⟩) h
  generalize a.setBridge b { a.heap b with session := s } = a' at h0
  generalize s.trace.drop (a.heap b).session.trace.length = es
  induction es generalizing a' with
  | nil => exact h0
  | cons e es ih =>
    refine ih _ ?_
    rcases hook_cases b a' e with hs | ⟨keys, he⟩ | ⟨reason, -, he⟩
    · exact hsame a' _ hs h0
    · rw [he]; exact hpress a' keys h0
    · rw [he]; exact htear a' reason h0

theorem onAgentAudio_keeps (hsame : ∀ a a', Same a a' → P a → P a')
    (hpress : ∀ a keys, P a → P (a.pressed b keys))
    (htear : ∀ a reason, P a → P (a.teardownGroup (a.heap b).groupId (some reason) true))
    {a : App} (h : P a) (ulaw : List UInt8) (ticks : List Tick) : P (a.onAgentAudio b ulaw ticks) := by
  have h0 : P (a.setBridge b ((a.heap b).relayAgentAudio ulaw)) := by
    refine hsame a _ (same_setBridge a ?_) h
    obtain ⟨p, o, he⟩ := (a.heap b).relayAgentAudio_eq ulaw
    rw [he]
    exact ⟨rfl, rfl, rfl, rfl⟩
  unfold onAgentAudio
  dsimp only
  split
  · exact h0
  · exact advance_keeps hsame hpress htear h0 _

/-- The snapshot's entries stay registered until their turn comes. -/
theorem reapStaleBridges_keeps
    (htear : ∀ a group b, a.bridges.get group = some b → Stale (a.heap b) a.now → P a →
      P (a.teardownGroup group (some "dropped") true))
    {a : App} (h : P a) : P a.reapStaleBridges.1 := by
  unfold reapStaleBridges
  have hreg : ∀ p ∈ a.bridges.items, a.bridges.get p.1 = some p.2 := fun p hp => Dict.mem_items.1 hp
  have hnodup := a.bridges.nodup
  generalize a.bridges.items = items at hreg hnodup
  generalize (0 : Nat) = n
  induction items generalizing a n with
  | nil => exact h
  | cons p items ih =>
    simp only [List.map_cons, List.nodup_cons] at hnodup
    obtain ⟨g, c⟩ := p
    rw [List.foldl_cons]
    dsimp only
    split
    · rename_i hstale
      refine ih (htear a g c (hreg (g, c) (by simp)) hstale h) (fun q hq => ?_) hnodup.2 _
      rw [teardownGroup_bridges, if_neg]
      · exact hreg q (List.mem_cons_of_mem _ hq)
      · intro heq
        have hm : q.1 ∈ items.map Prod.fst := List.mem_map_of_mem hq
        rw [heq] at hm
        exact hnodup.1 hm
    · exact ih h (fun q hq => hreg q (List.mem_cons_of_mem _ hq)) hnodup.2 _

end keeps

/-! ## Actions that stay in the frame -/

theorem post_same (a : App) (group : String) (req : CallRequest) (placed : Bool) :
    Same a (a.post group req placed) := by
  unfold post
  split
  · exact Same.refl a
  · dsimp only
    split <;> exact ⟨rfl, rfl, fun _ => SameLegs.refl _, fun k => ⟨(a.sockets k).sent, rfl⟩⟩

theorem work_same (a : App) (group : String) (ring : Option String) : Same a (a.work group ring) := by
  have hrest : ∀ a' : App, a'.bridges = a.bridges → a'.fresh = a.fresh → a'.heap = a.heap →
      a'.sockets = a.sockets → Same a a' := by
    intro a' h1 h2 h3 h4
    exact ⟨h1, h2, fun b => by rw [h3]; exact SameLegs.refl _, fun k => ⟨(a.sockets k).sent, by rw [h4]⟩⟩
  unfold work
  split
  · exact Same.refl a
  · dsimp only
    split
    · exact hrest _ rfl rfl rfl rfl
    · exact hrest _ rfl rfl rfl rfl
    · split <;> exact hrest _ rfl rfl rfl rfl
    · split <;> exact hrest _ rfl rfl rfl rfl
    · exact hrest _ rfl rfl rfl rfl
    · exact Same.refl a

theorem drain_same (a : App) (k : Nat) : Same a (a.drain k) := by
  unfold drain
  dsimp only
  split
  · rename_i b _ hb
    have hout : ∀ br : CallBridge, SameLegs (a.heap b) br → ∀ sent,
        Same a ((a.setBridge b br).setSocket k { a.sockets k with sent }) := by
      intro br hbr sent
      have hs := same_setBridge a hbr
      refine ⟨hs.bridges, hs.fresh, hs.legs, fun j => ?_⟩
      rw [setSocket_sockets]
      split
      · rename_i hj; exact ⟨sent, by rw [hj]⟩
      · exact hs.sockets j
    refine hout _ ?_ _
    split <;> exact ⟨rfl, rfl, rfl, rfl⟩
  · exact Same.refl a

theorem play_same (a : App) (b : Nat) (pcm : Pcm) : Same a (a.play b pcm) := by
  unfold play
  split
  · refine same_setBridge a ?_
    obtain ⟨o, he⟩ := (a.heap b).playToAgent_eq pcm
    rw [he]
    exact ⟨rfl, rfl, rfl, rfl⟩
  · exact Same.refl a

theorem probe_same (a : App) (b : Nat) (running : Bool) : Same a (a.probe b running) := by
  unfold probe
  split
  · exact same_setBridge a ⟨rfl, rfl, rfl, rfl⟩
  · exact Same.refl a

theorem waitDrained_same (a : App) (b left : Nat) : Same a (a.waitDrained b left) := by
  unfold waitDrained
  rcases (a.heap b).waitDrained_cases left with h | ⟨n, h⟩ <;> simp only [h]
  · refine same_sms a ?_ _ _
    exact ⟨rfl, rfl, rfl, rfl⟩
  · exact same_setBridge a ⟨rfl, rfl, rfl, rfl⟩

theorem spoken_same (a : App) (b : Nat) : Same a (a.spoken b) := by
  unfold spoken
  split
  · exact waitDrained_same a b _
  · exact Same.refl a

theorem drained_same (a : App) (b : Nat) : Same a (a.drained b) := by
  unfold drained
  split
  · exact waitDrained_same a b _
  · exact Same.refl a

/-- These stay in the frame in every state. -/
def Action.Inert : Action → Prop
  | .post .. | .work .. | .drain .. | .spoken .. | .drained .. | .play .. | .probe .. | .wait .. => True
  | _ => False

theorem same_of_inert (a : App) {act : Action} (h : act.Inert) : Same a (step a act) := by
  cases act with
  | post group req placed => exact post_same a group req placed
  | work group ring => exact work_same a group ring
  | drain k => exact drain_same a k
  | spoken b => exact spoken_same a b
  | drained b => exact drained_same a b
  | play b pcm => exact play_same a b pcm
  | probe b running => exact probe_same a b running
  | wait dt => exact ⟨rfl, rfl, fun _ => SameLegs.refl _, fun k => ⟨(a.sockets k).sent, rfl⟩⟩
  | _ => exact h.elim

/-- A redirect thread that ends changes the frame only when Twilio raised. -/
theorem redirect_cases (a : App) (n : Nat) (ok : Bool) :
    Same a (a.redirect n ok) ∨
    ∃ r redirects log, a.redirects[n]? = some r ∧ ok = false ∧ (a.heap r.bridge).dtmfRedirect ≠ none ∧
      a.redirect n ok =
        { a with redirects, log }.setBridge r.bridge { a.heap r.bridge with reconnecting := false } := by
  unfold redirect
  split
  · exact .inl (Same.refl a)
  · rename_i r hr
    have hrest : ∀ redirects log, Same a { a with redirects, log } := fun _ _ =>
      ⟨rfl, rfl, fun _ => SameLegs.refl _, fun k => ⟨(a.sockets k).sent, rfl⟩⟩
    dsimp only
    split
    · exact .inl (hrest _ _)
    · rename_i callId url hw
      cases ok with
      | true => exact .inl (hrest _ _)
      | false => exact .inr ⟨r, _, _, hr, rfl, by simp [hw], rfl⟩

end App

end DialPass
