import DialPass.Media.Pieces
/-!
# Which call a bridge belongs to, and what is asked of Twilio

Whatever the registry does, a bridge stays its call's and comes back from a keypress to where it did before
(`SameLine`), the keys of a redirect are keypad keys, and Twilio is asked to text, to hang up, and to dial again for a
group whose number is stored (`Routine`). `Stays` says so for a piece of code; `step_stays` for every step but the four
that make a call, a bridge or a redirect.
-/

namespace DialPass

/-- What `press_dtmf` passes on: at least one key, and all of them on the keypad (bridge.py:124). -/
def Keypad (keys : String) : Prop := keys ≠ "" ∧ ∀ c ∈ keys.toList, c ∈ CallBridge.dtmfKeys

namespace CallBridge

structure SameLine (br br' : CallBridge) : Prop where
  groupId : br'.groupId = br.groupId
  callId : br'.session.callId = br.session.callId
  dtmfRedirect : br'.dtmfRedirect = br.dtmfRedirect

theorem SameLine.refl (br : CallBridge) : SameLine br br := ⟨rfl, rfl, rfl⟩

theorem SameLine.trans {br br' br'' : CallBridge} (h : SameLine br br') (h' : SameLine br' br'') : SameLine br br'' :=
  ⟨h'.groupId.trans h.groupId, h'.callId.trans h.callId, h'.dtmfRedirect.trans h.dtmfRedirect⟩

theorem close_sameLine (br : CallBridge) : SameLine br br.close := by
  unfold close
  split
  · exact .refl br
  · exact ⟨rfl, rfl, rfl⟩

theorem pressDtmf_keypad {br br' : CallBridge} {digits keys : String} {now : ℚ}
    (h : br.pressDtmf digits now = (br', some keys)) : Keypad keys := by
  simp only [pressDtmf] at h
  split at h
  · exact absurd (congrArg Prod.snd h) (by simp)
  · rename_i hsafe
    obtain rfl : String.ofList (digits.toList.filter (· ∈ dtmfKeys)) = keys := Option.some.inj (congrArg Prod.snd h)
    refine ⟨fun he => hsafe (.inl ?_), fun c hc => ?_⟩
    · rw [he]
      rfl
    · rw [String.toList_ofList] at hc
      simpa using (List.mem_filter.1 hc).2

end CallBridge

namespace App

open CallBridge

/-- The url that leads an agent's leg to its group (calls.py:59, media.py:137, media.py:209). -/
def voiceUrl (base group : String) : String := base ++ "/twiml/voice?group=" ++ group

/-- And a user's (calls.py:69). -/
def joinUrl (base group : String) : String := base ++ "/twiml/join?group=" ++ group

/-- Twilio is told to end something, or to dial a number again that is stored. -/
def Routine (a : App) : Twilio → Prop
  | .placeOutboundCall _ url group => url = voiceUrl a.publicBaseUrl group ∧ a.callMeta.get group ≠ none
  | .sendSms .. | .hangUp _ => True
  | .ringUser .. | .pressDigits .. => False

structure Stays (a a' : App) : Prop where
  base : a'.publicBaseUrl = a.publicBaseUrl
  fresh : a'.fresh = a.fresh
  creates : a'.creates = a.creates
  callMeta : ∀ g, a'.callMeta.get g ≠ none → a.callMeta.get g ≠ none
  lines : ∀ b, SameLine (a.heap b) (a'.heap b)
  redirects : ∀ r ∈ a'.redirects, r ∈ a.redirects ∨ r.bridge < a.fresh ∧ Keypad r.keys
  log : ∃ es, a'.log = a.log ++ es ∧ ∀ e ∈ es, a.Routine e

variable {a a' a'' : App}

theorem Stays.refl (a : App) : Stays a a :=
  ⟨rfl, rfl, rfl, fun _ => id, fun _ => .refl _, fun _ => .inl, [], by simp, by simp⟩

theorem Routine.back {e : Twilio} (h : Stays a a') (he : a'.Routine e) : a.Routine e := by
  cases e with
  | placeOutboundCall number url group => exact ⟨h.base ▸ he.1, h.callMeta group he.2⟩
  | _ => exact he

theorem Stays.trans (h : Stays a a') (h' : Stays a' a'') : Stays a a'' where
  base := h'.base.trans h.base
  fresh := h'.fresh.trans h.fresh
  creates := h'.creates.trans h.creates
  callMeta g hg := h.callMeta g (h'.callMeta g hg)
  lines b := (h.lines b).trans (h'.lines b)
  redirects r hr := by
    rcases h'.redirects r hr with hr | hr
    · exact h.redirects r hr
    · exact .inr ⟨h.fresh ▸ hr.1, hr.2⟩
  log := by
    obtain ⟨es, he, hes⟩ := h.log
    obtain ⟨fs, hf, hfs⟩ := h'.log
    refine ⟨es ++ fs, by rw [hf, he, List.append_assoc], fun e hm => ?_⟩
    rcases List.mem_append.1 hm with hm | hm
    · exact hes e hm
    · exact (hfs e hm).back h

/-! ## One lemma per function -/

/-- What only moves handlers, registrations, goals and numbers. -/
theorem Stays.aside (base : a'.publicBaseUrl = a.publicBaseUrl) (fresh : a'.fresh = a.fresh)
    (creates : a'.creates = a.creates) (callMeta : ∀ g, a'.callMeta.get g ≠ none → a.callMeta.get g ≠ none)
    (heap : a'.heap = a.heap) (redirects : a'.redirects ⊆ a.redirects) (log : a'.log = a.log) : Stays a a' :=
  ⟨base, fresh, creates, callMeta, fun b => heap ▸ .refl _, fun _ hr => .inl (redirects hr), [], by simp [log], by simp⟩

theorem stays_setSocket (a : App) (k : Nat) (s : Socket) : Stays a (a.setSocket k s) :=
  .aside rfl rfl rfl (fun _ => id) rfl (List.Subset.refl _) rfl

theorem stays_setBridge (a : App) {b : Nat} {br : CallBridge} (h : SameLine (a.heap b) br) :
    Stays a (a.setBridge b br) := by
  refine ⟨rfl, rfl, rfl, fun _ => id, fun c => ?_, fun _ => .inl, [], by simp [setBridge], by simp⟩
  rw [setBridge_heap]
  split
  · rename_i hc
    rw [hc]
    exact h
  · exact .refl _

theorem stays_request (a : App) {e : Twilio} (h : a.Routine e) : Stays a (a.request e) :=
  ⟨rfl, rfl, rfl, fun _ => id, fun _ => .refl _, fun _ => .inl, [e], rfl, by simpa using h⟩

theorem stays_hangUp (a : App) (sid : Option String) : Stays a (a.hangUp sid) := by
  unfold hangUp
  split
  · split
    · exact stays_request a trivial
    · exact .refl a
  · exact .refl a

theorem stays_sms (a : App) (g body : String) : Stays a (a.sms g body) := by
  unfold sms
  split
  · split
    · exact stays_request a trivial
    · exact .refl a
  · exact .refl a

theorem stays_clearContext (a : App) (g : String) : Stays a (a.clearContext g) := by
  refine .aside rfl rfl rfl (fun g' h hn => h ?_) rfl (List.Subset.refl _) rfl
  simp only [clearContext, Dict.get_erase]
  split
  · rfl
  · exact hn

theorem stays_teardownGroup (a : App) (g : String) (reason : Option String) (hangUp : Bool) :
    Stays a (a.teardownGroup g reason hangUp) := by
  unfold teardownGroup
  split
  · exact stays_clearContext a g
  · rename_i b _
    dsimp only
    generalize ht : { a with bridges := a.bridges.erase g, sessions := a.sessions.erase (a.heap b).session.callId } = t
    have h0 : Stays a t := by
      subst ht
      exact .aside rfl rfl rfl (fun _ => id) rfl (List.Subset.refl _) rfl
    have h1 : Stays t (t.notify g reason) := by
      unfold notify
      split
      · exact stays_sms ..
      · exact .refl t
    have h2 : ∀ u : App, Stays u (u.hangUpLegs (a.heap b).session hangUp) := fun u => by
      unfold hangUpLegs
      split
      · exact (stays_hangUp u _).trans (stays_hangUp ..)
      · exact .refl u
    have h3 := h0.trans (h1.trans (h2 _))
    refine h3.trans (Stays.trans (stays_setBridge _ ?_) (stays_clearContext ..))
    exact SameLine.trans ⟨(h3.lines b).groupId.symm, (h3.lines b).callId.symm, (h3.lines b).dtmfRedirect.symm⟩
      (close_sameLine _)

theorem stays_hook {b : Nat} (hb : b < a.fresh) (e : Effect) : Stays a (hook b a e) := by
  cases e with
  | dtmfSender digits =>
    simp only [hook]
    rcases (a.heap b).pressDtmf_cases digits a.now with h | ⟨keys, h⟩ <;> simp only [h]
    · exact stays_setBridge a (.refl _)
    · refine (stays_setBridge a (b := b) (by exact ⟨rfl, rfl, rfl⟩)).trans
        ⟨rfl, rfl, rfl, fun _ => id, fun _ => .refl _, fun r hr => ?_, [], by simp, by simp⟩
      rcases List.mem_append.1 hr with hr | hr
      · exact .inl hr
      · obtain rfl := List.mem_singleton.1 hr
        exact .inr ⟨hb, pressDtmf_keypad h⟩
  | onBridge =>
    simp only [hook]
    rcases (a.heap b).beginHandoff_cases a.openaiApiKey with ⟨-, h⟩ | ⟨-, -, h⟩ | ⟨-, -, h⟩ | ⟨-, -, h⟩ <;>
      simp only [h]
    · exact stays_setBridge a (.refl _)
    · exact stays_setBridge a ⟨rfl, rfl, rfl⟩
    · refine Stays.trans (stays_setBridge a ?_) (stays_sms ..)
      exact ⟨rfl, rfl, rfl⟩
    · exact stays_setBridge a ⟨rfl, rfl, rfl⟩
  | onFail reason => exact stays_teardownGroup ..
  | _ => exact .refl a

theorem stays_hooks {b : Nat} (es : List Effect) (hb : b < a.fresh) : Stays a (es.foldl (hook b) a) := by
  induction es generalizing a with
  | nil => exact .refl a
  | cons e es ih =>
    have h := stays_hook hb e
    exact h.trans (ih (h.fresh ▸ hb))

theorem stays_advance {b : Nat} {s : AgentSession} (hb : b < a.fresh) (hid : s.callId = (a.heap b).session.callId) :
    Stays a (a.advance b s) := by
  have h0 : Stays a (a.setBridge b { a.heap b with session := s }) := stays_setBridge a ⟨rfl, hid, rfl⟩
  exact h0.trans (stays_hooks _ (h0.fresh ▸ hb))

theorem stays_onAgentAudio {b : Nat} (hb : b < a.fresh) (ulaw : List UInt8) (ticks : List Tick) :
    Stays a (a.onAgentAudio b ulaw ticks) := by
  obtain ⟨p, o, he⟩ := (a.heap b).relayAgentAudio_eq ulaw
  have h0 : Stays a (a.setBridge b ((a.heap b).relayAgentAudio ulaw)) := by
    rw [he]
    exact stays_setBridge a ⟨rfl, rfl, rfl⟩
  unfold onAgentAudio
  dsimp only
  generalize a.setBridge b ((a.heap b).relayAgentAudio ulaw) = t at h0
  split
  · exact h0
  · obtain ⟨es, hap⟩ := AgentSession.feedAudio_leads (r := (t.heap b).handoffReply) (t.heap b).session
      (ulawToPcm16 ulaw) (ticks.map fun i => { i with onBridge := (t.heap b).handoffReply }) (by simp)
    exact h0.trans (stays_advance (h0.fresh ▸ hb) hap.callId)

theorem stays_finishUserLeg {b : Nat} (hb : b < a.fresh) : Stays a (a.finishUserLeg b) := by
  have h0 : Stays a (a.setBridge b { a.heap b with userStreamSid := none }) := stays_setBridge a ⟨rfl, rfl, rfl⟩
  unfold finishUserLeg
  dsimp only
  generalize a.setBridge b { a.heap b with userStreamSid := none } = t at h0
  split
  · obtain ⟨es, hap⟩ := AgentSession.abort_leads (r := .ok) (t.heap b).session "user_left"
    exact h0.trans (stays_advance (h0.fresh ▸ hb) hap.callId)
  · exact h0

theorem stays_redialAgentLeg (a : App) (g : String) (placed : Bool) : Stays a (a.redialAgentLeg g placed).1 := by
  unfold redialAgentLeg
  split
  · exact .refl a
  · rename_i m hm
    split
    · exact .refl a
    · have hset : Stays a { a with callMeta := a.callMeta.set g { m with redials := m.redials + 1 } } := by
        refine .aside rfl rfl rfl (fun g' h => ?_) rfl (List.Subset.refl _) rfl
        by_cases hg : g' = g
        · rw [hg, hm]
          simp
        · simpa [Dict.get_set, hg] using h
      exact hset.trans (stays_request _ ⟨rfl, by simp⟩)

theorem stays_finishAgentLeg (a : App) (b : Nat) (g : String) (sawStop placed : Bool) :
    Stays a (a.finishAgentLeg b g sawStop placed) := by
  have hred := stays_redialAgentLeg a g placed
  -- the bridge is given up, and its session forgotten
  have hgive : ∀ {t : App} (sessions : Dict String Nat), Stays a t →
      Stays a (App.setBridge { t with sessions } b (a.heap b).close) := by
    intro t sessions ht
    have h0 : Stays a { t with sessions } := ht.trans (.aside rfl rfl rfl (fun _ => id) rfl (List.Subset.refl _) rfl)
    refine h0.trans (stays_setBridge _ ?_)
    have hl := h0.lines b
    exact SameLine.trans ⟨hl.groupId.symm, hl.callId.symm, hl.dtmfRedirect.symm⟩ (close_sameLine _)
  unfold finishAgentLeg
  dsimp only
  split
  · exact .refl a
  · split
    · split
      · split
        · exact hgive _ (hred.trans (.aside rfl rfl rfl (fun _ => id) rfl (List.Subset.refl _) rfl))
        · exact hgive _ hred
      · exact hred.trans (stays_teardownGroup ..)
    · exact stays_teardownGroup ..

theorem stays_finish (hw : Wf a) (k : Nat) (placed : Bool) : Stays a (a.finish k placed) := by
  by_cases hc : (a.sockets k).phase = .closing
  · obtain ⟨t, he, -, hcase⟩ := a.finish_sockets k placed hc
    rw [he]
    refine Stays.trans ?_ (stays_setSocket ..)
    rcases hcase with ⟨b, -, -, rfl⟩ | ⟨b, hb, -, rfl⟩ | ⟨-, rfl⟩
    · exact stays_finishAgentLeg ..
    · exact stays_finishUserLeg (hw.held k b hb).1
    · exact .refl t
  · rw [a.finish_idle k placed hc]
    exact .refl a

theorem stays_serveUserLeg (a : App) (k tries : Nat) : Stays a (a.serveUserLeg k tries) := by
  unfold serveUserLeg
  dsimp only
  split
  · exact stays_setSocket ..
  · split
    · refine Stays.trans ?_ (stays_setSocket ..)
      exact stays_setBridge a ⟨rfl, rfl, rfl⟩
    · exact stays_setSocket ..

theorem stays_waitDrained (a : App) (b left : Nat) : Stays a (a.waitDrained b left) := by
  unfold waitDrained
  rcases (a.heap b).waitDrained_cases left with h | ⟨n, h⟩ <;> simp only [h]
  · refine Stays.trans ?_ (stays_sms ..)
    exact stays_setBridge a ⟨rfl, rfl, rfl⟩
  · exact stays_setBridge a ⟨rfl, rfl, rfl⟩

theorem stays_media (hw : Wf a) (k : Nat) (payload : List UInt8) (ticks : List Tick) :
    Stays a (a.media k payload ticks) := by
  unfold media
  dsimp only
  split
  · rename_i b _ hb _
    have h := stays_onAgentAudio (hw.held k b hb).1 payload ticks
    split
    · exact h.trans (stays_setSocket ..)
    · exact h
  · rename_i b _ _ _
    obtain ⟨o, he⟩ := (a.heap b).onUserAudio_eq payload
    rw [he]
    exact stays_setBridge a ⟨rfl, rfl, rfl⟩
  · exact .refl a

/-- The redirect thread asks Twilio for the keys it was started with, and for the way back of its bridge. -/
theorem redirect_stays (a : App) (n : Nat) (ok : Bool) : Stays a (a.redirect n ok) ∨
    ∃ r callId url, r ∈ a.redirects ∧ (a.heap r.bridge).dtmfRedirect = some (callId, url) ∧
      Stays { a with redirects := a.redirects.eraseIdx n, log := a.log ++ [.pressDigits callId r.keys url] }
        (a.redirect n ok) := by
  unfold redirect
  split
  · exact .inl (.refl a)
  · rename_i r hr
    dsimp only
    split
    · exact .inl (.aside rfl rfl rfl (fun _ => id) rfl List.eraseIdx_subset rfl)
    · rename_i callId url hd
      refine .inr ⟨r, callId, url, List.mem_of_getElem? hr, hd, ?_⟩
      split
      · exact .refl _
      · exact stays_setBridge _ ⟨rfl, rfl, rfl⟩

/-- The step makes a call, a bridge or a redirect. -/
def Action.Opens : Action → Prop
  | .start .. | .post .. | .work .. | .redirect .. => True
  | _ => False

theorem step_stays (hw : Wf a) (act : Action) (h : ¬ act.Opens) : Stays a (step a act) := by
  cases act with
  | start k m => exact absurd trivial h
  | post g req placed => exact absurd trivial h
  | work g ring => exact absurd trivial h
  | redirect n ok => exact absurd trivial h
  | poll k =>
    simp only [step, poll]
    split
    · exact stays_serveUserLeg a k _
    · exact .refl a
  | media k payload ticks => exact stays_media hw ..
  | close k stop =>
    simp only [step, close]
    split
    · exact stays_setSocket ..
    · exact stays_setSocket ..
    · exact .refl a
  | finish k placed => exact stays_finish hw ..
  | drain k =>
    simp only [step, drain]
    split
    · refine Stays.trans ?_ (stays_setSocket ..)
      refine stays_setBridge a ?_
      split <;> exact ⟨rfl, rfl, rfl⟩
    · exact .refl a
  | spoken b =>
    simp only [step, spoken]
    split
    · exact stays_waitDrained a b _
    · exact .refl a
  | drained b =>
    simp only [step, drained]
    split
    · exact stays_waitDrained a b _
    · exact .refl a
  | play b pcm =>
    simp only [step, play]
    split
    · obtain ⟨o, he⟩ := (a.heap b).playToAgent_eq pcm
      rw [he]
      exact stays_setBridge a ⟨rfl, rfl, rfl⟩
    · exact .refl a
  | probe b running =>
    simp only [step, probe]
    split
    · exact stays_setBridge a ⟨rfl, rfl, rfl⟩
    · exact .refl a
  | reap =>
    exact reapStaleBridges_keeps (P := Stays a) (fun t g _ _ _ h => h.trans (stays_teardownGroup t g _ _)) (.refl a)
  | wait dt => exact .aside rfl rfl rfl (fun _ => id) rfl (List.Subset.refl _) rfl

end App

end DialPass
