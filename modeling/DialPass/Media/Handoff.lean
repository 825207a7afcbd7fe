import DialPass.Media.Registry
import DialPass.Session.Outcome
/-!
# The handoff and the user who leaves (bridge.py:178-214, media.py:183-192, session.py:267-290)

`begin_handoff` looks for the user once; the session then reports the call as completed while
`_do_handoff` still speaks and drains, and only afterwards opens the relay. `Talk` says once what a step
can do to one bridge's side of this. A user leg that ends in between is the one step that breaks what
the handoff promises (`handoff_iff`).
-/

namespace DialPass

namespace CallBridge

/-- The parts of a bridge the handoff is about. -/
structure SameTalk (br br' : CallBridge) : Prop where
  trace : br'.session.trace = br.session.trace
  finished : br'.session.finished = br.session.finished
  userStreamSid : br'.userStreamSid = br.userStreamSid
  relayOpen : br'.relayOpen = br.relayOpen
  handoffStarted : br'.handoffStarted = br.handoffStarted
  handoff : br'.handoff = br.handoff

theorem SameTalk.refl (br : CallBridge) : SameTalk br br := ⟨rfl, rfl, rfl, rfl, rfl, rfl⟩

theorem SameTalk.trans {br br' br'' : CallBridge} (h : SameTalk br br') (h' : SameTalk br' br'') :
    SameTalk br br'' :=
  ⟨h'.trace.trans h.trace, h'.finished.trans h.finished, h'.userStreamSid.trans h.userStreamSid,
    h'.relayOpen.trans h.relayOpen, h'.handoffStarted.trans h.handoffStarted, h'.handoff.trans h.handoff⟩

theorem close_sameTalk (br : CallBridge) : SameTalk br br.close :=
  ⟨close_trace _, close_finished _, close_userStreamSid _, close_relayOpen _, close_handoffStarted _,
    close_handoff _⟩

/-- The handoff's fields agree with the session. -/
structure Coherent (br : CallBridge) : Prop where
  started : br.handoffStarted = true → br.session.finished = true
  pending : br.handoff ≠ .idle →
    br.handoffStarted = true ∧ br.session.Completed ∧ br.relayOpen = false
  relay : br.relayOpen = true → br.handoffStarted = true
  completed : br.session.Completed → br.session.finished = true

/-- A call reported as completed has its relay open, or the user on the line. -/
def Reported (br : CallBridge) : Prop :=
  br.session.Completed → br.relayOpen = false → br.userStreamSid ≠ none

instance (br : CallBridge) : Decidable br.Reported := inferInstanceAs (Decidable (_ → _))

theorem SameTalk.completed {br br' : CallBridge} (h : SameTalk br br') :
    br'.session.Completed ↔ br.session.Completed := by
  unfold AgentSession.Completed
  rw [h.trace]

/-- What one step can do to a bridge: nothing to its handoff, create it, bind a user, feed its session
while that is live, let the handoff come out of a wait, or, if the step `leaves`, end the user's leg. -/
inductive Talk (leaves : Prop) : CallBridge → CallBridge → Prop where
  | same {br br' : CallBridge} : SameTalk br br' → Talk leaves br br'
  | created {br br' : CallBridge} : br'.session.trace = [] → br'.relayOpen = false →
      br'.handoffStarted = false → br'.handoff = .idle → Talk leaves br br'
  | bound (br : CallBridge) (sid : String) : Talk leaves br (br.bindUser sid)
  | fed {br br' : CallBridge} : br'.Coherent → br'.Reported →
      (br'.relayOpen = true → br'.userStreamSid ≠ none) → Talk leaves br br'
  | waited (br : CallBridge) (left : Nat) : br.handoff ≠ .idle → Talk leaves br (br.waitDrained left).1
  | left {br br' : CallBridge} : leaves → SameTalk { br with userStreamSid := none } br' → Talk leaves br br'
  | aborted {br br' : CallBridge} : br'.Coherent → ¬ br'.session.Completed → br'.relayOpen = false →
      Talk leaves br br'

theorem Coherent.same {br br' : CallBridge} (hs : SameTalk br br') (h : br.Coherent) : br'.Coherent where
  started := by rw [hs.handoffStarted, hs.finished]; exact h.started
  pending := by rw [hs.handoff, hs.handoffStarted, hs.completed, hs.relayOpen]; exact h.pending
  relay := by rw [hs.relayOpen, hs.handoffStarted]; exact h.relay
  completed := by rw [hs.completed, hs.finished]; exact h.completed

section talk

variable {leaves : Prop} {br br' : CallBridge}

theorem Coherent.talk (h : br.Coherent) (ht : Talk leaves br br') : br'.Coherent := by
  cases ht with
  | same hs => exact h.same hs
  | created htr hr hst hh =>
    refine ⟨fun hs => ?_, fun hn => absurd hh hn, fun hr' => ?_, fun ⟨e, he, _⟩ => ?_⟩
    · rw [hst] at hs; cases hs
    · rw [hr] at hr'; cases hr'
    · rw [htr] at he; cases he
  | bound sid => exact ⟨h.started, h.pending, h.relay, h.completed⟩
  | fed hco => exact hco
  | waited left hp =>
    obtain ⟨hst, hc, hr⟩ := h.pending hp
    rcases br.waitDrained_cases left with he | ⟨n, he⟩ <;> rw [he]
    · exact ⟨h.started, fun hn => absurd rfl hn, fun _ => hst, h.completed⟩
    · exact ⟨h.started, fun _ => ⟨hst, hc, hr⟩, h.relay, h.completed⟩
  | left _ hs => exact Coherent.same hs ⟨h.started, h.pending, h.relay, h.completed⟩
  | aborted hco => exact hco

/-- The relay is opened to a user who is there. -/
theorem Talk.opens (ht : Talk leaves br br') (h : br.Coherent) (hrep : br.Reported)
    (hc : br.relayOpen = false) (ho : br'.relayOpen = true) : br'.userStreamSid ≠ none := by
  have hno : ∀ {P : Prop}, br'.relayOpen = false → P := fun hf => by rw [ho] at hf; cases hf
  cases ht with
  | same hs => exact hno (hs.relayOpen.trans hc)
  | created _ hr => exact hno hr
  | bound sid => exact hno hc
  | fed _ _ hu => exact hu ho
  | waited left hp =>
    have hu : br.userStreamSid ≠ none := hrep (h.pending hp).2.1 hc
    rcases br.waitDrained_cases left with he | ⟨n, he⟩ <;> rw [he] <;> exact hu
  | left _ hs => exact hno (hs.relayOpen.trans hc)
  | aborted _ _ hr => exact hno hr

/-- Only the user's leaving takes the user from a call that was reported. -/
theorem Reported.talk (hrep : br.Reported) (ht : Talk leaves br br')
    (hleft : leaves → ¬ (br.session.Completed ∧ br.relayOpen = false)) : br'.Reported := by
  cases ht with
  | same hs =>
    intro hc hr
    rw [hs.userStreamSid]
    exact hrep (hs.completed.1 hc) (hs.relayOpen ▸ hr)
  | created htr => rintro ⟨e, he, -⟩; rw [htr] at he; cases he
  | bound sid => exact fun _ _ => Option.some_ne_none sid
  | fed _ hr => exact hr
  | waited left hp =>
    rcases br.waitDrained_cases left with he | ⟨n, he⟩ <;> rw [he]
    · exact fun _ hr => by cases hr
    · exact hrep
  | left hl hs =>
    intro hc hr
    exact absurd ⟨hs.completed.1 hc, hs.relayOpen.symm.trans hr⟩ (hleft hl)
  | aborted _ hc => exact fun hc' => absurd hc' hc

end talk

end CallBridge

namespace App

open CallBridge

/-! ## What a step does to each bridge -/

/-- No bridge's handoff is touched. -/
def SameTalks (a a' : App) : Prop := ∀ b, SameTalk (a.heap b) (a'.heap b)

theorem SameTalks.refl (a : App) : SameTalks a a := fun _ => SameTalk.refl _

theorem SameTalks.setBridge {a a' : App} (h : SameTalks a a') {b : Nat} {c : CallBridge}
    (hb : SameTalk (a'.heap b) c) : SameTalks a (a'.setBridge b c) := by
  intro d
  rw [setBridge_heap]
  split
  · rename_i hd; rw [hd]; exact (h b).trans hb
  · exact h d

theorem SameTalks.teardownGroup {a a' : App} (h : SameTalks a a') (group : String) (reason : Option String)
    (hangUp : Bool) : SameTalks a (a'.teardownGroup group reason hangUp) := by
  intro c
  rw [teardownGroup_heap]
  split
  · exact (h c).trans (close_sameTalk _)
  · exact h c

theorem sms_heap (a : App) (group body : String) : (a.sms group body).heap = a.heap := by
  obtain ⟨es, he, -⟩ := a.sms_eq group body
  rw [he]

/-- A hook other than `on_bridge` touches no handoff. -/
theorem hook_sameTalks {b : Nat} {a : App} {e : Effect} (he : e ≠ .onBridge) : SameTalks a (hook b a e) := by
  cases e with
  | dtmfSender digits =>
    rcases (a.heap b).pressDtmf_cases digits a.now with h | ⟨keys, h⟩ <;> simp only [hook, h]
    · exact (SameTalks.refl a).setBridge (SameTalk.refl _)
    · have h' := (SameTalks.refl a).setBridge (b := b)
        (c := { a.heap b with reconnecting := true, reconnectSince := some a.now }) ⟨rfl, rfl, rfl, rfl, rfl, rfl⟩
      exact h'
  | onBridge => exact absurd rfl he
  | onFail reason => exact (SameTalks.refl a).teardownGroup _ _ _
  | _ => exact SameTalks.refl a

/-- `on_bridge` calls `begin_handoff`. -/
theorem hook_onBridge_heap (b : Nat) (a : App) :
    (hook b a .onBridge).heap = Function.update a.heap b ((a.heap b).beginHandoff a.openaiApiKey).1 := by
  simp only [hook]
  generalize (a.heap b).beginHandoff a.openaiApiKey = p
  obtain ⟨br, notify⟩ := p
  cases notify with
  | true => exact sms_heap _ _ _
  | false => rfl

/-- The hooks of a session `s` that has gone on from a live one: what the handoff of bridge `b` is once
they have run. -/
structure Handed (s : AgentSession) (user : Option String) (br : CallBridge) : Prop where
  trace : br.session.trace = s.trace
  finished : br.session.finished = s.finished
  userStreamSid : br.userStreamSid = user
  coherent : br.Coherent
  toUser : br.relayOpen = true → user ≠ none

theorem Handed.same {s : AgentSession} {user : Option String} {br br' : CallBridge} (h : Handed s user br)
    (hs : SameTalk br br') : Handed s user br' where
  trace := hs.trace.trans h.trace
  finished := hs.finished.trans h.finished
  userStreamSid := hs.userStreamSid.trans h.userStreamSid
  coherent := h.coherent.same hs
  toUser := by rw [hs.relayOpen]; exact h.toUser

/-- `begin_handoff` in a session that is over, and completed if the user is there. -/
theorem Handed.beginHandoff {s : AgentSession} {user : Option String} {br : CallBridge} (h : Handed s user br)
    (hfin : s.finished = true) (hc : user ≠ none → s.Completed) (key : String) :
    Handed s user (br.beginHandoff key).1 := by
  have hfin' : br.session.finished = true := h.finished.trans hfin
  have hc' : br.userStreamSid ≠ none → br.session.Completed := by
    rw [h.userStreamSid]
    unfold AgentSession.Completed
    rw [h.trace]
    exact hc
  have hco := h.coherent
  rcases br.beginHandoff_cases key with ⟨-, he⟩ | ⟨-, -, he⟩ | ⟨hst, hu, he⟩ | ⟨hst, hu, he⟩ <;> rw [he]
  · exact h
  · exact ⟨h.trace, h.finished, h.userStreamSid, ⟨fun _ => hfin', fun hp => ⟨rfl, (hco.pending hp).2⟩,
      fun _ => rfl, hco.completed⟩, h.toUser⟩
  · have hidle : br.handoff = .idle := by
      by_contra hp
      rw [(hco.pending hp).1] at hst
      cases hst
    exact ⟨h.trace, h.finished, h.userStreamSid, ⟨fun _ => hfin', fun hp => absurd hidle hp, fun _ => rfl,
      hco.completed⟩, fun _ => h.userStreamSid ▸ hu⟩
  · have hr : br.relayOpen = false := by
      cases hr : br.relayOpen with
      | false => rfl
      | true => rw [hco.relay hr] at hst; cases hst
    exact ⟨h.trace, h.finished, h.userStreamSid, ⟨fun _ => hfin', fun _ => ⟨rfl, hc' hu, hr⟩, fun _ => rfl,
      hco.completed⟩, h.toUser⟩

theorem advance_handed {a : App} {b : Nat} {s : AgentSession} {r : BridgeReply} {es : List Effect}
    (hco : (a.heap b).Coherent) (hlive : (a.heap b).session.finished = false)
    (hap : AgentSession.Appends r es (a.heap b).session s)
    (hr : .onBridge ∈ es → (a.heap b).userStreamSid ≠ none → r = .ok) :
    Handed s (a.heap b).userStreamSid ((a.advance b s).heap b) ∧
      ∀ c, c ≠ b → SameTalk (a.heap c) ((a.advance b s).heap c) := by
  have hst : (a.heap b).handoffStarted = false := by
    cases hst : (a.heap b).handoffStarted with
    | false => rfl
    | true => rw [hco.started hst] at hlive; cases hlive
  have hnc : ¬ (a.heap b).session.Completed := fun hc => by rw [hco.completed hc] at hlive; cases hlive
  have hro : (a.heap b).relayOpen = false := by
    cases hro : (a.heap b).relayOpen with
    | false => rfl
    | true => rw [hco.relay hro] at hst; cases hst
  unfold advance
  rw [hap.trace, List.drop_left]
  generalize hu : (a.heap b).userStreamSid = user at hr
  have h0 : Handed s user ((a.setBridge b { a.heap b with session := s }).heap b) ∧
      ∀ c, c ≠ b → SameTalk (a.heap c) ((a.setBridge b { a.heap b with session := s }).heap c) := by
    refine ⟨?_, fun c hc => by rw [setBridge_heap_ne a hc]; exact SameTalk.refl _⟩
    rw [setBridge_heap_self]
    refine ⟨rfl, rfl, hu, ⟨fun h => ?_, fun hp => ?_, fun h => ?_, ?_⟩, fun h => ?_⟩
    · rw [hst] at h; cases h
    · have := (hco.pending hp).1; rw [hst] at this; cases this
    · rw [hro] at h; cases h
    · rintro ⟨e, he, hc⟩
      rw [hap.trace] at he
      rcases List.mem_append.1 he with he | he
      · exact absurd ⟨e, he, hc⟩ hnc
      · exact hap.handed (hap.completed ⟨e, he, hc⟩).2
    · rw [hro] at h; cases h
  -- what an `on_bridge` among the effects says about the session
  have hbr : .onBridge ∈ es → s.finished = true ∧ (user ≠ none → s.Completed) := by
    refine fun hb => ⟨hap.handed hb, fun hn => ?_⟩
    obtain ⟨e, he, hc⟩ := hap.answered hb (hr hb hn)
    exact ⟨e, by rw [hap.trace]; exact List.mem_append_right _ he, hc⟩
  generalize a.setBridge b { a.heap b with session := s } = a' at h0
  clear hap hr
  induction es generalizing a' with
  | nil => exact h0
  | cons e es ih =>
    refine ih (fun hb => hbr (List.mem_cons_of_mem _ hb)) _ ?_
    by_cases he : e = .onBridge
    · subst he
      obtain ⟨hfin, hc⟩ := hbr (by simp)
      rw [hook_onBridge_heap]
      refine ⟨?_, fun c hc => ?_⟩
      · rw [Function.update_self]
        exact h0.1.beginHandoff hfin hc _
      · rw [Function.update_of_ne hc]
        exact h0.2 c hc
    · have hs := hook_sameTalks (b := b) (a := a') he
      exact ⟨h0.1.same (hs b), fun c hc => (h0.2 c hc).trans (hs c)⟩

/-- Every bridge takes one `Talk` step; `leaves` says whose user's leg ends. -/
def Talks (leaves : Nat → Prop) (a a' : App) : Prop := ∀ b, Talk (leaves b) (a.heap b) (a'.heap b)

section talks

variable {leaves : Nat → Prop}

theorem SameTalks.talks {a a' : App} (h : SameTalks a a') : Talks leaves a a' := fun b => .same (h b)

theorem talks_setBridge {a : App} {b : Nat} {c : CallBridge} (h : Talk (leaves b) (a.heap b) c) :
    Talks leaves a (a.setBridge b c) := by
  intro d
  rw [setBridge_heap]
  split
  · rename_i hd; rw [hd]; exact h
  · exact .same (SameTalk.refl _)

/-- `on_agent_audio`: `begin_handoff` answers the session as it will be called. -/
theorem onAgentAudio_talks {a : App} (hco : ∀ b, (a.heap b).Coherent) (b : Nat) (ulaw : List UInt8)
    (ticks : List Tick) : Talks leaves a (a.onAgentAudio b ulaw ticks) := by
  obtain ⟨p, o, hrel⟩ := (a.heap b).relayAgentAudio_eq ulaw
  have hrs : SameTalk (a.heap b) ((a.heap b).relayAgentAudio ulaw) := by
    rw [hrel]
    exact ⟨rfl, rfl, rfl, rfl, rfl, rfl⟩
  unfold onAgentAudio
  dsimp only
  rw [setBridge_heap_self]
  split
  · exact ((SameTalks.refl a).setBridge hrs).talks
  · rename_i hlive
    have hlive' : ((a.heap b).relayAgentAudio ulaw).session.finished = false := by simpa using hlive
    obtain ⟨es, hap⟩ := AgentSession.feedAudio_leads (r := ((a.heap b).relayAgentAudio ulaw).handoffReply)
      ((a.heap b).relayAgentAudio ulaw).session (ulawToPcm16 ulaw)
      (ticks.map fun i => { i with onBridge := ((a.heap b).relayAgentAudio ulaw).handoffReply })
      (by simp)
    have hco' := (hco b).same hrs
    have hne : ∀ {c}, c ≠ b → (a.setBridge b ((a.heap b).relayAgentAudio ulaw)).heap c = a.heap c :=
      fun hc => setBridge_heap_ne a hc _
    -- the session is live, so the handoff has not started and only the user decides the answer
    have hst : ((a.heap b).relayAgentAudio ulaw).handoffStarted = false := by
      cases hst : ((a.heap b).relayAgentAudio ulaw).handoffStarted with
      | false => rfl
      | true => rw [hco'.started hst] at hlive'; cases hlive'
    have hreply : ((a.heap b).relayAgentAudio ulaw).handoffReply = .ok ↔
        ((a.heap b).relayAgentAudio ulaw).userStreamSid ≠ none := by
      unfold handoffReply
      by_cases hu : ((a.heap b).relayAgentAudio ulaw).userStreamSid = none <;> simp [hst, hu]
    obtain ⟨hh, hrest⟩ := advance_handed (a := a.setBridge b ((a.heap b).relayAgentAudio ulaw)) (b := b)
      (by rw [setBridge_heap_self]; exact hco') (by rw [setBridge_heap_self]; exact hlive')
      (by rw [setBridge_heap_self]; exact hap)
      (by rw [setBridge_heap_self]; exact fun _ hu => hreply.2 hu)
    rw [setBridge_heap_self] at hh
    intro c
    by_cases hc : c = b
    · subst hc
      refine .fed hh.coherent ?_ ?_
      · rintro ⟨e, he, hcmp⟩ -
        rw [hh.trace, hap.trace] at he
        rw [hh.userStreamSid]
        rcases List.mem_append.1 he with he | he
        · have := hco'.completed ⟨e, he, hcmp⟩
          rw [hlive'] at this
          cases this
        · exact hreply.1 (hap.completed ⟨e, he, hcmp⟩).1
      · rw [hh.userStreamSid]
        exact hh.toUser
    · have hs := hrest c hc
      rw [hne hc] at hs
      exact .same hs

/-- The `finally` of a user leg whose session is over only unbinds it. -/
theorem finishUserLeg_over {a : App} {b : Nat} (h : (a.heap b).session.finished = true) :
    (a.finishUserLeg b).heap b = { a.heap b with userStreamSid := none } := by
  unfold finishUserLeg
  dsimp only
  rw [setBridge_heap_self, if_neg (by simp [h]), setBridge_heap_self]

/-- The `finally` of a user leg. -/
theorem finishUserLeg_talks {a : App} (hco : ∀ b, (a.heap b).Coherent) {b : Nat} (hl : leaves b) :
    Talks leaves a (a.finishUserLeg b) := by
  have hco' : ({ a.heap b with userStreamSid := none } : CallBridge).Coherent :=
    ⟨(hco b).started, (hco b).pending, (hco b).relay, (hco b).completed⟩
  unfold finishUserLeg
  dsimp only
  rw [setBridge_heap_self]
  by_cases hlive : (a.heap b).relayOpen = false ∧ (a.heap b).session.finished = false
  · rw [if_pos hlive]
    obtain ⟨es, hap⟩ := AgentSession.abort_leads (r := .raised) (a.heap b).session "user_left"
    obtain ⟨hh, hrest⟩ := advance_handed (a := a.setBridge b { a.heap b with userStreamSid := none }) (b := b)
      (by rw [setBridge_heap_self]; exact hco') (by rw [setBridge_heap_self]; exact hlive.2)
      (by rw [setBridge_heap_self]; exact hap) (by rw [setBridge_heap_self]; exact fun _ hu => absurd rfl hu)
    rw [setBridge_heap_self] at hh
    generalize App.advance _ b _ = a' at hh hrest
    intro c
    by_cases hc : c = b
    · subst hc
      refine .aborted hh.coherent ?_ ?_
      · rintro ⟨e, he, hcmp⟩
        rw [hh.trace, hap.trace] at he
        rcases List.mem_append.1 he with he | he
        · have := (hco c).completed ⟨e, he, hcmp⟩
          rw [hlive.2] at this
          cases this
        · have := (hap.completed ⟨e, he, hcmp⟩).1
          cases this
      · cases hr : (a'.heap c).relayOpen with
        | false => rfl
        | true => exact absurd rfl (hh.toUser hr)
    · have hs := hrest c hc
      rw [setBridge_heap_ne a hc] at hs
      exact .same hs
  · rw [if_neg hlive]
    exact talks_setBridge (.left hl (SameTalk.refl _))

theorem finishAgentLeg_sameTalks (a : App) (b : Nat) (group : String) (sawStop placed : Bool) :
    SameTalks a (a.finishAgentLeg b group sawStop placed) := by
  rcases a.finishAgentLeg_cases b group sawStop placed with
    ⟨-, he⟩ | ⟨-, bridges, sessions, callMeta, log, -, he⟩ | ⟨-, callMeta, log, reason, hangUp, he⟩ <;> rw [he]
  · exact SameTalks.refl a
  · have h0 : SameTalks a { a with bridges, sessions, callMeta, log } := SameTalks.refl a
    exact h0.setBridge (close_sameTalk _)
  · have h0 : SameTalks a { a with callMeta, log } := SameTalks.refl a
    exact h0.teardownGroup _ _ _

theorem serveUserLeg_talks (a : App) (k tries : Nat) : Talks leaves a (a.serveUserLeg k tries) := by
  unfold serveUserLeg
  dsimp only
  split
  · exact (SameTalks.refl a).talks
  · split
    · rename_i b _
      exact talks_setBridge (a := a) (b := b) (.bound (a.heap b) (a.sockets k).streamSid)
    · exact (SameTalks.refl a).talks

theorem startAgentLeg_talks (a : App) (k : Nat) (m : Start) : Talks leaves a (a.startAgentLeg k m) := by
  unfold startAgentLeg
  dsimp only
  split
  · rename_i b _
    exact talks_setBridge (a := a) (b := b)
      (c := { (a.heap b).bindAgent m.streamSid true with reconnecting := false, reconnectSince := none })
      (.same ⟨rfl, rfl, rfl, rfl, rfl, rfl⟩)
  · intro c
    show Talk _ _ (Function.update a.heap a.fresh _ c)
    by_cases hc : c = a.fresh
    · rw [hc, Function.update_self]
      exact .created rfl rfl rfl rfl
    · rw [Function.update_of_ne hc]
      exact .same (SameTalk.refl _)

theorem waitDrained_talks {a : App} {b : Nat} (h : (a.heap b).handoff ≠ .idle) (left : Nat) :
    Talks leaves a (a.waitDrained b left) := by
  have hset : Talks leaves a (a.setBridge b ((a.heap b).waitDrained left).1) :=
    talks_setBridge (.waited (a.heap b) left h)
  unfold waitDrained
  generalize (a.heap b).waitDrained left = p at hset
  obtain ⟨br, notify⟩ := p
  cases notify with
  | true =>
    intro c
    rw [sms_heap]
    exact hset c
  | false => exact hset

theorem reapStaleBridges_sameTalks (a : App) : SameTalks a a.reapStaleBridges.1 :=
  reapStaleBridges_keeps (P := SameTalks a) (fun _ _ _ _ _ h => h.teardownGroup _ _ _) (SameTalks.refl a)

theorem work_heap (a : App) (group : String) (ring : Option String) : (a.work group ring).heap = a.heap := by
  unfold work
  split
  · rfl
  · dsimp only
    split <;> (try split) <;> rfl

theorem post_heap (a : App) (group : String) (req : CallRequest) (placed : Bool) :
    (a.post group req placed).heap = a.heap := by
  unfold post
  split
  · rfl
  · dsimp only
    split <;> rfl

end talks

/-- The action runs the `finally` of a user's leg of bridge `b`. -/
def Leaves (a : App) : Action → Nat → Prop
  | .finish k _, b =>
    (a.sockets k).phase = .closing ∧ (a.sockets k).role = .user ∧ (a.sockets k).bridge = some b
  | _, _ => False

instance (a : App) (act : Action) (b : Nat) : Decidable (a.Leaves act b) := by
  unfold Leaves; split <;> infer_instance

/-- The end of a user's leg runs `finishUserLeg`. -/
theorem finish_leaves {a : App} {k b : Nat} {placed : Bool} (h : a.Leaves (.finish k placed) b) :
    ∃ s, step a (.finish k placed) = (a.finishUserLeg b).setSocket k s := by
  obtain ⟨hph, hrole, hb⟩ := h
  obtain ⟨t, he, -, hcase⟩ := a.finish_sockets k placed hph
  rcases hcase with ⟨c, -, hc, -⟩ | ⟨c, hc, -, rfl⟩ | ⟨hc, -⟩
  · rw [hrole] at hc; cases hc
  · rw [hb] at hc
    cases hc
    exact ⟨_, he⟩
  · rw [hb] at hc; cases hc

theorem finish_talks {a : App} (hco : ∀ b, (a.heap b).Coherent) (k : Nat) (placed : Bool) :
    Talks (a.Leaves (.finish k placed)) a (a.finish k placed) := by
  by_cases hc : (a.sockets k).phase = .closing
  · obtain ⟨a', he, -, hcase⟩ := a.finish_sockets k placed hc
    rw [he]
    show Talks _ a a'
    rcases hcase with ⟨b, -, -, rfl⟩ | ⟨b, hb, hr, rfl⟩ | ⟨-, rfl⟩
    · exact SameTalks.talks (finishAgentLeg_sameTalks a b _ _ _)
    · exact finishUserLeg_talks hco ⟨hc, hr, hb⟩
    · exact (SameTalks.refl a').talks
  · rw [a.finish_idle k placed hc]
    exact (SameTalks.refl a).talks

/-- **Each step takes each bridge one `Talk` step.** -/
theorem step_talks {a : App} (hco : ∀ b, (a.heap b).Coherent) (act : Action) :
    Talks (a.Leaves act) a (step a act) := by
  have hheap : ∀ {a' : App}, a'.heap = a.heap → Talks (a.Leaves act) a a' := fun h b => by
    rw [h]; exact .same (SameTalk.refl _)
  cases act with
  | post group req placed => exact hheap (post_heap ..)
  | work group ring => exact hheap (work_heap ..)
  | start k m =>
    simp only [step, start]
    split
    · exact hheap rfl
    · split
      · exact startAgentLeg_talks a k m
      · exact serveUserLeg_talks (App.setSocket a k _) k 0
  | poll k =>
    simp only [step, poll]
    split
    · exact serveUserLeg_talks a k _
    · exact hheap rfl
  | media k payload ticks =>
    simp only [step, media]
    split
    · rename_i b _ _ _
      split <;> exact onAgentAudio_talks hco b payload ticks
    · rename_i b _ _ _
      obtain ⟨o, he⟩ := (a.heap b).onUserAudio_eq payload
      rw [he]
      exact talks_setBridge (.same ⟨rfl, rfl, rfl, rfl, rfl, rfl⟩)
    · exact hheap rfl
  | close k stop =>
    simp only [step, close]
    split <;> exact hheap rfl
  | finish k placed => exact finish_talks hco k placed
  | drain k =>
    simp only [step, drain]
    split
    · rename_i b _ _
      refine talks_setBridge (a := a) (b := b) (.same ?_)
      split <;> exact ⟨rfl, rfl, rfl, rfl, rfl, rfl⟩
    · exact hheap rfl
  | redirect n ok =>
    simp only [step, redirect]
    split
    · exact hheap rfl
    · split
      · exact hheap rfl
      · rename_i r _ _ _ _ _
        split
        · exact hheap rfl
        · exact talks_setBridge (a := a) (b := r.bridge)
            (c := { a.heap r.bridge with reconnecting := false }) (.same ⟨rfl, rfl, rfl, rfl, rfl, rfl⟩)
  | spoken b =>
    simp only [step, spoken]
    split
    · rename_i hh
      exact waitDrained_talks (by rw [hh]; simp) _
    · exact hheap rfl
  | drained b =>
    simp only [step, drained]
    split
    · rename_i left hh
      exact waitDrained_talks (by rw [hh]; simp) _
    · exact hheap rfl
  | play b pcm =>
    simp only [step, play]
    split
    · obtain ⟨o, he⟩ := (a.heap b).playToAgent_eq pcm
      rw [he]
      exact talks_setBridge (.same ⟨rfl, rfl, rfl, rfl, rfl, rfl⟩)
    · exact hheap rfl
  | probe b running =>
    simp only [step, probe]
    split
    · exact talks_setBridge (.same ⟨rfl, rfl, rfl, rfl, rfl, rfl⟩)
    · exact hheap rfl
  | reap => exact (reapStaleBridges_sameTalks a).talks
  | wait dt => exact hheap rfl

/-! ## The promise of the handoff -/

def Coherent (a : App) : Prop := ∀ b, (a.heap b).Coherent

theorem step_coherent (a : App) (act : Action) (h : Coherent a) : Coherent (step a act) :=
  fun b => (h b).talk (step_talks h act b)

theorem new_coherent (settings : Settings) (key base : String) (twilio : Bool) :
    Coherent (App.new settings key base twilio) := by
  intro b
  refine ⟨nofun, fun hp => absurd rfl hp, nofun, ?_⟩
  rintro ⟨e, he, -⟩
  cases he

/-- A call that was reported as bridged has its relay open, or its user's leg attached. -/
def Reported (a : App) : Prop := ∀ b, (a.heap b).Reported

/-- A relay that opens, with the text that says so, opens to an attached user's leg. -/
def OpensToUser (a : App) (act : Action) : Prop :=
  ∀ b, (a.heap b).relayOpen = false → ((step a act).heap b).relayOpen = true →
    ((step a act).heap b).userStreamSid ≠ none

/-- No user's leg ends between the report and the opening of the relay. -/
def KeepsUser (a : App) (act : Action) : Prop :=
  ∀ b, a.Leaves act b → ¬ ((a.heap b).session.Completed ∧ (a.heap b).relayOpen = false)

theorem step_opensToUser (a : App) (act : Action) (h : Coherent a) (hrep : Reported a) : a.OpensToUser act :=
  fun b => (step_talks h act b).opens (h b) (hrep b)

theorem step_reported_iff (a : App) (act : Action) (h : Coherent a) (hrep : Reported a) :
    Reported (step a act) ↔ a.KeepsUser act := by
  constructor
  · rintro hrep' b hl ⟨hc, hr⟩
    cases act with
    | finish k placed =>
      obtain ⟨s, he⟩ := finish_leaves hl
      have hover := finishUserLeg_over ((h b).completed hc)
      have hrep'' : ((a.finishUserLeg b).heap b).Reported := by
        have hb := hrep' b
        rw [he] at hb
        exact hb
      rw [hover] at hrep''
      exact hrep'' hc hr rfl
    | _ => exact hl
  · intro hk b
    exact (hrep b).talk (step_talks h act b) (hk b)

/-- **`handoff_iff`**: over every run of the registry, a call reported as bridged has its user attached
until the relay opens, and the relay only ever opens to an attached user, exactly when no user's leg ends
between the report and the opening of the relay. -/
theorem handoff_iff (settings : Settings) (key base : String) (twilio : Bool) (acts : List Action) :
    (Run.Always step Reported (App.new settings key base twilio) acts ∧
      Run.Along step OpensToUser (App.new settings key base twilio) acts) ↔
      Run.Along step KeepsUser (App.new settings key base twilio) acts := by
  have hco := new_coherent settings key base twilio
  have hrep : Reported (App.new settings key base twilio) := by
    rintro b ⟨e, he, -⟩
    cases he
  have hiff := Run.always_iff_along step_coherent step_reported_iff acts _ hco hrep
  refine ⟨fun h => hiff.1 h.1, fun h => ⟨hiff.2 h, ?_⟩⟩
  refine Run.along_of_inv (I := fun a => Coherent a ∧ Reported a) (C := KeepsUser)
    (fun a act hi hk => ⟨step_coherent a act hi.1, (step_reported_iff a act hi.1 hi.2).2 hk⟩)
    (fun a act hi _ => step_opensToUser a act hi.1 hi.2) acts _ ⟨hco, hrep⟩ h

/-- The user waits, a person answers, and the user hangs up while the holding line is spoken. -/
def leavesEarly : List Action :=
  answered "g" ++ [.start 1 { groupParam := "g", role := .user, callSid := "CAuser", streamSid := "MZuser" },
    hear 0 0 .holdMusic] ++ List.replicate 5 (hear 0 4000 .holdMusic) ++
    [hear 0 4000 .liveSpeechCandidate, hear 0 4000 .liveSpeechCandidate,
     hear 0 4000 .liveSpeechCandidate (some { probe := .ok ⟨true, "", true⟩ }), .close 1 true, .finish 1 true, .spoken 0]

/-- The call was reported as bridged with nobody there, and the relay opens to nobody. -/
theorem leavesEarly_not_handed :
    ¬ (Run.Always step Reported (App.new {} "sk" "https://dialpass.test" true) leavesEarly ∧
      Run.Along step OpensToUser (App.new {} "sk" "https://dialpass.test" true) leavesEarly) := by
  rintro ⟨-, h⟩
  have hopen := (Run.along_iff_split step OpensToUser _ _).1 h leavesEarly.dropLast (.spoken 0) [] rfl 0
    (by decide +kernel) (by decide +kernel)
  revert hopen
  decide +kernel

end App

end DialPass
