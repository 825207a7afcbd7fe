import DialPass.Media.Handoff
import DialPass.Media.Reaper
/-!
# Texting the user when the call is over (media.py:68-101, media.py:300-322, calls.py:54-77, fallback.py)

Every call that ends without a handoff is to end with one fallback text to the user and their leg hung
up. `Story` says where the call of a `create_call` stands: being placed, live with nothing sent, or over
with exactly one text sent. A teardown takes a live call to its end only if it finds what it needs
(`Ready`); `Heeds` is what the steps of a run have to respect for that, and `notified` says that then no
user is left waiting.
-/

namespace DialPass

open CallBridge

/-- A text to the user of `group`, other than the one that says they are connected. -/
def Twilio.isFallback (group : String) : Twilio → Bool
  | .sendSms g _ body => g = group && body ≠ userSms
  | _ => false

namespace App

/-- The fallback texts sent for `group`. -/
def texts (a : App) (group : String) : List Twilio := a.log.filter (·.isFallback group)

/-- An agent leg of the group has connected. -/
def Connected (a : App) (group : String) : Prop := ∃ b < a.fresh, (a.heap b).groupId = group

/-- The relay of a bridge of the group has opened. -/
def Relayed (a : App) (group : String) : Prop :=
  ∃ b < a.fresh, (a.heap b).groupId = group ∧ (a.heap b).relayOpen = true

/-- A redial of the group has been counted, and its context is still kept. -/
def Redialing (a : App) (group : String) : Prop := ∃ m, a.callMeta.get group = some m ∧ 0 < m.redials

/-- The group had an agent leg; it has no bridge now, and no redial is to bring it another. -/
def Ended (a : App) (group : String) : Prop :=
  a.Connected group ∧ a.bridges.get group = none ∧ ¬ a.Redialing group

/-- Once an accepted call has ended without a handoff, its user got one fallback text, and their leg was
hung up if it was placed. -/
def Notified (a : App) (group : String) : Prop :=
  ∀ c, a.creates.get group = some c → c.next = .returned → a.Ended group → ¬ a.Relayed group →
    (∃ reason, a.texts group = [.sendSms group c.req.userNumber (fallbackMessage reason)]) ∧
      ∀ leg, c.userLeg = some leg → .hangUp leg ∈ a.log

instance (a : App) (group : String) : Decidable (a.Relayed group) := inferInstanceAs (Decidable (∃ _, _ ∧ _))

/-! ## What a run has to heed -/

/-- A teardown of the group would do its work: `create_call` has returned, the user was rung, and the
registered bridge's session knows the leg. -/
def Ready (a : App) (group : String) : Prop :=
  match a.creates.get group, a.bridges.get group with
  | some c, some b => c.next = .returned ∧ a.userNumbers.get group = some c.req.userNumber ∧
      (a.heap b).session.userLegSid = c.userLeg
  | _, _ => False

/-- `create_call` has yet to keep the group's context. -/
def Placing (a : App) (group : String) : Prop :=
  ∃ c, a.creates.get group = some c ∧ (c.next = .storeGoal ∨ c.next = .storeMeta)

/-- The group's call has nothing more to tell: it was handed over, or its context was kept and is gone. -/
def Settled (a : App) (group : String) : Prop :=
  a.Relayed group ∨ a.callMeta.get group = none ∧ ¬ a.Placing group

/-- `_redial_agent_leg` would place the call again (media.py:198-213). -/
def CanRedial (a : App) (group : String) (placed : Bool) : Prop :=
  placed = true ∧ a.twilio = true ∧ a.publicBaseUrl ≠ "" ∧
    ∃ m, a.callMeta.get group = some m ∧ m.redials < maxRedials

/-- The session gave the call up between `s` and `t`. -/
def GaveUp (s t : AgentSession) : Prop := ∃ e ∈ t.trace.drop s.trace.length, e.GivesUp

/-- Twilio's call SIDs are neither empty nor `"unknown"`. -/
def RealSid (sid : String) : Prop := sid ≠ "" ∧ sid ≠ "unknown"

/-- An agent leg of the group ends with bridge `b`, which is not waiting for a reconnect: it dropped in
mid-call and can be redialled or torn down, or the call is settled. -/
def EndsHeard (a : App) (group : String) (b : Nat) (sawStop placed : Bool) : Prop :=
  (sawStop = false ∧ (a.heap b).session.finished = false →
    a.CanRedial group placed ∨ a.Settled group ∨ a.Ready group) ∧
  (¬ (sawStop = false ∧ (a.heap b).session.finished = false) → a.Settled group)

/-- The step does not end the call of `group` unheard: the session gives up, the user hangs up, the
reaper comes and an agent leg drops for good only when a teardown would do its work; no agent leg ends
with a `stop`, or with a finished session, before the relay is open. -/
def Heeds (group : String) (a : App) : Action → Prop
  | .work g (some sid) => g = group → RealSid sid
  | .media k payload ticks =>
      (a.sockets k).phase = .receiving → (a.sockets k).role = .agent → (a.sockets k).group = group →
        ∀ b, (a.sockets k).bridge = some b → (a.heap b).session.finished = false →
          GaveUp (a.heap b).session ((a.heap b).session.feedAudio (ulawToPcm16 payload)
            (ticks.map fun i => { i with onBridge := (a.heap b).handoffReply })) →
          a.Settled group ∨ a.Ready group
  | .finish k placed =>
      (a.sockets k).phase = .closing → (a.sockets k).group = group → ∀ b, (a.sockets k).bridge = some b →
        ((a.sockets k).role = .agent → (a.heap b).reconnecting = false →
          a.EndsHeard group b (a.sockets k).sawStop placed) ∧
        ((a.sockets k).role = .user → (a.heap b).relayOpen = false → (a.heap b).session.finished = false →
          a.Settled group ∨ a.Ready group)
  | .reap => ∀ b, a.bridges.get group = some b → Stale (a.heap b) a.now → a.Settled group ∨ a.Ready group
  | _ => True

instance (a : App) (group : String) : Decidable (a.Ready group) := by unfold Ready; split <;> infer_instance
instance (a : App) (group : String) : Decidable (a.Placing group) :=
  decidable_of_iff (((a.creates.get group).any fun c => c.next = .storeGoal ∨ c.next = .storeMeta) = true) (by
    simp [Placing, Option.any_eq_true])
instance (a : App) (group : String) : Decidable (a.Settled group) :=
  inferInstanceAs (Decidable (_ ∨ a.callMeta.get group = none ∧ _))
instance (a : App) (group : String) (placed : Bool) : Decidable (a.CanRedial group placed) :=
  inferInstanceAs (Decidable (_ ∧ _))
instance (s t : AgentSession) : Decidable (GaveUp s t) := inferInstanceAs (Decidable (∃ e ∈ _, _))
instance (sid : String) : Decidable (RealSid sid) := inferInstanceAs (Decidable (_ ∧ _))
instance (a : App) (group : String) (b : Nat) (sawStop placed : Bool) :
    Decidable (a.EndsHeard group b sawStop placed) := inferInstanceAs (Decidable (_ ∧ _))
instance (group : String) (a : App) (act : Action) : Decidable (a.Heeds group act) :=
  match act with
  | .work g (some sid) => inferInstanceAs (Decidable (g = group → RealSid sid))
  | .media k payload ticks => inferInstanceAs (Decidable ((a.sockets k).phase = .receiving →
      (a.sockets k).role = .agent → (a.sockets k).group = group → ∀ b, (a.sockets k).bridge = some b →
      (a.heap b).session.finished = false → GaveUp (a.heap b).session ((a.heap b).session.feedAudio
        (ulawToPcm16 payload) (ticks.map fun i => { i with onBridge := (a.heap b).handoffReply })) →
      a.Settled group ∨ a.Ready group))
  | .finish k placed => inferInstanceAs (Decidable ((a.sockets k).phase = .closing →
      (a.sockets k).group = group → ∀ b, (a.sockets k).bridge = some b →
        ((a.sockets k).role = .agent → (a.heap b).reconnecting = false →
          a.EndsHeard group b (a.sockets k).sawStop placed) ∧
        ((a.sockets k).role = .user → (a.heap b).relayOpen = false → (a.heap b).session.finished = false →
          a.Settled group ∨ a.Ready group)))
  | .reap => inferInstanceAs (Decidable (∀ b, a.bridges.get group = some b → Stale (a.heap b) a.now →
      a.Settled group ∨ a.Ready group))
  | .work _ none | .post .. | .start .. | .poll .. | .close .. | .drain .. | .redirect .. | .spoken ..
  | .drained .. | .play .. | .probe .. | .wait .. => .isTrue trivial

/-! ## Where a call stands -/

/-- A leg that has connected still has its bridge, or a redial to bring it another. -/
def Going (a : App) (group : String) : Prop :=
  a.Connected group → (a.bridges.get group).isSome = true ∨ a.Redialing group

/-- Handed over; still being placed; live, with no text sent; or over, with one. -/
inductive Story (a : App) (group : String) (c : CreateCall) : Prop where
  | relayed : a.Relayed group → Story a group c
  | placing : c.next = .storeGoal ∨ c.next = .storeMeta → a.callMeta.get group = none →
      a.userNumbers.get group = none → a.texts group = [] → a.Going group → Story a group c
  | live : c.next ≠ .storeGoal → c.next ≠ .storeMeta → a.callMeta.get group ≠ none → a.texts group = [] →
      a.Going group → Story a group c
  | over (reason : String) : c.next = .returned → a.callMeta.get group = none →
      a.userNumbers.get group = none →
      a.texts group = [.sendSms group c.req.userNumber (fallbackMessage reason)] →
      (∀ leg, c.userLeg = some leg → .hangUp leg ∈ a.log) → Story a group c

/-- A group with no call has no context and no text; an accepted one has a `Story`. -/
def Told (a : App) (group : String) : Prop :=
  match a.creates.get group with
  | none => a.callMeta.get group = none ∧ a.userNumbers.get group = none ∧ a.texts group = []
  | some c => a.twilio = true ∧ (∀ leg, c.userLeg = some leg → RealSid leg) ∧ a.Story group c

theorem notified_of_told {a : App} {group : String} (h : a.Told group) : a.Notified group := by
  rintro c hc hret ⟨hcon, hgone, hno⟩ hrel
  unfold Told at h
  rw [hc] at h
  obtain ⟨-, -, hst⟩ := h
  rcases hst with hr | ⟨hn, -, -, -, -⟩ | ⟨-, -, -, -, hgo⟩ | ⟨reason, -, -, -, htx, hhang⟩
  · exact absurd hr hrel
  · rw [hret] at hn; simp at hn
  · rcases hgo hcon with hb | hre
    · simp [hgone] at hb
    · exact absurd hre hno
  · exact ⟨⟨reason, htx⟩, hhang⟩

/-! ## What most code leaves alone -/

/-- Nothing that the story of `group` is about goes back. -/
structure SameStory (group : String) (a a' : App) : Prop where
  creates : a'.creates.get group = a.creates.get group
  callMeta : a'.callMeta.get group = none ↔ a.callMeta.get group = none
  userNumbers : a'.userNumbers.get group = a.userNumbers.get group
  twilio : a'.twilio = a.twilio
  texts : a'.texts group = a.texts group
  log : a.log ⊆ a'.log
  relayed : a.Relayed group → a'.Relayed group
  going : a.Going group → a'.Going group

/-- And the group's call goes on: the same bridge, the same legs. -/
structure SameCall (group : String) (a a' : App) : Prop extends SameStory group a a' where
  bridges : a'.bridges.get group = a.bridges.get group
  groupId : ∀ b, (a'.heap b).groupId = (a.heap b).groupId
  userLegSid : ∀ b, (a'.heap b).session.userLegSid = (a.heap b).session.userLegSid

variable {group : String} {a a' a'' : App}

theorem SameStory.trans (h : SameStory group a a') (h' : SameStory group a' a'') : SameStory group a a'' where
  creates := h'.creates.trans h.creates
  callMeta := h'.callMeta.trans h.callMeta
  userNumbers := h'.userNumbers.trans h.userNumbers
  twilio := h'.twilio.trans h.twilio
  texts := h'.texts.trans h.texts
  log := fun _ ht => h'.log (h.log ht)
  relayed := fun hr => h'.relayed (h.relayed hr)
  going := fun hg => h'.going (h.going hg)

theorem SameCall.trans (h : SameCall group a a') (h' : SameCall group a' a'') : SameCall group a a'' where
  toSameStory := h.toSameStory.trans h'.toSameStory
  bridges := h'.bridges.trans h.bridges
  groupId b := (h'.groupId b).trans (h.groupId b)
  userLegSid b := (h'.userLegSid b).trans (h.userLegSid b)

theorem SameCall.refl (group : String) (a : App) : SameCall group a a :=
  ⟨⟨rfl, Iff.rfl, rfl, rfl, rfl, fun _ h => h, id, id⟩, rfl, fun _ => rfl, fun _ => rfl⟩

theorem Told.same (hs : SameStory group a a') (h : a.Told group) : a'.Told group := by
  unfold Told at h ⊢
  rw [hs.creates]
  cases hc : a.creates.get group with
  | none =>
    rw [hc] at h
    exact ⟨hs.callMeta.2 h.1, hs.userNumbers.trans h.2.1, hs.texts.trans h.2.2⟩
  | some c =>
    rw [hc] at h
    obtain ⟨htw, hleg, hst⟩ := h
    refine ⟨hs.twilio.trans htw, hleg, ?_⟩
    rcases hst with hr | ⟨hn, hm, hu, ht, hgo⟩ | ⟨hn, hn', hm, ht, hgo⟩ | ⟨reason, hn, hm, hu, ht, hh⟩
    · exact .relayed (hs.relayed hr)
    · exact .placing hn (hs.callMeta.2 hm) (hs.userNumbers.trans hu) (hs.texts.trans ht) (hs.going hgo)
    · exact .live hn hn' (fun hm' => hm (hs.callMeta.1 hm')) (hs.texts.trans ht) (hs.going hgo)
    · exact .over reason hn (hs.callMeta.2 hm) (hs.userNumbers.trans hu) (hs.texts.trans ht)
        fun leg hl => hs.log (hh leg hl)

theorem Placing.same (hs : SameStory group a a') (h : a'.Placing group) : a.Placing group := by
  unfold Placing at h ⊢
  rwa [hs.creates] at h

theorem Settled.same (hs : SameStory group a a') (h : a.Settled group) : a'.Settled group :=
  h.imp hs.relayed fun ⟨hm, hp⟩ => ⟨hs.callMeta.2 hm, fun hp' => hp (hp'.same hs)⟩

theorem Ready.same (hs : SameCall group a a') (h : a.Ready group) : a'.Ready group := by
  unfold Ready at h ⊢
  rw [hs.creates, hs.bridges, hs.userNumbers]
  cases hc : a.creates.get group with
  | none => rw [hc] at h; exact h
  | some c =>
    cases hb : a.bridges.get group with
    | none => rw [hc, hb] at h; exact h
    | some b =>
      rw [hc, hb] at h
      simp only at h ⊢
      rw [hs.userLegSid b]
      exact h

/-- Relays do not close again. -/
theorem Relayed.mono (hr : a.Relayed group) (hf : a.fresh ≤ a'.fresh)
    (h : ∀ b < a.fresh, (a'.heap b).groupId = (a.heap b).groupId ∧
      ((a.heap b).relayOpen = true → (a'.heap b).relayOpen = true)) : a'.Relayed group := by
  obtain ⟨b, hb, hg, ho⟩ := hr
  obtain ⟨hg', ho'⟩ := h b hb
  exact ⟨b, by omega, hg'.trans hg, ho' ho⟩

/-- No leg has connected that had not, and those that had keep what they have. -/
theorem Going.mono (hg : a.Going group) (hcon : a'.Connected group → a.Connected group)
    (hb : a'.bridges.get group = a.bridges.get group) (hm : a'.callMeta.get group = a.callMeta.get group) :
    a'.Going group := by
  intro hc
  rw [hb, Redialing, hm]
  exact hg (hcon hc)

theorem sameCall_setBridge (group : String) (a : App) {b : Nat} {c : CallBridge}
    (hg : c.groupId = (a.heap b).groupId) (hr : (a.heap b).relayOpen = true → c.relayOpen = true)
    (hl : c.session.userLegSid = (a.heap b).session.userLegSid) : SameCall group a (a.setBridge b c) := by
  have hheap : ∀ d, ((a.setBridge b c).heap d).groupId = (a.heap d).groupId ∧
      ((a.heap d).relayOpen = true → ((a.setBridge b c).heap d).relayOpen = true) ∧
      ((a.setBridge b c).heap d).session.userLegSid = (a.heap d).session.userLegSid := by
    intro d
    rw [setBridge_heap]
    by_cases hd : d = b
    · subst hd; simpa using ⟨hg, hr, hl⟩
    · simp [hd]
  refine ⟨⟨rfl, Iff.rfl, rfl, rfl, rfl, fun _ h => h, fun h => ?_, fun h => ?_⟩, rfl, fun d => (hheap d).1,
    fun d => (hheap d).2.2⟩
  · exact h.mono (Nat.le_refl _) fun d _ => ⟨(hheap d).1, (hheap d).2.1⟩
  · exact h.mono (fun ⟨d, hd, hdg⟩ => ⟨d, hd, (hheap d).1 ▸ hdg⟩) rfl rfl

theorem sameCall_setSocket (group : String) (a : App) (k : Nat) (s : Socket) :
    SameCall group a (a.setSocket k s) :=
  ⟨⟨rfl, Iff.rfl, rfl, rfl, rfl, fun _ h => h, id, id⟩, rfl, fun _ => rfl, fun _ => rfl⟩

/-- More requests, none of them a fallback text for the group. -/
theorem sameCall_log (group : String) (a : App) {es : List Twilio} (h : ∀ t ∈ es, t.isFallback group = false) :
    SameCall group a { a with log := a.log ++ es } := by
  refine ⟨⟨rfl, Iff.rfl, rfl, rfl, ?_, fun _ ht => List.mem_append_left _ ht, id, id⟩, rfl, fun _ => rfl,
    fun _ => rfl⟩
  have hes : es.filter (·.isFallback group) = [] := by
    rw [List.filter_eq_nil_iff]
    intro t ht
    simp [h t ht]
  simp [texts, hes]

/-- A text that is not the group's, or not a fallback. -/
theorem sameCall_sms (a : App) {g body : String} (h : g ≠ group ∨ body = userSms) :
    SameCall group a (a.sms g body) := by
  obtain ⟨es, he, hes⟩ := a.sms_eq g body
  rw [he]
  apply sameCall_log
  intro t ht
  obtain ⟨n, rfl⟩ := hes t ht
  rcases h with h | h <;> simp [Twilio.isFallback, h]

theorem sameCall_hangUp (group : String) (a : App) (sid : Option String) : SameCall group a (a.hangUp sid) := by
  obtain ⟨es, he, hes⟩ := a.hangUp_eq sid
  rw [he]
  apply sameCall_log
  intro t ht
  have h := hes t ht
  cases sid with
  | none => simp at h
  | some s => simp at h; subst h; rfl

theorem sameCall_hangUpLegs (group : String) (a : App) (s : AgentSession) (hangUp : Bool) :
    SameCall group a (a.hangUpLegs s hangUp) := by
  cases hangUp with
  | false => exact SameCall.refl group a
  | true => exact (sameCall_hangUp group a _).trans (sameCall_hangUp group _ _)

/-! ## Teardowns -/

@[simp] theorem notify_heap (a : App) (g : String) (reason : Option String) : (a.notify g reason).heap = a.heap := by
  obtain ⟨es, he⟩ := a.notify_eq g reason
  simp [he]

@[simp] theorem hangUpLegs_heap (a : App) (s : AgentSession) (hangUp : Bool) :
    (a.hangUpLegs s hangUp).heap = a.heap := by
  obtain ⟨es, he⟩ := a.hangUpLegs_eq s hangUp
  simp [he]

theorem teardownGroup_registered {b : Nat} (h : a.bridges.get group = some b) (reason : Option String)
    (hangUp : Bool) : a.teardownGroup group reason hangUp =
      ((({ a with bridges := a.bridges.erase group, sessions := a.sessions.erase (a.heap b).session.callId }.notify
        group reason).hangUpLegs (a.heap b).session hangUp).setBridge b (a.heap b).close).clearContext group := by
  simp only [teardownGroup, h]

/-- The end of another group's call. -/
theorem sameCall_teardownGroup {g : String} (hne : g ≠ group) (a : App) (reason : Option String) (hangUp : Bool) :
    SameCall group a (a.teardownGroup g reason hangUp) := by
  have hclear : ∀ a : App, SameCall group a (a.clearContext g) := by
    intro a
    have hmeta : (a.clearContext g).callMeta.get group = a.callMeta.get group := by
      simp [clearContext, Dict.get_erase, Ne.symm hne]
    refine ⟨⟨rfl, by rw [hmeta], ?_, rfl, rfl, fun _ h => h, id, fun h => h.mono id rfl hmeta⟩, rfl, fun _ => rfl,
      fun _ => rfl⟩
    simp [clearContext, Dict.get_erase, Ne.symm hne]
  have hnotify : ∀ a : App, SameCall group a (a.notify g reason) := by
    intro a
    cases reason with
    | none => exact SameCall.refl group a
    | some r => exact sameCall_sms a (.inl hne)
  cases hb : a.bridges.get g with
  | none => rw [teardownGroup_none hb]; exact hclear a
  | some b =>
    have h0 : SameCall group a
        { a with bridges := a.bridges.erase g, sessions := a.sessions.erase (a.heap b).session.callId } := by
      have hkept : (a.bridges.erase g).get group = a.bridges.get group := by
        simp [Dict.get_erase, Ne.symm hne]
      exact ⟨⟨rfl, Iff.rfl, rfl, rfl, rfl, fun _ h => h, id, fun h => h.mono id hkept rfl⟩, hkept, fun _ => rfl,
        fun _ => rfl⟩
    rw [teardownGroup_registered hb]
    have h1 := (h0.trans (hnotify _)).trans (sameCall_hangUpLegs group _ (a.heap b).session hangUp)
    refine (h1.trans (sameCall_setBridge group _ ?_ ?_ ?_)).trans (hclear _) <;> simp

section own

variable (a : App) (group : String) (reason : Option String) (hangUp : Bool)

/-- What ending the group's own call leaves behind. -/
theorem teardownGroup_own : (a.teardownGroup group reason hangUp).creates = a.creates ∧
    (a.teardownGroup group reason hangUp).twilio = a.twilio ∧
    (a.teardownGroup group reason hangUp).callMeta.get group = none ∧
    (a.teardownGroup group reason hangUp).userNumbers.get group = none ∧
    a.log ⊆ (a.teardownGroup group reason hangUp).log := by
  cases hb : a.bridges.get group with
  | none =>
    rw [teardownGroup_none hb]
    exact ⟨rfl, rfl, Dict.get_erase_self .., Dict.get_erase_self .., fun _ h => h⟩
  | some b =>
    obtain ⟨es, he⟩ := teardownGroup_some hb reason hangUp
    rw [he]
    exact ⟨rfl, rfl, Dict.get_erase_self .., Dict.get_erase_self .., fun _ h => List.mem_append_left _ h⟩

theorem teardownGroup_relayed (h : a.Relayed group) : (a.teardownGroup group reason hangUp).Relayed group := by
  apply h.mono
  · rw [teardownGroup_fresh]
  · intro c _
    rw [teardownGroup_heap]
    split <;> simp

/-- The texts of a teardown are those of its notification, if there is a bridge to tear down. -/
theorem teardownGroup_texts : (a.teardownGroup group reason hangUp).texts group =
    if (a.bridges.get group).isSome then (a.notify group reason).texts group else a.texts group := by
  cases hb : a.bridges.get group with
  | none => rw [teardownGroup_none hb]; rfl
  | some b =>
    rw [teardownGroup_registered hb]
    show (App.hangUpLegs _ (a.heap b).session hangUp).texts group = _
    rw [(sameCall_hangUpLegs group _ (a.heap b).session hangUp).texts]
    cases reason with
    | none => rfl
    | some r =>
      simp only [notify, sms, Option.isSome_some, if_true]
      split
      · split <;> rfl
      · rfl

end own

/-- Without a number there is nobody to text. -/
theorem notify_silent (h : a.userNumbers.get group = none) (reason : Option String) :
    a.notify group reason = a := by
  cases reason with
  | none => rfl
  | some r => simp [notify, sms, h]

theorem notify_texts {number : String} (h : a.userNumbers.get group = some number) (htw : a.twilio = true)
    (hne : number ≠ "") (reason : String) :
    (a.notify group (some reason)).texts group =
      a.texts group ++ [.sendSms group number (fallbackMessage reason)] := by
  simp [notify, sms, h, htw, hne, request, texts, List.filter_append, Twilio.isFallback,
    fallbackMessage_ne_userSms]

theorem mem_hangUp {sid : String} (htw : a.twilio = true) (h : RealSid sid) :
    .hangUp sid ∈ (a.hangUp (some sid)).log := by
  simp [hangUp, htw, h.1, h.2, request]

/-- A teardown that is heard hangs up the user's leg. -/
theorem teardownGroup_hangsUp {b : Nat} {leg : String} (hb : a.bridges.get group = some b)
    (htw : a.twilio = true) (hl : (a.heap b).session.userLegSid = some leg) (h : RealSid leg)
    (reason : Option String) : .hangUp leg ∈ (a.teardownGroup group reason true).log := by
  rw [teardownGroup_registered hb]
  show _ ∈ (App.hangUpLegs _ (a.heap b).session true).log
  rw [hangUpLegs, if_pos rfl, hl]
  apply mem_hangUp _ h
  rw [(sameCall_hangUp group _ _).twilio]
  obtain ⟨es, he⟩ := notify_eq { a with
    bridges := a.bridges.erase group, sessions := a.sessions.erase (a.heap b).session.callId } group reason
  rw [he]
  exact htw

/-- Once a call is settled, a teardown says nothing new. -/
theorem Told.teardown_settled (h : a.Told group) (hs : a.Settled group) (reason : Option String)
    (hangUp : Bool) : (a.teardownGroup group reason hangUp).Told group := by
  obtain ⟨hcr, htw, hm, hu, hlog⟩ := a.teardownGroup_own group reason hangUp
  have htx : a.userNumbers.get group = none →
      (a.teardownGroup group reason hangUp).texts group = a.texts group := by
    intro hn
    rw [teardownGroup_texts, notify_silent hn, ite_self]
  unfold Told at h ⊢
  rw [hcr]
  cases hc : a.creates.get group with
  | none =>
    rw [hc] at h
    exact ⟨hm, hu, (htx h.2.1).trans h.2.2⟩
  | some c =>
    rw [hc] at h
    obtain ⟨htw', hleg, hst⟩ := h
    refine ⟨htw.trans htw', hleg, ?_⟩
    rcases hst with hr | ⟨hn, -, -, -, -⟩ | ⟨-, -, hm', -, -⟩ | ⟨r, hn, hm', hu', ht, hh⟩
    · exact .relayed (a.teardownGroup_relayed group reason hangUp hr)
    · rcases hs with hr | ⟨-, hs⟩
      · exact .relayed (a.teardownGroup_relayed group reason hangUp hr)
      · exact absurd ⟨c, hc, hn⟩ hs
    · rcases hs with hr | ⟨hs, -⟩
      · exact .relayed (a.teardownGroup_relayed group reason hangUp hr)
      · exact absurd hs hm'
    · exact .over r hn hm hu ((htx hu').trans ht) fun leg hl => hlog (hh leg hl)

/-- **A teardown that finds what it needs ends a live call with one text.** -/
theorem Told.teardown_ready (h : a.Told group) (hr : a.Ready group) (reason : String) :
    (a.teardownGroup group (some reason) true).Told group := by
  obtain ⟨hcr, htw, hm, hu, hlog⟩ := a.teardownGroup_own group (some reason) true
  unfold Ready at hr
  unfold Told at h ⊢
  rw [hcr]
  cases hc : a.creates.get group with
  | none => rw [hc] at hr; exact hr.elim
  | some c =>
    cases hb : a.bridges.get group with
    | none => rw [hc, hb] at hr; exact hr.elim
    | some b =>
      rw [hc, hb] at hr
      rw [hc] at h
      obtain ⟨hret, hnum, hsid⟩ := hr
      obtain ⟨htw', hleg, hst⟩ := h
      refine ⟨htw.trans htw', hleg, ?_⟩
      rcases hst with hr | ⟨-, -, hu', -, -⟩ | ⟨-, -, -, ht, -⟩ | ⟨r, -, -, hu', -, -⟩
      · exact .relayed (a.teardownGroup_relayed group (some reason) true hr)
      · rw [hnum] at hu'; cases hu'
      · have hne : c.req.userNumber ≠ "" := by
          intro he
          have hlong := c.req.user_long
          rw [he] at hlong
          simp at hlong
        refine .over reason hret hm hu ?_ fun leg hl => ?_
        · rw [teardownGroup_texts, hb, Option.isSome_some, if_pos rfl, notify_texts hnum htw' hne, ht]
          rfl
        · exact teardownGroup_hangsUp hb htw' (hsid.trans hl) (hleg leg hl) (some reason)
      · rw [hnum] at hu'; cases hu'

/-- A call ready to be torn down is not still being placed. -/
theorem Ready.not_placing (h : a.Ready group) : ¬ a.Placing group := by
  rintro ⟨c, hc, hn⟩
  unfold Ready at h
  rw [hc] at h
  cases hb : a.bridges.get group with
  | none => rw [hb] at h; exact h
  | some b =>
    rw [hb] at h
    rw [h.1] at hn
    simp at hn

/-- After its teardown the call is settled. -/
theorem teardownGroup_settled (h : a.Settled group ∨ a.Ready group) (reason : Option String) (hangUp : Bool) :
    (a.teardownGroup group reason hangUp).Settled group := by
  obtain ⟨hcr, -, hm, -, -⟩ := a.teardownGroup_own group reason hangUp
  have hgone : ¬ a.Placing group → (a.teardownGroup group reason hangUp).Settled group := by
    refine fun hp => .inr ⟨hm, fun hp' => hp ?_⟩
    unfold Placing at hp' ⊢
    rwa [hcr] at hp'
  rcases h with (hr | ⟨-, hp⟩) | hr
  · exact .inl (a.teardownGroup_relayed group reason hangUp hr)
  · exact hgone hp
  · exact hgone hr.not_placing

/-- A teardown with a reason, of whatever group, when this group's call is settled or ready. -/
theorem Told.teardown (h : a.Told group) {g : String} (hg : g = group → a.Settled group ∨ a.Ready group)
    (reason : String) : (a.teardownGroup g (some reason) true).Told group := by
  by_cases hgg : g = group
  · subst hgg
    rcases hg rfl with hs | hr
    · exact h.teardown_settled hs _ _
    · exact h.teardown_ready hr reason
  · exact h.same (sameCall_teardownGroup hgg a _ _).toSameStory

/-! ## Sessions and their hooks -/

theorem sameCall_hook {b : Nat} {e : Effect} (he : ¬ e.GivesUp ∨ (a.heap b).groupId ≠ group) :
    SameCall group a (hook b a e) := by
  cases e with
  | dtmfSender digits =>
    rcases (a.heap b).pressDtmf_cases digits a.now with h | ⟨keys, h⟩ <;> simp only [hook, h]
    · exact sameCall_setBridge group a rfl id rfl
    · have h' := sameCall_setBridge group a (b := b)
        (c := { a.heap b with reconnecting := true, reconnectSince := some a.now }) rfl id rfl
      exact ⟨⟨h'.creates, h'.callMeta, h'.userNumbers, h'.twilio, h'.texts, h'.log, h'.relayed, h'.going⟩,
        h'.bridges, h'.groupId, h'.userLegSid⟩
  | onBridge =>
    simp only [hook]
    rcases (a.heap b).beginHandoff_cases a.openaiApiKey with ⟨-, h⟩ | ⟨-, -, h⟩ | ⟨-, -, h⟩ | ⟨-, -, h⟩ <;>
      simp only [h]
    · apply sameCall_setBridge <;> simp
    · apply sameCall_setBridge <;> simp
    · refine SameCall.trans ?_ (sameCall_sms _ (.inr rfl))
      apply sameCall_setBridge <;> simp
    · apply sameCall_setBridge <;> simp
  | onFail reason =>
    rcases he with he | he
    · exact absurd trivial he
    · exact sameCall_teardownGroup he a _ _
  | _ => exact SameCall.refl group a

/-- What a session of bridge `b` does keeps the story, if the call is settled or ready where it gives up. -/
theorem Told.advance {b : Nat} {s₀ s : AgentSession} {r : BridgeReply} {es : List Effect} (h : a.Told group)
    (hs₀ : (a.heap b).session = s₀) (hap : AgentSession.Appends r es s₀ s)
    (hends : (a.heap b).groupId = group → (∃ e ∈ es, e.GivesUp) → a.Settled group ∨ a.Ready group) :
    (a.advance b s).Told group := by
  subst hs₀
  unfold App.advance
  rw [hap.trace, List.drop_left]
  have h0 := sameCall_setBridge group a (b := b) (c := { a.heap b with session := s }) rfl id hap.userLegSid
  have hb0 : ((a.setBridge b { a.heap b with session := s }).heap b).groupId = (a.heap b).groupId := by simp
  have hinv : (a.setBridge b { a.heap b with session := s }).Told group ∧
      ((a.heap b).groupId = group → (∃ e ∈ es, e.GivesUp) →
        (a.setBridge b { a.heap b with session := s }).Settled group ∨
        (a.setBridge b { a.heap b with session := s }).Ready group) :=
    ⟨h.same h0.toSameStory, fun hg he => (hends hg he).imp (Settled.same h0.toSameStory) (Ready.same h0)⟩
  clear h0 hends hap
  generalize (a.heap b).groupId = g at hb0 hinv
  generalize a.setBridge b { a.heap b with session := s } = a' at hb0 hinv
  clear h
  induction es generalizing a' with
  | nil => exact hinv.1
  | cons e es ih =>
    obtain ⟨ht, hend⟩ := hinv
    have hrest : (∃ f ∈ es, f.GivesUp) → ∃ f ∈ e :: es, f.GivesUp := fun ⟨f, hf, hg⟩ =>
      ⟨f, List.mem_cons_of_mem _ hf, hg⟩
    by_cases he : ¬ e.GivesUp ∨ (a'.heap b).groupId ≠ group
    · have hs := sameCall_hook (b := b) he
      refine ih _ ((hs.groupId b).trans hb0) ⟨ht.same hs.toSameStory, fun hg hf => ?_⟩
      exact (hend hg (hrest hf)).imp (Settled.same hs.toSameStory) (Ready.same hs)
    · -- the session gives up: its group is torn down
      rw [not_or, not_not, not_not] at he
      obtain ⟨hgive, hgrp⟩ := he
      have hgg : g = group := hb0.symm.trans hgrp
      cases e with
      | onFail reason =>
        have hready := hend hgg ⟨_, by simp, hgive⟩
        refine ih _ ?_ ⟨?_, fun _ _ => .inl ?_⟩
        · simp only [hook]
          rw [(teardownGroup_legs ..).groupId, hb0]
        · apply ht.teardown _ reason
          intro _
          exact hready
        · simp only [hook, hgrp]
          exact teardownGroup_settled hready _ _
      | _ => exact absurd hgive (by simp [Effect.GivesUp])

/-- The chunk gives up exactly if `GaveUp` says so. -/
theorem gaveUp_iff {r : BridgeReply} {s t : AgentSession} {es : List Effect} (h : AgentSession.Appends r es s t) :
    GaveUp s t ↔ ∃ e ∈ es, e.GivesUp := by
  unfold GaveUp
  rw [h.trace, List.drop_left]

theorem handoffReply_relayAgentAudio (br : CallBridge) (ulaw : List UInt8) :
    (br.relayAgentAudio ulaw).handoffReply = br.handoffReply := by
  obtain ⟨p, o, h⟩ := br.relayAgentAudio_eq ulaw
  rw [h]
  rfl

theorem Told.onAgentAudio {b : Nat} {ulaw : List UInt8} {ticks : List Tick} (h : a.Told group)
    (hends : (a.heap b).groupId = group → (a.heap b).session.finished = false →
      GaveUp (a.heap b).session ((a.heap b).session.feedAudio (ulawToPcm16 ulaw)
        (ticks.map fun i => { i with onBridge := (a.heap b).handoffReply })) →
      a.Settled group ∨ a.Ready group) : (a.onAgentAudio b ulaw ticks).Told group := by
  obtain ⟨p, o, hrel⟩ := (a.heap b).relayAgentAudio_eq ulaw
  have h0 : SameCall group a (a.setBridge b ((a.heap b).relayAgentAudio ulaw)) := by
    apply sameCall_setBridge <;> rw [hrel]
    exact id
  have hses : ((a.heap b).relayAgentAudio ulaw).session = (a.heap b).session := by rw [hrel]
  unfold App.onAgentAudio
  dsimp only
  rw [setBridge_heap_self, hses, handoffReply_relayAgentAudio]
  split
  · exact h.same h0.toSameStory
  · rename_i hlive
    obtain ⟨es, hap⟩ := AgentSession.feedAudio_leads (r := (a.heap b).handoffReply) (a.heap b).session
      (ulawToPcm16 ulaw) (ticks.map fun i => { i with onBridge := (a.heap b).handoffReply }) (by simp)
    refine (h.same h0.toSameStory).advance (by rw [setBridge_heap_self, hses]) hap fun hg hgive => ?_
    rw [h0.groupId b] at hg
    exact (hends hg (by simpa using hlive) ((gaveUp_iff hap).2 hgive)).imp (Settled.same h0.toSameStory)
      (Ready.same h0)

/-! ## Handlers -/

theorem Told.finishUserLeg {b : Nat} (h : a.Told group)
    (hends : (a.heap b).groupId = group → (a.heap b).relayOpen = false → (a.heap b).session.finished = false →
      a.Settled group ∨ a.Ready group) : (a.finishUserLeg b).Told group := by
  have h0 : SameCall group a (a.setBridge b { a.heap b with userStreamSid := none }) :=
    sameCall_setBridge group a rfl id rfl
  unfold App.finishUserLeg
  dsimp only
  rw [setBridge_heap_self]
  split
  · rename_i hlive
    obtain ⟨es, hap⟩ := AgentSession.abort_leads (r := .ok) (a.heap b).session "user_left"
    refine (h.same h0.toSameStory).advance (by rw [setBridge_heap_self]) hap fun hg _ => ?_
    rw [h0.groupId b] at hg
    exact (hends hg hlive.1 hlive.2).imp (Settled.same h0.toSameStory) (Ready.same h0)
  · exact h.same h0.toSameStory

/-- Dialling again changes nothing, or counts one redial more. -/
theorem sameCall_redialAgentLeg (group : String) (a : App) (g : String) (placed : Bool) :
    SameCall group a (a.redialAgentLeg g placed).1 := by
  unfold redialAgentLeg
  split
  · exact SameCall.refl group a
  · rename_i m hm
    split
    · exact SameCall.refl group a
    · have h0 : SameCall group a { a with callMeta := a.callMeta.set g { m with redials := m.redials + 1 } } := by
        refine ⟨⟨rfl, ?_, rfl, rfl, rfl, fun _ h => h, id, fun h hc => ?_⟩, rfl, fun _ => rfl, fun _ => rfl⟩
        · simp only [Dict.get_set]
          split
          · rename_i hg; simp [hg, hm]
          · rfl
        · refine (h hc).imp id fun ⟨m', hm', hpos⟩ => ?_
          unfold Redialing
          simp only [Dict.get_set]
          split
          · exact ⟨_, rfl, Nat.succ_pos _⟩
          · exact ⟨m', hm', hpos⟩
      exact h0.trans (sameCall_log group _ (by simp [Twilio.isFallback]))

/-- Once dialled again, the group's call has a redial under way. -/
theorem redialAgentLeg_redialing {placed : Bool} (h : (a.redialAgentLeg group placed).2 = true) :
    (a.redialAgentLeg group placed).1.Redialing group := by
  unfold redialAgentLeg at h ⊢
  split at h
  · cases h
  · rename_i m hm
    split at h
    · cases h
    · rename_i hno
      rw [if_neg hno]
      exact ⟨{ m with redials := m.redials + 1 }, Dict.get_set_self .., Nat.succ_pos _⟩

theorem CanRedial.redials {placed : Bool} (h : a.CanRedial group placed) :
    (a.redialAgentLeg group placed).2 = true := by
  obtain ⟨hp, htw, hbase, m, hm, hlt⟩ := h
  have hno : ¬ (a.twilio = false ∨ a.publicBaseUrl = "" ∨ maxRedials ≤ m.redials) := by
    simp [htw, hbase, hlt]
  simp only [redialAgentLeg, hm, if_neg hno, hp]

/-- A bridge given up for a redial: this group's, or another's. -/
theorem sameStory_giveUp (a : App) (b : Nat) (bridges sessions : Dict String Nat)
    (h : a.Redialing group ∨ bridges.get group = a.bridges.get group) :
    SameStory group a ({ a with bridges, sessions }.setBridge b (a.heap b).close) := by
  have h0 : SameStory group a { a with bridges, sessions } := by
    refine ⟨rfl, Iff.rfl, rfl, rfl, rfl, fun _ h => h, id, fun hg => ?_⟩
    rcases h with hr | hb
    · exact fun _ => .inr hr
    · exact hg.mono id hb rfl
  exact h0.trans (sameCall_setBridge group _ (by simp) (by simp) (by simp)).toSameStory

theorem Told.finishAgentLeg {b : Nat} {g : String} {sawStop placed : Bool} (h : a.Told group)
    (hends : g = group → (a.heap b).reconnecting = false → a.EndsHeard group b sawStop placed) :
    (a.finishAgentLeg b g sawStop placed).Told group := by
  unfold App.finishAgentLeg
  dsimp only
  by_cases hrec : (a.heap b).reconnecting = true
  · rw [if_pos hrec]; exact h
  rw [if_neg hrec]
  have hrec' : (a.heap b).reconnecting = false := by simpa using hrec
  by_cases hd : sawStop = false ∧ (a.heap b).session.finished = false
  · have hd' : (!sawStop && !(a.heap b).session.finished) = true := by simp [hd]
    have h0 := sameCall_redialAgentLeg group a g placed
    simp only [hd', if_true]
    cases hp : (a.redialAgentLeg g placed).2 with
    | true =>
      simp only [if_true]
      have h1 : ∀ bridges sessions, (g ≠ group → bridges.get group = a.bridges.get group) → SameStory group a
          (App.setBridge { (a.redialAgentLeg g placed).1 with bridges, sessions } b (a.heap b).close) := by
        intro bridges sessions hother
        have hheap : ((a.redialAgentLeg g placed).1.heap b).close = (a.heap b).close := by
          obtain ⟨m, l, he⟩ := a.redialAgentLeg_eq g placed
          rw [he]
        rw [← hheap]
        refine h0.toSameStory.trans (sameStory_giveUp _ b bridges sessions ?_)
        by_cases hg : g = group
        · subst hg
          exact .inl (redialAgentLeg_redialing hp)
        · exact .inr ((hother hg).trans h0.bridges.symm)
      split
      · refine h.same (h1 _ _ fun hg => ?_)
        rw [Dict.get_erase, if_neg (Ne.symm hg), h0.bridges]
      · exact h.same (h1 _ _ fun _ => h0.bridges)
    | false =>
      rw [if_neg (by simp)]
      apply (h.same h0.toSameStory).teardown _ "dropped"
      intro hg
      subst hg
      rcases (hends rfl hrec').1 hd with hc | hs | hr
      · rw [hc.redials] at hp; cases hp
      · exact .inl (hs.same h0.toSameStory)
      · exact .inr (hr.same h0)
  · have hd' : (!sawStop && !(a.heap b).session.finished) = false := by
      cases hs : sawStop <;> cases hf : (a.heap b).session.finished <;> simp_all
    simp only [hd', Bool.false_eq_true, if_false]
    by_cases hg : g = group
    · subst hg
      exact h.teardown_settled ((hends rfl hrec').2 hd) _ _
    · exact h.same (sameCall_teardownGroup hg a _ _).toSameStory

theorem sameStory_startAgentLeg (a : App) (k : Nat) (m : Start) : SameStory group a (a.startAgentLeg k m) := by
  unfold startAgentLeg
  dsimp only
  split
  · rename_i b _
    have h0 := sameCall_setBridge group a (b := b)
      (c := { (a.heap b).bindAgent m.streamSid true with reconnecting := false, reconnectSince := none }) rfl id rfl
    exact (h0.trans (sameCall_setSocket group _ k _)).toSameStory
  · refine ⟨rfl, Iff.rfl, rfl, rfl, rfl, fun _ h => h, fun h => ?_, fun h => ?_⟩
    · -- the new bridge is none of those that may have opened
      refine h.mono (Nat.le_succ _) fun b hb => ?_
      simp only [App.setSocket, App.setBridge]
      rw [Function.update_of_ne (Nat.ne_of_lt hb)]
      exact ⟨rfl, id⟩
    · by_cases hg : m.group = group
      · -- it is registered for this group
        exact fun _ => .inl (by simp [hg, App.setSocket, App.setBridge])
      · refine h.mono ?_ ?_ rfl
        · rintro ⟨b, hb, hbg⟩
          simp only [App.setSocket, App.setBridge, Function.update_apply] at hb hbg
          split at hbg
          · exact absurd hbg hg
          · exact ⟨b, by omega, hbg⟩
        · simp [Dict.get_set, App.setSocket, App.setBridge, Ne.symm hg]

theorem sameCall_serveUserLeg (group : String) (a : App) (k tries : Nat) :
    SameCall group a (a.serveUserLeg k tries) := by
  unfold serveUserLeg
  dsimp only
  split
  · exact sameCall_setSocket group a k _
  · split
    · rename_i b _
      have h0 := sameCall_setBridge group a (b := b) (c := (a.heap b).bindUser (a.sockets k).streamSid) rfl id rfl
      exact h0.trans (sameCall_setSocket group _ k _)
    · exact sameCall_setSocket group a k _

theorem sameCall_waitDrained (group : String) (a : App) (b left : Nat) : SameCall group a (a.waitDrained b left) := by
  unfold waitDrained
  rcases (a.heap b).waitDrained_cases left with h | ⟨n, h⟩ <;> simp only [h]
  · refine SameCall.trans ?_ (sameCall_sms _ (.inr rfl))
    apply sameCall_setBridge <;> simp
  · apply sameCall_setBridge <;> simp

theorem sameCall_redirect (group : String) (a : App) (n : Nat) (ok : Bool) : SameCall group a (a.redirect n ok) := by
  have hless : ∀ redirects, SameCall group a { a with redirects } := fun _ =>
    ⟨⟨rfl, Iff.rfl, rfl, rfl, rfl, fun _ h => h, id, id⟩, rfl, fun _ => rfl, fun _ => rfl⟩
  unfold redirect
  split
  · exact SameCall.refl group a
  · rename_i r _
    dsimp only
    split
    · exact hless _
    · rename_i callId url _
      have hreq : SameCall group a (App.request { a with redirects := a.redirects.eraseIdx n }
          (.pressDigits callId r.keys url)) :=
        (hless _).trans (sameCall_log group _ (by simp [Twilio.isFallback]))
      split
      · exact hreq
      · refine hreq.trans (sameCall_setBridge group _ ?_ ?_ ?_) <;> simp [request]

/-! ## `create_call` -/

/-- The call of another group is being placed. -/
theorem sameStory_work {g : String} (hne : g ≠ group) (a : App) (ring : Option String) :
    SameStory group a (a.work g ring) := by
  unfold work
  split
  · exact (SameCall.refl group a).toSameStory
  · dsimp only
    split
    case h_3 =>
      split
      all_goals
        refine ⟨?_, ?_, ?_, rfl, ?_, ?_, id, fun h => h.mono id rfl ?_⟩ <;>
          simp [Dict.get_set, Ne.symm hne, request, texts, Twilio.isFallback]
    case h_4 =>
      split
      · refine ⟨?_, ?_, ?_, rfl, rfl, fun _ h => h, id, fun h => h.mono id rfl ?_⟩ <;>
          simp [Dict.get_set, Ne.symm hne]
      · exact (SameCall.refl group a).toSameStory
    all_goals
      first
        | exact (SameCall.refl group a).toSameStory
        | (refine ⟨?_, ?_, ?_, rfl, rfl, fun _ h => h, id, fun h => h.mono id rfl ?_⟩ <;>
            simp [Dict.get_set, Ne.symm hne])

/-- Before `call_meta` is stored nothing has been kept or sent. -/
theorem Story.begun {c : CreateCall} (h : a.Story group c) (hn : c.next = .storeGoal ∨ c.next = .storeMeta) :
    a.Relayed group ∨
      (a.callMeta.get group = none ∧ a.userNumbers.get group = none ∧ a.texts group = [] ∧ a.Going group) := by
  rcases h with hr | ⟨-, hm, hu, ht, hgo⟩ | ⟨h1, h2, -, -, -⟩ | ⟨r, hret, -, -, -, -⟩
  · exact .inl hr
  · exact .inr ⟨hm, hu, ht, hgo⟩
  · exact absurd hn (by simp [h1, h2])
  · rw [hret] at hn; simp at hn

/-- While the user is being rung the call is live. -/
theorem Story.ringing {c : CreateCall} (h : a.Story group c) (h1 : c.next ≠ .storeGoal) (h2 : c.next ≠ .storeMeta)
    (h3 : c.next ≠ .returned) :
    a.Relayed group ∨ (a.callMeta.get group ≠ none ∧ a.texts group = [] ∧ a.Going group) := by
  rcases h with hr | ⟨hp, -, -, -, -⟩ | ⟨-, -, hm, ht, hgo⟩ | ⟨r, hret, -, -, -, -⟩
  · exact .inl hr
  · exact absurd hp (by simp [h1, h2])
  · exact .inr ⟨hm, ht, hgo⟩
  · exact absurd hret h3

/-- The call with the next of its accesses made: `call_meta`, texts and relays say that it is live. -/
theorem Story.goesOn {c : CreateCall}
    (h : a.Relayed group ∨ (a.callMeta.get group ≠ none ∧ a.texts group = [] ∧ a.Going group))
    (h1 : c.next ≠ .storeGoal) (h2 : c.next ≠ .storeMeta) : a.Story group c := by
  rcases h with hr | ⟨hm, ht, hgo⟩
  · exact .relayed hr
  · exact .live h1 h2 hm ht hgo

/-- What each access of `create_call` does to the story of its own group. -/
theorem Told.work {g : String} {ring : Option String} (h : a.Told group)
    (hring : ∀ sid, ring = some sid → g = group → RealSid sid) : (a.work g ring).Told group := by
  by_cases hg : g = group
  swap
  · exact h.same (sameStory_work hg a ring)
  subst hg
  unfold App.work
  cases hc : a.creates.get g with
  | none => exact h
  | some c =>
    have hsame := h
    unfold Told at h
    rw [hc] at h
    obtain ⟨htw, hleg, hst⟩ := h
    cases hn : c.next with
    | storeGoal =>
      simp only [hn, Told, Dict.get_set_self]
      refine ⟨htw, hleg, ?_⟩
      rcases hst.begun (.inl hn) with hr | ⟨hm, hu, ht, hgo⟩
      · exact .relayed hr
      · exact .placing (.inr rfl) hm hu ht hgo
    | storeMeta =>
      simp only [hn, Told, Dict.get_set_self]
      refine ⟨htw, hleg, ?_⟩
      rcases hst.begun (.inr hn) with hr | ⟨hm, -, ht, hgo⟩
      · exact .relayed hr
      · -- no redial has been counted, so a leg that has connected still has its bridge
        refine .live (by simp) (by simp) (by simp) ht fun hc => (hgo hc).imp id ?_
        rintro ⟨m, hm', -⟩
        rw [hm] at hm'
        cases hm'
    | ringUser =>
      have hlive : a.Relayed g ∨ a.callMeta.get g ≠ none ∧
          (a.request (.ringUser c.req.userNumber
            (a.publicBaseUrl ++ "/twiml/join?group=" ++ g) g)).texts g = [] ∧ a.Going g := by
        simpa [texts, request, Twilio.isFallback] using hst.ringing (by simp [hn]) (by simp [hn]) (by simp [hn])
      cases ring with
      | some sid =>
        simp only [hn, Told, Dict.get_set_self]
        refine ⟨htw, fun leg hl => ?_, ?_⟩
        · cases hl; exact hring sid rfl rfl
        · exact Story.goesOn hlive (by simp) (by simp)
      | none =>
        simp only [hn, Told, Dict.get_set_self]
        refine ⟨htw, hleg, ?_⟩
        exact Story.goesOn hlive (by simp) (by simp)
    | storeLeg =>
      simp only [hn]
      split
      · simp only [Told, Dict.get_set_self]
        refine ⟨htw, hleg, ?_⟩
        exact Story.goesOn (hst.ringing (by simp [hn]) (by simp [hn]) (by simp [hn])) (by simp) (by simp)
      · exact hsame
    | storeNumber =>
      simp only [hn, Told, Dict.get_set_self]
      refine ⟨htw, hleg, ?_⟩
      exact Story.goesOn (hst.ringing (by simp [hn]) (by simp [hn]) (by simp [hn])) (by simp) (by simp)
    | returned => simpa only [hn] using hsame

/-- An accepted request begins the story of a group nobody has heard of. -/
theorem Told.post {g : String} {req : CallRequest} {placed : Bool} (h : a.Told group) :
    (a.post g req placed).Told group := by
  unfold App.post
  split
  · exact h
  · rename_i hno
    rw [not_or, not_or] at hno
    have h0 : SameCall group a (a.request (.placeOutboundCall req.businessNumber
        (a.publicBaseUrl ++ "/twiml/voice?group=" ++ g) g)) := sameCall_log group a (by simp [Twilio.isFallback])
    dsimp only
    split
    · by_cases hg : g = group
      · subst hg
        have hnone : a.creates.get g = none := by
          cases hc : a.creates.get g with
          | none => rfl
          | some c => exact absurd (.inl (by simp [hc])) hno.1
        unfold Told at h ⊢
        rw [hnone] at h
        obtain ⟨hm, hu, ht⟩ := h
        simp only [Dict.get_set_self]
        refine ⟨by simpa [request] using hno.2.1, by simp, ?_⟩
        exact .placing (.inl rfl) hm hu (h0.texts.trans ht) fun hcon => absurd (.inr hcon) hno.1
      · refine h.same (h0.toSameStory.trans ⟨?_, Iff.rfl, rfl, rfl, rfl, fun _ h => h, id, id⟩)
        simp [Dict.get_set, Ne.symm hg]
    · exact h.same h0.toSameStory

theorem Told.reap (h : a.Told group)
    (hends : ∀ b, a.bridges.get group = some b → Stale (a.heap b) a.now → a.Settled group ∨ a.Ready group) :
    a.reapStaleBridges.1.Told group := by
  have hinv : a.reapStaleBridges.1.Told group ∧
      ((∃ b, a.reapStaleBridges.1.bridges.get group = some b ∧
          Stale (a.reapStaleBridges.1.heap b) a.reapStaleBridges.1.now) →
        a.reapStaleBridges.1.Settled group ∨ a.reapStaleBridges.1.Ready group) := by
    refine reapStaleBridges_keeps (P := fun a' => a'.Told group ∧
      ((∃ b, a'.bridges.get group = some b ∧ Stale (a'.heap b) a'.now) → a'.Settled group ∨ a'.Ready group))
      ?_ ⟨h, fun ⟨b, hb, hs⟩ => hends b hb hs⟩
    rintro a' g c hc hst ⟨ht, hend⟩
    by_cases hg : g = group
    · subst hg
      refine ⟨ht.teardown (fun _ => hend ⟨c, hc, hst⟩) _, fun _ => .inl ?_⟩
      exact teardownGroup_settled (hend ⟨c, hc, hst⟩) _ _
    · have hs : SameCall group a' (a'.teardownGroup g (some "dropped") true) :=
        sameCall_teardownGroup hg a' _ _
      refine ⟨ht.same hs.toSameStory, fun ⟨b, hb, hst'⟩ => ?_⟩
      rw [hs.bridges] at hb
      rw [teardownGroup_now, Stale.legs (teardownGroup_legs ..)] at hst'
      exact (hend ⟨b, hb, hst'⟩).imp (Settled.same hs.toSameStory) (Ready.same hs)
  exact hinv.1

/-! ## Every step -/

theorem Told.setSocket (h : a.Told group) (k : Nat) (s : Socket) : (a.setSocket k s).Told group :=
  h.same (sameCall_setSocket group a k s).toSameStory

theorem step_told {act : Action} (hw : Wf a) (h : a.Told group) (hh : a.Heeds group act) :
    (step a act).Told group := by
  have hframe : ∀ {a' : App}, SameCall group a a' → a'.Told group := fun hs => h.same hs.toSameStory
  cases act with
  | post g req placed => exact h.post
  | work g ring =>
    apply h.work
    rintro sid rfl hg
    exact hh hg
  | start k m =>
    simp only [step, start]
    split
    · exact h
    · split
      · exact h.same (sameStory_startAgentLeg a k m)
      · exact hframe ((sameCall_setSocket group a k _).trans (sameCall_serveUserLeg group _ k 0))
  | poll k =>
    simp only [step, poll]
    split
    · exact hframe (sameCall_serveUserLeg group a k _)
    · exact h
  | media k payload ticks =>
    simp only [step, media]
    split
    · rename_i b hph hb hr
      have ht : (a.onAgentAudio b payload ticks).Told group := by
        apply h.onAgentAudio
        intro hg
        exact hh hph hr ((hw.held k b hb).2.trans hg) b hb
      split
      · exact ht.setSocket k _
      · exact ht
    · rename_i b _ _ _
      obtain ⟨o, he⟩ := (a.heap b).onUserAudio_eq payload
      rw [he]
      exact hframe (sameCall_setBridge group a rfl id rfl)
    · exact h
  | close k stop =>
    simp only [step, close]
    split
    · exact h.setSocket k _
    · exact h.setSocket k _
    · exact h
  | finish k placed =>
    by_cases hc : (a.sockets k).phase = .closing
    · obtain ⟨a', he, -, hcase⟩ := a.finish_sockets k placed hc
      simp only [step, he]
      apply Told.setSocket
      rcases hcase with ⟨b, hb, hr, rfl⟩ | ⟨b, hb, hr, rfl⟩ | ⟨-, rfl⟩
      · apply h.finishAgentLeg
        intro hg
        exact (hh hc hg b hb).1 hr
      · apply h.finishUserLeg
        intro hg
        exact (hh hc ((hw.held k b hb).2.trans hg) b hb).2 hr
      · exact h
    · simp only [step, a.finish_idle k placed hc]
      exact h
  | drain k =>
    simp only [step, drain]
    split
    · rename_i b _ _
      apply Told.setSocket
      apply hframe
      apply sameCall_setBridge <;> split <;> simp [drainAgent, drainUser]
    · exact h
  | redirect n ok => exact hframe (sameCall_redirect group a n ok)
  | spoken b =>
    simp only [step, spoken]
    split
    · exact hframe (sameCall_waitDrained group a b _)
    · exact h
  | drained b =>
    simp only [step, drained]
    split
    · exact hframe (sameCall_waitDrained group a b _)
    · exact h
  | play b pcm =>
    simp only [step, play]
    split
    · obtain ⟨o, he⟩ := (a.heap b).playToAgent_eq pcm
      rw [he]
      exact hframe (sameCall_setBridge group a rfl id rfl)
    · exact h
  | probe b running =>
    simp only [step, probe]
    split
    · exact hframe (sameCall_setBridge group a rfl id rfl)
    · exact h
  | reap => exact h.reap hh
  | wait dt =>
    exact hframe ⟨⟨rfl, Iff.rfl, rfl, rfl, rfl, fun _ h => h, id, id⟩, rfl, fun _ => rfl, fun _ => rfl⟩

/-- **`notified`**: in every run of the registry whose steps heed a group, its user is never left waiting:
once the call has ended without a handoff, exactly one fallback text went to their number and their leg
was hung up. -/
theorem notified (settings : Settings) (key base : String) (twilio : Bool) (group : String)
    (acts : List Action) (h : Run.Along step (Heeds group) (App.new settings key base twilio) acts) :
    Run.Always step (Notified · group) (App.new settings key base twilio) acts := by
  refine Run.always_of_along (I := fun a => Wf a ∧ a.Told group) (C := Heeds group) ?_
    (fun a hi => notified_of_told hi.2) acts _ ⟨new_wf settings key base twilio, rfl, rfl, rfl⟩ h
  intro a act hi hc
  exact ⟨step_wf a act hi.1, step_told hi.1 hi.2 hc⟩

/-- The user waits, and the line goes to voicemail. -/
def hearsVoicemail : List Action :=
  answered "g" ++ [.start 1 { groupParam := "g", role := .user, callSid := "CAuser", streamSid := "MZuser" },
    hear 0 0 .voicemail, hear 0 4000 .voicemail, hear 0 4000 .voicemail, .close 0 true, .finish 0 true]

/-- They are told, once. -/
theorem hearsVoicemail_notified :
    Run.Always step (Notified · "g") (App.new {} "" "https://dialpass.test" true) hearsVoicemail ∧
      (Run.exec step (App.new {} "" "https://dialpass.test" true) hearsVoicemail).texts "g" =
        [.sendSms "g" "+15145550123" (fallbackMessage "non_connect")] :=
  ⟨notified {} "" "https://dialpass.test" true "g" hearsVoicemail (by decide +kernel), by decide +kernel⟩

/-- The user cannot be rung, so their number is not kept; the line goes to voicemail. -/
def ringFails : List Action :=
  (answered "g").take 1 ++ List.replicate 3 (.work "g" none) ++ (answered "g").drop 6 ++
    [hear 0 0 .voicemail, hear 0 4000 .voicemail, hear 0 4000 .voicemail]

/-- The user waits, and the business hangs up in the menu. -/
def stopsEarly : List Action :=
  answered "g" ++ [.start 1 { groupParam := "g", role := .user, callSid := "CAuser", streamSid := "MZuser" },
    .close 0 true, .finish 0 true]

/-- The business hangs up before `create_call` has kept anything; the user is rung after that. -/
def stopsFirst : List Action :=
  (answered "g").take 1 ++ (answered "g").drop 6 ++ [.close 0 true, .finish 0 true] ++
    List.replicate 5 (.work "g" (some "CAuser"))

/-- An ended call without a text. -/
theorem not_notified (hret : (a.creates.get group).map CreateCall.next = some .returned)
    (hcon : a.Connected group) (hb : a.bridges.get group = none)
    (hm : ((a.callMeta.get group).map CallMeta.redials).getD 0 = 0) (hrel : ¬ a.Relayed group)
    (htx : a.texts group = []) : ¬ a.Notified group := by
  intro h
  obtain ⟨c, hc, hn⟩ := Option.map_eq_some_iff.1 hret
  have hno : ¬ a.Redialing group := by
    rintro ⟨m, hm', hpos⟩
    rw [hm'] at hm
    exact absurd hm (Nat.ne_of_gt hpos)
  obtain ⟨⟨reason, hr⟩, -⟩ := h c hc hn ⟨hcon, hb, hno⟩ hrel
  rw [htx] at hr
  cases hr

/-- None of these users hears of the end of their call. -/
theorem deadEnds_not_notified :
    ¬ Notified (Run.exec step (App.new {} "" "https://dialpass.test" true) ringFails) "g" ∧
      ¬ Notified (Run.exec step (App.new {} "" "https://dialpass.test" true) stopsEarly) "g" ∧
      ¬ Notified (Run.exec step (App.new {} "" "https://dialpass.test" true) stopsFirst) "g" := by
  refine ⟨?_, ?_, ?_⟩ <;>
    exact not_notified (by decide +kernel) ⟨0, by decide +kernel, by decide +kernel⟩ (by decide +kernel)
      (by decide +kernel) (by decide +kernel) (by decide +kernel)

end App

end DialPass
