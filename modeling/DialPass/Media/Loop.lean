import DialPass.Media.Lines
import DialPass.Media.Socket
import DialPass.Telephony.Voice
/-!
# The legs of a call and their group (api/calls.py:41-77, api/voice.py:26-57, api/media.py:131-147, api/media.py:230-277)

A `Line` is the registry together with the legs Twilio has dialled for it. A leg fetches the document at the url it was
given, opens the stream the document names, and says its parameters in the `start` of that stream; a keypress sends
it through a document of its own, back to a url. Twilio does any of this at any time, as often as it likes.
`correlated` is what the program relies on throughout: a leg always finds its way to the group it was dialled for, and
in its role.
-/

namespace DialPass

open App

/-- A leg, what it was dialled for, and the url it fetches next. -/
structure Leg where
  callSid : String
  group : String
  role : Role
  url : List Char
deriving DecidableEq

structure Line where
  app : App
  legs : List Leg := []

namespace Line

inductive Act where
  /-- anything the registry does by itself -/
  | act (x : App.Action)
  /-- Twilio dials what the `n`-th request asks for -/
  | dial (n : Nat) (callSid : String)
  /-- Twilio presses the keys of the `n`-th request -/
  | turn (n : Nat)
  /-- the `n`-th leg fetches its url and opens socket `k` -/
  | connect (n k : Nat) (streamSid : String)

/-- The leg of that call goes to `url`. -/
def lead (legs : List Leg) (callSid : String) (url : List Char) : List Leg :=
  legs.map fun leg => if leg.callSid = callSid then { leg with url } else leg

/-- Call sids are Twilio's, and no two are the same. -/
def dial (l : Line) (callSid group : String) (role : Role) (url : String) : Line :=
  if callSid = "" ∨ callSid ∈ l.legs.map (·.callSid) then l
  else { l with legs := l.legs ++ [{ callSid, group, role, url := url.toList }] }

/-- The text of a leg's `start`, with what else Twilio puts there. -/
def startText (inner : List (String × Json)) (rest : String → List (String × Json)) (leg : Leg) (streamSid : String)
    (parameters : List (List Char × List Char)) : String :=
  Json.dumps Json.compact ((StreamMessage.start streamSid leg.callSid
    (parameters.map fun p => (String.ofList p.1, String.ofList p.2))).json inner (rest streamSid))

def step (py : Interpreter) (inner : List (String × Json)) (rest : String → List (String × Json)) (l : Line) : Act → Line
  | .act (.start _ _) => l
  | .act x => { l with app := App.step l.app x }
  | .dial n callSid =>
    match l.app.log[n]? with
    | some (.placeOutboundCall _ url group) => l.dial callSid group .agent url
    | some (.ringUser _ url group) => l.dial callSid group .user url
    | _ => l
  | .turn n =>
    match l.app.log[n]? with
    | some (.pressDigits callSid digits url) =>
      match Twiml.follow (Twiml.pressDigits digits.toList url.toList) with
      | some (.fetch url) => { l with legs := lead l.legs callSid url }
      | _ => l
    | _ => l
  | .connect n k streamSid =>
    match l.legs[n]? with
    | some leg =>
      match (Twiml.serve l.app.publicBaseUrl.toList leg.url).bind Twiml.follow with
      | some (.stream _ parameters) =>
        { l with app := l.app.receive py k (startText inner rest leg streamSid parameters) [] }
      | _ => l
    | none => l

/-! ## What holds of every line -/

def legUrl (base : String) : Role → String → String
  | .agent, group => voiceUrl base group
  | .user, group => joinUrl base group

/-- There is a leg of that call, dialled for that group in that role. -/
def Has (l : Line) (callSid group : String) (role : Role) : Prop :=
  ∃ leg ∈ l.legs, leg.callSid = callSid ∧ leg.group = group ∧ leg.role = role

/-- What Twilio was asked to do was asked for a group that was issued, or for a leg that is there. -/
def Asked (l : Line) (base : String) : Twilio → Prop
  | .placeOutboundCall _ url group => Twiml.Issued group.toList ∧ url = voiceUrl base group
  | .ringUser _ url group => Twiml.Issued group.toList ∧ url = joinUrl base group
  | .pressDigits callSid keys url => Keypad keys ∧ ∃ group, l.Has callSid group .agent ∧ url = voiceUrl base group
  | .sendSms .. | .hangUp _ => True

/-- A handler that has got its `start` and is still on. -/
def Up (s : Socket) : Prop := s.phase = .receiving ∨ ∃ tries, s.phase = .attaching tries

structure Correlated (base : String) (l : Line) : Prop where
  wf : Wf l.app
  publicBaseUrl : l.app.publicBaseUrl = base
  sids : (l.legs.map (·.callSid)).Nodup
  legs : ∀ leg ∈ l.legs, leg.callSid ≠ "" ∧ Twiml.Issued leg.group.toList ∧
    leg.url = (legUrl base leg.role leg.group).toList
  lines : ∀ b < l.app.fresh, l.Has (l.app.heap b).session.callId (l.app.heap b).groupId .agent ∧
    ∀ callId url, (l.app.heap b).dtmfRedirect = some (callId, url) →
      callId = (l.app.heap b).session.callId ∧ url = voiceUrl base (l.app.heap b).groupId
  redirects : ∀ r ∈ l.app.redirects, r.bridge < l.app.fresh ∧ Keypad r.keys
  calls : ∀ g, l.app.callMeta.get g ≠ none ∨ l.app.creates.get g ≠ none → Twiml.Issued g.toList
  log : ∀ e ∈ l.app.log, l.Asked base e
  sockets : ∀ k, Up (l.app.sockets k) → ∃ callSid, l.Has callSid (l.app.sockets k).group (l.app.sockets k).role

variable {base : String} {l : Line}

theorem Asked.mono {l' : Line} (h : ∀ callSid group role, l.Has callSid group role → l'.Has callSid group role)
    {e : Twilio} (he : l.Asked base e) : l'.Asked base e := by
  cases e with
  | pressDigits callSid keys url =>
    obtain ⟨hk, group, hg, hu⟩ := he
    exact ⟨hk, group, h _ _ _ hg, hu⟩
  | _ => exact he

/-- More legs, or legs elsewhere, that are the same legs. -/
theorem Correlated.setLegs (h : Correlated base l) {legs : List Leg} (hsids : (legs.map (·.callSid)).Nodup)
    (hlegs : ∀ leg ∈ legs, leg.callSid ≠ "" ∧ Twiml.Issued leg.group.toList ∧
      leg.url = (legUrl base leg.role leg.group).toList)
    (hhas : ∀ callSid group role, l.Has callSid group role → Has { l with legs } callSid group role) :
    Correlated base { l with legs } where
  wf := h.wf
  publicBaseUrl := h.publicBaseUrl
  sids := hsids
  legs := hlegs
  lines b hb := ⟨hhas _ _ _ (h.lines b hb).1, (h.lines b hb).2⟩
  redirects := h.redirects
  calls := h.calls
  log e he := (h.log e he).mono hhas
  sockets k hk := (h.sockets k hk).imp fun _ hc => hhas _ _ _ hc

/-- A piece of code that stays, with the handlers where they were or further. -/
theorem Correlated.stays (h : Correlated base l) {a : App} (hs : Stays l.app a) (hw : Wf a)
    (hsockets : ∀ k, Up (a.sockets k) → ∃ callSid, l.Has callSid (a.sockets k).group (a.sockets k).role) :
    Correlated base { l with app := a } where
  wf := hw
  publicBaseUrl := hs.base.trans h.publicBaseUrl
  sids := h.sids
  legs := h.legs
  lines b hb := by
    have hb' : b < l.app.fresh := hs.fresh ▸ hb
    have hl := hs.lines b
    rw [hl.groupId, hl.callId, hl.dtmfRedirect]
    exact h.lines b hb'
  redirects r hr := by
    rcases hs.redirects r hr with hr | hr
    · exact ⟨hs.fresh ▸ (h.redirects r hr).1, (h.redirects r hr).2⟩
    · exact ⟨hs.fresh ▸ hr.1, hr.2⟩
  calls g hg := h.calls g (hg.imp (hs.callMeta g) fun hc => hs.creates ▸ hc)
  log e he := by
    obtain ⟨es, hes, hq⟩ := hs.log
    rw [hes] at he
    rcases List.mem_append.1 he with he | he
    · exact h.log e he
    · have hr := hq e he
      cases e with
      | placeOutboundCall number url group => exact ⟨h.calls group (.inl hr.2), h.publicBaseUrl ▸ hr.1⟩
      | sendSms group number body => trivial
      | hangUp callSid => trivial
      | ringUser number url group => exact absurd hr id
      | pressDigits callSid keys url => exact absurd hr id
  sockets := hsockets

/-- What leaves the bridges and the handlers where they are. -/
theorem Correlated.beside (h : Correlated base l) {a : App} (bridges : a.bridges = l.app.bridges)
    (heap : a.heap = l.app.heap) (fresh : a.fresh = l.app.fresh) (sockets : a.sockets = l.app.sockets)
    (publicBaseUrl : a.publicBaseUrl = l.app.publicBaseUrl) (redirects : a.redirects ⊆ l.app.redirects)
    (calls : ∀ g, a.callMeta.get g ≠ none ∨ a.creates.get g ≠ none → Twiml.Issued g.toList)
    (log : ∀ e ∈ a.log, e ∈ l.app.log ∨ l.Asked base e) : Correlated base { l with app := a } where
  wf := ⟨fun g b => by rw [bridges, heap, fresh]; exact h.wf.registered g b,
    fun k b => by rw [sockets, heap, fresh]; exact h.wf.held k b⟩
  publicBaseUrl := publicBaseUrl.trans h.publicBaseUrl
  sids := h.sids
  legs := h.legs
  lines b hb := by
    rw [heap]
    exact h.lines b (fresh ▸ hb)
  redirects r hr := by
    rw [fresh]
    exact h.redirects r (redirects hr)
  calls := calls
  log e he := (log e he).elim (h.log e) id
  sockets k hk := by
    rw [sockets] at hk ⊢
    exact h.sockets k hk

/-! ## The registry's own steps -/

/-- Polling moves a user's handler on, or keeps it where it is. -/
theorem serveUserLeg_self (a : App) (k tries : Nat) : ((a.serveUserLeg k tries).sockets k).group = (a.sockets k).group ∧
    ((a.serveUserLeg k tries).sockets k).role = (a.sockets k).role := by
  unfold serveUserLeg
  dsimp only
  split
  · rw [setSocket_sockets_self]
    exact ⟨rfl, rfl⟩
  · split <;> rw [setSocket_sockets_self] <;> exact ⟨rfl, rfl⟩

/-- A handler is up only from its `start` on, and keeps the group and the role it got there. -/
theorem step_up (a : App) (x : App.Action) (hx : ∀ k m, x ≠ .start k m) (j : Nat) (hu : Up ((App.step a x).sockets j)) :
    Up (a.sockets j) ∧ ((App.step a x).sockets j).group = (a.sockets j).group ∧
      ((App.step a x).sockets j).role = (a.sockets j).role := by
  by_cases hj : x.socket? = some j
  swap
  · rw [step_sockets_ne a x hj] at hu ⊢
    exact ⟨hu, rfl, rfl⟩
  have hkeeps : (∃ sent, (App.step a x).sockets j = { a.sockets j with sent }) ∨ ¬ Up ((App.step a x).sockets j) →
      Up (a.sockets j) ∧ ((App.step a x).sockets j).group = (a.sockets j).group ∧
        ((App.step a x).sockets j).role = (a.sockets j).role := by
    rintro (⟨sent, he⟩ | hn)
    · rw [he] at hu ⊢
      exact ⟨hu, rfl, rfl⟩
    · exact absurd hu hn
  have hover : ∀ s : Socket, s.phase = .closing ∨ s.phase = .closed → ¬ Up s := by
    rintro s (hs | hs) (h | ⟨t, h⟩) <;> rw [hs] at h <;> cases h
  cases x with
  | start k m => exact absurd rfl (hx k m)
  | poll k =>
    cases hj
    simp only [App.step, poll] at hkeeps hu ⊢
    split
    · rename_i tries ht
      exact ⟨.inr ⟨tries, ht⟩, serveUserLeg_self a j tries⟩
    · rename_i ht
      split at hu
      · exact absurd ‹_› (ht _)
      · exact ⟨hu, rfl, rfl⟩
  | media k payload ticks =>
    cases hj
    refine hkeeps ?_
    simp only [App.step, media]
    split
    · split
      · exact .inr (hover _ (.inl (by rw [setSocket_sockets_self])))
      · exact .inl ⟨_, by rw [onAgentAudio_sockets]⟩
    · exact .inl ⟨_, rfl⟩
    · exact .inl ⟨_, rfl⟩
  | close k stop =>
    cases hj
    refine hkeeps ?_
    simp only [App.step, App.close]
    split
    · exact .inr (hover _ (.inl (by rw [setSocket_sockets_self])))
    · exact .inr (hover _ (.inl (by rw [setSocket_sockets_self])))
    · exact .inl ⟨_, rfl⟩
  | finish k placed =>
    cases hj
    refine hkeeps ?_
    by_cases hc : (a.sockets j).phase = .closing
    · obtain ⟨a', he, -, -⟩ := a.finish_sockets j placed hc
      exact .inr (hover _ (.inr (by rw [App.step, he, setSocket_sockets_self])))
    · exact .inl ⟨_, by rw [App.step, a.finish_idle j placed hc]⟩
  | drain k =>
    cases hj
    refine hkeeps ?_
    simp only [App.step, drain]
    split
    · exact .inl ⟨_, by rw [setSocket_sockets_self]⟩
    · exact .inl ⟨_, rfl⟩
  | _ => cases hj

theorem post_correlated (h : Correlated base l) (group : String) (req : CallRequest) (placed : Bool)
    (hg : Twiml.Issued group.toList) : Correlated base { l with app := l.app.post group req placed } := by
  have hlog : ∀ e ∈ l.app.log ++ [.placeOutboundCall req.businessNumber
        (l.app.publicBaseUrl ++ "/twiml/voice?group=" ++ group) group],
      e ∈ l.app.log ∨ l.Asked base e := fun e he => by
    rcases List.mem_append.1 he with he | he
    · exact .inl he
    · obtain rfl := List.mem_singleton.1 he
      exact .inr ⟨hg, by rw [h.publicBaseUrl]; rfl⟩
  unfold post
  split
  · exact h
  · dsimp only
    split
    · refine h.beside rfl rfl rfl rfl rfl (List.Subset.refl _) (fun g hc => ?_) hlog
      by_cases he : g = group
      · exact he ▸ hg
      · refine h.calls g (hc.imp_right fun hn => ?_)
        simpa [request, Dict.get_set, he] using hn
    · exact h.beside rfl rfl rfl rfl rfl (List.Subset.refl _) h.calls hlog

theorem work_correlated (h : Correlated base l) (group : String) (ring : Option String) :
    Correlated base { l with app := l.app.work group ring } := by
  unfold work
  split
  · exact h
  · rename_i c hc
    have hg : Twiml.Issued group.toList := h.calls group (.inr (by rw [hc]; simp))
    have hset : ∀ (d : CreateCall) (g : String), l.app.callMeta.get g ≠ none ∨ (l.app.creates.set group d).get g ≠ none →
        Twiml.Issued g.toList := fun d g hn => by
      by_cases he : g = group
      · exact he ▸ hg
      · exact h.calls g (hn.imp_right fun hn => by simpa [Dict.get_set, he] using hn)
    have hmeta : ∀ (d : CreateCall) (m : CallMeta) (g : String), (l.app.callMeta.set group m).get g ≠ none ∨
        (l.app.creates.set group d).get g ≠ none → Twiml.Issued g.toList := fun d m g hn => by
      by_cases he : g = group
      · exact he ▸ hg
      · exact hset d g (hn.imp_left fun hn => by simpa [Dict.get_set, he] using hn)
    have hring : ∀ e ∈ l.app.log ++ [.ringUser c.req.userNumber
          (l.app.publicBaseUrl ++ "/twiml/join?group=" ++ group) group],
        e ∈ l.app.log ∨ l.Asked base e := fun e he => by
      rcases List.mem_append.1 he with he | he
      · exact .inl he
      · obtain rfl := List.mem_singleton.1 he
        exact .inr ⟨hg, by rw [h.publicBaseUrl]; rfl⟩
    have hsame : ∀ e ∈ l.app.log, e ∈ l.app.log ∨ l.Asked base e := fun _ => .inl
    dsimp only
    split
    · exact h.beside rfl rfl rfl rfl rfl (List.Subset.refl _) (hset _) hsame
    · exact h.beside rfl rfl rfl rfl rfl (List.Subset.refl _) (hmeta _ _) hsame
    · split
      · exact h.beside rfl rfl rfl rfl rfl (List.Subset.refl _) (hset _) hring
      · exact h.beside rfl rfl rfl rfl rfl (List.Subset.refl _) (hset _) hring
    · split
      · exact h.beside rfl rfl rfl rfl rfl (List.Subset.refl _) (hset _) hsame
      · exact h
    · exact h.beside rfl rfl rfl rfl rfl (List.Subset.refl _) (hset _) hsame
    · exact h

theorem redirect_correlated (h : Correlated base l) (n : Nat) (ok : Bool) :
    Correlated base { l with app := l.app.redirect n ok } := by
  have hup : ∀ k, Up ((l.app.redirect n ok).sockets k) → ∃ callSid,
      l.Has callSid ((l.app.redirect n ok).sockets k).group ((l.app.redirect n ok).sockets k).role := fun k hk => by
    obtain ⟨hk', hgroup, hrole⟩ := step_up l.app (.redirect n ok) (by simp) k hk
    have hs := h.sockets k hk'
    rw [← hgroup, ← hrole] at hs
    exact hs
  have hwf := step_wf l.app (.redirect n ok) h.wf
  rcases l.app.redirect_stays n ok with hs | ⟨r, callId, url, hr, hd, hs⟩
  · exact h.stays hs hwf hup
  · obtain ⟨hb, hkeys⟩ := h.redirects r hr
    obtain ⟨hhas, hback⟩ := h.lines r.bridge hb
    obtain ⟨rfl, rfl⟩ := hback callId url hd
    have h' : Correlated base { l with app := { l.app with
        redirects := l.app.redirects.eraseIdx n,
        log := l.app.log ++ [.pressDigits (l.app.heap r.bridge).session.callId r.keys
          (voiceUrl base (l.app.heap r.bridge).groupId)] } } := by
      refine h.beside rfl rfl rfl rfl rfl List.eraseIdx_subset h.calls fun e he => ?_
      rcases List.mem_append.1 he with he | he
      · exact .inl he
      · obtain rfl := List.mem_singleton.1 he
        exact .inr ⟨hkeys, _, hhas, rfl⟩
    exact h'.stays hs hwf hup

theorem act_correlated (h : Correlated base l) (x : App.Action) (hx : ∀ k m, x ≠ .start k m)
    (hpost : ∀ group req placed, x = .post group req placed → Twiml.Issued group.toList) :
    Correlated base { l with app := App.step l.app x } := by
  by_cases ho : x.Opens
  · cases x with
    | start k m => exact absurd rfl (hx k m)
    | post group req placed => exact post_correlated h group req placed (hpost _ _ _ rfl)
    | work group ring => exact work_correlated h group ring
    | redirect n ok => exact redirect_correlated h n ok
    | _ => exact absurd ho id
  · refine h.stays (step_stays h.wf x ho) (step_wf l.app x h.wf) fun k hk => ?_
    obtain ⟨hk', hgroup, hrole⟩ := step_up l.app x hx k hk
    rw [hgroup, hrole]
    exact h.sockets k hk'

/-! ## Twilio's -/

theorem dial_correlated (h : Correlated base l) (callSid group : String) (role : Role) (hg : Twiml.Issued group.toList) :
    Correlated base (l.dial callSid group role (legUrl base role group)) := by
  unfold dial
  split
  · exact h
  · rename_i hnew
    rw [not_or] at hnew
    refine h.setLegs ?_ (fun leg hm => ?_) fun sid g r ⟨leg, hm, hleg⟩ => ⟨leg, List.mem_append_left _ hm, hleg⟩
    · rw [List.map_append, List.nodup_append]
      refine ⟨h.sids, List.nodup_singleton _, fun x hx y hy => ?_⟩
      obtain rfl : y = callSid := by simpa using hy
      rintro rfl
      exact hnew.2 hx
    · rcases List.mem_append.1 hm with hm | hm
      · exact h.legs leg hm
      · obtain rfl := List.mem_singleton.1 hm
        exact ⟨hnew.1, hg, rfl⟩

/-- A leg that is led to its own group's url is where it was. -/
theorem lead_correlated (h : Correlated base l) {callSid group : String} (hhas : l.Has callSid group .agent) :
    Correlated base { l with legs := lead l.legs callSid (voiceUrl base group).toList } := by
  obtain ⟨own, hown, rfl, rfl, hrole⟩ := hhas
  have hmoved : ∀ leg ∈ l.legs,
      (if leg.callSid = own.callSid then { leg with url := (voiceUrl base own.group).toList } else leg) = leg := by
    intro leg hm
    split
    · rename_i hsid
      obtain rfl := List.inj_on_of_nodup_map h.sids hm hown hsid
      have hurl := (h.legs leg hm).2.2
      rw [hrole] at hurl
      exact congrArg (Leg.mk leg.callSid leg.group leg.role) hurl.symm
    · rfl
  have hsame : lead l.legs own.callSid (voiceUrl base own.group).toList = l.legs := by
    conv_rhs => rw [← List.map_id l.legs]
    exact List.map_congr_left hmoved
  rw [hsame]
  exact h

theorem voiceUrl_toList (base group : String) : (voiceUrl base group).toList =
    base.toList ++ "/twiml/voice".toList ++ "?group=".toList ++ group.toList := by
  have hpath : "/twiml/voice?group=".toList = "/twiml/voice".toList ++ "?group=".toList := rfl
  rw [voiceUrl, String.toList_append, String.toList_append, hpath, ← List.append_assoc base.toList]

theorem joinUrl_toList (base group : String) : (joinUrl base group).toList =
    base.toList ++ "/twiml/join".toList ++ "?group=".toList ++ group.toList := by
  have hpath : "/twiml/join?group=".toList = "/twiml/join".toList ++ "?group=".toList := rfl
  rw [joinUrl, String.toList_append, String.toList_append, hpath, ← List.append_assoc base.toList]

theorem verbatim_voiceUrl {base group : String} (hb : Twiml.Public base.toList) (hg : Twiml.Issued group.toList) :
    Xml.Verbatim (voiceUrl base group).toList := by
  have hmiddle : Xml.Verbatim "twiml/voice?group".toList := ⟨by simp [Xml.isChar], by decide⟩
  have hurl : (voiceUrl base group).toList = base.toList ++ '/' :: ("twiml/voice?group".toList ++ '=' :: group.toList) := by
    rw [voiceUrl_toList, List.append_assoc, List.append_assoc]
    rfl
  rw [hurl, Xml.verbatim_append_cons (by decide) (by decide), Xml.verbatim_append_cons (by decide) (by decide)]
  exact ⟨hb.text, hmiddle, (hg.sendable hb).group_text⟩

/-- `agent` or `user`, as a stream says it. -/
def roleName : Role → List Char
  | .agent => "agent".toList
  | .user => "user".toList

/-- Every leg that is there finds its stream. -/
theorem Correlated.leads (h : Correlated base l) (hb : Twiml.Public base.toList) {leg : Leg} (hm : leg ∈ l.legs) :
    (Twiml.serve base.toList leg.url).bind Twiml.follow = some (.stream (Twiml.mediaWsUrl base.toList)
      [("group".toList, leg.group.toList), ("role".toList, roleName leg.role)]) := by
  obtain ⟨-, hissued, hurl⟩ := h.legs leg hm
  obtain ⟨hvoice, hjoin⟩ := Twiml.follow_serve (hissued.sendable hb)
  rw [hurl]
  cases leg.role with
  | agent => rw [legUrl, voiceUrl_toList, hvoice]; rfl
  | user => rw [legUrl, joinUrl_toList, hjoin]; rfl

/-- A group's first agent makes its bridge. -/
theorem startAgentLeg_new {a : App} (k : Nat) {m : Start} (hb : a.bridges.get m.group = none) :
    ∃ br bridges sessions, br.groupId = m.group ∧ br.session.callId = m.callId ∧
      br.dtmfRedirect = a.wireDtmf m.callId m.group ∧
      a.startAgentLeg k m = { a.setBridge a.fresh br with fresh := a.fresh + 1, bridges, sessions }.setSocket k
        { role := .agent, phase := .receiving, group := m.group, streamSid := m.streamSid, bridge := some a.fresh } := by
  unfold startAgentLeg
  dsimp only
  rw [hb]
  exact ⟨_, _, _, rfl, rfl, rfl, rfl⟩

/-- An agent's leg starts: it finds its group's bridge, or makes it. -/
theorem startAgentLeg_correlated (h : Correlated base l) (k : Nat) (m : Start) (hhas : l.Has m.callId m.group .agent)
    (hwf : Wf (l.app.startAgentLeg k m)) : Correlated base { l with app := l.app.startAgentLeg k m } := by
  have hup : ∀ (t : App) (s : Socket), s.group = m.group → s.role = .agent → t.sockets = l.app.sockets →
      ∀ j, Up ((t.setSocket k s).sockets j) → ∃ callSid,
        l.Has callSid ((t.setSocket k s).sockets j).group ((t.setSocket k s).sockets j).role := by
    intro t s hg hr ht j hj
    rw [setSocket_sockets] at hj ⊢
    split
    · exact ⟨m.callId, by rw [hg, hr]; exact hhas⟩
    · rename_i hne
      rw [if_neg hne, ht] at hj
      rw [ht]
      exact h.sockets j hj
  cases hb : l.app.bridges.get m.group with
  | some b =>
    unfold startAgentLeg at hwf ⊢
    dsimp only at hwf ⊢
    rw [hb] at hwf ⊢
    have hs : Stays l.app (l.app.setBridge b
        { (l.app.heap b).bindAgent m.streamSid true with reconnecting := false, reconnectSince := none }) :=
      stays_setBridge _ ⟨rfl, rfl, rfl⟩
    exact h.stays (hs.trans (stays_setSocket ..)) hwf (hup _ _ rfl rfl rfl)
  | none =>
    obtain ⟨br, bridges, sessions, hgroup, hcall, hwire, he⟩ := startAgentLeg_new k hb
    rw [he] at hwf ⊢
    refine ⟨hwf, h.publicBaseUrl, h.sids, h.legs, fun b hlt => ?_, fun r hr => ?_, h.calls, h.log, hup _ _ rfl rfl rfl⟩
    · show l.Has ((l.app.setBridge l.app.fresh br).heap b).session.callId ((l.app.setBridge l.app.fresh br).heap b).groupId
          .agent ∧ ∀ callId url, ((l.app.setBridge l.app.fresh br).heap b).dtmfRedirect = some (callId, url) →
        callId = ((l.app.setBridge l.app.fresh br).heap b).session.callId ∧
          url = voiceUrl base ((l.app.setBridge l.app.fresh br).heap b).groupId
      rw [setBridge_heap]
      split
      · rw [hgroup, hcall, hwire]
        refine ⟨hhas, fun callId url hd => ?_⟩
        unfold wireDtmf at hd
        split at hd
        · exact absurd hd (by simp)
        · obtain ⟨rfl, rfl⟩ := Prod.mk.inj (Option.some.inj hd)
          exact ⟨rfl, by rw [h.publicBaseUrl]; rfl⟩
      · rename_i hne
        exact h.lines b (by have : b < l.app.fresh + 1 := hlt; omega)
    · exact ⟨Nat.lt_succ_of_lt (h.redirects r hr).1, (h.redirects r hr).2⟩

/-- A user's leg starts to look for its group's bridge. -/
theorem startUserLeg_correlated (h : Correlated base l) (k : Nat) {s : Socket} {callSid : String}
    (hhas : l.Has callSid s.group s.role) (hwf : Wf ((l.app.setSocket k s).serveUserLeg k 0)) :
    Correlated base { l with app := (l.app.setSocket k s).serveUserLeg k 0 } := by
  refine h.stays ((stays_setSocket l.app k s).trans (stays_serveUserLeg ..)) hwf fun j hj => ?_
  by_cases hne : j = k
  · subst hne
    obtain ⟨hg, hr⟩ := serveUserLeg_self (l.app.setSocket j s) j 0
    rw [setSocket_sockets_self] at hg hr
    exact ⟨callSid, by rw [hg, hr]; exact hhas⟩
  · rw [serveUserLeg_sockets_ne _ hne, setSocket_sockets_ne _ hne] at hj ⊢
    exact h.sockets j hj

/-- The `start` of a leg is for its group, in its role. -/
theorem start_correlated (h : Correlated base l) {leg : Leg} (hm : leg ∈ l.legs) (k : Nat) (streamSid : String) :
    Correlated base { l with app := App.step l.app (.start k (.of streamSid leg.callSid
      [("group", leg.group), ("role", String.ofList (roleName leg.role))])) } := by
  obtain ⟨hsid, hissued, -⟩ := h.legs leg hm
  have hwf := fun m => step_wf l.app (.start k m) h.wf
  have hgroup : leg.group ≠ "" := by
    rintro he
    obtain ⟨hex, -, -, hhex⟩ := hissued
    rw [he] at hhex
    cases hhex
  have hgroup' : ∀ (m : Start), m.groupParam = leg.group → m.group = leg.group := fun m hg => by
    rw [Start.group, hg, if_pos hgroup]
  have hcallId : ∀ (m : Start), m.callSid = leg.callSid → m.callId = leg.callSid := fun m hc => by
    rw [Start.callId, hc, if_pos hsid]
  have hhas : l.Has leg.callSid leg.group leg.role := ⟨leg, hm, rfl, rfl, rfl⟩
  generalize hstart : Start.of streamSid leg.callSid
    [("group", leg.group), ("role", String.ofList (roleName leg.role))] = m
  have hg : m.group = leg.group := hgroup' m (by rw [← hstart]; rfl)
  have hc : m.callId = leg.callSid := hcallId m (by rw [← hstart]; rfl)
  have hr : m.role = leg.role := by
    rw [← hstart, Start.of]
    cases leg.role <;> simp [roleName, List.lookup_cons]
  have hw := hwf m
  simp only [App.step, start] at hw ⊢
  split
  · exact h
  · rename_i hidle
    rw [if_neg hidle] at hw
    rw [hr] at hw ⊢
    rw [← hg, ← hc] at hhas
    cases hrole : leg.role with
    | agent =>
      rw [hrole] at hw hhas
      exact startAgentLeg_correlated h k m hhas hw
    | user =>
      rw [hrole] at hw hhas
      exact startUserLeg_correlated h k hhas hw

/-! ## Runs -/

/-- A `create_call` draws a group of its own (calls.py:57). -/
def Issues : Act → Prop
  | .act (.post group _ _) => Twiml.Issued group.toList
  | _ => True

section

variable {py : Interpreter} {inner : List (String × Json)} {rest : String → List (String × Json)}

theorem turn_correlated (hb : Twiml.Public base.toList) (h : Correlated base l) (n : Nat) :
    Correlated base (step py inner rest l (.turn n)) := by
  rw [step]
  split
  · rename_i callSid keys url hn
    obtain ⟨-, group, hhas, rfl⟩ := h.log _ (List.mem_of_getElem? hn)
    have hissued : Twiml.Issued group.toList := by
      obtain ⟨leg, hm, -, hg, -⟩ := hhas
      exact hg ▸ (h.legs leg hm).2.1
    rw [Twiml.follow_pressDigits (verbatim_voiceUrl hb hissued)]
    exact lead_correlated h hhas
  · exact h

theorem connect_correlated (hb : Twiml.Public base.toList)
    (htells : ∀ streamSid callSid group role,
      (StreamMessage.start streamSid callSid [("group", group), ("role", role)]).Says py inner (rest streamSid))
    (h : Correlated base l) (n k : Nat) (streamSid : String) :
    Correlated base (step py inner rest l (.connect n k streamSid)) := by
  rw [step]
  cases hn : l.legs[n]? with
  | none => exact h
  | some leg =>
    have hm := List.mem_of_getElem? hn
    simp only
    rw [h.publicBaseUrl, h.leads hb hm]
    simp only [startText, List.map_cons, List.map_nil, String.ofList_toList]
    rw [receive_message Json.compact (htells ..)]
    exact start_correlated h hm k streamSid

theorem step_correlated (hb : Twiml.Public base.toList)
    (htells : ∀ streamSid callSid group role,
      (StreamMessage.start streamSid callSid [("group", group), ("role", role)]).Says py inner (rest streamSid))
    (l : Line) (x : Act) (hx : Issues x) (h : Correlated base l) : Correlated base (step py inner rest l x) := by
  cases x with
  | act x =>
    cases x with
    | start k m => exact h
    | post group req placed => exact act_correlated h _ (by simp) (by rintro _ _ _ ⟨⟩; exact hx)
    | _ => exact act_correlated h _ (by simp) (by simp)
  | dial n callSid =>
    rw [step]
    split
    · rename_i hn
      obtain ⟨hg, rfl⟩ := h.log _ (List.mem_of_getElem? hn)
      exact dial_correlated h callSid _ .agent hg
    · rename_i hn
      obtain ⟨hg, rfl⟩ := h.log _ (List.mem_of_getElem? hn)
      exact dial_correlated h callSid _ .user hg
    · exact h
  | turn n => exact turn_correlated hb h n
  | connect n k streamSid => exact connect_correlated hb htells h n k streamSid

end

theorem new_correlated (settings : Settings) (key base : String) (twilio : Bool) :
    Correlated base { app := App.new settings key base twilio } where
  wf := new_wf settings key base twilio
  publicBaseUrl := rfl
  sids := List.nodup_nil
  legs := nofun
  lines b hb := absurd hb (Nat.not_lt_zero b)
  redirects := nofun
  calls g hg := by
    rcases hg with hg | hg <;> exact absurd rfl hg
  log := nofun
  sockets k hk := by
    rcases hk with hk | ⟨t, hk⟩ <;> cases hk

theorem safe_keypad {keys : String} (h : Keypad keys) : Twiml.safe keys.toList = keys.toList := by
  refine List.filter_eq_self.2 fun c hc => ?_
  have hk : c ∈ CallBridge.dtmfKeys := h.2 c hc
  have hsub : CallBridge.dtmfKeys.all (· ∈ "0123456789*#w".toList) = true := by rfl
  exact List.all_eq_true.1 hsub c hk

/-- **`correlated`**: over every run whose base url is `Public` and whose group ids are `Issued`, whatever Twilio
dials, presses and connects, in any order: every leg finds a stream for the group and the role it was dialled for;
every handler that is on serves such a leg's group; a bridge is of a business call that was dialled for its group;
and whoever presses keys does so on such a call, with a document that plays just those keys and leads back to the
call's own group. -/
theorem correlated {py : Interpreter} {inner : List (String × Json)} {rest : String → List (String × Json)}
    (htells : ∀ streamSid callSid group role,
      (StreamMessage.start streamSid callSid [("group", group), ("role", role)]).Says py inner (rest streamSid))
    (settings : Settings) (key base : String) (twilio : Bool) (hb : Twiml.Public base.toList) (xs : List Act)
    (hissue : ∀ x ∈ xs, Issues x) :
    let l := Run.exec (step py inner rest) { app := App.new settings key base twilio } xs
    (∀ leg ∈ l.legs, (Twiml.serve base.toList leg.url).bind Twiml.follow = some (.stream (Twiml.mediaWsUrl base.toList)
      [("group".toList, leg.group.toList), ("role".toList, roleName leg.role)])) ∧
    (∀ k, Up (l.app.sockets k) →
      ∃ leg ∈ l.legs, leg.group = (l.app.sockets k).group ∧ leg.role = (l.app.sockets k).role) ∧
    (∀ k b, (l.app.sockets k).bridge = some b → (l.app.heap b).groupId = (l.app.sockets k).group ∧
      ∃ leg ∈ l.legs, leg.callSid = (l.app.heap b).session.callId ∧ leg.group = (l.app.heap b).groupId ∧
        leg.role = .agent) ∧
    ∀ callSid keys url, .pressDigits callSid keys url ∈ l.app.log → ∃ leg ∈ l.legs, leg.callSid = callSid ∧
      leg.role = .agent ∧ keys ≠ "" ∧ Twiml.safe keys.toList = keys.toList ∧
      Xml.parse (Twiml.pressDigits keys.toList url.toList) = some (Twiml.pressTree keys.toList url.toList) ∧
      (Twiml.serve base.toList url.toList).bind Twiml.follow = some (.stream (Twiml.mediaWsUrl base.toList)
        [("group".toList, leg.group.toList), ("role".toList, roleName .agent)]) := by
  intro l
  have h : Correlated base l := Run.exec_inv_of_forall (C := Issues)
    (fun l x hx h => step_correlated hb htells l x hx h) xs _ hissue (new_correlated settings key base twilio)
  refine ⟨fun leg hm => h.leads hb hm, fun k hk => ?_, fun k b hk => ?_, fun callSid keys url hm => ?_⟩
  · obtain ⟨callSid, leg, hm, -, hg, hr⟩ := h.sockets k hk
    exact ⟨leg, hm, hg, hr⟩
  · obtain ⟨hlt, hg⟩ := h.wf.held k b hk
    exact ⟨hg.symm, (h.lines b hlt).1⟩
  · obtain ⟨hkeys, group, ⟨leg, hm', hsid, rfl, hrole⟩, rfl⟩ := h.log _ hm
    have hissued := (h.legs leg hm').2.1
    have hserve := (Twiml.follow_serve (hissued.sendable hb)).1
    rw [← voiceUrl_toList] at hserve
    exact ⟨leg, hm', hsid, hrole, hkeys.1, safe_keypad hkeys,
      Twiml.parse_pressDigits_iff.2 (verbatim_voiceUrl hb hissued), hserve⟩

theorem connect_legs (py : Interpreter) (inner : List (String × Json)) (rest : String → List (String × Json)) (l : Line)
    (n k : Nat) (streamSid : String) :
    (step py inner rest l (.connect n k streamSid)).legs = l.legs := by
  rw [step]
  split
  · split <;> rfl
  · rfl

/-- A call is made, and its leg connects. -/
def connects (group : String) : List Act :=
  (answered group).head?.toList.map .act ++ [.dial 0 "CA1"] ++ [.connect 0 0 "MZ1"]

theorem connects_says (streamSid callSid group role : String) :
    (StreamMessage.start streamSid callSid [("group", group), ("role", role)]).Says { maxDepth := 3, maxRepr := 3 }
      [("accountSid", Json.string "AC1"), ("tracks", .arr [Json.string "inbound"])]
      [("sequenceNumber", Json.string "1"), ("streamSid", Json.string streamSid)] := by
  have hparams : ∀ py, Json.Plain py (Json.object [("group", Json.string group), ("role", Json.string role)]) :=
    fun py => Json.object_plain (by simp) (by simp [Json.string_plain])
  have htracks : ∀ py, Json.Plain py (.arr [Json.string "inbound"]) := fun py => Json.single_plain (Json.string_plain _)
  have hstart : ∀ py, Json.Plain py (Json.object [("streamSid", Json.string streamSid), ("callSid", Json.string callSid),
      ("customParameters", Json.object [("group", Json.string group), ("role", Json.string role)]),
      ("accountSid", Json.string "AC1"), ("tracks", .arr [Json.string "inbound"])]) :=
    fun py => Json.object_plain (by simp) (by simp [Json.string_plain, hparams, htracks])
  refine ⟨Json.object_plain (by simp [StreamMessage.body]) ?_, ?_⟩
  · simpa [StreamMessage.body, Json.string_plain] using hstart _
  · simp [StreamMessage.json, StreamMessage.body, Json.object, Json.string, Json.depth, Json.fieldsDepth,
      Json.itemsDepth]

theorem connects_public : Twiml.Public "https://dialpass.test".toList := by
  have hall : "https://dialpass.test".toList.all (fun c => Xml.isChar c && !"<&\r".toList.contains c) = true := by rfl
  refine ⟨⟨fun c hc => ?_, by decide⟩, by decide⟩
  have h := List.all_eq_true.1 hall c hc
  rwa [Bool.and_eq_true, Bool.not_eq_true', List.contains_eq_mem, decide_eq_false_iff_not] at h

theorem connects_issues : ∀ x ∈ connects "dialpass-5f0e37ab12cd", Issues x := by
  intro x hx
  simp only [connects, answered, List.head?_cons, Option.toList_some, List.map_cons, List.map_nil, List.cons_append,
    List.nil_append, List.mem_cons, List.not_mem_nil, or_false] at hx
  rcases hx with rfl | rfl | rfl
  · exact ⟨"5f0e37ab12cd".toList, rfl, by simp, rfl⟩
  · trivial
  · trivial

/-- The leg that was dialled is there, and finds its stream. -/
theorem connects_correlated :
    let l := Run.exec (step { maxDepth := 3, maxRepr := 3 }
        [("accountSid", Json.string "AC1"), ("tracks", .arr [Json.string "inbound"])]
        fun streamSid => [("sequenceNumber", Json.string "1"), ("streamSid", Json.string streamSid)])
      { app := App.new {} "" "https://dialpass.test" true } (connects "dialpass-5f0e37ab12cd")
    l.legs.map (·.callSid) = ["CA1"] ∧
    ∀ leg ∈ l.legs, (Twiml.serve "https://dialpass.test".toList leg.url).bind Twiml.follow =
      some (.stream (Twiml.mediaWsUrl "https://dialpass.test".toList)
        [("group".toList, leg.group.toList), ("role".toList, roleName leg.role)]) := by
  refine ⟨?_, (correlated connects_says {} "" "https://dialpass.test" true connects_public _ connects_issues).1⟩
  rw [connects, Run.exec_append, Run.exec_cons, Run.exec_nil, connect_legs]
  decide +kernel

end Line

end DialPass
