import DialPass.Media.Lines
import DialPass.Realtime.Menu
import DialPass.Session.Keys
/-!
# Whose keys Twilio presses (client.py:77-91, session.py:245-258, bridge.py:120-131, media.py:131-147)

A key has a long way to go: `choose_menu_digit` decides it, the session that polls the decision calls `dtmf_sender`,
the bridge drops what is no key and starts a redirect thread, and the thread asks Twilio. `keyedOnce` says that nothing
is altered or made up on the way, and nothing pressed twice, whatever else goes on and whenever the threads run.
-/

namespace DialPass

/-- What `press_dtmf` makes of its digits (bridge.py:124). -/
def dialled (digits : String) : String := String.ofList (digits.toList.filter (· ∈ CallBridge.dtmfKeys))

/-- An answer to a menu read with the client behind the breaker (client.py:77, session.py:199). -/
def Answer.FromClient (py : Interpreter) (isWord : Char → Bool) (repr : Json → PyStr) (a : Answer) : Prop :=
  a.menu = .error .circuitOpen ∨
    ∃ raised events, a.menu = chooseMenuDigit py isWord repr (menuTurn [] raised events)

theorem dialled_keypad {keys : String} (h : Keypad keys) : dialled keys = keys := by
  rw [dialled, List.filter_eq_self.2 fun c hc => decide_eq_true (h.2 c hc), String.ofList_toList]

/-- The client decides on keys of the keypad, and on few. -/
theorem chooseMenuDigit_keys {py : Interpreter} {isWord : Char → Bool} {repr : Json → PyStr} {reply : Option String}
    {d : MenuDecision} {keys : String} (h : chooseMenuDigit py isWord repr reply = .ok d) (hk : d.keys = some keys) :
    keys.length ≤ 20 ∧ Keypad keys := by
  have hnone : ∀ rationale, MenuDecision.keys ⟨none, rationale⟩ = none := fun _ => rfl
  unfold chooseMenuDigit at h
  split at h
  · cases h
  split at h
  · cases h
  · cases h
  rename_i digits rationale _
  split at h
  · cases h
    rw [hnone] at hk
    cases hk
  rename_i hvalid
  split at h
  · cases h
    rw [hnone] at hk
    cases hk
  rename_i hlen
  by_cases he : digits = []
  · rw [if_pos he] at h
    cases h
    rw [hnone] at hk
    cases hk
  rw [if_neg he] at h
  cases h
  have hkeys : PyStr.text digits = keys := by
    unfold MenuDecision.keys at hk
    split at hk
    · exact Option.some.inj hk
    · cases hk
  have hall : ∀ c ∈ digits, c ∈ PyStr.ofChars validDigits := by
    by_contra hn
    exact hvalid ⟨he, hn⟩
  rw [← hkeys]
  refine ⟨?_, fun hnil => he ?_, fun c hc => ?_⟩
  · rw [PyStr.text, String.length_ofList, List.length_map]
    exact not_lt.1 hlen
  · have htl := congrArg String.toList hnil
    rw [PyStr.text, String.toList_ofList] at htl
    exact List.map_eq_nil_iff.1 htl
  · rw [PyStr.text, String.toList_ofList] at hc
    obtain ⟨n, hn, rfl⟩ := List.mem_map.1 hc
    obtain ⟨x, hx, rfl⟩ := List.mem_map.1 (hall n hn)
    rw [Char.ofNat_toNat]
    exact hx

namespace App

open CallBridge

/-! ## The book -/

/-- Twilio is asked to press the keys on the call. -/
def Presses (callSid keys : String) : Twilio → Prop
  | .pressDigits c k _ => c = callSid ∧ k = keys
  | _ => False

instance (callSid keys : String) : DecidablePred (Presses callSid keys) := fun e => by
  unfold Presses; split <;> infer_instance

/-- How often it has been. -/
def asked (a : App) (callSid keys : String) : Nat := a.log.countP (Presses callSid keys ·)

/-- How many threads are about to. -/
def underway (a : App) (callSid keys : String) : Nat :=
  a.redirects.countP fun r => (a.heap r.bridge).session.callId = callSid ∧ r.keys = keys

/-- How many menu reads of the call have been polled that decided so. -/
def decided (a : App) (callSid keys : String) : Nat :=
  ∑ b ∈ Finset.range a.fresh with (a.heap b).session.callId = callSid,
    (keysDecided (a.heap b).session.trace).count keys

/-- The keys of the redirects that are a bridge's. -/
def keysFor (b : Nat) (rs : List Redirect) : List String := (rs.filter (·.bridge = b)).map (·.keys)

theorem keysFor_append (b : Nat) (rs qs : List Redirect) : keysFor b (rs ++ qs) = keysFor b rs ++ keysFor b qs := by
  simp [keysFor]

theorem countP_le_sum {n : Nat} {C : Nat → Prop} [DecidablePred C] (keys : String) {rs : List Redirect}
    (h : ∀ r ∈ rs, r.bridge < n) : (rs.countP fun r => C r.bridge ∧ r.keys = keys) ≤
      ∑ b ∈ Finset.range n with C b, (keysFor b rs).count keys := by
  induction rs with
  | nil => simp
  | cons r rs ih =>
    have hcons : ∀ b, (keysFor b (r :: rs)).count keys =
        (keysFor b rs).count keys + if b = r.bridge then (if r.keys = keys then 1 else 0) else 0 := by
      intro b
      by_cases hb : r.bridge = b
      · simp [keysFor, hb, List.count_cons]
      · simp [keysFor, hb, Ne.symm hb]
    have hi := ih fun q hq => h q (List.mem_cons_of_mem _ hq)
    rw [Finset.sum_congr rfl fun b _ => hcons b, Finset.sum_add_distrib, Finset.sum_ite_eq', List.countP_cons]
    have hr := h r List.mem_cons_self
    by_cases hc : C r.bridge ∧ r.keys = keys
    · simp only [Finset.mem_filter, Finset.mem_range, hr, hc, and_self, if_true, decide_true]
      omega
    · have hz : ¬ decide (C r.bridge ∧ r.keys = keys) = true := by simpa using hc
      rw [if_neg hz]
      omega

variable {A : Answer → Prop} {a a' a'' : App}

/-- Redirects are started and sessions go on: of each bridge, for keys that its session has decided. -/
def Feeds (A : Answer → Prop) (a a' : App) : Prop :=
  ∃ rs, a'.redirects = a.redirects ++ rs ∧ ∀ b, ∃ es,
    (a'.heap b).session.trace = (a.heap b).session.trace ++ es ∧ (keysFor b rs).Sublist (keysDecided es) ∧
      ∀ k ∈ keysDecided es, ∃ ans d, A ans ∧ ans.menu = .ok d ∧ d.keys = some k

theorem Feeds.of_traces (hr : a'.redirects = a.redirects)
    (htr : ∀ b, (a'.heap b).session.trace = (a.heap b).session.trace) : Feeds A a a' :=
  ⟨[], by rw [hr, List.append_nil], fun b =>
    ⟨[], by rw [htr, List.append_nil], by simp [keysFor], by simp [keysDecided]⟩⟩

theorem Feeds.of_heap (hr : a'.redirects = a.redirects) (hh : a'.heap = a.heap) : Feeds A a a' :=
  .of_traces hr fun b => by rw [hh]

theorem Feeds.refl (a : App) : Feeds A a a := .of_heap rfl rfl

theorem Feeds.trans (h : Feeds A a a') (h' : Feeds A a' a'') : Feeds A a a'' := by
  obtain ⟨rs, hr, hb⟩ := h
  obtain ⟨qs, hq, hb'⟩ := h'
  refine ⟨rs ++ qs, by rw [hq, hr, List.append_assoc], fun b => ?_⟩
  obtain ⟨es, htr, hes, hd⟩ := hb b
  obtain ⟨fs, htr', hfs, hd'⟩ := hb' b
  refine ⟨es ++ fs, by rw [htr', htr, List.append_assoc], ?_, fun k hk => ?_⟩
  · rw [keysFor_append, keysDecided_append]
    exact hes.append hfs
  · rw [keysDecided_append] at hk
    rcases List.mem_append.1 hk with hk | hk
    · exact hd k hk
    · exact hd' k hk

/-! ## One lemma per function -/

theorem feeds_setSocket (a : App) (k : Nat) (s : Socket) : Feeds A a (a.setSocket k s) := .of_heap rfl rfl

theorem feeds_setBridge (a : App) {b : Nat} {br : CallBridge} (h : br.session.trace = (a.heap b).session.trace) :
    Feeds A a (a.setBridge b br) := by
  refine .of_traces rfl fun c => ?_
  rw [setBridge_heap]
  split
  · rename_i hc
    rw [hc]
    exact h
  · rfl

theorem feeds_sms (a : App) (g body : String) : Feeds A a (a.sms g body) := by
  obtain ⟨es, he, -⟩ := a.sms_eq g body
  rw [he]
  exact .of_heap rfl rfl

theorem teardownGroup_calls (a : App) (g : String) (reason : Option String) (hangUp : Bool) :
    (a.teardownGroup g reason hangUp).redirects = a.redirects ∧
      ∀ b, ((a.teardownGroup g reason hangUp).heap b).session.trace = (a.heap b).session.trace := by
  refine ⟨?_, fun b => ?_⟩
  · cases hb : a.bridges.get g with
    | none => rw [teardownGroup_none hb]; rfl
    | some b =>
      obtain ⟨es, he⟩ := teardownGroup_some hb reason hangUp
      rw [he]
      rfl
  · rw [teardownGroup_heap]
    split
    · exact close_trace _
    · rfl

theorem feeds_teardownGroup (a : App) (g : String) (reason : Option String) (hangUp : Bool) :
    Feeds A a (a.teardownGroup g reason hangUp) :=
  .of_traces (teardownGroup_calls a g reason hangUp).1 (teardownGroup_calls a g reason hangUp).2

theorem feeds_redialAgentLeg (a : App) (g : String) (placed : Bool) : Feeds A a (a.redialAgentLeg g placed).1 := by
  obtain ⟨callMeta, log, he⟩ := a.redialAgentLeg_eq g placed
  rw [he]
  exact .of_heap rfl rfl

theorem feeds_finishAgentLeg (a : App) (b : Nat) (g : String) (sawStop placed : Bool) :
    Feeds A a (a.finishAgentLeg b g sawStop placed) := by
  have hred : Feeds A a (a.redialAgentLeg g placed).1 := feeds_redialAgentLeg a g placed
  obtain ⟨callMeta, log, he⟩ := a.redialAgentLeg_eq g placed
  -- the bridge is given up, and its session forgotten
  have hgive : ∀ {t : App} (sessions : Dict String Nat), t.redirects = a.redirects → t.heap = a.heap →
      Feeds A a (App.setBridge { t with sessions } b (a.heap b).close) := by
    intro t sessions hr hh
    have h0 : Feeds A a { t with sessions } := .of_heap hr hh
    refine h0.trans (feeds_setBridge _ ?_)
    rw [close_trace]
    exact congrArg (fun f => (f b).session.trace) hh.symm
  unfold finishAgentLeg
  dsimp only
  split
  · exact .refl a
  · split
    · split
      · split
        · exact hgive _ (by rw [he]) (by rw [he])
        · exact hgive _ (by rw [he]) (by rw [he])
      · exact hred.trans (feeds_teardownGroup ..)
    · exact feeds_teardownGroup ..

theorem feeds_serveUserLeg (a : App) (k tries : Nat) : Feeds A a (a.serveUserLeg k tries) := by
  unfold serveUserLeg
  dsimp only
  split
  · exact feeds_setSocket ..
  · split
    · refine Feeds.trans ?_ (feeds_setSocket ..)
      exact feeds_setBridge a rfl
    · exact feeds_setSocket ..

theorem feeds_waitDrained (a : App) (b left : Nat) : Feeds A a (a.waitDrained b left) := by
  unfold waitDrained
  rcases (a.heap b).waitDrained_cases left with h | ⟨n, h⟩ <;> simp only [h]
  · refine Feeds.trans ?_ (feeds_sms ..)
    exact feeds_setBridge a rfl
  · exact feeds_setBridge a rfl

/-- A hook starts a redirect only for keys that were sent. -/
theorem hook_sends (b : Nat) (a : App) (e : Effect) :
    (∀ c, ((hook b a e).heap c).session.trace = (a.heap c).session.trace) ∧
      ∃ rs, (hook b a e).redirects = a.redirects ++ rs ∧ (∀ r ∈ rs, r.bridge = b) ∧
        (rs.map (·.keys)).Sublist (e.sends.toList.map dialled) := by
  have hset : ∀ br : CallBridge, br.session = (a.heap b).session →
      ∀ c, ((a.setBridge b br).heap c).session.trace = (a.heap c).session.trace := by
    intro br hbr c
    rw [setBridge_heap]
    split
    · rename_i hc
      rw [hbr, hc]
    · rfl
  have hquiet : ∀ {t : App}, t.redirects = a.redirects →
      ∃ rs, t.redirects = a.redirects ++ rs ∧ (∀ r ∈ rs, r.bridge = b) ∧
        (rs.map (·.keys)).Sublist (e.sends.toList.map dialled) :=
    fun hr => ⟨[], by rw [hr, List.append_nil], by simp, by simp⟩
  cases e with
  | dtmfSender digits =>
    simp only [hook, pressDtmf]
    split
    · rename_i br keys hp
      split at hp
      · cases hp
      · cases hp
        refine ⟨hset _ rfl, [{ bridge := b, keys := dialled digits }], rfl, by simp, ?_⟩
        exact List.Sublist.refl _
    · rename_i br hp
      split at hp
      · cases hp
        exact ⟨hset _ rfl, hquiet rfl⟩
      · cases hp
  | onBridge =>
    simp only [hook]
    rcases (a.heap b).beginHandoff_cases a.openaiApiKey with ⟨-, h⟩ | ⟨-, -, h⟩ | ⟨-, -, h⟩ | ⟨-, -, h⟩ <;>
      simp only [h]
    · exact ⟨hset _ rfl, hquiet rfl⟩
    · exact ⟨hset _ rfl, hquiet rfl⟩
    · obtain ⟨es, he, -⟩ := (a.setBridge b { a.heap b with handoffStarted := true, relayOpen := true }).sms_eq
        (a.heap b).groupId userSms
      rw [he]
      exact ⟨hset _ rfl, hquiet rfl⟩
    · exact ⟨hset _ rfl, hquiet rfl⟩
  | onFail reason =>
    obtain ⟨hr, htr⟩ := teardownGroup_calls a (a.heap b).groupId (some reason) true
    exact ⟨htr, hquiet hr⟩
  | _ => exact ⟨fun _ => rfl, hquiet rfl⟩

theorem hooks_send (b : Nat) (es : List Effect) (a : App) :
    (∀ c, ((es.foldl (hook b) a).heap c).session.trace = (a.heap c).session.trace) ∧
      ∃ rs, (es.foldl (hook b) a).redirects = a.redirects ++ rs ∧ (∀ r ∈ rs, r.bridge = b) ∧
        (rs.map (·.keys)).Sublist ((keysSent es).map dialled) := by
  induction es generalizing a with
  | nil => exact ⟨fun _ => rfl, [], by simp, by simp, by simp⟩
  | cons e es ih =>
    obtain ⟨htr, rs, hr, hb, hs⟩ := hook_sends b a e
    obtain ⟨htr', qs, hq, hb', hs'⟩ := ih (hook b a e)
    refine ⟨fun c => (htr' c).trans (htr c), rs ++ qs, ?_, fun r hm => ?_, ?_⟩
    · rw [List.foldl_cons, hq, hr, List.append_assoc]
    · rcases List.mem_append.1 hm with hm | hm
      · exact hb r hm
      · exact hb' r hm
    · have hsent : keysSent (e :: es) = e.sends.toList ++ keysSent es := by
        cases h : e.sends <;> simp [keysSent, h]
      rw [List.map_append, hsent, List.map_append]
      exact hs.append hs'

section

variable (hdial : ∀ ans d k, A ans → ans.menu = .ok d → d.keys = some k → dialled k = k)
include hdial

/-- The session goes on, and its hooks run. -/
theorem feeds_advance (a : App) {b : Nat} {s : AgentSession} (h : (a.heap b).session.Keyed A s) :
    Feeds A a (a.advance b s) := by
  obtain ⟨es, htr, hes, hd⟩ := h
  unfold advance
  rw [htr, List.drop_left]
  obtain ⟨hsame, rs, hr, hb, hs⟩ := hooks_send b es (a.setBridge b { a.heap b with session := s })
  have hsafe : (keysSent es).map dialled = keysSent es := by
    conv_rhs => rw [← List.map_id (keysSent es)]
    refine List.map_congr_left fun k hk => ?_
    obtain ⟨ans, d, hA, hm, hkeys⟩ := hd k (hes.subset hk)
    exact hdial ans d k hA hm hkeys
  refine ⟨rs, hr, fun c => ?_⟩
  by_cases hc : c = b
  · subst hc
    refine ⟨es, by rw [hsame, setBridge_heap_self, htr], ?_, hd⟩
    have hfor : keysFor c rs = rs.map (·.keys) := by
      rw [keysFor, List.filter_eq_self.2 fun r hm => decide_eq_true (hb r hm)]
    rw [hfor]
    rw [hsafe] at hs
    exact hs.trans hes
  · refine ⟨[], by rw [hsame, setBridge_heap_ne _ hc, List.append_nil], ?_, by simp [keysDecided]⟩
    have hfor : keysFor c rs = [] := by
      rw [keysFor, List.filter_eq_nil_iff.2 fun r hm => by simp [hb r hm, Ne.symm hc], List.map_nil]
    rw [hfor]
    exact List.nil_sublist _

theorem feeds_onAgentAudio (a : App) (b : Nat) (ulaw : List UInt8) {ticks : List Tick}
    (h : ∀ i ∈ ticks, ∀ ans, i.answer = some ans → A ans) : Feeds A a (a.onAgentAudio b ulaw ticks) := by
  obtain ⟨p, o, he⟩ := (a.heap b).relayAgentAudio_eq ulaw
  have h0 : Feeds A a (a.setBridge b ((a.heap b).relayAgentAudio ulaw)) := feeds_setBridge a (by rw [he])
  unfold onAgentAudio
  dsimp only
  split
  · exact h0
  · refine h0.trans (feeds_advance hdial _ (AgentSession.feedAudio_keyed _ _ _ fun i hi => ?_))
    obtain ⟨j, hj, rfl⟩ := List.mem_map.1 hi
    exact h j hj

theorem feeds_finishUserLeg (a : App) (b : Nat) : Feeds A a (a.finishUserLeg b) := by
  have h0 : Feeds A a (a.setBridge b { a.heap b with userStreamSid := none }) := feeds_setBridge a rfl
  unfold finishUserLeg
  dsimp only
  split
  · refine h0.trans (feeds_advance hdial _ ?_)
    unfold AgentSession.abort
    split
    · exact .refl _
    · exact (AgentSession.fail_aside ..).hushed.keyed
  · exact h0

theorem feeds_finish (a : App) (k : Nat) (placed : Bool) : Feeds A a (a.finish k placed) := by
  by_cases hc : (a.sockets k).phase = .closing
  · obtain ⟨t, he, -, hcase⟩ := a.finish_sockets k placed hc
    rw [he]
    refine Feeds.trans ?_ (feeds_setSocket ..)
    rcases hcase with ⟨b, -, -, rfl⟩ | ⟨b, -, -, rfl⟩ | ⟨-, rfl⟩
    · exact feeds_finishAgentLeg ..
    · exact feeds_finishUserLeg hdial ..
    · exact .refl t
  · rw [a.finish_idle k placed hc]
    exact .refl a

theorem feeds_media (a : App) (k : Nat) (payload : List UInt8) {ticks : List Tick}
    (h : ∀ i ∈ ticks, ∀ ans, i.answer = some ans → A ans) : Feeds A a (a.media k payload ticks) := by
  unfold media
  dsimp only
  split
  · have hf := feeds_onAgentAudio hdial a ‹_› payload h
    split
    · exact hf.trans (feeds_setSocket ..)
    · exact hf
  · obtain ⟨o, he⟩ := (a.heap ‹_›).onUserAudio_eq payload
    rw [he]
    exact feeds_setBridge a rfl
  · exact .refl a

end

/-- The ticks of an action have answers `A`. -/
def Action.Answered (A : Answer → Prop) : Action → Prop
  | .media _ _ ticks => ∀ i ∈ ticks, ∀ ans, i.answer = some ans → A ans
  | _ => True

theorem step_feeds (hdial : ∀ ans d k, A ans → ans.menu = .ok d → d.keys = some k → dialled k = k) (a : App)
    {act : Action} (h : ¬ act.Opens) (hA : act.Answered A) : Feeds A a (step a act) := by
  cases act with
  | start | post | work | redirect => exact absurd trivial h
  | poll k =>
    simp only [step, poll]
    split
    · exact feeds_serveUserLeg a k _
    · exact .refl a
  | media k payload ticks => exact feeds_media hdial a k payload hA
  | close k stop =>
    simp only [step, close]
    split
    · exact feeds_setSocket ..
    · exact feeds_setSocket ..
    · exact .refl a
  | finish k placed => exact feeds_finish hdial ..
  | drain k =>
    simp only [step, drain]
    split
    · refine Feeds.trans ?_ (feeds_setSocket ..)
      refine feeds_setBridge a ?_
      split <;> rfl
    · exact .refl a
  | spoken b =>
    simp only [step, spoken]
    split
    · exact feeds_waitDrained a b _
    · exact .refl a
  | drained b =>
    simp only [step, drained]
    split
    · exact feeds_waitDrained a b _
    · exact .refl a
  | play b pcm =>
    simp only [step, play]
    split
    · obtain ⟨o, he⟩ := (a.heap b).playToAgent_eq pcm
      rw [he]
      exact feeds_setBridge a rfl
    · exact .refl a
  | probe b running =>
    simp only [step, probe]
    split
    · exact feeds_setBridge a rfl
    · exact .refl a
  | reap =>
    exact reapStaleBridges_keeps (P := Feeds A a) (fun t g _ _ _ h => h.trans (feeds_teardownGroup t g _ _)) (.refl a)
  | wait dt => exact .of_heap rfl rfl


/-! ## Over every run -/

/-- A bridge's redirect leads back to its own call; the menu reads were answered `A`; and the book is kept. -/
structure Accounted (A : Answer → Prop) (a : App) : Prop where
  wf : Wf a
  redirects : ∀ r ∈ a.redirects, r.bridge < a.fresh
  wired : ∀ b < a.fresh, ∀ callId url, (a.heap b).dtmfRedirect = some (callId, url) →
    callId = (a.heap b).session.callId
  answers : ∀ b < a.fresh, ∀ k ∈ keysDecided (a.heap b).session.trace,
    ∃ ans d, A ans ∧ ans.menu = .ok d ∧ d.keys = some k
  book : ∀ callSid keys, a.asked callSid keys + a.underway callSid keys ≤ a.decided callSid keys

/-- What else Twilio is asked does not count. -/
theorem asked_append {callSid keys : String} {es : List Twilio} (h : ∀ e ∈ es, ¬ Presses callSid keys e)
    (hlog : a'.log = a.log ++ es) : a'.asked callSid keys = a.asked callSid keys := by
  have hnone : es.countP (Presses callSid keys ·) = 0 := List.countP_eq_zero.2 fun e he => by simpa using h e he
  rw [asked, asked, hlog, List.countP_append, hnone, Nat.add_zero]

/-- The sessions go on, and their hooks have run. -/
theorem Accounted.feeds (h : Accounted A a) (hs : Stays a a') (hf : Feeds A a a') (hw : Wf a') : Accounted A a' := by
  obtain ⟨rs, hr, hb⟩ := hf
  have hcall : ∀ b, (a'.heap b).session.callId = (a.heap b).session.callId := fun b => (hs.lines b).callId
  have hlt : ∀ r ∈ a'.redirects, r.bridge < a.fresh := fun r hm => (hs.redirects r hm).elim (h.redirects r) (·.1)
  refine ⟨hw, fun r hm => hs.fresh ▸ hlt r hm, fun b hlt callId url hd => ?_, fun b hlt k hk => ?_,
    fun callSid keys => ?_⟩
  · rw [(hs.lines b).dtmfRedirect] at hd
    rw [hcall]
    exact h.wired b (hs.fresh ▸ hlt) callId url hd
  · obtain ⟨es, htr, -, hd⟩ := hb b
    rw [htr, keysDecided_append] at hk
    rcases List.mem_append.1 hk with hk | hk
    · exact h.answers b (hs.fresh ▸ hlt) k hk
    · exact hd k hk
  · have hasked : a'.asked callSid keys = a.asked callSid keys := by
      obtain ⟨es, hlog, hes⟩ := hs.log
      refine asked_append (fun e he => ?_) hlog
      have hroutine := hes e he
      cases e with
      | pressDigits => exact absurd hroutine id
      | _ => exact id
    have hunder : a'.underway callSid keys = a.underway callSid keys +
        rs.countP fun r => (a.heap r.bridge).session.callId = callSid ∧ r.keys = keys := by
      simp only [underway, hr, List.countP_append, hcall]
    have hnew : ∀ r ∈ rs, r.bridge < a.fresh := fun r hm => hlt r (by rw [hr]; exact List.mem_append_right _ hm)
    have hmore := countP_le_sum (C := fun b => (a.heap b).session.callId = callSid) keys hnew
    have hdecided : a.decided callSid keys + ∑ b ∈ Finset.range a.fresh with (a.heap b).session.callId = callSid,
        (keysFor b rs).count keys ≤ a'.decided callSid keys := by
      rw [decided, decided, ← Finset.sum_add_distrib, hs.fresh]
      simp only [hcall]
      refine Finset.sum_le_sum fun b _ => ?_
      obtain ⟨es, htr, hes, -⟩ := hb b
      rw [htr, keysDecided_append, List.count_append]
      exact Nat.add_le_add_left (hes.count_le keys) _
    have hbook := h.book callSid keys
    omega

/-- The bridges stay as they are, and no more is asked of Twilio than the threads were to. -/
theorem Accounted.beside (h : Accounted A a) (heap : a'.heap = a.heap) (fresh : a'.fresh = a.fresh)
    (redirects : a'.redirects ⊆ a.redirects) (wf : Wf a') (book : ∀ callSid keys,
      a'.asked callSid keys + a'.underway callSid keys ≤ a.asked callSid keys + a.underway callSid keys) :
    Accounted A a' where
  wf := wf
  redirects r hr := fresh ▸ h.redirects r (redirects hr)
  wired := by
    rw [heap, fresh]
    exact h.wired
  answers := by
    rw [heap, fresh]
    exact h.answers
  book callSid keys := by
    have hdecided : a'.decided callSid keys = a.decided callSid keys := by rw [decided, decided, heap, fresh]
    rw [hdecided]
    exact (book callSid keys).trans (h.book callSid keys)

/-- A new session has decided nothing yet. -/
theorem Accounted.newBridge (h : Accounted A a) {br : CallBridge} (htr : br.session.trace = [])
    (hwire : ∀ callId url, br.dtmfRedirect = some (callId, url) → callId = br.session.callId)
    {bridges sessions : Dict String Nat} {k : Nat} {s : Socket}
    (hw : Wf ({ a.setBridge a.fresh br with fresh := a.fresh + 1, bridges, sessions }.setSocket k s)) :
    Accounted A ({ a.setBridge a.fresh br with fresh := a.fresh + 1, bridges, sessions }.setSocket k s) := by
  have hold : ∀ b < a.fresh, (a.setBridge a.fresh br).heap b = a.heap b := fun b hb =>
    setBridge_heap_ne a (Nat.ne_of_lt hb) br
  refine ⟨hw, fun r hr => Nat.lt_succ_of_lt (h.redirects r hr), fun b hlt => ?_, fun b hlt => ?_,
    fun callSid keys => ?_⟩
  · show ∀ callId url, ((a.setBridge a.fresh br).heap b).dtmfRedirect = some (callId, url) →
      callId = ((a.setBridge a.fresh br).heap b).session.callId
    rcases Nat.lt_succ_iff_lt_or_eq.1 hlt with hb | rfl
    · rw [hold b hb]
      exact h.wired b hb
    · rw [setBridge_heap_self]
      exact hwire
  · show ∀ k ∈ keysDecided ((a.setBridge a.fresh br).heap b).session.trace, _
    rcases Nat.lt_succ_iff_lt_or_eq.1 hlt with hb | rfl
    · rw [hold b hb]
      exact h.answers b hb
    · rw [setBridge_heap_self, htr]
      simp [keysDecided]
  · have hunder : (a.redirects.countP fun r => ((a.setBridge a.fresh br).heap r.bridge).session.callId = callSid ∧
        r.keys = keys) = a.underway callSid keys := by
      refine List.countP_congr fun r hr => ?_
      rw [hold _ (h.redirects r hr)]
    have hdecided : a.decided callSid keys ≤ ∑ b ∈ Finset.range (a.fresh + 1) with
        ((a.setBridge a.fresh br).heap b).session.callId = callSid,
          (keysDecided ((a.setBridge a.fresh br).heap b).session.trace).count keys := by
      rw [decided, Finset.sum_filter, Finset.sum_filter, Finset.sum_range_succ]
      refine le_add_right (Finset.sum_le_sum fun b hb => ?_)
      rw [hold b (Finset.mem_range.1 hb)]
    refine le_trans ?_ ((h.book callSid keys).trans hdecided)
    exact Nat.add_le_add_left hunder.le _

theorem startAgentLeg_accounted (h : Accounted A a) (k : Nat) (m : Start) (hw : Wf (a.startAgentLeg k m)) :
    Accounted A (a.startAgentLeg k m) := by
  cases hb : a.bridges.get m.group with
  | some b =>
    have he : ∃ br s, a.startAgentLeg k m = (a.setBridge b br).setSocket k s ∧ SameLine (a.heap b) br ∧
        br.session = (a.heap b).session := by
      unfold startAgentLeg
      dsimp only
      rw [hb]
      exact ⟨_, _, rfl, ⟨rfl, rfl, rfl⟩, rfl⟩
    obtain ⟨br, s, he, hsame, hsession⟩ := he
    rw [he] at hw ⊢
    exact h.feeds ((stays_setBridge a hsame).trans (stays_setSocket ..))
      ((feeds_setBridge a (by rw [hsession])).trans (feeds_setSocket ..)) hw
  | none =>
    have he : ∃ br bridges sessions s, br.session.trace = [] ∧ br.session.callId = m.callId ∧
        br.dtmfRedirect = a.wireDtmf m.callId m.group ∧ a.startAgentLeg k m =
          { a.setBridge a.fresh br with fresh := a.fresh + 1, bridges, sessions }.setSocket k s := by
      unfold startAgentLeg
      dsimp only
      rw [hb]
      exact ⟨_, _, _, _, rfl, rfl, rfl, rfl⟩
    obtain ⟨br, bridges, sessions, s, htr, hcall, hwire, he⟩ := he
    rw [he] at hw ⊢
    refine h.newBridge htr (fun callId url hd => ?_) hw
    rw [hwire, wireDtmf] at hd
    split at hd
    · cases hd
    · obtain ⟨rfl, -⟩ := Prod.mk.inj (Option.some.inj hd)
      exact hcall.symm

theorem post_accounted (h : Accounted A a) (group : String) (req : CallRequest) (placed : Bool)
    (hw : Wf (a.post group req placed)) : Accounted A (a.post group req placed) := by
  have hplaced : ∀ {t : App}, t.heap = a.heap → t.fresh = a.fresh → t.redirects = a.redirects → Wf t →
      t.log = a.log ++ [.placeOutboundCall req.businessNumber
        (a.publicBaseUrl ++ "/twiml/voice?group=" ++ group) group] → Accounted A t := by
    intro t heap fresh redirects wf hlog
    refine h.beside heap fresh (by rw [redirects]; exact List.Subset.refl _) wf fun callSid keys => ?_
    rw [asked_append (by simp [Presses]) hlog, underway, underway, redirects, heap]
  unfold post at hw ⊢
  split
  · exact h
  · rename_i hn
    rw [if_neg hn] at hw
    dsimp only at hw ⊢
    split
    · rename_i hp
      rw [if_pos hp] at hw
      exact hplaced rfl rfl rfl hw rfl
    · rename_i hp
      rw [if_neg hp] at hw
      exact hplaced rfl rfl rfl hw rfl

theorem work_accounted (h : Accounted A a) (group : String) (ring : Option String) (hw : Wf (a.work group ring)) :
    Accounted A (a.work group ring) := by
  have hsame : (a.work group ring).heap = a.heap ∧ (a.work group ring).fresh = a.fresh ∧
      (a.work group ring).redirects = a.redirects ∧
      ∃ es, (a.work group ring).log = a.log ++ es ∧ ∀ e ∈ es, ∀ callSid keys, ¬ Presses callSid keys e := by
    have hquiet : ∃ es, a.log = a.log ++ es ∧ ∀ e ∈ es, ∀ callSid keys, ¬ Presses callSid keys e :=
      ⟨[], by simp, by simp⟩
    have hring : ∀ number url, ∃ es, a.log ++ [.ringUser number url group] = a.log ++ es ∧
        ∀ e ∈ es, ∀ callSid keys, ¬ Presses callSid keys e := fun number url =>
      ⟨[.ringUser number url group], rfl, by simp [Presses]⟩
    unfold work
    split
    · exact ⟨rfl, rfl, rfl, hquiet⟩
    · dsimp only
      split
      · exact ⟨rfl, rfl, rfl, hquiet⟩
      · exact ⟨rfl, rfl, rfl, hquiet⟩
      · split
        · exact ⟨rfl, rfl, rfl, hring _ _⟩
        · exact ⟨rfl, rfl, rfl, hring _ _⟩
      · split
        · exact ⟨rfl, rfl, rfl, hquiet⟩
        · exact ⟨rfl, rfl, rfl, hquiet⟩
      · exact ⟨rfl, rfl, rfl, hquiet⟩
      · exact ⟨rfl, rfl, rfl, hquiet⟩
  obtain ⟨heap, fresh, redirects, es, hlog, hes⟩ := hsame
  refine h.beside heap fresh (by rw [redirects]; exact List.Subset.refl _) hw fun callSid keys => ?_
  rw [asked_append (fun e he => hes e he callSid keys) hlog, underway, underway, redirects, heap]

/-- The thread asks for the keys that it was started with, and is gone. -/
theorem redirect_accounted (h : Accounted A a) (n : Nat) (ok : Bool) (hw : Wf (a.redirect n ok)) :
    Accounted A (a.redirect n ok) := by
  unfold redirect at hw ⊢
  split
  · exact h
  rename_i r hr
  rw [hr] at hw
  dsimp only at hw ⊢
  have hperm : (r :: a.redirects.eraseIdx n).Perm a.redirects := by
    obtain ⟨hn, hget⟩ := List.getElem?_eq_some_iff.1 hr
    rw [← hget]
    exact List.getElem_cons_eraseIdx_perm hn
  have hunder : ∀ callSid keys, a.underway callSid keys =
      underway { a with redirects := a.redirects.eraseIdx n } callSid keys +
        if (a.heap r.bridge).session.callId = callSid ∧ r.keys = keys then 1 else 0 := by
    intro callSid keys
    rw [underway, ← hperm.countP_eq, List.countP_cons]
    simp only [decide_eq_true_eq]
    rfl
  have hwf : ∀ (redirects : List Redirect) (log : List Twilio), Wf { a with redirects, log } := fun _ _ =>
    ⟨h.wf.registered, h.wf.held⟩
  split
  · refine h.beside rfl rfl List.eraseIdx_subset (hwf _ _) fun callSid keys => ?_
    rw [hunder]
    exact Nat.add_le_add_left (Nat.le_add_right _ _) _
  rename_i callId url hd
  rw [hd] at hw
  dsimp only at hw
  have hcall := h.wired r.bridge (h.redirects r (List.mem_of_getElem? hr)) callId url hd
  have hasks : Accounted A
      (App.request { a with redirects := a.redirects.eraseIdx n } (.pressDigits callId r.keys url)) := by
    refine h.beside rfl rfl List.eraseIdx_subset (hwf _ _) fun callSid keys => ?_
    have hasked : asked (App.request { a with redirects := a.redirects.eraseIdx n } (.pressDigits callId r.keys url))
        callSid keys = a.asked callSid keys +
          if (a.heap r.bridge).session.callId = callSid ∧ r.keys = keys then 1 else 0 := by
      rw [asked, request, List.countP_append, List.countP_singleton, ← hcall]
      exact congrArg (a.asked callSid keys + ·) (if_congr decide_eq_true_iff rfl rfl)
    have hrest : underway (App.request { a with redirects := a.redirects.eraseIdx n } (.pressDigits callId r.keys url))
        callSid keys = underway { a with redirects := a.redirects.eraseIdx n } callSid keys := rfl
    rw [hasked, hrest, hunder]
    omega
  split
  · exact hasks
  · rename_i hok
    rw [if_neg hok] at hw
    exact hasks.feeds (stays_setBridge _ ⟨rfl, rfl, rfl⟩) (feeds_setBridge _ rfl) hw

theorem step_accounted (hdial : ∀ ans d k, A ans → ans.menu = .ok d → d.keys = some k → dialled k = k) (a : App)
    (act : Action) (hA : act.Answered A) (h : Accounted A a) : Accounted A (step a act) := by
  have hw := step_wf a act h.wf
  by_cases ho : act.Opens
  · cases act with
    | start k m =>
      by_cases hp : (a.sockets k).phase = .idle
      · cases hr : m.role with
        | agent =>
          have he : step a (.start k m) = a.startAgentLeg k m := by simp [step, start, hp, hr]
          rw [he] at hw ⊢
          exact startAgentLeg_accounted h k m hw
        | user =>
          have he : step a (.start k m) = (a.setSocket k { role := .user, phase := .attaching 0, group := m.group,
                                                           streamSid := m.streamSid }).serveUserLeg k 0 := by
            simp [step, start, hp, hr]
          rw [he] at hw ⊢
          exact h.feeds ((stays_setSocket ..).trans (stays_serveUserLeg ..))
            ((feeds_setSocket ..).trans (feeds_serveUserLeg ..)) hw
      · have he : step a (.start k m) = a := by simp [step, start, hp]
        rw [he]
        exact h
    | post group req placed => exact post_accounted h group req placed hw
    | work group ring => exact work_accounted h group ring hw
    | redirect n ok => exact redirect_accounted h n ok hw
    | _ => exact absurd ho id
  · exact h.feeds (step_stays h.wf act ho) (step_feeds hdial a ho hA) hw

theorem new_accounted (settings : Settings) (key base : String) (twilio : Bool) :
    Accounted A (App.new settings key base twilio) where
  wf := new_wf settings key base twilio
  redirects _ hr := absurd hr List.not_mem_nil
  wired b hb := absurd hb (Nat.not_lt_zero b)
  answers b hb := absurd hb (Nat.not_lt_zero b)
  book _ _ := Nat.zero_le _

/-- **`keyedOnce`**: over every run of the server whose menu reads the client answers, whatever the model says, however
the legs come and go and whenever the redirect threads run: Twilio is asked to press keys on a call no more often than
menu reads of that call decided on just those, the threads that are about to ask included. They are at most 20 keys of
the keypad, and the decision of a reply. -/
theorem keyedOnce (py : Interpreter) (isWord : Char → Bool) (repr : Json → PyStr) (settings : Settings)
    (key base : String) (twilio : Bool) (xs : List Action)
    (hxs : ∀ x ∈ xs, x.Answered (Answer.FromClient py isWord repr)) (callSid keys : String) :
    let a := Run.exec step (App.new settings key base twilio) xs
    a.asked callSid keys + a.underway callSid keys ≤ a.decided callSid keys ∧
      (0 < a.asked callSid keys → keys.length ≤ 20 ∧ Keypad keys ∧
        ∃ raised events d, chooseMenuDigit py isWord repr (menuTurn [] raised events) = .ok d ∧
          d.digits = some keys) := by
  intro a
  have hread : ∀ {ans d}, Answer.FromClient py isWord repr ans → ans.menu = .ok d →
      ∃ raised events, chooseMenuDigit py isWord repr (menuTurn [] raised events) = .ok d := by
    rintro ans d (hc | ⟨raised, events, hc⟩) hm
    · rw [hc] at hm
      cases hm
    · exact ⟨raised, events, hc.symm.trans hm⟩
  have hdial : ∀ ans d k, Answer.FromClient py isWord repr ans → ans.menu = .ok d → d.keys = some k →
      dialled k = k := by
    intro ans d k hA hm hk
    obtain ⟨raised, events, hc⟩ := hread hA hm
    exact dialled_keypad (chooseMenuDigit_keys hc hk).2
  have h : Accounted (Answer.FromClient py isWord repr) a := Run.exec_inv_of_forall
    (C := fun x => x.Answered (Answer.FromClient py isWord repr)) (fun t x hx ht => step_accounted hdial t x hx ht)
    xs _ hxs (new_accounted settings key base twilio)
  refine ⟨h.book callSid keys, fun hpos => ?_⟩
  have hsome : 0 < a.decided callSid keys := lt_of_lt_of_le hpos ((Nat.le_add_right _ _).trans (h.book callSid keys))
  obtain ⟨b, hb, hcount⟩ := Finset.exists_ne_zero_of_sum_ne_zero (Nat.pos_iff_ne_zero.1 hsome)
  have hlt : b < a.fresh := Finset.mem_range.1 (Finset.mem_filter.1 hb).1
  have hmem : keys ∈ keysDecided (a.heap b).session.trace := List.count_pos_iff.1 (Nat.pos_of_ne_zero hcount)
  obtain ⟨ans, d, hA, hm, hk⟩ := h.answers b hlt keys hmem
  obtain ⟨raised, events, hc⟩ := hread hA hm
  obtain ⟨hlen, hpad⟩ := chooseMenuDigit_keys hc hk
  refine ⟨hlen, hpad, raised, events, d, hc, ?_⟩
  unfold MenuDecision.keys at hk
  split at hk
  · exact hk
  · cases hk

theorem hear_answered (k n : Nat) (label : Label) {answer : Option Answer} (h : ∀ ans, answer = some ans → A ans) :
    (hear k n label answer).Answered A := by
  intro i hi ans hans
  obtain rfl := List.mem_singleton.1 hi
  exact h ans hans

theorem answered_answered (group : String) : ∀ x ∈ answered group, x.Answered A := by
  intro x hx
  rcases List.mem_append.1 hx with hx | hx
  · rcases List.mem_cons.1 hx with rfl | hx
    · trivial
    · rw [List.eq_of_mem_replicate hx]
      trivial
  · rw [List.mem_singleton.1 hx]
    trivial

/-- A menu is heard, the model says what to press, and the redirect thread has asked for it. -/
def pressesTwo : List Action :=
  answered "g" ++ (hear 0 0 .liveSpeechCandidate :: List.replicate 4 (hear 0 4000 .liveSpeechCandidate)) ++
    List.replicate 4 (hear 0 4000 .unknown) ++
    [hear 0 4000 .unknown (some { menu := .ok ⟨some "2", "press 2"⟩ }), .redirect 0 true]

theorem pressesTwo_keyedOnce :
    let a := Run.exec step (App.new {} "" "https://dialpass.test" true) pressesTwo
    a.asked "CAagent" "2" = 1 ∧ 1 + a.underway "CAagent" "2" ≤ a.decided "CAagent" "2" ∧ Keypad "2" := by
  intro a
  have hasked : a.asked "CAagent" "2" = 1 := by decide +kernel
  have hreply : chooseMenuDigit { maxDepth := 990, maxRepr := 990 } Char.isAlphanum (fun _ => [])
      (menuTurn [] false [.outputTextDelta "press 2", .responseDone []]) = .ok ⟨some "2", "press 2"⟩ := by rfl
  have hquiet : ∀ n label, (hear 0 n label).Answered (Answer.FromClient { maxDepth := 990, maxRepr := 990 }
      Char.isAlphanum fun _ => []) := fun n label => hear_answered 0 n label fun _ h => by cases h
  have hxs : ∀ x ∈ pressesTwo, x.Answered (Answer.FromClient { maxDepth := 990, maxRepr := 990 } Char.isAlphanum
      fun _ => []) := by
    intro x hx
    rcases List.mem_append.1 hx with hx | hx
    · rcases List.mem_append.1 hx with hx | hx
      · rcases List.mem_append.1 hx with hx | hx
        · exact answered_answered "g" x hx
        · rcases List.mem_cons.1 hx with rfl | hx
          · exact hquiet _ _
          · rw [List.eq_of_mem_replicate hx]
            exact hquiet _ _
      · rw [List.eq_of_mem_replicate hx]
        exact hquiet _ _
    · rcases List.mem_cons.1 hx with rfl | hx
      · refine hear_answered 0 4000 _ fun ans h => ?_
        obtain rfl := Option.some.inj h
        exact .inr ⟨false, _, hreply.symm⟩
      · rw [List.mem_singleton.1 hx]
        trivial
  obtain ⟨hbook, hkeys⟩ := keyedOnce { maxDepth := 990, maxRepr := 990 } Char.isAlphanum (fun _ => []) {} ""
    "https://dialpass.test" true pressesTwo hxs "CAagent" "2"
  refine ⟨hasked, hasked ▸ hbook, (hkeys ?_).2.1⟩
  exact hasked ▸ Nat.one_pos

end App

end DialPass
