import DialPass.Media.Frames
/-!
# The registry stays well formed

`Wf`: a registered bridge is an allocated object of the group it is registered for, and a handler holds
an allocated bridge of its own group. Every action keeps it (`step_wf`). The case lemmas about a
handler's end and the rule for a `media` message are shared by the invariants of the next modules.
-/

namespace DialPass

namespace App

open CallBridge

structure Wf (a : App) : Prop where
  registered : ∀ g b, a.bridges.get g = some b → b < a.fresh ∧ (a.heap b).groupId = g
  held : ∀ k b, (a.sockets k).bridge = some b → b < a.fresh ∧ (a.sockets k).group = (a.heap b).groupId

theorem new_wf (settings : Settings) (key base : String) (twilio : Bool) : Wf (App.new settings key base twilio) :=
  ⟨nofun, nofun⟩

/-! ## Handlers -/

theorem hook_sockets (b : Nat) (a : App) (e : Effect) : (hook b a e).sockets = a.sockets := by
  cases e with
  | dtmfSender digits =>
    rcases (a.heap b).pressDtmf_cases digits a.now with h | ⟨keys, h⟩ <;> simp only [hook, h] <;> rfl
  | onBridge =>
    have hsms : ∀ (a : App) g body, (a.sms g body).sockets = a.sockets := by
      intro a g body
      obtain ⟨es, he, -⟩ := a.sms_eq g body
      rw [he]
    simp only [hook]
    split
    · rw [hsms]; rfl
    · rfl
  | onFail reason => exact teardownGroup_sockets ..
  | _ => rfl

theorem advance_sockets (a : App) (b : Nat) (s : AgentSession) : (a.advance b s).sockets = a.sockets := by
  unfold advance
  have h0 : (a.setBridge b { a.heap b with session := s }).sockets = a.sockets := rfl
  generalize a.setBridge b { a.heap b with session := s } = a' at h0
  generalize s.trace.drop (a.heap b).session.trace.length = es
  induction es generalizing a' with
  | nil => exact h0
  | cons e es ih => exact ih _ ((hook_sockets b a' e).trans h0)

theorem onAgentAudio_sockets (a : App) (b : Nat) (ulaw : List UInt8) (ticks : List Tick) :
    (a.onAgentAudio b ulaw ticks).sockets = a.sockets := by
  unfold onAgentAudio
  dsimp only
  split
  · rfl
  · rw [advance_sockets]; rfl

/-- What a `media` message can do to an invariant. -/
theorem media_keeps {P : App → Prop} (hsame : ∀ a a', Same a a' → P a → P a')
    (hpress : ∀ a b keys, P a → P (a.pressed b keys))
    (htear : ∀ a b reason, P a → P (a.teardownGroup (a.heap b).groupId (some reason) true))
    (hcrash : ∀ a k, (a.sockets k).phase = .receiving → P a →
      P (a.setSocket k { a.sockets k with phase := .closing }))
    {a : App} (h : P a) (k : Nat) (payload : List UInt8) (ticks : List Tick) : P (a.media k payload ticks) := by
  unfold media
  dsimp only
  split
  · rename_i b hph _ _
    have h' : P (a.onAgentAudio b payload ticks) :=
      onAgentAudio_keeps hsame (fun a => hpress a b) (fun a => htear a b) h payload ticks
    have hs := a.onAgentAudio_sockets b payload ticks
    split
    · rw [← hs] at hph ⊢
      exact hcrash _ k hph h'
    · exact h'
  · rename_i b _ _ _
    refine hsame a _ (same_setBridge a ?_) h
    obtain ⟨o, he⟩ := (a.heap b).onUserAudio_eq payload
    rw [he]
    exact ⟨rfl, rfl, rfl, rfl⟩
  · exact h

theorem redialAgentLeg_eq (a : App) (group : String) (placed : Bool) :
    ∃ callMeta log, (a.redialAgentLeg group placed).1 = { a with callMeta, log } := by
  unfold redialAgentLeg
  split
  · exact ⟨_, _, rfl⟩
  · split <;> exact ⟨_, _, rfl⟩

/-- How an agent leg's handler ends: it leaves the bridge to the reconnecting socket, gives it up for a
redial, or tears the group down. -/
theorem finishAgentLeg_cases (a : App) (b : Nat) (group : String) (sawStop placed : Bool) :
    ((a.heap b).reconnecting = true ∧ a.finishAgentLeg b group sawStop placed = a) ∨
    ((a.heap b).reconnecting = false ∧ ∃ bridges sessions callMeta log,
      bridges = (if a.bridges.get group = some b then a.bridges.erase group else a.bridges) ∧
      a.finishAgentLeg b group sawStop placed =
        { a with bridges, sessions, callMeta, log }.setBridge b (a.heap b).close) ∨
    ((a.heap b).reconnecting = false ∧ ∃ callMeta log reason hangUp,
      a.finishAgentLeg b group sawStop placed = { a with callMeta, log }.teardownGroup group reason hangUp) := by
  unfold finishAgentLeg
  dsimp only
  by_cases hr : (a.heap b).reconnecting = true
  · exact .inl ⟨hr, by rw [if_pos hr]⟩
  rw [if_neg hr]
  have hr' : (a.heap b).reconnecting = false := by simpa using hr
  obtain ⟨callMeta, log, he⟩ := a.redialAgentLeg_eq group placed
  cases hd : (!sawStop && !(a.heap b).session.finished) with
  | false => exact .inr (.inr ⟨hr', a.callMeta, a.log, none, false, rfl⟩)
  | true =>
    simp only [if_true, he]
    cases hp : (a.redialAgentLeg group placed).2 with
    | false => exact .inr (.inr ⟨hr', callMeta, log, some "dropped", true, rfl⟩)
    | true =>
      refine .inr (.inl ⟨hr', ?_⟩)
      simp only [if_true]
      by_cases hb : a.bridges.get group = some b
      · exact ⟨_, _, _, _, rfl, by rw [if_pos hb, if_pos hb]⟩
      · exact ⟨_, _, _, _, rfl, by rw [if_neg hb, if_neg hb]⟩

/-- What the end of a user leg's handler can do to an invariant, once the stream is unbound. -/
theorem finishUserLeg_keeps {P : App → Prop} {a : App} {b : Nat} (hsame : ∀ a a', Same a a' → P a → P a')
    (hpress : ∀ a keys, P a → P (a.pressed b keys))
    (htear : ∀ a reason, P a → P (a.teardownGroup (a.heap b).groupId (some reason) true))
    (h : P (a.setBridge b { a.heap b with userStreamSid := none })) : P (a.finishUserLeg b) := by
  unfold finishUserLeg
  dsimp only
  split
  · exact advance_keeps hsame hpress htear h _
  · exact h

/-- Aborting a live session tears its group down. -/
theorem advance_abort {a : App} {b : Nat} (h : (a.heap b).session.finished = false) (reason : String) :
    a.advance b ((a.heap b).session.abort reason) =
      (a.setBridge b { a.heap b with session := (a.heap b).session.abort reason }).teardownGroup
        (a.heap b).groupId (some reason) true := by
  have htr : ((a.heap b).session.abort reason).trace = (a.heap b).session.trace ++
      [.emit (.callFailed (a.heap b).session.audioSeconds reason), .onFail reason] := by
    simp [AgentSession.abort, h, AgentSession.fail, AgentSession.emit, AgentSession.log]
  unfold advance
  rw [htr, List.drop_left]
  simp only [List.foldl_cons, List.foldl_nil, hook, setBridge_heap_self]

theorem finishAgentLeg_sockets (a : App) (b : Nat) (group : String) (sawStop placed : Bool) :
    (a.finishAgentLeg b group sawStop placed).sockets = a.sockets := by
  rcases a.finishAgentLeg_cases b group sawStop placed with ⟨-, h⟩ | ⟨-, _, _, _, _, -, h⟩ | ⟨-, _, _, _, _, h⟩ <;>
    rw [h]
  · rfl
  · exact teardownGroup_sockets ..

theorem finishUserLeg_sockets (a : App) (b : Nat) : (a.finishUserLeg b).sockets = a.sockets := by
  unfold finishUserLeg
  dsimp only
  split
  · rw [advance_sockets]; rfl
  · rfl

theorem finish_sockets (a : App) (k : Nat) (placed : Bool) (h : (a.sockets k).phase = .closing) :
    ∃ a', a.finish k placed = a'.setSocket k { a.sockets k with phase := .closed } ∧ a'.sockets = a.sockets ∧
      ((∃ b, (a.sockets k).bridge = some b ∧ (a.sockets k).role = .agent ∧
          a' = a.finishAgentLeg b (a.sockets k).group (a.sockets k).sawStop placed) ∨
       (∃ b, (a.sockets k).bridge = some b ∧ (a.sockets k).role = .user ∧ a' = a.finishUserLeg b) ∨
       ((a.sockets k).bridge = none ∧ a' = a)) := by
  unfold finish
  dsimp only
  rw [if_neg (by simpa using h)]
  split
  · rename_i b hb hr
    exact ⟨_, rfl, finishAgentLeg_sockets .., .inl ⟨b, hb, hr, rfl⟩⟩
  · rename_i b hb hr
    exact ⟨_, rfl, finishUserLeg_sockets .., .inr (.inl ⟨b, hb, hr, rfl⟩)⟩
  · rename_i hb
    exact ⟨_, rfl, rfl, .inr (.inr ⟨hb, rfl⟩)⟩

theorem finish_idle (a : App) (k : Nat) (placed : Bool) (h : (a.sockets k).phase ≠ .closing) :
    a.finish k placed = a := by
  unfold finish
  dsimp only
  rw [if_pos h]

/-- The socket whose handler an action runs. -/
def Action.socket? : Action → Option Nat
  | .start k _ | .poll k | .media k _ _ | .close k _ | .finish k _ | .drain k => some k
  | _ => none

theorem serveUserLeg_sockets_ne (a : App) {j k : Nat} (h : j ≠ k) (tries : Nat) :
    (a.serveUserLeg k tries).sockets j = a.sockets j := by
  unfold serveUserLeg
  dsimp only
  split
  · exact setSocket_sockets_ne a h _
  · split
    · exact setSocket_sockets_ne _ h _
    · exact setSocket_sockets_ne a h _

theorem waitDrained_sockets (a : App) (b left : Nat) : (a.waitDrained b left).sockets = a.sockets := by
  unfold waitDrained
  rcases (a.heap b).waitDrained_cases left with hw | ⟨n, hw⟩ <;> simp only [hw]
  · obtain ⟨es, he, -⟩ := (a.setBridge b { a.heap b with handoff := .idle, relayOpen := true }).sms_eq
      (a.heap b).groupId userSms
    rw [he]; rfl
  · rfl

/-- A handler touches its own socket only. -/
theorem step_sockets_ne (a : App) (act : Action) {j : Nat} (h : act.socket? ≠ some j) :
    (step a act).sockets j = a.sockets j := by
  cases act with
  | post group req placed =>
    simp only [step, post]
    split
    · rfl
    · split <;> rfl
  | work group ring =>
    simp only [step, work]
    split
    · rfl
    · split <;> (try split) <;> rfl
  | start k m =>
    have hk : j ≠ k := fun he => h (by rw [he]; rfl)
    simp only [step, start]
    split
    · rfl
    · split
      · unfold startAgentLeg
        dsimp only
        split <;> exact setSocket_sockets_ne _ hk _
      · rw [serveUserLeg_sockets_ne _ hk, setSocket_sockets_ne _ hk]
  | poll k =>
    have hk : j ≠ k := fun he => h (by rw [he]; rfl)
    simp only [step, poll]
    split
    · exact serveUserLeg_sockets_ne a hk _
    · rfl
  | media k payload ticks =>
    have hk : j ≠ k := fun he => h (by rw [he]; rfl)
    simp only [step, media]
    split
    · rename_i b _ _ _
      have hs := a.onAgentAudio_sockets b payload ticks
      split
      · rw [setSocket_sockets_ne _ hk, hs]
      · rw [hs]
    · rfl
    · rfl
  | close k stop =>
    have hk : j ≠ k := fun he => h (by rw [he]; rfl)
    simp only [step, close]
    split
    · exact setSocket_sockets_ne _ hk _
    · exact setSocket_sockets_ne _ hk _
    · rfl
  | finish k placed =>
    have hk : j ≠ k := fun he => h (by rw [he]; rfl)
    by_cases hc : (a.sockets k).phase = .closing
    · obtain ⟨a', he, hs, -⟩ := a.finish_sockets k placed hc
      simp only [step, he]
      rw [setSocket_sockets_ne _ hk, hs]
    · simp only [step, a.finish_idle k placed hc]
  | drain k =>
    have hk : j ≠ k := fun he => h (by rw [he]; rfl)
    simp only [step, drain]
    split
    · exact setSocket_sockets_ne _ hk _
    · rfl
  | redirect n ok =>
    simp only [step, redirect]
    split
    · rfl
    · split
      · rfl
      · split <;> rfl
  | spoken b =>
    simp only [step, spoken]
    split
    · rw [waitDrained_sockets]
    · rfl
  | drained b =>
    simp only [step, drained]
    split
    · rw [waitDrained_sockets]
    · rfl
  | play b pcm => simp only [step, play]; split <;> rfl
  | probe b running => simp only [step, probe]; split <;> rfl
  | reap =>
    have hs : (step a .reap).sockets = a.sockets :=
      reapStaleBridges_keeps (P := fun a' => a'.sockets = a.sockets)
        (fun _ _ _ _ _ he => (teardownGroup_sockets ..).trans he) rfl
    rw [hs]
  | wait dt => rfl

theorem exec_sockets_ne {j : Nat} : ∀ (acts : List Action) (a : App), (∀ act ∈ acts, act.socket? ≠ some j) →
    (Run.exec step a acts).sockets j = a.sockets j
  | [], _, _ => rfl
  | act :: acts, a, h => by
    rw [Run.exec_cons, exec_sockets_ne acts _ fun x hx => h x (List.mem_cons_of_mem _ hx)]
    exact step_sockets_ne a act (h act (by simp))

/-! ## Every action keeps the registry well formed -/

theorem Wf.same {a a' : App} (hs : Same a a') (h : Wf a) : Wf a' := by
  constructor
  · intro g b hb
    rw [hs.bridges] at hb
    rw [hs.fresh, (hs.legs b).groupId]
    exact h.registered g b hb
  · intro k b hb
    obtain ⟨sent, hk⟩ := hs.sockets k
    rw [hk] at hb ⊢
    rw [hs.fresh, (hs.legs b).groupId]
    exact h.held k b hb

theorem Wf.setSocket {a : App} (h : Wf a) {k : Nat} {s : Socket}
    (hs : ∀ b, s.bridge = some b → b < a.fresh ∧ s.group = (a.heap b).groupId) : Wf (a.setSocket k s) := by
  refine ⟨h.registered, fun j b hb => ?_⟩
  rw [setSocket_sockets] at hb ⊢
  split at hb
  · rename_i hj; rw [if_pos hj]; exact hs b hb
  · rename_i hj; rw [if_neg hj]; exact h.held j b hb

theorem Wf.setBridge {a : App} (h : Wf a) {b : Nat} {c : CallBridge} (hg : c.groupId = (a.heap b).groupId) :
    Wf (a.setBridge b c) := by
  have hall : ∀ d, ((a.setBridge b c).heap d).groupId = (a.heap d).groupId := by
    intro d
    rw [setBridge_heap]
    split
    · rename_i hd; rw [hd, hg]
    · rfl
  constructor
  · intro g c hc; rw [hall]; exact h.registered g c hc
  · intro k c hc; rw [hall]; exact h.held k c hc

theorem Wf.pressed {a : App} (h : Wf a) (b : Nat) (keys : String) : Wf (a.pressed b keys) := by
  have h' := h.setBridge (b := b) (c := { a.heap b with reconnecting := true, reconnectSince := some a.now }) rfl
  exact ⟨h'.registered, h'.held⟩

theorem Wf.teardownGroup {a : App} (h : Wf a) (group : String) (reason : Option String) (hangUp : Bool) :
    Wf (a.teardownGroup group reason hangUp) := by
  constructor
  · intro g b hb
    rw [teardownGroup_bridges] at hb
    split at hb
    · cases hb
    · rw [teardownGroup_fresh, (teardownGroup_legs ..).groupId]
      exact h.registered g b hb
  · intro k b hb
    rw [teardownGroup_sockets] at hb ⊢
    rw [teardownGroup_fresh, (teardownGroup_legs ..).groupId]
    exact h.held k b hb

theorem Wf.setPhase {a : App} (h : Wf a) (k : Nat) {phase : SocketPhase} {sawStop : Bool} :
    Wf (a.setSocket k { a.sockets k with phase, sawStop }) := h.setSocket (h.held k)

theorem startAgentLeg_wf {a : App} (h : Wf a) (k : Nat) (m : Start) : Wf (a.startAgentLeg k m) := by
  unfold startAgentLeg
  dsimp only
  split
  · rename_i b hb
    obtain ⟨hlt, hg⟩ := h.registered _ b hb
    refine Wf.setSocket (h.setBridge ?_) ?_
    · rfl
    · rintro c hc
      cases hc
      exact ⟨hlt, by simp [bindAgent, hg]⟩
  · rename_i hb
    -- the new object is registered under a free name
    have hne : ∀ c, c < a.fresh → c ≠ a.fresh := fun c hc => Nat.ne_of_lt hc
    constructor
    · intro g c hc
      simp only [App.setSocket, App.setBridge, Dict.get_set] at hc ⊢
      split at hc
      · rename_i hg
        cases hc
        exact ⟨Nat.lt_succ_self _, by simp [bindAgent, hg]⟩
      · obtain ⟨hlt, hg⟩ := h.registered g c hc
        rw [Function.update_of_ne (hne c hlt)]
        exact ⟨Nat.lt_succ_of_lt hlt, hg⟩
    · intro j c hc
      rw [setSocket_sockets] at hc ⊢
      split at hc
      · rename_i hj
        cases hc
        rw [if_pos hj]
        exact ⟨Nat.lt_succ_self _, by simp [App.setSocket, App.setBridge, bindAgent]⟩
      · rename_i hj
        rw [if_neg hj]
        obtain ⟨hlt, hg⟩ := h.held j c hc
        simp only [App.setSocket, App.setBridge]
        rw [Function.update_of_ne (hne c hlt)]
        exact ⟨Nat.lt_succ_of_lt hlt, hg⟩

theorem serveUserLeg_wf {a : App} (h : Wf a) (k tries : Nat) : Wf (a.serveUserLeg k tries) := by
  unfold serveUserLeg
  dsimp only
  split
  · exact h.setPhase k
  · split
    · rename_i b hb
      obtain ⟨hlt, hg⟩ := h.registered _ b hb
      refine Wf.setSocket (h.setBridge ?_) ?_
      · rfl
      · rintro c hc
        cases hc
        exact ⟨hlt, by simp [bindUser, hg]⟩
    · exact h.setPhase k

theorem finishAgentLeg_wf {a : App} (h : Wf a) (b : Nat) (group : String) (sawStop placed : Bool) :
    Wf (a.finishAgentLeg b group sawStop placed) := by
  rcases a.finishAgentLeg_cases b group sawStop placed with
    ⟨-, he⟩ | ⟨-, bridges, sessions, callMeta, log, hb, he⟩ | ⟨-, callMeta, log, reason, hangUp, he⟩ <;> rw [he]
  · exact h
  · refine Wf.setBridge (a := { a with bridges, sessions, callMeta, log }) ⟨fun g c hc => ?_, h.held⟩ ?_
    · refine h.registered g c ?_
      rw [hb] at hc
      split at hc
      · rw [Dict.get_erase] at hc
        split at hc
        · cases hc
        · exact hc
      · exact hc
    · exact close_groupId _
  · exact Wf.teardownGroup (a := { a with callMeta, log }) ⟨h.registered, h.held⟩ _ _ _

theorem step_wf (a : App) (act : Action) (h : Wf a) : Wf (step a act) := by
  cases act with
  | start k m =>
    simp only [step, start]
    split
    · exact h
    · split
      · exact startAgentLeg_wf h k m
      · exact serveUserLeg_wf (h.setSocket fun _ hb => by cases hb) k 0
  | poll k =>
    simp only [step, poll]
    split
    · exact serveUserLeg_wf h k _
    · exact h
  | media k payload ticks =>
    refine media_keeps (fun _ _ hs h => h.same hs) (fun _ b keys h => h.pressed b keys)
      (fun _ _ _ h => h.teardownGroup _ _ _) (fun _ k _ h => h.setPhase k) h k payload ticks
  | close k stop =>
    simp only [step, close]
    split
    · exact h.setPhase k
    · exact h.setPhase k
    · exact h
  | finish k placed =>
    by_cases hc : (a.sockets k).phase = .closing
    · obtain ⟨a', he, hs, hcase⟩ := a.finish_sockets k placed hc
      have h' : Wf a' := by
        rcases hcase with ⟨b, -, -, rfl⟩ | ⟨b, -, -, rfl⟩ | ⟨-, rfl⟩
        · exact finishAgentLeg_wf h _ _ _ _
        · refine finishUserLeg_keeps (fun _ _ hs h => h.same hs) (fun _ keys h => h.pressed b keys)
            (fun _ _ h => h.teardownGroup _ _ _) (h.setBridge ?_)
          rfl
        · exact h
      simp only [step, he]
      rw [← hs]
      exact h'.setPhase k
    · simp only [step, a.finish_idle k placed hc]
      exact h
  | redirect n ok =>
    rcases a.redirect_cases n ok with hs | ⟨r, redirects, log, -, -, -, he⟩
    · exact h.same hs
    · simp only [step, he]
      exact Wf.setBridge (a := { a with redirects, log }) ⟨h.registered, h.held⟩ rfl
  | reap => exact reapStaleBridges_keeps (fun _ _ _ _ _ h => h.teardownGroup _ _ _) h
  | _ => exact h.same (same_of_inert a trivial)

end App

end DialPass
