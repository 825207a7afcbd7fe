import DialPass.Media.Registry
import DialPass.Session.Stages
import DialPass.Session.Outcome
/-!
# The pieces a step is made of

A step that neither belongs to `create_call` nor makes a new session is a sequence of four kinds of piece:
an object goes on (`GoesOn`), a group is taken off the registry, its context is cleared, or something aside
from all that changes. `step_moves` is the one walk over the code; a law of single pieces is a law of such
steps (`Moves.lift`).
-/

namespace DialPass

namespace AgentSession

/-! ## The goal is the one the session was made with -/

@[simp] theorem emitStateChange_goal (s : AgentSession) (before : CallState) (now : ℚ) :
    (s.emitStateChange before now).goal = s.goal := by
  unfold emitStateChange; split <;> rfl

@[simp] theorem moved_goal (s : AgentSession) (fsm : CallStateMachine) (now : ℚ) :
    (s.moved fsm now).goal = s.goal := by
  rw [moved_eq]

@[simp] theorem fail_goal (s : AgentSession) (now : ℚ) (reason : String) : (s.fail now reason).goal = s.goal := rfl

@[simp] theorem abort_goal (s : AgentSession) (reason : String) : (s.abort reason).goal = s.goal := by
  unfold abort; split <;> rfl

@[simp] theorem submit_goal (s : AgentSession) (j : Job) : (s.submit j).goal = s.goal := by
  unfold submit; split <;> rfl

@[simp] theorem startMenu_goal (s : AgentSession) (now : ℚ) : (s.startMenu now).goal = s.goal := submit_goal _ _

@[simp] theorem startProbe_goal (s : AgentSession) (now : ℚ) : (s.startProbe now).goal = s.goal := submit_goal _ _

@[simp] theorem bridge_goal (s : AgentSession) (now : ℚ) (reply : BridgeReply) :
    (s.bridge now reply).goal = s.goal := by
  cases reply <;> simp [bridge, emit, log]

@[simp] theorem dispatch_goal (s : AgentSession) (action : Action) (now : ℚ) (reply : BridgeReply) :
    (s.dispatch action now reply).goal = s.goal := by
  cases action <;> simp only [dispatch, bridge_goal, fail_goal]
  split <;> simp

@[simp] theorem classify_goal (s : AgentSession) (now : ℚ) (c : Classification) :
    (s.classify now c).goal = s.goal := rfl

@[simp] theorem observe_goal (s : AgentSession) (now : ℚ) (i : Tick) : (s.observe now i).goal = s.goal := by
  simp [observe_eq]

@[simp] theorem wakeMenu_goal (s : AgentSession) (now : ℚ) : (s.wakeMenu now).goal = s.goal := by
  rcases wakeMenu_cases s now with ⟨due, he⟩ | ⟨-, -, he⟩ <;> simp [he]

@[simp] theorem applyMenu_goal (s : AgentSession) (d : MenuDecision) (now : ℚ) :
    (s.applyMenu d now).goal = s.goal := by
  unfold applyMenu; split <;> rfl

@[simp] theorem applyProbe_goal (s : AgentSession) (o : ProbeOutcome) (now : ℚ) (reply : BridgeReply) :
    (s.applyProbe o now reply).goal = s.goal := by
  simp [applyProbe_eq, emit, log]

@[simp] theorem tier2Failed_goal (s : AgentSession) (kind : Tier2Kind) (e : Tier2Error) (now : ℚ) :
    (s.tier2Failed kind e now).goal = s.goal := by
  cases e <;> simp only [tier2Failed, fail_goal] <;> split <;> simp

@[simp] theorem applyResult_goal (s : AgentSession) (kind : Tier2Kind) (result : Tier2Result) (now : ℚ)
    (reply : BridgeReply) : (s.applyResult kind result now reply).goal = s.goal := by
  unfold applyResult
  split
  · simp
  · split <;> simp

@[simp] theorem pollTier2_goal (s : AgentSession) (now : ℚ) (i : Tick) : (s.pollTier2 now i).goal = s.goal := by
  unfold pollTier2
  split
  · rfl
  · split <;> simp [log]

@[simp] theorem runTick_goal (s : AgentSession) (now : ℚ) (i : Tick) : (s.runTick now i).goal = s.goal := by
  unfold runTick
  dsimp only
  split
  · simp
  · split <;> simp

theorem loopPass_goal (s : AgentSession) (i : Tick) : (s.loopPass i).goal = s.goal := by
  unfold loopPass
  split
  · rfl
  · dsimp only
    split <;> simp

theorem ingest_goal (s : AgentSession) (pcm : Pcm) : (s.ingest pcm).goal = s.goal := by
  unfold ingest
  split
  · rfl
  · dsimp only
    split <;> rfl

theorem feedAudio_goal (s : AgentSession) (pcm : Pcm) (ticks : List Tick) :
    (s.feedAudio pcm ticks).goal = s.goal := by
  unfold feedAudio
  rw [← ingest_goal s pcm]
  generalize s.ingest pcm = t
  induction ticks generalizing t with
  | nil => rfl
  | cons i ticks ih => exact (ih _).trans (loopPass_goal t i)

end AgentSession

namespace CallBridge

/-- The object goes on: it belongs to the same group, its session keeps what it was given and does not
revive. -/
structure GoesOn (br br' : CallBridge) : Prop where
  groupId : br'.groupId = br.groupId
  goal : br'.session.goal = br.session.goal
  userLegSid : br'.session.userLegSid = br.session.userLegSid
  finished : br.session.finished = true → br'.session.finished = true

theorem GoesOn.of_session {br br' : CallBridge} (hg : br'.groupId = br.groupId) (hs : br'.session = br.session) :
    GoesOn br br' := ⟨hg, by rw [hs], by rw [hs], by rw [hs]; exact id⟩

theorem goesOn_close (br : CallBridge) : GoesOn br br.close := by
  unfold close
  split
  · exact .of_session rfl rfl
  · exact ⟨rfl, rfl, rfl, id⟩

end CallBridge

namespace App

open CallBridge

/-- One of the four kinds of piece. -/
inductive Piece (a : App) : App → Prop where
  /-- A handler, a thread, the clock, a number, a redial count or a request to Twilio. -/
  | aside {a' : App} (bridges : a'.bridges = a.bridges) (heap : a'.heap = a.heap) (fresh : a'.fresh = a.fresh)
      (creates : a'.creates = a.creates) (twilio : a'.twilio = a.twilio)
      (pendingGoals : a'.pendingGoals = a.pendingGoals) (userLegs : a'.userLegs = a.userLegs)
      (log : a.log ⊆ a'.log) : Piece a a'
  | bridge {b : Nat} {br : CallBridge} (h : GoesOn (a.heap b) br) : Piece a (a.setBridge b br)
  | pop (group : String) : Piece a { a with bridges := a.bridges.erase group }
  | clear (group : String) : Piece a (a.clearContext group)

/-- Piece by piece. -/
def Moves : App → App → Prop := Relation.ReflTransGen Piece

variable {a a' a'' : App}

theorem Moves.refl (a : App) : Moves a a := Relation.ReflTransGen.refl

theorem Moves.trans (h : Moves a a') (h' : Moves a' a'') : Moves a a'' := Relation.ReflTransGen.trans h h'

theorem Piece.moves (h : Piece a a') : Moves a a' := Relation.ReflTransGen.single h

theorem Moves.aside (bridges : a'.bridges = a.bridges) (heap : a'.heap = a.heap) (fresh : a'.fresh = a.fresh)
    (creates : a'.creates = a.creates) (twilio : a'.twilio = a.twilio)
    (pendingGoals : a'.pendingGoals = a.pendingGoals) (userLegs : a'.userLegs = a.userLegs)
    (log : a.log ⊆ a'.log) : Moves a a' :=
  (Piece.aside bridges heap fresh creates twilio pendingGoals userLegs log).moves

/-- Not even the log. -/
theorem Moves.quiet (bridges : a'.bridges = a.bridges) (heap : a'.heap = a.heap) (fresh : a'.fresh = a.fresh)
    (creates : a'.creates = a.creates) (twilio : a'.twilio = a.twilio)
    (pendingGoals : a'.pendingGoals = a.pendingGoals) (userLegs : a'.userLegs = a.userLegs)
    (log : a'.log = a.log) : Moves a a' :=
  .aside bridges heap fresh creates twilio pendingGoals userLegs (by rw [log]; exact List.Subset.refl _)

/-- A law of single pieces that composes is a law of moves. -/
theorem Moves.lift {R : App → App → Prop} (hrefl : ∀ a, R a a)
    (htrans : ∀ {a a' a''}, R a a' → R a' a'' → R a a'') (hpiece : ∀ {a a'}, Piece a a' → R a a')
    (h : Moves a a') : R a a' := by
  induction h with
  | refl => exact hrefl _
  | tail _ hp ih => exact htrans ih (hpiece hp)

/-! ## One lemma per function -/

theorem moves_setBridge (a : App) {b : Nat} {br : CallBridge} (h : GoesOn (a.heap b) br) :
    Moves a (a.setBridge b br) := (Piece.bridge h).moves

theorem moves_setSocket (a : App) (k : Nat) (s : Socket) : Moves a (a.setSocket k s) :=
  .quiet rfl rfl rfl rfl rfl rfl rfl rfl

theorem moves_log (a : App) (es : List Twilio) : Moves a { a with log := a.log ++ es } :=
  .aside rfl rfl rfl rfl rfl rfl rfl (List.subset_append_left _ _)

theorem moves_sms (a : App) (g body : String) : Moves a (a.sms g body) := by
  obtain ⟨es, he, -⟩ := a.sms_eq g body
  rw [he]
  exact moves_log a es

theorem moves_teardownGroup (a : App) (g : String) (reason : Option String) (hangUp : Bool) :
    Moves a (a.teardownGroup g reason hangUp) := by
  cases hb : a.bridges.get g with
  | none =>
    rw [teardownGroup_none hb]
    exact (Piece.clear g).moves
  | some b =>
    obtain ⟨es, he⟩ := teardownGroup_some hb reason hangUp
    rw [he]
    refine Moves.trans ?_ (Piece.clear g).moves
    refine Moves.trans ?_ (moves_setBridge _ ?_)
    · exact (Piece.pop g).moves.trans (.aside rfl rfl rfl rfl rfl rfl rfl (List.subset_append_left _ _))
    · exact goesOn_close _

theorem moves_hook (b : Nat) (a : App) (e : Effect) : Moves a (hook b a e) := by
  have hset : ∀ br : CallBridge, br.groupId = (a.heap b).groupId → br.session = (a.heap b).session →
      Moves a (a.setBridge b br) := fun _ hg hs => moves_setBridge a (.of_session hg hs)
  cases e with
  | dtmfSender digits =>
    rcases (a.heap b).pressDtmf_cases digits a.now with h | ⟨keys, h⟩ <;> simp only [hook, h]
    · exact hset _ rfl rfl
    · refine (hset { a.heap b with reconnecting := true, reconnectSince := some a.now } rfl rfl).trans ?_
      exact .quiet rfl rfl rfl rfl rfl rfl rfl rfl
  | onBridge =>
    simp only [hook]
    rcases (a.heap b).beginHandoff_cases a.openaiApiKey with ⟨-, h⟩ | ⟨-, -, h⟩ | ⟨-, -, h⟩ | ⟨-, -, h⟩ <;>
      simp only [h]
    · exact hset _ rfl rfl
    · exact hset _ rfl rfl
    · refine (hset { a.heap b with handoffStarted := true, relayOpen := true } rfl rfl).trans ?_
      exact moves_sms ..
    · exact hset _ rfl rfl
  | onFail reason => exact moves_teardownGroup ..
  | _ => exact .refl a

theorem moves_hooks (b : Nat) (es : List Effect) (a : App) : Moves a (es.foldl (hook b) a) := by
  induction es generalizing a with
  | nil => exact .refl a
  | cons e es ih => exact (moves_hook b a e).trans (ih _)

@[simp] theorem setBridge_setBridge (a : App) (b : Nat) (br br' : CallBridge) :
    (a.setBridge b br).setBridge b br' = a.setBridge b br' := by
  simp [setBridge]

/-- A session that is over hears nothing more. -/
theorem onAgentAudio_over (a : App) {b : Nat} (h : (a.heap b).session.finished = true) (ulaw : List UInt8)
    (ticks : List Tick) : a.onAgentAudio b ulaw ticks = a.setBridge b ((a.heap b).relayAgentAudio ulaw) := by
  obtain ⟨p, o, he⟩ := (a.heap b).relayAgentAudio_eq ulaw
  unfold onAgentAudio
  dsimp only
  rw [setBridge_heap_self, if_pos (by rw [he]; exact h)]

/-- A live session takes the chunk, and then its hooks run. -/
theorem onAgentAudio_live (a : App) {b : Nat} (h : (a.heap b).session.finished = false) (ulaw : List UInt8)
    (ticks : List Tick) : ∃ br, GoesOn (a.heap b) br ∧
      br.session = (a.heap b).session.feedAudio (ulawToPcm16 ulaw)
        (ticks.map fun i => { i with onBridge := (a.heap b).handoffReply }) ∧
      a.onAgentAudio b ulaw ticks =
        (br.session.trace.drop (a.heap b).session.trace.length).foldl (hook b) (a.setBridge b br) := by
  obtain ⟨p, o, he⟩ := (a.heap b).relayAgentAudio_eq ulaw
  obtain ⟨es, hap⟩ := AgentSession.feedAudio_leads (a.heap b).session (ulawToPcm16 ulaw)
    (ticks.map fun i => { i with onBridge := (a.heap b).handoffReply }) (r := (a.heap b).handoffReply) (by simp)
  refine ⟨{ (a.heap b).relayAgentAudio ulaw with session := _ }, ?_, rfl, ?_⟩
  · rw [he]
    exact ⟨rfl, AgentSession.feedAudio_goal .., hap.userLegSid, hap.still⟩
  · unfold onAgentAudio
    dsimp only
    rw [setBridge_heap_self, if_neg (by rw [he]; simp [h])]
    unfold advance
    rw [setBridge_heap_self, setBridge_setBridge, he]
    rfl

theorem moves_onAgentAudio (a : App) (b : Nat) (ulaw : List UInt8) (ticks : List Tick) :
    Moves a (a.onAgentAudio b ulaw ticks) := by
  cases hf : (a.heap b).session.finished with
  | true =>
    obtain ⟨p, o, he⟩ := (a.heap b).relayAgentAudio_eq ulaw
    rw [a.onAgentAudio_over hf, he]
    exact moves_setBridge a (.of_session rfl rfl)
  | false =>
    obtain ⟨br, hg, -, he⟩ := a.onAgentAudio_live hf ulaw ticks
    rw [he]
    exact (moves_setBridge a hg).trans (moves_hooks ..)

/-- A user leg that ends before the handoff takes a live session with it, and its group. -/
theorem finishUserLeg_live (a : App) {b : Nat} (hr : (a.heap b).relayOpen = false)
    (hf : (a.heap b).session.finished = false) : ∃ br, GoesOn (a.heap b) br ∧
      a.finishUserLeg b = (a.setBridge b br).teardownGroup (a.heap b).groupId (some "user_left") true := by
  obtain ⟨es, hap⟩ := AgentSession.abort_leads (r := .ok) (a.heap b).session "user_left"
  refine ⟨{ a.heap b with userStreamSid := none, session := (a.heap b).session.abort "user_left" }, ?_, ?_⟩
  · exact ⟨rfl, AgentSession.abort_goal .., hap.userLegSid, hap.still⟩
  · have hab := advance_abort (a := a.setBridge b { a.heap b with userStreamSid := none }) (b := b)
      (by rw [setBridge_heap_self]; exact hf) "user_left"
    unfold finishUserLeg
    dsimp only
    rw [setBridge_heap_self] at hab ⊢
    rw [if_pos ⟨hr, hf⟩, hab, setBridge_setBridge]

theorem moves_finishUserLeg (a : App) (b : Nat) : Moves a (a.finishUserLeg b) := by
  by_cases hl : (a.heap b).relayOpen = false ∧ (a.heap b).session.finished = false
  · obtain ⟨br, hg, he⟩ := a.finishUserLeg_live hl.1 hl.2
    rw [he]
    exact (moves_setBridge a hg).trans (moves_teardownGroup ..)
  · unfold finishUserLeg
    dsimp only
    rw [setBridge_heap_self, if_neg hl]
    exact moves_setBridge a (.of_session rfl rfl)

theorem moves_redialAgentLeg (a : App) (g : String) (placed : Bool) : Moves a (a.redialAgentLeg g placed).1 := by
  unfold redialAgentLeg
  split
  · exact .refl a
  · split
    · exact .refl a
    · exact .aside rfl rfl rfl rfl rfl rfl rfl (List.subset_append_left _ _)

theorem moves_finishAgentLeg (a : App) (b : Nat) (g : String) (sawStop placed : Bool) :
    Moves a (a.finishAgentLeg b g sawStop placed) := by
  have hred := moves_redialAgentLeg a g placed
  have hheap : (a.redialAgentLeg g placed).1.heap = a.heap := by
    obtain ⟨callMeta, log, he⟩ := a.redialAgentLeg_eq g placed
    rw [he]
  -- the bridge is given up, and its session forgotten
  have hgive : ∀ {t : App} (sessions : Dict String Nat), Moves a t → t.heap = a.heap →
      Moves a (App.setBridge { t with sessions } b (a.heap b).close) := by
    intro t sessions ht hh
    have h0 : Moves t { t with sessions } := .quiet rfl rfl rfl rfl rfl rfl rfl rfl
    refine (ht.trans h0).trans (moves_setBridge _ ?_)
    rw [← hh]
    exact goesOn_close _
  unfold finishAgentLeg
  dsimp only
  split
  · exact .refl a
  · split
    · split
      · split
        · exact hgive _ (hred.trans (Piece.pop g).moves) hheap
        · exact hgive _ hred hheap
      · exact hred.trans (moves_teardownGroup ..)
    · exact moves_teardownGroup ..

theorem moves_finish (a : App) (k : Nat) (placed : Bool) : Moves a (a.finish k placed) := by
  by_cases hc : (a.sockets k).phase = .closing
  · obtain ⟨t, he, -, hcase⟩ := a.finish_sockets k placed hc
    rw [he]
    refine Moves.trans ?_ (moves_setSocket ..)
    rcases hcase with ⟨b, -, -, rfl⟩ | ⟨b, -, -, rfl⟩ | ⟨-, rfl⟩
    · exact moves_finishAgentLeg ..
    · exact moves_finishUserLeg ..
    · exact .refl t
  · rw [a.finish_idle k placed hc]
    exact .refl a

theorem moves_serveUserLeg (a : App) (k tries : Nat) : Moves a (a.serveUserLeg k tries) := by
  unfold serveUserLeg
  dsimp only
  split
  · exact moves_setSocket ..
  · split
    · refine Moves.trans ?_ (moves_setSocket ..)
      exact moves_setBridge a (.of_session rfl rfl)
    · exact moves_setSocket ..

theorem moves_waitDrained (a : App) (b left : Nat) : Moves a (a.waitDrained b left) := by
  unfold waitDrained
  rcases (a.heap b).waitDrained_cases left with h | ⟨n, h⟩ <;> simp only [h]
  · refine Moves.trans ?_ (moves_sms ..)
    exact moves_setBridge a (.of_session rfl rfl)
  · exact moves_setBridge a (.of_session rfl rfl)

theorem moves_media (a : App) (k : Nat) (payload : List UInt8) (ticks : List Tick) :
    Moves a (a.media k payload ticks) := by
  unfold media
  dsimp only
  split
  · have h := moves_onAgentAudio a ‹_› payload ticks
    split
    · exact h.trans (moves_setSocket ..)
    · exact h
  · rename_i b _ _ _
    obtain ⟨o, he⟩ := (a.heap b).onUserAudio_eq payload
    rw [he]
    exact moves_setBridge a (.of_session rfl rfl)
  · exact .refl a

theorem moves_redirect (a : App) (n : Nat) (ok : Bool) : Moves a (a.redirect n ok) := by
  unfold redirect
  split
  · exact .refl a
  · dsimp only
    split
    · exact .quiet rfl rfl rfl rfl rfl rfl rfl rfl
    · rename_i callId url _
      split
      · exact .aside rfl rfl rfl rfl rfl rfl rfl (List.subset_append_left _ _)
      · refine Moves.trans ?_ (moves_setBridge _ (.of_session rfl rfl))
        exact .aside rfl rfl rfl rfl rfl rfl rfl (List.subset_append_left _ _)

/-! ## Every other step -/

/-- The step makes a session for the group: an agent leg starts, and the group has no bridge. -/
def Starts (group : String) (a : App) : Action → Prop
  | .start k m =>
    (a.sockets k).phase = .idle ∧ m.role = .agent ∧ m.group = group ∧ a.bridges.get group = none
  | _ => False

/-- A worker thread of `create_call` runs. -/
def Action.Places : Action → Prop
  | .post .. | .work .. => True
  | _ => False

/-- **A step moves piece by piece**, unless it makes a session or belongs to `create_call`. -/
theorem step_moves (a : App) (act : Action) (hs : ∀ g, ¬ a.Starts g act) (hp : ¬ act.Places) :
    Moves a (step a act) := by
  cases act with
  | post g req placed => exact absurd trivial hp
  | work g ring => exact absurd trivial hp
  | start k m =>
    simp only [step, start]
    split
    · exact .refl a
    · rename_i hk
      split
      · rename_i hr
        unfold startAgentLeg
        dsimp only
        split
        · refine Moves.trans ?_ (moves_setSocket ..)
          exact moves_setBridge a (.of_session rfl rfl)
        · rename_i hb
          exact absurd ⟨not_not.1 hk, hr, rfl, hb⟩ (hs m.group)
      · exact (moves_setSocket a k _).trans (moves_serveUserLeg ..)
  | poll k =>
    simp only [step, poll]
    split
    · exact moves_serveUserLeg a k _
    · exact .refl a
  | media k payload ticks => exact moves_media ..
  | close k stop =>
    simp only [step, close]
    split
    · exact moves_setSocket ..
    · exact moves_setSocket ..
    · exact .refl a
  | finish k placed => exact moves_finish ..
  | drain k =>
    simp only [step, drain]
    split
    · refine Moves.trans ?_ (moves_setSocket ..)
      refine moves_setBridge a ?_
      split <;> exact .of_session rfl rfl
    · exact .refl a
  | redirect n ok => exact moves_redirect ..
  | spoken b =>
    simp only [step, spoken]
    split
    · exact moves_waitDrained a b _
    · exact .refl a
  | drained b =>
    simp only [step, drained]
    split
    · exact moves_waitDrained a b _
    · exact .refl a
  | play b pcm =>
    simp only [step, play]
    split
    · obtain ⟨o, he⟩ := (a.heap b).playToAgent_eq pcm
      rw [he]
      exact moves_setBridge a (.of_session rfl rfl)
    · exact .refl a
  | probe b running =>
    simp only [step, probe]
    split
    · exact moves_setBridge a (.of_session rfl rfl)
    · exact .refl a
  | reap =>
    exact reapStaleBridges_keeps (P := Moves a) (fun t g _ _ _ h => h.trans (moves_teardownGroup t g _ _)) (.refl a)
  | wait dt => exact .quiet rfl rfl rfl rfl rfl rfl rfl rfl

end App

end DialPass
