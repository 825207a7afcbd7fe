import DialPass.Media.Notify
import DialPass.Media.Pieces
/-!
# What a session is given of its request (calls.py:54-77, media.py:254-270, media.py:89-101)

`create_call` stores the context of a call one access at a time, the first after the business call has been
placed; the agent leg's `start` copies what is there, once. `CarriesRequest` asks that every session of a group has
the goal and the user's leg of the request, `HangsUpUser` that a teardown with `hang_up=True` hangs up that
leg. `StoresFirst` and `FindsBridge` say exactly when.
-/

namespace DialPass

open CallBridge

namespace CallBridge

theorem GoesOn.refl (br : CallBridge) : GoesOn br br := .of_session rfl rfl

theorem GoesOn.trans {br br' br'' : CallBridge} (h : GoesOn br br') (h' : GoesOn br' br'') : GoesOn br br'' :=
  ⟨h'.groupId.trans h.groupId, h'.goal.trans h.goal, h'.userLegSid.trans h.userLegSid,
    fun hf => h'.finished (h.finished hf)⟩

end CallBridge

/-- `create_call` has not rung the user yet. -/
def CreateStep.Early : CreateStep → Prop
  | .storeGoal | .storeMeta | .ringUser => True
  | _ => False

namespace App

/-- Every session built for a group carries the goal and the user's leg of the group's request. -/
def CarriesRequest (a : App) : Prop :=
  ∀ group c, a.creates.get group = some c → ∀ b < a.fresh, (a.heap b).groupId = group →
    (a.heap b).session.goal = c.req.goal ∧ (a.heap b).session.userLegSid = c.userLeg

/-- The step runs `_teardown_group` on the group with `hang_up=True`: its session gives up on a chunk, or is
aborted for its user (media.py:154, media.py:192), an agent leg drops and is not redialled (media.py:321), or
the reaper takes it (media.py:113). -/
def TearsDown (group : String) (a : App) : Action → Prop
  | .media k payload ticks =>
    (a.sockets k).phase = .receiving ∧ (a.sockets k).role = .agent ∧ ∃ b, (a.sockets k).bridge = some b ∧
      (a.heap b).groupId = group ∧ (a.heap b).session.finished = false ∧
      GaveUp (a.heap b).session ((a.heap b).session.feedAudio (ulawToPcm16 payload)
        (ticks.map fun i => { i with onBridge := (a.heap b).handoffReply }))
  | .finish k placed =>
    (a.sockets k).phase = .closing ∧ ∃ b, (a.sockets k).bridge = some b ∧ (a.heap b).session.finished = false ∧
      (((a.sockets k).role = .user ∧ (a.heap b).groupId = group ∧ (a.heap b).relayOpen = false) ∨
       ((a.sockets k).role = .agent ∧ (a.sockets k).group = group ∧ (a.heap b).reconnecting = false ∧
        (a.sockets k).sawStop = false ∧ (a.redialAgentLeg group placed).2 = false))
  | .reap => ∃ b, a.bridges.get group = some b ∧ Stale (a.heap b) a.now
  | _ => False

/-- A teardown with `hang_up=True` hangs up the user's leg, if it was rung. -/
def HangsUpUser (a : App) (act : Action) : Prop :=
  ∀ group c leg, a.creates.get group = some c → c.userLeg = some leg → RealSid leg → a.TearsDown group act →
    .hangUp leg ∈ (step a act).log

/-! ## What a run has to heed -/

/-- `create_call` has stored the goal, if there is one, and the user's leg, if it was rung; and both are
still there. -/
def Stored (a : App) (group : String) (c : CreateCall) : Prop :=
  (c.req.goal = none ∨ a.pendingGoals.get group ≠ none) ∧ (c.userLeg = none ∨ a.userLegs.get group ≠ none)

/-- A session is made only when its context is stored, and the user is rung only while no agent leg of the
group has connected. -/
def StoresFirst (a : App) : Action → Prop
  | .start k m => a.Starts m.group (.start k m) → ∀ c, a.creates.get m.group = some c → a.Stored m.group c
  | .work group (some _) => ∀ c, a.creates.get group = some c → c.next = .ringUser → ¬ a.Connected group
  | _ => True

/-- A teardown finds a bridge registered for its group, or the user's leg was hung up before. -/
def FindsBridge (a : App) (act : Action) : Prop :=
  ∀ group c leg, a.creates.get group = some c → c.userLeg = some leg → RealSid leg → a.TearsDown group act →
    a.bridges.get group ≠ none ∨ .hangUp leg ∈ a.log

/-! ## What every step keeps -/

/-- The calls are the same, every object goes on, and nothing is registered or stored. -/
structure Keeps (a a' : App) : Prop where
  creates : a'.creates = a.creates
  fresh : a'.fresh = a.fresh
  twilio : a'.twilio = a.twilio
  log : a.log ⊆ a'.log
  goesOn : ∀ b, GoesOn (a.heap b) (a'.heap b)
  bridges : ∀ g b, a'.bridges.get g = some b → a.bridges.get g = some b
  pendingGoals : ∀ g x, a'.pendingGoals.get g = some x → a.pendingGoals.get g = some x
  userLegs : ∀ g sid, a'.userLegs.get g = some sid → a.userLegs.get g = some sid

variable {group : String} {a a' a'' : App} {c : CreateCall}

theorem Keeps.refl (a : App) : Keeps a a :=
  ⟨rfl, rfl, rfl, fun _ => id, fun _ => .refl _, fun _ _ => id, fun _ _ => id, fun _ _ => id⟩

theorem Keeps.trans (h : Keeps a a') (h' : Keeps a' a'') : Keeps a a'' where
  creates := h'.creates.trans h.creates
  fresh := h'.fresh.trans h.fresh
  twilio := h'.twilio.trans h.twilio
  log := fun _ ht => h'.log (h.log ht)
  goesOn b := (h.goesOn b).trans (h'.goesOn b)
  bridges g b hb := h.bridges g b (h'.bridges g b hb)
  pendingGoals g x hx := h.pendingGoals g x (h'.pendingGoals g x hx)
  userLegs g sid hs := h.userLegs g sid (h'.userLegs g sid hs)

theorem get_erase_some {α : Type} {d : Dict String α} {g g' : String} {x : α} (h : (d.erase g).get g' = some x) :
    d.get g' = some x := by
  rw [Dict.get_erase] at h
  split at h
  · cases h
  · exact h

theorem Piece.keeps (h : Piece a a') : Keeps a a' := by
  cases h with
  | aside hb hh hf hc ht hp hu hl =>
    exact ⟨hc, hf, ht, hl, fun b => by rw [hh]; exact .refl _, fun g b h => by rwa [hb] at h,
      fun g x h => by rwa [hp] at h, fun g sid h => by rwa [hu] at h⟩
  | @bridge b br h =>
    refine ⟨rfl, rfl, rfl, fun _ => id, fun d => ?_, fun _ _ => id, fun _ _ => id, fun _ _ => id⟩
    rw [setBridge_heap]
    split
    · rename_i hd; rw [hd]; exact h
    · exact .refl _
  | pop g =>
    exact ⟨rfl, rfl, rfl, fun _ => id, fun _ => .refl _, fun _ _ h => get_erase_some h, fun _ _ => id, fun _ _ => id⟩
  | clear g =>
    exact ⟨rfl, rfl, rfl, fun _ => id, fun _ => .refl _, fun _ _ => id, fun _ _ h => get_erase_some h,
      fun _ _ h => get_erase_some h⟩

theorem Moves.keeps (h : Moves a a') : Keeps a a' := h.lift Keeps.refl Keeps.trans Piece.keeps

/-- What is stored is the request's; a call is placed with a client, and has no leg before it rings. -/
structure Noted (a : App) : Prop where
  goals : ∀ g x, a.pendingGoals.get g = some x → ∃ c, a.creates.get g = some c ∧ c.req.goal = x
  userLegs : ∀ g sid, a.userLegs.get g = some sid → ∃ c, a.creates.get g = some c ∧ c.userLeg = some sid
  calls : ∀ g c, a.creates.get g = some c → a.twilio = true ∧ (c.next.Early → c.userLeg = none)

theorem new_noted (settings : Settings) (key base : String) (twilio : Bool) :
    Noted (App.new settings key base twilio) := ⟨nofun, nofun, nofun⟩

theorem Noted.keeps (h : Noted a) (hk : Keeps a a') : Noted a' where
  goals g x hx := by rw [hk.creates]; exact h.goals g x (hk.pendingGoals g x hx)
  userLegs g sid hs := by rw [hk.creates]; exact h.userLegs g sid (hk.userLegs g sid hs)
  calls g c hc := by rw [hk.creates] at hc; rw [hk.twilio]; exact h.calls g c hc

/-- A call is placed or goes on; a leg it has it keeps. -/
theorem Noted.setCall {g : String} (h : Noted a) (htw : a.twilio = true) (c' : CreateCall)
    (hsame : ∀ c, a.creates.get g = some c → c'.req = c.req ∧ (c.userLeg ≠ none → c'.userLeg = c.userLeg))
    (hearly : c'.next.Early → c'.userLeg = none) : Noted { a with creates := a.creates.set g c' } := by
  constructor
  · intro g' x hx
    obtain ⟨d, hd, hgoal⟩ := h.goals g' x hx
    simp only [Dict.get_set]
    split
    · rename_i hg
      rw [hg] at hd
      exact ⟨c', rfl, by rw [(hsame d hd).1, hgoal]⟩
    · exact ⟨d, hd, hgoal⟩
  · intro g' sid hs
    obtain ⟨d, hd, hl⟩ := h.userLegs g' sid hs
    simp only [Dict.get_set]
    split
    · rename_i hg
      rw [hg] at hd
      exact ⟨c', rfl, by rw [(hsame d hd).2 (by simp [hl]), hl]⟩
    · exact ⟨d, hd, hl⟩
  · intro g' d hd
    simp only [Dict.get_set] at hd
    split at hd
    · cases hd
      exact ⟨htw, hearly⟩
    · exact h.calls g' d hd

theorem Noted.storeGoal {g : String} (h : Noted a) (hc : a.creates.get g = some c) :
    Noted { a with pendingGoals := a.pendingGoals.set g c.req.goal } := by
  refine ⟨?_, h.userLegs, h.calls⟩
  intro g' x hx
  simp only [Dict.get_set] at hx
  split at hx
  · rename_i hg
    cases hx
    exact ⟨c, by rw [hg]; exact hc, rfl⟩
  · exact h.goals g' x hx

theorem Noted.storeLeg {g sid : String} (h : Noted a) (hc : a.creates.get g = some c) (hl : c.userLeg = some sid) :
    Noted { a with userLegs := a.userLegs.set g sid } := by
  refine ⟨h.goals, ?_, h.calls⟩
  intro g' x hx
  simp only [Dict.get_set] at hx
  split at hx
  · rename_i hg
    cases hx
    exact ⟨c, by rw [hg]; exact hc, hl⟩
  · exact h.userLegs g' x hx

/-! ## `create_call` -/

/-- An accepted request is that of a group nobody has heard of. -/
theorem post_cases (a : App) (g : String) (req : CallRequest) (placed : Bool) :
    (∃ es, a.post g req placed = { a with log := a.log ++ es }) ∨
    (¬ a.Known g ∧ a.twilio = true ∧ ∃ es, a.post g req placed =
      { a with log := a.log ++ es, creates := a.creates.set g { req, next := .storeGoal } }) := by
  unfold post
  split
  · exact .inl ⟨[], by simp⟩
  · rename_i hno
    rw [not_or, not_or] at hno
    dsimp only
    split
    · exact .inr ⟨hno.1, by simpa using hno.2.1, _, rfl⟩
    · exact .inl ⟨_, rfl⟩

theorem post_noted (h : Noted a) (g : String) (req : CallRequest) (placed : Bool) :
    Noted (a.post g req placed) := by
  rcases a.post_cases g req placed with ⟨es, he⟩ | ⟨hno, htw, es, he⟩ <;> rw [he]
  · exact ⟨h.goals, h.userLegs, h.calls⟩
  · have hnone : a.creates.get g = none := by
      cases hc : a.creates.get g with
      | none => rfl
      | some c => exact absurd (.inl (by simp [hc])) hno
    have hset := h.setCall (g := g) htw { req, next := .storeGoal }
      (fun c hc => by rw [hnone] at hc; cases hc) fun _ => rfl
    exact ⟨hset.goals, hset.userLegs, hset.calls⟩

/-- No session can have been made for a new group. -/
theorem post_carriesRequest (h : CarriesRequest a) (g : String) (req : CallRequest) (placed : Bool) :
    CarriesRequest (a.post g req placed) := by
  rcases a.post_cases g req placed with ⟨es, he⟩ | ⟨hno, -, es, he⟩ <;> rw [he]
  · exact h
  · intro g' d hd b hb hg
    simp only [Dict.get_set] at hd
    split at hd
    · rename_i hgg
      exact absurd (.inr ⟨b, hb, hg.trans hgg⟩) hno
    · exact h g' d hd b hb hg

theorem work_noted (h : Noted a) (g : String) (ring : Option String) : Noted (a.work g ring) := by
  unfold work
  cases hc : a.creates.get g with
  | none => exact h
  | some c =>
    obtain ⟨htw, hearly⟩ := h.calls g c hc
    have hnext : ∀ next : CreateStep, (next.Early → c.next.Early) →
        Noted { a with creates := a.creates.set g { c with next } } := by
      intro next he
      refine h.setCall htw { c with next } ?_ fun hn => hearly (he hn)
      intro d hd
      rw [hc] at hd
      cases hd
      exact ⟨rfl, fun _ => rfl⟩
    dsimp only
    split
    · rename_i hn
      exact (hnext .storeMeta (by simp [hn, CreateStep.Early])).storeGoal (g := g) (c := { c with next := .storeMeta })
        (by simp)
    · rename_i hn
      have h' := hnext .ringUser (by simp [hn, CreateStep.Early])
      exact ⟨h'.goals, h'.userLegs, h'.calls⟩
    · rename_i hn
      have hnone : c.userLeg = none := hearly (by simp [hn, CreateStep.Early])
      split
      · rename_i callSid
        have h' : Noted { a with creates := a.creates.set g { c with userLeg := some callSid, next := .storeLeg } } := by
          refine h.setCall htw _ ?_ (by simp [CreateStep.Early])
          intro d hd
          rw [hc] at hd
          cases hd
          exact ⟨rfl, fun hne => absurd hnone hne⟩
        exact ⟨h'.goals, h'.userLegs, h'.calls⟩
      · have h' := hnext .returned (by simp [CreateStep.Early])
        exact ⟨h'.goals, h'.userLegs, h'.calls⟩
    · split
      · rename_i callSid hl
        exact (hnext .storeNumber (by simp [CreateStep.Early])).storeLeg (g := g)
          (c := { c with next := .storeNumber }) (by simp) hl
      · exact h
    · have h' := hnext .returned (by simp [CreateStep.Early])
      exact ⟨h'.goals, h'.userLegs, h'.calls⟩
    · exact h

/-- A call goes on with the leg it had. -/
theorem CarriesRequest.setCall {g : String} (h : CarriesRequest a) (hc : a.creates.get g = some c)
    (c' : CreateCall) (hreq : c'.req = c.req) (hleg : c'.userLeg = c.userLeg) :
    CarriesRequest { a with creates := a.creates.set g c' } := by
  intro g' d hd b hb hg
  simp only [Dict.get_set] at hd
  split at hd
  · rename_i hgg
    cases hd
    rw [hreq, hleg]
    exact h g c hc b hb (hg.trans hgg)
  · exact h g' d hd b hb hg

/-- A call gets its leg: a session made before does not have it. -/
theorem carriesRequest_rung_iff {g sid : String} (h : CarriesRequest a) (hc : a.creates.get g = some c)
    (c' : CreateCall) (hnone : c.userLeg = none) (hleg : c'.userLeg = some sid) :
    CarriesRequest { a with creates := a.creates.set g c' } ↔ ¬ a.Connected g := by
  constructor
  · rintro h' ⟨b, hb, hg⟩
    have hnew : (a.heap b).session.userLegSid = c'.userLeg := (h' g c' (by simp) b hb hg).2
    rw [(h g c hc b hb hg).2, hnone, hleg] at hnew
    cases hnew
  · intro hno g' d hd b hb hg
    simp only [Dict.get_set] at hd
    split at hd
    · rename_i hgg
      exact absurd ⟨b, hb, hg.trans hgg⟩ hno
    · exact h g' d hd b hb hg

theorem work_carriesRequest_iff (hn : Noted a) (h : CarriesRequest a) (g : String) (ring : Option String) :
    CarriesRequest (a.work g ring) ↔ a.StoresFirst (.work g ring) := by
  unfold work
  cases hc : a.creates.get g with
  | none =>
    refine iff_of_true h ?_
    cases ring with
    | none => trivial
    | some sid => rintro c hc'; rw [hc] at hc'; cases hc'
  | some c =>
    -- what is not the ringing keeps the leg
    have hother : ∀ {a' : App}, c.next ≠ .ringUser → CarriesRequest a' →
        (CarriesRequest a' ↔ a.StoresFirst (.work g ring)) := by
      intro a' hne h'
      refine iff_of_true h' ?_
      cases ring with
      | none => trivial
      | some sid =>
        intro d hd hd'
        rw [hc] at hd
        cases hd
        exact absurd hd' hne
    have hnext : ∀ next : CreateStep, CarriesRequest { a with creates := a.creates.set g { c with next } } :=
      fun next => h.setCall hc { c with next } rfl rfl
    dsimp only
    split
    · exact hother (by simp [*]) (hnext .storeMeta)
    · exact hother (by simp [*]) (hnext .ringUser)
    · rename_i hr
      split
      · rename_i callSid
        have hnone : c.userLeg = none := (hn.calls g c hc).2 (by simp [hr, CreateStep.Early])
        refine (carriesRequest_rung_iff h hc { c with userLeg := some callSid, next := .storeLeg } hnone
          rfl).trans ?_
        simp [StoresFirst, hc, hr]
      · exact iff_of_true (hnext .returned) trivial
    · split
      · exact hother (by simp [*]) (hnext .storeNumber)
      · exact hother (by simp [*]) h
    · exact hother (by simp [*]) (hnext .returned)
    · exact hother (by simp [*]) h

/-! ## The agent leg's `start` -/

/-- What a `start` that makes a session leaves behind. -/
theorem step_starts_eq {g : String} {act : Action} (h : a.Starts g act) :
    (step a act).creates = a.creates ∧ (step a act).twilio = a.twilio ∧
    (step a act).pendingGoals = a.pendingGoals ∧ (step a act).userLegs = a.userLegs ∧
    (step a act).fresh = a.fresh + 1 ∧ (∀ b < a.fresh, (step a act).heap b = a.heap b) ∧
    ((step a act).heap a.fresh).groupId = g ∧
    ((step a act).heap a.fresh).session.goal = (a.pendingGoals.get g).join ∧
    ((step a act).heap a.fresh).session.userLegSid = a.userLegs.get g := by
  cases act with
  | start k m =>
    obtain ⟨hk, hr, rfl, hb⟩ := h
    simp only [step, start, hk, ne_eq, not_true_eq_false, if_false, hr, startAgentLeg, hb]
    refine ⟨rfl, rfl, rfl, rfl, rfl, fun b hlt => ?_, ?_⟩
    · simp [App.setSocket, App.setBridge, Nat.ne_of_lt hlt]
    · simp [App.setSocket, App.setBridge, bindAgent, AgentSession.new]
  | _ => exact h.elim

/-- What is stored is the request's. -/
theorem stored_iff (hn : Noted a) (hc : a.creates.get group = some c) :
    (a.pendingGoals.get group).join = c.req.goal ∧ a.userLegs.get group = c.userLeg ↔ a.Stored group c := by
  unfold Stored
  refine and_congr ?_ ?_
  · cases hg : a.pendingGoals.get group with
    | none => simp [eq_comm]
    | some x =>
      obtain ⟨d, hd, hx⟩ := hn.goals group x hg
      rw [hc] at hd
      cases hd
      simp [hx]
  · cases hl : a.userLegs.get group with
    | none => simp [eq_comm]
    | some sid =>
      obtain ⟨d, hd, hx⟩ := hn.userLegs group sid hl
      rw [hc] at hd
      cases hd
      simp [hx]

theorem starts_carriesRequest_iff {act : Action} (hn : Noted a) (h : CarriesRequest a) (hs : a.Starts group act) :
    (step a act).CarriesRequest ↔ ∀ c, a.creates.get group = some c → a.Stored group c := by
  obtain ⟨hcr, -, -, -, hf, hold, hg, hgoal, hleg⟩ := step_starts_eq hs
  constructor
  · intro h' c hc
    have hnew := h' group c (by rw [hcr]; exact hc) a.fresh (by omega) hg
    rw [hgoal, hleg] at hnew
    exact (stored_iff hn hc).1 hnew
  · intro hst g c hc b hb hbg
    rw [hcr] at hc
    by_cases hlt : b < a.fresh
    · rw [hold b hlt] at hbg ⊢
      exact h g c hc b hlt hbg
    · obtain rfl : b = a.fresh := by omega
      have hgg : group = g := hg.symm.trans hbg
      subst hgg
      rw [hgoal, hleg]
      exact (stored_iff hn hc).2 (hst c hc)

/-! ## Every step -/

theorem step_noted (a : App) (act : Action) (h : Noted a) : Noted (step a act) := by
  by_cases hs : ∃ g, a.Starts g act
  · obtain ⟨g, hs⟩ := hs
    obtain ⟨hcr, htw, hp, hu, -⟩ := step_starts_eq hs
    refine ⟨?_, ?_, ?_⟩
    · rw [hcr, hp]; exact h.goals
    · rw [hcr, hu]; exact h.userLegs
    · rw [hcr, htw]; exact h.calls
  · by_cases hp : act.Places
    · cases act with
      | post g req placed => exact post_noted h g req placed
      | work g ring => exact work_noted h g ring
      | _ => exact hp.elim
    · exact h.keeps (step_moves a act (not_exists.1 hs) hp).keeps

theorem CarriesRequest.keeps (h : CarriesRequest a) (hk : Keeps a a') : CarriesRequest a' := by
  intro g c hc b hb hg
  rw [hk.creates] at hc
  rw [hk.fresh] at hb
  rw [(hk.goesOn b).groupId] at hg
  rw [(hk.goesOn b).goal, (hk.goesOn b).userLegSid]
  exact h g c hc b hb hg

theorem step_carriesRequest_iff (hn : Noted a) (h : CarriesRequest a) (act : Action) :
    (step a act).CarriesRequest ↔ a.StoresFirst act := by
  by_cases hs : ∃ g, a.Starts g act
  · obtain ⟨g, hs⟩ := hs
    refine (starts_carriesRequest_iff hn h hs).trans ?_
    cases act with
    | start k m =>
      obtain rfl : m.group = g := hs.2.2.1
      exact ⟨fun hst _ => hst, fun hst => hst hs⟩
    | _ => exact hs.elim
  · rw [not_exists] at hs
    by_cases hp : act.Places
    · cases act with
      | post g req placed => exact iff_of_true (post_carriesRequest h g req placed) trivial
      | work g ring => exact work_carriesRequest_iff hn h g ring
      | _ => exact hp.elim
    · refine iff_of_true (h.keeps (step_moves a act hs hp).keeps) ?_
      cases act with
      | start k m => exact fun hst => absurd hst (hs m.group)
      | work g ring => exact absurd trivial hp
      | _ => trivial

/-! ## Teardowns that are to hang up -/

/-- Giving up, a session hangs up the leg that the session of its group's bridge was given. -/
theorem hooks_hangUp {b d : Nat} {g leg : String} {es : List Effect} (hgive : ∃ e ∈ es, e.GivesUp)
    (hg : (a.heap b).groupId = g) (hb : a.bridges.get g = some d) (htw : a.twilio = true)
    (hl : (a.heap d).session.userLegSid = some leg) (hreal : RealSid leg) :
    .hangUp leg ∈ (es.foldl (hook b) a).log := by
  induction es generalizing a with
  | nil => simp at hgive
  | cons e es ih =>
    rw [List.foldl_cons]
    by_cases he : e.GivesUp
    · cases e with
      | onFail reason =>
        refine (moves_hooks b es _).keeps.log ?_
        simp only [hook, hg]
        exact teardownGroup_hangsUp hb htw hl hreal _
      | _ => exact he.elim
    · -- until then the group keeps its bridge
      have hs := (sameCall_hook (.inl he) : SameCall g a (hook b a e))
      have hrest : ∃ f ∈ es, f.GivesUp := by
        obtain ⟨f, hf, hfg⟩ := hgive
        rcases List.mem_cons.1 hf with rfl | hf
        · exact absurd hfg he
        · exact ⟨f, hf, hfg⟩
      exact ih hrest ((hs.groupId b).trans hg) (hs.bridges.trans hb) (hs.twilio.trans htw)
        ((hs.userLegSid d).trans hl)

/-- A session whose group has no bridge hangs nobody up. -/
theorem hook_unregistered {b : Nat} {leg : String} {e : Effect} (hb : a.bridges.get (a.heap b).groupId = none)
    (h : .hangUp leg ∈ (hook b a e).log) : .hangUp leg ∈ a.log := by
  cases e with
  | dtmfSender digits =>
    rcases (a.heap b).pressDtmf_cases digits a.now with hp | ⟨keys, hp⟩ <;> simp only [hook, hp] at h <;> exact h
  | onBridge =>
    have hsms : ∀ (t : App) (g body : String), .hangUp leg ∈ (t.sms g body).log → .hangUp leg ∈ t.log := by
      intro t g body hm
      obtain ⟨es, he, hes⟩ := t.sms_eq g body
      rw [he] at hm
      rcases List.mem_append.1 hm with hm | hm
      · exact hm
      · obtain ⟨n, hn⟩ := hes _ hm
        cases hn
    simp only [hook] at h
    split at h
    · exact hsms (a.setBridge b _) _ _ h
    · exact h
  | onFail reason =>
    simp only [hook, teardownGroup_none hb] at h
    exact h
  | _ => exact h

theorem hooks_unregistered {b : Nat} {leg : String} {es : List Effect}
    (hb : a.bridges.get (a.heap b).groupId = none) (h : .hangUp leg ∈ (es.foldl (hook b) a).log) :
    .hangUp leg ∈ a.log := by
  induction es generalizing a with
  | nil => exact h
  | cons e es ih =>
    have hk := (moves_hook b a e).keeps
    refine hook_unregistered hb (ih ?_ h)
    rw [(hk.goesOn b).groupId]
    cases hc : (hook b a e).bridges.get (a.heap b).groupId with
    | none => rfl
    | some d => rw [hk.bridges _ d hc] at hb; cases hb

/-- A teardown that finds no bridge asks nothing of Twilio. -/
theorem teardownGroup_unregistered (hb : a.bridges.get group = none) (reason : Option String) (hangUp : Bool) :
    (a.teardownGroup group reason hangUp).log = a.log := by
  rw [teardownGroup_none hb]
  rfl

/-- An agent leg that drops and is not redialled ends its group's call. -/
theorem finishAgentLeg_drops {b : Nat} {sawStop placed : Bool} (hrec : (a.heap b).reconnecting = false)
    (hs : sawStop = false) (hf : (a.heap b).session.finished = false)
    (hred : (a.redialAgentLeg group placed).2 = false) :
    a.finishAgentLeg b group sawStop placed =
      (a.redialAgentLeg group placed).1.teardownGroup group (some "dropped") true := by
  simp [finishAgentLeg, hrec, hs, hf, hred]

/-- Dialling again hangs nobody up. -/
theorem redialAgentLeg_hangUp {leg : String} {placed : Bool}
    (h : .hangUp leg ∈ (a.redialAgentLeg group placed).1.log) : .hangUp leg ∈ a.log := by
  unfold redialAgentLeg at h
  split at h
  · exact h
  · split at h
    · exact h
    · simpa [request] using h

/-- The reaper's teardown of one stale group. -/
theorem reap_hangUp {d : Nat} {leg : String} (hb : a.bridges.get group = some d)
    (hst : Stale (a.heap d) a.now) (htw : a.twilio = true) (hl : (a.heap d).session.userLegSid = some leg)
    (hreal : RealSid leg) : .hangUp leg ∈ a.reapStaleBridges.1.log := by
  have hinv : .hangUp leg ∈ a.reapStaleBridges.1.log ∨
      (a.reapStaleBridges.1.bridges.get group = some d ∧ a.reapStaleBridges.1.twilio = true ∧
        (a.reapStaleBridges.1.heap d).session.userLegSid = some leg) := by
    refine reapStaleBridges_keeps (P := fun t => .hangUp leg ∈ t.log ∨
      (t.bridges.get group = some d ∧ t.twilio = true ∧ (t.heap d).session.userLegSid = some leg)) ?_
      (.inr ⟨hb, htw, hl⟩)
    rintro t g c - - (hm | ⟨hb', htw', hl'⟩)
    · exact .inl ((moves_teardownGroup t g _ _).keeps.log hm)
    · by_cases hg : g = group
      · subst hg
        exact .inl (teardownGroup_hangsUp hb' htw' hl' hreal _)
      · have hs := sameCall_teardownGroup hg t (some "dropped") true
        exact .inr ⟨hs.bridges.trans hb', hs.twilio.trans htw', (hs.userLegSid d).trans hl'⟩
  -- the pass leaves no stale group registered
  rcases hinv with hm | ⟨hreg, -, -⟩
  · exact hm
  · rw [reapStaleBridges_bridges, if_pos ⟨d, hb, hst⟩] at hreg
    cases hreg

/-- The closing handler of an agent leg or of a user's. -/
theorem finish_eq {k b : Nat} {placed : Bool} (hc : (a.sockets k).phase = .closing)
    (hb : (a.sockets k).bridge = some b) :
    (step a (.finish k placed)).log =
      match (a.sockets k).role with
      | .agent => (a.finishAgentLeg b (a.sockets k).group (a.sockets k).sawStop placed).log
      | .user => (a.finishUserLeg b).log := by
  obtain ⟨t, he, -, hcase⟩ := a.finish_sockets k placed hc
  simp only [step, he]
  rcases hcase with ⟨c, hc', hr, rfl⟩ | ⟨c, hc', hr, rfl⟩ | ⟨hc', -⟩
  · rw [hb] at hc'; cases hc'; rw [hr]; rfl
  · rw [hb] at hc'; cases hc'; rw [hr]; rfl
  · rw [hb] at hc'; cases hc'

/-- A chunk on an agent leg. -/
theorem media_log {k b : Nat} (hp : (a.sockets k).phase = .receiving) (hr : (a.sockets k).role = .agent)
    (hb : (a.sockets k).bridge = some b) (payload : List UInt8) (ticks : List Tick) :
    (step a (.media k payload ticks)).log = (a.onAgentAudio b payload ticks).log := by
  simp only [step, media, hp, hr, hb]
  split <;> rfl

/-- **A teardown that finds a bridge hangs up the leg that the bridge's session was given.** -/
theorem tearsDown_registered {act : Action} {d : Nat} {leg : String} (h : a.TearsDown group act)
    (hb : a.bridges.get group = some d) (htw : a.twilio = true) (hl : (a.heap d).session.userLegSid = some leg)
    (hreal : RealSid leg) : .hangUp leg ∈ (step a act).log := by
  -- an object that goes on does not change which leg is known
  have hset : ∀ {b : Nat} {br : CallBridge}, GoesOn (a.heap b) br →
      ((a.setBridge b br).heap d).session.userLegSid = some leg := fun hg =>
    ((moves_setBridge a hg).keeps.goesOn d).userLegSid.trans hl
  cases act with
  | media k payload ticks =>
    obtain ⟨hp, hr, b, hk, hg, hf, hgive⟩ := h
    obtain ⟨br, hgo, hses, he⟩ := a.onAgentAudio_live hf payload ticks
    rw [media_log hp hr hk, he]
    rw [GaveUp, ← hses] at hgive
    exact hooks_hangUp hgive (by rw [setBridge_heap_self, hgo.groupId, hg]) hb htw (hset hgo) hreal
  | finish k placed =>
    obtain ⟨hc, b, hk, hf, hcase⟩ := h
    rw [finish_eq hc hk]
    rcases hcase with ⟨hr, hg, ho⟩ | ⟨hr, hg, hrec, hstop, hred⟩
    · obtain ⟨br, hgo, he⟩ := a.finishUserLeg_live ho hf
      simp only [hr, he, hg]
      exact teardownGroup_hangsUp (a := a.setBridge b br) hb htw (hset hgo) hreal _
    · simp only [hr, hg, finishAgentLeg_drops hrec hstop hf hred]
      have hs := sameCall_redialAgentLeg group a group placed
      exact teardownGroup_hangsUp (hs.bridges.trans hb) (hs.twilio.trans htw) ((hs.userLegSid d).trans hl) hreal _
  | reap =>
    obtain ⟨b, hb', hst⟩ := h
    rw [hb] at hb'
    cases hb'
    exact reap_hangUp hb hst htw hl hreal
  | _ => exact h.elim

/-- A teardown that finds none hangs nobody up. -/
theorem tearsDown_unregistered {act : Action} {leg : String} (h : a.TearsDown group act)
    (hb : a.bridges.get group = none) (hm : .hangUp leg ∈ (step a act).log) : .hangUp leg ∈ a.log := by
  cases act with
  | media k payload ticks =>
    obtain ⟨hp, hr, b, hk, hg, hf, -⟩ := h
    obtain ⟨br, hgo, -, he⟩ := a.onAgentAudio_live hf payload ticks
    rw [media_log hp hr hk, he] at hm
    exact hooks_unregistered (a := a.setBridge b br) (by rw [setBridge_heap_self, hgo.groupId, hg]; exact hb) hm
  | finish k placed =>
    obtain ⟨hc, b, hk, hf, hcase⟩ := h
    rw [finish_eq hc hk] at hm
    rcases hcase with ⟨hr, hg, ho⟩ | ⟨hr, hg, hrec, hstop, hred⟩
    · obtain ⟨br, -, he⟩ := a.finishUserLeg_live ho hf
      simp only [hr, he, hg] at hm
      rwa [teardownGroup_unregistered (by exact hb)] at hm
    · simp only [hr, hg, finishAgentLeg_drops hrec hstop hf hred] at hm
      have hs := sameCall_redialAgentLeg group a group placed
      rw [teardownGroup_unregistered (hs.bridges.trans hb)] at hm
      exact redialAgentLeg_hangUp hm
  | reap =>
    obtain ⟨b, hb', -⟩ := h
    rw [hb] at hb'
    cases hb'
  | _ => exact h.elim

/-- A teardown belongs to a step that moves piece by piece. -/
theorem TearsDown.keeps {act : Action} (h : a.TearsDown group act) : Keeps a (step a act) := by
  refine (step_moves a act (fun g hs => ?_) fun hp => ?_).keeps
  · cases act with
    | start k m => exact h
    | _ => exact hs
  · cases act with
    | post g req placed => exact h
    | work g ring => exact h
    | _ => exact hp

theorem step_hangsUpUser_iff (hwf : Wf a) (hn : Noted a) (h : CarriesRequest a) (act : Action) :
    a.HangsUpUser act ↔ a.FindsBridge act := by
  constructor
  · intro hhang group c leg hc hl hreal htd
    have hm := hhang group c leg hc hl hreal htd
    by_cases hb : a.bridges.get group = none
    · exact .inr (tearsDown_unregistered htd hb hm)
    · exact .inl hb
  · intro hfind group c leg hc hl hreal htd
    rcases hfind group c leg hc hl hreal htd with hb | hm
    · obtain ⟨d, hd⟩ := Option.ne_none_iff_exists'.1 hb
      obtain ⟨hlt, hg⟩ := hwf.registered group d hd
      have hses : (a.heap d).session.userLegSid = some leg := ((h group c hc d hlt hg).2).trans hl
      exact tearsDown_registered htd hd (hn.calls group c hc).1 hses hreal
    · exact htd.keeps.log hm

/-! ## Runs -/

/-- **`carriesRequest_iff`**: over every run of the registry, in every state passed through each session built
for a group has the goal and the user's leg of its request, and each teardown that is to hang up hangs up the
user's leg if it was rung, exactly when no agent leg starts a session before the goal and the leg are stored
or after they are cleared, the user is rung only before an agent leg has connected, and every such teardown
finds a bridge registered or the leg hung up before. -/
theorem carriesRequest_iff (settings : Settings) (key base : String) (twilio : Bool) (acts : List Action) :
    (Run.Always step CarriesRequest (App.new settings key base twilio) acts ∧
      Run.Along step HangsUpUser (App.new settings key base twilio) acts) ↔
    (Run.Along step StoresFirst (App.new settings key base twilio) acts ∧
      Run.Along step FindsBridge (App.new settings key base twilio) acts) := by
  have hcarries := Run.always_iff_along (I := Noted) (P := CarriesRequest) (C := StoresFirst) step_noted
    (fun a act hn h => step_carriesRequest_iff hn h act) acts _ (new_noted settings key base twilio) nofun
  have hhangs := Run.along_congr (I := fun a => Wf a ∧ Noted a ∧ CarriesRequest a) (C := StoresFirst)
    (P := HangsUpUser) (Q := FindsBridge)
    (fun a act hi hc =>
      ⟨step_wf a act hi.1, step_noted a act hi.2.1, (step_carriesRequest_iff hi.2.1 hi.2.2 act).2 hc⟩)
    (fun a act hi => step_hangsUpUser_iff hi.1 hi.2.1 hi.2.2 act) acts (App.new settings key base twilio)
    ⟨new_wf .., new_noted .., nofun⟩
  rw [hcarries]
  exact and_congr_right fun hst => hhangs hst

/-- The business answers before `create_call` has stored anything, and then the user is rung; after half a
second the line turns out to be a voicemail. -/
def answersEarly : List Action :=
  .post "g" { businessNumber := "+18005550111", userNumber := "+15145550166", goal := some "check my refund",
              business_long := by decide, user_long := by decide } true ::
    .start 0 { groupParam := "g", callSid := "CAagent", streamSid := "MZagent" } ::
    List.replicate 5 (.work "g" (some "CAuser")) ++ [hear 0 0 .voicemail]

/-- The session knows neither what the user wants nor who they are, and its end leaves them on the line. -/
theorem answersEarly_not_carried :
    ¬ Run.Always step CarriesRequest (App.new {} "" "https://dialpass.test" true)
        (answersEarly ++ [hear 0 4000 .voicemail]) ∧
      ¬ Run.Along step HangsUpUser (App.new {} "" "https://dialpass.test" true)
        (answersEarly ++ [hear 0 4000 .voicemail]) := by
  have hcall : ((Run.exec step (App.new {} "" "https://dialpass.test" true) answersEarly).creates.get "g").map
      (fun c => (c.req.goal, c.userLeg)) = some (some "check my refund", some "CAuser") := by decide +kernel
  obtain ⟨c, hc, he⟩ := Option.map_eq_some_iff.1 hcall
  obtain ⟨hgoal, hleg⟩ : c.req.goal = some "check my refund" ∧ c.userLeg = some "CAuser" := Prod.mk.inj he
  have hgroup : ((Run.exec step (App.new {} "" "https://dialpass.test" true) answersEarly).heap 0).groupId = "g" := by
    decide +kernel
  have hnone : ((Run.exec step (App.new {} "" "https://dialpass.test" true) answersEarly).heap 0).session.goal =
      none := by decide +kernel
  constructor
  · intro h
    have hcar := (h answersEarly (List.prefix_append ..) "g" c hc 0 (by decide +kernel) hgroup).1
    rw [hnone, hgoal] at hcar
    cases hcar
  · intro h
    have hlast := (Run.along_iff_split step HangsUpUser _ _).1 h answersEarly (hear 0 4000 .voicemail) [] rfl
    have hmem := hlast "g" c "CAuser" hc hleg (by decide)
      ⟨by decide +kernel, by decide +kernel, 0, by decide +kernel, hgroup, by decide +kernel, by decide +kernel⟩
    exact absurd hmem (by decide +kernel)

end App

end DialPass
