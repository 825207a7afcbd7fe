import DialPass.Media.Notify
import DialPass.Media.Pieces
/-!
# What a call may cost (media.py:53, media.py:68-101, media.py:195-212, calls.py:49-75)

A request to `/calls` gives its group a budget: the call itself and `maxRedials` redials, and one fallback text.
What is left of it is in the registry (the redials not made yet, the number kept to text) or still to come from
`create_call`. No step spends more than is left (`step_dials`, `step_texted`), whoever takes it.
-/

namespace DialPass

open CallBridge

/-- A call placed for `group`. -/
def Twilio.isDial (group : String) : Twilio → Bool
  | .placeOutboundCall _ _ g => g = group
  | _ => false

/-- The redials `create_call` has yet to allow. -/
def CreateStep.redialsToCome : CreateStep → Nat
  | .storeGoal | .storeMeta => maxRedials
  | _ => 0

/-- Whether `create_call` may still keep the user's number. -/
def CreateStep.textsToCome : CreateStep → Nat
  | .returned => 0
  | _ => 1

namespace App

/-- How often the business was called for `group`. -/
def dials (a : App) (group : String) : Nat := a.log.countP (·.isDial group)

def redialsLeft (a : App) (group : String) : Nat := ((a.callMeta.get group).map (maxRedials - ·.redials)).getD 0

def textsLeft (a : App) (group : String) : Nat := (a.userNumbers.get group).isSome.toNat

/-- What comes of the `create_call` under way. -/
def toCome (f : CreateStep → Nat) (a : App) (group : String) : Nat := ((a.creates.get group).map (f ·.next)).getD 0

/-- What the group has cost, and may still. -/
def dialBudget (a : App) (group : String) : Nat :=
  a.dials group + a.redialsLeft group + a.toCome CreateStep.redialsToCome group

def textBudget (a : App) (group : String) : Nat :=
  (a.texts group).length + a.textsLeft group + a.toCome CreateStep.textsToCome group

/-- The step draws on what the registry has left for the group, and no more. -/
structure Frugal (group : String) (a a' : App) : Prop where
  creates : a'.creates.get group = a.creates.get group
  dials : a'.dials group + a'.redialsLeft group ≤ a.dials group + a.redialsLeft group
  texts : (a'.texts group).length + a'.textsLeft group ≤ (a.texts group).length + a.textsLeft group

variable {group : String} {a a' a'' : App}

theorem Frugal.refl (group : String) (a : App) : Frugal group a a := ⟨rfl, le_rfl, le_rfl⟩

theorem Frugal.trans (h : Frugal group a a') (h' : Frugal group a' a'') : Frugal group a a'' :=
  ⟨h'.creates.trans h.creates, h'.dials.trans h.dials, h'.texts.trans h.texts⟩

theorem Frugal.of_fields (hc : a'.creates = a.creates) (hm : a'.callMeta = a.callMeta)
    (hu : a'.userNumbers = a.userNumbers) (hl : a'.log = a.log) : Frugal group a a' := by
  refine ⟨by rw [hc], ?_, ?_⟩
  · simp only [App.dials, redialsLeft, hm, hl, le_refl]
  · simp only [App.texts, textsLeft, hu, hl, le_refl]

/-- Other requests. -/
theorem frugal_log (a : App) {es : List Twilio}
    (h : ∀ t ∈ es, t.isDial group = false ∧ t.isFallback group = false) :
    Frugal group a { a with log := a.log ++ es } := by
  have hd : es.countP (·.isDial group) = 0 := List.countP_eq_zero.2 fun t ht => by simp [(h t ht).1]
  have hf : es.filter (·.isFallback group) = [] := List.filter_eq_nil_iff.2 fun t ht => by simp [(h t ht).2]
  refine ⟨rfl, ?_, ?_⟩
  · simp [App.dials, redialsLeft, List.countP_append, hd]
  · simp [App.texts, textsLeft, hf]

theorem frugal_setBridge (a : App) (b : Nat) (br : CallBridge) : Frugal group a (a.setBridge b br) :=
  .of_fields rfl rfl rfl rfl

theorem frugal_setSocket (a : App) (k : Nat) (s : Socket) : Frugal group a (a.setSocket k s) :=
  .of_fields rfl rfl rfl rfl

theorem frugal_sms (a : App) {g body : String} (h : g ≠ group ∨ body = userSms) : Frugal group a (a.sms g body) := by
  obtain ⟨es, he, hes⟩ := a.sms_eq g body
  rw [he]
  refine frugal_log a fun t ht => ?_
  obtain ⟨n, rfl⟩ := hes t ht
  rcases h with h | h <;> simp [Twilio.isDial, Twilio.isFallback, h]

theorem frugal_hangUp (a : App) (sid : Option String) : Frugal group a (a.hangUp sid) := by
  obtain ⟨es, he, hes⟩ := a.hangUp_eq sid
  rw [he]
  refine frugal_log a fun t ht => ?_
  obtain ⟨s, -, rfl⟩ := Option.map_eq_some_iff.1 (hes t ht)
  exact ⟨rfl, rfl⟩

theorem frugal_hangUpLegs (a : App) (s : AgentSession) (hangUp : Bool) :
    Frugal group a (a.hangUpLegs s hangUp) := by
  cases hangUp with
  | false => exact .refl group a
  | true => exact (frugal_hangUp a _).trans (frugal_hangUp _ _)

/-! ## Teardowns -/

theorem frugal_clearContext (a : App) (g : String) : Frugal group a (a.clearContext g) := by
  refine ⟨rfl, Nat.add_le_add_left ?_ _, Nat.add_le_add_left ?_ _⟩
  · simp only [redialsLeft, clearContext, Dict.get_erase]
    split <;> simp
  · simp only [textsLeft, clearContext, Dict.get_erase]
    split <;> simp

/-- The text is paid for with the number, which is then forgotten. -/
theorem frugal_sms_clearContext (a : App) (g body : String) : Frugal group a ((a.sms g body).clearContext g) := by
  by_cases hg : g = group
  swap
  · exact (frugal_sms a (.inl hg)).trans (frugal_clearContext _ g)
  subst hg
  unfold sms
  split
  · rename_i number hn
    split
    · refine ⟨rfl, ?_, ?_⟩
      · simp [App.dials, redialsLeft, clearContext, request, Twilio.isDial, List.countP_append]
      · simp only [textsLeft, clearContext, request, Dict.get_erase_self, hn, App.texts, List.filter_append,
          List.length_append, Option.isSome_none, Option.isSome_some, Bool.toNat_false, Bool.toNat_true]
        have h1 := List.length_filter_le (·.isFallback g) [Twilio.sendSms g number body]
        simp only [List.length_singleton] at h1
        omega
    · exact frugal_clearContext a g
  · exact frugal_clearContext a g

theorem hangUp_clearContext (a : App) (g : String) (sid : Option String) :
    (a.hangUp sid).clearContext g = (a.clearContext g).hangUp sid := by
  unfold hangUp
  split
  · exact apply_ite (fun t => App.clearContext t g) _ _ _
  · rfl

theorem hangUpLegs_clearContext (a : App) (g : String) (s : AgentSession) (hangUp : Bool) :
    (a.hangUpLegs s hangUp).clearContext g = (a.clearContext g).hangUpLegs s hangUp := by
  cases hangUp with
  | false => rfl
  | true => simp only [hangUpLegs, if_true, hangUp_clearContext]

theorem frugal_teardownGroup (a : App) (g : String) (reason : Option String) (hangUp : Bool) :
    Frugal group a (a.teardownGroup g reason hangUp) := by
  cases hb : a.bridges.get g with
  | none =>
    rw [teardownGroup_none hb]
    exact frugal_clearContext a g
  | some b =>
    rw [teardownGroup_registered hb]
    show Frugal group a (App.setBridge (App.clearContext (App.hangUpLegs _ _ _) g) b _)
    rw [hangUpLegs_clearContext]
    refine Frugal.trans ?_ ((frugal_hangUpLegs _ _ _).trans (frugal_setBridge _ b _))
    have h0 : Frugal group a
        { a with bridges := a.bridges.erase g, sessions := a.sessions.erase (a.heap b).session.callId } :=
      .of_fields rfl rfl rfl rfl
    cases reason with
    | none => exact h0.trans (frugal_clearContext _ g)
    | some r => exact h0.trans (frugal_sms_clearContext _ g _)

/-! ## Every other piece of code -/

theorem frugal_hook (b : Nat) (a : App) (e : Effect) : Frugal group a (hook b a e) := by
  cases e with
  | dtmfSender digits =>
    rcases (a.heap b).pressDtmf_cases digits a.now with h | ⟨keys, h⟩ <;> simp only [hook, h]
    · exact frugal_setBridge a b _
    · exact .of_fields rfl rfl rfl rfl
  | onBridge =>
    simp only [hook]
    rcases (a.heap b).beginHandoff_cases a.openaiApiKey with ⟨-, h⟩ | ⟨-, -, h⟩ | ⟨-, -, h⟩ | ⟨-, -, h⟩ <;>
      simp only [h]
    · exact frugal_setBridge a b _
    · exact frugal_setBridge a b _
    · exact (frugal_setBridge a b _).trans (frugal_sms _ (.inr rfl))
    · exact frugal_setBridge a b _
  | onFail reason => exact frugal_teardownGroup ..
  | _ => exact .refl group a

theorem frugal_advance (a : App) (b : Nat) (s : AgentSession) : Frugal group a (a.advance b s) := by
  unfold advance
  refine (frugal_setBridge a b { a.heap b with session := s }).trans ?_
  generalize a.setBridge b { a.heap b with session := s } = t
  generalize s.trace.drop (a.heap b).session.trace.length = es
  induction es generalizing t with
  | nil => exact .refl group t
  | cons e es ih => exact (frugal_hook b t e).trans (ih _)

theorem frugal_onAgentAudio (a : App) (b : Nat) (ulaw : List UInt8) (ticks : List Tick) :
    Frugal group a (a.onAgentAudio b ulaw ticks) := by
  have h0 : Frugal group a (a.setBridge b ((a.heap b).relayAgentAudio ulaw)) := frugal_setBridge ..
  unfold onAgentAudio
  dsimp only
  split
  · exact h0
  · exact h0.trans (frugal_advance ..)

theorem frugal_finishUserLeg (a : App) (b : Nat) : Frugal group a (a.finishUserLeg b) := by
  have h0 : Frugal group a (a.setBridge b { a.heap b with userStreamSid := none }) := frugal_setBridge ..
  unfold finishUserLeg
  dsimp only
  split
  · exact h0.trans (frugal_advance ..)
  · exact h0

/-- A redial is one fewer left. -/
theorem frugal_redialAgentLeg (a : App) (g : String) (placed : Bool) :
    Frugal group a (a.redialAgentLeg g placed).1 := by
  unfold redialAgentLeg
  split
  · exact .refl group a
  · rename_i m hm
    split
    · exact .refl group a
    · rename_i hno
      have hlt : m.redials < maxRedials := by simp only [not_or, not_le] at hno; exact hno.2.2
      refine ⟨rfl, ?_, ?_⟩
      · by_cases hg : g = group
        · subst hg
          simp only [App.dials, redialsLeft, request, Dict.get_set_self, hm, Option.map_some, Option.getD_some,
            List.countP_append, List.countP_singleton, Twilio.isDial, decide_true, if_true]
          omega
        · simp [App.dials, redialsLeft, request, Dict.get_set, Ne.symm hg, List.countP_append, Twilio.isDial, hg]
      · simp [App.texts, textsLeft, request, Twilio.isFallback]

theorem frugal_finishAgentLeg (a : App) (b : Nat) (g : String) (sawStop placed : Bool) :
    Frugal group a (a.finishAgentLeg b g sawStop placed) := by
  have hred : Frugal group a (a.redialAgentLeg g placed).1 := frugal_redialAgentLeg a g placed
  unfold finishAgentLeg
  dsimp only
  split
  · exact .refl group a
  · split
    · split
      · refine hred.trans ?_
        split <;> exact .of_fields rfl rfl rfl rfl
      · exact hred.trans (frugal_teardownGroup ..)
    · exact frugal_teardownGroup ..

theorem frugal_finish (a : App) (k : Nat) (placed : Bool) : Frugal group a (a.finish k placed) := by
  by_cases hc : (a.sockets k).phase = .closing
  · obtain ⟨t, he, -, hcase⟩ := a.finish_sockets k placed hc
    rw [he]
    refine Frugal.trans ?_ (frugal_setSocket ..)
    rcases hcase with ⟨b, -, -, rfl⟩ | ⟨b, -, -, rfl⟩ | ⟨-, rfl⟩
    · exact frugal_finishAgentLeg ..
    · exact frugal_finishUserLeg ..
    · exact .refl group t
  · rw [a.finish_idle k placed hc]
    exact .refl group a

theorem frugal_serveUserLeg (a : App) (k tries : Nat) : Frugal group a (a.serveUserLeg k tries) := by
  unfold serveUserLeg
  dsimp only
  split
  · exact frugal_setSocket ..
  · split <;> exact .of_fields rfl rfl rfl rfl

theorem frugal_startAgentLeg (a : App) (k : Nat) (m : Start) : Frugal group a (a.startAgentLeg k m) := by
  unfold startAgentLeg
  dsimp only
  split <;> exact .of_fields rfl rfl rfl rfl

theorem frugal_waitDrained (a : App) (b left : Nat) : Frugal group a (a.waitDrained b left) := by
  unfold waitDrained
  rcases (a.heap b).waitDrained_cases left with h | ⟨n, h⟩ <;> simp only [h]
  · exact (frugal_setBridge a b _).trans (frugal_sms _ (.inr rfl))
  · exact frugal_setBridge a b _

theorem frugal_media (a : App) (k : Nat) (payload : List UInt8) (ticks : List Tick) :
    Frugal group a (a.media k payload ticks) := by
  unfold media
  dsimp only
  split
  · rename_i b _ _ _
    have h : Frugal group a (a.onAgentAudio b payload ticks) := frugal_onAgentAudio ..
    split
    · exact h.trans (frugal_setSocket ..)
    · exact h
  · exact frugal_setBridge a _ _
  · exact .refl group a

theorem frugal_redirect (a : App) (n : Nat) (ok : Bool) : Frugal group a (a.redirect n ok) := by
  unfold redirect
  split
  · exact .refl group a
  · rename_i r _
    have h0 : Frugal group a { a with redirects := a.redirects.eraseIdx n } := .of_fields rfl rfl rfl rfl
    dsimp only
    split
    · exact h0
    · rename_i callId url _
      have hpress : ∀ t ∈ [Twilio.pressDigits callId r.keys url], t.isDial group = false ∧ t.isFallback group = false := by
        simp [Twilio.isDial, Twilio.isFallback]
      have h1 := h0.trans (frugal_log _ hpress)
      split
      · exact h1
      · exact h1.trans (frugal_setBridge _ _ _)

/-- The step has to do with neither end of a `create_call`. -/
theorem frugal_step (a : App) (act : Action) (hp : ¬ act.Places) : Frugal group a (step a act) := by
  cases act with
  | post g req placed => exact absurd trivial hp
  | work g ring => exact absurd trivial hp
  | start k m =>
    simp only [step, start]
    split
    · exact .refl group a
    · split
      · exact frugal_startAgentLeg ..
      · exact (frugal_setSocket a k _).trans (frugal_serveUserLeg ..)
  | poll k =>
    simp only [step, poll]
    split
    · exact frugal_serveUserLeg a k _
    · exact .refl group a
  | media k payload ticks => exact frugal_media ..
  | close k stop =>
    simp only [step, close]
    split
    · exact frugal_setSocket ..
    · exact frugal_setSocket ..
    · exact .refl group a
  | finish k placed => exact frugal_finish ..
  | drain k =>
    simp only [step, drain]
    split
    · exact .of_fields rfl rfl rfl rfl
    · exact .refl group a
  | redirect n ok => exact frugal_redirect ..
  | spoken b =>
    simp only [step, spoken]
    split
    · exact frugal_waitDrained a b _
    · exact .refl group a
  | drained b =>
    simp only [step, drained]
    split
    · exact frugal_waitDrained a b _
    · exact .refl group a
  | play b pcm =>
    simp only [step, play]
    split
    · exact frugal_setBridge ..
    · exact .refl group a
  | probe b running =>
    simp only [step, probe]
    split
    · exact frugal_setBridge ..
    · exact .refl group a
  | reap =>
    exact reapStaleBridges_keeps (P := Frugal group a) (fun t g _ _ _ h => h.trans (frugal_teardownGroup t g _ _))
      (.refl group a)
  | wait dt => exact .of_fields rfl rfl rfl rfl

/-! ## `create_call` -/

theorem Frugal.dialBudget_le (h : Frugal group a a') : a'.dialBudget group ≤ a.dialBudget group := by
  have hd := h.dials
  simp only [dialBudget, toCome, h.creates]
  omega

theorem Frugal.textBudget_le (h : Frugal group a a') : a'.textBudget group ≤ a.textBudget group := by
  have ht := h.texts
  simp only [textBudget, toCome, h.creates]
  omega

/-- The call of another group is being placed. -/
theorem frugal_work {g : String} (hne : g ≠ group) (a : App) (ring : Option String) :
    Frugal group a (a.work g ring) := by
  have hset : ∀ (t : App) (c : CreateCall), Frugal group t { t with creates := t.creates.set g c } := fun t c =>
    ⟨by simp [Dict.get_set, Ne.symm hne], le_rfl, le_rfl⟩
  have hmeta : ∀ m, Frugal group a { a with callMeta := a.callMeta.set g m } := fun m =>
    ⟨rfl, by simp [App.dials, redialsLeft, Dict.get_set, Ne.symm hne], le_rfl⟩
  have hnum : ∀ n, Frugal group a { a with userNumbers := a.userNumbers.set g n } := fun n =>
    ⟨rfl, le_rfl, by simp [App.texts, textsLeft, Dict.get_set, Ne.symm hne]⟩
  have hring : ∀ n u, Frugal group a (a.request (.ringUser n u g)) := fun n u =>
    frugal_log a (by simp [Twilio.isDial, Twilio.isFallback])
  have hside : ∀ goals legs, Frugal group a { a with pendingGoals := goals, userLegs := legs } := fun _ _ =>
    .of_fields rfl rfl rfl rfl
  unfold work
  split
  · exact .refl group a
  · rename_i c _
    dsimp only
    split
    · exact (hside (a.pendingGoals.set g c.req.goal) a.userLegs).trans (hset _ _)
    · exact (hmeta _).trans (hset _ _)
    · split
      · exact (hring _ _).trans (hset _ _)
      · exact (hring _ _).trans (hset _ _)
    · split
      · exact (hside a.pendingGoals (a.userLegs.set g _)).trans (hset _ _)
      · exact .refl group a
    · exact (hnum _).trans (hset _ _)
    · exact .refl group a

/-- What `create_call` allows it takes from what was to come. -/
theorem work_budget (group : String) (a : App) (g : String) (ring : Option String) :
    (a.work g ring).dialBudget group ≤ a.dialBudget group ∧
      (a.work g ring).textBudget group ≤ a.textBudget group := by
  by_cases hg : g = group
  swap
  · exact ⟨(frugal_work hg a ring).dialBudget_le, (frugal_work hg a ring).textBudget_le⟩
  subst hg
  unfold work
  split
  · exact ⟨le_rfl, le_rfl⟩
  · rename_i c hc
    simp only [dialBudget, textBudget, toCome, hc, Option.map_some, Option.getD_some]
    cases hn : c.next with
    | storeGoal => simp [App.dials, App.texts, redialsLeft, textsLeft, CreateStep.redialsToCome, CreateStep.textsToCome]
    | storeMeta =>
      -- the redials come into the registry
      simp [App.dials, App.texts, redialsLeft, textsLeft, CreateStep.redialsToCome, CreateStep.textsToCome]
    | ringUser =>
      cases ring <;>
        simp [App.dials, App.texts, redialsLeft, textsLeft, CreateStep.redialsToCome, CreateStep.textsToCome, request,
          Twilio.isDial, Twilio.isFallback]
    | storeLeg =>
      cases c.userLeg <;>
        simp [hc, hn, App.dials, App.texts, redialsLeft, textsLeft, CreateStep.redialsToCome, CreateStep.textsToCome]
    | storeNumber =>
      -- and the number
      simp [App.dials, App.texts, redialsLeft, textsLeft, CreateStep.redialsToCome, CreateStep.textsToCome]
    | returned => simp [hc, hn]

theorem post_budget (group : String) (a : App) (g : String) (req : CallRequest) (placed : Bool) :
    (a.post g req placed).dialBudget group ≤ a.dialBudget group + (if g = group then 1 + maxRedials else 0) ∧
      (a.post g req placed).textBudget group ≤ a.textBudget group + (if g = group then 1 else 0) := by
  unfold post
  split
  · exact ⟨Nat.le_add_right _ _, Nat.le_add_right _ _⟩
  · rename_i hno
    have hfree : a.creates.get g = none := by
      rw [not_or] at hno
      by_contra hc
      exact hno.1 (.inl (Option.isSome_iff_ne_none.2 hc))
    dsimp only
    by_cases hg : g = group
    · subst hg
      split <;>
        simp [dialBudget, textBudget, toCome, hfree, App.dials, App.texts, redialsLeft, textsLeft, request,
          List.countP_append, Twilio.isDial, Twilio.isFallback, CreateStep.redialsToCome, CreateStep.textsToCome] <;>
        omega
    · split <;>
        simp [dialBudget, textBudget, toCome, App.dials, App.texts, redialsLeft, textsLeft, request, Dict.get_set,
          Ne.symm hg, hg, List.countP_append, Twilio.isDial, Twilio.isFallback]

/-- A request to `/calls` draws this group id. -/
def Action.posts (group : String) : Action → Bool
  | .post g _ _ => g = group
  | _ => false

theorem step_budget (group : String) (a : App) (act : Action) :
    (step a act).dialBudget group ≤ a.dialBudget group + (1 + maxRedials) * (act.posts group).toNat ∧
      (step a act).textBudget group ≤ a.textBudget group + (act.posts group).toNat := by
  by_cases hp : act.Places
  · cases act with
    | post g req placed =>
      obtain ⟨hd, ht⟩ := post_budget group a g req placed
      simp only [step, Action.posts]
      by_cases hg : g = group <;> simp [hg] at hd ht ⊢ <;> omega
    | work g ring =>
      obtain ⟨hd, ht⟩ := work_budget group a g ring
      exact ⟨hd.trans (Nat.le_add_right _ _), ht.trans (Nat.le_add_right _ _)⟩
    | _ => exact hp.elim
  · have h : Frugal group a (step a act) := frugal_step a act hp
    exact ⟨h.dialBudget_le.trans (Nat.le_add_right _ _), h.textBudget_le.trans (Nat.le_add_right _ _)⟩

/-- Over a run, every request to `/calls` pays for one call, its redials and one text. -/
theorem exec_budget (group : String) (acts : List Action) (a : App) :
    (Run.exec step a acts).dialBudget group ≤ a.dialBudget group + (1 + maxRedials) * acts.countP (·.posts group) ∧
      (Run.exec step a acts).textBudget group ≤ a.textBudget group + acts.countP (·.posts group) := by
  induction acts generalizing a with
  | nil => simp
  | cons act acts ih =>
    obtain ⟨hd, ht⟩ := step_budget group a act
    obtain ⟨hd', ht'⟩ := ih (step a act)
    have hc : (act :: acts).countP (·.posts group) = (act.posts group).toNat + acts.countP (·.posts group) := by
      cases h : act.posts group <;> simp [h, Nat.add_comm]
    rw [Run.exec_cons, hc, Nat.mul_add]
    omega

end App

end DialPass
