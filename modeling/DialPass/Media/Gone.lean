import DialPass.Media.Handoff
import DialPass.Media.Pieces
/-!
# The user who hangs up before the handoff (media.py:157-192, media.py:242-270, media.py:195-212)

The end of a user's leg aborts the session the leg had attached to, which tears its group down. Nothing
remembers that the user has gone: a session that took the group over in between is not aborted, and a late
`start` of an agent leg makes a new one. Every other step only ever takes bridges off the registry and ends
sessions (`Dwindles`). `spared_iff` is exact.
-/

namespace DialPass

open CallBridge

namespace App

/-- Nobody navigates or holds for the group: a bridge it may have is one whose session is over. -/
def Idle (group : String) (a : App) : Prop :=
  ∀ b, a.bridges.get group = some b → (a.heap b).session.finished = true

instance (group : String) (a : App) : Decidable (a.Idle group) :=
  inferInstanceAs (Decidable (∀ b, a.bridges.get group = some b → (a.heap b).session.finished = true))

/-- The groups whose user hangs up in the step, before their relay has opened. -/
def hangsUp (a : App) : Action → List String
  | .finish k _ =>
    match (a.sockets k).bridge with
    | some b =>
      if (a.sockets k).phase = .closing ∧ (a.sockets k).role = .user ∧ (a.heap b).relayOpen = false then
        [(a.heap b).groupId]
      else []
    | none => []
  | _ => []

/-! ## Fewer bridges, and more of them over -/

/-- No bridge is registered that was not, and no session that was over goes on. -/
structure Dwindles (a a' : App) : Prop where
  bridges : ∀ g b, a'.bridges.get g = some b → a.bridges.get g = some b
  finished : ∀ b, (a.heap b).session.finished = true → (a'.heap b).session.finished = true

variable {a a' a'' : App} {group : String}

theorem Dwindles.refl (a : App) : Dwindles a a := ⟨fun _ _ => id, fun _ => id⟩

theorem Dwindles.trans (h : Dwindles a a') (h' : Dwindles a' a'') : Dwindles a a'' :=
  ⟨fun g b hb => h.bridges g b (h'.bridges g b hb), fun b hb => h'.finished b (h.finished b hb)⟩

theorem Idle.dwindles (h : a.Idle group) (hd : Dwindles a a') : a'.Idle group := fun b hb =>
  hd.finished b (h b (hd.bridges group b hb))

/-- Nothing is registered, and every object keeps its session. -/
theorem Dwindles.of_heap (hb : a'.bridges = a.bridges) (hh : a'.heap = a.heap) : Dwindles a a' :=
  ⟨fun g b h => by rwa [hb] at h, fun b h => by rwa [hh]⟩

theorem dwindles_setBridge (a : App) {b : Nat} {br : CallBridge}
    (h : (a.heap b).session.finished = true → br.session.finished = true) : Dwindles a (a.setBridge b br) := by
  refine ⟨fun _ _ => id, fun c hc => ?_⟩
  rw [setBridge_heap]
  split
  · rename_i hcb; rw [hcb] at hc; exact h hc
  · exact hc

theorem Piece.dwindles (h : Piece a a') : Dwindles a a' := by
  cases h with
  | aside hb hh => exact .of_heap hb hh
  | bridge h => exact dwindles_setBridge a h.finished
  | pop g =>
    refine ⟨fun g' b hb => ?_, fun _ => id⟩
    simp only [Dict.get_erase] at hb
    split at hb
    · cases hb
    · exact hb
  | clear g => exact .of_heap rfl rfl

theorem Moves.dwindles (h : Moves a a') : Dwindles a a' := h.lift Dwindles.refl Dwindles.trans Piece.dwindles

/-- **Only a `start` that finds no bridge makes the registry more than it was.** -/
theorem step_dwindles (a : App) (act : Action) (h : ∀ g, ¬ a.Starts g act) : Dwindles a (step a act) := by
  by_cases hp : act.Places
  · cases act with
    | post g req placed => exact .of_heap (post_same a g req placed).bridges (post_heap ..)
    | work g ring => exact .of_heap (work_same a g ring).bridges (work_heap ..)
    | _ => exact hp.elim
  · exact (step_moves a act h hp).dwindles

/-- A `start` that finds no bridge leaves the group with a new session. -/
theorem step_starts {act : Action} (h : a.Starts group act) : ¬ (step a act).Idle group := by
  cases act with
  | start k m =>
    obtain ⟨hk, hr, rfl, hb⟩ := h
    intro hidle
    have hreg : (step a (.start k m)).bridges.get m.group = some a.fresh := by
      simp only [step, start, hk, ne_eq, not_true_eq_false, if_false, hr, startAgentLeg, hb]
      simp [App.setSocket, App.setBridge]
    have hlive : ((step a (.start k m)).heap a.fresh).session.finished = false := by
      simp only [step, start, hk, ne_eq, not_true_eq_false, if_false, hr, startAgentLeg, hb]
      simp [App.setSocket, App.setBridge, bindAgent, AgentSession.new]
    rw [hidle a.fresh hreg] at hlive
    cases hlive
  | _ => exact h.elim

/-- And every other group as it was. -/
theorem Idle.starts {g : String} {act : Action} (hwf : Wf a) (h : a.Starts g act) (hne : group ≠ g)
    (hidle : a.Idle group) : (step a act).Idle group := by
  cases act with
  | start k m =>
    obtain ⟨hk, hr, rfl, hb⟩ := h
    intro b hreg
    simp only [step, start, hk, ne_eq, not_true_eq_false, if_false, hr, startAgentLeg, hb] at hreg ⊢
    simp only [App.setSocket, App.setBridge, Dict.get_set, if_neg hne] at hreg ⊢
    rw [Function.update_of_ne (Nat.ne_of_lt (hwf.registered group b hreg).1)]
    exact hidle b hreg
  | _ => exact h.elim

/-! ## The end of a user's leg -/

theorem mem_hangsUp {act : Action} (h : group ∈ a.hangsUp act) : ∃ k placed b, act = .finish k placed ∧
    a.Leaves act b ∧ (a.heap b).relayOpen = false ∧ (a.heap b).groupId = group := by
  cases act with
  | finish k placed =>
    simp only [hangsUp] at h
    split at h
    · rename_i b hb
      split at h
      · rename_i hc
        rw [List.mem_singleton] at h
        exact ⟨k, placed, b, rfl, ⟨hc.1, hc.2.1, hb⟩, hc.2.2, h.symm⟩
      · cases h
    · cases h
  | _ => cases h

/-- A session that is over is not aborted, and whoever has the group keeps it. -/
theorem finishUserLeg_over_idle {b : Nat} (hf : (a.heap b).session.finished = true) :
    (a.finishUserLeg b).Idle group ↔ a.Idle group := by
  constructor
  · intro h c hc
    unfold finishUserLeg at h
    dsimp only at h
    rw [setBridge_heap_self, if_neg (by simp [hf])] at h
    have hcf := h c hc
    rw [setBridge_heap] at hcf
    split at hcf
    · rename_i hcb; rw [hcb]; exact hf
    · exact hcf
  · intro h
    exact h.dwindles (moves_finishUserLeg a b).dwindles

/-! ## Runs -/

/-- The registry, and the groups whose user has hung up. -/
structure Watch where
  app : App
  gone : List String := []

namespace Watch

def step (w : Watch) (act : Action) : Watch :=
  { app := App.step w.app act, gone := w.gone ++ w.app.hangsUp act }

/-- Nobody navigates or holds for a user who has gone. -/
def Spared (w : Watch) : Prop := ∀ group ∈ w.gone, w.app.Idle group

instance (w : Watch) : Decidable w.Spared := inferInstanceAs (Decidable (∀ _ ∈ _, _))

/-- A user who hangs up leaves a session that is live, or a group that has no other; and nobody starts a
session for a group whose user has gone. -/
def EndsWithUser (w : Watch) (act : Action) : Prop :=
  (∀ b, w.app.Leaves act b → (w.app.heap b).relayOpen = false →
    (w.app.heap b).session.finished = false ∨ w.app.Idle (w.app.heap b).groupId) ∧
  ∀ group ∈ w.gone, ¬ w.app.Starts group act

/-- What a step leaves alone stays idle. -/
theorem idle_step {w : Watch} {act : Action} {group : String} (hwf : Wf w.app) (hs : ¬ w.app.Starts group act)
    (h : w.app.Idle group) : (App.step w.app act).Idle group := by
  by_cases hany : ∃ g, w.app.Starts g act
  · obtain ⟨g, hg⟩ := hany
    refine h.starts hwf hg ?_
    rintro rfl
    exact hs hg
  · exact h.dwindles (step_dwindles w.app act (not_exists.1 hany))

theorem step_spared_iff (w : Watch) (act : Action) (hwf : Wf w.app) (h : w.Spared) :
    (step w act).Spared ↔ w.EndsWithUser act := by
  constructor
  · intro hs
    constructor
    · intro b hl hr
      cases act with
      | finish k placed =>
        cases hf : (w.app.heap b).session.finished with
        | false => exact .inl rfl
        | true =>
          have hmem : (w.app.heap b).groupId ∈ w.app.hangsUp (.finish k placed) := by
            simp [hangsUp, hl.1, hl.2.1, hl.2.2, hr]
          obtain ⟨s, he⟩ := finish_leaves hl
          have hidle : (App.step w.app (.finish k placed)).Idle (w.app.heap b).groupId :=
            hs _ (List.mem_append_right _ hmem)
          rw [he] at hidle
          exact .inr ((finishUserLeg_over_idle hf).1 hidle)
      | _ => exact hl.elim
    · intro group hg hst
      exact step_starts hst (hs group (List.mem_append_left _ hg))
  · rintro ⟨hleave, hstart⟩ group hg
    rcases List.mem_append.1 hg with hg | hg
    · exact idle_step hwf (hstart group hg) (h group hg)
    · obtain ⟨k, placed, b, rfl, hl, hr, rfl⟩ := mem_hangsUp hg
      rcases hleave b hl hr with hf | hidle
      · obtain ⟨s, he⟩ := finish_leaves hl
        obtain ⟨br, -, hend⟩ := w.app.finishUserLeg_live hr hf
        intro c hc
        -- whichever bridge was registered for the group, it is torn down
        have hc' : (w.app.finishUserLeg b).bridges.get (w.app.heap b).groupId = some c := by
          rw [step, he] at hc
          exact hc
        rw [hend, teardownGroup_bridges, if_pos rfl] at hc'
        cases hc'
      · exact idle_step hwf id hidle

/-- **`spared_iff`**: over every run of the registry, once a user's leg that had attached has ended before the
handoff, no unfinished session is registered for its group, or made for it, any more, exactly when every such
leg leaves a live session behind or a group that has no other, and no agent leg starts afterwards while the
group has no bridge. -/
theorem spared_iff (settings : Settings) (key base : String) (twilio : Bool) (acts : List Action) :
    Run.Always step Spared { app := App.new settings key base twilio } acts ↔
      Run.Along step EndsWithUser { app := App.new settings key base twilio } acts :=
  Run.always_iff_along (fun w act hwf => step_wf w.app act hwf) step_spared_iff acts _ (new_wf ..)
    (by simp [Spared])

/-- The agent leg drops and is redialled; the user hangs up before the redialled leg is there. -/
def redialled : List Action :=
  answered "g" ++ [.start 1 { groupParam := "g", role := .user, callSid := "CAuser", streamSid := "MZuser" },
    .close 0 false, .finish 0 true, .close 1 true, .finish 1 true,
    .start 2 { groupParam := "g", callSid := "CAagain", streamSid := "MZagain" }]

/-- The redialled leg gets a session of its own, for nobody. -/
theorem redialled_not_spared :
    ¬ (Run.exec step { app := App.new {} "" "https://dialpass.test" true } redialled).Spared := by
  decide +kernel

end Watch

end App

end DialPass
