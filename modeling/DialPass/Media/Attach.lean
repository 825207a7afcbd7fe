import DialPass.Media.Registry
/-!
# The waiting user and the bridge that replaces theirs (media.py:157-192, media.py:254-269, media.py:310-318)

A user leg binds itself once, to the bridge it finds; a redial replaces the bridge. `Attached` says that
the registered bridge knows the user legs that are being served, and `attached_iff` which steps break it:
above all, a fresh agent leg that starts while the user waits.
-/

namespace DialPass

namespace App

open CallBridge

/-- Socket `k` serves a user leg of `group`. -/
def Served (a : App) (k : Nat) (group : String) : Prop :=
  (a.sockets k).role = .user ∧ (a.sockets k).phase = .receiving ∧ (a.sockets k).group = group

instance (a : App) (k : Nat) (group : String) : Decidable (a.Served k group) :=
  inferInstanceAs (Decidable (_ ∧ _))

/-- The bridge registered for a group has the stream of each user leg served for that group. -/
def Attached (a : App) : Prop :=
  ∀ k g b, a.Served k g → a.bridges.get g = some b → (a.heap b).userStreamSid = some (a.sockets k).streamSid

/-- The legs served for `group`, if any, have stream `sid`. -/
def OnlyServes (a : App) (group sid : String) : Prop := ∀ j, a.Served j group → (a.sockets j).streamSid = sid

/-- No fresh agent leg starts for a group whose user is being served; no user leg attaches next to another
one; and none ends next to another one on a registered bridge that is handing over or done. -/
def KeepsAttached (a : App) : Action → Prop
  | .start k m => (a.sockets k).phase = .idle →
      match m.role with
      | .agent => a.bridges.get m.group = none → ∀ j, ¬ a.Served j m.group
      | .user => a.bridges.get m.group ≠ none → a.OnlyServes m.group m.streamSid
  | .poll k => ∀ tries, (a.sockets k).phase = .attaching tries → tries ≠ userAttachTries →
      a.bridges.get (a.sockets k).group ≠ none → a.OnlyServes (a.sockets k).group (a.sockets k).streamSid
  | .finish k _ => (a.sockets k).phase = .closing → (a.sockets k).role = .user →
      ∀ b, (a.sockets k).bridge = some b → a.bridges.get (a.sockets k).group = some b →
        ((a.heap b).relayOpen = true ∨ (a.heap b).session.finished = true) →
        ∀ j, ¬ a.Served j (a.sockets k).group
  | _ => True

/-- Only a user leg waits for its bridge. -/
def Waits (a : App) : Prop := ∀ k tries, (a.sockets k).phase = .attaching tries → (a.sockets k).role = .user

theorem serveUserLeg_role (a : App) (k tries : Nat) :
    ((a.serveUserLeg k tries).sockets k).role = (a.sockets k).role := by
  unfold serveUserLeg
  dsimp only
  split
  · rw [setSocket_sockets_self]
  · split <;> rw [setSocket_sockets_self]

theorem step_waits (a : App) (act : Action) (h : Waits a) : Waits (step a act) := by
  intro j tries hp
  by_cases hj : act.socket? = some j
  swap
  · rw [step_sockets_ne a act hj] at hp ⊢
    exact h j tries hp
  cases act with
  | start k m =>
    cases hj
    simp only [step, start] at hp ⊢
    split at hp
    · rename_i hk
      rw [if_pos hk]
      exact h j tries hp
    · rename_i hk
      rw [if_neg hk]
      cases hr : m.role with
      | agent =>
        rw [hr] at hp
        unfold startAgentLeg at hp
        dsimp only at hp
        split at hp <;> simp at hp
      | user =>
        simp only
        rw [serveUserLeg_role, setSocket_sockets_self]
  | poll k =>
    cases hj
    simp only [step, poll] at hp ⊢
    split
    · rename_i t ht
      rw [serveUserLeg_role]
      exact h j t ht
    · rename_i ht
      split at hp
      · rename_i t ht'; exact absurd ht' (ht t)
      · exact absurd hp (ht tries)
  | media k payload ticks =>
    cases hj
    have hm : (step a (.media j payload ticks)).sockets j = a.sockets j ∨
        (step a (.media j payload ticks)).sockets j = { a.sockets j with phase := .closing } := by
      simp only [step, media]
      split
      · split
        · exact .inr (setSocket_sockets_self ..)
        · exact .inl (by rw [onAgentAudio_sockets])
      · exact .inl rfl
      · exact .inl rfl
    rcases hm with hm | hm <;> rw [hm] at hp ⊢
    · exact h j tries hp
    · cases hp
  | close k stop =>
    cases hj
    simp only [step, close] at hp ⊢
    split at hp <;> simp_all
    exact h j tries hp
  | finish k placed =>
    cases hj
    by_cases hc : (a.sockets j).phase = .closing
    · obtain ⟨a', he, -, -⟩ := a.finish_sockets j placed hc
      simp only [step, he, setSocket_sockets_self] at hp
      cases hp
    · simp only [step, a.finish_idle j placed hc] at hp ⊢
      exact h j tries hp
  | drain k =>
    cases hj
    obtain ⟨sent, he⟩ := (a.drain_same j).sockets j
    simp only [step, he] at hp ⊢
    exact h j tries hp
  | _ => cases hj

/-! ## What keeps it -/

/-- Nobody new is served, and no registered bridge is new or has lost its user. -/
theorem Attached.mono {a a' : App} (h : Attached a)
    (hs : ∀ k g, a'.Served k g → a.Served k g ∧ (a'.sockets k).streamSid = (a.sockets k).streamSid)
    (hb : ∀ g b, a'.bridges.get g = some b →
      a.bridges.get g = some b ∧ (a'.heap b).userStreamSid = (a.heap b).userStreamSid) : Attached a' := by
  intro k g b hk hreg
  obtain ⟨hk', hsid⟩ := hs k g hk
  obtain ⟨hreg', hu⟩ := hb g b hreg
  rw [hu, hsid]
  exact h k g b hk' hreg'

theorem Attached.same {a a' : App} (hs : Same a a') (h : Attached a) : Attached a' := by
  refine h.mono (fun k g hk => ?_) fun g b hb => ?_
  · obtain ⟨sent, he⟩ := hs.sockets k
    unfold Served at hk
    rw [he] at hk ⊢
    exact ⟨hk, rfl⟩
  · rw [hs.bridges] at hb
    exact ⟨hb, (hs.legs b).userStreamSid⟩

theorem Attached.teardownGroup {a : App} (h : Attached a) (group : String) (reason : Option String)
    (hangUp : Bool) : Attached (a.teardownGroup group reason hangUp) := by
  refine h.mono (fun k g hk => ?_) fun g b hb => ?_
  · unfold Served at hk
    rw [teardownGroup_sockets] at hk ⊢
    exact ⟨hk, rfl⟩
  · rw [teardownGroup_bridges] at hb
    split at hb
    · cases hb
    · exact ⟨hb, (teardownGroup_legs ..).userStreamSid⟩

theorem Attached.setBridge {a : App} (h : Attached a) {b : Nat} {br : CallBridge}
    (hb : br.userStreamSid = (a.heap b).userStreamSid) : Attached (a.setBridge b br) := by
  refine h.mono (fun k g hk => ⟨hk, rfl⟩) fun g c hc => ⟨hc, ?_⟩
  rw [setBridge_heap]
  split
  · rename_i hcb; rw [hcb, hb]
  · rfl

/-- A socket that is not served afterwards. -/
theorem Attached.setSocket {a : App} (h : Attached a) {k : Nat} {s : Socket}
    (hs : s.role = .agent ∨ s.phase ≠ .receiving) : Attached (a.setSocket k s) := by
  refine h.mono (fun j g hj => ?_) fun g b hb => ⟨hb, rfl⟩
  unfold Served at hj
  rw [setSocket_sockets] at hj ⊢
  split at hj
  · rcases hs with hs | hs
    · rw [hs] at hj; cases hj.1
    · exact absurd hj.2.1 hs
  · rename_i hjk
    rw [if_neg hjk]
    exact ⟨hj, rfl⟩

theorem finishAgentLeg_attached {a : App} (h : Attached a) (b : Nat) (group : String) (sawStop placed : Bool) :
    Attached (a.finishAgentLeg b group sawStop placed) := by
  rcases a.finishAgentLeg_cases b group sawStop placed with
    ⟨-, he⟩ | ⟨-, bridges, sessions, callMeta, log, hb, he⟩ | ⟨-, callMeta, log, reason, hangUp, he⟩ <;> rw [he]
  · exact h
  · have h0 : Attached { a with bridges, sessions, callMeta, log } := by
      refine h.mono (fun k g hk => ⟨hk, rfl⟩) fun g c hc => ⟨?_, rfl⟩
      dsimp only at hc
      rw [hb] at hc
      split at hc
      · rw [Dict.get_erase] at hc
        split at hc
        · cases hc
        · exact hc
      · exact hc
    exact h0.setBridge (close_userStreamSid _)
  · have h0 : Attached { a with callMeta, log } := h
    exact h0.teardownGroup _ _ _

/-! ## The steps that may break it -/

theorem startAgentLeg_attached_iff {a : App} (hw : Wf a) (h : Attached a) {k : Nat}
    (hk : (a.sockets k).phase = .idle) (m : Start) :
    Attached (a.startAgentLeg k m) ↔ (a.bridges.get m.group = none → ∀ j, ¬ a.Served j m.group) := by
  have hidle : ∀ g, ¬ a.Served k g := by
    rintro g ⟨-, hp, -⟩
    rw [hk] at hp
    cases hp
  unfold startAgentLeg
  dsimp only
  split
  · rename_i b hb
    refine iff_of_true ?_ fun hn => by rw [hb] at hn; cases hn
    refine Attached.setSocket (h.setBridge (b := b) ?_) (.inl rfl)
    rfl
  · rename_i hnone
    constructor
    · intro h' _ j hj
      have hjk : j ≠ k := by rintro rfl; exact hidle _ hj
      have hu := h' j m.group a.fresh (by
        unfold Served
        rw [setSocket_sockets_ne _ hjk]
        exact hj) (Dict.get_set_self ..)
      simp [App.setSocket, App.setBridge, bindAgent] at hu
    · intro hno
      refine Attached.setSocket ?_ (.inl rfl)
      intro j g c hj hc
      have hj' : a.Served j g := hj
      simp only [App.setBridge, Dict.get_set] at hc ⊢
      split at hc
      · rename_i hg
        rw [hg] at hj'
        exact absurd hj' (hno hnone j)
      · rw [Function.update_of_ne (Nat.ne_of_lt (hw.registered g c hc).1)]
        exact h j g c hj' hc

/-- One try of a user leg that is not served yet. -/
theorem serveUserLeg_attached_iff {a : App} (hw : Wf a) (h : Attached a) {k tries : Nat}
    (hr : (a.sockets k).role = .user) (hk : (a.sockets k).phase ≠ .receiving) :
    Attached (a.serveUserLeg k tries) ↔
      (tries ≠ userAttachTries → a.bridges.get (a.sockets k).group ≠ none →
        a.OnlyServes (a.sockets k).group (a.sockets k).streamSid) := by
  unfold serveUserLeg
  dsimp only
  split
  · rename_i ht
    exact iff_of_true (h.setSocket (.inr (by simp))) fun hn => absurd ht hn
  · rename_i ht
    split
    · rename_i b hb
      constructor
      · intro h' _ _ j hj
        have hjk : j ≠ k := by rintro rfl; exact hk hj.2.1
        have hu := h' j (a.sockets k).group b (by
          unfold Served
          rw [setSocket_sockets_ne _ hjk]
          exact hj) hb
        rw [setSocket_sockets_ne _ hjk] at hu
        simp only [App.setSocket, App.setBridge, Function.update_self, bindUser, Option.some.injEq] at hu
        exact hu.symm
      · intro hall j g c hj hc
        have hc' : a.bridges.get g = some c := hc
        have hheap : ((App.setBridge a b ((a.heap b).bindUser (a.sockets k).streamSid)).setSocket k
            { a.sockets k with phase := .receiving, bridge := some b }).heap c =
            if c = b then (a.heap b).bindUser (a.sockets k).streamSid else a.heap c := setBridge_heap ..
        rw [hheap]
        unfold Served at hj
        by_cases hjk : j = k
        · subst hjk
          rw [setSocket_sockets_self] at hj ⊢
          have hg : (a.sockets j).group = g := hj.2.2
          rw [← hg, hb] at hc'
          cases hc'
          rw [if_pos rfl]
          rfl
        · rw [setSocket_sockets_ne _ hjk] at hj ⊢
          by_cases hcb : c = b
          · rw [if_pos hcb]
            subst hcb
            have hg : g = (a.sockets k).group := by
              rw [← (hw.registered g c hc').2, (hw.registered _ c hb).2]
            exact congrArg some (hall ht (by rw [hb]; simp) j (hg ▸ hj)).symm
          · rw [if_neg hcb]
            exact h j g c hj hc'
    · rename_i hnone
      exact iff_of_true (h.setSocket (.inr (by simp))) fun _ hn => absurd hnone hn

theorem finishUserLeg_attached_iff {a : App} (hw : Wf a) (h : Attached a) {k b : Nat}
    (hb : (a.sockets k).bridge = some b) :
    Attached (a.finishUserLeg b) ↔
      (a.bridges.get (a.sockets k).group = some b →
        ((a.heap b).relayOpen = true ∨ (a.heap b).session.finished = true) →
        ∀ j, ¬ a.Served j (a.sockets k).group) := by
  have hgrp := (hw.held k b hb).2
  have hown : ∀ g, a.bridges.get g = some b → g = (a.sockets k).group := fun g hg => by
    rw [hgrp, (hw.registered g b hg).2]
  -- unless `b` is registered, unbinding it is seen by nobody
  have hoff : ∀ a' : App, a'.sockets = a.sockets →
      (∀ g c, a'.bridges.get g = some c → c ≠ b ∧ a.bridges.get g = some c ∧
        (a'.heap c).userStreamSid = (a.heap c).userStreamSid) → Attached a' := by
    intro a' hs hreg
    refine h.mono (fun j g hj => ?_) fun g c hc => (hreg g c hc).2
    unfold Served at hj
    rw [hs] at hj ⊢
    exact ⟨hj, rfl⟩
  unfold finishUserLeg
  dsimp only
  rw [setBridge_heap_self]
  by_cases hlive : (a.heap b).relayOpen = false ∧ (a.heap b).session.finished = false
  · rw [if_pos hlive]
    refine iff_of_true ?_ fun _ hd => ?_
    · have hab := advance_abort (a := a.setBridge b { a.heap b with userStreamSid := none }) (b := b)
        (by rw [setBridge_heap_self]; exact hlive.2) "user_left"
      rw [setBridge_heap_self] at hab
      rw [hab]
      refine hoff _ (teardownGroup_sockets ..) fun g c hc => ?_
      rw [teardownGroup_bridges] at hc
      split at hc
      · cases hc
      · rename_i hg
        have hc' : a.bridges.get g = some c := hc
        have hcb : c ≠ b := by
          rintro rfl
          exact hg ((hown g hc').trans hgrp)
        refine ⟨hcb, hc', ?_⟩
        rw [(teardownGroup_legs ..).userStreamSid, setBridge_heap_ne _ hcb, setBridge_heap_ne _ hcb]
    · rcases hd with hd | hd
      · rw [hlive.1] at hd; cases hd
      · rw [hlive.2] at hd; cases hd
  · rw [if_neg hlive]
    by_cases hreg : a.bridges.get (a.sockets k).group = some b
    · constructor
      · intro h' _ _ j hj
        have hu := h' j _ b hj hreg
        rw [setBridge_heap_self] at hu
        cases hu
      · intro hno
        have hd : (a.heap b).relayOpen = true ∨ (a.heap b).session.finished = true := by
          by_contra hn
          rw [not_or] at hn
          exact hlive ⟨by simpa using hn.1, by simpa using hn.2⟩
        intro j g c hj hc
        by_cases hcb : c = b
        · subst hcb
          have hj' : a.Served j g := hj
          rw [hown g hc] at hj'
          exact absurd hj' (hno hreg hd j)
        · rw [setBridge_heap_ne _ hcb]
          exact h j g c hj hc
    · refine iff_of_true (hoff _ rfl fun g c hc => ?_) fun hn => absurd hn hreg
      have hcb : c ≠ b := by
        rintro rfl
        exact hreg (hown g hc ▸ hc)
      exact ⟨hcb, hc, by rw [setBridge_heap_ne _ hcb]⟩

theorem finish_attached_iff {a : App} (hw : Wf a) (h : Attached a) (k : Nat) (placed : Bool) :
    Attached (a.finish k placed) ↔ a.KeepsAttached (.finish k placed) := by
  by_cases hc : (a.sockets k).phase = .closing
  swap
  · rw [a.finish_idle k placed hc]
    exact iff_of_true h fun hc' => absurd hc' hc
  obtain ⟨a', he, hs, hcase⟩ := a.finish_sockets k placed hc
  -- closing sockets are not served, so closing one for good changes nothing
  have hset : Attached (a'.setSocket k { a.sockets k with phase := .closed }) ↔ Attached a' := by
    refine ⟨fun h' => h'.mono (fun j g hj => ?_) fun g b hb => ⟨hb, rfl⟩, fun h' => h'.setSocket (.inr (by simp))⟩
    have hjk : j ≠ k := by
      rintro rfl
      rw [Served, hs, hc] at hj
      cases hj.2.1
    unfold Served
    rw [setSocket_sockets_ne _ hjk]
    exact ⟨hj, rfl⟩
  rw [he, hset]
  rcases hcase with ⟨b, -, hr, rfl⟩ | ⟨b, hb, hr, rfl⟩ | ⟨hb, rfl⟩
  · refine iff_of_true (finishAgentLeg_attached h _ _ _ _) fun _ hr' => ?_
    rw [hr] at hr'
    cases hr'
  · rw [finishUserLeg_attached_iff hw h hb]
    constructor
    · intro hk _ _ c hc'
      rw [hb] at hc'
      cases hc'
      exact hk
    · exact fun hk => hk hc hr b hb
  · refine iff_of_true h fun _ _ c hc' => ?_
    rw [hb] at hc'
    cases hc'

theorem step_attached_iff (a : App) (act : Action) (hi : Wf a ∧ Waits a) (h : Attached a) :
    Attached (step a act) ↔ a.KeepsAttached act := by
  obtain ⟨hw, hwait⟩ := hi
  cases act with
  | start k m =>
    simp only [step, start, KeepsAttached]
    by_cases hk : (a.sockets k).phase = .idle
    · rw [if_neg (by simpa using hk)]
      simp only [hk, forall_const]
      cases hr : m.role with
      | agent => exact startAgentLeg_attached_iff hw h hk m
      | user =>
        -- the socket turns into a user's that attaches
        have h1 : Attached (a.setSocket k
            { role := .user, phase := .attaching 0, group := m.group, streamSid := m.streamSid }) :=
          h.setSocket (.inr (by simp))
        have hw1 : Wf (a.setSocket k
            { role := .user, phase := .attaching 0, group := m.group, streamSid := m.streamSid }) :=
          hw.setSocket fun _ hb => by cases hb
        simp only
        rw [serveUserLeg_attached_iff hw1 h1 (by simp) (by simp)]
        simp only [setSocket_sockets_self]
        constructor
        · intro hall hn j hj
          have hjk : j ≠ k := by
            rintro rfl
            rw [Served, hk] at hj
            cases hj.2.1
          have hu := hall (by simp [userAttachTries]) hn j (by
            unfold Served
            rw [setSocket_sockets_ne _ hjk]
            exact hj)
          rw [setSocket_sockets_ne _ hjk] at hu
          exact hu
        · intro hall _ hn j hj
          have hjk : j ≠ k := by
            rintro rfl
            rw [Served, setSocket_sockets_self] at hj
            cases hj.2.1
          unfold Served at hj
          rw [setSocket_sockets_ne _ hjk] at hj ⊢
          exact hall hn j hj
    · rw [if_pos hk]
      exact iff_of_true h fun hk' => absurd hk' hk
  | poll k =>
    simp only [step, poll, KeepsAttached]
    split
    · rename_i tries hp
      rw [serveUserLeg_attached_iff hw h (hwait k tries hp) (by rw [hp]; simp)]
      constructor
      · intro hall t ht hne
        rw [hp] at ht
        cases ht
        exact hall hne
      · exact fun hall hne => hall tries hp hne
    · rename_i hp
      exact iff_of_true h fun tries ht => absurd ht (hp tries)
  | media k payload ticks =>
    refine iff_of_true (media_keeps (fun _ _ hs h => h.same hs) (fun _ _ _ h => ?_)
      (fun _ _ _ h => h.teardownGroup _ _ _) (fun _ _ _ h => h.setSocket (.inr (by simp))) h k payload ticks) trivial
    exact h.setBridge rfl
  | close k stop =>
    refine iff_of_true ?_ trivial
    simp only [step, close]
    split
    · exact h.setSocket (.inr (by simp))
    · exact h.setSocket (.inr (by simp))
    · exact h
  | finish k placed => exact finish_attached_iff hw h k placed
  | redirect n ok =>
    refine iff_of_true ?_ trivial
    rcases a.redirect_cases n ok with hs | ⟨r, redirects, log, -, -, -, he⟩
    · exact h.same hs
    · simp only [step, he]
      have h0 : Attached { a with redirects, log } := h
      exact h0.setBridge rfl
  | reap => exact iff_of_true (reapStaleBridges_keeps (fun _ _ _ _ _ h => h.teardownGroup _ _ _) h) trivial
  | _ => exact iff_of_true (h.same (same_of_inert a trivial)) trivial

/-- **`attached_iff`**: over every run of the registry, the bridge registered for a group always has the
stream of the user legs served for it, exactly when no fresh agent leg starts while one is served and no
two of them meet. -/
theorem attached_iff (settings : Settings) (key base : String) (twilio : Bool) (acts : List Action) :
    Run.Always step Attached (App.new settings key base twilio) acts ↔
      Run.Along step KeepsAttached (App.new settings key base twilio) acts :=
  Run.always_iff_along (fun a act hi => ⟨step_wf a act hi.1, step_waits a act hi.2⟩) step_attached_iff acts _
    ⟨new_wf .., fun _ _ ht => by cases ht⟩ fun _ _ _ _ hb => by cases hb

/-- The user waits on the line while the business's leg drops, is redialled and connects again. -/
def redialed : List Action :=
  answered "g" ++ [.start 1 { groupParam := "g", role := .user, callSid := "CAuser", streamSid := "MZuser" },
    .close 0 false, .finish 0 true, .start 2 { groupParam := "g", callSid := "CAagent2", streamSid := "MZagent2" }]

/-- The new bridge knows of no user. -/
theorem redialed_not_attached :
    ¬ Attached (Run.exec step (App.new {} "" "https://dialpass.test" true) redialed) := by
  intro h
  have hu := h 1 "g" 1 (by decide +kernel) (by decide +kernel)
  revert hu
  decide +kernel

end App

end DialPass
