import DialPass.Media.Registry
/-!
# Keypresses, reconnects and the sockets they leave behind (media.py:131-147, media.py:242-252, media.py:300-308)

A keypress redirects the agent leg: the old socket closes and a new one starts for the same group, in
either order. Two laws:

* `SparesSuccessor` — a socket that has been replaced, or is to be, ends without touching the call, whichever
  bridge it holds itself. The closing socket asks its own bridge's `reconnecting` alone (media.py:305), which the
  new start has cleared if it came first; `spares_iff` is exact.
* `Kept` — a registered bridge has an agent socket, or is waiting for one with the reaper's clock set. A
  redirect that fails clears `reconnecting` (media.py:145) even when the socket has already gone;
  `kept_iff` is exact.
-/

namespace DialPass

/-- `press_dtmf` redirects the leg for the effect: there is a key to press (bridge.py:124). -/
def Effect.redirects : Effect → Bool
  | .dtmfSender digits => digits.toList.any (· ∈ CallBridge.dtmfKeys)
  | _ => false

namespace App

open CallBridge

/-! ## The end of a superseded socket -/

/-- The handler of this agent socket still runs with bridge `b`. -/
def Carries (s : Socket) (b : Nat) : Prop :=
  s.bridge = some b ∧ s.role = .agent ∧ (s.phase = .receiving ∨ s.phase = .closing)

/-- A key has been pressed in the group's call (bridge.py:120). -/
def Keyed (a : App) (group : String) : Prop :=
  ∃ b < a.fresh, (a.heap b).groupId = group ∧ ∃ e ∈ (a.heap b).session.trace, e.redirects = true

/-- Bridge `b` waits for a new stream, or talks to that of an agent socket other than `k`. -/
def Succeeded (a : App) (k b : Nat) : Prop :=
  (a.heap b).reconnecting = true ∨
    ∃ j, j ≠ k ∧ Carries (a.sockets j) b ∧ (a.heap b).agentStreamSid = some (a.sockets j).streamSid

/-- Socket `k` is an agent socket in its `finally`, and a key has been pressed in its group's call, which is now
that of bridge `b`: the registered one, with another stream or waiting for it. -/
def Superseded (a : App) (k b : Nat) : Prop :=
  (a.sockets k).role = .agent ∧ (a.sockets k).phase = .closing ∧ a.Keyed (a.sockets k).group ∧
    a.bridges.get (a.sockets k).group = some b ∧ a.Succeeded k b

/-- The call of bridge `b` goes on: registered, not closed, and nothing asked of Twilio. -/
def GoesOn (a a' : App) (group : String) (b : Nat) : Prop :=
  a'.bridges.get group = some b ∧ (a'.heap b).closed = (a.heap b).closed ∧
    (a'.heap b).session.exec.closed = (a.heap b).session.exec.closed ∧ a'.log = a.log

instance (a : App) (group : String) : Decidable (a.Keyed group) := inferInstanceAs (Decidable (∃ _, _ ∧ _))

/-- The step does not end the call of a superseded socket's successor. -/
def SparesSuccessor (a : App) : Action → Prop
  | .finish k placed => ∀ b, a.Superseded k b → GoesOn a (a.finish k placed) (a.sockets k).group b
  | _ => True

/-- A superseded socket ends only while its own bridge waits for a reconnect. -/
def EndsInFlight (a : App) : Action → Prop
  | .finish k _ => ∀ b, a.Superseded k b → ∀ own, (a.sockets k).bridge = some own →
      (a.heap own).reconnecting = true
  | _ => True

/-- A redial that is placed is asked of Twilio. -/
theorem redialAgentLeg_places {a : App} {group : String} {placed : Bool}
    (h : (a.redialAgentLeg group placed).2 = true) : ∃ t, (a.redialAgentLeg group placed).1.log = a.log ++ [t] := by
  unfold redialAgentLeg at h ⊢
  split at h
  · cases h
  · split at h
    · cases h
    · rename_i hno
      rw [if_neg hno]
      exact ⟨_, rfl⟩

/-- Every way for an agent leg's handler to end, other than leaving the bridge alone, unregisters the group's
bridge or dials again. -/
theorem finishAgentLeg_ends {a : App} (b : Nat) (group : String) (hr : (a.heap b).reconnecting = false)
    (sawStop placed : Bool) : (a.finishAgentLeg b group sawStop placed).bridges.get group = none ∨
      (a.finishAgentLeg b group sawStop placed).log ≠ a.log := by
  unfold finishAgentLeg
  dsimp only
  rw [if_neg (by simp [hr])]
  cases hd : (!sawStop && !(a.heap b).session.finished) with
  | false => exact .inl (by simp [teardownGroup_bridges])
  | true =>
    simp only [if_true]
    cases hp : (a.redialAgentLeg group placed).2 with
    | false => exact .inl (by simp [teardownGroup_bridges])
    | true =>
      obtain ⟨t, ht⟩ := redialAgentLeg_places hp
      refine .inr ?_
      simp only [if_true]
      split <;> simp [setBridge, ht]

theorem step_spares_iff (a : App) (act : Action) : a.SparesSuccessor act ↔ a.EndsInFlight act := by
  cases act with
  | finish k placed =>
    simp only [SparesSuccessor, EndsInFlight]
    refine forall_congr' fun c => forall_congr' fun hsup => ?_
    obtain ⟨hrole, hph, -, hreg, -⟩ := hsup
    obtain ⟨a', he, -, hcase⟩ := a.finish_sockets k placed hph
    have hspared : a' = a → GoesOn a (a'.setSocket k { a.sockets k with phase := .closed }) (a.sockets k).group c := by
      rintro rfl
      exact ⟨hreg, rfl, rfl, rfl⟩
    rw [he]
    rcases hcase with ⟨b, hb, -, ha'⟩ | ⟨b, -, hr, -⟩ | ⟨hb, ha'⟩
    · constructor
      · intro hgo own hown
        rw [hb] at hown
        cases hown
        by_contra hr
        have hr' : (a.heap b).reconnecting = false := by simpa using hr
        rcases finishAgentLeg_ends b (a.sockets k).group hr' (a.sockets k).sawStop placed with hun | hlog
        · have hreg' : a'.bridges.get (a.sockets k).group = some c := hgo.1
          rw [ha', hun] at hreg'
          cases hreg'
        · have hlog' : a'.log = a.log := hgo.2.2.2
          exact hlog (ha' ▸ hlog')
      · intro hr
        apply hspared
        rcases a.finishAgentLeg_cases b (a.sockets k).group (a.sockets k).sawStop placed with
          ⟨-, h⟩ | ⟨hr', -⟩ | ⟨hr', -⟩
        · rw [ha', h]
        · rw [hr b hb] at hr'; cases hr'
        · rw [hr b hb] at hr'; cases hr'
    · rw [hrole] at hr
      cases hr
    · -- the socket never started a stream
      refine iff_of_true (hspared ha') fun own hown => ?_
      rw [hb] at hown
      cases hown
  | _ => exact Iff.rfl

/-- **`spares_iff`**: over every run of the registry, no agent socket of a call in which a key has been pressed
ends its successor's call exactly when each of them ends while its own bridge waits for a reconnect. -/
theorem spares_iff (settings : Settings) (key base : String) (twilio : Bool) (acts : List Action) :
    Run.Along step SparesSuccessor (App.new settings key base twilio) acts ↔
      Run.Along step EndsInFlight (App.new settings key base twilio) acts :=
  Run.along_iff (I := fun _ => True) (fun _ _ _ => trivial) (fun a act _ => step_spares_iff a act) acts _ trivial

/-- The key is pressed and Twilio redirects the leg; the new stream starts before the old one is gone. -/
def startsFirst : List Action :=
  answered "g" ++ keyed ++ [.redirect 0 true,
    .start 1 { groupParam := "g", callSid := "CAagent", streamSid := "MZagent2" }, .close 0 false]

/-- The new stream drops and the business is dialled again, before the old one is gone. -/
def redialsFirst : List Action :=
  answered "g" ++ keyed ++ [.redirect 0 true,
    .start 1 { groupParam := "g", callSid := "CAagent", streamSid := "MZagent2" }, .close 1 false, .finish 1 true,
    .start 2 { groupParam := "g", callSid := "CAagent2", streamSid := "MZagent3" }, .close 0 true]

/-- A superseded socket that takes the bridge with it. -/
theorem not_spared {a : App} {acts : List Action} {k b : Nat} {placed : Bool}
    (hsup : (Run.exec step a acts).Superseded k b)
    (hend : ((Run.exec step a acts).finish k placed).bridges.get ((Run.exec step a acts).sockets k).group ≠ some b) :
    ¬ Run.Along step SparesSuccessor a (acts ++ [.finish k placed]) := by
  intro h
  rw [Run.along_append, Run.along_cons] at h
  exact hend (h.2.1 b hsup).1

/-- The old socket's end drops the bridge its successor is talking to, be it its own or a fresh one. -/
theorem startsFirst_redialsFirst_not_spared :
    ¬ Run.Along step SparesSuccessor (App.new {} "" "https://dialpass.test" true)
        (startsFirst ++ [.finish 0 true]) ∧
      ¬ Run.Along step SparesSuccessor (App.new {} "" "https://dialpass.test" true)
        (redialsFirst ++ [.finish 0 true]) := by
  constructor
  · refine not_spared (b := 0) ⟨by decide +kernel, by decide +kernel, by decide +kernel, by decide +kernel, .inr ?_⟩
      (by decide +kernel)
    exact ⟨1, by decide, ⟨by decide +kernel, by decide +kernel, .inl (by decide +kernel)⟩, by decide +kernel⟩
  · refine not_spared (b := 1) ⟨by decide +kernel, by decide +kernel, by decide +kernel, by decide +kernel, .inr ?_⟩
      (by decide +kernel)
    exact ⟨2, by decide, ⟨by decide +kernel, by decide +kernel, .inl (by decide +kernel)⟩, by decide +kernel⟩

/-! ## No bridge without a socket -/

def HasAgent (a : App) (b : Nat) : Prop := ∃ k, Carries (a.sockets k) b

/-- The reaper will collect it once the grace window has passed (media.py:111). -/
def Collectable (br : CallBridge) : Prop := br.reconnecting = true ∧ br.reconnectSince.isSome = true

def Kept (a : App) : Prop := ∀ g b, a.bridges.get g = some b → HasAgent a b ∨ Collectable (a.heap b)

/-- A redirect fails on a registered bridge only while it still has an agent socket. -/
def FailsAttended (a : App) : Action → Prop
  | .redirect n false => ∀ r, a.redirects[n]? = some r → (a.heap r.bridge).dtmfRedirect ≠ none →
      ∀ g, a.bridges.get g = some r.bridge → HasAgent a r.bridge
  | _ => True

/-- A bridge waiting for its reconnect has the time it began to wait. -/
def Stamped (a : App) : Prop :=
  ∀ b, (a.heap b).reconnecting = true → (a.heap b).reconnectSince.isSome = true

theorem Stamped.setBridge {a : App} (h : Stamped a) {b : Nat} {br : CallBridge}
    (hb : br.reconnecting = true → br.reconnectSince.isSome = true) : Stamped (a.setBridge b br) := by
  intro c
  rw [setBridge_heap]
  split
  · exact hb
  · exact h c

theorem Stamped.same {a a' : App} (hs : Same a a') (h : Stamped a) : Stamped a' := by
  intro b hb
  rw [(hs.legs b).reconnecting] at hb
  rw [(hs.legs b).reconnectSince]
  exact h b hb

theorem Stamped.teardownGroup {a : App} (h : Stamped a) (group : String) (reason : Option String)
    (hangUp : Bool) : Stamped (a.teardownGroup group reason hangUp) := by
  intro b hb
  have hl := teardownGroup_legs a group reason hangUp b
  rw [hl.reconnecting] at hb
  rw [hl.reconnectSince]
  exact h b hb

theorem finishAgentLeg_stamped {a : App} (h : Stamped a) (b : Nat) (group : String) (sawStop placed : Bool) :
    Stamped (a.finishAgentLeg b group sawStop placed) := by
  rcases a.finishAgentLeg_cases b group sawStop placed with
    ⟨-, he⟩ | ⟨-, bridges, sessions, callMeta, log, -, he⟩ | ⟨-, callMeta, log, reason, hangUp, he⟩ <;> rw [he]
  · exact h
  · refine Stamped.setBridge (a := { a with bridges, sessions, callMeta, log }) h ?_
    rw [close_reconnecting, close_reconnectSince]
    exact h b
  · exact Stamped.teardownGroup (a := { a with callMeta, log }) h _ _ _

theorem serveUserLeg_stamped {a : App} (h : Stamped a) (k tries : Nat) : Stamped (a.serveUserLeg k tries) := by
  unfold serveUserLeg
  dsimp only
  split
  · exact h
  · split
    · rename_i b _
      exact h.setBridge (b := b) (h b)
    · exact h

theorem step_stamped (a : App) (act : Action) (h : Stamped a) : Stamped (step a act) := by
  cases act with
  | start k m =>
    simp only [step, start]
    split
    · exact h
    · split
      · unfold startAgentLeg
        dsimp only
        split
        · exact h.setBridge (by simp)
        · exact h.setBridge (by simp [bindAgent])
      · exact serveUserLeg_stamped (a := a.setSocket k _) h k 0
  | poll k =>
    simp only [step, poll]
    split
    · exact serveUserLeg_stamped h k _
    · exact h
  | media k payload ticks =>
    exact media_keeps (fun _ _ hs h => h.same hs) (fun _ _ _ h => h.setBridge fun _ => rfl)
      (fun _ _ _ h => h.teardownGroup _ _ _) (fun _ _ _ h => h) h k payload ticks
  | close k stop =>
    simp only [step, close]
    split <;> exact h
  | finish k placed =>
    by_cases hc : (a.sockets k).phase = .closing
    · obtain ⟨a', he, -, hcase⟩ := a.finish_sockets k placed hc
      simp only [step, he]
      show Stamped a'
      rcases hcase with ⟨b, -, -, rfl⟩ | ⟨b, -, -, rfl⟩ | ⟨-, rfl⟩
      · exact finishAgentLeg_stamped h _ _ _ _
      · exact finishUserLeg_keeps (fun _ _ hs h => h.same hs) (fun _ _ h => h.setBridge fun _ => rfl)
          (fun _ _ h => h.teardownGroup _ _ _) (h.setBridge (h b))
      · exact h
    · simp only [step, a.finish_idle k placed hc]
      exact h
  | redirect n ok =>
    rcases a.redirect_cases n ok with hs | ⟨r, redirects, log, -, -, -, he⟩
    · exact h.same hs
    · simp only [step, he]
      exact Stamped.setBridge (a := { a with redirects, log }) h (by simp)
  | reap => exact reapStaleBridges_keeps (fun _ _ _ _ _ h => h.teardownGroup _ _ _) h
  | _ => exact h.same (same_of_inert a trivial)

/-! ### What keeps `Kept` -/

theorem Carries.same {s s' : Socket} {b : Nat} (h : Carries s b) (hs : ∃ sent, s' = { s with sent }) :
    Carries s' b := by
  obtain ⟨sent, rfl⟩ := hs
  exact h

theorem Kept.same {a a' : App} (hs : Same a a') (h : Kept a) : Kept a' := by
  intro g b hb
  rw [hs.bridges] at hb
  rcases h g b hb with ⟨k, hk⟩ | hc
  · exact .inl ⟨k, hk.same (hs.sockets k)⟩
  · refine .inr ?_
    unfold Collectable
    rw [(hs.legs b).reconnecting, (hs.legs b).reconnectSince]
    exact hc

/-- A socket may change as long as it goes on carrying what it carried. -/
theorem Kept.setSocket {a : App} (h : Kept a) {k : Nat} {s : Socket}
    (hs : ∀ b, Carries (a.sockets k) b → Carries s b) : Kept (a.setSocket k s) := by
  intro g b hb
  rcases h g b hb with ⟨j, hj⟩ | hc
  · refine .inl ⟨j, ?_⟩
    rw [setSocket_sockets]
    split
    · rename_i hjk; exact hs b (hjk ▸ hj)
    · exact hj
  · exact .inr hc

theorem Kept.setBridge {a : App} (h : Kept a) {b : Nat} {br : CallBridge}
    (hb : Collectable (a.heap b) → Collectable br) : Kept (a.setBridge b br) := by
  intro g c hc
  rcases h g c hc with hk | hcol
  · exact .inl hk
  · refine .inr ?_
    rw [setBridge_heap]
    split
    · rename_i hcb; exact hb (hcb ▸ hcol)
    · exact hcol

theorem Kept.teardownGroup {a : App} (h : Kept a) (group : String) (reason : Option String) (hangUp : Bool) :
    Kept (a.teardownGroup group reason hangUp) := by
  intro g b hb
  rw [teardownGroup_bridges] at hb
  split at hb
  · cases hb
  · have hl := teardownGroup_legs a group reason hangUp b
    rcases h g b hb with ⟨k, hk⟩ | hc
    · exact .inl ⟨k, by rw [teardownGroup_sockets]; exact hk⟩
    · refine .inr ?_
      unfold Collectable
      rw [hl.reconnecting, hl.reconnectSince]
      exact hc

theorem startAgentLeg_kept {a : App} (hw : Wf a) (h : Kept a) {k : Nat} (hk : (a.sockets k).phase = .idle)
    (m : Start) : Kept (a.startAgentLeg k m) := by
  have hidle : ∀ b, ¬ Carries (a.sockets k) b := by
    rintro b ⟨-, -, hp | hp⟩ <;> rw [hk] at hp <;> cases hp
  unfold startAgentLeg
  dsimp only
  split
  · rename_i b hb
    intro g c hc
    by_cases hcb : c = b
    · subst hcb
      exact .inl ⟨k, by simp [Carries]⟩
    · rcases h g c hc with ⟨j, hj⟩ | hcol
      · refine .inl ⟨j, ?_⟩
        rw [setSocket_sockets_ne _ (by rintro rfl; exact hidle c hj)]
        exact hj
      · refine .inr ?_
        rw [show ((App.setBridge a b _).setSocket k _).heap c = (App.setBridge a b _).heap c from rfl,
          setBridge_heap_ne a hcb]
        exact hcol
  · intro g c hc
    simp only [App.setSocket, App.setBridge, Dict.get_set] at hc
    split at hc
    · cases hc
      exact .inl ⟨k, by simp [Carries]⟩
    · have hlt := (hw.registered g c hc).1
      rcases h g c hc with ⟨j, hj⟩ | hcol
      · refine .inl ⟨j, ?_⟩
        rw [setSocket_sockets_ne _ (by rintro rfl; exact hidle c hj)]
        exact hj
      · refine .inr ?_
        simp only [App.setSocket, App.setBridge]
        rw [Function.update_of_ne (Nat.ne_of_lt hlt)]
        exact hcol

theorem serveUserLeg_kept {a : App} (h : Kept a) {k : Nat} (hk : ∀ b, ¬ Carries (a.sockets k) b) (tries : Nat) :
    Kept (a.serveUserLeg k tries) := by
  unfold serveUserLeg
  dsimp only
  split
  · exact h.setSocket fun b hb => absurd hb (hk b)
  · split
    · rename_i b _
      refine Kept.setSocket (h.setBridge (b := b) ?_) fun c hc => absurd hc (hk c)
      exact fun hc => hc
    · exact h.setSocket fun b hb => absurd hb (hk b)

/-- An agent leg's handler leaves a registered bridge without it only to a reconnect. -/
theorem finishAgentLeg_kept {a : App} (hw : Wf a) (hst : Stamped a) (h : Kept a) {k b : Nat}
    (hb : (a.sockets k).bridge = some b) (sawStop placed : Bool) :
    ∀ g c, (a.finishAgentLeg b (a.sockets k).group sawStop placed).bridges.get g = some c →
      (∃ j, j ≠ k ∧ Carries (a.sockets j) c) ∨
        Collectable ((a.finishAgentLeg b (a.sockets k).group sawStop placed).heap c) := by
  have hown : ∀ g, a.bridges.get g = some b → g = (a.sockets k).group := by
    intro g hg
    rw [(hw.held k b hb).2, (hw.registered g b hg).2]
  have hother : ∀ g c, a.bridges.get g = some c → c ≠ b →
      (∃ j, j ≠ k ∧ Carries (a.sockets j) c) ∨ Collectable (a.heap c) := by
    intro g c hg hne
    rcases h g c hg with ⟨j, hj⟩ | hcol
    · refine .inl ⟨j, fun he => hne ?_, hj⟩
      have := hj.1
      rw [he, hb] at this
      exact (Option.some.inj this).symm
    · exact .inr hcol
  intro g c hc
  rcases a.finishAgentLeg_cases b (a.sockets k).group sawStop placed with
    ⟨hr, he⟩ | ⟨-, bridges, sessions, callMeta, log, hbr, he⟩ | ⟨-, callMeta, log, reason, hangUp, he⟩ <;>
    rw [he] at hc ⊢
  · by_cases hcb : c = b
    · exact .inr (hcb ▸ ⟨hr, hst b hr⟩)
    · exact hother g c hc hcb
  · have hc' : bridges.get g = some c := hc
    rw [hbr] at hc'
    have hne : c ≠ b := by
      rintro rfl
      by_cases hreg : a.bridges.get (a.sockets k).group = some c
      · rw [if_pos hreg, Dict.get_erase] at hc'
        split at hc'
        · cases hc'
        · rename_i hg; exact hg (hown g hc')
      · rw [if_neg hreg] at hc'
        exact hreg (hown g hc' ▸ hc')
    have hreg : a.bridges.get g = some c := by
      split at hc'
      · rw [Dict.get_erase] at hc'
        split at hc'
        · cases hc'
        · exact hc'
      · exact hc'
    rw [setBridge_heap_ne _ hne]
    exact hother g c hreg hne
  · rw [teardownGroup_bridges] at hc
    split at hc
    · cases hc
    · rename_i hg
      have hne : c ≠ b := by
        rintro rfl
        exact hg (hown g hc)
      rcases hother g c hc hne with hj | hcol
      · exact .inl hj
      · refine .inr ?_
        have hl := teardownGroup_legs { a with callMeta, log } (a.sockets k).group reason hangUp c
        unfold Collectable
        rw [hl.reconnecting, hl.reconnectSince]
        exact hcol

theorem finish_kept {a : App} (hw : Wf a) (hst : Stamped a) (h : Kept a) (k : Nat) (placed : Bool) :
    Kept (a.finish k placed) := by
  by_cases hc : (a.sockets k).phase = .closing
  swap
  · rw [a.finish_idle k placed hc]; exact h
  obtain ⟨a', he, hs, hcase⟩ := a.finish_sockets k placed hc
  rw [he]
  have hrest : Kept a' → (∀ b, ¬ Carries (a'.sockets k) b) →
      Kept (a'.setSocket k { a.sockets k with phase := .closed }) := by
    intro h' hk
    exact h'.setSocket fun b hb => absurd hb (hk b)
  rcases hcase with ⟨b, hb, -, ha'⟩ | ⟨b, hb, hrole, ha'⟩ | ⟨hb, ha'⟩
  · intro g c hg
    have hk := finishAgentLeg_kept hw hst h hb (a.sockets k).sawStop placed g c (ha' ▸ hg)
    rcases hk with ⟨j, hj, hcar⟩ | hcol
    · refine .inl ⟨j, ?_⟩
      rw [setSocket_sockets_ne _ hj, hs]
      exact hcar
    · exact .inr (ha' ▸ hcol)
  · refine hrest ?_ ?_
    · rw [ha']
      exact finishUserLeg_keeps (fun _ _ hs h => h.same hs) (fun _ _ h => h.setBridge fun _ => ⟨rfl, rfl⟩)
        (fun _ _ h => h.teardownGroup _ _ _) (h.setBridge fun hc => hc)
    · rintro c ⟨-, hr, -⟩
      rw [hs, hrole] at hr
      cases hr
  · refine hrest (ha' ▸ h) ?_
    rintro c ⟨hc', -, -⟩
    rw [hs, hb] at hc'
    cases hc'

/-- A failed redirect keeps the law exactly when it leaves no registered bridge alone. -/
theorem redirect_kept_iff {a : App} (h : Kept a) (n : Nat) (ok : Bool) :
    Kept (a.redirect n ok) ↔ a.FailsAttended (.redirect n ok) := by
  rcases a.redirect_cases n ok with hs | ⟨r, redirects, log, hr, rfl, hw, he⟩
  · refine iff_of_true (h.same hs) ?_
    cases ok with
    | true => trivial
    | false =>
      -- a failure that stays in the frame found `reconnecting` cleared already
      intro r hr hw g hg
      rcases h g r.bridge hg with hk | hcol
      · exact hk
      · have hrec := (hs.legs r.bridge).reconnecting
        obtain ⟨w, hw'⟩ := Option.ne_none_iff_exists'.1 hw
        simp only [redirect, hr, hw', Bool.false_eq_true, if_false, setBridge_heap_self] at hrec
        rw [hcol.1] at hrec
        cases hrec
  · rw [he]
    constructor
    · intro hk r' hr' _ g hg
      rw [hr] at hr'
      cases hr'
      rcases hk g r.bridge hg with hag | hcol
      · exact hag
      · rw [setBridge_heap_self] at hcol
        exact absurd hcol.1 (by simp)
    · intro hf g c hg
      by_cases hcb : c = r.bridge
      · subst hcb
        exact .inl (hf r hr hw g hg)
      · rcases h g c hg with hag | hcol
        · exact .inl hag
        · refine .inr ?_
          rw [setBridge_heap_ne _ hcb]
          exact hcol

theorem step_kept_iff (a : App) (act : Action) (hi : Wf a ∧ Stamped a) (h : Kept a) :
    Kept (step a act) ↔ a.FailsAttended act := by
  obtain ⟨hw, hst⟩ := hi
  cases act with
  | redirect n ok => exact redirect_kept_iff h n ok
  | start k m =>
    refine iff_of_true ?_ trivial
    simp only [step, start]
    split
    · exact h
    · rename_i hk
      have hk' : (a.sockets k).phase = .idle := by simpa using hk
      split
      · exact startAgentLeg_kept hw h hk' m
      · refine serveUserLeg_kept (h.setSocket ?_) ?_ 0
        · rintro b ⟨-, -, hp | hp⟩ <;> rw [hk'] at hp <;> cases hp
        · rintro b ⟨hb, -, -⟩
          simp at hb
  | poll k =>
    refine iff_of_true ?_ trivial
    simp only [step, poll]
    split
    · rename_i tries hp
      refine serveUserLeg_kept h ?_ _
      rintro b ⟨-, -, hp' | hp'⟩ <;> rw [hp] at hp' <;> cases hp'
    · exact h
  | media k payload ticks =>
    refine iff_of_true ?_ trivial
    refine media_keeps (fun _ _ hs h => h.same hs) (fun _ _ _ h => h.setBridge fun _ => ⟨rfl, rfl⟩)
      (fun _ _ _ h => h.teardownGroup _ _ _) (fun _ _ _ h => ?_) h k payload ticks
    exact h.setSocket fun b hb => ⟨hb.1, hb.2.1, .inr rfl⟩
  | close k stop =>
    refine iff_of_true ?_ trivial
    simp only [step, close]
    split
    · exact h.setSocket fun b hb => ⟨hb.1, hb.2.1, .inr rfl⟩
    · exact h.setSocket fun b hb => ⟨hb.1, hb.2.1, .inr rfl⟩
    · exact h
  | finish k placed => exact iff_of_true (finish_kept hw hst h k placed) trivial
  | reap =>
    exact iff_of_true (reapStaleBridges_keeps (fun _ _ _ _ _ h => h.teardownGroup _ _ _) h) trivial
  | _ => exact iff_of_true (h.same (same_of_inert a trivial)) trivial

/-- **`kept_iff`**: over every run of the registry, each registered bridge always has an agent socket or
is collectable, exactly when no redirect fails on a registered bridge that has lost its socket. -/
theorem kept_iff (settings : Settings) (key base : String) (twilio : Bool) (acts : List Action) :
    Run.Always step Kept (App.new settings key base twilio) acts ↔
      Run.Along step FailsAttended (App.new settings key base twilio) acts :=
  Run.always_iff_along (fun a act hi => ⟨step_wf a act hi.1, step_stamped a act hi.2⟩) step_kept_iff acts _
    ⟨new_wf .., nofun⟩ nofun

/-- The key is pressed, the line drops, and only then does the redirect fail. -/
def failsAlone : List Action := answered "g" ++ keyed ++ [.close 0 false, .finish 0 true, .redirect 0 false]

/-- The bridge stays registered with no socket, and the reaper passes it by. -/
theorem failsAlone_not_kept :
    ¬ Kept (Run.exec step (App.new {} "" "https://dialpass.test" true) failsAlone) := by
  intro h
  have hreg : (Run.exec step (App.new {} "" "https://dialpass.test" true) failsAlone).bridges.get "g" =
      some 0 := by decide +kernel
  rcases h "g" 0 hreg with ⟨k, hb, -, hp⟩ | ⟨hr, -⟩
  · by_cases hk : k = 0
    · subst hk
      revert hp
      decide +kernel
    · rw [exec_sockets_ne] at hb
      · cases hb
      · have hall : ∀ act ∈ failsAlone, act.socket? = none ∨ act.socket? = some 0 := by decide
        intro act hact he
        rcases hall act hact with hs | hs <;> rw [hs] at he
        · cases he
        · exact hk (Option.some.inj he).symm
  · revert hr
    decide +kernel

end App

end DialPass
