import DialPass.Media.Registry
/-!
# What the reaper takes (media.py:104-115)

`reapStaleBridges_bridges` says exactly which groups one pass unregisters: those whose keypress was
longer ago than the grace window and whose new stream has not started. Nothing in that says the old
stream is gone: `SparesDelivering` asks that no group with an open agent socket is taken, and
`sparesDelivering_iff` says when that holds.
-/

namespace DialPass

namespace App

open CallBridge

theorem Stale.legs {br br' : CallBridge} (h : SameLegs br br') (now : ℚ) : Stale br' now ↔ Stale br now := by
  unfold Stale
  rw [h.reconnecting, h.reconnectSince]

/-- The pass over a snapshot of the registry, seen from one group. -/
theorem reap_fold_bridges (g : String) : ∀ (items : List (String × Nat)) (a : App) (n : Nat),
    ((items.foldl (fun (a, reaped) (group, b) =>
        if Stale (a.heap b) a.now then (a.teardownGroup group (some "dropped") true, reaped + 1)
        else (a, reaped)) (a, n)).1.bridges.get g = none ∧ ∃ b, (g, b) ∈ items ∧ Stale (a.heap b) a.now) ∨
    ((items.foldl (fun (a, reaped) (group, b) =>
        if Stale (a.heap b) a.now then (a.teardownGroup group (some "dropped") true, reaped + 1)
        else (a, reaped)) (a, n)).1.bridges.get g = a.bridges.get g ∧
      ∀ b, (g, b) ∈ items → ¬ Stale (a.heap b) a.now)
  | [], a, n => .inr ⟨rfl, by simp⟩
  | (g', c) :: items, a, n => by
    rw [List.foldl_cons]
    dsimp only
    by_cases hs : Stale (a.heap c) a.now
    · rw [if_pos hs]
      have ih := reap_fold_bridges g items (a.teardownGroup g' (some "dropped") true) (n + 1)
      simp only [Stale.legs (teardownGroup_legs a g' (some "dropped") true _), teardownGroup_now] at ih
      rcases ih with ⟨hn, b, hb, hst⟩ | ⟨hsame, hall⟩
      · exact .inl ⟨hn, b, List.mem_cons_of_mem _ hb, hst⟩
      · rw [teardownGroup_bridges] at hsame
        by_cases hg : g = g'
        · rw [if_pos hg] at hsame
          exact .inl ⟨hsame, c, by simp [hg], hs⟩
        · rw [if_neg hg] at hsame
          refine .inr ⟨hsame, fun b hb => hall b ?_⟩
          simpa [hg] using hb
    · rw [if_neg hs]
      rcases reap_fold_bridges g items a n with ⟨hn, b, hb, hst⟩ | ⟨hsame, hall⟩
      · exact .inl ⟨hn, b, List.mem_cons_of_mem _ hb, hst⟩
      · refine .inr ⟨hsame, fun b hb => ?_⟩
        rcases List.mem_cons.1 hb with he | hb
        · cases he; exact hs
        · exact hall b hb

/-- One pass unregisters the stale groups and no others. -/
theorem reapStaleBridges_bridges (a : App) (g : String) :
    a.reapStaleBridges.1.bridges.get g =
      if ∃ b, a.bridges.get g = some b ∧ Stale (a.heap b) a.now then none else a.bridges.get g := by
  rcases reap_fold_bridges g a.bridges.items a 0 with ⟨hn, b, hb, hst⟩ | ⟨hsame, hall⟩
  · rw [if_pos ⟨b, Dict.mem_items.1 hb, hst⟩]
    exact hn
  · rw [if_neg]
    · exact hsame
    · rintro ⟨b, hb, hst⟩
      exact hall b (Dict.mem_items.2 hb) hst

/-- A bridge that is not stale is left as it was. -/
theorem reapStaleBridges_heap (a : App) {b : Nat} (h : ¬ Stale (a.heap b) a.now) :
    a.reapStaleBridges.1.heap b = a.heap b := by
  have hinv : a.reapStaleBridges.1.now = a.now ∧ a.reapStaleBridges.1.heap b = a.heap b := by
    refine reapStaleBridges_keeps (P := fun a' => a'.now = a.now ∧ a'.heap b = a.heap b) ?_ ⟨rfl, rfl⟩
    rintro a' group c hc hs ⟨hnow, hb⟩
    refine ⟨(teardownGroup_now ..).trans hnow, ?_⟩
    rw [teardownGroup_heap, if_neg, hb]
    rw [hc]
    rintro he
    cases he
    rw [hb, hnow] at hs
    exact h hs
  exact hinv.2

/-- An agent socket is in its receive loop with bridge `b`. -/
def Delivers (a : App) (b : Nat) : Prop :=
  ∃ k, (a.sockets k).bridge = some b ∧ (a.sockets k).role = .agent ∧ (a.sockets k).phase = .receiving

/-- The reaper leaves every group alone whose agent socket delivers audio. -/
def SparesDelivering (a : App) : Action → Prop
  | .reap => ∀ g b, a.bridges.get g = some b → Delivers a b →
      a.reapStaleBridges.1.bridges.get g = some b ∧ a.reapStaleBridges.1.heap b = a.heap b
  | _ => True

/-- When the reaper comes, no group whose agent socket delivers audio has waited for its reconnect for
longer than the grace window. -/
def ReapsInTime (a : App) : Action → Prop
  | .reap => ∀ g b, a.bridges.get g = some b → Delivers a b → (a.heap b).reconnecting = true →
      ∀ since, (a.heap b).reconnectSince = some since → a.now - since ≤ reconnectGraceS
  | _ => True

theorem step_sparesDelivering_iff (a : App) (act : Action) : a.SparesDelivering act ↔ a.ReapsInTime act := by
  cases act with
  | reap =>
    simp only [SparesDelivering, ReapsInTime]
    refine forall_congr' fun g => forall_congr' fun b => forall_congr' fun hb => forall_congr' fun _ => ?_
    constructor
    · rintro ⟨hreg, -⟩ hr since hs
      by_contra hlate
      rw [reapStaleBridges_bridges, if_pos ⟨b, hb, hr, since, hs, not_le.1 hlate⟩] at hreg
      cases hreg
    · intro hin
      have hn : ¬ Stale (a.heap b) a.now := by
        rintro ⟨hr, since, hs, hlate⟩
        exact absurd (hin hr since hs) (not_le.2 hlate)
      refine ⟨?_, reapStaleBridges_heap a hn⟩
      rw [reapStaleBridges_bridges, if_neg, hb]
      rintro ⟨c, hc, hstale⟩
      rw [hb] at hc
      cases hc
      exact hn hstale
  | _ => exact Iff.rfl

/-- **`sparesDelivering_iff`**: over every run of the registry, the reaper never takes a group whose
agent socket delivers audio, exactly when no such group's keypress is older than the grace window at a
pass. -/
theorem sparesDelivering_iff (settings : Settings) (key base : String) (twilio : Bool) (acts : List Action) :
    Run.Along step SparesDelivering (App.new settings key base twilio) acts ↔
      Run.Along step ReapsInTime (App.new settings key base twilio) acts :=
  Run.along_iff (I := fun _ => True) (fun _ _ _ => trivial) (fun a act _ => step_sparesDelivering_iff a act)
    acts _ trivial

/-- The user waits on the line, a key is pressed, and the redirect hangs: the old stream goes on. -/
def redirectHangs : List Action :=
  answered "g" ++ [.start 1 { groupParam := "g", role := .user, callSid := "CAuser", streamSid := "MZuser" }] ++
    keyed ++ [.wait 21, hear 0 4000 .holdMusic, .reap]

/-- The live call is texted "dropped" and hung up. -/
theorem redirectHangs_not_spared :
    ¬ Run.Along step SparesDelivering (App.new {} "" "https://dialpass.test" true) redirectHangs := by
  intro h
  have hreap := (Run.along_iff_split step SparesDelivering _ _).1 h redirectHangs.dropLast .reap [] rfl
  have hreg := (hreap "g" 0 (by decide +kernel) ⟨0, by decide +kernel, by decide +kernel, by decide +kernel⟩).1
  revert hreg
  decide +kernel

end App

end DialPass
