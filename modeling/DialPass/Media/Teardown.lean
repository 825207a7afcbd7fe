import DialPass.Media.Budget
/-!
# Teardowns (media.py:79-115)

Four paths end in `_teardown_group`, and any of them may come second. `teardown_untouched` says that it leaves
every other group alone, `teardownGroup_again` that it does nothing twice, and `reapStaleBridges_count` that the
reaper takes the stale groups and counts them. A teardown takes a session off `app.state.sessions` by its call
sid: groups that share one (`callSid` missing, so `"unknown"`) would share the entry.
-/

namespace DialPass

namespace App

/-- No two registered bridges are of the same Twilio call. -/
def DistinctSids (a : App) : Prop :=
  ∀ p ∈ a.bridges.items, ∀ q ∈ a.bridges.items,
    (a.heap p.2).session.callId = (a.heap q.2).session.callId → p.1 = q.1

instance (a : App) : Decidable a.DistinctSids := inferInstanceAs (Decidable (∀ _ ∈ _, ∀ _ ∈ _, _ → _))

/-- Everything there is of the group is as it was. -/
structure Untouched (group : String) (a a' : App) : Prop where
  bridges : a'.bridges.get group = a.bridges.get group
  heap : ∀ b, (a.heap b).groupId = group → a'.heap b = a.heap b
  sessions : ∀ b, a.bridges.get group = some b →
    a'.sessions.get (a.heap b).session.callId = a.sessions.get (a.heap b).session.callId
  pendingGoals : a'.pendingGoals.get group = a.pendingGoals.get group
  userLegs : a'.userLegs.get group = a.userLegs.get group
  userNumbers : a'.userNumbers.get group = a.userNumbers.get group
  callMeta : a'.callMeta.get group = a.callMeta.get group

variable {a a' : App} {group : String}

theorem untouched_clearContext {g : String} (hne : group ≠ g) (a : App) : Untouched group a (a.clearContext g) := by
  refine ⟨rfl, fun _ _ => rfl, fun _ _ => rfl, ?_, ?_, ?_, ?_⟩ <;> simp [clearContext, Dict.get_erase, hne]

/-- **A teardown is about one group.** -/
theorem teardown_untouched (hw : Wf a) (hd : a.DistinctSids) {g : String} (hne : group ≠ g)
    (reason : Option String) (hangUp : Bool) : Untouched group a (a.teardownGroup g reason hangUp) := by
  cases hb : a.bridges.get g with
  | none =>
    rw [teardownGroup_none hb]
    exact untouched_clearContext hne a
  | some b =>
    have hheap : ∀ c, (a.heap c).groupId = group → (a.teardownGroup g reason hangUp).heap c = a.heap c := by
      intro c hc
      rw [teardownGroup_heap, if_neg]
      intro hbc
      rw [← (hw.registered g c hbc).2, hc] at hne
      exact hne rfl
    have hbr := a.teardownGroup_bridges g reason hangUp group
    obtain ⟨es, he⟩ := teardownGroup_some hb reason hangUp
    rw [he] at hheap hbr ⊢
    refine ⟨by rw [hbr, if_neg hne], hheap, fun c hc => ?_, ?_, ?_, ?_, ?_⟩
    · show (a.sessions.erase _).get _ = _
      rw [Dict.get_erase, if_neg]
      exact fun hsid => hne (hd (group, c) (Dict.mem_items.2 hc) (g, b) (Dict.mem_items.2 hb) hsid)
    all_goals simp [clearContext, setBridge, Dict.get_erase, hne]

theorem clearContext_clearContext (a : App) (g : String) : (a.clearContext g).clearContext g = a.clearContext g := by
  simp [clearContext]

/-- **A teardown does nothing twice.** -/
theorem teardownGroup_again (a : App) (g : String) (reason reason' : Option String) (hangUp hangUp' : Bool) :
    (a.teardownGroup g reason hangUp).teardownGroup g reason' hangUp' = a.teardownGroup g reason hangUp := by
  have hgone : (a.teardownGroup g reason hangUp).bridges.get g = none := by
    rw [teardownGroup_bridges, if_pos rfl]
  rw [teardownGroup_none hgone]
  cases hb : a.bridges.get g with
  | none => rw [teardownGroup_none hb, clearContext_clearContext]
  | some b => rw [teardownGroup_registered hb, clearContext_clearContext]

/-! ## The reaper -/

theorem reap_fold_count : ∀ (items : List (String × Nat)) (a : App) (n : Nat),
    (items.foldl (fun (a, reaped) (group, b) =>
      if Stale (a.heap b) a.now then (a.teardownGroup group (some "dropped") true, reaped + 1)
      else (a, reaped)) (a, n)).2 = n + items.countP fun p => Stale (a.heap p.2) a.now
  | [], a, n => rfl
  | (g, b) :: items, a, n => by
    rw [List.foldl_cons, List.countP_cons]
    dsimp only
    split
    · rename_i hs
      rw [reap_fold_count items]
      -- whom a teardown makes stale or not
      simp only [Stale.legs (teardownGroup_legs a g (some "dropped") true _), teardownGroup_now, hs]
      simp; omega
    · rename_i hs
      rw [reap_fold_count items]
      simp [hs]

/-- **The reaper counts what it takes.** -/
theorem reapStaleBridges_count (a : App) :
    a.reapStaleBridges.2 = a.bridges.items.countP fun p => Stale (a.heap p.2) a.now := by
  rw [reapStaleBridges, reap_fold_count, Nat.zero_add]

/-- **`tornDown`**: in every state a run of the registry reaches, if the registered bridges are of different
calls, a teardown leaves every other group untouched; a second one changes nothing at all; a pass of the
reaper, at whatever time, takes the stale groups and no others and returns their number. And a group whose id
`/calls` draws no more than once is sent one fallback text at most and dialled `1 + maxRedials` times at most. -/
theorem tornDown (settings : Settings) (key base : String) (twilio : Bool) (acts : List Action) :
    let a := Run.exec step (App.new settings key base twilio) acts
    (a.DistinctSids → ∀ g group reason hangUp, group ≠ g → Untouched group a (a.teardownGroup g reason hangUp)) ∧
    (∀ g reason reason' hangUp hangUp',
      (a.teardownGroup g reason hangUp).teardownGroup g reason' hangUp' = a.teardownGroup g reason hangUp) ∧
    (∀ now, (∀ g, ({ a with now } : App).reapStaleBridges.1.bridges.get g =
        if ∃ b, a.bridges.get g = some b ∧ Stale (a.heap b) now then none else a.bridges.get g) ∧
      ({ a with now } : App).reapStaleBridges.2 = a.bridges.items.countP fun p => Stale (a.heap p.2) now) ∧
    ∀ group, acts.countP (·.posts group) ≤ 1 → (a.texts group).length ≤ 1 ∧ a.dials group ≤ 1 + maxRedials := by
  intro a
  refine ⟨fun hd g group reason hangUp hne => ?_, teardownGroup_again a, fun now => ⟨?_, ?_⟩, fun group hone => ?_⟩
  · have hw : Wf a := Run.exec_inv step_wf acts _ (new_wf settings key base twilio)
    exact teardown_untouched hw hd hne reason hangUp
  · exact reapStaleBridges_bridges { a with now }
  · exact reapStaleBridges_count { a with now }
  · obtain ⟨hd, ht⟩ := exec_budget group acts (App.new settings key base twilio)
    have hd0 : (App.new settings key base twilio).dialBudget group = 0 := rfl
    have ht0 : (App.new settings key base twilio).textBudget group = 0 := rfl
    have hspent : a.dials group ≤ a.dialBudget group ∧ (a.texts group).length ≤ a.textBudget group := by
      simp only [dialBudget, textBudget]
      omega
    have hmul : (1 + maxRedials) * acts.countP (·.posts group) ≤ 1 + maxRedials := by
      calc (1 + maxRedials) * acts.countP (·.posts group) ≤ (1 + maxRedials) * 1 := Nat.mul_le_mul_left _ hone
        _ = 1 + maxRedials := Nat.mul_one _
    constructor
    · exact (hspent.2.trans ht).trans (by omega)
    · exact (hspent.1.trans hd).trans (by omega)

/-- Two calls; the line of the first drops three times. -/
def dropsThrice : List Action :=
  answered "g" ++ [.start 9 { groupParam := "h", callSid := "CAother" }, .close 0 false, .finish 0 true] ++
    [.start 1 { groupParam := "g", callSid := "CAsecond" }, .close 1 false, .finish 1 true] ++
    [.start 2 { groupParam := "g", callSid := "CAthird" }]

theorem dropsThrice_tornDown :
    let a := Run.exec step (App.new {} "" "https://dialpass.test" true) (dropsThrice ++ [.close 2 false, .finish 2 true])
    let before := Run.exec step (App.new {} "" "https://dialpass.test" true) dropsThrice
    ((a.texts "g").length = 1 ∧ (a.texts "g").length ≤ 1) ∧ (a.dials "g" = 3 ∧ a.dials "g" ≤ 3) ∧
      Untouched "h" before (before.teardownGroup "g" (some "dropped") true) := by
  have hspent := (tornDown {} "" "https://dialpass.test" true (dropsThrice ++ [.close 2 false, .finish 2 true])).2.2.2
    "g" (by decide)
  have hother := (tornDown {} "" "https://dialpass.test" true dropsThrice).1 (by decide +kernel) "g" "h"
    (some "dropped") true (by decide)
  exact ⟨⟨by decide +kernel, hspent.1⟩, ⟨by decide +kernel, hspent.2⟩, hother⟩

end App

end DialPass
