import DialPass.Resilience.CircuitBreaker
/-!
# What overlapping calls do to the breaker (resilience/circuit_breaker.py)

`_on_success` and `_on_failure` do not ask which call they speak of, nor when it was let in, and HALF_OPEN
turns nobody away. So the two things the breaker promises hold exactly while

* `fenced_iff`: no call succeeds while the breaker refuses. Then an opening at `T` keeps callers out until
  `T + reset_timeout`;
* `oneTrial_iff`: nobody calls while a trial is in flight, unless the breaker refuses, and no trial fails
  after somebody else's success. Then a HALF_OPEN breaker lets one trial in, which decides.
-/

namespace DialPass

namespace CircuitBreaker

/-- Reading the state changes nothing about who is refused. -/
theorem look_refuses_iff (b : CircuitBreaker) (now t : ℚ) (h : now ≤ t) :
    (b.look now).Refuses t ↔ b.Refuses t := by
  by_cases hl : b.Lapsed now
  · have hn : ¬ b.Refuses t := by
      rintro ⟨-, ht⟩
      have hge : b.resetTimeout ≤ now - b.openedAt := hl.2
      linarith
    have hs : (b.look now).state = .halfOpen := by simp [look, hl]
    exact iff_of_false (fun hr => by rw [hr.1] at hs; cases hs) hn
  · rw [look, if_neg hl]

end CircuitBreaker

namespace Traffic

/-! ## An opening and the callers after it -/

/-- An opening keeps the callers after it out for the reset timeout. -/
def HoldsOff (resetTimeout : ℚ) : BreakerEvent → BreakerEvent → Prop
  | .opened T, .admitted _ t _ => T + resetTimeout ≤ t
  | _, _ => True

instance (resetTimeout : ℚ) : DecidableRel (HoldsOff resetTimeout)
  | .opened _, .admitted _ _ _ => inferInstanceAs (Decidable (_ ≤ _))
  | .opened _, .rejected _ _ | .opened _, .completed _ _ _ _ | .opened _, .opened _ => .isTrue trivial
  | .admitted _ _ _, _ | .rejected _ _, _ | .completed _ _ _ _, _ => .isTrue trivial

/-- Nobody has been let in before his time. -/
def Fenced (s : Traffic) : Prop := s.log.Pairwise (HoldsOff s.breaker.resetTimeout)

instance (s : Traffic) : Decidable s.Fenced := inferInstanceAs (Decidable (List.Pairwise _ _))

/-- The step is no success that comes while the breaker refuses. -/
def NoLateSuccess (s : Traffic) : Step → Prop
  | .complete id true => s.running.any (·.id = id) → ¬ s.breaker.Refuses s.now
  | _ => True

/-- While an opening's timeout runs, the breaker refuses. -/
def Shut (s : Traffic) : Prop :=
  ∀ T, .opened T ∈ s.log → s.now < T + s.breaker.resetTimeout → s.breaker.Refuses s.now

/-- `_opened_at` is the last of the openings in the log, all of which are past. -/
structure Clocked (s : Traffic) : Prop where
  past : ∀ T, .opened T ∈ s.log → T ≤ s.now ∧ T ≤ s.breaker.openedAt
  last : s.breaker.state ≠ .closed → .opened s.breaker.openedAt ∈ s.log

/-- What is no admission never comes too early. -/
theorem holdsOff_append {resetTimeout : ℚ} {log es : List BreakerEvent}
    (h : log.Pairwise (HoldsOff resetTimeout)) (hes : ∀ e ∈ es, ∀ id t trial, e ≠ .admitted id t trial) :
    (log ++ es).Pairwise (HoldsOff resetTimeout) := by
  have hlate : ∀ e, ∀ e' ∈ es, HoldsOff resetTimeout e e' := by
    intro e e' he'
    cases e' with
    | admitted id t trial => exact absurd rfl (hes _ he' id t trial)
    | _ => cases e <;> trivial
  refine List.pairwise_append.2 ⟨h, ?_, fun e _ e' he' => hlate e e' he'⟩
  exact List.pairwise_of_forall_mem_list fun e _ e' he' => hlate e e' he'

/-- A caller right now would be let in or kept out in time, exactly if the breaker is shut when it should. -/
theorem call_fenced_iff (s : Traffic) : s.call.Fenced ↔ s.Fenced ∧ s.Shut := by
  rcases s.call_cases with ⟨hr, he⟩ | ⟨hr, he⟩ <;> rw [he]
  · simp only [Fenced, CircuitBreaker.look_resetTimeout, List.pairwise_append, List.pairwise_singleton, true_and,
      List.mem_singleton, forall_eq]
    refine and_congr_right fun _ => ?_
    constructor
    · intro h T hT hlt
      exact absurd hlt (not_lt.2 (h _ hT))
    · intro h e hmem
      cases e with
      | opened T => exact not_lt.1 fun hlt => hr (h T hmem hlt)
      | _ => trivial
  · simp only [Fenced, CircuitBreaker.look_resetTimeout, List.pairwise_append, List.pairwise_singleton, true_and,
      List.mem_singleton, forall_eq]
    refine and_congr_right fun _ => ?_
    constructor
    · intro _ T _ _
      exact hr
    · intro _ e _
      cases e <;> trivial

theorem new_clocked (threshold : Nat) (resetTimeout now : ℚ) : Clocked (new threshold resetTimeout now) :=
  ⟨by simp [new], by simp [new]⟩

theorem step_clocked (s : Traffic) (i : Step) (h : Clocked s) : Clocked (step s i) := by
  obtain ⟨hp, hl⟩ := h
  cases i with
  | call =>
    rcases s.call_cases with ⟨-, he⟩ | ⟨-, he⟩ <;> rw [step, he] <;>
      exact ⟨by simpa using hp, fun hc => by simpa using hl ((s.breaker.look_closed_iff _).not.1 hc)⟩
  | complete id ok =>
    rcases s.complete_cases id ok with ⟨-, he⟩ | ⟨-, -, he⟩ | ⟨-, -, -, he⟩ | ⟨-, -, -, he⟩ <;> rw [step, he]
    · exact ⟨hp, hl⟩
    · exact ⟨fun T hT => hp T (by simpa using hT), fun hc => absurd rfl hc⟩
    · refine ⟨fun T hT => ?_, fun _ => by simp⟩
      simp only [List.mem_append, List.mem_cons, List.not_mem_nil, or_false, BreakerEvent.opened.injEq,
        reduceCtorEq, false_or] at hT
      rcases hT with hT | rfl
      · exact ⟨(hp T hT).1, (hp T hT).1⟩
      · exact ⟨le_rfl, le_rfl⟩
    · exact ⟨by simpa using hp, fun hc => by simpa using hl hc⟩
  | look =>
    refine ⟨fun T hT => by simpa [step] using hp T hT, fun hc => ?_⟩
    simpa [step] using hl ((s.breaker.look_closed_iff _).not.1 hc)
  | wait dt =>
    refine ⟨fun T hT => ⟨?_, (hp T hT).2⟩, hl⟩
    exact (hp T hT).1.trans (le_add_of_nonneg_right (le_max_right _ _))

/-- Time passes, and the last opening runs out last. -/
theorem shut_wait {s : Traffic} (hc : Clocked s) (h : s.Shut) (dt : ℚ) : (step s (.wait dt)).Shut := by
  intro T hT hlt
  have hge : (0 : ℚ) ≤ max dt 0 := le_max_right _ _
  have hlt' : s.now + max dt 0 < T + s.breaker.resetTimeout := hlt
  have hT' : T ≤ s.breaker.openedAt := (hc.past T hT).2
  refine ⟨(h T hT (by linarith)).1, ?_⟩
  show s.now + max dt 0 - s.breaker.openedAt < s.breaker.resetTimeout
  linarith

/-- The end of a call leaves the next caller what he is due, unless it closes a breaker that refuses. -/
theorem complete_fenced_iff {s : Traffic} (hc : Clocked s) (hf : s.Fenced) (hs : s.Shut) (id : Nat) (ok : Bool) :
    ((s.complete id ok).Fenced ∧ (s.complete id ok).Shut) ↔ NoLateSuccess s (.complete id ok) := by
  rcases s.complete_cases id ok with ⟨hr, he⟩ | ⟨hr, rfl, he⟩ | ⟨hr, rfl, ho, he⟩ | ⟨hr, rfl, ho, he⟩ <;> rw [he]
  · cases ok <;> simp [NoLateSuccess, hr, hf, hs]
  · -- the breaker is closed now, so no opening may still run
    simp only [NoLateSuccess, hr, forall_const]
    constructor
    · rintro ⟨-, hs'⟩ hrf
      have hmem := hc.last (by rw [hrf.1]; simp)
      have hlt : s.now < s.breaker.openedAt + s.breaker.resetTimeout := by
        have hlt := hrf.2
        linarith
      exact absurd (hs' s.breaker.openedAt (by simpa using hmem) hlt).1 (by simp)
    · intro hrf
      exact ⟨holdsOff_append hf (by simp), fun T hT hlt => absurd (hs T (by simpa using hT) hlt) hrf⟩
  · simp only [NoLateSuccess, iff_true]
    refine ⟨holdsOff_append hf (by simp), fun T hT hlt => ⟨rfl, ?_⟩⟩
    -- the new opening is the last, and it runs for the whole timeout
    have hT' : T ≤ s.now := by
      simp only [List.mem_append, List.mem_cons, List.not_mem_nil, or_false, BreakerEvent.opened.injEq,
        reduceCtorEq, false_or] at hT
      rcases hT with hT | rfl
      · exact (hc.past T hT).1
      · exact le_rfl
    have hlt' : s.now < T + s.breaker.resetTimeout := hlt
    show s.now - s.now < s.breaker.resetTimeout
    linarith
  · simp only [NoLateSuccess, iff_true]
    exact ⟨holdsOff_append hf (by simp), fun T hT hlt => hs T (by simpa using hT) hlt⟩

theorem step_fenced_iff (s : Traffic) (i : Step) (hc : Clocked s) (h : s.call.Fenced) :
    (step s i).call.Fenced ↔ NoLateSuccess s i := by
  obtain ⟨hf, hs⟩ := (call_fenced_iff s).1 h
  rw [call_fenced_iff]
  cases i with
  | call =>
    simp only [NoLateSuccess, iff_true]
    refine ⟨h, fun T hT hlt => ?_⟩
    rcases s.call_cases with ⟨-, he⟩ | ⟨-, he⟩ <;>
      (simp only [step, he] at hT hlt ⊢
       rw [CircuitBreaker.look_refuses_iff _ _ _ le_rfl]
       exact hs T (by simpa using hT) (by simpa using hlt))
  | complete id ok => exact complete_fenced_iff hc hf hs id ok
  | look =>
    simp only [NoLateSuccess, iff_true]
    refine ⟨by simpa [Fenced, step] using hf, fun T hT hlt => ?_⟩
    exact (CircuitBreaker.look_refuses_iff _ _ _ le_rfl).2 (hs T hT (by simpa [step] using hlt))
  | wait dt =>
    simp only [NoLateSuccess, iff_true]
    exact ⟨hf, shut_wait hc hs dt⟩

/-- **`fenced_iff`**: over every run of calls through one breaker, whoever calls and whenever, nobody is let
in between an opening and the end of its reset timeout, exactly when no call succeeds while the breaker
refuses callers. -/
theorem fenced_iff (threshold : Nat) (resetTimeout now : ℚ) (is : List Step) :
    Run.Always step (fun s => s.call.Fenced) (new threshold resetTimeout now) is ↔
      Run.Along step NoLateSuccess (new threshold resetTimeout now) is :=
  Run.always_iff_along step_clocked step_fenced_iff is _ (new_clocked ..)
    ((call_fenced_iff _).2 ⟨.nil, by simp [Shut, new]⟩)

/-- Five calls are let in at once; four fail, which opens the breaker, and then the fifth succeeds. -/
def lateSuccess : List Step :=
  List.replicate 5 .call ++ (List.range 4).map (.complete · false) ++ [.complete 4 true]

/-- The next caller is let in, 45 seconds too early. -/
theorem lateSuccess_not_fenced : ¬ (Run.exec step (new 4 45 0) (lateSuccess ++ [.call])).Fenced := by
  decide +kernel

/-! ## A trial and the callers beside it -/

end Traffic

/-- What the log tells of the trials in flight and of the last opening. -/
structure BreakerHistory where
  trials : List Nat := []
  openedAt : Option ℚ := none

namespace BreakerHistory

def next (h : BreakerHistory) : BreakerEvent → BreakerHistory
  | .admitted id _ true => { h with trials := h.trials ++ [id] }
  | .admitted _ _ false | .rejected _ _ => h
  | .completed id _ _ _ => { h with trials := h.trials.filter (· ≠ id) }
  | .opened t => { h with openedAt := some t }

def of (log : List BreakerEvent) : BreakerHistory := Run.exec next {} log

/-- Nobody is let in beside a trial; only a trial, or an opening whose timeout runs, keeps callers out; and a
trial's end closes the breaker or opens it again. -/
def oneTrial (resetTimeout : ℚ) (h : BreakerHistory) : BreakerEvent → Bool
  | .admitted _ _ _ => h.trials = []
  | .rejected _ t => h.trials ≠ [] || h.openedAt.any (t < · + resetTimeout)
  | .completed id ok _ state => id ∉ h.trials || state = if ok then .closed else .opened
  | .opened _ => true

end BreakerHistory

namespace Traffic

open BreakerHistory

/-- The law of trials holds of the whole log. -/
def OneTrial (s : Traffic) : Prop :=
  Run.Along next (fun h e => h.oneTrial s.breaker.resetTimeout e = true) {} s.log

instance (s : Traffic) : Decidable s.OneTrial := inferInstanceAs (Decidable (Run.Along _ _ _ _))

/-- The step neither calls beside a trial, unless the breaker refuses, nor fails a trial whose breaker
somebody else has closed. -/
def LeavesTrial (s : Traffic) : Step → Prop
  | .call => s.trials ≠ [] → s.breaker.Refuses s.now
  | .complete id false => id ∈ s.trials → s.breaker.state = .closed → s.breaker.threshold ≤ s.breaker.failures + 1
  | _ => True

/-- The log agrees with the breaker and the calls inside it. -/
structure Tracked (s : Traffic) : Prop where
  trials : (of s.log).trials = s.trials
  openedAt : s.breaker.state ≠ .closed → (of s.log).openedAt = some s.breaker.openedAt
  count : s.breaker.state ≠ .closed → s.breaker.threshold ≤ s.breaker.failures

@[simp] theorem of_append (log es : List BreakerEvent) : of (log ++ es) = Run.exec next (of log) es := by
  simp [of]

/-- Under the law at most one trial is in flight. -/
theorem OneTrial.trials_le {s : Traffic} (h : s.OneTrial) : (of s.log).trials.length ≤ 1 := by
  unfold OneTrial at h
  unfold of
  generalize s.log = log, s.breaker.resetTimeout = r at h ⊢
  generalize hh : ({} : BreakerHistory) = h0 at h ⊢
  have h0le : h0.trials.length ≤ 1 := by simp [← hh]
  clear hh
  induction log generalizing h0 with
  | nil => exact h0le
  | cons e es ih =>
    rw [Run.along_cons] at h
    obtain ⟨he, hes⟩ := h
    refine ih _ hes ?_
    cases e with
    | admitted id t trial =>
      have hnil : h0.trials = [] := by simpa [oneTrial] using he
      cases trial <;> simp [next, hnil]
    | rejected id t => exact h0le
    | completed id ok t state => exact (List.length_filter_le _ _).trans h0le
    | opened t => exact h0le

theorem mem_trials_running {s : Traffic} {id : Nat} (h : id ∈ s.trials) : s.running.any (·.id = id) = true := by
  simp only [trials, List.mem_map, List.mem_filter] at h
  obtain ⟨a, ⟨ha, -⟩, rfl⟩ := h
  exact List.any_eq_true.2 ⟨a, ha, by simp⟩

/-- A call that ends is no longer among the trials. -/
theorem trials_filter (running : List Attempt) (id : Nat) :
    ((running.filter (·.id ≠ id)).filter (·.trial)).map (·.id) =
      ((running.filter (·.trial)).map (·.id)).filter (· ≠ id) := by
  induction running with
  | nil => rfl
  | cons a running ih =>
    by_cases hid : a.id = id <;> cases ht : a.trial <;> simp_all

theorem new_tracked (threshold : Nat) (resetTimeout now : ℚ) : Tracked (new threshold resetTimeout now) :=
  ⟨rfl, by simp [new], by simp [new]⟩

theorem step_tracked (s : Traffic) (i : Step) (h : Tracked s) : Tracked (step s i) := by
  obtain ⟨ht, ho, hn⟩ := h
  have hlook : ∀ {P : Prop}, (s.breaker.state ≠ .closed → P) → (s.breaker.look s.now).state ≠ .closed → P :=
    fun hP hc => hP ((s.breaker.look_closed_iff _).not.1 hc)
  cases i with
  | call =>
    rcases s.call_cases with ⟨-, he⟩ | ⟨-, he⟩ <;> rw [step, he]
    · refine ⟨?_, hlook ?_, hlook ?_⟩
      · cases htr : (s.breaker.look s.now).state == .halfOpen <;>
          simp [trials, next, List.filter_append] <;> exact ht
      · cases htr : (s.breaker.look s.now).state == .halfOpen <;> simpa [next, htr] using ho
      · simpa using hn
    · exact ⟨by simpa [next, trials] using ht, hlook (by simpa [next] using ho), hlook (by simpa using hn)⟩
  | complete id ok =>
    rcases s.complete_cases id ok with ⟨-, he⟩ | ⟨-, -, he⟩ | ⟨-, -, hop, he⟩ | ⟨-, -, -, he⟩ <;> rw [step, he]
    · exact ⟨ht, ho, hn⟩
    · refine ⟨?_, fun hc => absurd rfl hc, fun hc => absurd rfl hc⟩
      simp only [of_append, Run.exec_cons, Run.exec_nil, next, ht, trials, trials_filter]
    · refine ⟨?_, fun _ => by simp [next], fun _ => ?_⟩
      · simp only [of_append, Run.exec_cons, Run.exec_nil, next, ht, trials, trials_filter]
      · rcases hop with hst | hle
        · exact (hn (by rw [hst]; simp)).trans (Nat.le_succ _)
        · exact hle
    · refine ⟨?_, fun hc => by simpa [next] using ho hc, fun hc => (hn hc).trans (Nat.le_succ _)⟩
      simp only [of_append, Run.exec_cons, Run.exec_nil, next, ht, trials, trials_filter]
  | look => exact ⟨ht, hlook (by simpa [step] using ho), hlook (by simpa [step] using hn)⟩
  | wait dt => exact ⟨ht, ho, hn⟩

theorem step_oneTrial_iff (s : Traffic) (i : Step) (h : Tracked s) (hone : s.OneTrial) :
    (step s i).OneTrial ↔ LeavesTrial s i := by
  obtain ⟨ht, ho, hn⟩ := h
  simp only [of] at ht ho
  cases i with
  | call =>
    rcases s.call_cases with ⟨hr, he⟩ | ⟨hr, he⟩ <;>
      rw [step, he, OneTrial, Run.along_append, CircuitBreaker.look_resetTimeout] <;>
      refine (and_iff_right hone).trans ?_ <;>
      simp only [Run.along_cons, Run.along_nil, and_true, oneTrial, LeavesTrial]
    · simp [hr, ht]
    · have hw : s.now < s.breaker.openedAt + s.breaker.resetTimeout := by
        have hlt : s.now - s.breaker.openedAt < s.breaker.resetTimeout := hr.2
        linarith
      simp [hr, ho (by rw [hr.1]; simp), hw]
  | complete id ok =>
    rcases s.complete_cases id ok with ⟨hr, he⟩ | ⟨hr, rfl, he⟩ | ⟨hr, rfl, hop, he⟩ | ⟨hr, rfl, hop, he⟩
    · have hid : id ∉ s.trials := fun hm => by rw [mem_trials_running hm] at hr; cases hr
      rw [step, he]
      cases ok <;> simp [LeavesTrial, hid, hone]
    · rw [step, he, OneTrial, Run.along_append]
      refine (and_iff_right hone).trans ?_
      simp [oneTrial, LeavesTrial]
    · rw [step, he, OneTrial, Run.along_append]
      refine (and_iff_right hone).trans ?_
      simp only [Run.along_cons, Run.along_nil, and_true, oneTrial, LeavesTrial]
      refine iff_of_true (by simp) fun _ hc => ?_
      rcases hop with hst | hle
      · rw [hst] at hc; cases hc
      · exact hle
    · have hcl : s.breaker.state = .closed := by
        by_contra hc
        exact hop (.inr ((hn hc).trans (Nat.le_succ _)))
      have hlt : ¬ s.breaker.threshold ≤ s.breaker.failures + 1 := fun hle => hop (.inr hle)
      rw [step, he, OneTrial, Run.along_append]
      refine (and_iff_right hone).trans ?_
      simp [oneTrial, LeavesTrial, ht, hcl, hlt]
  | look => exact iff_of_true (by simpa [OneTrial, step] using hone) trivial
  | wait dt => exact iff_of_true hone trivial

/-- **`oneTrial_iff`**: over every run of calls through one breaker, after each lapse of the timeout the first
caller is let in as a trial, everybody else is turned away until it ends, and its outcome closes the breaker
or opens it again, exactly when nobody calls beside a trial (unless the breaker has come to refuse) and no
trial fails after another call's success. -/
theorem oneTrial_iff (threshold : Nat) (resetTimeout now : ℚ) (is : List Step) :
    Run.Always step OneTrial (new threshold resetTimeout now) is ↔
      Run.Along step LeavesTrial (new threshold resetTimeout now) is :=
  Run.always_iff_along step_tracked step_oneTrial_iff is _ (new_tracked ..) trivial

/-- Four failures open the breaker; 45 seconds later two callers come. -/
def twoTrials : List Step :=
  List.replicate 4 .call ++ (List.range 4).map (.complete · false) ++ [.wait 45, .call, .call]

/-- Both are let in. -/
theorem twoTrials_not_oneTrial :
    ¬ (Run.exec step (new 4 45 0) twoTrials).OneTrial ∧ (Run.exec step (new 4 45 0) twoTrials).trials = [4, 5] := by
  decide +kernel

end Traffic

end DialPass
