import DialPass.Resilience.CircuitBreaker
/-!
# What the breaker is for, when calls do not overlap (resilience/circuit_breaker.py)

`Reference` has no state of its own but the past: it reads off the log when the breaker last opened with no
success since (`Past.opening`) and how many calls have failed in a row (`Past.failures`). A caller is turned
away while that opening's timeout runs; a failure opens the breaker if it is the threshold-th or a later one
in a row, or the trial's after an opening. `refines` says that the breaker's three fields, one of them moved
on only when somebody looks, never tell a caller anything else.
-/

namespace DialPass

/-- What the log tells of the last opening, unless a success came after it, and of the failures in a row. -/
structure Past where
  failures : Nat := 0
  opening : Option ℚ := none

namespace Past

def next (p : Past) : BreakerEvent → Past
  | .completed _ true _ _ => {}
  | .completed _ false _ _ => { p with failures := p.failures + 1 }
  | .opened t => { p with opening := some t }
  | .admitted _ _ _ | .rejected _ _ => p

def of (log : List BreakerEvent) : Past := Run.exec next {} log

@[simp] theorem of_append (log es : List BreakerEvent) : of (log ++ es) = Run.exec next (of log) es := by
  simp [of]

end Past

/-- The breaker as its callers are promised it. -/
structure Reference where
  threshold : Nat
  resetTimeout : ℚ
  now : ℚ
  fresh : Nat := 0
  running : List Attempt := []
  log : List BreakerEvent := []

namespace Reference

def past (r : Reference) : Past := Past.of r.log

/-- The last opening's timeout runs. -/
def Blocks (r : Reference) : Prop := ∃ T, r.past.opening = some T ∧ r.now - T < r.resetTimeout

instance (r : Reference) : Decidable r.Blocks := inferInstanceAs (Decidable (∃ T, r.past.opening = some T ∧ _))

/-- What a reader of the state sees. -/
def state (r : Reference) : BreakerState :=
  if r.past.opening = none then .closed else if r.Blocks then .opened else .halfOpen

def call (r : Reference) : Reference :=
  if r.Blocks then { r with fresh := r.fresh + 1, log := r.log ++ [.rejected r.fresh r.now] }
  else
    let trial := r.past.opening.isSome
    { r with
      fresh := r.fresh + 1
      running := r.running ++ [{ id := r.fresh, trial }]
      log := r.log ++ [.admitted r.fresh r.now trial] }

def complete (r : Reference) (id : Nat) (ok : Bool) : Reference :=
  match r.running.find? (·.id = id) with
  | none => r
  | some a =>
    let running := r.running.filter (·.id ≠ id)
    if ok then { r with running, log := r.log ++ [.completed id true r.now .closed] }
    else if r.threshold ≤ r.past.failures + 1 ∨ a.trial = true then
      { r with running, log := r.log ++ [.completed id false r.now .opened, .opened r.now] }
    else { r with running, log := r.log ++ [.completed id false r.now .closed] }

def step (r : Reference) : Traffic.Step → Reference
  | .call => r.call
  | .complete id ok => r.complete id ok
  | .look => r
  | .wait dt => { r with now := r.now + max dt 0 }

end Reference

namespace Traffic

/-- Nobody calls while a call is inside its `fn`. -/
def NoOverlap (s : Traffic) : Step → Prop
  | .call => s.running = []
  | _ => True

instance (s : Traffic) : DecidablePred (NoOverlap s)
  | .call => inferInstanceAs (Decidable (_ = _))
  | .complete _ _ | .look | .wait _ => .isTrue trivial

/-- The fields stand for the past of the log; HALF_OPEN is an opening whose timeout is over, and the call
inside its `fn` is a trial exactly then. -/
structure Simulates (s : Traffic) (r : Reference) : Prop where
  threshold : r.threshold = s.breaker.threshold
  resetTimeout : r.resetTimeout = s.breaker.resetTimeout
  now : r.now = s.now
  fresh : r.fresh = s.fresh
  running : r.running = s.running
  log : r.log = s.log
  failures : r.past.failures = s.breaker.failures
  opening : r.past.opening = if s.breaker.state = .closed then none else some s.breaker.openedAt
  lapsed : s.breaker.state = .halfOpen → s.breaker.resetTimeout ≤ s.now - s.breaker.openedAt
  single : s.running = [] ∨ ∃ a, s.running = [a] ∧ s.breaker.state ≠ .opened ∧
    a.trial = (s.breaker.state == .halfOpen)

variable {s : Traffic} {r : Reference}

theorem new_simulates (threshold : Nat) (resetTimeout now : ℚ) :
    Simulates (new threshold resetTimeout now) { threshold, resetTimeout, now } :=
  ⟨rfl, rfl, rfl, rfl, rfl, rfl, rfl, rfl, nofun, .inl rfl⟩

/-- The reference turns away whom the breaker refuses. -/
theorem Simulates.blocks_iff (h : Simulates s r) : r.Blocks ↔ s.breaker.Refuses s.now := by
  unfold Reference.Blocks CircuitBreaker.Refuses
  rw [h.opening, h.now, h.resetTimeout]
  cases hst : s.breaker.state with
  | closed => simp
  | opened => simp
  | halfOpen =>
    have hl := h.lapsed hst
    simp only [reduceCtorEq, if_false, Option.some.injEq, exists_eq_left', false_and, iff_false]
    exact not_lt.2 hl

/-- A reader of the state sees the reference's. -/
theorem Simulates.state_eq (h : Simulates s r) : (s.breaker.look s.now).state = r.state := by
  have hb := h.blocks_iff
  have ho := h.opening
  unfold Reference.state
  by_cases hr : s.breaker.Refuses s.now
  · rw [if_neg (by rw [ho, hr.1]; simp), if_pos (hb.2 hr)]
    exact (s.breaker.look_opened_iff s.now).2 hr
  · rw [if_neg (hb.not.2 hr)]
    have hno : (s.breaker.look s.now).state ≠ .opened := (s.breaker.look_opened_iff s.now).not.2 hr
    have hcl := s.breaker.look_closed_iff s.now
    by_cases hc : s.breaker.state = .closed
    · rw [if_pos (by rw [ho, if_pos hc])]
      exact hcl.2 hc
    · rw [if_neg (by rw [ho, if_neg hc]; simp)]
      cases hs : (s.breaker.look s.now).state with
      | closed => exact absurd (hcl.1 hs) hc
      | opened => exact absurd hs hno
      | halfOpen => rfl

/-- Looking at the breaker leaves everything as simulated; what has lapsed is HALF_OPEN now. -/
theorem Simulates.look (h : Simulates s r) : Simulates { s with breaker := s.breaker.look s.now } r := by
  unfold CircuitBreaker.look
  split
  · rename_i hl
    refine ⟨h.threshold, h.resetTimeout, h.now, h.fresh, h.running, h.log, h.failures, ?_, fun _ => hl.2, ?_⟩
    · rw [h.opening, hl.1]
      rfl
    · rcases h.single with hs | ⟨a, -, hno, -⟩
      · exact .inl hs
      · exact absurd hl.1 hno
  · exact h

theorem Simulates.call (h : Simulates s r) (hidle : s.running = []) : Simulates s.call r.call := by
  have hlook := h.look
  have hb := h.blocks_iff
  rcases s.call_cases with ⟨hr, he⟩ | ⟨hr, he⟩ <;> rw [he]
  · rw [Reference.call, if_neg (hb.not.2 hr)]
    have hno : (s.breaker.look s.now).state ≠ .opened := (s.breaker.look_opened_iff s.now).not.2 hr
    have ho : r.past.opening = if (s.breaker.look s.now).state = .closed then none
        else some (s.breaker.look s.now).openedAt := hlook.opening
    have htrial : r.past.opening.isSome = ((s.breaker.look s.now).state == .halfOpen) := by
      rw [ho]
      cases hst : (s.breaker.look s.now).state with
      | closed => rfl
      | opened => exact absurd hst hno
      | halfOpen => rfl
    dsimp only
    rw [htrial, h.fresh, h.now, h.log, h.running, hidle]
    refine ⟨hlook.threshold, hlook.resetTimeout, rfl, rfl, rfl, rfl, ?_, ?_, hlook.lapsed, ?_⟩
    · simpa [Reference.past, Past.next, ← h.log] using hlook.failures
    · simpa [Reference.past, Past.next, ← h.log] using hlook.opening
    · exact .inr ⟨_, rfl, hno, rfl⟩
  · rw [Reference.call, if_pos (hb.2 hr), h.fresh, h.now, h.log]
    refine ⟨hlook.threshold, hlook.resetTimeout, rfl, rfl, h.running, rfl, ?_, ?_, hlook.lapsed, hlook.single⟩
    · simpa [Reference.past, Past.next, ← h.log] using hlook.failures
    · simpa [Reference.past, Past.next, ← h.log] using hlook.opening

/-- A call that returns was the only one inside, and leaves nobody there. -/
theorem Simulates.inside (h : Simulates s r) {id : Nat} {a : Attempt} (hf : s.running.find? (·.id = id) = some a) :
    s.running.filter (·.id ≠ id) = [] ∧ s.breaker.state ≠ .opened ∧ a.trial = (s.breaker.state == .halfOpen) := by
  rcases h.single with hn | ⟨b, hb, hno, htr⟩
  · rw [hn] at hf
    cases hf
  · have hmem := List.mem_of_find?_eq_some hf
    have hid := List.find?_some hf
    rw [hb, List.mem_singleton] at hmem
    subst hmem
    exact ⟨by simpa [hb] using hid, hno, htr⟩

/-- The reference opens on the failures that open the breaker. -/
theorem Simulates.opens_iff (h : Simulates s r) {trial : Bool} (htr : trial = (s.breaker.state == .halfOpen)) :
    (r.threshold ≤ r.past.failures + 1 ∨ trial = true) ↔ s.breaker.Opens := by
  rw [h.threshold, h.failures, htr, CircuitBreaker.Opens, beq_iff_eq, or_comm]

theorem Simulates.complete (h : Simulates s r) (id : Nat) (ok : Bool) :
    Simulates (s.complete id ok) (r.complete id ok) := by
  unfold Reference.complete
  rw [h.running]
  cases hf : s.running.find? (·.id = id) with
  | none =>
    have hany : s.running.any (·.id = id) = false := by
      simpa [List.any_eq_false] using hf
    rw [Traffic.complete, if_neg (by simp [hany])]
    exact h
  | some a =>
    obtain ⟨hout, hno, htr⟩ := h.inside hf
    have hopens := h.opens_iff htr
    have hany : s.running.any (·.id = id) = true :=
      List.any_eq_true.2 ⟨a, List.mem_of_find?_eq_some hf, by simpa using List.find?_some hf⟩
    rcases s.complete_cases id ok with ⟨hr, -⟩ | ⟨-, rfl, he⟩ | ⟨-, rfl, ho, he⟩ | ⟨-, rfl, ho, he⟩
    · rw [hany] at hr
      cases hr
    · rw [he]
      dsimp only
      rw [if_pos rfl]
      refine ⟨h.threshold, h.resetTimeout, h.now, h.fresh, rfl, ?_, ?_, ?_, by simp [CircuitBreaker.onSuccess], .inl hout⟩
      · rw [h.log, h.now]
      · simp [Reference.past, Past.next, CircuitBreaker.onSuccess]
      · simp [Reference.past, Past.next]
    · rw [he]
      dsimp only
      rw [if_neg (by simp), if_pos (hopens.2 ho)]
      refine ⟨h.threshold, h.resetTimeout, h.now, h.fresh, rfl, ?_, ?_, ?_, by simp, .inl hout⟩
      · rw [h.log, h.now]
      · have hp := h.failures
        simpa [Reference.past, Past.next] using hp
      · simp [Reference.past, Past.next, h.now]
    · have hcl : s.breaker.state = .closed := by
        cases hst : s.breaker.state with
        | closed => rfl
        | opened => exact absurd hst hno
        | halfOpen => exact absurd (.inl hst) ho
      rw [he]
      dsimp only
      rw [if_neg (by simp), if_neg (hopens.not.2 ho)]
      refine ⟨h.threshold, h.resetTimeout, h.now, h.fresh, rfl, ?_, ?_, ?_, h.lapsed, .inl hout⟩
      · rw [h.log, h.now, hcl]
      · have hp := h.failures
        simpa [Reference.past, Past.next] using hp
      · have hp := h.opening
        simpa [Reference.past, Past.next] using hp

theorem step_simulates (s : Traffic) (r : Reference) (i : Step) (h : Simulates s r) (hc : NoOverlap s i) :
    Simulates (step s i) (r.step i) := by
  cases i with
  | call => exact h.call hc
  | complete id ok => exact h.complete id ok
  | look => exact h.look
  | wait dt =>
    refine ⟨h.threshold, h.resetTimeout, ?_, h.fresh, h.running, h.log, h.failures, h.opening, fun hst => ?_, h.single⟩
    · simp only [Reference.step, step, h.now]
    · have hl := h.lapsed hst
      have hge : (0 : ℚ) ≤ max dt 0 := le_max_right _ _
      simp only [step]
      linarith

/-- A call that is turned away leaves the breaker, and who is inside it, as they were. -/
theorem rejected_same (hr : s.breaker.Refuses s.now) :
    s.call = { s with fresh := s.fresh + 1, log := s.log ++ [.rejected s.fresh s.now] } := by
  rcases s.call_cases with ⟨hn, -⟩ | ⟨-, he⟩
  · exact absurd hr hn
  · have hlook : s.breaker.look s.now = s.breaker := by
      rw [CircuitBreaker.look, if_neg fun hl => absurd hr.2 (not_lt.2 hl.2)]
    rw [he, hlook]

/-- **`refines`**: over every run of calls that do not overlap, whoever looks at the state and whenever, the
breaker lets in, turns away and opens exactly as the reference does, shows the state the reference shows, and
a call that is turned away changes nothing. -/
theorem refines (threshold : Nat) (resetTimeout now : ℚ) (is : List Step)
    (h : Run.Along step NoOverlap (new threshold resetTimeout now) is) :
    let s := Run.exec step (new threshold resetTimeout now) is
    let r := Run.exec Reference.step { threshold, resetTimeout, now } is
    s.log = r.log ∧ s.running = r.running ∧ (s.breaker.look s.now).state = r.state ∧
      (r.Blocks → s.call = { s with fresh := s.fresh + 1, log := s.log ++ [.rejected s.fresh s.now] }) := by
  have hsim := Run.exec_sim step_simulates is _ _ (new_simulates threshold resetTimeout now) h
  exact ⟨hsim.log.symm, hsim.running.symm, hsim.state_eq, fun hb => rejected_same (hsim.blocks_iff.1 hb)⟩

/-- A call fails and opens the breaker, the next is turned away, and the trial after 45 s succeeds. -/
def tripAndTrial : List Step :=
  [.call, .complete 0 false, .call, .wait 45, .look, .call, .complete 2 true]

theorem tripAndTrial_refines : (Run.exec step (new 1 45 0) tripAndTrial).log =
    [.admitted 0 0 false, .completed 0 false 0 .opened, .opened 0, .rejected 1 0, .admitted 2 45 true,
     .completed 2 true 45 .closed] :=
  (refines 1 45 0 tripAndTrial (by decide +kernel)).1.trans (by decide +kernel)

end Traffic

end DialPass
