import DialPass.Lib.Run
import Mathlib
/-!
# The circuit breaker around Tier 2 (resilience/circuit_breaker.py)

One breaker serves every call (main.py:98). `call` holds its lock while it admits a caller and again
while it records how `fn` ended, but not while `fn` runs: between the two, other callers come and go.
`Traffic` is the breaker with the calls inside their `fn`, and `step` is one locked section, one reading
of `state`, or time going by. What happened is kept in `log`.

The clock is exact and never runs backwards. The threshold is compared by `>=` with a positive count, so
a negative one acts as 0.
-/

namespace DialPass

/-- circuit_breaker.py:19; `opened` is OPEN. -/
inductive BreakerState where
  | closed | opened | halfOpen
deriving DecidableEq, Repr

/-- circuit_breaker.py:29 -/
structure CircuitBreaker where
  threshold : Nat := 5
  resetTimeout : ℚ := 30
  state : BreakerState := .closed
  failures : Nat := 0
  openedAt : ℚ := 0

namespace CircuitBreaker

/-- OPEN, and its timeout has passed (circuit_breaker.py:49). -/
def Lapsed (b : CircuitBreaker) (now : ℚ) : Prop := b.state = .opened ∧ b.resetTimeout ≤ now - b.openedAt

instance (b : CircuitBreaker) (now : ℚ) : Decidable (b.Lapsed now) := inferInstanceAs (Decidable (_ ∧ _))

/-- The `state` property (circuit_breaker.py:46): reading it may move the breaker on. -/
def look (b : CircuitBreaker) (now : ℚ) : CircuitBreaker :=
  if b.Lapsed now then { b with state := .halfOpen } else b

/-- `call` up to `fn` (circuit_breaker.py:56); whether the caller is let in. -/
def enterCall (b : CircuitBreaker) (now : ℚ) : CircuitBreaker × Bool :=
  let b := b.look now
  (b, b.state ≠ .opened)

/-- `_on_success` (circuit_breaker.py:68). -/
def onSuccess (b : CircuitBreaker) : CircuitBreaker := { b with failures := 0, state := .closed }

/-- `_on_failure` (circuit_breaker.py:73). -/
def onFailure (b : CircuitBreaker) (now : ℚ) : CircuitBreaker :=
  let b := { b with failures := b.failures + 1 }
  if b.state = .halfOpen ∨ b.threshold ≤ b.failures then { b with state := .opened, openedAt := now } else b

/-- OPEN, and its timeout has not passed. -/
def Refuses (b : CircuitBreaker) (now : ℚ) : Prop := b.state = .opened ∧ now - b.openedAt < b.resetTimeout

instance (b : CircuitBreaker) (now : ℚ) : Decidable (b.Refuses now) := inferInstanceAs (Decidable (_ ∧ _))

@[simp] theorem look_threshold (b : CircuitBreaker) (now : ℚ) : (b.look now).threshold = b.threshold := by
  unfold look; split <;> rfl

@[simp] theorem look_resetTimeout (b : CircuitBreaker) (now : ℚ) :
    (b.look now).resetTimeout = b.resetTimeout := by
  unfold look; split <;> rfl

@[simp] theorem look_failures (b : CircuitBreaker) (now : ℚ) : (b.look now).failures = b.failures := by
  unfold look; split <;> rfl

@[simp] theorem look_openedAt (b : CircuitBreaker) (now : ℚ) : (b.look now).openedAt = b.openedAt := by
  unfold look; split <;> rfl

/-- Reading the state leaves OPEN standing exactly while callers are refused. -/
theorem look_opened_iff (b : CircuitBreaker) (now : ℚ) : (b.look now).state = .opened ↔ b.Refuses now := by
  unfold look
  split
  · rename_i h
    have hn : ¬ b.Refuses now := fun hr => absurd hr.2 (not_lt.2 h.2)
    simp [hn]
  · rename_i h
    constructor
    · intro ho
      exact ⟨ho, lt_of_not_ge fun hr => h ⟨ho, hr⟩⟩
    · exact And.left

/-- Reading the state never closes the breaker, nor opens a closed one. -/
theorem look_closed_iff (b : CircuitBreaker) (now : ℚ) : (b.look now).state = .closed ↔ b.state = .closed := by
  unfold look
  split
  · rename_i h
    simp [h.1]
  · rfl

@[simp] theorem enterCall_fst (b : CircuitBreaker) (now : ℚ) : (b.enterCall now).1 = b.look now := rfl

/-- A caller is let in unless the breaker refuses. -/
theorem enterCall_iff (b : CircuitBreaker) (now : ℚ) : (b.enterCall now).2 = true ↔ ¬ b.Refuses now := by
  simp [enterCall, ← look_opened_iff]

@[simp] theorem onSuccess_state (b : CircuitBreaker) : b.onSuccess.state = .closed := rfl

/-- The failure opens the breaker: it was a trial's, or one too many. -/
def Opens (b : CircuitBreaker) : Prop := b.state = .halfOpen ∨ b.threshold ≤ b.failures + 1

instance (b : CircuitBreaker) : Decidable b.Opens := inferInstanceAs (Decidable (_ ∨ _))

theorem onFailure_of_opens {b : CircuitBreaker} (h : b.Opens) (now : ℚ) :
    b.onFailure now = { b with failures := b.failures + 1, state := .opened, openedAt := now } := by
  unfold onFailure
  exact if_pos h

theorem onFailure_of_not_opens {b : CircuitBreaker} (h : ¬ b.Opens) (now : ℚ) :
    b.onFailure now = { b with failures := b.failures + 1 } := by
  unfold onFailure
  exact if_neg h

end CircuitBreaker

/-! ## Many callers -/

/-- A call inside its `fn`; `trial` says that it was let in by a HALF_OPEN breaker. -/
structure Attempt where
  id : Nat
  trial : Bool
deriving DecidableEq, Repr

/-- What happened at the breaker, and when; `completed` keeps the state it left. -/
inductive BreakerEvent where
  | admitted (id : Nat) (t : ℚ) (trial : Bool)
  | rejected (id : Nat) (t : ℚ)
  | completed (id : Nat) (ok : Bool) (t : ℚ) (state : BreakerState)
  | opened (t : ℚ)
deriving DecidableEq

structure Traffic where
  breaker : CircuitBreaker
  now : ℚ
  fresh : Nat := 0
  running : List Attempt := []
  log : List BreakerEvent := []

namespace Traffic

/-- A new breaker, at whatever the clock shows. -/
def new (threshold : Nat) (resetTimeout now : ℚ) : Traffic := { breaker := { threshold, resetTimeout }, now }

/-- A caller enters `call` (circuit_breaker.py:56). -/
def call (s : Traffic) : Traffic :=
  let (breaker, admitted) := s.breaker.enterCall s.now
  let trial := breaker.state == .halfOpen
  if admitted then
    { s with
      breaker
      fresh := s.fresh + 1
      running := s.running ++ [{ id := s.fresh, trial }]
      log := s.log ++ [.admitted s.fresh s.now trial] }
  else { s with breaker, fresh := s.fresh + 1, log := s.log ++ [.rejected s.fresh s.now] }

/-- The `fn` of call `id` returns or raises (circuit_breaker.py:60-66). -/
def complete (s : Traffic) (id : Nat) (ok : Bool) : Traffic :=
  if s.running.any (·.id = id) then
    let running := s.running.filter (·.id ≠ id)
    if ok then
      let breaker := s.breaker.onSuccess
      { s with breaker, running, log := s.log ++ [.completed id ok s.now breaker.state] }
    else
      let breaker := s.breaker.onFailure s.now
      { s with
        breaker
        running
        log := s.log ++ .completed id ok s.now breaker.state ::
          (if s.breaker.Opens then [.opened s.now] else []) }
  else s

inductive Step where
  | call
  | complete (id : Nat) (ok : Bool)
  | look
  | wait (dt : ℚ)

def step (s : Traffic) : Step → Traffic
  | .call => s.call
  | .complete id ok => s.complete id ok
  | .look => { s with breaker := s.breaker.look s.now }
  | .wait dt => { s with now := s.now + max dt 0 }

/-- The ids of the trials in flight. -/
def trials (s : Traffic) : List Nat := (s.running.filter (·.trial)).map (·.id)

/-- A call is let in, or turned away. -/
theorem call_cases (s : Traffic) :
    (¬ s.breaker.Refuses s.now ∧ s.call = { s with
      breaker := s.breaker.look s.now
      fresh := s.fresh + 1
      running := s.running ++ [{ id := s.fresh, trial := (s.breaker.look s.now).state == .halfOpen }]
      log := s.log ++ [.admitted s.fresh s.now ((s.breaker.look s.now).state == .halfOpen)] }) ∨
    (s.breaker.Refuses s.now ∧ s.call = { s with
      breaker := s.breaker.look s.now
      fresh := s.fresh + 1
      log := s.log ++ [.rejected s.fresh s.now] }) := by
  by_cases h : s.breaker.Refuses s.now
  · have ha : (s.breaker.enterCall s.now).2 = false := by simpa using (s.breaker.enterCall_iff s.now).not.2 (not_not.2 h)
    exact .inr ⟨h, by simp [call, ha]⟩
  · have ha : (s.breaker.enterCall s.now).2 = true := (s.breaker.enterCall_iff s.now).2 h
    exact .inl ⟨h, by simp [call, ha]⟩

/-- A completion: of no call, a success, or a failure that opens the breaker or only counts. -/
theorem complete_cases (s : Traffic) (id : Nat) (ok : Bool) :
    (s.running.any (·.id = id) = false ∧ s.complete id ok = s) ∨
    (s.running.any (·.id = id) = true ∧ ok = true ∧ s.complete id ok = { s with
      breaker := s.breaker.onSuccess
      running := s.running.filter (·.id ≠ id)
      log := s.log ++ [.completed id true s.now .closed] }) ∨
    (s.running.any (·.id = id) = true ∧ ok = false ∧ s.breaker.Opens ∧ s.complete id ok = { s with
      breaker := { s.breaker with failures := s.breaker.failures + 1, state := .opened, openedAt := s.now }
      running := s.running.filter (·.id ≠ id)
      log := s.log ++ [.completed id false s.now .opened, .opened s.now] }) ∨
    (s.running.any (·.id = id) = true ∧ ok = false ∧ ¬ s.breaker.Opens ∧ s.complete id ok = { s with
      breaker := { s.breaker with failures := s.breaker.failures + 1 }
      running := s.running.filter (·.id ≠ id)
      log := s.log ++ [.completed id false s.now s.breaker.state] }) := by
  cases hr : s.running.any (·.id = id) with
  | false => exact .inl ⟨rfl, by simp only [complete, hr]; rfl⟩
  | true =>
    cases ok with
    | true => exact .inr (.inl ⟨rfl, rfl, by simp only [complete, hr]; rfl⟩)
    | false =>
      by_cases ho : s.breaker.Opens
      · refine .inr (.inr (.inl ⟨rfl, rfl, ho, ?_⟩))
        simp only [complete, hr, ho, CircuitBreaker.onFailure_of_opens ho]
        rfl
      · refine .inr (.inr (.inr ⟨rfl, rfl, ho, ?_⟩))
        simp only [complete, hr, ho, CircuitBreaker.onFailure_of_not_opens ho]
        rfl

end Traffic

end DialPass
