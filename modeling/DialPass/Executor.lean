import DialPass.Buffer
/-!
# Tier 2 calls and the executor that runs them (realtime/protocol.py, agent/executor.py)

A job is the closure `AgentSession` submits; what it captures is kept (the audio snapshot and, for
a menu, the goal). `ThreadedExecutor` runs one job in the background: whether it is done by the time
`poll` looks, and what it came to, is up to the environment, which answers for either kind of call
(`Answer`). The pool's shutdown cancels nothing that is running, so a closed executor still polls
(executor.py:87); it only refuses `submit`.
-/

namespace DialPass

/-- protocol.py:17 -/
structure MenuDecision where
  digits : Option String
  rationale : String := ""
deriving DecidableEq, Repr

/-- protocol.py:23 -/
structure ProbeOutcome where
  isHuman : Bool
  transcript : String := ""
  ok : Bool := true
deriving DecidableEq, Repr

/-- `not decision.digits` (session.py:246) is false: there is something to press. -/
def MenuDecision.presses (d : MenuDecision) : Bool :=
  match d.digits with
  | some s => !s.isEmpty
  | none => false

/-- The exceptions `_poll_tier2` tells apart (session.py:219-238). -/
inductive Tier2Error where
  | notImplemented | circuitOpen | unavailable (msg : String) | other (msg : String)
deriving DecidableEq, Repr

/-- `_tier2_kind` (session.py:103). -/
inductive Tier2Kind where
  | menu | probe
deriving DecidableEq, Repr

/-- What a call to `choose_menu_digit` or `probe` returns; untyped in the source. -/
inductive Tier2Value where
  | decision (d : MenuDecision)
  | outcome (o : ProbeOutcome)
deriving DecidableEq, Repr

/-- executor.py:31: exactly one of value and error. -/
abbrev Tier2Result := Except Tier2Error Tier2Value

/-- The closure handed to `submit` (session.py:199, session.py:208). -/
structure Job where
  kind : Tier2Kind
  snap : Pcm
  goal : Option String := none
deriving DecidableEq, Repr

/-- What `self._breaker.call(self.tier2.…)` comes to, for either kind of job. -/
structure Answer where
  menu : Except Tier2Error MenuDecision := .ok ⟨none, ""⟩
  probe : Except Tier2Error ProbeOutcome := .ok ⟨false, "", true⟩

/-- A job's own call, run to its end. -/
def Job.run (j : Job) (a : Answer) : Tier2Result :=
  match j.kind with
  | .menu => a.menu.map .decision
  | .probe => a.probe.map .outcome

/-- executor.py:67 -/
structure ThreadedExecutor where
  future : Option Job := none
  closed : Bool := false

namespace ThreadedExecutor

/-- `submit` (executor.py:74); `none` is the pool's RuntimeError after shutdown. A job still running
is dropped. -/
def submit (ex : ThreadedExecutor) (j : Job) : Option ThreadedExecutor :=
  if ex.closed then none else some { ex with future := some j }

/-- `poll` (executor.py:79), when the job's answer has (`some`) or has not (`none`) arrived. -/
def poll (ex : ThreadedExecutor) (answer : Option Answer) : ThreadedExecutor × Option (Job × Tier2Result) :=
  match ex.future, answer with
  | some j, some a => ({ ex with future := none }, some (j, j.run a))
  | _, _ => (ex, none)

/-- `close` (executor.py:87). -/
def close (ex : ThreadedExecutor) : ThreadedExecutor := { ex with closed := true }

end ThreadedExecutor

end DialPass
