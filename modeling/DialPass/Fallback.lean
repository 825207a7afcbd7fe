import Mathlib
/-!
# What the user is texted when a call cannot finish (resilience/fallback.py)
-/

namespace DialPass

/-- fallback.py:10 -/
def fallbackDefault : String :=
  "DialPass couldn't finish that call. Sorry about that — give it another try in a bit."

/-- fallback.py:12 -/
def fallbackByReason : List (String × String) := [
  ("tier2_unavailable", "DialPass is having trouble with the part that listens to the menu right " ++
    "now. The call was ended — please try again shortly."),
  ("tier2_circuit_open", "DialPass is having trouble with the part that listens to the menu right " ++
    "now. The call was ended — please try again shortly."),
  ("non_connect", "That number went to voicemail or didn't connect, so DialPass hung up. " ++
    "Double-check the number and try again."),
  ("dropped", "The call to that number dropped and DialPass couldn't get back through. Please try again."),
  ("redial_failed", "The call dropped and DialPass couldn't redial. Please try again."),
  ("user_left", "Looks like you hung up before DialPass reached a person. Call back when " ++
    "you're ready and it'll try again."),
  ("handoff_error", "DialPass reached a person but couldn't connect you. Sorry — please try again.")]

/-- `fallback_message` (fallback.py:39). -/
def fallbackMessage (reason : String) : String := (fallbackByReason.lookup reason).getD fallbackDefault

/-- `_USER_SMS` (bridge.py:46): what the user is texted when the relay opens. -/
def userSms : String := "DialPass reached a live agent — you're connected now. Go ahead and talk."

theorem lookup_mem_snd {l : List (String × String)} {k v : String} (h : l.lookup k = some v) :
    v ∈ l.map Prod.snd := by
  induction l with
  | nil => simp at h
  | cons p rest ih =>
    obtain ⟨j, w⟩ := p
    rw [List.lookup_cons] at h
    split at h
    · cases h; simp
    · exact List.mem_cons_of_mem _ (ih h)

/-- No reason reads as success: a fallback text is never the handoff text. -/
theorem fallbackMessage_ne_userSms (reason : String) : fallbackMessage reason ≠ userSms := by
  unfold fallbackMessage
  cases h : fallbackByReason.lookup reason with
  | none => decide
  | some v =>
    have hall : ∀ w ∈ fallbackByReason.map Prod.snd, w ≠ userSms := by decide
    exact hall v (lookup_mem_snd h)

end DialPass
