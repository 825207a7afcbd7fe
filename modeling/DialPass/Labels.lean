import Mathlib
/-!
# Tier 1's per-frame labels (agent/labels.py)
-/

namespace DialPass

/-- labels.py:12 -/
inductive Label where
  | ringback | menuSpeaking | menuAwaitingInput | holdMusic | holdInterjection
  | liveSpeechCandidate | voicemail | errorTone | silence | unknown
deriving DecidableEq, Repr

/-- labels.py:26 -/
def menuLabels : Finset Label := {.menuSpeaking, .menuAwaitingInput}

/-- labels.py:32 -/
def speechyLabels : Finset Label := menuLabels ∪ {.liveSpeechCandidate}

/-- labels.py:35 -/
def nonConnectLabels : Finset Label := {.voicemail, .errorTone}

/-- labels.py:38 -/
def holdLabels : Finset Label := {.holdMusic, .holdInterjection, .silence}

end DialPass
