import DialPass.Session
/-!
# Tier 1's classifiers (agent/classifier.py)

`acoustic_features` is floating-point signal processing and is not modelled: what it measured of a frame is a
`Features`, any seven numbers, and `HeuristicClassifier.classify` is the rules over them. `ScriptedClassifier`
replays a schedule, whatever it hears.
-/

namespace DialPass

/-- What `acoustic_features` returns (classifier.py:101-109). -/
structure Features where
  rms : ℚ
  zcr : ℚ
  flatness : ℚ
  tone460Ratio : ℚ
  quietFrac : ℚ
  envCv : ℚ
  mod4hz : ℚ

/-- As the dict it is, in the order of its display. -/
def Features.dict (f : Features) : List (String × ℚ) :=
  [("rms", f.rms), ("zcr", f.zcr), ("flatness", f.flatness), ("tone_460_ratio", f.tone460Ratio),
    ("quiet_frac", f.quietFrac), ("env_cv", f.envCv), ("mod_4hz", f.mod4hz)]

/-- `_EMPTY_FEATURES` (classifier.py:49), of a frame without samples. -/
def emptyFeatures : Features :=
  { rms := 0, zcr := 0, flatness := 1, tone460Ratio := 0, quietFrac := 1, envCv := 0, mod4hz := 0 }

namespace HeuristicClassifier

/-- classifier.py:122 -/
def silenceRms : ℚ := 1 / 100

/-- classifier.py:138 -/
def musicky (f : Features) : Prop := 1 / 2 ≤ f.mod4hz ∧ f.quietFrac < 32 / 100 ∧ f.envCv < 75 / 100

/-- classifier.py:139 -/
def speechy (f : Features) : Prop := 25 / 100 ≤ f.quietFrac ∨ 62 / 100 ≤ f.envCv

instance (f : Features) : Decidable (musicky f) := inferInstanceAs (Decidable (_ ∧ _))

instance (f : Features) : Decidable (speechy f) := inferInstanceAs (Decidable (_ ∨ _))

/-- `classify` (classifier.py:124), from the features on. -/
def classify (f : Features) : Classification :=
  if f.rms < silenceRms then ⟨.silence, 9 / 10, f.dict⟩
  else if 6 / 10 < f.tone460Ratio ∧ f.flatness < 1 / 10 then ⟨.ringback, 8 / 10, f.dict⟩
  else if musicky f then ⟨.holdMusic, 65 / 100, f.dict⟩
  else if speechy f then ⟨.liveSpeechCandidate, 6 / 10, f.dict⟩
  else if f.flatness < 8 / 100 ∧ f.envCv < 6 / 10 ∧ 45 / 100 ≤ f.mod4hz then ⟨.holdMusic, 55 / 100, f.dict⟩
  else ⟨.unknown, 4 / 10, f.dict⟩

/-- The labels it knows. No menu, no interjection, no voicemail and no error tone. -/
def labels : Finset Label := {.silence, .ringback, .holdMusic, .liveSpeechCandidate, .unknown}

theorem classify_label (f : Features) : (classify f).label ∈ labels := by
  unfold classify
  split_ifs <;> simp [labels]

end HeuristicClassifier

/-- classifier.py:153 -/
structure ScheduledLabel where
  label : Label
  t0 : ℚ
  t1 : ℚ

/-- classifier.py:159; the schedule as `__init__` was given it. -/
structure ScriptedClassifier where
  schedule : List ScheduledLabel
  confidence : ℚ := 95 / 100

/-- `classify` (classifier.py:166), over the schedule as `__init__` sorted it. -/
def ScriptedClassifier.classify (c : ScriptedClassifier) (frame : Frame) : Classification :=
  match (c.schedule.mergeSort fun a b => a.t0 ≤ b.t0).find? fun i => i.t0 ≤ frame.tStart ∧ frame.tStart < i.t1 with
  | some i => ⟨i.label, c.confidence, []⟩
  | none => ⟨.unknown, 3 / 10, []⟩

end DialPass
