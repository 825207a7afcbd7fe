import Mathlib
/-!
# The rolling PCM buffer (agent/buffer.py)

Audio is a list of int16 samples in arrival order; numpy's slices are `pySlice`.
-/

namespace DialPass

abbrev Pcm := List Int16

/-- `xs[start:]` with Python's reading of a negative `start`. -/
def pySlice {α : Type} (xs : List α) (start : Int) : List α :=
  xs.drop (if start < 0 then (xs.length + start).toNat else start.toNat)

/-- buffer.py:8 -/
structure RollingBuffer where
  max : Int
  rate : Int
  data : Pcm := []

namespace RollingBuffer

/-- `__init__` (buffer.py:9): `int(seconds * sample_rate)` truncates toward zero. -/
def new (seconds : ℚ) (sampleRate : Int) : RollingBuffer :=
  { max := Int.tdiv (seconds * sampleRate).num (seconds * sampleRate).den, rate := sampleRate }

/-- `write` (buffer.py:14). -/
def write (b : RollingBuffer) (pcm : Pcm) : RollingBuffer :=
  { b with data := pySlice (b.data ++ pcm) (-b.max) }

/-- `tail` (buffer.py:19). -/
def tail (b : RollingBuffer) (ms : Int) : Pcm := pySlice b.data (-(Int.tdiv (b.rate * ms) 1000))

/-- `snapshot` (buffer.py:23). -/
def snapshot (b : RollingBuffer) : Pcm := b.data

end RollingBuffer

end DialPass
