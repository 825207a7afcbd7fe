import DialPass.Buffer
/-!
# G.711 mu-law (telephony/audio.py)

`ulawDecode` is one entry of `_ULAW_DECODE`. Encoding takes the nearest of the 256 sorted levels, the
lower one on a tie, and collapses the two bytes of level 0 to `0xFF`, so the order numpy's `argsort`
leaves them in does not matter.
-/

namespace DialPass

/-- `_build_ulaw_decode_table` (audio.py:13), entry `i`. -/
def ulawDecode (i : UInt8) : Int :=
  let u := 255 - i.toNat
  let exponent := u / 16 % 8
  let mantissa := u % 16
  let magnitude : Int := ((mantissa * 8 + 0x84) * 2 ^ exponent : Nat) - 0x84
  if u / 128 = 1 then -magnitude else magnitude

/-- `ulaw_to_pcm16` (audio.py:34). -/
def ulawToPcm16 (data : List UInt8) : Pcm := data.map fun b => Int16.ofInt (ulawDecode b)

/-- `_ULAW_DECODE`, each level with its byte. -/
def ulawTable : List (Int × UInt8) := (List.range 256).map fun i => (ulawDecode (UInt8.ofNat i), UInt8.ofNat i)

/-- `_LEVELS` with `_LEVEL_TO_BYTE` (audio.py:28): the decode levels in order, each with its byte. -/
def ulawLevels : List (Int × UInt8) := ulawTable.insertionSort fun p q => p.1 ≤ q.1

/-- audio.py:31 -/
def ulawSilence : UInt8 := 0xFF

/-- `np.clip(samples, -32768, 32767)`. -/
def clip16 (sample : Int) : Int := max (-32768) (min sample 32767)

/-- One sample of `pcm16_to_ulaw` (audio.py:40), on the table as `argsort` left it. -/
def ulawEncodeWith (levels : List (Int × UInt8)) (sample : Int) : UInt8 :=
  let s := clip16 sample
  -- `searchsorted`: how many levels lie below the sample
  let idx := min (levels.countP fun p => p.1 < s) 255
  let lo := idx - 1
  let hi := levels.getD idx (0, ulawSilence)
  let below := levels.getD lo (0, ulawSilence)
  let chosen := if |s - below.1| ≤ |s - hi.1| then below.2 else hi.2
  if chosen = 0x7F then ulawSilence else chosen

/-- One sample of `pcm16_to_ulaw` (audio.py:40). -/
def ulawEncode (sample : Int) : UInt8 := ulawEncodeWith ulawLevels sample

/-- `pcm16_to_ulaw` (audio.py:40). -/
def pcm16ToUlaw (samples : Pcm) : List UInt8 := samples.map fun s => ulawEncode s.toInt

end DialPass
