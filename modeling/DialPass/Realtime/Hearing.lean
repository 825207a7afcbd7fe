import DialPass.Realtime.Wire
import DialPass.Session.Report
import DialPass.Session.Window
import DialPass.Telephony.Companding
/-!
# What the model hears of the line (agent/session.py:123-208, realtime/client.py:119-161)

The line's G.711 comes in as frames, is decoded, goes through the session's buffer, and a menu read encodes what the
buffer holds again, cuts it up, and sends it. `menuRead_hearsLine` is the whole way: at any moment of any call the
service is given the last bytes of the line as they came, up to the capacity of the buffer, the two codes of silence
being one.
-/

namespace DialPass

/-- A byte after one decoding and encoding: mu-law has two codes of level 0. -/
def idleByte (b : UInt8) : UInt8 := if b = 0x7F then ulawSilence else b

theorem pcm16ToUlaw_ulawToPcm16 (ulaw : List UInt8) : pcm16ToUlaw (ulawToPcm16 ulaw) = ulaw.map idleByte := by
  rw [pcm16ToUlaw_eq, pcm16ToUlawWith, ulawToPcm16, List.map_map, List.map_map]
  refine List.map_congr_left fun b _ => ?_
  rw [Function.comp_apply, Function.comp_apply, ulawDecode_int16, ulawEncodeWith_ulawDecode ulawLevels_sorts]
  rfl

theorem pcm16ToUlaw_rtake (pcm : Pcm) (n : Nat) : pcm16ToUlaw (pcm.rtake n) = (pcm16ToUlaw pcm).rtake n := by
  rw [pcm16ToUlaw, pcm16ToUlaw, List.rtake_eq_reverse_take_reverse, List.rtake_eq_reverse_take_reverse,
    List.map_reverse, List.map_take, List.map_reverse]

namespace AgentSession

/-- What the transport does to the session, in bytes of the line (bridge.py:110). -/
inductive LineMove where
  | audio (ulaw : List UInt8)
  | tick (i : Tick)
  | abort (reason : String)

def LineMove.move : LineMove → Move
  | .audio ulaw => .ingest (ulawToPcm16 ulaw)
  | .tick i => .tick i
  | .abort reason => .abort reason

def LineMove.bytes : LineMove → List UInt8
  | .audio ulaw => ulaw
  | _ => []

/-- All that came over the line. -/
def lineBytes (ms : List LineMove) : List UInt8 := ms.flatMap (·.bytes)

theorem fed_lineMoves (ms : List LineMove) : fed (ms.map (·.move)) = ulawToPcm16 (lineBytes ms) := by
  induction ms with
  | nil => rfl
  | cons m ms ih =>
    rw [List.map_cons, fed, List.flatMap_cons, lineBytes, List.flatMap_cons, ulawToPcm16, List.map_append]
    congr 1
    · cases m <;> rfl

/-- A move asks for menu reads for the session's goal, and leaves the goal. -/
theorem step_goal (s : AgentSession) (m : Move) : (step s m).goal = s.goal ∧
    ∃ es, (step s m).trace = s.trace ++ es ∧ ∀ j, .submit j ∈ es → j.kind = .menu → j.goal = s.goal := by
  obtain ⟨now, hg, es, htr, hes⟩ := step_reports s m
  exact ⟨hg, es, htr, fun j hj => hes _ hj⟩

/-- **`menuRead_hearsLine`**: for a buffer of at least one sample, after any run, if the next move asks for a menu
read, then what its exchange sends tells the service the caller's goal and, in one commit, the last of the line as
it is once decoded and encoded (0x7F goes out as 0xFF), however it came in frames and went out in pieces. The one
response it asks for is asked for after that. -/
theorem menuRead_hearsLine (py : Interpreter) (hpy : 5 ≤ py.maxDepth) (callId : String) (settings : Settings)
    (cfg : FsmConfig) (goal sid : Option String) (hcap : 1 ≤ settings.capacity) (ms : List LineMove) (m : LineMove) :
    let s := Run.exec step (new callId settings cfg goal sid) (ms.map (·.move))
    let line := ((lineBytes ms).map idleByte).rtake settings.capacity.toNat
    ∃ es, (step s m.move).trace = s.trace ++ es ∧ ∀ j, .submit j ∈ es → j.kind = .menu →
      ((menuEvents j.snap sampleRate j.goal).map (·.text)).foldlM (Service.hear py) {} = some
        { instructions := .ofString (menuInstructions goal), outputModality := .ofString "text", audioIn := true,
          committed := [line], asked := [⟨none, none, [line]⟩] } := by
  intro s line
  have hrolls : Rolls settings (fed (ms.map (·.move))) s := exec_rolls hcap _ (new_rolls callId settings cfg goal sid)
  have hgoal : s.goal = goal := Run.exec_inv (I := fun t => t.goal = goal)
    (fun t m h => (step_goal t m).1.trans h) _ _ rfl
  obtain ⟨es, htr, -, hsub⟩ := step_hears s m.move
  obtain ⟨-, fs, htr', hfs⟩ := step_goal s m.move
  obtain rfl : es = fs := List.append_cancel_left (htr.symm.trans htr')
  refine ⟨es, htr, fun j hj hk => ?_⟩
  obtain ⟨hgo, hsnap⟩ := hsub j hj
  have hline : pcm16ToUlaw j.snap = line := by
    rw [hsnap, RollingBuffer.snapshot, hrolls.data hgo, pcm16ToUlaw_rtake, fed_lineMoves, pcm16ToUlaw_ulawToPcm16]
  have hj : j.goal = goal := (hfs j hj hk).trans hgoal
  rw [Service.hear_menuTurn hpy, Service.menuAsked, hline, hj]

/-- Three bytes of a prompt, and the tick that hears it wakes Tier 2 at once. -/
theorem menuRead_firstPrompt :
    let m : LineMove := .tick { cls := { label := .liveSpeechCandidate, confidence := 1 } }
    let s := Run.exec step (new "CA1" { menuCollectS := 0 } { enterMenuFrames := 1 } (some "billing") none)
      ([LineMove.audio [0x00, 0x7F, 0x80]].map (·.move))
    ∃ j, .submit j ∈ (step s m.move).trace ∧
      ((menuEvents j.snap sampleRate j.goal).map (·.text)).foldlM (Service.hear { maxDepth := 5, maxRepr := 5 }) {} =
        some { instructions := .ofString (menuInstructions (some "billing")), outputModality := .ofString "text",
               audioIn := true, committed := [[0x00, 0xFF, 0x80]], asked := [⟨none, none, [[0x00, 0xFF, 0x80]]⟩] } := by
  intro m s
  obtain ⟨es, htr, h⟩ := menuRead_hearsLine { maxDepth := 5, maxRepr := 5 } le_rfl "CA1" { menuCollectS := 0 }
    { enterMenuFrames := 1 } (some "billing") none (by decide +kernel) [.audio [0x00, 0x7F, 0x80]] m
  have hj : .submit { kind := .menu, snap := ulawToPcm16 [0x00, 0x7F, 0x80], goal := some "billing" } ∈
      (step s m.move).trace := by decide +kernel
  have hquiet : s.trace = [] := by decide +kernel
  have hes : (step s m.move).trace = es := htr.trans (congrArg (· ++ es) hquiet)
  have hline : ((lineBytes [.audio [0x00, 0x7F, 0x80]]).map idleByte).rtake
      ({ menuCollectS := 0 } : Settings).capacity.toNat = [0x00, 0xFF, 0x80] := by decide +kernel
  have hread := h _ (hes ▸ hj) rfl
  rw [hline] at hread
  exact ⟨_, hj, hread⟩

end AgentSession

end DialPass
