import DialPass.Session.Quiet
import DialPass.Session.Verdict
import DialPass.Session.Attended
import DialPass.Session.Press
import DialPass.Session.Cap
import DialPass.Session.Agreement
import DialPass.Session.Replay
import DialPass.Session.Slot
import DialPass.Session.Musicless
import DialPass.Session.Heuristic
import DialPass.Session.Report
import DialPass.State.Evaluating
import DialPass.State.Debounce
import DialPass.State.Submenu
import DialPass.Resilience.Overlap
import DialPass.Resilience.Reference
import DialPass.Resilience.Health
import DialPass.Media.Reconnect
import DialPass.Media.Reaper
import DialPass.Media.Attach
import DialPass.Media.Handoff
import DialPass.Media.Notify
import DialPass.Media.Gone
import DialPass.Media.Context
import DialPass.Media.Teardown
import DialPass.Media.Loop
import DialPass.Bridge.Relay
import DialPass.Realtime.Stream
import DialPass.Realtime.Hearing
import DialPass.Realtime.Exchanges
import DialPass.Telemetry.Isolation
import DialPass.Telemetry.Sink
import DialPass.Telemetry.Pipeline
import DialPass.Session.Window
import DialPass.Realtime.Feeder
import DialPass.Realtime.Menu
import DialPass.Telephony.Companding
import DialPass.Telephony.Twiml
import DialPass.Session.Offline
import DialPass.Session.Process
import DialPass.Media.Presses
