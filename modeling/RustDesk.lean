import RustDesk.PortForward.SinkBound
import RustDesk.PortForward.Honest
import RustDesk.PortForward.Integrity
import RustDesk.Vless.Request
import RustDesk.Vless.Response
import RustDesk.Secure.Handshake
import RustDesk.Rendezvous.Identity
import RustDesk.Rendezvous.Routing
import RustDesk.Rendezvous.Pushes
import RustDesk.Relay.TwoEnds
import RustDesk.FileTransfer.Completion
import RustDesk.FileTransfer.Source
import RustDesk.FileTransfer.Delegated
import RustDesk.FileTransfer.Upload
import RustDesk.FileTransfer.Overwrite
import RustDesk.FileTransfer.Resume
import RustDesk.FileTransfer.EndToEnd
import RustDesk.Login.SwitchSides
import RustDesk.Login.Admission
import RustDesk.Login.Scope
import RustDesk.TrustedDevices.Lifetime
import RustDesk.Settings.Tunnels
import RustDesk.TrustedDevices.Removal
import RustDesk.Rendezvous.IpBlocker
import RustDesk.Login.Failures
import RustDesk.Video.Reduction
import RustDesk.Video.Isolation
import RustDesk.Relay.Transparency
import RustDesk.Settings.StoredSecrets
import RustDesk.FileTransfer.Compression
import RustDesk.Terminal.Replay
import RustDesk.Clipboard.Lists
import RustDesk.Display.Layout
import RustDesk.Service.Snapshot
import RustDesk.Input.LegacyMode
import RustDesk.Privacy.TurnOn
