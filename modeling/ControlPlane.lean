import ControlPlane.Client.Guarded
import ControlPlane.Client.Remote
import ControlPlane.Client.Scripted
import ControlPlane.Client.Session
import ControlPlane.Client.Settings
import ControlPlane.Client.Shown
import ControlPlane.Executor.Mock
import ControlPlane.Http.EventStream
import ControlPlane.Main
import ControlPlane.Proofs.Client.Capture
import ControlPlane.Proofs.Client.FaultySinks
import ControlPlane.Proofs.Client.Guarded
import ControlPlane.Proofs.Client.Handle
import ControlPlane.Proofs.Client.Lifecycle
import ControlPlane.Proofs.Client.Session
import ControlPlane.Proofs.Client.Settings
import ControlPlane.Proofs.Client.WorkDirectory
import ControlPlane.Proofs.Config.Contents
import ControlPlane.Proofs.Config.Credentials
import ControlPlane.Proofs.Config.Manifest
import ControlPlane.Proofs.Event.Lines
import ControlPlane.Proofs.Event.Payload
import ControlPlane.Proofs.Event.RoundTrip
import ControlPlane.Proofs.Event.Stream
import ControlPlane.Proofs.ExecOpts
import ControlPlane.Proofs.Executor.Arguments
import ControlPlane.Proofs.Executor.Keeping
import ControlPlane.Proofs.Executor.RoundTrip
import ControlPlane.Proofs.Json.Line
import ControlPlane.Proofs.Json.RoundTrip
import ControlPlane.Proofs.Server.Agreement
import ControlPlane.Proofs.Server.Exclusion
import ControlPlane.Proofs.Server.Independence
import ControlPlane.Proofs.Server.Order
import ControlPlane.Proofs.Server.Refusals
import ControlPlane.Proofs.Server.Registry
import ControlPlane.Proofs.Server.Sequence
import ControlPlane.Proofs.Server.Site
import ControlPlane.Proofs.Server.Transparency
import ControlPlane.Proofs.Server.Validation
import ControlPlane.Proofs.Text.Segments
import ControlPlane.Proofs.Transfer.Delivery
import ControlPlane.Proofs.Transfer.Emptiness
import ControlPlane.Proofs.Transfer.Entries
import ControlPlane.Proofs.Transfer.Excludes
import ControlPlane.Proofs.Transfer.Frame
import ControlPlane.Proofs.Transfer.Grafting
import ControlPlane.Proofs.Transfer.Joining
import ControlPlane.Proofs.Transfer.Layout
import ControlPlane.Proofs.Transfer.Matches
import ControlPlane.Proofs.Transfer.Paths
import ControlPlane.Proofs.Transfer.Piecewise
import ControlPlane.Proofs.Transfer.Pruning
import ControlPlane.Proofs.Transfer.Roots
import ControlPlane.Proofs.Transfer.Taking
import ControlPlane.Proofs.Volume.Altering
import ControlPlane.Proofs.Wire.Canonical
import ControlPlane.Proofs.Wire.Config
import ControlPlane.Proofs.Wire.RoundTrip
import ControlPlane.Proofs.Wire.Strict
import ControlPlane.Proofs.Wire.Translation
import ControlPlane.Redacted
import ControlPlane.Server.Handler
import ControlPlane.Server.Workers
import ControlPlane.Toml.Reader
