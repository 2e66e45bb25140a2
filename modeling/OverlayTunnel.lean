import OverlayTunnel.Config.Load
import OverlayTunnel.Host.Backend
import OverlayTunnel.Host.Scripted
import OverlayTunnel.Member.Json
import OverlayTunnel.Proofs.Device.Merge
import OverlayTunnel.Proofs.Member.Peers
import OverlayTunnel.Proofs.Reconciler.Performs
import OverlayTunnel.Proofs.Table.Reachable
import OverlayTunnel.Session
import OverlayTunnel.Table.Backend
import OverlayTunnel.Proofs.Reconciler.BringUp
import OverlayTunnel.Proofs.Reconciler.Snapshot
import OverlayTunnel.Proofs.Reconciler.Recovery
import OverlayTunnel.Proofs.Reconciler.Leftovers
import OverlayTunnel.Proofs.Reconciler.Conversation
import OverlayTunnel.Proofs.Reconciler.Repeat
import OverlayTunnel.Proofs.Address.Text
import OverlayTunnel.Proofs.Address.Notation
import OverlayTunnel.Proofs.Key.Text
import OverlayTunnel.Proofs.Key.Canonical
import OverlayTunnel.Proofs.Device.DumpText
import OverlayTunnel.Proofs.Device.SetupText
import OverlayTunnel.Proofs.Host.Tools
import OverlayTunnel.Proofs.Host.Running
import OverlayTunnel.Proofs.Host.Arguments
import OverlayTunnel.Proofs.Host.Mirror
import OverlayTunnel.Proofs.Host.Tunnel
import OverlayTunnel.Proofs.Host.Simulated
import OverlayTunnel.Proofs.Reconciler.Backends
import OverlayTunnel.Proofs.Device.MergeOrder
import OverlayTunnel.Proofs.Host.Merge
import OverlayTunnel.Proofs.Table.Transition
import OverlayTunnel.Proofs.Reconciler.Logging
import OverlayTunnel.Proofs.Table.Creation
import OverlayTunnel.Proofs.Table.WellFormed
import OverlayTunnel.Proofs.Reconciler.TakeDown
import OverlayTunnel.Proofs.Address.Derived
import OverlayTunnel.Proofs.Address.Assigned
import OverlayTunnel.Proofs.Digest.LowBits
import OverlayTunnel.Proofs.Address.Distinct
import OverlayTunnel.Proofs.Table.Incarnation
import OverlayTunnel.Proofs.Reconciler.Independence
import OverlayTunnel.Proofs.Reconciler.Resemblance
import OverlayTunnel.Proofs.Host.Resemblance
import OverlayTunnel.Proofs.Host.Secrecy
import OverlayTunnel.Proofs.Host.Account
import OverlayTunnel.Proofs.Host.ToolUse
import OverlayTunnel.Proofs.Json.Written
import OverlayTunnel.Proofs.Config.Saved
import OverlayTunnel.Proofs.Device.Sections
import OverlayTunnel.Proofs.Device.DumpStyle
import OverlayTunnel.Proofs.Reconciler.Endings
import OverlayTunnel.Proofs.Host.Remembered
import OverlayTunnel.Proofs.Host.InOrder
import OverlayTunnel.Proofs.Host.Retry
import OverlayTunnel.Proofs.Member.Exchange
import OverlayTunnel.Proofs.Table.Framed
import OverlayTunnel.Proofs.Table.Configured
import OverlayTunnel.Proofs.Address.Pinned
import OverlayTunnel.Proofs.Table.Reapplied
import OverlayTunnel.Proofs.Reconciler.Absence
import OverlayTunnel.Proofs.Host.HandedOver
import OverlayTunnel.Proofs.Host.Builds
import OverlayTunnel.Proofs.Reconciler.Progress
import OverlayTunnel.Proofs.Address.Truncated
import OverlayTunnel.Proofs.Device.DumpGrammar
import OverlayTunnel.Proofs.Member.Translated
