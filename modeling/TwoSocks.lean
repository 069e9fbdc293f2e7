import TwoSocks.Program.Tree
import TwoSocks.Program.Termination
import TwoSocks.Program.Spec
import TwoSocks.Program.Pool
import TwoSocks.Program.Recency
import TwoSocks.Program.Events
import TwoSocks.Program.Cells
import TwoSocks.Program.RwLock
import TwoSocks.Program.Deferral
import TwoSocks.Server.Types
import TwoSocks.Server.Sys
import TwoSocks.Server.Wire
import TwoSocks.Server.Memory
import TwoSocks.Server.Relay
import TwoSocks.Server.Udp
import TwoSocks.Server.Client
import TwoSocks.Server.Process
import TwoSocks.Server.Locking
import TwoSocks.Server.Serving
import TwoSocks.Server.Accept
import TwoSocks.Server.Rules
import TwoSocks.App.ViewModel
import TwoSocks.App.Transfer
import TwoSocks.App.Lifecycle
import TwoSocks.App.Bridge
import TwoSocks.Proofs.Relay
import TwoSocks.Proofs.InetText
import TwoSocks.Proofs.Codec
import TwoSocks.Proofs.Reply
import TwoSocks.Proofs.UdpTable
import TwoSocks.Proofs.UdpAssociation
import TwoSocks.Proofs.UdpFreshness
import TwoSocks.Proofs.UdpIsolation
import TwoSocks.Proofs.UdpExact
import TwoSocks.Proofs.ReplyScan
import TwoSocks.Proofs.Operations
import TwoSocks.Proofs.Auth
import TwoSocks.Proofs.Sections
import TwoSocks.Proofs.Locking
import TwoSocks.Proofs.Interleaving
import TwoSocks.Proofs.UdpRules
import TwoSocks.Proofs.Lifecycle
import TwoSocks.Proofs.Accounting
import TwoSocks.Proofs.Connections
import TwoSocks.Proofs.ConnectionTable
import TwoSocks.Proofs.Pipeline
import TwoSocks.Proofs.AddressParser
import TwoSocks.Proofs.Destination
import TwoSocks.Proofs.Drain
import TwoSocks.Proofs.Descriptors
import TwoSocks.Proofs.Isolation
import TwoSocks.Proofs.UdpSource
import TwoSocks.Proofs.Segments
import TwoSocks.Proofs.AcceptLoop
import TwoSocks.Proofs.TransferTotals
import TwoSocks.Proofs.ServerLifecycle
import TwoSocks.Proofs.Credentials
import TwoSocks.Proofs.AuthMethod
import TwoSocks.Proofs.Conversation
import TwoSocks.Proofs.SessionTotals
import TwoSocks.Proofs.Metering
import TwoSocks.Proofs.Sblist
import TwoSocks.Proofs.Reentry
import TwoSocks.Proofs.Startup
import TwoSocks.Proofs.Launch
import TwoSocks.Proofs.Work
