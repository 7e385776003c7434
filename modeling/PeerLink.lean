import PeerLink.Client
import PeerLink.Config.Document
import PeerLink.Config.Environment
import PeerLink.Config.Problems
import PeerLink.Entity
import PeerLink.Fault.Kind
import PeerLink.Fault.Object
import PeerLink.Message.Pack
import PeerLink.Proofs.Block.Canonical
import PeerLink.Proofs.Cipher.Lossless
import PeerLink.Proofs.Compression.Limit
import PeerLink.Proofs.Config
import PeerLink.Proofs.Config.Bounds
import PeerLink.Proofs.Connection.Closing
import PeerLink.Proofs.Connection.Intake
import PeerLink.Proofs.Connection.Outbox
import PeerLink.Proofs.Datagram.LatestWins
import PeerLink.Proofs.Datagram.WakeUp
import PeerLink.Proofs.Endpoint.Blame
import PeerLink.Proofs.Endpoint.Partition
import PeerLink.Proofs.Endpoint.Registrations
import PeerLink.Proofs.Endpoint.Responses
import PeerLink.Proofs.Fault
import PeerLink.Proofs.Framing.Reassembly
import PeerLink.Proofs.Handshake.Admitting
import PeerLink.Proofs.Handshake.Freshness
import PeerLink.Proofs.Handshake.Joining
import PeerLink.Proofs.Handshake.Mixing
import PeerLink.Proofs.Handshake.Verdicts
import PeerLink.Proofs.Link.Correlation
import PeerLink.Proofs.Message.FrameCache
import PeerLink.Proofs.Message.Rollback
import PeerLink.Proofs.Message.Spelling
import PeerLink.Proofs.Message.Underrun
import PeerLink.Proofs.Message.Unpacking
import PeerLink.Proofs.Registry.Allocation
import PeerLink.Proofs.ReplyTable.History
import PeerLink.Proofs.ReplyTable.Search
import PeerLink.Proofs.Server.Admission
import PeerLink.Proofs.Server.Announcements
import PeerLink.Proofs.Server.Broadcast
import PeerLink.Proofs.Server.Datagrams
import PeerLink.Proofs.Server.Members
import PeerLink.Proofs.Transport.FrameLimit
import PeerLink.Proofs.WorkQueues.Balance
import PeerLink.Proofs.WorkQueues.Shutdown
import PeerLink.Server
import PeerLink.Text.Hex
