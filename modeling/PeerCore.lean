import PeerCore.Addresses
import PeerCore.Base58
import PeerCore.Connection.AtRest
import PeerCore.Connection.Authentication
import PeerCore.Connection.Authenticity
import PeerCore.Connection.Channel
import PeerCore.Connection.Conversation
import PeerCore.Connection.Counterparts
import PeerCore.Connection.Delivery
import PeerCore.Connection.Frames
import PeerCore.Connection.Handles
import PeerCore.Connection.InStep
import PeerCore.Connection.Lifecycle
import PeerCore.Connection.Moves
import PeerCore.Connection.MuxerChoice
import PeerCore.Connection.Nonces
import PeerCore.Connection.Progress
import PeerCore.Connection.Reader
import PeerCore.Connection.Run
import PeerCore.Connection.Session
import PeerCore.Connection.Settling
import PeerCore.Connection.Stacked
import PeerCore.Connection.State
import PeerCore.Connection.Steps
import PeerCore.Connection.Streams
import PeerCore.Connection.Told
import PeerCore.Connection.Upgrading
import PeerCore.Connection.Vetted
import PeerCore.Connection.Voice
import PeerCore.Connection.Walk
import PeerCore.Connection.Wire
import PeerCore.Connection.WireLog
import PeerCore.LengthPrefixes
import PeerCore.Lib.Alarm
import PeerCore.Lib.BigEndian
import PeerCore.Lib.CreditLink
import PeerCore.Lib.Incremental
import PeerCore.Lib.Nearest
import PeerCore.Lib.NumberedLog
import PeerCore.Lib.Op
import PeerCore.Lib.Protobuf
import PeerCore.Lib.Radix
import PeerCore.Lib.Result
import PeerCore.Lib.Runs
import PeerCore.Lib.Traced
import PeerCore.Lib.Varint
import PeerCore.MultistreamSelect
import PeerCore.Noise.Agreement
import PeerCore.Noise.Handshake
import PeerCore.Noise.Identity
import PeerCore.Noise.Keys
import PeerCore.Noise.Payload
import PeerCore.Noise.Reading
import PeerCore.Prescan
import PeerCore.RoutingTable
import PeerCore.Runtime.Dispatch
import PeerCore.Runtime.EventLoop
import PeerCore.Runtime.Schedule
import PeerCore.Runtime.Timers
import PeerCore.Swarm.Accord
import PeerCore.Swarm.Adapters
import PeerCore.Swarm.DialCounts
import PeerCore.Swarm.DialedPeers
import PeerCore.Swarm.Exchange
import PeerCore.Swarm.Functions
import PeerCore.Swarm.InboundStreams
import PeerCore.Swarm.Negotiation
import PeerCore.Swarm.Negotiator
import PeerCore.Swarm.Outcomes
import PeerCore.Swarm.Peers
import PeerCore.Swarm.References
import PeerCore.Swarm.Settled
import PeerCore.Swarm.State
import PeerCore.Swarm.Stories
import PeerCore.Swarm.StreamKeys
import PeerCore.Swarm.Swarm
import PeerCore.Swarm.Tables
import PeerCore.Swarm.Turns
import PeerCore.Transport.Accept
import PeerCore.Transport.Ownership
import PeerCore.Transport.Tcp
import PeerCore.Types
import PeerCore.Yamux.Accepting
import PeerCore.Yamux.Books
import PeerCore.Yamux.Closing
import PeerCore.Yamux.Direction
import PeerCore.Yamux.Ends
import PeerCore.Yamux.Entries
import PeerCore.Yamux.Environment
import PeerCore.Yamux.Honest
import PeerCore.Yamux.Invariant
import PeerCore.Yamux.Message
import PeerCore.Yamux.Metering
import PeerCore.Yamux.Mirror
import PeerCore.Yamux.Opening
import PeerCore.Yamux.Pair
import PeerCore.Yamux.Receive
import PeerCore.Yamux.Session
import PeerCore.Yamux.Terminal
import PeerCore.Yamux.Views
