import Vx6.Chat.Ledger
import Vx6.Chat.Messages
import Vx6.Config.Identities
import Vx6.Config.KnownPeers
import Vx6.Dht.Branches
import Vx6.Dht.Catalog
import Vx6.Dht.Closest
import Vx6.Dht.Collector
import Vx6.Dht.Convergence
import Vx6.Dht.CoverSchedule
import Vx6.Dht.Distance
import Vx6.Dht.Formats
import Vx6.Dht.Handle
import Vx6.Dht.HiddenDescriptor
import Vx6.Dht.Lookup
import Vx6.Dht.Outcome
import Vx6.Dht.PayloadFormats
import Vx6.Dht.PeerStore
import Vx6.Dht.Prepare
import Vx6.Dht.Publish
import Vx6.Dht.Referrals
import Vx6.Dht.Repair
import Vx6.Dht.Replicate
import Vx6.Dht.Republish
import Vx6.Dht.Restart
import Vx6.Dht.Retention
import Vx6.Dht.ServiceFields
import Vx6.Dht.Store
import Vx6.Dht.StoreCoherence
import Vx6.Dht.StoreSafety
import Vx6.Dht.Table
import Vx6.Dht.TableChanges
import Vx6.Dht.TableEndpoints
import Vx6.Dht.TableIndex
import Vx6.Dht.TableMarks
import Vx6.Dht.TableOffline
import Vx6.Dht.TablePending
import Vx6.Dht.TableRanges
import Vx6.Dht.TableSnapshot
import Vx6.Dht.TableView
import Vx6.Dht.Value
import Vx6.Dht.ValueOrder
import Vx6.Dht.ValueOutcome
import Vx6.Dht.Walk
import Vx6.Dht.WarmStart
import Vx6.Dht.Wire
import Vx6.Discovery.FailedUpdate
import Vx6.Discovery.Registry
import Vx6.Go.Addr
import Vx6.Go.Chan
import Vx6.Go.Cipher
import Vx6.Go.Civil
import Vx6.Go.Encoding
import Vx6.Go.Json
import Vx6.Go.Net
import Vx6.Go.Path
import Vx6.Go.Sha256
import Vx6.Go.Sort
import Vx6.Go.Text
import Vx6.Go.Time
import Vx6.Hidden.Control
import Vx6.Identity
import Vx6.Ipsec.Firewall
import Vx6.Ipsec.FirewallCopies
import Vx6.Ipsec.Manager
import Vx6.Ipsec.Peer
import Vx6.Ipsec.Revocation
import Vx6.Ipsec.Runs
import Vx6.Ipsec.Service
import Vx6.Lib.Batches
import Vx6.Lib.Buckets
import Vx6.Lib.Checks
import Vx6.Lib.Chunks
import Vx6.Lib.Dict
import Vx6.Lib.FirstMatch
import Vx6.Lib.Forest
import Vx6.Lib.Newest
import Vx6.Lib.Panic
import Vx6.Lib.Quota
import Vx6.Lib.Ranking
import Vx6.Lib.Replace
import Vx6.Lib.Rotation
import Vx6.Lib.Run
import Vx6.Node.RecordState
import Vx6.Node.Services
import Vx6.Node.Startup
import Vx6.Onion.Cell
import Vx6.Onion.CellStream
import Vx6.Onion.Envelope
import Vx6.Onion.Layers
import Vx6.Onion.Plan
import Vx6.Onion.Pump
import Vx6.Onion.Reader
import Vx6.Onion.Senders
import Vx6.Panics.Decryption
import Vx6.Panics.Signatures
import Vx6.Record.Endpoint
import Vx6.Record.Issue
import Vx6.Record.Service
import Vx6.Secure.Handshake
import Vx6.Secure.Nonces
import Vx6.Secure.Session
import Vx6.Secure.Stream
import Vx6.Transfer.Files
import Vx6.Transfer.Isolation
