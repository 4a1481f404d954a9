import PackExchange.Main
import PackExchange.Server.Folder
import PackExchange.Session.Exchange
import PackExchange.Proofs.Packet.RoundTrip
import PackExchange.Proofs.Packet.Translation
import PackExchange.Proofs.Pack.Token
import PackExchange.Proofs.Frame.Stream
import PackExchange.Proofs.Transfer.Catalog
import PackExchange.Proofs.Transfer.Course
import PackExchange.Proofs.Transfer.Ledger
import PackExchange.Proofs.Transfer.Balance
import PackExchange.Proofs.Transfer.Chunks
import PackExchange.Proofs.Transfer.Delivery
import PackExchange.Proofs.Transfer.Pull
import PackExchange.Proofs.Transfer.Serving
import PackExchange.Proofs.Transfer.Accepted
import PackExchange.Proofs.Transfer.Gathering
import PackExchange.Proofs.Transfer.Dialog
import PackExchange.Proofs.Session.Endpoint
import PackExchange.Proofs.Session.Joining
import PackExchange.Proofs.Session.JoinSafety
import PackExchange.Proofs.Session.Link
import PackExchange.Proofs.Session.Crossing
import PackExchange.Proofs.Session.Terms
import PackExchange.Proofs.Session.Phase
import PackExchange.Proofs.Session.Meeting
import PackExchange.Proofs.Session.Schedule
import PackExchange.Proofs.Session.Completion
import PackExchange.Proofs.Session.Performing
import PackExchange.Proofs.Session.Mirror
import PackExchange.Proofs.Session.Turns
import PackExchange.Proofs.Session.Rounds
import PackExchange.Proofs.Transfer.Service
import PackExchange.Proofs.Transfer.LoadOrder
import PackExchange.Proofs.Frame.Listener
import PackExchange.Proofs.Frame.RoundTrip
import PackExchange.Proofs.Session.Language
import PackExchange.Proofs.Session.Lockstep
import PackExchange.Proofs.Session.Collecting
import PackExchange.Proofs.Session.Moves
import PackExchange.Proofs.Session.Strays
import PackExchange.Proofs.Session.Running
import PackExchange.Proofs.Wire.Steady
import PackExchange.Proofs.Packet.Canonical
import PackExchange.Proofs.Packet.Prefix
import PackExchange.Proofs.Transfer.Losses
import PackExchange.Proofs.Transfer.Containment
import PackExchange.Proofs.Transfer.Requests
import PackExchange.Proofs.Transfer.Silence
import PackExchange.Proofs.Frame.Memory
import PackExchange.Proofs.Session.Leaving
import PackExchange.Proofs.Wire.Room
import PackExchange.Proofs.Packet.Size
import PackExchange.Proofs.Frame.Bounds
import PackExchange.Proofs.Transfer.Desk
import PackExchange.Proofs.Session.Limits
import PackExchange.Proofs.Session.Outcome
import PackExchange.Proofs.Session.Readable
import PackExchange.Proofs.Packet.Strictness
import PackExchange.Proofs.Packet.Shield
import PackExchange.Proofs.Packet.Restriction
import PackExchange.Proofs.Transfer.Counts
import PackExchange.Proofs.Wire.Integers
import PackExchange.Proofs.Transfer.Sums
import PackExchange.Proofs.Pack.Reference
import PackExchange.Proofs.Transfer.Verdicts
import PackExchange.Proofs.Transfer.Offsets
