import VonkForge.Foundations.Run
import VonkForge.Foundations.Epoch
import VonkForge.Foundations.Sha256
import VonkForge.Recovery.Policy
import VonkForge.Lifecycle.Types
import VonkForge.Lifecycle.Core
import VonkForge.Lifecycle.Schedule
import VonkForge.Lifecycle.Moves
import VonkForge.Lifecycle.Runs
import VonkForge.Lifecycle.Replay
import VonkForge.Lifecycle.Cancel
import VonkForge.Lifecycle.CancelClock
import VonkForge.Lifecycle.Endings
import VonkForge.Lifecycle.Lost
import VonkForge.Lifecycle.Rate
import VonkForge.Lifecycle.Reconciler
import VonkForge.Orders.Store
import VonkForge.Orders.Replay
import VonkForge.Foundations.Fallible
import VonkForge.Journal.Tables
import VonkForge.Journal.Once
import VonkForge.Helper.Fences
import VonkForge.Helper.Generation
import VonkForge.Helper.Intent
import VonkForge.Helper.Authority
import VonkForge.Foundations.Cursor
import VonkForge.Journal.Slots
import VonkForge.Journal.Receipts
import VonkForge.Journal.Settled
import VonkForge.Fleet.Outbox
import VonkForge.Fleet.Stream
import VonkForge.Fleet.Client
import VonkForge.Cache.Ranges
import VonkForge.Cache.RangeLanes
import VonkForge.Cache.RangesExact
import VonkForge.Cache.Partials
import VonkForge.Cache.Split
import VonkForge.Cache.Pinned
import VonkForge.Memory.Guard
import VonkForge.Foundations.Window
import VonkForge.Memory.Margins
import VonkForge.Memory.Sustained
import VonkForge.Capacity.Swap
import VonkForge.Capacity.Ledger
import VonkForge.Capacity.Reservations
import VonkForge.Memory.SwapFiles
import VonkForge.Memory.SwapPass
import VonkForge.Helper.Exclusive
import VonkForge.Egress.Address
import VonkForge.Egress.Request
import VonkForge.Egress.Forwarding
import VonkForge.Egress.Public
import VonkForge.Egress.Proxy
import VonkForge.Egress.Reach
import VonkForge.Evidence.Clamp
import VonkForge.Lifecycle.Confirmed
import VonkForge.Evidence.Agree
import VonkForge.Evidence.Opaque
import VonkForge.Evidence.Redact
import VonkForge.Retention.Grace
import VonkForge.Foundations.Buffered
import VonkForge.Journal.Repair
import VonkForge.Journal.Repaired
import VonkForge.Foundations.Hold
import VonkForge.Streams.Controller
import VonkForge.Streams.Agent
import VonkForge.Cache.RangeEnds
import VonkForge.Cache.Mismatch
import VonkForge.Cache.RangeProbe
import VonkForge.Cache.RangeReturn
import VonkForge.Distribution.Fetch
import VonkForge.Distribution.Record
import VonkForge.Distribution.Progress
import VonkForge.Stall.Window
import VonkForge.Journal.Rounds
import VonkForge.Memory.SwapOwned
import VonkForge.Capacity.Reasons
import VonkForge.Helper.GpuClock
import VonkForge.Evidence.Repeats
import VonkForge.Foundations.Rotation
import VonkForge.Recovery.Backoff
import VonkForge.Retention.Inventory
import VonkForge.Cache.Sharing
import VonkForge.Egress.Tunnel
import VonkForge.Foundations.Decimal
import VonkForge.Integers.Stored
import VonkForge.Owners.Builds
import VonkForge.Waits.Backstop
import VonkForge.Integers.Wire
import VonkForge.Fleet.Staging
import VonkForge.Retention.Eviction
