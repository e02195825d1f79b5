import Sweetspot.Lib.KeyedTable
import Sweetspot.Lib.Cyclic
import Sweetspot.Lib.ReverseIndex
import Sweetspot.Lib.Run
import Sweetspot.Lib.Trail
import Sweetspot.Lib.Linked
import Sweetspot.Lib.Binary32
import Sweetspot.Lib.Octets
import Sweetspot.Lib.Fnv
import Sweetspot.Lib.Edits
import Sweetspot.Lib.Traced
import Sweetspot.Lib.TimingWheel
import Sweetspot.Lib.VirtualClock
import Sweetspot.Lib.NulString
import Sweetspot.Lib.AttributeText
import Sweetspot.Tuple.Chain
import Sweetspot.Tuple.Checksum
import Sweetspot.Tuple.Fetch
import Sweetspot.Tuple.Commit
import Sweetspot.Tuple.Rewrite
import Sweetspot.Tuple.FullSum
import Sweetspot.Tuple.UdpZero
import Sweetspot.Tuple.Quoted
import Sweetspot.Tuple.Touched
import Sweetspot.Tuple.Bounds
import Sweetspot.Tuple.Returns
import Sweetspot.Tuple.Headers
import Sweetspot.Tuple.Hash
import Sweetspot.Snat.Endpoint
import Sweetspot.Snat.Netset
import Sweetspot.Snat.Create
import Sweetspot.Snat.Partition
import Sweetspot.Snat.Cursor
import Sweetspot.Snat.Lookup
import Sweetspot.Snat.Withdrawal
import Sweetspot.Snat.Source
import Sweetspot.Snat.Memory
import Sweetspot.Snat.Binding
import Sweetspot.Snat.Allocation
import Sweetspot.Snat.Threads
import Sweetspot.Dnat.Redirect
import Sweetspot.Dnat.Indices
import Sweetspot.Shape.Queue
import Sweetspot.Shape.Delivery
import Sweetspot.Filter.Ruleset
import Sweetspot.Session.Controller
import Sweetspot.Session.Lifecycle
import Sweetspot.Filter.Match
import Sweetspot.Filter.Soundness
import Sweetspot.Filter.Syntax
import Sweetspot.Filter.Sentences
import Sweetspot.Filter.Stored
import Sweetspot.Filter.Numbers
import Sweetspot.Filter.Load
import Sweetspot.Filter.Conditions
import Sweetspot.Session.Books
import Sweetspot.Session.Gauge
import Sweetspot.Session.Acct
import Sweetspot.Session.System
import Sweetspot.Session.Hosts
import Sweetspot.Filter.Reload
import Sweetspot.Filter.Converge
import Sweetspot.Session.Captivity
import Sweetspot.Session.Metering
import Sweetspot.Session.Quota
import Sweetspot.Session.Limits
import Sweetspot.Session.Timers
import Sweetspot.Session.Alternation
import Sweetspot.Session.Pairing
import Sweetspot.Session.TotalsReport
import Sweetspot.Session.Records
import Sweetspot.Session.Refusal
import Sweetspot.Session.Queue
import Sweetspot.Session.QueueOrder
import Sweetspot.Session.Sections
import Sweetspot.Session.Race
import Sweetspot.Session.Workers
import Sweetspot.Session.OptimisticLock
import Sweetspot.Session.SessionIds
import Sweetspot.Session.DetailFile
import Sweetspot.Uam.Message
import Sweetspot.Shape.Schedule
import Sweetspot.Shape.Clock
import Sweetspot.Shape.Arithmetic
import Sweetspot.Shape.Order
import Sweetspot.Relay.Handlers
import Sweetspot.Relay.Tables
import Sweetspot.Relay.Attribution
import Sweetspot.Relay.Steps
import Sweetspot.Relay.Survival
import Sweetspot.Relay.Budget
import Sweetspot.Lib.LockedCells
import Sweetspot.Hash.Lhash
import Sweetspot.Hash.Table
import Sweetspot.Hash.Walk
import Sweetspot.Hash.Locks
import Sweetspot.Filter.Semantics
import Sweetspot.Tuple.Flow
import Sweetspot.Relay.Calls
import Sweetspot.Relay.Conversation
import Sweetspot.Lib.CText
import Sweetspot.Uam.Server
import Sweetspot.Uam.Limits
import Sweetspot.Session.Terms
import Sweetspot.Uam.Status
import Sweetspot.Session.EndpointCalls
import Sweetspot.Session.Admission
import Sweetspot.Uam.Tracing
import Sweetspot.Uam.Exchange
import Sweetspot.Session.Shutdown
import Sweetspot.Config.File
import Sweetspot.Config.Networks
import Sweetspot.Config.Served
