import PodSizing.Api.CacheSync
import PodSizing.Api.Client
import PodSizing.Api.Http
import PodSizing.Api.Patch
import PodSizing.Api.Request
import PodSizing.Api.Scripted
import PodSizing.Bus
import PodSizing.Bus.Delivery
import PodSizing.Cache
import PodSizing.Classification
import PodSizing.CommandLine
import PodSizing.Controller
import PodSizing.Decimal
import PodSizing.Decimal.Reader
import PodSizing.Eligibility
import PodSizing.Json.Basic
import PodSizing.Json.Merge
import PodSizing.Json.Reader
import PodSizing.Json.Record
import PodSizing.Json.Writer
import PodSizing.Keyed
import PodSizing.Lease
import PodSizing.LogFilter
import PodSizing.LogFilter.Directive
import PodSizing.Main
import PodSizing.Metrics
import PodSizing.Mutation
import PodSizing.Pod.Basic
import PodSizing.Pod.Interchange
import PodSizing.Pod.Lookup
import PodSizing.Pod.Schema
import PodSizing.Pod.Shape
import PodSizing.PodClient
import PodSizing.PodEvent
import PodSizing.Program
import PodSizing.Proofs.Api.Answered
import PodSizing.Proofs.Api.Attempts
import PodSizing.Proofs.Api.CacheSync
import PodSizing.Proofs.Api.Calm
import PodSizing.Proofs.Api.Confined
import PodSizing.Proofs.Api.Counting
import PodSizing.Proofs.Api.Documents
import PodSizing.Proofs.Api.Merge
import PodSizing.Proofs.Api.Newest
import PodSizing.Proofs.Api.OtherWriters
import PodSizing.Proofs.Api.Reproduces
import PodSizing.Proofs.Api.Server
import PodSizing.Proofs.Api.Sound
import PodSizing.Proofs.Bus.Accounts
import PodSizing.Proofs.Bus.Delivery
import PodSizing.Proofs.Bus.Index
import PodSizing.Proofs.Bus.Publications
import PodSizing.Proofs.Bus.Traffic
import PodSizing.Proofs.Classification
import PodSizing.Proofs.Controller
import PodSizing.Proofs.Eligibility
import PodSizing.Proofs.Eligibility.Commands
import PodSizing.Proofs.Eligibility.Decided
import PodSizing.Proofs.Eligibility.Demands
import PodSizing.Proofs.Eligibility.Guarantee
import PodSizing.Proofs.Except
import PodSizing.Proofs.FirstFailure
import PodSizing.Proofs.Json.Merge
import PodSizing.Proofs.Json.RoundTrip
import PodSizing.Proofs.Keyed
import PodSizing.Proofs.Lease
import PodSizing.Proofs.Lease.Lookout
import PodSizing.Proofs.Mutation.Footprint
import PodSizing.Proofs.Mutation.Laws
import PodSizing.Proofs.Mutation.Resources
import PodSizing.Proofs.Pod.Frame
import PodSizing.Proofs.Pod.Reading
import PodSizing.Proofs.PodEvent
import PodSizing.Proofs.PodEvent.OwnWrites
import PodSizing.Proofs.Program
import PodSizing.Proofs.Quantity.Display
import PodSizing.Proofs.Quantity.Overflow
import PodSizing.Proofs.Reconcile.Alone
import PodSizing.Proofs.Reconcile.Command
import PodSizing.Proofs.Reconcile.Enacted
import PodSizing.Proofs.Reconcile.Fleet
import PodSizing.Proofs.Reconcile.Guard
import PodSizing.Proofs.Reconcile.Independent
import PodSizing.Proofs.Reconcile.Interleaving
import PodSizing.Proofs.Reconcile.Plan
import PodSizing.Proofs.Reconcile.Recorded
import PodSizing.Proofs.Reconcile.Rest
import PodSizing.Proofs.Reconcile.Served
import PodSizing.Proofs.Reconcile.Sessions
import PodSizing.Proofs.Reconcile.Settling
import PodSizing.Proofs.Reconcile.StatusWrites
import PodSizing.Proofs.Resource
import PodSizing.Proofs.Retry
import PodSizing.Proofs.ScaleConfig
import PodSizing.Proofs.ScaleConfig.Reading
import PodSizing.Proofs.Status.Again
import PodSizing.Proofs.Status.Commanded
import PodSizing.Proofs.Status.History
import PodSizing.Proofs.Status.RoundTrip
import PodSizing.Proofs.Store
import PodSizing.Proofs.Text.Basic
import PodSizing.Proofs.Time.Calendar
import PodSizing.Proofs.Time.Stamp
import PodSizing.Proofs.Trace
import PodSizing.Proofs.Watch.Coverage
import PodSizing.Proofs.Watch.Feeding
import PodSizing.Proofs.Watch.Origins
import PodSizing.Proofs.Watch.Settling
import PodSizing.Proofs.Watch.Timing
import PodSizing.Proofs.Watch.Triggers
import PodSizing.Quantity
import PodSizing.Quantity.Guarded
import PodSizing.Reconcile
import PodSizing.Reconcile.Session
import PodSizing.Resource
import PodSizing.Retry
import PodSizing.Routing
import PodSizing.ScaleConfig
import PodSizing.Settings
import PodSizing.Settings.SocketAddress
import PodSizing.States
import PodSizing.Status.Record
import PodSizing.Status.Update
import PodSizing.Store
import PodSizing.Text.Alphanumeric
import PodSizing.Text.Basic
import PodSizing.Text.Bytes
import PodSizing.Text.Pattern
import PodSizing.Text.Quoted
import PodSizing.Text.Upper
import PodSizing.Time.Calendar
import PodSizing.Time.Stamp
import PodSizing.Time.Timestamp
import PodSizing.Watch
import PodSizing.Watch.Feed
import PodSizing.WorkQueue
