import Ridehail.Decimal.Arithmetic
import Ridehail.Json.Printer
import Ridehail.Eta
import Ridehail.Http.Server
import Ridehail.Dispatch.Sweep
import Ridehail.Flags.Remote
import Ridehail.Settings
import Ridehail.Index.Memory
import Ridehail.Index.Remote
import Ridehail.Store.Drivers
import Ridehail.Store.Rides
import Ridehail.Store.Columns
import Ridehail.Event.Bus
import Ridehail.Event.Notifier
import Ridehail.Proofs.Store.Rows
import Ridehail.Proofs.Store.Rules
import Ridehail.Proofs.Store.Assignment
import Ridehail.Proofs.Store.Decoding
import Ridehail.Proofs.Store.Moves
import Ridehail.Proofs.Store.Session
import Ridehail.Proofs.Store.Exclusive
import Ridehail.Proofs.Store.Lifecycle
import Ridehail.Proofs.Dispatch.Effects
import Ridehail.Proofs.Dispatch.Sound
import Ridehail.Proofs.Dispatch.Idle
import Ridehail.Proofs.Dispatch.Operations
import Ridehail.Proofs.Dispatch.Online
import Ridehail.Proofs.Dispatch.Runs
import Ridehail.Proofs.Dispatch.Release
import Ridehail.Proofs.Dispatch.Availability
import Ridehail.Proofs.Decimal.RoundTrip
import Ridehail.Proofs.Store.Readback
import Ridehail.Proofs.Dispatch.Busy
import Ridehail.Proofs.Dispatch.Answers
import Ridehail.Proofs.Dispatch.Mirror
import Ridehail.Proofs.Store.History
import Ridehail.Proofs.Dispatch.Log
import Ridehail.Proofs.Dispatch.Failures
import Ridehail.Proofs.Pricing.Smoothed
import Ridehail.Proofs.Pricing.Notices
import Ridehail.Proofs.Http.Serving
import Ridehail.Proofs.Decimal.OfDouble
import Ridehail.Proofs.Pricing.Computation
import Ridehail.Proofs.Dispatch.Choice
import Ridehail.Proofs.Dispatch.Advisory
import Ridehail.Proofs.Decimal.ToDouble
import Ridehail.Proofs.Event.Decoding
import Ridehail.Proofs.Dispatch.Causes
import Ridehail.Proofs.Dispatch.Deliveries
import Ridehail.Proofs.Dispatch.Told
import Ridehail.Proofs.Index.Nearest
import Ridehail.Proofs.Dispatch.Paired
import Ridehail.Proofs.Platform
import Ridehail.Proofs.Dispatch.Strategies
import Ridehail.Proofs.Dispatch.Requests
import Ridehail.Proofs.Dispatch.Creation
import Ridehail.Proofs.Geo.Zeros
import Ridehail.Proofs.Dispatch.Deferred
import Ridehail.Proofs.Decimal.Fitting
import Ridehail.Proofs.Pricing.FareLaw
import Ridehail.Proofs.Pricing.Monotone
import Ridehail.Proofs.Double.Order
import Ridehail.Proofs.Dispatch.Nearby
import Ridehail.Proofs.Dispatch.Sweeping
import Ridehail.Proofs.Pricing.Settling
import Ridehail.Proofs.TimedCache.Calls
import Ridehail.Proofs.Pricing.ReadThrough
import Ridehail.Proofs.Settings
