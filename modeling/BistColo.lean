import BistColo.StreamKit.Runs
import BistColo.StreamKit.Pipe
import BistColo.StreamKit.Counters
import BistColo.Ouch.Session
import BistColo.Ouch.Sides
import BistColo.Ouch.Outbound
import BistColo.Ouch.Inbound
import BistColo.Ouch.Framing
import BistColo.Ouch.Packets
import BistColo.Mock.Gateway
import BistColo.Ouch.Login
import BistColo.Domain.OrderBook
import BistColo.Domain.Throttler
import BistColo.Domain.TokenRegistry
import BistColo.Ouch.Client
import BistColo.Ouch.Calls
import BistColo.Ouch.Tokens
import BistColo.Ouch.Refusals
import BistColo.App.Live
import BistColo.Ouch.Cursor
import BistColo.App.History
import BistColo.App.Resume
import BistColo.App.Disk
import BistColo.App.Ahead
import BistColo.Domain.RollingSecond
import BistColo.StreamKit.Format
import BistColo.Mock.Orders
import BistColo.Mock.Decoding
import BistColo.Ouch.Booking
import BistColo.Ouch.States
import BistColo.Ouch.Finished
import BistColo.App.Transport
import BistColo.Mock.Serving
import BistColo.Mock.LifeCycle
import BistColo.Mock.Acknowledged
import BistColo.StreamKit.Interleaving
import BistColo.Mock.Writers
import BistColo.Mock.EndOfDay
import BistColo.Runner.Echo
import BistColo.Domain.Instrument
import BistColo.Runner.Replay
import BistColo.Runner.Duplicates
import BistColo.StreamKit.Custody
import BistColo.Ouch.Causes
import BistColo.Ouch.Writing
import BistColo.StreamKit.Lines
import BistColo.Ouch.Audit
import BistColo.Ouch.AuditCalls
import BistColo.StreamKit.TwoWay
import BistColo.Domain.InstrumentCache
import BistColo.Observability.CursorLaw
import BistColo.Observability.AuditLog
import BistColo.Ouch.Heartbeats
import BistColo.Fix.Facade
import BistColo.Runner.FixReplay
import BistColo.Runner.Verdict
import BistColo.Runner.Evidence
import BistColo.Runner.Loader
import BistColo.App.AuditTrail
import BistColo.Core.RingBuffer
import BistColo.Observability.AuditWorker
import BistColo.Observability.SaveSteps
import BistColo.Domain.Fills
import BistColo.Runner.Draining
import BistColo.App.Config
import BistColo.App.Reconnect
import BistColo.Runner.Timing
import BistColo.Runner.Lint
import BistColo.Runner.Ordering
import BistColo.Runner.Reuse
import BistColo.StreamKit.Decimal
import BistColo.Domain.Prices
import BistColo.Mock.Quotes
import BistColo.Mock.Handshake
import BistColo.Runner.FixPrices
import BistColo.Runner.Scales
import BistColo.Runner.Bursts
import BistColo.StreamKit.Served
import BistColo.Runner.Pacing
import BistColo.App.Attempts
import BistColo.App.Backoff
import BistColo.StreamKit.Places
import BistColo.Net.Reactor
import BistColo.Net.Round
import BistColo.App.Override
import BistColo.Runner.FixWaiting
import BistColo.Runner.FixChains
import BistColo.Fix.AcceptorMock
import BistColo.Fix.Login
import BistColo.App.AuditPack
import BistColo.Ouch.Padding
import BistColo.App.OuchDecode
import BistColo.Net.EpollReactor
import BistColo.Mock.Worker
import BistColo.Ouch.Ends
import BistColo.Mock.Link
import BistColo.Mock.LinkOrders
import BistColo.Mock.AcceptLoop
import BistColo.Mock.LinkCursor
import BistColo.Ouch.Budget
import BistColo.App.AuditFiles
import BistColo.StreamKit.Exchange
import BistColo.Fix.Orders
import BistColo.Fix.QuickFix
import BistColo.Mock.Framing
