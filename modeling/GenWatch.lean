import GenWatch.Prelude.Transition
import GenWatch.Prelude.Queue
import GenWatch.Prelude.Table
import GenWatch.Prelude.Handler
import GenWatch.Prelude.Throttle
import GenWatch.Prelude.Sql
import GenWatch.Prelude.Grouping
import GenWatch.Prelude.Mutex
import GenWatch.Prelude.Ledger
import GenWatch.Prelude.Custody
import GenWatch.Prelude.Logs
import GenWatch.Prelude.Runs
import GenWatch.Prelude.TokenBucket
import GenWatch.Prelude.Stride
import GenWatch.Prelude.Yaml
import GenWatch.Prelude.Dict
import GenWatch.Prelude.Chunks
import GenWatch.Modbus.Registers
import GenWatch.Modbus.Decoding
import GenWatch.Modbus.Batching
import GenWatch.Modbus.Validation
import GenWatch.Modbus.Loading
import GenWatch.Modbus.Acceptance
import GenWatch.Modbus.CommsHealth
import GenWatch.Modbus.Poller
import GenWatch.Modbus.PollReading
import GenWatch.Db.Tables
import GenWatch.Db.Telemetry
import GenWatch.Db.Rollup
import GenWatch.Db.Pruning
import GenWatch.Services.Context
import GenWatch.Services.State
import GenWatch.Services.Ats
import GenWatch.Services.Frame
import GenWatch.Services.AtsFrame
import GenWatch.Services.Retention
import GenWatch.Services.Control
import GenWatch.Services.AtsControl
import GenWatch.Services.Slack
import GenWatch.Services.RateLimit
import GenWatch.Alarms.Pipeline
import GenWatch.Services.Monitor
import GenWatch.Comms.Announcements
import GenWatch.Comms.Classification
import GenWatch.Comms.Recovery
import GenWatch.Polling.Slave
import GenWatch.Polling.Interleaving
import GenWatch.Polling.Consumer
import GenWatch.Polling.Editions
import GenWatch.Polling.Turnover
import GenWatch.Polling.Heartbeat
import GenWatch.Polling.FunctionCodes
import GenWatch.Polling.Alive
import GenWatch.Polling.Requests
import GenWatch.Polling.Panel
import GenWatch.Ats.Calls
import GenWatch.Ats.Faults
import GenWatch.Ats.Authority
import GenWatch.Ats.TimeSkew
import GenWatch.Ats.Edges
import GenWatch.Ats.Commands
import GenWatch.Ats.LoadSource
import GenWatch.Alarms.Flips
import GenWatch.Alarms.Evidence
import GenWatch.Alarms.CrossCheck
import GenWatch.Services.AfterState
import GenWatch.Alarms.Disagreement
import GenWatch.Alarms.Outage
import GenWatch.Ats.Fallback
import GenWatch.Alarms.Transfer
import GenWatch.Alarms.Agreement
import GenWatch.Alarms.Debounce
import GenWatch.Alarms.Lifecycle
import GenWatch.Alarms.Numeric
import GenWatch.Alarms.Severity
import GenWatch.Alarms.Resampling
import GenWatch.Alarms.Sessions
import GenWatch.Alarms.Notification
import GenWatch.Outbound.Delivery
import GenWatch.Live.Bus
import GenWatch.Live.Announced
import GenWatch.Live.Browser
import GenWatch.Live.Dashboard
import GenWatch.Live.Feed
import GenWatch.Live.Healing
import GenWatch.History.Hourly
import GenWatch.History.Minute
import GenWatch.History.Average
import GenWatch.History.Query
import GenWatch.History.Starts
import GenWatch.History.Transfers
import GenWatch.System.World
import GenWatch.System.Steps
import GenWatch.System.Gate
import GenWatch.System.Tokens
import GenWatch.System.DoubleStart
import GenWatch.System.Derived
import GenWatch.System.Reload
import GenWatch.System.AtsGate
import GenWatch.System.Release
import GenWatch.System.Requests
import GenWatch.Config.Settings
import GenWatch.Config.Update
import GenWatch.Config.Boot
import GenWatch.Modbus.Client
import GenWatch.Modbus.Wire
import GenWatch.Modbus.Retries
import GenWatch.Auth.Session
import GenWatch.Auth.Gateway
import GenWatch.Auth.Provenance
import GenWatch.Auth.Throttle
