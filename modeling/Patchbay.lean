import Patchbay.Adapter.Catalog
import Patchbay.Adapter.Jack
import Patchbay.Adapter.Sink
import Patchbay.Adapter.Source
import Patchbay.Adapter.World
import Patchbay.Daemon
import Patchbay.Device.Descriptor
import Patchbay.Device.Kind
import Patchbay.Device.Partition
import Patchbay.Device.PrivacyTable
import Patchbay.Device.Roster
import Patchbay.Endpoints
import Patchbay.Fault
import Patchbay.FileTree
import Patchbay.Inbox
import Patchbay.Level.Parameters
import Patchbay.Level.Volume
import Patchbay.Main
import Patchbay.Mix.Blend
import Patchbay.Mix.Mixer
import Patchbay.Mix.Recorder
import Patchbay.Mix.RouteCache
import Patchbay.Mix.Scratch
import Patchbay.Mix.Sizes
import Patchbay.Named
import Patchbay.Number.LittleEndian
import Patchbay.Number.Shortest
import Patchbay.Number.Single
import Patchbay.Options
import Patchbay.Report.Adapters
import Patchbay.Report.Basic
import Patchbay.Report.Codes
import Patchbay.Report.Errors
import Patchbay.Report.Messages
import Patchbay.Report.Reading
import Patchbay.Report.Settings
import Patchbay.Report.Streams
import Patchbay.Ring.Destination
import Patchbay.Ring.Geometry
import Patchbay.Ring.Handles
import Patchbay.Ring.Mapping
import Patchbay.Ring.Memory
import Patchbay.Ring.Workspace
import Patchbay.Route.Chain
import Patchbay.Route.Notice
import Patchbay.Route.Rule
import Patchbay.Route.Switchboard
import Patchbay.Server.Basic
import Patchbay.Server.Conversation
import Patchbay.Server.Exchange
import Patchbay.Server.Requests
import Patchbay.Session.Basic
import Patchbay.Session.Data
import Patchbay.Session.Lifecycle
import Patchbay.Session.Registry
import Patchbay.Settings.Basic
import Patchbay.Settings.Diff
import Patchbay.Settings.Reading
import Patchbay.Settings.Template
import Patchbay.Station
import Patchbay.Stream.Config
import Patchbay.Stream.Intent
import Patchbay.Table
import Patchbay.Text.SnakeCase
import Patchbay.Text.Utf8
import Patchbay.Toml.Document
import Patchbay.Toml.Moment
import Patchbay.Toml.Number
import Patchbay.Toml.Scan
import Patchbay.Toml.Shape
import Patchbay.Toml.Value
import Patchbay.Wire.Client
import Patchbay.Wire.Dispatch
import Patchbay.Wire.Frame
import Patchbay.Wire.Notification
import Patchbay.Wire.Parcel
import Patchbay.Wire.ProcessClient
import Patchbay.Wire.Request
import Patchbay.Wire.Response
import Patchbay.Proofs.Mix.RouteCaches
import Patchbay.Proofs.Ring.Contents
import Patchbay.Proofs.Ring.Refinement
import Patchbay.Proofs.Ring.SharedRuns
import Patchbay.Proofs.Ring.Bounds
import Patchbay.Proofs.Device.RosterRuns
import Patchbay.Proofs.Device.Connections
import Patchbay.Proofs.Device.ChangeLog
import Patchbay.Proofs.Route.Chains
import Patchbay.Proofs.Route.ChangeCoverage
import Patchbay.Proofs.Session.Calls
import Patchbay.Proofs.Session.PlayRequest
import Patchbay.Proofs.Session.Finality
import Patchbay.Proofs.Route.Sweeps
import Patchbay.Proofs.Station.Runs
import Patchbay.Proofs.Wire.Dispatch
import Patchbay.Proofs.Wire.Truncation
import Patchbay.Proofs.Server.Calls
import Patchbay.Proofs.Station.Notices
import Patchbay.Proofs.Station.Reloads
import Patchbay.Proofs.Server.Runs
import Patchbay.Proofs.Server.Isolation
import Patchbay.Proofs.Route.Privacy
import Patchbay.Proofs.Session.Handovers
import Patchbay.Proofs.Number.Shares
import Patchbay.Proofs.Level.Controls
import Patchbay.Proofs.Server.Volumes
import Patchbay.Proofs.Ring.Additions
import Patchbay.Proofs.Session.Shared
import Patchbay.Proofs.Mix.Recordings
import Patchbay.Proofs.Wire.Mailboxes
import Patchbay.Proofs.Server.Dialogues
import Patchbay.Proofs.Server.Schedules
import Patchbay.Proofs.Wire.Arrivals
import Patchbay.Proofs.Route.Backlogs
import Patchbay.Proofs.Server.Pipes
import Patchbay.Proofs.Server.Followers
import Patchbay.Proofs.Mix.Drains
import Patchbay.Proofs.Device.Reconnections
import Patchbay.Proofs.Route.Selection
import Patchbay.Proofs.Session.Conservation
import Patchbay.Proofs.Settings.Interpolation
import Patchbay.Proofs.Wire.Tokens
import Patchbay.Proofs.Session.Refusals
import Patchbay.Proofs.Mix.Silence
import Patchbay.Proofs.Station.Orders
import Patchbay.Proofs.Ring.Cursors
import Patchbay.Proofs.Ring.Files
import Patchbay.Proofs.Session.Creations
import Patchbay.Proofs.Level.ParameterLog
import Patchbay.Proofs.Settings.Deferred
import Patchbay.Proofs.Level.ActiveDevices
import Patchbay.Proofs.Station.ActiveOutputs
import Patchbay.Proofs.Mix.SpanSizes
