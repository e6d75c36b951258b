import EventCourier.Broker.Unreachable
import EventCourier.Health
import EventCourier.Rehearsal.BrokerScene
import EventCourier.Rehearsal.ConnectionScene
import EventCourier.Rehearsal.WorkerScene
import EventCourier.SampleData
import EventCourier.Service
import EventCourier.Proofs.Broker.Dispatch
import EventCourier.Proofs.Dictionary
import EventCourier.Proofs.Broker.Act
import EventCourier.Proofs.Broker.Conservation
import EventCourier.Proofs.Connection.Change
import EventCourier.Proofs.Connection.Ledger
import EventCourier.Proofs.Worker.Sessions
import EventCourier.Proofs.Broker.Tags
import EventCourier.Proofs.Worker.Agreement
import EventCourier.Proofs.Worker.HandOuts
import EventCourier.Proofs.Worker.Outcomes
import EventCourier.Proofs.Worker.Unlogged
import EventCourier.Proofs.Connection.Retry
import EventCourier.Proofs.Connection.Generations
import EventCourier.Proofs.Connection.Series
import EventCourier.Proofs.Connection.States
import EventCourier.Proofs.Record.Line
import EventCourier.Proofs.Record.Redirect
import EventCourier.Proofs.Worker.States
import EventCourier.Proofs.Broker.Order
import EventCourier.Proofs.Broker.Path
import EventCourier.Proofs.Worker.Window
import EventCourier.Proofs.Worker.Order
import EventCourier.Proofs.Text.Utf8
import EventCourier.Proofs.Text.Lower
import EventCourier.Proofs.Except
import EventCourier.Proofs.Json.Shape
import EventCourier.Proofs.Json.Tokens
import EventCourier.Proofs.Json.Values
import EventCourier.Proofs.Payload
import EventCourier.Proofs.Record.Document
import EventCourier.Proofs.Router
import EventCourier.Proofs.Topology
import EventCourier.Proofs.Settings.Topics
import EventCourier.Proofs.Routing
import EventCourier.Proofs.Record.Store
import EventCourier.Proofs.Worker.Endings
import EventCourier.Proofs.Worker.Priorities
import EventCourier.Proofs.Broker.Prompt
import EventCourier.Proofs.Connection.Client
import EventCourier.Proofs.Broker.Layout
import EventCourier.Proofs.Broker.Recovery
import EventCourier.Proofs.Connection.Setup
import EventCourier.Proofs.Connection.Attempt
import EventCourier.Proofs.Broker.Notices
import EventCourier.Proofs.Connection.Notices
import EventCourier.Proofs.Pipeline
import EventCourier.Proofs.Record.Batch
import EventCourier.Proofs.Instant
import EventCourier.Proofs.Text.Blank
import EventCourier.Proofs.Text.Split
import EventCourier.Proofs.Instant.Calendar
import EventCourier.Proofs.Instant.Printed
import EventCourier.Proofs.Text.Normal
import EventCourier.Proofs.Record.Fields
import EventCourier.Proofs.Topology.Canonical
import EventCourier.Proofs.Text.Percent
import EventCourier.Proofs.Text.Sigma
import EventCourier.Proofs.Http.Url
import EventCourier.Proofs.Record.Targets
import EventCourier.Proofs.Record.Unserved
import EventCourier.Proofs.Settings.BrokerUri
import EventCourier.Proofs.Routing.Capture
import EventCourier.Proofs.Payload.Tree
import EventCourier.Proofs.Broker.Redelivery
import EventCourier.Proofs.Broker.Failures
import EventCourier.Proofs.Worker.Tally
import EventCourier.Proofs.Settings.Worker
