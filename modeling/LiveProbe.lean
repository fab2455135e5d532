import LiveProbe.Text.Blank
import LiveProbe.Text.LetterCase
import LiveProbe.Text.Hidden
import LiveProbe.Capture.Capturer
import LiveProbe.Capture.Literal
import LiveProbe.Code.Registry
import LiveProbe.Decimal.Places
import LiveProbe.Delivery.Queue
import LiveProbe.Delivery.Transport
import LiveProbe.Engine.Basic
import LiveProbe.Engine.Component
import LiveProbe.Log
import LiveProbe.Payload.Document
import LiveProbe.Session.Run
import LiveProbe.Settings.Document
import LiveProbe.Settings.Environment
import LiveProbe.Proofs.Host.Bodies
import LiveProbe.Proofs.Hook.Frame
import LiveProbe.Proofs.Hook.Steps
import LiveProbe.Proofs.Hook.Attempts
import LiveProbe.Proofs.Hook.Waiting
import LiveProbe.Proofs.Probe.Roster
import LiveProbe.Proofs.Probe.Turnover
import LiveProbe.Proofs.Engine.Coherence
import LiveProbe.Proofs.Engine.Entering
import LiveProbe.Proofs.Engine.Pruning
import LiveProbe.Proofs.Engine.Processing
import LiveProbe.Proofs.Engine.Following
import LiveProbe.Proofs.Engine.Composition
import LiveProbe.Proofs.World.Respect
import LiveProbe.Proofs.Engine.Attunement
import LiveProbe.Proofs.Engine.Launch
import LiveProbe.Proofs.World.History
import LiveProbe.Proofs.World.Standing
import LiveProbe.Proofs.Engine.Reconciliation
import LiveProbe.Proofs.World.Operation
import LiveProbe.Proofs.Dispatch.Chain
import LiveProbe.Proofs.Dispatch.Seating
import LiveProbe.Proofs.Dispatch.Handling
import LiveProbe.Proofs.Dispatch.Simulation
import LiveProbe.Proofs.Dispatch.Transparency
import LiveProbe.Proofs.Capture.Tree
import LiveProbe.Proofs.Capture.Bounds
import LiveProbe.Proofs.Capture.Redaction
import LiveProbe.Proofs.Probe.Tenure
import LiveProbe.Proofs.World.Upkeep
import LiveProbe.Proofs.Hook.Equipment
import LiveProbe.Proofs.World.Equipment
import LiveProbe.Proofs.World.Reporting
import LiveProbe.Proofs.World.Observation
import LiveProbe.Proofs.World.Snapshots
import LiveProbe.Proofs.World.Intact
import LiveProbe.Proofs.Delivery.Protocol
import LiveProbe.Proofs.Delivery.Rounds
import LiveProbe.Proofs.Hook.Renewal
import LiveProbe.Proofs.Traffic.Step
import LiveProbe.Proofs.Traffic.Balance
import LiveProbe.Proofs.Traffic.Order
import LiveProbe.Proofs.Traffic.Sections
import LiveProbe.Proofs.Traffic.Locked
import LiveProbe.Proofs.Traffic.Rest
import LiveProbe.Proofs.Traffic.Solo
import LiveProbe.Proofs.Traffic.Settling
import LiveProbe.Proofs.Hook.Layers
import LiveProbe.Proofs.Traffic.Crowd
import LiveProbe.Proofs.Traffic.Calls
import LiveProbe.Proofs.Traffic.Closing
import LiveProbe.Proofs.Hook.Foreign
import LiveProbe.Proofs.Engine.Foreign
import LiveProbe.Proofs.Engine.Culling
import LiveProbe.Proofs.Engine.Tending
import LiveProbe.Proofs.Line.Once
import LiveProbe.Proofs.Line.Agreement
import LiveProbe.Proofs.Line.Overlooking
import LiveProbe.Proofs.World.Supersession
import LiveProbe.Proofs.Course.Runs
import LiveProbe.Proofs.Hook.Roots
import LiveProbe.Proofs.Engine.Retirement
import LiveProbe.Proofs.World.Chronicle
import LiveProbe.Proofs.World.Aloof
import LiveProbe.Proofs.World.Retirement
import LiveProbe.Proofs.Engine.Arrivals
import LiveProbe.Proofs.World.Relapse
import LiveProbe.Proofs.Line.Backlog
import LiveProbe.Proofs.Frame.Discipline
import LiveProbe.Proofs.Fault.Isolation
import LiveProbe.Proofs.Payload.Restoration
import LiveProbe.Proofs.Capture.Arguments
import LiveProbe.Proofs.Capture.Accounts
import LiveProbe.Proofs.Engine.Registrations
import LiveProbe.Proofs.Text.Trimming
import LiveProbe.Proofs.Text.Expression
import LiveProbe.Proofs.Capture.Policy
import LiveProbe.Proofs.Capture.Spelling
import LiveProbe.Proofs.Probe.Grammar
import LiveProbe.Proofs.Probe.Limiting
import LiveProbe.Proofs.Hook.Custody
import LiveProbe.Proofs.Log
import LiveProbe.Proofs.Capture.Fields
