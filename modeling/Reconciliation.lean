import Reconciliation.Action
import Reconciliation.CommandLine.Arguments
import Reconciliation.CommandLine.Invocation
import Reconciliation.CommandLine.Report
import Reconciliation.CommandLine.Session
import Reconciliation.Decimal.Layout
import Reconciliation.Decimal.Shortest
import Reconciliation.Directive
import Reconciliation.Discovery
import Reconciliation.Duration
import Reconciliation.EngineConfig
import Reconciliation.EngineError
import Reconciliation.Filter
import Reconciliation.Hash.Blake3
import Reconciliation.Identifier
import Reconciliation.Json.Basic
import Reconciliation.Json.Decode
import Reconciliation.Json.Document
import Reconciliation.Json.Number
import Reconciliation.Json.Printer
import Reconciliation.Json.Token
import Reconciliation.Key
import Reconciliation.Main
import Reconciliation.Object.Basic
import Reconciliation.Object.Codec
import Reconciliation.Object.Field
import Reconciliation.Outcome
import Reconciliation.Ownership
import Reconciliation.Pattern
import Reconciliation.Proofs.Memory.Content
import Reconciliation.Proofs.Memory.Filing
import Reconciliation.Proofs.Memory.Representation
import Reconciliation.Proofs.Memory.Run
import Reconciliation.Proofs.Memory.Tokens
import Reconciliation.Proofs.Store.Call
import Reconciliation.Reconciler
import Reconciliation.ResourceType
import Reconciliation.Retry
import Reconciliation.Run
import Reconciliation.SchemaError
import Reconciliation.Store.Basic
import Reconciliation.Store.Cascade
import Reconciliation.Store.Config
import Reconciliation.Store.Error
import Reconciliation.Store.Memory
import Reconciliation.Table
import Reconciliation.Text.Blank
import Reconciliation.Text.Lowercase
import Reconciliation.Text.Natural
import Reconciliation.Text.Percent
import Reconciliation.Text.Printable
import Reconciliation.Text.Quoted
import Reconciliation.Text.Utf8
import Reconciliation.Wire.Carrier
import Reconciliation.Wire.Client
import Reconciliation.Wire.Path
import Reconciliation.Wire.Server
import Reconciliation.Wire.Service
import Reconciliation.Proofs.Engine.Step
import Reconciliation.Proofs.Engine.Updater
import Reconciliation.Proofs.Engine.Contention
import Reconciliation.Proofs.Text.Cut
import Reconciliation.Proofs.Text.Percent
import Reconciliation.Proofs.Selector
import Reconciliation.Proofs.Wire.Address
import Reconciliation.Proofs.Wire.Exchange
import Reconciliation.Proofs.Wire.Refinement
import Reconciliation.Proofs.Engine.Trace
import Reconciliation.Proofs.Engine.Sequencing
import Reconciliation.Proofs.Engine.Cancellation
import Reconciliation.Proofs.Engine.Record
import Reconciliation.Proofs.Engine.Provenance
import Reconciliation.Proofs.Memory.Failure
import Reconciliation.Proofs.Memory.Serving
import Reconciliation.Proofs.Engine.Script
import Reconciliation.Proofs.Engine.Commons
import Reconciliation.Proofs.Engine.Presence
import Reconciliation.Proofs.Engine.Removal
import Reconciliation.Proofs.Engine.Clearing
import Reconciliation.Proofs.Engine.Budget
import Reconciliation.Proofs.Engine.Course
import Reconciliation.Proofs.Fallible
import Reconciliation.Proofs.Wire.Dispatch
import Reconciliation.Proofs.Wire.Admission
import Reconciliation.Proofs.Wire.Scope
import Reconciliation.Proofs.Json.Record
import Reconciliation.Proofs.Configuration
import Reconciliation.Proofs.Memory.Dependents
import Reconciliation.Proofs.Wire.Effect
import Reconciliation.Proofs.Memory.Incarnation
import Reconciliation.Proofs.Json.Depth
import Reconciliation.Proofs.Json.Reread
import Reconciliation.Proofs.Object.Codec
import Reconciliation.Proofs.Wire.Fetch
import Reconciliation.Proofs.Wire.Nesting
import Reconciliation.Proofs.Store.Reading
import Reconciliation.Proofs.Owners.Walk
import Reconciliation.Proofs.Owners.Recurrence
import Reconciliation.Proofs.Owners.Summit
import Reconciliation.Proofs.Wire.Location
import Reconciliation.Proofs.Table
import Reconciliation.Proofs.Selector.Meaning
import Reconciliation.Proofs.Selector.Expression
import Reconciliation.Proofs.Memory.Restriction
import Reconciliation.Proofs.Key
import Reconciliation.Proofs.Discovery
import Reconciliation.Proofs.Store.Durable
import Reconciliation.Proofs.CommandLine.Naming
import Reconciliation.Proofs.CommandLine.Ensure
import Reconciliation.Proofs.Engine.Attempts
import Reconciliation.Proofs.Object.Field
import Reconciliation.Proofs.Object.RoundTrip
import Reconciliation.Proofs.Memory.Listing
import Reconciliation.Proofs.Subdomain
import Reconciliation.Proofs.Owners.Reference
import Reconciliation.Proofs.Memory.Injection
import Reconciliation.Proofs.Memory.Commutation
import Reconciliation.Proofs.First
import Reconciliation.Proofs.Registration
import Reconciliation.Proofs.Key.Spelling
import Reconciliation.Proofs.Json.Quotation
import Reconciliation.Proofs.Json.Digits
import Reconciliation.Proofs.Json.Layout
import Reconciliation.Proofs.Persistence
