import LayeredConfig.Assoc
import LayeredConfig.Compilation.Compile
import LayeredConfig.Compilation.Error
import LayeredConfig.Compilation.Options
import LayeredConfig.Compilation.Snapshot
import LayeredConfig.Compilation.Variables
import LayeredConfig.Diagnostic.Basic
import LayeredConfig.Diagnostic.Catalog
import LayeredConfig.Diagnostic.Record
import LayeredConfig.Document.Basic
import LayeredConfig.Document.Conversion
import LayeredConfig.Document.ConversionError
import LayeredConfig.Document.Expr
import LayeredConfig.Json.Basic
import LayeredConfig.Json.Reader
import LayeredConfig.Merge.Layers
import LayeredConfig.Merge.Spread
import LayeredConfig.Number.Binary64
import LayeredConfig.Number.Shortest
import LayeredConfig.Provider.Basic
import LayeredConfig.Provider.Failure
import LayeredConfig.Provider.Registry
import LayeredConfig.Resolution.Access
import LayeredConfig.Resolution.Agenda
import LayeredConfig.Resolution.Context
import LayeredConfig.Resolution.Error
import LayeredConfig.Resolution.Lines
import LayeredConfig.Resolution.Policy
import LayeredConfig.Resolution.Poll
import LayeredConfig.Resolution.Run
import LayeredConfig.Resolution.Site
import LayeredConfig.Resolution.Task
import LayeredConfig.Resolution.Trace
import LayeredConfig.Resolution.World
import LayeredConfig.Source.Origin
import LayeredConfig.Source.Position
import LayeredConfig.Text.Duration
import LayeredConfig.Text.Printable
import LayeredConfig.Text.Quoted
import LayeredConfig.Text.Segments
import LayeredConfig.Toml.Basic
import LayeredConfig.Toml.Datetime
import LayeredConfig.Toml.Json
import LayeredConfig.Toml.Reader
import LayeredConfig.Value.Basic
import LayeredConfig.Value.Equality
import LayeredConfig.Value.Json
import LayeredConfig.Value.Path
import LayeredConfig.Value.Redaction
import LayeredConfig.Proofs.Compilation.Declarations
import LayeredConfig.Proofs.Compilation.Flights
import LayeredConfig.Proofs.Compilation.Passes
import LayeredConfig.Proofs.Compilation.Progress
import LayeredConfig.Proofs.Compilation.Secrecy
import LayeredConfig.Proofs.Diagnostic.Record
import LayeredConfig.Proofs.Document.Conversion
import LayeredConfig.Proofs.Document.Grammar
import LayeredConfig.Proofs.Document.Maps
import LayeredConfig.Proofs.Document.Masking
import LayeredConfig.Proofs.Document.Nesting
import LayeredConfig.Proofs.Document.Variables
import LayeredConfig.Proofs.Json.Data
import LayeredConfig.Proofs.Json.Numbers
import LayeredConfig.Proofs.Json.Text
import LayeredConfig.Proofs.Merge.Algebra
import LayeredConfig.Proofs.Merge.Composition
import LayeredConfig.Proofs.Merge.KeyOrder
import LayeredConfig.Proofs.Merge.Mapping
import LayeredConfig.Proofs.Merge.Precedence
import LayeredConfig.Proofs.Merge.Revealing
import LayeredConfig.Proofs.Provider.Bindings
import LayeredConfig.Proofs.Provider.Looks
import LayeredConfig.Proofs.Provider.Permanence
import LayeredConfig.Proofs.Provider.Traffic
import LayeredConfig.Proofs.Resolution.Answers
import LayeredConfig.Proofs.Resolution.Attribution
import LayeredConfig.Proofs.Resolution.Balance
import LayeredConfig.Proofs.Resolution.Census
import LayeredConfig.Proofs.Resolution.DepthFirst
import LayeredConfig.Proofs.Resolution.Downgrading
import LayeredConfig.Proofs.Resolution.Fetches
import LayeredConfig.Proofs.Resolution.FirstLook
import LayeredConfig.Proofs.Resolution.Growth
import LayeredConfig.Proofs.Resolution.Headway
import LayeredConfig.Proofs.Resolution.Interruption
import LayeredConfig.Proofs.Resolution.Keys
import LayeredConfig.Proofs.Resolution.Ledger
import LayeredConfig.Proofs.Resolution.Leniency
import LayeredConfig.Proofs.Resolution.Lines
import LayeredConfig.Proofs.Resolution.Liveness
import LayeredConfig.Proofs.Resolution.Lockstep
import LayeredConfig.Proofs.Resolution.Masking
import LayeredConfig.Proofs.Resolution.Motion
import LayeredConfig.Proofs.Resolution.Moves
import LayeredConfig.Proofs.Resolution.NormalForm
import LayeredConfig.Proofs.Resolution.Parts
import LayeredConfig.Proofs.Resolution.Permits
import LayeredConfig.Proofs.Resolution.Polling
import LayeredConfig.Proofs.Resolution.Provenance
import LayeredConfig.Proofs.Resolution.Refusal
import LayeredConfig.Proofs.Resolution.Replacing
import LayeredConfig.Proofs.Resolution.Reuse
import LayeredConfig.Proofs.Resolution.Running
import LayeredConfig.Proofs.Resolution.Script
import LayeredConfig.Proofs.Resolution.SelfContained
import LayeredConfig.Proofs.Resolution.Sequential
import LayeredConfig.Proofs.Resolution.Serial
import LayeredConfig.Proofs.Resolution.Session
import LayeredConfig.Proofs.Resolution.Shadowing
import LayeredConfig.Proofs.Resolution.SingleFlight
import LayeredConfig.Proofs.Resolution.Start
import LayeredConfig.Proofs.Resolution.Substitution
import LayeredConfig.Proofs.Resolution.Timeouts
import LayeredConfig.Proofs.Resolution.Transparency
import LayeredConfig.Proofs.Resolution.Turns
import LayeredConfig.Proofs.Resolution.Waiting
import LayeredConfig.Proofs.Resolution.Warnings
import LayeredConfig.Proofs.Source.Position
import LayeredConfig.Proofs.Source.Range
import LayeredConfig.Proofs.Text.Numerals
import LayeredConfig.Proofs.Text.Segments
import LayeredConfig.Proofs.Value.DistinctKeys
import LayeredConfig.Proofs.Value.Fields
import LayeredConfig.Proofs.Value.Induction
import LayeredConfig.Proofs.Value.Json
import LayeredConfig.Proofs.Value.KeyOrder
import LayeredConfig.Proofs.Value.Masking
import LayeredConfig.Proofs.Value.Picking
import LayeredConfig.Proofs.Value.Resolved
import LayeredConfig.Proofs.Value.Revealing
