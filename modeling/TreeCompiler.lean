import TreeCompiler.Analysis.Call
import TreeCompiler.Analysis.Declare
import TreeCompiler.Analysis.Expr
import TreeCompiler.Analysis.Function
import TreeCompiler.Analysis.Instance
import TreeCompiler.Analysis.Overload
import TreeCompiler.Analysis.Problem
import TreeCompiler.Analysis.Resolver
import TreeCompiler.Analysis.Run
import TreeCompiler.Analysis.State
import TreeCompiler.Analysis.Statement
import TreeCompiler.Analysis.TypeExpr
import TreeCompiler.Build.Artifact
import TreeCompiler.Build.Cache
import TreeCompiler.Build.Compile
import TreeCompiler.Build.Digest
import TreeCompiler.Build.Event
import TreeCompiler.Build.Progress
import TreeCompiler.Build.Project
import TreeCompiler.Build.Timer
import TreeCompiler.Build.Unit
import TreeCompiler.Code.Assembler
import TreeCompiler.Code.Instr
import TreeCompiler.Code.Listing
import TreeCompiler.Code.Opcode
import TreeCompiler.Code.Program
import TreeCompiler.Command.Basic
import TreeCompiler.Command.Flag
import TreeCompiler.Command.Run
import TreeCompiler.Command.Session
import TreeCompiler.Command.Usage
import TreeCompiler.Debug.Recorder
import TreeCompiler.Debug.Table
import TreeCompiler.Diagnostic.Bag
import TreeCompiler.Diagnostic.Code
import TreeCompiler.Diagnostic.Document
import TreeCompiler.Diagnostic.Location
import TreeCompiler.Diagnostic.Pretty
import TreeCompiler.Diagnostic.Sink
import TreeCompiler.Disk
import TreeCompiler.Document
import TreeCompiler.Emit.Operand
import TreeCompiler.Emit.Run
import TreeCompiler.Emit.State
import TreeCompiler.Emit.Statement
import TreeCompiler.Emit.Value
import TreeCompiler.Externs
import TreeCompiler.Hash.Sha256
import TreeCompiler.Hash.Xxh3
import TreeCompiler.IdMap
import TreeCompiler.Main
import TreeCompiler.Number.Integer
import TreeCompiler.Number.Shortest
import TreeCompiler.Scope.Lookup
import TreeCompiler.Scope.Symbol
import TreeCompiler.Scope.Table
import TreeCompiler.Settings.Basic
import TreeCompiler.Settings.Reader
import TreeCompiler.Source.Document
import TreeCompiler.Source.File
import TreeCompiler.Source.Names
import TreeCompiler.Text.Compose
import TreeCompiler.Text.ComposeData
import TreeCompiler.Text.Json
import TreeCompiler.Text.Lowercase
import TreeCompiler.Text.Path
import TreeCompiler.Text.PrintableData
import TreeCompiler.Text.Quoted
import TreeCompiler.Text.Ranges
import TreeCompiler.Text.Utf8
import TreeCompiler.Text.Width
import TreeCompiler.Text.WidthData
import TreeCompiler.Toml.Document
import TreeCompiler.Toml.Scalar
import TreeCompiler.Toml.Statement
import TreeCompiler.Toml.Value
import TreeCompiler.Trace.Event
import TreeCompiler.Trace.Log
import TreeCompiler.Trace.Tracer
import TreeCompiler.Tree.Basic
import TreeCompiler.Tree.Builder
import TreeCompiler.Tree.Kind
import TreeCompiler.Tree.Notation
import TreeCompiler.Tree.Unit
import TreeCompiler.Types.Basic
import TreeCompiler.Types.Fingerprint
import TreeCompiler.Types.Rules
import TreeCompiler.Version
import TreeCompiler.Wire.Record
import TreeCompiler.Wire.Value
import TreeCompiler.Proofs.Scope.Growth
import TreeCompiler.Proofs.Scope.Layout
import TreeCompiler.Proofs.Analysis.Step
import TreeCompiler.Proofs.Analysis.Declare
import TreeCompiler.Proofs.Analysis.Instance
import TreeCompiler.Proofs.Analysis.Resolve
import TreeCompiler.Proofs.Analysis.Speculation
import TreeCompiler.Proofs.Emit.Extend
import TreeCompiler.Proofs.Emit.Statement
import TreeCompiler.Proofs.Emit.Frame
import TreeCompiler.Proofs.Emit.Queue
import TreeCompiler.Proofs.Code.Machine
import TreeCompiler.Proofs.Emit.Keep
import TreeCompiler.Proofs.Emit.Steady
import TreeCompiler.Proofs.Emit.Invoke
import TreeCompiler.Proofs.Emit.Operands
import TreeCompiler.Proofs.Emit.Claim
import TreeCompiler.Proofs.Emit.Balance
import TreeCompiler.Proofs.Emit.Direct
import TreeCompiler.Proofs.Emit.Catalog
import TreeCompiler.Proofs.Emit.Forcing
import TreeCompiler.Proofs.Emit.Pair
import TreeCompiler.Proofs.Emit.Lockstep
import TreeCompiler.Proofs.Emit.Rounds
import TreeCompiler.Proofs.Emit.Twin
import TreeCompiler.Proofs.Emit.Finish
import TreeCompiler.Proofs.Emit.Once
import TreeCompiler.Proofs.Emit.Act
import TreeCompiler.Proofs.Emit.Describe
import TreeCompiler.Proofs.Emit.Defaults
import TreeCompiler.Proofs.Emit.Supply
import TreeCompiler.Proofs.Analysis.Returns
import TreeCompiler.Proofs.Analysis.Coverage
import TreeCompiler.Proofs.Except
import TreeCompiler.Proofs.Tree.Circle
import TreeCompiler.Proofs.Analysis.Ends
import TreeCompiler.Proofs.Emit.Traverse
import TreeCompiler.Proofs.Emit.Grow
import TreeCompiler.Proofs.Emit.Refer
import TreeCompiler.Proofs.Emit.Confine
import TreeCompiler.Proofs.Emit.Ranges
import TreeCompiler.Proofs.Emit.Landing
import TreeCompiler.Proofs.Emit.Schedule
import TreeCompiler.Proofs.Emit.Valid
import TreeCompiler.Proofs.Emit.Spare
import TreeCompiler.Proofs.Text.Utf8
import TreeCompiler.Proofs.Text.Path
import TreeCompiler.Proofs.Wire.Value
import TreeCompiler.Proofs.Wire.Record
import TreeCompiler.Proofs.Tree.Unit
import TreeCompiler.Proofs.Code.Program
import TreeCompiler.Proofs.Build.Artifact
import TreeCompiler.Proofs.Analysis.Within
import TreeCompiler.Proofs.Analysis.Finished
import TreeCompiler.Proofs.Text.Hex
import TreeCompiler.Proofs.Build.Digest
import TreeCompiler.Proofs.Text.Compose
import TreeCompiler.Proofs.Types.Fingerprint
import TreeCompiler.Proofs.Tree.Respell
import TreeCompiler.Proofs.Scope.Instances
import TreeCompiler.Proofs.Scope.Respell
import TreeCompiler.Proofs.Diagnostic.Sink
import TreeCompiler.Proofs.Agree.Basic
import TreeCompiler.Proofs.Agree.State
import TreeCompiler.Proofs.Agree.Declare
import TreeCompiler.Proofs.Agree.Instance
import TreeCompiler.Proofs.Agree.Types
import TreeCompiler.Proofs.Agree.Call
import TreeCompiler.Proofs.Agree.Expr
import TreeCompiler.Proofs.Agree.Run
import TreeCompiler.Proofs.Analysis.Requests
import TreeCompiler.Proofs.Analysis.Dialects
import TreeCompiler.Proofs.Analysis.Advance
import TreeCompiler.Proofs.Analysis.Visits
import TreeCompiler.Proofs.Analysis.Sweeps
import TreeCompiler.Proofs.Types.Derivation
import TreeCompiler.Proofs.Types.Identity
import TreeCompiler.Proofs.Types.Acceptance
import TreeCompiler.Proofs.Analysis.Overload
import TreeCompiler.Proofs.Scope.Lookup
import TreeCompiler.Proofs.Scope.Slots
import TreeCompiler.Proofs.Analysis.Frames
import TreeCompiler.Proofs.Analysis.Slots
import TreeCompiler.Proofs.Analysis.Visible
import TreeCompiler.Proofs.Emit.Compound
import TreeCompiler.Proofs.Analysis.Loops
import TreeCompiler.Proofs.Emit.Loops
import TreeCompiler.Proofs.Emit.Jumps
import TreeCompiler.Proofs.Debug.Log
import TreeCompiler.Proofs.Build.Accepted
import TreeCompiler.Proofs.Analysis.Trials
import TreeCompiler.Proofs.Emit.Trail
import TreeCompiler.Proofs.Emit.Positions
import TreeCompiler.Proofs.Tree.Copy
import TreeCompiler.Proofs.Code.Session
import TreeCompiler.Proofs.Types.Descent
import TreeCompiler.Proofs.Source.Position
import TreeCompiler.Proofs.Diagnostic.Snippet
import TreeCompiler.Proofs.Trace.Ring
