import UnionChecker.Basic
import UnionChecker.Ref
import UnionChecker.Ty.Basic
import UnionChecker.Ty.Equality
import UnionChecker.Ty.Assignability
import UnionChecker.Ty.Error
import UnionChecker.Ty.Substitution
import UnionChecker.Ty.Inference
import UnionChecker.Ty.Json
import UnionChecker.Discriminator
import UnionChecker.Coverage
import UnionChecker.Failure
import UnionChecker.Library
import UnionChecker.Json.Binary64
import UnionChecker.Json.Value
import UnionChecker.Json.Fields
import UnionChecker.Json.Reader
import UnionChecker.Json.Writer
import UnionChecker.Syntax.Span
import UnionChecker.Syntax.Tree
import UnionChecker.Syntax.Construct
import UnionChecker.Syntax.Json
import UnionChecker.Syntax.Decode
import UnionChecker.Syntax.Desugar
import UnionChecker.Scope.Table
import UnionChecker.Scope.Frames
import UnionChecker.Scope.TypeExpr
import UnionChecker.Program.Tree
import UnionChecker.Check.Monad
import UnionChecker.Check.Call
import UnionChecker.Check.Function
import UnionChecker.Check.Expr
import UnionChecker.Text.Letters
import UnionChecker.Text.Unprinted
import UnionChecker.Text.Combining
import UnionChecker.Text.Width
import UnionChecker.Binding.Package
import UnionChecker.Binding.Imports
import UnionChecker.Binding.Types
import UnionChecker.Binding.Declarations
import UnionChecker.Schedule
import UnionChecker.Config.Basic
import UnionChecker.PackageCheck
import UnionChecker.Discovery
import UnionChecker.Program.Json
import UnionChecker.Text.Lines
import UnionChecker.Report.Caret
import UnionChecker.Report.Location
import UnionChecker.Report.Diagnostic
import UnionChecker.Report.Snippet
import UnionChecker.Toml.Value
import UnionChecker.Toml.Scan
import UnionChecker.Toml.Table
import UnionChecker.Toml.Text
import UnionChecker.Toml.Number
import UnionChecker.Toml.Reader
import UnionChecker.Config.Read
import UnionChecker.CommandLine.Path
import UnionChecker.CommandLine.Snapshot
import UnionChecker.CommandLine.Arguments
import UnionChecker.CommandLine.Help
import UnionChecker.CommandLine.Run
import UnionChecker.Main
import UnionChecker.Proofs.Lists
import UnionChecker.Proofs.Steps
import UnionChecker.Proofs.Ty.Structure
import UnionChecker.Proofs.Ty.Bound
import UnionChecker.Proofs.Ty.Equivalence
import UnionChecker.Proofs.Coverage
import UnionChecker.Proofs.Ty.Unions
import UnionChecker.Proofs.Ty.Positions
import UnionChecker.Proofs.Ty.Meaning
import UnionChecker.Proofs.Ty.Decision
import UnionChecker.Proofs.Ty.Nameless
import UnionChecker.Proofs.Ty.Alpha
import UnionChecker.Proofs.Ty.Substitution
import UnionChecker.Proofs.Ty.Inference
import UnionChecker.Proofs.Ty.Assignability
import UnionChecker.Proofs.Ty.Order
import UnionChecker.Proofs.Ty.Congruence
import UnionChecker.Proofs.Ty.Canonical
import UnionChecker.Proofs.Ty.Hereditary
import UnionChecker.Proofs.Ty.Reading
import UnionChecker.Proofs.Ty.Scoped
import UnionChecker.Proofs.Ty.Capture
import UnionChecker.Proofs.Ty.FreeNames
import UnionChecker.Proofs.Ty.Instances
import UnionChecker.Proofs.Partition
import UnionChecker.Proofs.Report.Caret
import UnionChecker.Proofs.Check.Yields
import UnionChecker.Proofs.Check.Runs
import UnionChecker.Proofs.Check.Likeness
import UnionChecker.Proofs.Check.Simulation
import UnionChecker.Proofs.Check.Simulated
import UnionChecker.Proofs.Check.Inversion
import UnionChecker.Proofs.Check.Arguments
import UnionChecker.Proofs.Check.Call
import UnionChecker.Proofs.Value.Basic
import UnionChecker.Proofs.Binding.Records
import UnionChecker.Proofs.Binding.Closed
import UnionChecker.Proofs.Binding.Rounds
import UnionChecker.Proofs.Binding.Slots
import UnionChecker.Proofs.Binding.Types
import UnionChecker.Proofs.Binding.Reach
import UnionChecker.Proofs.Binding.Patches
import UnionChecker.Proofs.Syntax.Blocks
import UnionChecker.Proofs.Syntax.Expansion
import UnionChecker.Proofs.Syntax.Binders
import UnionChecker.Proofs.Syntax.Names
import UnionChecker.Proofs.Syntax.Sugar
import UnionChecker.Proofs.Syntax.Expanded
import UnionChecker.Proofs.Json.Defaults
import UnionChecker.Proofs.Json.Readers
import UnionChecker.Proofs.Syntax.Defaults
import UnionChecker.Proofs.Syntax.RoundTrip
import UnionChecker.Proofs.Binding.Hereditary
import UnionChecker.Proofs.Program.Nodes
import UnionChecker.Proofs.Program.Sound
import UnionChecker.Proofs.Program.WellTyped
import UnionChecker.Proofs.Program.Recorded
import UnionChecker.Proofs.Check.TypeInvariant
import UnionChecker.Proofs.Check.CallTypes
import UnionChecker.Proofs.Check.Invariant
import UnionChecker.Proofs.Check.Accepted
import UnionChecker.Proofs.Check.Repeats
import UnionChecker.Proofs.Check.Extension
import UnionChecker.Proofs.Check.Congruence
import UnionChecker.Proofs.Check.Wanted
import UnionChecker.Proofs.Check.Agreement
import UnionChecker.Proofs.Check.Scoping
import UnionChecker.Proofs.Check.Locality
import UnionChecker.Proofs.Schedule
import UnionChecker.Proofs.PackageCheck
import UnionChecker.Proofs.Courses
import UnionChecker.Proofs.Binding.SourceOrder
import UnionChecker.Proofs.Binding.Aliases
import UnionChecker.Proofs.Binding.Bodies
import UnionChecker.Proofs.PackageTypes
import UnionChecker.Proofs.PackageLinks
import UnionChecker.Proofs.PackageBinders
import UnionChecker.Proofs.Binding.Fields
import UnionChecker.Proofs.Binding.Reachable
import UnionChecker.Proofs.PackageUnions
import UnionChecker.Proofs.Value.Tests
import UnionChecker.Proofs.Value.Names
import UnionChecker.Proofs.Value.Identity
import UnionChecker.Proofs.Value.Inclusion
import UnionChecker.Proofs.Value.Exhaustive
import UnionChecker.Proofs.Value.Narrowing
import UnionChecker.Proofs.Check.ArmOrder
import UnionChecker.Proofs.Check.ShortCircuit
import UnionChecker.Proofs.Check.Origins
import UnionChecker.Proofs.Spelling.Order
import UnionChecker.Proofs.Spelling.Types
import UnionChecker.Proofs.Spelling.Scope
import UnionChecker.Proofs.Spelling.Check
import UnionChecker.Proofs.Spelling.Binding
import UnionChecker.Proofs.Spelling.Package
import UnionChecker.Proofs.Spelling.Renaming
