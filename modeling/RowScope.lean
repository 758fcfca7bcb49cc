import RowScope.Cell.Basic
import RowScope.Cell.Projection
import RowScope.Column.Basic
import RowScope.Column.Convert
import RowScope.Column.Declaration
import RowScope.Column.Record
import RowScope.Column.Target
import RowScope.Column.Value
import RowScope.CommandLine.Arguments
import RowScope.CommandLine.Printing
import RowScope.CommandLine.Run
import RowScope.CommandLine.Word
import RowScope.Config.Basic
import RowScope.Config.Cache
import RowScope.Config.FileTree
import RowScope.Config.Load
import RowScope.Config.Moment
import RowScope.Config.Setting
import RowScope.Engine.Basic
import RowScope.Engine.Error
import RowScope.Engine.Plan
import RowScope.Engine.Sql
import RowScope.Error.Basic
import RowScope.Error.Kind
import RowScope.Error.Made
import RowScope.Fault
import RowScope.Main
import RowScope.Number.Binary64
import RowScope.Number.Layout
import RowScope.Number.Literal
import RowScope.Number.RealText
import RowScope.Number.Rounding
import RowScope.Number.Scan
import RowScope.Number.Shortest
import RowScope.Path.Basic
import RowScope.Path.ReadOnly
import RowScope.Proofs.Cell.Agreement
import RowScope.Proofs.Cell.Leading
import RowScope.Proofs.Cell.Overlong
import RowScope.Proofs.Cell.Rereading
import RowScope.Proofs.Cell.Truncation
import RowScope.Proofs.Column.Binding
import RowScope.Proofs.Column.Content
import RowScope.Proofs.Column.Conversion
import RowScope.Proofs.Column.Holding
import RowScope.Proofs.Column.Reading
import RowScope.Proofs.Column.Renaming
import RowScope.Proofs.Column.Wrapping
import RowScope.Proofs.CommandLine.CleanUp
import RowScope.Proofs.CommandLine.Outcome
import RowScope.Proofs.CommandLine.Page
import RowScope.Proofs.CommandLine.Printout
import RowScope.Proofs.Config.Pragma
import RowScope.Proofs.Config.PragmaName
import RowScope.Proofs.Number.Digits
import RowScope.Proofs.Number.Grammar
import RowScope.Proofs.Number.Integers
import RowScope.Proofs.Number.Leading
import RowScope.Proofs.Number.Nearest
import RowScope.Proofs.Number.Numerals
import RowScope.Proofs.Number.Rendering
import RowScope.Proofs.Number.Significant
import RowScope.Proofs.Number.Spacing
import RowScope.Proofs.Number.Value
import RowScope.Proofs.Path.Normal
import RowScope.Proofs.Path.Place
import RowScope.Proofs.Path.Reference
import RowScope.Proofs.Session.Account
import RowScope.Proofs.Session.Admission
import RowScope.Proofs.Session.Calls
import RowScope.Proofs.Session.Completion
import RowScope.Proofs.Session.Containment
import RowScope.Proofs.Session.CurrentRow
import RowScope.Proofs.Session.Deeds
import RowScope.Proofs.Session.Delivery
import RowScope.Proofs.Session.Discipline
import RowScope.Proofs.Session.Effects
import RowScope.Proofs.Session.Finality
import RowScope.Proofs.Session.Fit
import RowScope.Proofs.Session.Footprint
import RowScope.Proofs.Session.Frame
import RowScope.Proofs.Session.Lifecycle
import RowScope.Proofs.Session.Move
import RowScope.Proofs.Session.Names
import RowScope.Proofs.Session.Numbering
import RowScope.Proofs.Session.OneShot
import RowScope.Proofs.Session.Opening
import RowScope.Proofs.Session.Parallel
import RowScope.Proofs.Session.Passage
import RowScope.Proofs.Session.ReadOnly
import RowScope.Proofs.Session.Records
import RowScope.Proofs.Session.Renewal
import RowScope.Proofs.Session.Rest
import RowScope.Proofs.Session.Separation
import RowScope.Proofs.Session.Shares
import RowScope.Proofs.Session.Stability
import RowScope.Proofs.Session.Standing
import RowScope.Proofs.Session.Transcript
import RowScope.Proofs.Session.Turn
import RowScope.Proofs.Session.Wire
import RowScope.Proofs.Session.World
import RowScope.Proofs.Text.Boundary
import RowScope.Proofs.Text.Decoding
import RowScope.Proofs.Text.RoundTrip
import RowScope.Proofs.Text.Sequence
import RowScope.Proofs.Text.WellFormed
import RowScope.Session.Basic
import RowScope.Session.Command
import RowScope.Session.Cursor
import RowScope.Session.Database
import RowScope.Session.Diagnostic
import RowScope.Session.Handle
import RowScope.Session.Statement
import RowScope.Session.View
import RowScope.Text.Basic
import RowScope.Text.Codec
import RowScope.Text.Printable
import RowScope.Text.Quoted
import RowScope.Toml.Document
import RowScope.Toml.Moment
import RowScope.Toml.Number
import RowScope.Toml.Quoted
import RowScope.Toml.Scan
import RowScope.Toml.Value
