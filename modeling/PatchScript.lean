import PatchScript.Command.Arguments
import PatchScript.Command.Bare
import PatchScript.Command.Basic
import PatchScript.Command.Block
import PatchScript.Command.Call
import PatchScript.Command.Fault
import PatchScript.Command.Line
import PatchScript.Command.Literal
import PatchScript.Command.Shorthand
import PatchScript.Command.Text
import PatchScript.Condition
import PatchScript.Document.Basic
import PatchScript.Document.Constraints
import PatchScript.Expression.Basic
import PatchScript.Expression.Names
import PatchScript.Expression.Reader
import PatchScript.Form.Field
import PatchScript.Form.Problem
import PatchScript.Json.Printer
import PatchScript.Json.Reader
import PatchScript.Number.Basic
import PatchScript.Number.Binary64
import PatchScript.Number.Numeral
import PatchScript.Number.Shortest
import PatchScript.Operation.Admission
import PatchScript.Operation.Basic
import PatchScript.Operation.Effect
import PatchScript.Operation.Failure
import PatchScript.Operation.Form
import PatchScript.Operation.Outcome
import PatchScript.Operation.Series
import PatchScript.Path.Segment
import PatchScript.Path.Spelling
import PatchScript.Pattern.Basic
import PatchScript.Pattern.Choice
import PatchScript.Pattern.Class
import PatchScript.Pattern.Escape
import PatchScript.Pattern.Matcher
import PatchScript.Pattern.Reader
import PatchScript.Pattern.Token
import PatchScript.Proofs.Command.Accounts
import PatchScript.Proofs.Command.Arguments
import PatchScript.Proofs.Command.Batches
import PatchScript.Proofs.Command.BlankLines
import PatchScript.Proofs.Command.Blocks
import PatchScript.Proofs.Command.Brackets
import PatchScript.Proofs.Command.CallScan
import PatchScript.Proofs.Command.Calls
import PatchScript.Proofs.Command.Closing
import PatchScript.Proofs.Command.Cutting
import PatchScript.Proofs.Command.Escapes
import PatchScript.Proofs.Command.Grouping
import PatchScript.Proofs.Command.Interleaving
import PatchScript.Proofs.Command.Joining
import PatchScript.Proofs.Command.Parts
import PatchScript.Proofs.Condition.Check
import PatchScript.Proofs.Condition.Leaf
import PatchScript.Proofs.Condition.Meaning
import PatchScript.Proofs.Document.FailedWrite
import PatchScript.Proofs.Document.ForcedWrite
import PatchScript.Proofs.Document.Frame
import PatchScript.Proofs.Document.Governing
import PatchScript.Proofs.Document.Landing
import PatchScript.Proofs.Document.Mirror
import PatchScript.Proofs.Document.MirroredWrite
import PatchScript.Proofs.Document.NearestConstraints
import PatchScript.Proofs.Document.Places
import PatchScript.Proofs.Document.PutBack
import PatchScript.Proofs.Document.Removal
import PatchScript.Proofs.Document.Rewriting
import PatchScript.Proofs.Document.Standing
import PatchScript.Proofs.Document.Update
import PatchScript.Proofs.Document.Written
import PatchScript.Proofs.Except
import PatchScript.Proofs.Expression.Calculation
import PatchScript.Proofs.Expression.Cursor
import PatchScript.Proofs.Expression.Grammar
import PatchScript.Proofs.Expression.Integers
import PatchScript.Proofs.Expression.Machine
import PatchScript.Proofs.Expression.Names
import PatchScript.Proofs.Expression.Numerals
import PatchScript.Proofs.Expression.Reading
import PatchScript.Proofs.Expression.Rendered
import PatchScript.Proofs.Expression.Splitting
import PatchScript.Proofs.Expression.Steps
import PatchScript.Proofs.Expression.Substitution
import PatchScript.Proofs.Expression.Survival
import PatchScript.Proofs.Expression.Tokens
import PatchScript.Proofs.Json.Literal
import PatchScript.Proofs.Json.Shape
import PatchScript.Proofs.Number.Positional
import PatchScript.Proofs.Number.ReadBack
import PatchScript.Proofs.Number.Rounding
import PatchScript.Proofs.Operation.AddThenRemove
import PatchScript.Proofs.Operation.ClosedMapping
import PatchScript.Proofs.Operation.ConstraintFilter
import PatchScript.Proofs.Operation.Descriptions
import PatchScript.Proofs.Operation.Effect
import PatchScript.Proofs.Operation.Increments
import PatchScript.Proofs.Operation.Independence
import PatchScript.Proofs.Operation.KeyedRemoval
import PatchScript.Proofs.Operation.ListEdits
import PatchScript.Proofs.Operation.LiteralChild
import PatchScript.Proofs.Operation.Locality
import PatchScript.Proofs.Operation.RequiredKey
import PatchScript.Proofs.Operation.TestAndGuard
import PatchScript.Proofs.Operation.Trace
import PatchScript.Proofs.Operation.Truth
import PatchScript.Proofs.Operation.TwoSteps
import PatchScript.Proofs.Operation.Wire
import PatchScript.Proofs.Path.Canonical
import PatchScript.Proofs.Path.Dotted
import PatchScript.Proofs.Path.FirstSegment
import PatchScript.Proofs.Path.Parse
import PatchScript.Proofs.Path.ReadBack
import PatchScript.Proofs.Path.Steady
import PatchScript.Proofs.Path.TwoSpellings
import PatchScript.Proofs.Path.Weight
import PatchScript.Proofs.Series
import PatchScript.Proofs.Session.CompareAndSet
import PatchScript.Proofs.Session.Display
import PatchScript.Proofs.Session.Pieces
import PatchScript.Proofs.Session.Release
import PatchScript.Proofs.Session.Requests
import PatchScript.Proofs.Session.SettingsUpdate
import PatchScript.Proofs.Session.SteadyDisplay
import PatchScript.Proofs.Session.Surfaces
import PatchScript.Proofs.Session.Verbs
import PatchScript.Proofs.Session.WholeBatch
import PatchScript.Proofs.Store.Annotations
import PatchScript.Proofs.Store.Mirror
import PatchScript.Proofs.Store.PutBack
import PatchScript.Proofs.Store.Reported
import PatchScript.Proofs.Store.Restriction
import PatchScript.Proofs.Store.Rewriting
import PatchScript.Proofs.Store.Trace
import PatchScript.Proofs.Store.Undeletion
import PatchScript.Proofs.Store.Writing
import PatchScript.Proofs.Text.Cut
import PatchScript.Proofs.Text.Digits
import PatchScript.Proofs.Text.Lines
import PatchScript.Proofs.Text.Trim
import PatchScript.Proofs.Value.Alike
import PatchScript.Proofs.Value.Equality
import PatchScript.Proofs.Value.Mapping
import PatchScript.Proofs.Value.Size
import PatchScript.Proofs.Value.StrictEquality
import PatchScript.Session.Basic
import PatchScript.Session.Settings
import PatchScript.Session.Stream
import PatchScript.Store.Archive
import PatchScript.Store.Basic
import PatchScript.Store.Change
import PatchScript.Subscription
import PatchScript.Text.Blank
import PatchScript.Text.Case
import PatchScript.Text.Digit
import PatchScript.Text.Find
import PatchScript.Text.Identifier
import PatchScript.Text.Lines
import PatchScript.Text.Printable
import PatchScript.Text.Word
import PatchScript.Value.Basic
import PatchScript.Value.Entries
import PatchScript.Value.Equality
import PatchScript.Value.Literal
