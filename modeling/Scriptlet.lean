import Scriptlet.Clock.Duration
import Scriptlet.Clock.Moment
import Scriptlet.CommandLine.Execution
import Scriptlet.CommandLine.Flag
import Scriptlet.CommandLine.Request
import Scriptlet.Datum.Basic
import Scriptlet.Datum.Json
import Scriptlet.Decimal.Layout
import Scriptlet.Decimal.Reader
import Scriptlet.Decimal.Shortest
import Scriptlet.Diagnostics.Fault
import Scriptlet.Diagnostics.Record
import Scriptlet.Fault.Basic
import Scriptlet.Grapheme.Class
import Scriptlet.Grapheme.Cluster
import Scriptlet.Grapheme.Width
import Scriptlet.Journal.Entry
import Scriptlet.Journal.Level
import Scriptlet.Journal.Logger
import Scriptlet.Main
import Scriptlet.Proofs.Clock.DurationText
import Scriptlet.Proofs.CommandLine.Refusals
import Scriptlet.Proofs.Datum.Fields
import Scriptlet.Proofs.Datum.JsonNumerals
import Scriptlet.Proofs.Datum.JsonReader
import Scriptlet.Proofs.Datum.JsonRoundTrip
import Scriptlet.Proofs.Datum.JsonTexts
import Scriptlet.Proofs.Decimal.Digits
import Scriptlet.Proofs.Decimal.Leading
import Scriptlet.Proofs.Decimal.Numeral
import Scriptlet.Proofs.Fault.Search
import Scriptlet.Proofs.Fault.Wrapping
import Scriptlet.Proofs.Journal.FaultReports
import Scriptlet.Proofs.Journal.JsonLines
import Scriptlet.Proofs.Run.Acceptance
import Scriptlet.Proofs.Run.Composition
import Scriptlet.Proofs.Run.Execution
import Scriptlet.Proofs.Run.Interruption
import Scriptlet.Proofs.Run.Meaning
import Scriptlet.Proofs.Run.Order
import Scriptlet.Proofs.Run.PassThrough
import Scriptlet.Proofs.Run.Reporting
import Scriptlet.Proofs.Run.Safety
import Scriptlet.Proofs.Run.Shift
import Scriptlet.Proofs.Run.Typing
import Scriptlet.Proofs.Run.Writes
import Scriptlet.Proofs.Session.Agreement
import Scriptlet.Proofs.Session.Capture
import Scriptlet.Proofs.Session.Classification
import Scriptlet.Proofs.Session.Refusals
import Scriptlet.Proofs.Session.Scrollback
import Scriptlet.Proofs.Session.Transcript
import Scriptlet.Proofs.Session.Unlimited
import Scriptlet.Proofs.Settings.Keys
import Scriptlet.Proofs.Settings.Precedence
import Scriptlet.Proofs.Text.Encoding
import Scriptlet.Proofs.Text.Pieces
import Scriptlet.Proofs.Text.Runes
import Scriptlet.Proofs.Text.WellFormed
import Scriptlet.Proofs.Token.Characters
import Scriptlet.Proofs.Token.Cut
import Scriptlet.Proofs.Token.Lexicon
import Scriptlet.Proofs.Token.Lines
import Scriptlet.Proofs.Token.Margins
import Scriptlet.Proofs.Token.MaximalMunch
import Scriptlet.Proofs.Token.Newline
import Scriptlet.Proofs.Token.Policies
import Scriptlet.Proofs.Token.Respacing
import Scriptlet.Proofs.Token.Stop
import Scriptlet.Proofs.Token.Tokenization
import Scriptlet.Proofs.Tree.Attempts
import Scriptlet.Proofs.Tree.Beginnings
import Scriptlet.Proofs.Tree.Blame
import Scriptlet.Proofs.Tree.Concurrence
import Scriptlet.Proofs.Tree.Descent
import Scriptlet.Proofs.Tree.Flattening
import Scriptlet.Proofs.Tree.Grammar
import Scriptlet.Proofs.Tree.Indexed
import Scriptlet.Proofs.Tree.Isolation
import Scriptlet.Proofs.Tree.Operable
import Scriptlet.Proofs.Tree.Outline
import Scriptlet.Proofs.Tree.Parentheses
import Scriptlet.Proofs.Tree.Payloads
import Scriptlet.Proofs.Tree.Printing
import Scriptlet.Proofs.Tree.Recognition
import Scriptlet.Proofs.Tree.Recovery
import Scriptlet.Proofs.Tree.RepeatedBlame
import Scriptlet.Proofs.Tree.Steering
import Scriptlet.Proofs.Tree.Tokens
import Scriptlet.Proofs.Tree.Viability
import Scriptlet.Run.Console
import Scriptlet.Run.Engine
import Scriptlet.Run.Evaluation
import Scriptlet.Session.Conversation
import Scriptlet.Session.Field
import Scriptlet.Session.Ids
import Scriptlet.Session.Renderer
import Scriptlet.Session.Runner
import Scriptlet.Session.Screen
import Scriptlet.Session.Turn
import Scriptlet.Settings.Basic
import Scriptlet.Settings.Load
import Scriptlet.Settings.LogSetup
import Scriptlet.Settings.Version
import Scriptlet.Template.Fill
import Scriptlet.Template.Number
import Scriptlet.Template.Options
import Scriptlet.Template.Value
import Scriptlet.Text.Blank
import Scriptlet.Text.Bytes
import Scriptlet.Text.CodeSet
import Scriptlet.Text.Columns
import Scriptlet.Text.Lowercase
import Scriptlet.Text.Printable
import Scriptlet.Text.Quoted
import Scriptlet.Text.Utf8
import Scriptlet.Token.Basic
import Scriptlet.Token.Kind
import Scriptlet.Token.Scan
import Scriptlet.Token.Segment
import Scriptlet.Toml.Draft
import Scriptlet.Toml.Number
import Scriptlet.Toml.Syntax
import Scriptlet.Toml.Text
import Scriptlet.Tree.Basic
import Scriptlet.Tree.Precedence
import Scriptlet.Tree.Program
import Scriptlet.Tree.Value
import Scriptlet.World.Files
import Scriptlet.World.Path
import Scriptlet.Yaml.Characters
import Scriptlet.Yaml.Cursor
import Scriptlet.Yaml.Mapping
import Scriptlet.Yaml.Node
import Scriptlet.Yaml.Resolve
import Scriptlet.Yaml.Scalar
import Scriptlet.Yaml.Scan
import Scriptlet.Yaml.Token
