import Parlance.Bytes
import Parlance.Calendar
import Parlance.CommandLine.Arguments
import Parlance.CommandLine.Run
import Parlance.CommandLine.Usage
import Parlance.Config
import Parlance.Config.Environment
import Parlance.Config.Json
import Parlance.Dialect
import Parlance.Engine
import Parlance.Engine.Param
import Parlance.Engine.Result
import Parlance.Engine.Scripted
import Parlance.Engine.Statement
import Parlance.Error
import Parlance.Executor
import Parlance.Grammar.Assignment
import Parlance.Grammar.Clause
import Parlance.Grammar.Condition
import Parlance.Grammar.Filler
import Parlance.Grammar.Time
import Parlance.Grammar.Verb
import Parlance.Inflection
import Parlance.Intent
import Parlance.Intent.Json
import Parlance.Intent.Render
import Parlance.Interpretation
import Parlance.Interpretation.Clause
import Parlance.Interpretation.Condition
import Parlance.Interpretation.Json
import Parlance.Interpretation.Table
import Parlance.Interpretation.Values
import Parlance.Interpretation.Window
import Parlance.Interpretation.Workspace
import Parlance.Json
import Parlance.Json.Decode
import Parlance.Json.Layout
import Parlance.Json.Number
import Parlance.Json.Printer
import Parlance.Json.Reader
import Parlance.Main
import Parlance.Number.Decimal
import Parlance.Number.Fixed
import Parlance.Number.Hexadecimal
import Parlance.Number.Integer
import Parlance.Number.Shortest
import Parlance.Number.Significant
import Parlance.Operation
import Parlance.Pattern
import Parlance.Pipeline
import Parlance.Pipeline.Json
import Parlance.Proofs.Config.Offline
import Parlance.Proofs.Engine.Rows
import Parlance.Proofs.Filter.Chains
import Parlance.Proofs.Filter.Faithful
import Parlance.Proofs.Filter.Meaning
import Parlance.Proofs.Filter.Reading
import Parlance.Proofs.Filter.Reparsed
import Parlance.Proofs.Filter.Tokens
import Parlance.Proofs.Filter.Wildcards
import Parlance.Proofs.Grammar.Inflection
import Parlance.Proofs.Grammar.Keys
import Parlance.Proofs.Grammar.Lowered
import Parlance.Proofs.Grammar.NameWord
import Parlance.Proofs.Guarded.Basic
import Parlance.Proofs.Guarded.Chain
import Parlance.Proofs.Guarded.Clause
import Parlance.Proofs.Guarded.Interpret
import Parlance.Proofs.Guarded.Table
import Parlance.Proofs.Intent.Each
import Parlance.Proofs.Intent.Lowered
import Parlance.Proofs.Intent.RoundTrip
import Parlance.Proofs.Interpretation.Caseless
import Parlance.Proofs.Interpretation.Catalog
import Parlance.Proofs.Interpretation.Cues
import Parlance.Proofs.Interpretation.Distinct
import Parlance.Proofs.Interpretation.Grounded
import Parlance.Proofs.Interpretation.Inflected
import Parlance.Proofs.Interpretation.Overrides
import Parlance.Proofs.Interpretation.Refusal
import Parlance.Proofs.Interpretation.Remains
import Parlance.Proofs.Interpretation.Resolution
import Parlance.Proofs.Interpretation.Source
import Parlance.Proofs.Interpretation.Unfiltered
import Parlance.Proofs.Interpretation.Window
import Parlance.Proofs.Pattern.Capture
import Parlance.Proofs.Pattern.Language
import Parlance.Proofs.Pattern.Place
import Parlance.Proofs.Pattern.Search
import Parlance.Proofs.Pattern.WholeWord
import Parlance.Proofs.Pipeline.Gate
import Parlance.Proofs.Pipeline.Run
import Parlance.Proofs.Schema.Concurrent
import Parlance.Proofs.Schema.Expiring
import Parlance.Proofs.Schema.Pushed
import Parlance.Proofs.Schema.Slots
import Parlance.Proofs.Schema.Transparent
import Parlance.Proofs.Sentence.Quoted
import Parlance.Proofs.Sentence.Read
import Parlance.Proofs.Sentence.Write
import Parlance.Proofs.Statement.Dispatch
import Parlance.Proofs.Statement.Escapes
import Parlance.Proofs.Statement.Fragment
import Parlance.Proofs.Statement.Rendering
import Parlance.Proofs.Statement.Template
import Parlance.Proofs.Validation.Agreement
import Parlance.Proofs.Validation.Confinement
import Parlance.Proofs.Validation.Covered
import Parlance.Proofs.Validation.Masking
import Parlance.Proofs.Validation.Settings
import Parlance.Proofs.Validation.Stacked
import Parlance.Proofs.Validation.Tables
import Parlance.Schema
import Parlance.Schema.Cache
import Parlance.Schema.Json
import Parlance.Server.Engine
import Parlance.Server.Link
import Parlance.Server.Mysql
import Parlance.Server.Postgres
import Parlance.Server.Url
import Parlance.Similarity
import Parlance.Sqlite.Engine
import Parlance.Sqlite.Execution
import Parlance.Sqlite.Fault
import Parlance.Sqlite.Function
import Parlance.Sqlite.Journal
import Parlance.Sqlite.Parser
import Parlance.Sqlite.Query
import Parlance.Sqlite.Statement
import Parlance.Sqlite.Table
import Parlance.Sqlite.Term
import Parlance.Sqlite.Token
import Parlance.Sqlite.Value
import Parlance.Surroundings
import Parlance.Text.Basic
import Parlance.Text.Blank
import Parlance.Text.Case
import Parlance.Text.Cased
import Parlance.Text.Digit
import Parlance.Text.Range
import Parlance.Text.Utf8
import Parlance.Text.Word
import Parlance.Validation
