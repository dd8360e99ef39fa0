import DocStore.Dialect.Basic
import DocStore.Dialect.Operator
import DocStore.Dialect.Schema
import DocStore.Digest.Md5
import DocStore.Document.Collection
import DocStore.Document.ObjectId
import DocStore.Document.Projection
import DocStore.Document.Relations
import DocStore.Document.Stored
import DocStore.Engine.Basic
import DocStore.Engine.Refusal
import DocStore.Engine.Version
import DocStore.Fault.Basic
import DocStore.Fault.Detail
import DocStore.Fault.Misuse
import DocStore.Fault.Report
import DocStore.Filter.Basic
import DocStore.Filter.Compile
import DocStore.Filter.Condition
import DocStore.Filter.Fault
import DocStore.Filter.Operator
import DocStore.Journal.Basic
import DocStore.Journal.Context
import DocStore.Journal.Level
import DocStore.Journal.Record
import DocStore.Journal.Timestamp
import DocStore.Json.Decode
import DocStore.Json.Encode
import DocStore.Number.Basic
import DocStore.Number.Binary64
import DocStore.Number.Shortest
import DocStore.Options.Connection
import DocStore.Options.Field
import DocStore.Options.Find
import DocStore.Options.Issue
import DocStore.Options.Numeral
import DocStore.Path.Basic
import DocStore.Path.Json
import DocStore.Path.TextArray
import DocStore.Pattern.Delimited
import DocStore.Pattern.Grammar
import DocStore.Pattern.Letter
import DocStore.Pattern.Match
import DocStore.Proofs.Dialect.Accord
import DocStore.Proofs.Dialect.Constant
import DocStore.Proofs.Dialect.Consults
import DocStore.Proofs.Dialect.Literal
import DocStore.Proofs.Dialect.Objects
import DocStore.Proofs.Dialect.Operator
import DocStore.Proofs.Dialect.Origin
import DocStore.Proofs.Dialect.Search
import DocStore.Proofs.Document.AtOnce
import DocStore.Proofs.Document.Identifier
import DocStore.Proofs.Document.ObjectId
import DocStore.Proofs.Document.Projection
import DocStore.Proofs.Document.Relations
import DocStore.Proofs.Engine.Version
import DocStore.Proofs.Journal.Context
import DocStore.Proofs.Journal.Kept
import DocStore.Proofs.Filter.Accord
import DocStore.Proofs.Filter.Alike
import DocStore.Proofs.Filter.Asks
import DocStore.Proofs.Filter.Clause
import DocStore.Proofs.Filter.Compile
import DocStore.Proofs.Filter.Condition
import DocStore.Proofs.Filter.Encodable
import DocStore.Proofs.Filter.Key
import DocStore.Proofs.Filter.Meaning
import DocStore.Proofs.Filter.Member
import DocStore.Proofs.Filter.Membership
import DocStore.Proofs.Filter.Monotone
import DocStore.Proofs.Filter.Numeral
import DocStore.Proofs.Filter.Reading
import DocStore.Proofs.Filter.Refusal
import DocStore.Proofs.Filter.Satisfaction
import DocStore.Proofs.Json.Decoded
import DocStore.Proofs.Json.Float
import DocStore.Proofs.Json.Numeral
import DocStore.Proofs.Json.Plain
import DocStore.Proofs.Json.Quoted
import DocStore.Proofs.Json.Reading
import DocStore.Proofs.Json.Reread
import DocStore.Proofs.Json.RoundTrip
import DocStore.Proofs.Json.Start
import DocStore.Proofs.Json.Surrogate
import DocStore.Proofs.Json.Writable
import DocStore.Proofs.Number.Decimal
import DocStore.Proofs.Number.Literal
import DocStore.Proofs.Number.Nearest
import DocStore.Proofs.Number.Numeral
import DocStore.Proofs.Number.Shortest
import DocStore.Proofs.Outcome
import DocStore.Proofs.Path.Apart
import DocStore.Proofs.Path.Reading
import DocStore.Proofs.Pattern.Delimited
import DocStore.Proofs.Session.Apart
import DocStore.Proofs.Session.Candid
import DocStore.Proofs.Session.Compose
import DocStore.Proofs.Session.Cursor
import DocStore.Proofs.Session.Deed
import DocStore.Proofs.Session.Failures
import DocStore.Proofs.Session.Hands
import DocStore.Proofs.Session.Log
import DocStore.Proofs.Session.Registry
import DocStore.Proofs.Session.Rejection
import DocStore.Proofs.Session.Relate
import DocStore.Proofs.Session.Step
import DocStore.Proofs.Session.Stream
import DocStore.Proofs.Session.Tables
import DocStore.Proofs.Settings.Coercion
import DocStore.Proofs.Settings.Connection
import DocStore.Proofs.Settings.Environment
import DocStore.Proofs.Settings.Layers
import DocStore.Proofs.Settings.Merge
import DocStore.Proofs.Settings.Scalar
import DocStore.Proofs.Sql.Comparison
import DocStore.Proofs.Sql.Form
import DocStore.Proofs.Sql.Formula
import DocStore.Proofs.Sql.Like
import DocStore.Proofs.Sql.Objects
import DocStore.Proofs.Sql.Outline
import DocStore.Proofs.Sql.Quoted
import DocStore.Proofs.Sql.Token
import DocStore.Proofs.Sql.Twins
import DocStore.Proofs.Store.Address
import DocStore.Proofs.Store.Apart
import DocStore.Proofs.Store.Candid
import DocStore.Proofs.Store.CandidVerb
import DocStore.Proofs.Store.Compose
import DocStore.Proofs.Store.Course
import DocStore.Proofs.Store.Deletion
import DocStore.Proofs.Store.Drain
import DocStore.Proofs.Store.Insert
import DocStore.Proofs.Store.Insertion
import DocStore.Proofs.Store.Keeps
import DocStore.Proofs.Store.Kept
import DocStore.Proofs.Store.Library
import DocStore.Proofs.Store.Lifecycle
import DocStore.Proofs.Store.Lookup
import DocStore.Proofs.Store.Merge
import DocStore.Proofs.Store.Objects
import DocStore.Proofs.Store.Once
import DocStore.Proofs.Store.Page
import DocStore.Proofs.Store.PageClause
import DocStore.Proofs.Store.Query
import DocStore.Proofs.Store.Registry
import DocStore.Proofs.Store.Removal
import DocStore.Proofs.Store.Resave
import DocStore.Proofs.Store.Run
import DocStore.Proofs.Store.Save
import DocStore.Proofs.Store.Search
import DocStore.Proofs.Store.Statement
import DocStore.Proofs.Store.Step
import DocStore.Proofs.Store.Surface
import DocStore.Proofs.Store.Table
import DocStore.Proofs.Store.Tending
import DocStore.Proofs.Store.Verb
import DocStore.Proofs.Store.Within
import DocStore.Proofs.Store.Writing
import DocStore.Proofs.Text.Encodable
import DocStore.Proofs.Text.Hex
import DocStore.Proofs.Text.Search
import DocStore.Proofs.Value.Alike
import DocStore.Proofs.Value.Members
import DocStore.Proofs.Value.Path
import DocStore.Session.Basic
import DocStore.Session.Request
import DocStore.Settings.Connection
import DocStore.Settings.Dotenv
import DocStore.Settings.Environment
import DocStore.Settings.Layers
import DocStore.Settings.Scalar
import DocStore.Sql.Identifier
import DocStore.Sql.Like
import DocStore.Sql.Piece
import DocStore.Sql.Quoting
import DocStore.Store.Basic
import DocStore.Store.Collection
import DocStore.Store.Connection
import DocStore.Store.Documents
import DocStore.Store.Statement
import DocStore.Store.Verb
import DocStore.Store.Write
import DocStore.Text.Alphanumeric
import DocStore.Text.Basic
import DocStore.Text.Blank
import DocStore.Text.Case
import DocStore.Text.CodePoint
import DocStore.Text.Digit
import DocStore.Text.Integer
import DocStore.Text.Printable
import DocStore.Text.Quoted
import DocStore.Text.Utf8
import DocStore.Value.Basic
import DocStore.Value.Compare
import DocStore.Value.Display
import DocStore.Value.Integer
import DocStore.Value.Mapping
import DocStore.Value.Test
