import OData.Association.Plan
import OData.Association.State
import OData.Body.Answer
import OData.Body.Decode
import OData.Body.Encode
import OData.Body.Link
import OData.Client.Credentials
import OData.Client.Directory
import OData.Client.Log
import OData.Client.Run
import OData.Client.Session
import OData.Command.Arguments
import OData.Command.Outcome
import OData.Command.Sources
import OData.Fault
import OData.Filter.Clause
import OData.Filter.Expression
import OData.Filter.File
import OData.Http.Headers
import OData.Http.Message
import OData.Json.Basic
import OData.Json.Decode
import OData.Json.Diagnosis
import OData.Json.Document
import OData.Json.Malformation
import OData.Json.Print
import OData.Json.Token
import OData.Main
import OData.Number.Notation
import OData.Number.Numeral
import OData.Number.Shortest
import OData.Proofs.Association.Address
import OData.Proofs.Association.Conduct
import OData.Proofs.Association.Difference
import OData.Proofs.Association.Effect
import OData.Proofs.Association.Listing
import OData.Proofs.Association.Progress
import OData.Proofs.Association.Root
import OData.Proofs.Body.CompositeKey
import OData.Proofs.Body.Conformance
import OData.Proofs.Body.Created
import OData.Proofs.Body.Link
import OData.Proofs.Body.LinkLaw
import OData.Proofs.Body.Linking
import OData.Proofs.Body.PrimaryKeys
import OData.Proofs.Body.Reading
import OData.Proofs.Body.RoundTrip
import OData.Proofs.Body.WorkingCopy
import OData.Proofs.Body.Writing
import OData.Proofs.Client.Call
import OData.Proofs.Client.Course
import OData.Proofs.Client.Directory
import OData.Proofs.Client.Ensures
import OData.Proofs.Client.Headers
import OData.Proofs.Client.Preparation
import OData.Proofs.Client.Secrecy
import OData.Proofs.Client.Sequence
import OData.Proofs.Client.Story
import OData.Proofs.Client.Timely
import OData.Proofs.Filter.Containment
import OData.Proofs.Filter.File
import OData.Proofs.Filter.Grammar
import OData.Proofs.Filter.Groups
import OData.Proofs.Filter.Integers
import OData.Proofs.Filter.Meaning
import OData.Proofs.Filter.Negation
import OData.Proofs.Filter.Operands
import OData.Proofs.Filter.Pieces
import OData.Proofs.Filter.ReadBack
import OData.Proofs.Filter.Route
import OData.Proofs.Filter.Runs
import OData.Proofs.Filter.Symbol
import OData.Proofs.Filter.Unset
import OData.Proofs.Filter.Word
import OData.Proofs.InPlace
import OData.Proofs.Json.Integer
import OData.Proofs.Json.Parts
import OData.Proofs.Json.Spelling
import OData.Proofs.Json.Structure
import OData.Proofs.Number.Binary
import OData.Proofs.Number.Notation
import OData.Proofs.Outcome
import OData.Proofs.Query.Building
import OData.Proofs.Query.ReadBack
import OData.Proofs.Record
import OData.Proofs.Record.History
import OData.Proofs.Service.Address
import OData.Proofs.Target.Entity
import OData.Proofs.Target.Filling
import OData.Proofs.Target.Occurrence
import OData.Proofs.Target.Scan
import OData.Proofs.Target.Scope
import OData.Proofs.Target.Shape
import OData.Proofs.Time.Calendar
import OData.Proofs.Time.Timestamp
import OData.Proofs.Uuid
import OData.Query.Input
import OData.Query.Options
import OData.Record
import OData.Schema.Basic
import OData.Schema.Form
import OData.Service.Address
import OData.Service.Catalogue
import OData.Service.Definition
import OData.Service.Endpoint
import OData.Service.Function
import OData.Service.Method
import OData.Settings
import OData.Target.Association
import OData.Target.Entity
import OData.Target.Reference
import OData.Target.Template
import OData.Text.Character
import OData.Text.Escaped
import OData.Text.Reader
import OData.Text.Search
import OData.Text.Utf8
import OData.Time.Date
import OData.Time.Instant
import OData.Time.Reader
import OData.Toml.Printer
import OData.Toml.Reader
import OData.Toml.Value
import OData.Uuid
