import Sqlwright.Assignment
import Sqlwright.Calendar
import Sqlwright.Condition
import Sqlwright.Condition.Predicate
import Sqlwright.Condition.Reading
import Sqlwright.Document
import Sqlwright.Document.Compact
import Sqlwright.Document.Reader
import Sqlwright.Execution
import Sqlwright.Execution.Logging
import Sqlwright.Fault
import Sqlwright.Fragment
import Sqlwright.Insertion
import Sqlwright.Keyed
import Sqlwright.Literal
import Sqlwright.Name
import Sqlwright.Number.Binary
import Sqlwright.Number.Decimal
import Sqlwright.Number.Layout
import Sqlwright.Number.Shortest
import Sqlwright.Placeholder
import Sqlwright.Query
import Sqlwright.Query.Stage
import Sqlwright.Query.Step
import Sqlwright.Registry
import Sqlwright.SelectList
import Sqlwright.Stamp
import Sqlwright.Statement
import Sqlwright.Table
import Sqlwright.Table.Config
import Sqlwright.Table.Directory
import Sqlwright.Table.Shape
import Sqlwright.Text.Blank
import Sqlwright.Text.Display
import Sqlwright.Text.Hidden
import Sqlwright.Toml
import Sqlwright.Toml.Quoted
import Sqlwright.Toml.Reader
import Sqlwright.Toml.Scalar
import Sqlwright.Toml.Table
import Sqlwright.Value
import Sqlwright.Proofs.Formula
import Sqlwright.Proofs.Parse
import Sqlwright.Proofs.Rendering
import Sqlwright.Proofs.Meaning
import Sqlwright.Proofs.Precedence
import Sqlwright.Proofs.Balance
import Sqlwright.Proofs.Parity
import Sqlwright.Proofs.Appending
import Sqlwright.Proofs.Guard
import Sqlwright.Proofs.Finding
import Sqlwright.Proofs.Paging
import Sqlwright.Proofs.Change
import Sqlwright.Proofs.Addressing
import Sqlwright.Proofs.Tidy
import Sqlwright.Proofs.Confinement
import Sqlwright.Proofs.Lexeme
import Sqlwright.Proofs.Inlining
import Sqlwright.Proofs.Alike
import Sqlwright.Proofs.Payload
import Sqlwright.Proofs.Independence
import Sqlwright.Proofs.Distinct
import Sqlwright.Proofs.Grammar
import Sqlwright.Proofs.Layers
import Sqlwright.Proofs.Routing
import Sqlwright.Proofs.SetList
import Sqlwright.Proofs.ColumnWrite
import Sqlwright.Proofs.Alignment
import Sqlwright.Proofs.TableText
import Sqlwright.Proofs.Decoding
import Sqlwright.Proofs.Encoding
import Sqlwright.Proofs.Label
import Sqlwright.Proofs.Requirement
import Sqlwright.Proofs.Wildcard
import Sqlwright.Proofs.Truncation
import Sqlwright.Proofs.Substitution
import Sqlwright.Proofs.Copies
import Sqlwright.Proofs.KnownColumns
