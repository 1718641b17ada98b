import CodeMap.Quantity
import CodeMap.Text.Quoted
import CodeMap.Decimal
import CodeMap.Json.Value
import CodeMap.Json.Fault
import CodeMap.Json.Lexeme
import CodeMap.Json.Reader
import CodeMap.Json.Writer
import CodeMap.Json.Shown
import CodeMap.Chart
import CodeMap.Mappings
import CodeMap.Lookup.Source
import CodeMap.Lookup.Generated
import CodeMap.Document
import CodeMap.Loading
import CodeMap.Message
import CodeMap.Report
import CodeMap.Journal.Tree
import CodeMap.Journal.State
import CodeMap.Journal.Activity
import CodeMap.Proofs.Quantity.Groups
import CodeMap.Proofs.Quantity.RoundTrip
import CodeMap.Proofs.Quantity.Outcome
import CodeMap.Proofs.Quantity.Canonical
import CodeMap.Proofs.Quantity.Concatenation
import CodeMap.Proofs.Mappings.Fields
import CodeMap.Proofs.Mappings.Cells
import CodeMap.Proofs.Mappings.PrefixSums
import CodeMap.Proofs.Mappings.RoundTrip
import CodeMap.Proofs.Mappings.Range
import CodeMap.Proofs.Mappings.FirstRefused
import CodeMap.Proofs.Json.LongInteger
import CodeMap.Proofs.Loading.Outcome
import CodeMap.Proofs.Lookup.Renumbering
import CodeMap.Proofs.Mappings.Concatenation
import CodeMap.Proofs.Mappings.EmptyLines
import CodeMap.Proofs.Document.Members
import CodeMap.Proofs.Loading.Validation
import CodeMap.Proofs.Json.QuotedText
import CodeMap.Proofs.Document.RoundTrip
import CodeMap.Proofs.Lookup.Found
import CodeMap.Proofs.Lookup.Entries
import CodeMap.Proofs.Lookup.Covering
import CodeMap.Proofs.Lookup.RoundTrip
import CodeMap.Proofs.Lookup.Places
import CodeMap.Proofs.Lookup.Selection
import CodeMap.Proofs.Lookup.Existence
import CodeMap.Proofs.Lookup.EarlyExit
import CodeMap.Proofs.Lookup.LineStart
import CodeMap.Proofs.Lookup.Bisection
import CodeMap.Proofs.Lookup.Agreement
import CodeMap.Proofs.Lookup.Steps
import CodeMap.Proofs.Lookup.Shift
import CodeMap.Proofs.Json.LastValue
import CodeMap.Proofs.Loading.ReadFields
import CodeMap.Proofs.Journal.Ancestry
import CodeMap.Proofs.Journal.Settings
import CodeMap.Proofs.Journal.Delivery
