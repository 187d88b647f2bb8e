import ChartFeed.Cache.Basic
import ChartFeed.Cache.Key
import ChartFeed.Cache.Memo
import ChartFeed.Cache.Memory
import ChartFeed.Chart.Basic
import ChartFeed.Chart.Source
import ChartFeed.Command.Grammar
import ChartFeed.Command.Help
import ChartFeed.Command.Line
import ChartFeed.Command.Run
import ChartFeed.Configuration.Layer
import ChartFeed.Configuration.Load
import ChartFeed.Decimal.Layout
import ChartFeed.Decimal.Numeral
import ChartFeed.Decimal.Order
import ChartFeed.Decimal.Shortest
import ChartFeed.Dict
import ChartFeed.Digest.Md5
import ChartFeed.Enrichment.Batch
import ChartFeed.Enrichment.Client
import ChartFeed.Host.Basic
import ChartFeed.Host.Fault
import ChartFeed.Host.Path
import ChartFeed.Host.Variables
import ChartFeed.Json.Basic
import ChartFeed.Json.Canonical
import ChartFeed.Json.Mapping
import ChartFeed.Json.Printer
import ChartFeed.Json.Reader
import ChartFeed.Json.Shape
import ChartFeed.Json.Token
import ChartFeed.Main
import ChartFeed.MessagePack.Basic
import ChartFeed.MessagePack.Head
import ChartFeed.MessagePack.Packable
import ChartFeed.Query.Basic
import ChartFeed.Query.CacheKey
import ChartFeed.Query.Datasource
import ChartFeed.Query.Metric
import ChartFeed.Query.Normal
import ChartFeed.Query.Request
import ChartFeed.Query.Retired
import ChartFeed.Rejection
import ChartFeed.Store.Basic
import ChartFeed.Store.Database
import ChartFeed.Store.Model
import ChartFeed.Store.Repository
import ChartFeed.Store.Rows
import ChartFeed.Table.Basic
import ChartFeed.Table.Cell
import ChartFeed.Table.Grouping
import ChartFeed.Table.Stored
import ChartFeed.Text.Blank
import ChartFeed.Text.Digit
import ChartFeed.Text.Quoted
import ChartFeed.Time.Calendar
import ChartFeed.Time.Expression
import ChartFeed.Time.Instant
import ChartFeed.Time.Iso
import ChartFeed.Time.Range
import ChartFeed.Time.Span
import ChartFeed.Transform.Assignment
import ChartFeed.Transform.Contribution
import ChartFeed.Transform.Difference
import ChartFeed.Transform.Measure
import ChartFeed.Transform.Ordering
import ChartFeed.Transform.Pivot
import ChartFeed.Transform.Rolling
import ChartFeed.Transform.Running
import ChartFeed.Transform.Statistics
import ChartFeed.Transform.Step
import ChartFeed.Transform.Summary
import ChartFeed.Proofs.Chart.Transparency
import ChartFeed.Proofs.Decimal.Interval
import ChartFeed.Proofs.Decimal.Unambiguous
import ChartFeed.Proofs.Json.Unambiguous
import ChartFeed.Proofs.Json.Reordering
import ChartFeed.Proofs.Json.Reading
import ChartFeed.Proofs.Table.Columns
import ChartFeed.Proofs.Table.CellOrder
import ChartFeed.Proofs.Table.Grouping
import ChartFeed.Proofs.Table.NestedGrouping
import ChartFeed.Proofs.Transform.Result
import ChartFeed.Proofs.Transform.Bounds
import ChartFeed.Proofs.Transform.Safety
import ChartFeed.Proofs.Transform.Labels
import ChartFeed.Proofs.Transform.PivotRefines
import ChartFeed.Proofs.Transform.Reordering
import ChartFeed.Proofs.Query.Normalization
import ChartFeed.Proofs.Query.KeyPayload
import ChartFeed.Proofs.Query.Extras
import ChartFeed.Proofs.Transform.SingleValue
import ChartFeed.Proofs.Transform.UniformTables
import ChartFeed.Proofs.Transform.KeyOrder
import ChartFeed.Proofs.Query.KeySound
import ChartFeed.Proofs.Query.Essence
import ChartFeed.Proofs.Query.KeyStable
import ChartFeed.Proofs.Query.Modern
import ChartFeed.Proofs.Decimal.Rounding
import ChartFeed.Proofs.Decimal.Value
import ChartFeed.Proofs.Table.Transitivity
import ChartFeed.Proofs.Table.Numbers
import ChartFeed.Proofs.Transform.Sorting
import ChartFeed.Proofs.Transform.NumberOrder
import ChartFeed.Proofs.Time.Calendar
import ChartFeed.Proofs.Time.Shift
import ChartFeed.Proofs.Time.Reading
import ChartFeed.Proofs.Query.Millis
import ChartFeed.Proofs.Store.Rows
import ChartFeed.Proofs.Store.Keys
import ChartFeed.Proofs.Store.Calls
import ChartFeed.Proofs.Store.Session
import ChartFeed.Proofs.Store.Atomicity
import ChartFeed.Proofs.Store.Fields
import ChartFeed.Proofs.Store.Numbering
import ChartFeed.Proofs.Store.TwoClients
import ChartFeed.Proofs.Store.Committed
import ChartFeed.Proofs.Store.Deferred
import ChartFeed.Proofs.Json.Canonical
import ChartFeed.Proofs.Decimal.Overflow
import ChartFeed.Proofs.Transform.Finite
import ChartFeed.Proofs.Transform.Overflow
import ChartFeed.Proofs.Cache.Memoization
import ChartFeed.Proofs.Enrichment.Accounting
import ChartFeed.Proofs.Json.Restoring
import ChartFeed.Proofs.Query.RoundTrip
import ChartFeed.Proofs.Text.Digit
import ChartFeed.Proofs.Text.Words
import ChartFeed.Proofs.Json.Scanning
import ChartFeed.Proofs.Json.RoundTrip
import ChartFeed.Proofs.Time.RoundTrip
import ChartFeed.Proofs.Time.Spelling
import ChartFeed.Proofs.Time.Backward
import ChartFeed.Proofs.Time.Shorthand
import ChartFeed.Proofs.Time.Characters
import ChartFeed.Proofs.Time.Padding
import ChartFeed.Proofs.Time.LetterCase
import ChartFeed.Proofs.Time.Resolution
import ChartFeed.Proofs.Table.Records
import ChartFeed.Proofs.Table.RoundTrip
import ChartFeed.Proofs.Decimal.Quotient
import ChartFeed.Proofs.Enrichment.Completion
import ChartFeed.Proofs.Table.Gathering
import ChartFeed.Proofs.Table.Partition
import ChartFeed.Proofs.Transform.Counts
import ChartFeed.Proofs.Transform.StableSort
import ChartFeed.Proofs.Transform.Assignments
import ChartFeed.Proofs.Transform.Windows
import ChartFeed.Proofs.Transform.PivotPasses
import ChartFeed.Proofs.Transform.FlatPivot
import ChartFeed.Proofs.Transform.FullWindows
import ChartFeed.Proofs.Transform.RunningSums
import ChartFeed.Proofs.Transform.Differences
import ChartFeed.Proofs.Transform.RowOrder
import ChartFeed.Proofs.Transform.Shares
import ChartFeed.Proofs.Listing
import ChartFeed.Proofs.Table.Rendering
import ChartFeed.Proofs.Chart.Pages
import ChartFeed.Proofs.Query.DuplicateLabels
import ChartFeed.Proofs.Store.Bags
import ChartFeed.Proofs.Configuration.Layering
import ChartFeed.Proofs.Cache.Keyspaces
import ChartFeed.Proofs.Json.Mapping
