import MessageMarkup.Main
import MessageMarkup.Text.Letter
import MessageMarkup.Pattern.Program
import MessageMarkup.Pattern.Search
import MessageMarkup.Pattern.Size
import MessageMarkup.Proofs.Link.Standard
import MessageMarkup.Proofs.Occurrence
import MessageMarkup.Proofs.Link.Scanner
import MessageMarkup.Proofs.Span
import MessageMarkup.Proofs.Delimiters
import MessageMarkup.Proofs.Format.Step
import MessageMarkup.Proofs.Format.Layout
import MessageMarkup.Proofs.Format.Legible
import MessageMarkup.Proofs.Format.Reading
import MessageMarkup.Proofs.Format.Insertion
import MessageMarkup.Proofs.Format.Writing
import MessageMarkup.Proofs.Entity.Trim
import MessageMarkup.Proofs.Format.Flat
import MessageMarkup.Proofs.Format.Segment
import MessageMarkup.Proofs.Format.Tidy
import MessageMarkup.Proofs.Format.RoundTrip
import MessageMarkup.Proofs.Format.Nested
import MessageMarkup.Proofs.Format.Found
import MessageMarkup.Proofs.Format.Reread
import MessageMarkup.Proofs.Pattern.Capture
import MessageMarkup.Proofs.Link.Standing
import MessageMarkup.Proofs.Utf16.WellFormed
import MessageMarkup.Proofs.Entity.Shorten
import MessageMarkup.Proofs.Format.Reachable
import MessageMarkup.Proofs.Format.Shape
import MessageMarkup.Proofs.Format.Trace
import MessageMarkup.Proofs.Format.Confined
import MessageMarkup.Proofs.Format.Boundary
import MessageMarkup.Proofs.Format.Intact
import MessageMarkup.Proofs.Entity.Covered
import MessageMarkup.Proofs.Format.Verbatim
import MessageMarkup.Proofs.Format.Exact
import MessageMarkup.Proofs.Pattern.Fresh
import MessageMarkup.Proofs.Link.Current
import MessageMarkup.Proofs.Pattern.Shift
import MessageMarkup.Proofs.Format.Afresh
import MessageMarkup.Proofs.Delimiters.History
import MessageMarkup.Proofs.Format.TableOrder
import MessageMarkup.Proofs.Format.Surroundings
import MessageMarkup.Proofs.Json.Layout
import MessageMarkup.Proofs.Document.Reading
import MessageMarkup.Proofs.Document.RoundTrip
import MessageMarkup.Proofs.Format.Merge
import MessageMarkup.Proofs.Disk
import MessageMarkup.Proofs.Program
import MessageMarkup.Proofs.CommandLine
import MessageMarkup.Proofs.Settings
import MessageMarkup.Proofs.Program.PlainText
import MessageMarkup.Proofs.Entity.Interval
import MessageMarkup.Proofs.Format.Disjoint
import MessageMarkup.Proofs.Format.Origin
import MessageMarkup.Proofs.Format.PastEnd
import MessageMarkup.Proofs.Format.Duration
import MessageMarkup.Proofs.Link.Grammar
import MessageMarkup.Proofs.Link.Tables
import MessageMarkup.Proofs.Format.Buffer
import MessageMarkup.Proofs.Json.Decoding
import MessageMarkup.Proofs.Json.Skipping
import MessageMarkup.Proofs.Json.Members
import MessageMarkup.Proofs.Json.RoundTrip
import MessageMarkup.Proofs.Document.Decoding
import MessageMarkup.Proofs.Document.ByName
import MessageMarkup.Proofs.Utf16.Lone
import MessageMarkup.Proofs.Utf16.Start
import MessageMarkup.Proofs.Utf16.Search
