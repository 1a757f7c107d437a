import RecordFilter.Main
import RecordFilter.Parser
import RecordFilter.Proofs.Height
import RecordFilter.Proofs.RoundTrip
import RecordFilter.Proofs.Cli.Command
import RecordFilter.Proofs.Sql.Reading
import RecordFilter.Proofs.Sql.Meaning
import RecordFilter.Proofs.Sql.Agreement
import RecordFilter.Proofs.Sql.Quoting
import RecordFilter.Proofs.Sql.Rewording
import RecordFilter.Proofs.Dependence
import RecordFilter.Proofs.Sql.Parameters
import RecordFilter.Proofs.Sql.Combination
import RecordFilter.Proofs.Failures
import RecordFilter.Proofs.Levels
import RecordFilter.Proofs.Recovery
import RecordFilter.Proofs.Token.Lookahead
import RecordFilter.Proofs.Token.Patterns
import RecordFilter.Proofs.Token.Tiling
import RecordFilter.Proofs.Faults
import RecordFilter.Proofs.Mending
import RecordFilter.Proofs.Parser.Readers
import RecordFilter.Proofs.Parser.Refinement
import RecordFilter.Proofs.Parser.Calls
import RecordFilter.Proofs.Folding
import RecordFilter.Proofs.Number.Overflow
import RecordFilter.Proofs.Token.Numbers
import RecordFilter.Proofs.Parser.Prefixes
import RecordFilter.Proofs.Number.Ratio
import RecordFilter.Proofs.Number.Scaling
import RecordFilter.Proofs.Number.Faithful
import RecordFilter.Proofs.Value.Mixed
import RecordFilter.Proofs.Value.Symmetry
import RecordFilter.Proofs.Value.Coherence
import RecordFilter.Proofs.Value.Reading
import RecordFilter.Proofs.Places
import RecordFilter.Proofs.Misplaced
import RecordFilter.Proofs.Entries
import RecordFilter.Proofs.Sql.Dialects
import RecordFilter.Proofs.Sql.Numerals
import RecordFilter.Proofs.Cli.Check
import RecordFilter.Proofs.Text.Order
import RecordFilter.Proofs.Timestamp.Calendar
import RecordFilter.Proofs.Timestamp.Forms
import RecordFilter.Proofs.Timestamp.Instants
import RecordFilter.Proofs.Timestamp.Texts
import RecordFilter.Proofs.Timestamp.Normalization
import RecordFilter.Proofs.Reporting
import RecordFilter.Proofs.Value.Reflexivity
import RecordFilter.Proofs.Membership
import RecordFilter.Proofs.Value.Storage
import RecordFilter.Proofs.Value.Exchange
import RecordFilter.Proofs.Text.Lines
import RecordFilter.Proofs.Json.Compact
import RecordFilter.Proofs.Outline
