import RowHistory.Connection.Scripted
import RowHistory.Connection.Traced
import RowHistory.Main
import RowHistory.Proofs.Config.RoundTrip
import RowHistory.Proofs.Field.Canonical
import RowHistory.Proofs.Field.WholeNumbers
import RowHistory.Proofs.Instant.Ticks
import RowHistory.Proofs.Log.Lines
import RowHistory.Proofs.Session.Atomicity
import RowHistory.Proofs.Session.Closing
import RowHistory.Proofs.Session.CommitSizes
import RowHistory.Proofs.Session.Horizon
import RowHistory.Proofs.Session.Recovery
import RowHistory.Proofs.Sql.QuotedNames
import RowHistory.Proofs.Statement.Columns
import RowHistory.Proofs.Statement.Placeholders
import RowHistory.Proofs.Storage.StatementCache
import RowHistory.Proofs.Sync.UnusableLines
import RowHistory.Proofs.Versions.Accounts
import RowHistory.Proofs.Versions.Agreement
import RowHistory.Proofs.Versions.AsOf
import RowHistory.Proofs.Versions.Forced
import RowHistory.Proofs.Versions.Independence
import RowHistory.Proofs.Versions.Repeats
import RowHistory.Proofs.Versions.Steps
import RowHistory.Proofs.Versions.StoredOrder
