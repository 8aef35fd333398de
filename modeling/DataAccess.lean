import DataAccess.Config.Reader
import DataAccess.Database.Connection
import DataAccess.Database.Sample
import DataAccess.Json.Reader
import DataAccess.Page
import DataAccess.Proofs.Session.AllOrNothing
import DataAccess.Proofs.Session.Borrowing
import DataAccess.Proofs.Session.EachSource
import DataAccess.Proofs.Session.Hygiene
import DataAccess.Proofs.Session.Journal
import DataAccess.Proofs.Sql.ClauseBinding
import DataAccess.Proofs.Sql.HoleBinding
import DataAccess.Record.Kind
import DataAccess.Session.World
import DataAccess.Sql.Statement
import DataAccess.Sql.Template
import DataAccess.Proofs.Session.Ending
import DataAccess.Proofs.Session.Isolation
import DataAccess.Proofs.Database.Journal
import DataAccess.Proofs.Sql.Grammar
import DataAccess.Proofs.Sql.Lexing
import DataAccess.Proofs.Sql.Meaning
import DataAccess.Proofs.Sql.Lexeme
import DataAccess.Proofs.Sql.Substitution
import DataAccess.Proofs.Sql.Acceptance
import DataAccess.Proofs.Session.Refusal
import DataAccess.Proofs.Session.Paging
import DataAccess.Proofs.Session.Footprint
import DataAccess.Proofs.Sql.Blindness
import DataAccess.Proofs.Session.Filtering
import DataAccess.Proofs.Registration
import DataAccess.Proofs.Record.RoundTrip
import DataAccess.Proofs.Session.UnitOfWork
import DataAccess.Proofs.Sql.Rebinding
import DataAccess.Proofs.Sql.SpelledOut
import DataAccess.Proofs.Opening
import DataAccess.Proofs.PagePartition
import DataAccess.Proofs.Record.WriteBack
import DataAccess.Proofs.SourceMap
