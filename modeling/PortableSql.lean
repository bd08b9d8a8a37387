import PortableSql.Dialect.Document
import PortableSql.Statement
import PortableSql.Proofs.Template.Basic
import PortableSql.Proofs.Template.Tree
import PortableSql.Proofs.Template.Statement
import PortableSql.Proofs.Numbering
import PortableSql.Proofs.Layout
import PortableSql.Proofs.Compilation
import PortableSql.Proofs.Noninterference
import PortableSql.Proofs.StringLiteral
import PortableSql.Proofs.Completeness
import PortableSql.Proofs.Labels
import PortableSql.Proofs.Separation
import PortableSql.Proofs.Union.Chain
import PortableSql.Proofs.Union.Grouping
import PortableSql.Proofs.Building
import PortableSql.Proofs.Pairing
import PortableSql.Proofs.CallOrder
import PortableSql.Proofs.Operators
import PortableSql.Proofs.QuotedName
import PortableSql.Proofs.Requoting
import PortableSql.Proofs.Fields.Pieces
import PortableSql.Proofs.Fields.Cuts
import PortableSql.Proofs.Fields.Entries
import PortableSql.Proofs.Document.Spelling
import PortableSql.Proofs.OuterDialect
import PortableSql.Proofs.Document.Dialect
import PortableSql.Proofs.Alias.Checks
import PortableSql.Proofs.Document.Grammar
import PortableSql.Proofs.Document.Partial
import PortableSql.Proofs.Fields.Lists
import PortableSql.Proofs.Exclusions
import PortableSql.Proofs.Seams
import PortableSql.Proofs.EmbeddedLiteral
import PortableSql.Proofs.BareWords
import PortableSql.Proofs.DistinctLiterals
import PortableSql.Proofs.AddedFilter
import PortableSql.Proofs.Precedence.Conditions
