import SqlSelect.Config
import SqlSelect.Declaration.Definition
import SqlSelect.Sqlite.Session
import SqlSelect.Proofs.Prepared.Mention
import SqlSelect.Proofs.Prepared.Alignment
import SqlSelect.Proofs.Prepared.Reach
import SqlSelect.Proofs.Prepared.Hoisting
import SqlSelect.Proofs.Closure.Binding
import SqlSelect.Proofs.Closure.Invariant
import SqlSelect.Proofs.Closure.Part
import SqlSelect.Proofs.Building.Change
import SqlSelect.Proofs.Building.Assembly
import SqlSelect.Proofs.Grammar.Grammar
import SqlSelect.Proofs.Grammar.Reader
import SqlSelect.Proofs.Grammar.Unambiguous
import SqlSelect.Proofs.Grammar.RoundTrip
import SqlSelect.Proofs.Prepared.Workshop
import SqlSelect.Proofs.Building.WellFormed
import SqlSelect.Proofs.Building.FirstError
import SqlSelect.Proofs.Prepared.Fault
import SqlSelect.Proofs.Prepared.Refusal
import SqlSelect.Proofs.Naming.Denotation
import SqlSelect.Proofs.Rows.DefaultRows
import SqlSelect.Proofs.Rows.Terminals
import SqlSelect.Proofs.Grammar.Superfluous
import SqlSelect.Proofs.Grammar.Negation
import SqlSelect.Proofs.Closure.Resolution
import SqlSelect.Proofs.Closure.Narrowing
import SqlSelect.Proofs.Closure.Columns
import SqlSelect.Proofs.Closure.ColumnOrder
import SqlSelect.Proofs.Building.Leftmost
import SqlSelect.Proofs.Building.Incremental
import SqlSelect.Proofs.Building.JoinCondition
import SqlSelect.Proofs.Building.Tail
import SqlSelect.Proofs.Building.Twin
import SqlSelect.Proofs.Building.Union
import SqlSelect.Proofs.Prepared.Erasure
import SqlSelect.Proofs.Prepared.Outermost
import SqlSelect.Proofs.Spelling.Backslash
import SqlSelect.Proofs.Spelling.Comment
import SqlSelect.Declaration.Expansion
import SqlSelect.Proofs.Rows.Decoding
import SqlSelect.Proofs.Spelling.Page
import SqlSelect.Proofs.Building.Pagination
import SqlSelect.Proofs.Declaring.Options
import SqlSelect.Proofs.Declaring.Catalog
import SqlSelect.Proofs.Declaring.ColumnTypes
import SqlSelect.Proofs.Declaring.TableNames
import SqlSelect.Proofs.Rows.Conversion
import SqlSelect.Proofs.Rows.Insertion
