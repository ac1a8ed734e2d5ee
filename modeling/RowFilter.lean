import RowFilter.Compile.Direct
import RowFilter.Main
import RowFilter.Tree.Fold
import RowFilter.Value.Tagged
import RowFilter.Expr.Text
import RowFilter.Json.Remark
import RowFilter.Proofs.Compile.Agreement
import RowFilter.Proofs.Compile.Failures
import RowFilter.Proofs.Context.Paths
import RowFilter.Proofs.Compile.Reading
import RowFilter.Proofs.Compile.Constants
import RowFilter.Proofs.Tree.Evaluation
import RowFilter.Proofs.Tree.Links
import RowFilter.Proofs.Sql.Rewriting
import RowFilter.Proofs.Compile.Dialects
import RowFilter.Proofs.Compile.Composition
import RowFilter.Proofs.Tree.Annotations
import RowFilter.Proofs.Compile.Columns
import RowFilter.Proofs.Tree.Table
import RowFilter.Proofs.Command.Outcome
import RowFilter.Proofs.Compile.Mentions
import RowFilter.Proofs.Expr.Document
import RowFilter.Proofs.Command.Parameters
import RowFilter.Proofs.Value.Tagged
import RowFilter.Proofs.Tree.Walks
import RowFilter.Proofs.Value.DocumentText
import RowFilter.Proofs.Compile.Taking
import RowFilter.Proofs.Schema.Reading
