import GdScribe.Class.Documented
import GdScribe.Class.Typed
import GdScribe.ClassTable.Changes
import GdScribe.Main
import GdScribe.Project.Readme
import GdScribe.Proofs.Blocks.Choice
import GdScribe.Proofs.Blocks.Kept
import GdScribe.Proofs.Classes.Documents
import GdScribe.Proofs.Classes.Header
import GdScribe.Proofs.Expression.Arithmetic
import GdScribe.Proofs.Expression.Joined
import GdScribe.Proofs.Inheritance.Weights
import GdScribe.Proofs.Literals.Contents
import GdScribe.Proofs.Literals.Quoting
import GdScribe.Proofs.Names.Calls
import GdScribe.Proofs.Names.Lineage
import GdScribe.Proofs.Names.Locals
import GdScribe.Proofs.Names.Members
import GdScribe.Proofs.Passes
import GdScribe.Proofs.Progress.Reports
import GdScribe.Proofs.Project.OutputPaths
import GdScribe.Proofs.Target.Loops
import GdScribe.Proofs.Target.Tidied
import GdScribe.Proofs.Token.Lines
import GdScribe.Proofs.Token.Operators
