import ScriptFrontend.Main
import ScriptFrontend.Proofs.Writing.RoundTrip
import ScriptFrontend.Proofs.Syntax.FirstFault
import ScriptFrontend.Proofs.Syntax.Joining
import ScriptFrontend.Proofs.Syntax.Ordering
import ScriptFrontend.Proofs.Syntax.Overrun
import ScriptFrontend.Proofs.Syntax.Provenance
import ScriptFrontend.Proofs.Syntax.Quoting
import ScriptFrontend.Tree.Equality
import ScriptFrontend.Proofs.Lexical.Insertion
import ScriptFrontend.Proofs.Syntax.Reformatting
import ScriptFrontend.Proofs.Decimal.Unsigned
import ScriptFrontend.Proofs.Tree.WellFormed
import ScriptFrontend.Proofs.Syntax.Formation
import ScriptFrontend.Proofs.Decimal.Written
import ScriptFrontend.Proofs.Tree.Branches
import ScriptFrontend.Proofs.Tree.OutlineLines
import ScriptFrontend.Proofs.Explorer.Runs
import ScriptFrontend.Proofs.Explorer.Scrolling
import ScriptFrontend.Proofs.Lexical.Resuming
import ScriptFrontend.Proofs.Explorer.Highlighting
import ScriptFrontend.Proofs.Explorer.SourceRows
import ScriptFrontend.Proofs.Explorer.Colouring
import ScriptFrontend.Proofs.Explorer.ColouredLines
import ScriptFrontend.Proofs.Decimal.Intervals
import ScriptFrontend.Proofs.Decimal.Distinct
import ScriptFrontend.Proofs.Tree.Headings
import ScriptFrontend.Proofs.Tree.Legible
import ScriptFrontend.Proofs.Tree.Counting
import ScriptFrontend.Proofs.Explorer.TreeRows
import ScriptFrontend.Proofs.Command.Arguments
import ScriptFrontend.Proofs.Command.Typing
import ScriptFrontend.Proofs.Command.Status
