import Declutter.Main
import Declutter.Proofs.Tree.Settling
import Declutter.Proofs.Tree.Shape
import Declutter.Proofs.Tree.Survival
import Declutter.Proofs.Tree.Trace
import Declutter.Proofs.Tree.Whole
import Declutter.Proofs.Tree.Rendering
import Declutter.Proofs.Tree.Balance
import Declutter.Proofs.Tree.Gaps
import Declutter.Proofs.Tree.Idle
import Declutter.Proofs.Tree.Accounting
import Declutter.Proofs.Python.Lowering
import Declutter.Proofs.Python.Parse
import Declutter.Proofs.Tree.PrunedGaps
import Declutter.Proofs.Edit.Simultaneous
import Declutter.Proofs.Refusal
import Declutter.Proofs.Mark
import Declutter.Proofs.Unchanged
import Declutter.Proofs.Run.Keeping
import Declutter.Proofs.Run.Directory
import Declutter.Proofs.Comment.Linewise
import Declutter.Proofs.Comment.Assembly
import Declutter.Proofs.Tree.SharedLine
import Declutter.Proofs.Run.Totals
import Declutter.Proofs.Tree.Resolution
import Declutter.Proofs.Target
import Declutter.Proofs.Comment.LineEndings
import Declutter.Proofs.Comment.Docstring
import Declutter.Proofs.Glob
import Declutter.Proofs.Disk.FreeName
import Declutter.Proofs.Disk.Found
import Declutter.Proofs.Command.Arguments
import Declutter.Proofs.Comment.Placement
import Declutter.Proofs.Text.Distance
