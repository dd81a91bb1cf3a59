import LuaTree.Main
import LuaTree.Proofs.Cli.Agreement
import LuaTree.Proofs.Cli.Parsing
import LuaTree.Proofs.Cli.Transcript
import LuaTree.Proofs.Convert.Accounting
import LuaTree.Proofs.Convert.Again
import LuaTree.Proofs.Convert.Ancestry
import LuaTree.Proofs.Convert.Interleaving
import LuaTree.Proofs.Convert.Invocation
import LuaTree.Proofs.Convert.Isolation
import LuaTree.Proofs.Convert.Mirror
import LuaTree.Proofs.Convert.Moments
import LuaTree.Proofs.Convert.Starting
import LuaTree.Proofs.Plan.Feedback
import LuaTree.Proofs.Plan.Relative
import LuaTree.Proofs.Plan.Sibling
import LuaTree.Proofs.Plan.Warnings
