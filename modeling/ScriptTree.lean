import ScriptTree.Event
import ScriptTree.Proofs.Clause
import ScriptTree.Tree.Outline
import ScriptTree.Tree.Wire
import ScriptTree.Proofs.Derivation
import ScriptTree.Proofs.DerivationRun
import ScriptTree.Proofs.DerivationAnswer
import ScriptTree.Proofs.Shape
import ScriptTree.Proofs.Lexeme
import ScriptTree.Proofs.Scan
import ScriptTree.Proofs.Relabeling
import ScriptTree.Proofs.Rendering
import ScriptTree.Proofs.RenderingRead
import ScriptTree.Proofs.Extent
import ScriptTree.Proofs.Run
import ScriptTree.Proofs.Reparse
import ScriptTree.Proofs.Sign
import ScriptTree.Proofs.Nesting
import ScriptTree.Proofs.Progress
import ScriptTree.Proofs.Recursion
import ScriptTree.Proofs.Faithful
import ScriptTree.Proofs.Carrying
import ScriptTree.Proofs.Thinning
import ScriptTree.Proofs.Twin
import ScriptTree.Proofs.Semicolon
import ScriptTree.Proofs.Concatenation
import ScriptTree.Proofs.Resumption
import ScriptTree.Proofs.Steady
import ScriptTree.Proofs.SteadyList
import ScriptTree.Proofs.Viable
import ScriptTree.Proofs.Lookahead
import ScriptTree.Proofs.Report
import ScriptTree.Proofs.Separation
import ScriptTree.Proofs.Bracket
import ScriptTree.Proofs.KindsAlone
import ScriptTree.Proofs.Bytes
import ScriptTree.Proofs.SecondPoint
import ScriptTree.Proofs.Coverage
import ScriptTree.Proofs.WireForm
import ScriptTree.Proofs.ClauseKinds
import ScriptTree.Proofs.Joining
import ScriptTree.Proofs.Star
import ScriptTree.Proofs.Terminator
import ScriptTree.Proofs.Context
import ScriptTree.Proofs.Grouping
import ScriptTree.Proofs.Advance
import ScriptTree.Proofs.Consumption
