import Reckoner.Calculation
import Reckoner.Expr.Layout
import Reckoner.Number.Rounding
import Reckoner.Number.ReadBack
import Reckoner.Window.Operation
import Reckoner.Proofs.Blocks
import Reckoner.Proofs.Shunting
import Reckoner.Proofs.Conservation
import Reckoner.Proofs.Verdict
import Reckoner.Proofs.EmissionOrder
import Reckoner.Proofs.Grammar
import Reckoner.Proofs.Nesting
import Reckoner.Proofs.Opacity
import Reckoner.Proofs.PostfixOrder
import Reckoner.Proofs.Literals
import Reckoner.Proofs.Scanning
import Reckoner.Proofs.Spelling
import Reckoner.Proofs.MaximalMunch
import Reckoner.Proofs.Cursor
import Reckoner.Proofs.Trees
import Reckoner.Proofs.Folding
import Reckoner.Proofs.Lockstep
import Reckoner.Proofs.Operands
import Reckoner.Proofs.Rendering
import Reckoner.Proofs.Cuts
import Reckoner.Proofs.RoundTrip
import Reckoner.Proofs.FewestParens
import Reckoner.Proofs.Lexemes
import Reckoner.Proofs.Contexts
import Reckoner.Proofs.Replacement
import Reckoner.Proofs.Repetition
import Reckoner.Proofs.Accounting
import Reckoner.Proofs.TokenTexts
import Reckoner.Proofs.Unemitted
import Reckoner.Proofs.Transcript
import Reckoner.Proofs.Validation
import Reckoner.Proofs.LookAhead
import Reckoner.Proofs.LongestNumeral
import Reckoner.Proofs.StackDepth
import Reckoner.Proofs.TokenBoundaries
