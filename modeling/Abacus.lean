import Abacus.Main
import Abacus.Proofs.Expr.Printing
import Abacus.Proofs.Session.Exactness
import Abacus.Proofs.Session.Failures
import Abacus.Proofs.Session.Invariant
import Abacus.Proofs.Notebook.Prompt
import Abacus.Proofs.Journal.Store
import Abacus.Proofs.Program.Accumulation
import Abacus.Proofs.Expr.Kinds
import Abacus.Proofs.Session.Assignment
import Abacus.Proofs.Session.Substitution
import Abacus.Proofs.Session.LineBreaks
import Abacus.Proofs.Expr.Viability
import Abacus.Proofs.Number.Whole
import Abacus.Proofs.Session.Modes
import Abacus.Proofs.Number.Sign
import Abacus.Proofs.Session.Zeros
import Abacus.Proofs.Session.Operand
import Abacus.Proofs.Session.Calculation
import Abacus.Proofs.Number.Overflow
import Abacus.Proofs.Number.Integers
import Abacus.Proofs.Token.Partition
import Abacus.Proofs.Session.Integers
import Abacus.Proofs.Session.Faults
import Abacus.Proofs.Token.Separation
import Abacus.Proofs.Number.Wrapping
import Abacus.Proofs.Decimal.Rounding
import Abacus.Proofs.Number.Nearest
import Abacus.Proofs.Value.Format
import Abacus.Proofs.Session.Readback
import Abacus.Proofs.Session.Functions
import Abacus.Proofs.Session.Scope
import Abacus.Proofs.Session.Retention
import Abacus.Proofs.Notebook.Sequence
import Abacus.Proofs.Expr.Positions
import Abacus.Proofs.Session.Blanks
import Abacus.Proofs.Notebook.Reproduction
import Abacus.Proofs.Journal.Window
import Abacus.Proofs.Journal.Replacement
