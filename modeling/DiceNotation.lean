import DiceNotation.Form.Build
import DiceNotation.Session
import DiceNotation.Proofs.Parts
import DiceNotation.Proofs.Ensures
import DiceNotation.Proofs.Fragment
import DiceNotation.Proofs.Totals
import DiceNotation.Proofs.Raised
import DiceNotation.Proofs.Evaluation
import DiceNotation.Proofs.History
import DiceNotation.Proofs.Safety
import DiceNotation.Proofs.Machine
import DiceNotation.Proofs.Halting
import DiceNotation.Proofs.Dependence
import DiceNotation.Proofs.Scope
import DiceNotation.Proofs.Rolls
import DiceNotation.Proofs.Frame
import DiceNotation.Proofs.Namespace
import DiceNotation.Proofs.Limits
import DiceNotation.Proofs.Account
import DiceNotation.Proofs.Exact
import DiceNotation.Proofs.Finite
import DiceNotation.Proofs.Faces
import DiceNotation.Proofs.Span
import DiceNotation.Proofs.Pools
import DiceNotation.Proofs.Audit
import DiceNotation.Proofs.FiniteRuns
import DiceNotation.Proofs.Chance
import DiceNotation.Proofs.Commute
import DiceNotation.Proofs.Powers
import DiceNotation.Proofs.Rounding
import DiceNotation.Proofs.Quotients
import DiceNotation.Proofs.NegativePowers
import DiceNotation.Proofs.Sums
import DiceNotation.Proofs.Trees
import DiceNotation.Proofs.Splitting
import DiceNotation.Proofs.DiceRule
import DiceNotation.Proofs.FirstFailure
import DiceNotation.Proofs.Substitution
import DiceNotation.Proofs.Failures
import DiceNotation.Proofs.Hosts
import DiceNotation.Proofs.Arity
import DiceNotation.Proofs.Parameters
import DiceNotation.Proofs.CallDepth
import DiceNotation.Proofs.ExactOrder
import DiceNotation.Proofs.Sorting
import DiceNotation.Proofs.Extremes
import DiceNotation.Proofs.Numerals
import DiceNotation.Proofs.DecimalDigits
import DiceNotation.Proofs.OneLine
