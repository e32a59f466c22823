import Abacus.Main
import Abacus.Proofs.Acceptance
import Abacus.Proofs.Accounting
import Abacus.Proofs.Adjacency
import Abacus.Proofs.Answers
import Abacus.Proofs.Balance
import Abacus.Proofs.Blame
import Abacus.Proofs.Blanks
import Abacus.Proofs.Breakdown
import Abacus.Proofs.Composition
import Abacus.Proofs.CommandLine
import Abacus.Proofs.Conversation
import Abacus.Proofs.Conversions
import Abacus.Proofs.Correspondence
import Abacus.Proofs.Coverage
import Abacus.Proofs.Display
import Abacus.Proofs.Draining
import Abacus.Proofs.Emptiness
import Abacus.Proofs.Expression
import Abacus.Proofs.Filenames
import Abacus.Proofs.Isolation
import Abacus.Proofs.Kinds
import Abacus.Proofs.Leaving
import Abacus.Proofs.Leftovers
import Abacus.Proofs.Legibility
import Abacus.Proofs.LineBreaks
import Abacus.Proofs.Lookback
import Abacus.Proofs.Meaning
import Abacus.Proofs.OperatorStack
import Abacus.Proofs.Overlaying
import Abacus.Proofs.Parentheses
import Abacus.Proofs.Places
import Abacus.Proofs.Postfix
import Abacus.Proofs.Quotients
import Abacus.Proofs.Printability
import Abacus.Proofs.Reading
import Abacus.Proofs.Refinement
import Abacus.Proofs.Rejection
import Abacus.Proofs.Renumbering
import Abacus.Proofs.Runs
import Abacus.Proofs.Scanning
import Abacus.Proofs.Signs
import Abacus.Proofs.Structure
import Abacus.Proofs.SwitchForms
import Abacus.Proofs.Trace
import Abacus.Proofs.Trimming
