import Nut.Evaluation.ScopeText
import Nut.Main
import Nut.Session.Engine
import Nut.Session.Evaluator
import Nut.Proofs.Parsing.Depth
import Nut.Proofs.Lexing.Spelling
import Nut.Proofs.Lexing.Seams
import Nut.Proofs.Lexing.Munch
import Nut.Proofs.Lexing.Rendering
import Nut.Proofs.Lexing.Breaks
import Nut.Proofs.Parsing.Contained
import Nut.Proofs.Parsing.Entries
import Nut.Proofs.Parsing.Descent
import Nut.Proofs.Parsing.Rebound
import Nut.Proofs.Parsing.Rebinding
import Nut.Proofs.Parsing.Ending
import Nut.Proofs.Parsing.Terminated
import Nut.Proofs.Parsing.Isolation
import Nut.Proofs.Parsing.Recovery
import Nut.Proofs.Parsing.Precedence
import Nut.Proofs.Parsing.WellFormed
import Nut.Proofs.Parsing.Braces
import Nut.Proofs.Parsing.Scanning
import Nut.Proofs.Parsing.OpenBraces
import Nut.Proofs.Printing.Lexemes
import Nut.Proofs.Printing.Lexing
import Nut.Proofs.Printing.RoundTrip
import Nut.Proofs.Evaluation.Likeness
import Nut.Proofs.Evaluation.Coupling
import Nut.Proofs.Evaluation.Terms
import Nut.Proofs.Evaluation.Invariants
import Nut.Proofs.Evaluation.Steps
import Nut.Proofs.Evaluation.Unwinding
import Nut.Proofs.Evaluation.Rounds
import Nut.Proofs.Evaluation.Unrolling
import Nut.Proofs.Evaluation.Integers
import Nut.Proofs.Evaluation.Scoping
import Nut.Proofs.Evaluation.Reach
import Nut.Proofs.Evaluation.Linked
import Nut.Proofs.Evaluation.Reachable
import Nut.Proofs.Evaluation.Bindings
import Nut.Proofs.Evaluation.Confinement
import Nut.Proofs.Evaluation.Sound
import Nut.Proofs.Evaluation.Grounded
import Nut.Proofs.Evaluation.Visits
import Nut.Proofs.Evaluation.Outward
import Nut.Proofs.Evaluation.Alike
import Nut.Proofs.Evaluation.NonInterference
import Nut.Proofs.Evaluation.Apart
import Nut.Proofs.Evaluation.Hashes
import Nut.Proofs.Evaluation.Arrays
import Nut.Proofs.Value.Objects
import Nut.Proofs.Value.Equality
import Nut.Proofs.Text.Splitting
import Nut.Proofs.Text.Trimming
import Nut.Proofs.Session.Runs
import Nut.Proofs.Session.Environment
import Nut.Proofs.Session.Batches
import Nut.Proofs.Session.Walks
import Nut.Proofs.Session.Drivers
import Nut.Proofs.Session.Counters
