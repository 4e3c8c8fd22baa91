import Lexer.Automaton.Build
import Lexer.Automaton.Run
import Lexer.Pattern.Report
import Lexer.Text.Blank
import Lexer.Text.Escaped
import Lexer.Artifact.Decoding
import Lexer.Artifact.Encoding
import Lexer.Artifact.Persistence
import Lexer.CommandLine.Options
import Lexer.CommandLine.Program
import Lexer.Main
import Lexer.Specification.Warnings
import Lexer.Proofs.Matching
import Lexer.Proofs.Specification.Composition
import Lexer.Proofs.Specification.Grammar
import Lexer.Proofs.Model.Grouping
import Lexer.Proofs.Artifact.RoundTrip
import Lexer.Proofs.Invariant
import Lexer.Proofs.Artifact.Persisting
import Lexer.Proofs.Model.Interleaving
import Lexer.Proofs.CommandLine.Delivery
import Lexer.Proofs.CommandLine.Failure
import Lexer.Proofs.Pattern.Balance
import Lexer.Proofs.Pattern.Depth
import Lexer.Proofs.Acceptance
import Lexer.Proofs.Automaton.Operations
import Lexer.Proofs.Automaton.Simulation
import Lexer.Proofs.Model.Declarations
import Lexer.Proofs.Specification.Faults
import Lexer.Proofs.Model.Compiling
import Lexer.Proofs.Model.Restoring
import Lexer.Proofs.Model.Winning
import Lexer.Proofs.Model.Directives
import Lexer.Proofs.Specification.Idempotence
import Lexer.Proofs.Graph.Drawing
import Lexer.Proofs.Graph.Strings
import Lexer.Proofs.CharSet.Bisection
import Lexer.Proofs.Automaton.Worklist
import Lexer.Proofs.Artifact.Reloading
