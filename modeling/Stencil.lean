import Stencil.Standard
import Stencil.Proofs.Unscoped
import Stencil.Proofs.Sequence
import Stencil.Proofs.Closing
import Stencil.Proofs.InlineLine
import Stencil.Proofs.Noninterference
import Stencil.Proofs.LineShapes
import Stencil.Proofs.Block
import Stencil.Proofs.OneLine
import Stencil.Proofs.Plain
import Stencil.Proofs.Document
import Stencil.Proofs.Rescan
import Stencil.Proofs.Definition
import Stencil.Proofs.Limits
import Stencil.Proofs.LoadCycles
import Stencil.Proofs.Fetched
import Stencil.Proofs.SelfReference
import Stencil.Proofs.Silent
import Stencil.Proofs.Transparent
import Stencil.Proofs.Json.RoundTrip
import Stencil.Proofs.Session
import Stencil.Proofs.Matching
import Stencil.Proofs.ReferenceEnds
import Stencil.Proofs.Exchange
import Stencil.Proofs.LineKinds
import Stencil.Proofs.Splitting
import Stencil.Proofs.ReferenceArguments
import Stencil.Proofs.Writing
import Stencil.Proofs.Indices
import Stencil.Proofs.Numerals
import Stencil.Proofs.WholeNumbers
import Stencil.Proofs.Paths
import Stencil.Proofs.Keys
import Stencil.Proofs.Roles
import Stencil.Proofs.Chains
import Stencil.Proofs.Orders
import Stencil.Proofs.Iteration
import Stencil.Proofs.CallOrder
import Stencil.Proofs.Counting
import Stencil.Proofs.Entries
import Stencil.Proofs.Progression
import Stencil.Proofs.Grammar.Expression
import Stencil.Proofs.Grammar.Rules
import Stencil.Proofs.Grammar.Units
import Stencil.Proofs.Grammar.Words
import Stencil.Proofs.Grammar.Heads
import Stencil.Proofs.Grammar.Lines
import Stencil.Proofs.Grammar.References
import Stencil.Proofs.Grammar.Escapes
import Stencil.Proofs.Spelling
import Stencil.Proofs.Capitals
