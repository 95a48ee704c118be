import BracketScript.Main
import BracketScript.Disk
import BracketScript.Tree.Printer
import BracketScript.Package.Math
import BracketScript.Package.Reflection
import BracketScript.Proofs.Containment
import BracketScript.Proofs.Correspondence
import BracketScript.Proofs.Correspondence.Control
import BracketScript.Proofs.Correspondence.Evaluation
import BracketScript.Proofs.Correspondence.Forms
import BracketScript.Proofs.Correspondence.Lists
import BracketScript.Proofs.Correspondence.Reading
import BracketScript.Proofs.Correspondence.Steps
import BracketScript.Proofs.Decimal.Bits
import BracketScript.Proofs.Decimal.Rounding
import BracketScript.Proofs.Decimal.Shortest
import BracketScript.Proofs.Decimal.Text
import BracketScript.Proofs.Depth
import BracketScript.Proofs.Grammar
import BracketScript.Proofs.Loading
import BracketScript.Proofs.Operations
import BracketScript.Proofs.Reachable
import BracketScript.Proofs.Recomposition
import BracketScript.Proofs.Relocation
import BracketScript.Proofs.Relocation.Lawful
import BracketScript.Proofs.RoundTrip
import BracketScript.Proofs.Scoping
import BracketScript.Proofs.Spelling
import BracketScript.Proofs.Unmatched
import BracketScript.Proofs.Invariant
import BracketScript.Proofs.Interleaving
import BracketScript.Proofs.Configurations
import BracketScript.Proofs.Separation
import BracketScript.Proofs.Drivers
import BracketScript.Proofs.Agreement
import BracketScript.Proofs.Assignment
import BracketScript.Proofs.Places
import BracketScript.Proofs.Provenance
import BracketScript.Proofs.Operands
import BracketScript.Proofs.Preservation
import BracketScript.Proofs.Channels
import BracketScript.Proofs.ListChanges
import BracketScript.Proofs.Naming
import BracketScript.Proofs.Reports
import BracketScript.Proofs.Layout
import BracketScript.Proofs.Words
import BracketScript.Proofs.Iteration
import BracketScript.Proofs.Offsets
import BracketScript.Proofs.Lexical
import BracketScript.Proofs.Wrapping
import BracketScript.Proofs.Conversion
import BracketScript.Proofs.Resolution
import BracketScript.Proofs.Decimal.Overflow
import BracketScript.Proofs.Literals
import BracketScript.Proofs.Packages
