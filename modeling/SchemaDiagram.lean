import SchemaDiagram.Json.Parser
import SchemaDiagram.Main
import SchemaDiagram.Proofs.Bracketing
import SchemaDiagram.Proofs.CommandLine.Agreement
import SchemaDiagram.Proofs.CommandLine.ExitCode
import SchemaDiagram.Proofs.CommandLine.Preservation
import SchemaDiagram.Proofs.Concatenation
import SchemaDiagram.Proofs.Decomposition
import SchemaDiagram.Proofs.Deduplication
import SchemaDiagram.Proofs.Documentation
import SchemaDiagram.Proofs.Earliest
import SchemaDiagram.Proofs.Edges
import SchemaDiagram.Proofs.Inert
import SchemaDiagram.Proofs.Insertion
import SchemaDiagram.Proofs.Legible
import SchemaDiagram.Proofs.Lines
import SchemaDiagram.Proofs.NormalForm
import SchemaDiagram.Proofs.Order
import SchemaDiagram.Proofs.RoundTrip
import SchemaDiagram.Proofs.Scan.Closing
import SchemaDiagram.Proofs.Scan.Row
import SchemaDiagram.Proofs.Scan.Splitting
import SchemaDiagram.Proofs.Tool.Answer
import SchemaDiagram.Schema.Json
import SchemaDiagram.Schema.Printer
import SchemaDiagram.Tool.Call
import SchemaDiagram.Proofs.Scan.Stopping
import SchemaDiagram.Proofs.Json.Shape
import SchemaDiagram.Proofs.Json.Site
import SchemaDiagram.Proofs.Keys
import SchemaDiagram.Proofs.Scan.Cut
import SchemaDiagram.Proofs.Json.Reading
import SchemaDiagram.Proofs.Validation
