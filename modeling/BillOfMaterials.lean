import BillOfMaterials.Calendar
import BillOfMaterials.CommandLine.Run
import BillOfMaterials.Disk.Tree
import BillOfMaterials.License.Extraction
import BillOfMaterials.License.Input
import BillOfMaterials.Main
import BillOfMaterials.Proofs.Document.Lookup
import BillOfMaterials.Proofs.Generation.Emission
import BillOfMaterials.Proofs.Identity.Messages
import BillOfMaterials.Proofs.Json.Reading
import BillOfMaterials.Proofs.License.Acceptance
import BillOfMaterials.Proofs.License.Alternation
import BillOfMaterials.Proofs.License.Composition
import BillOfMaterials.Proofs.License.Members
import BillOfMaterials.Proofs.License.Operands
import BillOfMaterials.Proofs.License.Rejection
import BillOfMaterials.Proofs.License.RoundTrip
import BillOfMaterials.Proofs.Markup.Spans
import BillOfMaterials.Proofs.Markup.WellFormed
import BillOfMaterials.Proofs.Path.Joining
import BillOfMaterials.Proofs.Report.Csv
import BillOfMaterials.Proofs.Report.Html
import BillOfMaterials.Proofs.Report.Identifiers
import BillOfMaterials.Proofs.Report.Json
import BillOfMaterials.Proofs.Report.Licenses
import BillOfMaterials.Proofs.Report.Verdicts
import BillOfMaterials.Proofs.Report.WellFormed
import BillOfMaterials.Proofs.Verification.Digests
import BillOfMaterials.Proofs.Verification.Spelling
